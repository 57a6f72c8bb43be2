import CallTrace.Proofs.Reader.Journal
import CallTrace.Proofs.Recording.Answers
import CallTrace.Proofs.Walk.Requests

/-!
# What readers keep and hand out

Whatever is read, some measure of the state of a reader stays as it is, and all records that
are handed out have some property: this is the contract of the reader.  It passes on to all
that is built from the answers, and in particular to walks (`next_ensures`).  All readers
have the trivial contract, recordings hand out their own calls (`Recording.reader_ensures`),
and a reader that keeps a journal is not closed by being read (`noted_ensures`).
-/

namespace CallTrace

variable {σ τ α β : Type} {f : σ → τ}

/-- Reading leaves the measure as it is, and what is read has the property. -/
def Read.Ensures (f : σ → τ) (P : α → Prop) (read : Read σ α) : Prop :=
  ∀ s, f (read s).2 = f s ∧ ∀ x, (read s).1 = .ok x → P x

/-- All items of a listing are read so. -/
def Listing.Ensures (f : σ → τ) (P : α → Prop) (listing : Listing σ α) : Prop :=
  ∀ read ∈ listing, Read.Ensures f P read

/-- All that can be asked of a reader but to be closed leaves the measure as it is, and all
    records that it hands out have the property. -/
structure Reader.Ensures (f : σ → τ) (P : CallRecord → Prop) (r : Reader σ) : Prop where
  clients : r.clients.Ensures f (Listing.Ensures f fun _ => True)
  calls : ∀ client, (r.calls client).Ensures f (Listing.Ensures f P)
  childCalls : ∀ handle, (r.childCalls handle).Ensures f (Listing.Ensures f P)
  modules : r.modules.Ensures f (Listing.Ensures f fun _ => True)

/-- The call comes from a record with the property, and bears the number of the store. -/
def Stamped (P : CallRecord → Prop) (store : StoreId) (call : Call) : Prop :=
  ∃ record, P record ∧ call = Call.ofRecord record store

/-! ### Requests -/

section Requests

variable {P : α → Prop} {Q : β → Prop}

theorem Read.Ensures.map {g : α → β} {read : Read σ α} (h : read.Ensures f P)
    (hg : ∀ x, P x → Q (g x)) : (read.map g).Ensures f Q := by
  intro s
  obtain ⟨kept, good⟩ := h s
  refine ⟨kept, ?_⟩
  intro y hy
  simp only [Read.map] at hy
  cases hread : (read s).1 with
  | error e =>
    rw [hread] at hy
    cases hy
  | ok x =>
    rw [hread] at hy
    cases hy
    exact hg x (good x hread)

theorem Listing.Ensures.map {g : α → β} {listing : Listing σ α} (h : listing.Ensures f P)
    (hg : ∀ x, P x → Q (g x)) : Listing.Ensures f Q (Listing.map g listing) := by
  intro read hread
  obtain ⟨original, horiginal, rfl⟩ := List.mem_map.mp hread
  exact (h original horiginal).map hg

theorem Read.ensures_answer {x : α} (h : P x) : Read.Ensures f P (Read.answer (.ok x)) := by
  intro s
  refine ⟨rfl, ?_⟩
  rintro _ ⟨⟩
  exact h

theorem Read.ensures_refused (e : TraceError) :
    Read.Ensures f P (Read.answer (.error e) : Read σ α) := by
  intro s
  refine ⟨rfl, ?_⟩
  rintro _ ⟨⟩

end Requests

theorem Read.Ensures.eq {P : α → Prop} {read : Read σ α} (h : read.Ensures f P)
    {result : Except TraceError α} {s s' : σ} (hread : read s = (result, s')) :
    f s' = f s ∧ ∀ x, result = .ok x → P x := by
  have := h s
  rwa [hread] at this

variable {P : CallRecord → Prop} {r : Reader σ} {store : StoreId}

theorem Read.Ensures.stamped {request : Read σ (Listing σ CallRecord)}
    (h : request.Ensures f (Listing.Ensures f P)) (store : StoreId) :
    (request.map (Listing.map (Call.ofRecord · store))).Ensures f
      (Listing.Ensures f (Stamped P store)) :=
  h.map fun _ listing => listing.map fun record hrecord => ⟨record, hrecord, rfl⟩

namespace Reader.Ensures

theorem stampedCalls (h : Reader.Ensures f P r) (store : StoreId) (client : Client) :
    (r.stampedCalls store client).Ensures f (Listing.Ensures f (Stamped P store)) :=
  (h.calls client).stamped store

theorem stampedChildren (h : Reader.Ensures f P r) (store : StoreId) (call : Call) :
    (r.stampedChildren store call).Ensures f (Listing.Ensures f (Stamped P store)) := by
  by_cases entry : call.isSynthetic = true
  · rw [Reader.stampedChildren, if_pos entry]
    refine Read.ensures_answer ?_
    intro read hread
    cases hread
  · rw [Reader.stampedChildren, if_neg entry]
    exact (h.childCalls call.handle).stamped store

end Reader.Ensures

/-! ### Walks -/

/-- All that a walk still has to read is read so, and yields calls of the store. -/
def Stage.Ensures (f : σ → τ) (P : CallRecord → Prop) (store : StoreId) : Stage σ → Prop
  | .reading opened clients =>
    (∀ listing ∈ opened.listings, Listing.Ensures f (Stamped P store) listing) ∧
      Listing.Ensures f (fun _ => True) clients
  | .refused _ _ | .over => True

/-- The item is a call of the store if it is one. -/
def GoodItem (P : CallRecord → Prop) (store : StoreId) (item : Option (Except TraceError Call)) :
    Prop :=
  ∀ call, item = some (.ok call) → Stamped P store call

def Turn.Ensures (f : σ → τ) (P : CallRecord → Prop) (store : StoreId) : Turn σ → Prop
  | .again opened clients => (Stage.reading opened clients).Ensures f P store
  | .stop item stage => GoodItem P store item ∧ stage.Ensures f P store

section Walks

variable {opened : Pile σ} {clients : Listing σ Client} {s s' : σ}

theorem goodItem_error (e : TraceError) : GoodItem P store (some (.error e)) := by
  rintro call ⟨⟩

theorem goodItem_ok {call : Call} (h : Stamped P store call) :
    GoodItem P store (some (.ok call)) := by
  rintro _ ⟨⟩
  exact h

/-- The listings after an item of the innermost one was read. -/
theorem ensures_rest {read : Read σ Call} {rest : Listing σ Call}
    {outer : List (Listing σ Call)} (top : opened.listings = (read :: rest) :: outer)
    (h : ∀ listing ∈ opened.listings, Listing.Ensures f (Stamped P store) listing) :
    read.Ensures f (Stamped P store) ∧
      ∀ listing ∈ (opened.pop.push rest).listings, Listing.Ensures f (Stamped P store) listing := by
  rw [top] at h
  have inner := h _ List.mem_cons_self
  refine ⟨inner read List.mem_cons_self, ?_⟩
  rw [Pile.listings_push, Pile.listings_pop, top, List.tail_cons]
  intro listing hlisting
  rcases List.mem_cons.mp hlisting with rfl | houter
  · exact fun item hitem => inner item (List.mem_cons_of_mem read hitem)
  · exact h listing (List.mem_cons_of_mem _ houter)

theorem ensures_push {listing : Listing σ Call} (hlisting : listing.Ensures f (Stamped P store))
    (h : ∀ other ∈ opened.listings, Listing.Ensures f (Stamped P store) other) :
    ∀ other ∈ (opened.push listing).listings, Listing.Ensures f (Stamped P store) other := by
  intro other hother
  rcases List.mem_cons.mp hother with rfl | hold
  · exact hlisting
  · exact h other hold

/-- A turn keeps the contract. -/
theorem turn_ensures (contract : r.Ensures f P) {t : Turn σ}
    (h : Walk.turn r store opened clients s = (t, s'))
    (sound : (Stage.reading opened clients).Ensures f P store) :
    f s' = f s ∧ t.Ensures f P store := by
  obtain ⟨listings, names⟩ := sound
  cases Walk.turns_of_eq h with
  | ended none_open => exact ⟨rfl, fun _ h => (by cases h), trivial⟩
  | unlisted none_open failure =>
    exact ⟨((names _ List.mem_cons_self).eq failure).1, goodItem_error _, trivial⟩
  | unopened client none_open next refused =>
    have asked := (contract.stampedCalls store client).eq refused
    exact ⟨asked.1.trans ((names _ List.mem_cons_self).eq next).1, goodItem_error _, trivial⟩
  | opened client none_open next granted =>
    have asked := (contract.stampedCalls store client).eq granted
    refine ⟨asked.1.trans ((names _ List.mem_cons_self).eq next).1, ?_, ?_⟩
    · exact ensures_push (asked.2 _ rfl) listings
    · exact fun read hread => names read (List.mem_cons_of_mem _ hread)
  | used top =>
    refine ⟨rfl, ?_, names⟩
    intro listing hlisting
    exact listings listing (List.mem_of_mem_tail hlisting)
  | unread top failure =>
    exact ⟨((ensures_rest top listings).1.eq failure).1, goodItem_error _, trivial⟩
  | synthetic top next entry =>
    obtain ⟨inner, rest⟩ := ensures_rest top listings
    have read := inner.eq next
    exact ⟨read.1, goodItem_ok (read.2 _ rfl), rest, names⟩
  | childrenRefused top next entry refused =>
    have read := (ensures_rest top listings).1.eq next
    have asked := (contract.stampedChildren store _).eq refused
    exact ⟨asked.1.trans read.1, goodItem_ok (read.2 _ rfl), trivial⟩
  | normal top next entry granted =>
    obtain ⟨inner, rest⟩ := ensures_rest top listings
    have read := inner.eq next
    have asked := (contract.stampedChildren store _).eq granted
    exact ⟨asked.1.trans read.1, goodItem_ok (read.2 _ rfl),
      ensures_push (asked.2 _ rfl) rest, names⟩

theorem advance_ensures (contract : r.Ensures f P)
    (sound : (Stage.reading opened clients).Ensures f P store) (s : σ) :
    f (Walk.advance r store opened clients s).2 = f s ∧
      GoodItem P store (Walk.advance r store opened clients s).1.1 ∧
      (Walk.advance r store opened clients s).1.2.Ensures f P store := by
  fun_induction Walk.advance r store opened clients s with
  | case1 opened clients s item stage s' hturn => exact turn_ensures contract hturn sound
  | case2 opened clients s opened' clients' s' hturn ih =>
    obtain ⟨kept, sound'⟩ := turn_ensures contract hturn sound
    obtain ⟨kept', later⟩ := ih sound'
    exact ⟨kept'.trans kept, later⟩

theorem next_ensures (contract : r.Ensures f P) {w : Walk σ}
    (sound : w.stage.Ensures f P store) (s : σ) :
    f (w.next r store s).2.2 = f s ∧ GoodItem P store (w.next r store s).1 ∧
      (w.next r store s).2.1.stage.Ensures f P store := by
  rcases w with ⟨⟨opened, clients⟩ | ⟨e, depth⟩ | _, visited⟩
  · exact advance_ensures contract sound s
  · exact ⟨rfl, goodItem_error e, trivial⟩
  · exact ⟨rfl, fun _ h => (by cases h), trivial⟩

theorem after_ensures (contract : r.Ensures f P) {w : Walk σ}
    (sound : w.stage.Ensures f P store) (s : σ) (n : Nat) :
    f (w.after r store n s).2 = f s := by
  induction n generalizing w s with
  | zero => rfl
  | succ n ih =>
    obtain ⟨kept, -, sound'⟩ := next_ensures contract sound s
    exact (ih sound' _).trans kept

theorem start_ensures (contract : r.Ensures f P) (client? : Option Client) :
    (Walk.start r store client?).Ensures f fun w => w.stage.Ensures f P store := by
  cases client? with
  | none => exact contract.clients.map fun clients names => ⟨fun _ h => (by cases h), names⟩
  | some client =>
    refine (contract.stampedCalls store client).map fun calls hcalls => ?_
    exact ⟨ensures_push hcalls fun _ h => (by cases h), fun _ h => (by cases h)⟩

end Walks

/-! ### Contracts of readers -/

theorem Read.ensures_true (read : Read σ α) :
    read.Ensures (fun _ => ()) (fun _ => True) :=
  fun _ => ⟨rfl, fun _ _ => trivial⟩

/-- Nothing is asked of any reader. -/
theorem Reader.ensures_true (r : Reader σ) : r.Ensures (fun _ => ()) (fun _ => True) where
  clients := fun _ => ⟨rfl, fun _ _ read _ => read.ensures_true⟩
  calls := fun _ _ => ⟨rfl, fun _ _ read _ => read.ensures_true⟩
  childCalls := fun _ _ => ⟨rfl, fun _ _ read _ => read.ensures_true⟩
  modules := fun _ => ⟨rfl, fun _ _ read _ => read.ensures_true⟩

/-- How often the reader was closed. -/
def closesOf (s : Journal × σ) : Nat := s.1.closes

theorem noted_keeps {P : α → Prop} {note : Except TraceError α → Note}
    (h : ∀ result, (note result).isClose = false) {read : Read σ α} (hP : ∀ x, P x) :
    (read.noted note).Ensures closesOf P := by
  rintro ⟨journal, s⟩
  refine ⟨?_, fun x _ => hP x⟩
  simp [Read.noted, closesOf, Journal.closes, h]

theorem notedListing_keeps {P : α → Prop} {asked : Option TraceError → Note}
    {item : Except TraceError α → Note} (hasked : ∀ failure, (asked failure).isClose = false)
    (hitem : ∀ result, (item result).isClose = false) (hP : ∀ x, P x)
    (request : Read σ (Listing σ α)) :
    (request.notedListing asked item).Ensures closesOf (Listing.Ensures closesOf P) := by
  have noted : (request.noted fun answer => asked (failureOf answer)).Ensures closesOf
      (fun _ => True) := noted_keeps (fun answer => hasked _) fun _ => trivial
  refine noted.map ?_
  intro listing _ read hread
  obtain ⟨original, -, rfl⟩ := List.mem_map.mp hread
  exact noted_keeps hitem hP

/-- Reading a reader with a journal does not close it. -/
theorem noted_ensures (r : Reader σ) : r.noted.Ensures closesOf (fun _ => True) where
  clients := notedListing_keeps (fun _ => rfl) (fun _ => rfl) (fun _ => trivial) _
  calls := fun _ => notedListing_keeps (fun _ => rfl) (fun _ => rfl) (fun _ => trivial) _
  childCalls := fun _ => notedListing_keeps (fun _ => rfl) (fun _ => rfl) (fun _ => trivial) _
  modules := notedListing_keeps (fun _ => rfl) (fun _ => rfl) (fun _ => trivial) _

/-- A recording hands out its own calls. -/
theorem Recording.reader_ensures (r : Recording) :
    (r.reader : Reader σ).Ensures (fun _ => ())
      fun record => r.recordAt record.handle.index = .ok record := by
  have records : ∀ indices : Array Nat, Listing.Ensures (fun _ : σ => ())
      (fun record => r.recordAt record.handle.index = .ok record) (r.records indices) := by
    intro indices read hread
    obtain ⟨index, -, rfl⟩ := List.mem_map.mp hread
    intro s
    refine ⟨rfl, ?_⟩
    intro record hrecord
    obtain ⟨node, -, hhandle, -⟩ := recordAt_eq_ok hrecord
    rw [hhandle]
    exact hrecord
  constructor
  · exact fun _ => ⟨rfl, fun _ _ read _ => read.ensures_true⟩
  · intro client
    simp only [reader]
    cases r.client? client with
    | none => exact Read.ensures_refused _
    | some entry => exact Read.ensures_answer (records entry.roots)
  · intro handle
    simp only [reader]
    cases r.nodes[handle.index]? with
    | none => exact Read.ensures_refused _
    | some node => exact Read.ensures_answer (records node.children)
  · exact fun _ => ⟨rfl, fun _ _ read _ => read.ensures_true⟩

end CallTrace
