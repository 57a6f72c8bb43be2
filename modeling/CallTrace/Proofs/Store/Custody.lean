import CallTrace.Proofs.FileTree
import CallTrace.Proofs.Store.Session

/-!
# Stores in the course of a session

A store takes a reader into its keeping when it is opened.  From then on, whatever is done in
the session, the terms of the reader are kept: the reader is read until the store is closed or
dropped, it is closed once, and all calls that are handed out bear the number of the store
(`kept_step`, `kept_run`).  What follows for all stores of a session is `stores_of_session`.
-/

namespace CallTrace

variable {σ τ : Type}

/-! ### Standing -/

/-- How a store stands that was opened. -/
inductive Standing where
  | opened
  | closed
  | dropped
deriving DecidableEq, Repr

/-- What a use makes of a store. -/
def Use.outcome : Use → Standing → Standing
  | _, .dropped => .dropped
  | .drop, _ => .dropped
  | .close, _ => .closed
  | _, standing => standing

/-- How a store stands after an action. -/
def Standing.after (id : StoreId) (standing : Standing) : Action σ → Standing
  | .use other use => if other = id then use.outcome standing else standing
  | .openStore _ _ | .openFile _ _ _ | .pull _ => standing

/-- How a store stands after the actions since it was opened. -/
def standingAfter (id : StoreId) (actions : List (Action σ)) : Standing :=
  actions.foldl (Standing.after id) .opened

/-! ### Contracts -/

/-- All that the enumeration still has to read is read so, and yields calls of the store. -/
def Enumeration.Ensures (f : σ → τ) (P : CallRecord → Prop) (id : StoreId) : Enumeration σ → Prop
  | .clients rest => rest.Ensures f fun _ => True
  | .modules rest => rest.Ensures f fun _ => True
  | .calls rest => rest.Ensures f (Stamped P id)
  | .walk w => w.stage.Ensures f P id

section Contracts

variable {f : σ → τ} {P : CallRecord → Prop}

theorem Query.request_ensures {r : Reader σ} (contract : r.Ensures f P) (id : StoreId)
    (query : Query) : (query.request r id).Ensures f (Enumeration.Ensures f P id) := by
  cases query with
  | clients => exact contract.clients.map fun _ h => h
  | modules => exact contract.modules.map fun _ h => h
  | calls client => exact (contract.stampedCalls id client).map fun _ h => h
  | children call => exact (contract.stampedChildren id call).map fun _ h => h
  | walk client? => exact (start_ensures contract client?).map fun _ h => h

/-- A count keeps the contract if its walk comes to an end. -/
theorem countWalk_ensures {s : Store σ} (contract : s.reader.Ensures f P)
    {client? : Option Client} (finishes : s.Finishes client?) (key : Call → String) (t : Tally) :
    f (s.reader.countWalk s.id (Walk.start s.reader s.id client?) key t s.state).2 = f s.state := by
  have started : f (Walk.start s.reader s.id client? s.state).2 = f s.state ∧
      ∀ w, (Walk.start s.reader s.id client? s.state).1 = .ok w → w.stage.Ensures f P s.id :=
    start_ensures contract client? s.state
  have isOver := finishes
  rw [Store.Finishes] at isOver
  rw [Reader.countWalk, Reader.countWalkBy]
  generalize Walk.start s.reader s.id client? s.state = answer at started isOver
  obtain ⟨_ | w, state⟩ := answer
  · exact started.1
  · obtain ⟨n, last⟩ := isOver w state rfl
    obtain ⟨m, hm⟩ := drain_eq_after last
    refine (congrArg (fun left => f left.2) hm).trans ?_
    rw [after_ensures contract (started.2 w rfl)]
    exact started.1

/-- What is read from an enumeration of a store. -/
structure Store.Pulled (f : σ → τ) (P : CallRecord → Prop) (s : Store σ)
    (result : Option Call × Enumeration σ × Store σ) : Prop where
  store : result.2.2 = { s with state := result.2.2.state }
  kept : f result.2.2.state = f s.state
  call : ∀ call, result.1 = some call → Stamped P s.id call
  rest : result.2.1.Ensures f P s.id

theorem Store.pull_ensures {s : Store σ} (contract : s.reader.Ensures f P) {e : Enumeration σ}
    (h : e.Ensures f P s.id) : s.Pulled f P (s.pull e) := by
  have ahead : ∀ {α : Type} {Q : α → Prop} {read : Read σ α} {rest : Listing σ α},
      Listing.Ensures f Q (read :: rest) → read.Ensures f Q ∧ Listing.Ensures f Q rest :=
    fun h => ⟨h _ List.mem_cons_self, fun read hread => h read (List.mem_cons_of_mem _ hread)⟩
  rcases e with (_ | ⟨read, rest⟩) | (_ | ⟨read, rest⟩) | (_ | ⟨read, rest⟩) | w
  · exact ⟨rfl, rfl, fun _ h => (by cases h), h⟩
  · exact ⟨rfl, ((ahead h).1 s.state).1, fun _ h => (by cases h), (ahead h).2⟩
  · exact ⟨rfl, rfl, fun _ h => (by cases h), h⟩
  · exact ⟨rfl, ((ahead h).1 s.state).1, fun _ h => (by cases h), (ahead h).2⟩
  · exact ⟨rfl, rfl, fun _ h => (by cases h), h⟩
  · refine ⟨rfl, ((ahead h).1 s.state).1, ?_, (ahead h).2⟩
    intro call hcall
    exact ((ahead h).1 s.state).2 call (eq_ok_of_toOption hcall)
  · obtain ⟨kept, good, rest⟩ := next_ensures contract h s.state
    refine ⟨rfl, kept, ?_, rest⟩
    intro call hcall
    obtain ⟨item, hitem, hok⟩ := Option.bind_eq_some_iff.mp hcall
    exact good call (hitem.trans (congrArg some (eq_ok_of_toOption hok)))

end Contracts

/-! ### Terms -/

/-- A reader in the keeping of a store: what reading it keeps and hands out, and what becomes
    of it when it is closed. -/
structure Terms (σ τ : Type) where
  reader : Reader σ
  measure : σ → τ
  property : CallRecord → Prop
  inUse : τ
  released : τ
  reads : reader.Ensures measure property
  closes : ∀ s, measure s = inUse → measure (reader.close s).2 = released

variable {t : Terms σ τ} {id : StoreId} {standing : Standing} {s s' : Session σ}

/-- Where a store stands, and that its reader was treated accordingly. -/
inductive Session.Stands (t : Terms σ τ) (id : StoreId) (s : Session σ) : Standing → Prop where
  | opened {state : σ} (place : s.pool.places[id]? = some (some ⟨id, t.reader, state, true⟩))
      (inUse : t.measure state = t.inUse) : Stands t id s .opened
  | closed {state : σ} (place : s.pool.places[id]? = some (some ⟨id, t.reader, state, false⟩))
      (released : t.measure state = t.released) : Stands t id s .closed
  | dropped {state : σ} (place : s.pool.places[id]? = some none)
      (left : s.released id = some state) (released : t.measure state = t.released) :
      Stands t id s .dropped

/-- The terms of the reader of a store are kept. -/
structure Session.Keeps (t : Terms σ τ) (id : StoreId) (standing : Standing) (s : Session σ) :
    Prop where
  stands : s.Stands t id standing
  running : ∀ e, (id, e) ∈ s.running → standing = .opened ∧ e.Ensures t.measure t.property id
  held : ∀ call, (id, call) ∈ s.held → Stamped t.property id call

namespace Session

theorem Stands.lt_size (h : s.Stands t id standing) : id < s.pool.places.size := by
  cases h with
  | opened place _ => exact (Array.getElem?_eq_some_iff.mp place).1
  | closed place _ => exact (Array.getElem?_eq_some_iff.mp place).1
  | dropped place _ _ => exact (Array.getElem?_eq_some_iff.mp place).1

theorem Stands.congr (h : s.Stands t id standing)
    (place : s'.pool.places[id]? = s.pool.places[id]?)
    (released : s'.released id = s.released id) : s'.Stands t id standing := by
  cases h with
  | opened stands inUse => exact .opened (place.trans stands) inUse
  | closed stands closed => exact .closed (place.trans stands) closed
  | dropped stands left closed => exact .dropped (place.trans stands) (released.trans left) closed

theorem Keeps.sameAt (h : s.Keeps t id standing) (same : SameAt id s s') :
    s'.Keeps t id standing where
  stands := h.stands.congr same.place same.released
  running := fun e he => h.running e (same.running e he)
  held := fun call hcall => h.held call (same.held call hcall)

theorem place_put {store : Store σ} (h : store.id < s.pool.places.size) :
    (s.put store).pool.places[store.id]? = some (some store) :=
  Array.getElem?_setIfInBounds_self_of_lt h

/-- A store that was used while it is open is put back. -/
theorem Keeps.put (h : s.Keeps t id .opened) {state : σ} (inUse : t.measure state = t.inUse) :
    (s.put ⟨id, t.reader, state, true⟩).Keeps t id .opened where
  stands := .opened (place_put h.stands.lt_size) inUse
  running := h.running
  held := h.held

theorem running_stop {e : Enumeration σ} : (id, e) ∉ (s.stop id).running := by
  intro he
  simpa using List.of_mem_filter he

/-- A store is closed. -/
theorem Keeps.close (h : s.Keeps t id standing) {state : σ}
    (released : t.measure state = t.released) :
    ((s.stop id).put ⟨id, t.reader, state, false⟩).Keeps t id .closed where
  stands := .closed (place_put (s := s.stop id) h.stands.lt_size) released
  running := fun _ he => absurd he running_stop
  held := h.held

/-- A store is dropped. -/
theorem Keeps.drop (h : s.Keeps t id standing) {store : Store σ} (owner : store.id = id)
    (released : t.measure store.drop.state = t.released) :
    (s.useStore store .drop).Keeps t id .dropped := by
  subst owner
  refine ⟨.dropped ?_ (Function.update_self ..) released, ?_, h.held⟩
  · exact Array.getElem?_setIfInBounds_self_of_lt h.stands.lt_size
  · exact fun _ he => absurd he running_stop

theorem Keeps.conclude {α : Type} (h : s.Keeps t id .opened) {state : σ} {client? : Option Client}
    {outcome : Except Misuse (α × Store σ)}
    (kept : ∀ x after, outcome = .ok (x, after) →
      Store.Finishes ⟨id, t.reader, state, true⟩ client? →
        ∃ state', after = ⟨id, t.reader, state', true⟩ ∧ t.measure state' = t.inUse) :
    (s.conclude ⟨id, t.reader, state, true⟩ client? outcome).Keeps t id .opened := by
  rcases outcome with misuse | ⟨x, after⟩
  · exact h
  · rw [Session.conclude]
    split
    · rename_i finishes
      obtain ⟨state', rfl, inUse⟩ := kept x after rfl finishes
      exact h.put inUse
    · exact h

theorem Keeps.useStore_opened (h : s.Keeps t id .opened) {state : σ}
    (inUse : t.measure state = t.inUse) (use : Use) :
    (s.useStore ⟨id, t.reader, state, true⟩ use).Keeps t id (use.outcome .opened) := by
  have counts : ∀ client? key counts counted after,
      Store.histogram ⟨id, t.reader, state, true⟩ client? key counts = .ok (counted, after) →
        Store.Finishes ⟨id, t.reader, state, true⟩ client? →
          ∃ state', after = ⟨id, t.reader, state', true⟩ ∧ t.measure state' = t.inUse := by
    intro client? key counts counted after done finishes
    refine ⟨_, (Store.histogram_eq_ok done).2, ?_⟩
    exact (countWalk_ensures t.reads finishes key counts).trans inUse
  cases use with
  | close => exact h.close (t.closes state inUse)
  | drop => exact h.drop rfl (t.closes state inUse)
  | enumerate query =>
    have asked := Query.request_ensures t.reads id query state
    rw [Session.useStore]
    split
    · exact h
    · rename_i e after begun
      obtain ⟨-, hafter⟩ := Prod.mk.inj (Store.enumerate_eq_ok begun).2
      rw [hafter]
      exact h.put (asked.1.trans inUse)
    · rename_i e after begun
      obtain ⟨hanswer, hafter⟩ := Prod.mk.inj (Store.enumerate_eq_ok begun).2
      rw [hafter]
      have put := h.put (asked.1.trans inUse)
      refine ⟨put.stands.congr rfl rfl, ?_, put.held⟩
      intro e' he'
      rcases List.mem_append.mp he' with old | new
      · exact h.running e' old
      · cases List.mem_singleton.mp new
        exact ⟨rfl, asked.2 e hanswer.symm⟩
  | histogram client? key counted =>
    exact h.conclude fun _ after done => counts client? key counted _ after done
  | analyze grouping count =>
    have kept : ∀ ranking after,
        Store.analyze ⟨id, t.reader, state, true⟩ grouping count = .ok (ranking, after) →
          Store.Finishes ⟨id, t.reader, state, true⟩ none →
            ∃ state', after = ⟨id, t.reader, state', true⟩ ∧ t.measure state' = t.inUse := by
      intro ranking after done
      obtain ⟨counted, done⟩ := Store.analyze_eq_ok done
      exact counts none _ _ counted after done
    exact h.conclude kept

/-- A misuse of a closed store changes nothing. -/
theorem useStore_closed {store : Store σ} (closed : store.isOpen = false) {use : Use}
    (hclose : use ≠ .close) (hdrop : use ≠ .drop) : s.useStore store use = s := by
  cases use with
  | close => exact absurd rfl hclose
  | drop => exact absurd rfl hdrop
  | enumerate query => rw [useStore, Store.enumerate_closed closed]
  | histogram client? key counted =>
    rw [useStore, Store.histogram_closed closed]
    rfl
  | analyze grouping count =>
    rw [useStore, Store.analyze_closed closed]
    rfl

theorem Keeps.useStore_closed (h : s.Keeps t id .closed) {state : σ}
    (released : t.measure state = t.released) (use : Use) :
    (s.useStore ⟨id, t.reader, state, false⟩ use).Keeps t id (use.outcome .closed) := by
  have unchanged : use ≠ .close → use ≠ .drop →
      s.useStore ⟨id, t.reader, state, false⟩ use = s := Session.useStore_closed rfl
  cases use with
  | close => exact h.close released
  | drop => exact h.drop rfl released
  | enumerate _ | histogram _ _ _ | analyze _ _ =>
    rw [unchanged nofun nofun]
    exact h

theorem Keeps.pullFrom (h : s.Keeps t id .opened) {state : σ}
    (inUse : t.measure state = t.inUse) (place : Nat) {e : Enumeration σ}
    (ensures : e.Ensures t.measure t.property id) :
    (s.pullFrom place ⟨id, t.reader, state, true⟩ e).Keeps t id .opened := by
  have pulled := Store.pull_ensures (s := ⟨id, t.reader, state, true⟩) t.reads ensures
  have stands := (h.put (pulled.kept.trans inUse)).stands
  rw [← pulled.store] at stands
  refine ⟨stands.congr rfl rfl, ?_, ?_⟩
  · intro e' he'
    rcases List.mem_or_eq_of_mem_set he' with old | new
    · exact h.running e' old
    · cases new
      exact ⟨rfl, pulled.rest⟩
  · intro call hcall
    rcases List.mem_append.mp hcall with old | new
    · exact h.held call old
    · obtain ⟨call', hcall', heq⟩ := List.mem_map.mp new
      cases heq
      exact pulled.call call (Option.mem_toList.mp hcall')

theorem store?_of_place {entry : Option (Store σ)} (h : s.pool.places[id]? = some entry) :
    s.pool.store? id = entry := by
  rw [StorePool.store?, h]
  rfl

/-- An action keeps the terms of a reader. -/
theorem keeps_step (h : s.Keeps t id standing) (action : Action σ) :
    (s.step action).Keeps t id (standing.after id action) := by
  by_cases about : action.IsAbout s id
  · cases action with
    | openStore _ _ | openFile _ _ _ => exact absurd about.symm (Nat.ne_of_lt h.stands.lt_size)
    | use other use =>
      obtain rfl : other = id := about
      rw [Standing.after, if_pos rfl, step]
      cases h.stands with
      | opened place inUse =>
        rw [store?_of_place place]
        exact h.useStore_opened inUse use
      | closed place released =>
        rw [store?_of_place place]
        exact h.useStore_closed released use
      | dropped place left released =>
        rw [store?_of_place place]
        cases use <;> exact h
    | pull place =>
      obtain ⟨e, begun⟩ := about
      obtain ⟨rfl, ensures⟩ := h.running e (List.mem_of_getElem? begun)
      rw [step, begun]
      cases h.stands with
      | opened stands inUse =>
        dsimp only
        rw [store?_of_place stands]
        exact h.pullFrom inUse place ensures
  · have same := h.sameAt (step_sameAt about)
    cases action with
    | openStore _ _ | openFile _ _ _ => exact same
    | use other use =>
      have apart : other ≠ id := about
      rw [Standing.after, if_neg apart]
      exact same
    | pull place => exact same

/-- All actions since the store was opened keep the terms of its reader. -/
theorem keeps_run (actions : List (Action σ)) (h : s.Keeps t id standing) :
    (s.run actions).Keeps t id (actions.foldl (Standing.after id) standing) := by
  induction actions generalizing s standing with
  | nil => exact h
  | cons action actions ih => exact ih (keeps_step h action)

/-- The terms of a reader are kept from when a store is opened over it. -/
theorem keeps_opened (known : s.Known) {action : Action σ} {store : Store σ}
    (opened : s.opening? action = some store) (reader : store.reader = t.reader)
    (inUse : t.measure store.state = t.inUse) : (s.step action).Keeps t store.id .opened := by
  obtain ⟨_, state, rfl, same⟩ := opening?_eq_some opened
  obtain rfl : _ = t.reader := reader
  rw [same]
  exact
    { stands := .opened Array.getElem?_push_size inUse
      running := fun e he => absurd (known.running _ e he) (Nat.lt_irrefl _)
      held := fun call hcall => absurd (known.held _ call hcall) (Nat.lt_irrefl _) }

theorem known_empty : ({} : Session σ).Known where
  running := fun _ _ h => nomatch h
  held := fun _ _ h => nomatch h

/-- The terms of a reader are kept all through a session. -/
theorem keeps_since (t : Terms σ τ) (known : s.Known) {action : Action σ} {store : Store σ}
    (opened : s.opening? action = some store) (reader : store.reader = t.reader)
    (inUse : t.measure store.state = t.inUse) (after : List (Action σ)) :
    (s.run (action :: after)).Keeps t store.id (standingAfter store.id after) :=
  keeps_run after (keeps_opened known opened reader inUse)

end Session

/-! ### All stores of a session -/

/-- What is known of any reader. -/
def Terms.ofReader (r : Reader σ) : Terms σ Unit where
  reader := r
  measure := fun _ => ()
  property := fun _ => True
  inUse := ()
  released := ()
  reads := r.ensures_true
  closes := fun _ _ => rfl

/-- A reader with a journal is closed when it is released, and not before. -/
def Terms.ofNoted (r : Reader σ) : Terms (Journal × σ) Nat where
  reader := r.noted
  measure := closesOf
  property := fun _ => True
  inUse := 0
  released := 1
  reads := noted_ensures r
  closes := by
    rintro ⟨journal, state⟩ unclosed
    exact Journal.closes_append.trans (congrArg (· + 1) unclosed)

/-- A recording hands out its own calls. -/
def Terms.ofRecording (r : Recording) : Terms σ Unit where
  reader := r.reader
  measure := fun _ => ()
  property := fun record => r.recordAt record.handle.index = .ok record
  inUse := ()
  released := ()
  reads := r.reader_ensures
  closes := fun _ _ => rfl

/-- The children of a call that a recording handed out are its children there. -/
theorem Recording.stampedChildren_own (r : Recording) {record : CallRecord}
    (own : r.recordAt record.handle.index = .ok record) (id : StoreId) :
    ∃ node listing, r.nodes[record.handle.index]? = some node ∧
      (∀ s : σ, r.reader.stampedChildren id (Call.ofRecord record id) s = (.ok listing, s)) ∧
      Listing.Gives listing (if (Call.ofRecord record id).isSynthetic then []
        else node.children.toList.map fun i => (r.recordAt i).map (Call.ofRecord · id)) := by
  obtain ⟨node, hnode, -⟩ := recordAt_eq_ok own
  have asked : ∀ s : σ, r.reader.childCalls record.handle s = (.ok (r.records node.children), s) := by
    intro s
    simp only [reader, hnode, Read.answer]
  by_cases entry : (Call.ofRecord record id).isSynthetic = true
  · refine ⟨node, [], hnode, ?_, ?_⟩
    · intro s
      rw [Reader.stampedChildren, if_pos entry, Read.answer]
    · rw [if_pos entry]
      exact Listing.gives_nil
  · refine ⟨node, (r.records node.children).map (Call.ofRecord · id), hnode, ?_, ?_⟩
    · intro s
      rw [Reader.stampedChildren, if_neg entry, Read.map]
      exact congrArg (fun p => (p.1.map (Listing.map (Call.ofRecord · id)), p.2)) (asked s)
    · have stamped := Listing.gives_mapped (f := (Call.ofRecord · id))
        (r.gives_records (σ := σ) node.children)
      rw [List.map_map] at stamped
      rw [if_neg entry]
      exact stamped

namespace Session

/-- Every call bears the number of the store that handed it out. -/
theorem held_run {actions : List (Action σ)} {origin : StoreId} {call : Call}
    (h : (origin, call) ∈ (({} : Session σ).run actions).held) : call.store = origin := by
  have known := known_run actions (known_empty (σ := σ))
  obtain ⟨before, action, after, store, rfl, opened, rfl⟩ :=
    exists_opening (Nat.zero_le _) (known.held origin call h)
  have kept := keeps_since (Terms.ofReader store.reader) (known_run before known_empty) opened rfl
    rfl after
  rw [run, List.foldl_append] at h
  obtain ⟨record, -, rfl⟩ := kept.held call h
  rfl

/-- What can be asked of a store, given how it stands. -/
def Holds (s : Session σ) (id : StoreId) : Standing → Prop
  | .opened => ∃ store, s.pool.store? id = some store ∧ store.isOpen = true ∧
      ∀ origin call, (origin, call) ∈ s.held →
        if origin = id then ∃ answer, store.children call = .ok answer
        else store.Refuses (·.children call) (.foreignCall call id)
  | .closed => ∃ store, s.pool.store? id = some store ∧ store.isOpen = false ∧
      (∀ query, store.Refuses (·.enumerate query) (.closedStore id)) ∧
      (∀ client? key t, store.Refuses (·.histogram client? key t) (.closedStore id)) ∧
      (∀ grouping count, store.Refuses (·.analyze grouping count) (.closedStore id)) ∧
      ∀ use, use ≠ .close → use ≠ .drop → s.step (.use id use) = s
  | .dropped => s.pool.store? id = none ∧ ∀ use, s.step (.use id use) = s

theorem Keeps.holds (h : s.Keeps t id standing)
    (owned : ∀ origin call, (origin, call) ∈ s.held → call.store = origin) :
    s.Holds id standing := by
  cases h.stands with
  | opened place _ =>
    refine ⟨_, store?_of_place place, rfl, ?_⟩
    intro origin call hcall
    rw [← owned origin call hcall]
    split
    · rename_i own
      exact ⟨_, Store.children_own rfl own⟩
    · rename_i foreign
      exact fun reader state => Store.children_foreign rfl foreign
  | closed place _ =>
    refine ⟨_, store?_of_place place, rfl, ?_, ?_, ?_, ?_⟩
    · exact fun query reader state => Store.enumerate_closed rfl query
    · exact fun client? key counts reader state => Store.histogram_closed rfl client? key counts
    · exact fun grouping count reader state => Store.analyze_closed rfl grouping count
    · intro use hclose hdrop
      rw [step, store?_of_place place]
      exact Session.useStore_closed rfl hclose hdrop
  | dropped place _ _ =>
    refine ⟨store?_of_place place, ?_⟩
    intro use
    rw [step, store?_of_place place]

theorem Keeps.state?_measure (h : s.Keeps t id standing) :
    ∃ state, s.state? id = some state ∧
      t.measure state = if standing = .opened then t.inUse else t.released := by
  cases h.stands with
  | opened place inUse =>
    refine ⟨_, ?_, inUse⟩
    rw [state?, store?_of_place place]
  | closed place released =>
    refine ⟨_, ?_, released⟩
    rw [state?, store?_of_place place]
  | dropped place left released =>
    refine ⟨_, ?_, released⟩
    rw [state?, store?_of_place place]
    exact left

/-- A store over a recording lists the children of its own calls. -/
theorem Keeps.children {r : Recording} (h : s.Keeps (Terms.ofRecording r) id .opened)
    {call : Call} (hcall : (id, call) ∈ s.held) :
    ∃ store node listing, s.pool.store? id = some store ∧
      r.nodes[call.handle.index]? = some node ∧
      store.children call = .ok (.ok listing, store) ∧
      ∀ state, (Listing.readAll listing state).1 =
        if call.isSynthetic then []
        else node.children.toList.map fun i => (r.recordAt i).map (Call.ofRecord · id) := by
  obtain ⟨record, own, rfl⟩ := h.held call hcall
  obtain ⟨node, listing, hnode, granted, items⟩ := r.stampedChildren_own (σ := σ) own id
  cases h.stands with
  | @opened state place _ =>
    refine ⟨_, node, listing, store?_of_place place, hnode, ?_, items.readAll⟩
    rw [Store.children_own rfl rfl, Store.run]
    exact congrArg (fun p => Except.ok (p.1, Store.mk id r.reader p.2 true)) (granted state)

end Session

/-- Whatever is done in a session, no number is given to two stores.  A reader is not closed
    before its store is closed or dropped, and then it has been closed once.  A closed store
    answers nothing, and refuses before it looks at the request; an open one refuses the
    children of exactly those calls that another store handed out.  Readers have no part in a
    refusal.  Over a recording, from a file or not, the children of its own calls are those that
    were recorded. -/
theorem stores_of_session :
    (∀ actions : List (Action σ), (({} : Session σ).handed actions).Nodup ∧
      ∀ id store, (({} : Session σ).run actions).pool.store? id = some store → store.id = id) ∧
    (∀ (before after : List (Action (Journal × σ))) (reader : Reader σ) (state : σ),
      let s := ({} : Session (Journal × σ)).run before
      let id := (s.pool.openStore reader.noted ([], state)).1
      ∃ journal left,
        (s.run (.openStore reader.noted ([], state) :: after)).state? id = some (journal, left) ∧
          journal.closes = if standingAfter id after = .opened then 0 else 1) ∧
    (∀ (before after : List (Action σ)) (action : Action σ) (opened : Store σ),
      let s := ({} : Session σ).run before
      s.opening? action = some opened →
        (s.run (action :: after)).Holds opened.id (standingAfter opened.id after)) ∧
    (∀ (before after : List (Action σ)) (action : Action σ) (opened : Store σ)
        (recording : Recording),
      let s := ({} : Session σ).run before
      let id := opened.id
      let s' := s.run (action :: after)
      s.opening? action = some opened → opened.reader = recording.reader →
      standingAfter id after = .opened → ∀ call, (id, call) ∈ s'.held →
        ∃ store node listing, s'.pool.store? id = some store ∧
          recording.nodes[call.handle.index]? = some node ∧
          store.children call = .ok (.ok listing, store) ∧
          ∀ state, (Listing.readAll listing state).1 =
            if call.isSynthetic then []
            else node.children.toList.map fun i =>
              (recording.recordAt i).map (Call.ofRecord · id)) := by
  refine ⟨?_, ?_, ?_, ?_⟩
  · intro actions
    refine ⟨?_, fun id store found => (StorePool.store?_eq_some found).2⟩
    obtain ⟨count, given⟩ := Session.handed_eq ({} : Session σ) actions
    rw [given]
    exact List.nodup_range'
  · intro before after reader state s id
    have known := Session.known_run before (Session.known_empty (σ := Journal × σ))
    have opened : s.opening? (.openStore reader.noted ([], state)) =
        some (s.pool.next reader.noted ([], state)) := rfl
    obtain ⟨⟨journal, left⟩, found, closes⟩ :=
      (Session.keeps_since (Terms.ofNoted reader) known opened rfl rfl after).state?_measure
    exact ⟨journal, left, found, closes⟩
  · intro before after action store s opened
    have known := Session.known_run before (Session.known_empty (σ := σ))
    refine (Session.keeps_since (Terms.ofReader store.reader) known opened rfl rfl after).holds ?_
    intro origin call hcall
    have history : (origin, call) ∈ (({} : Session σ).run (before ++ action :: after)).held := by
      rw [Session.run, List.foldl_append]
      exact hcall
    exact Session.held_run history
  · intro before after action store recording s id s' opened reader stands call hcall
    have known := Session.known_run before (Session.known_empty (σ := σ))
    have kept :=
      Session.keeps_since (Terms.ofRecording recording) known opened reader rfl after
    exact (stands ▸ kept).children hcall

/-- Two top-level calls, the first with a child, the second synthetic. -/
def brief : Recording where
  modules := #[{ name := "nt" }]
  clients := #[{ client := ⟨4, 8⟩, roots := #[0, 2] }]
  nodes := #[
    { spec := { functionName := "NtCreateFile", moduleName := "nt" }, client := 0,
      children := #[1] },
    { spec := { functionName := "NtClose", moduleName := "nt" }, client := 0 },
    { spec := { functionName := "stub", moduleName := "nt", entry := .synthetic }, client := 0 }]

/-- Top-level calls are read from two stores in turn, and the first store is closed. -/
def readInTurn : List (Action Unit) :=
  [.use 0 (.enumerate (.calls ⟨4, 8⟩)), .use 1 (.enumerate (.calls ⟨4, 8⟩)), .pull 0, .pull 1,
    .pull 0, .pull 1, .use 0 .close]

/-- The same calls as a text. -/
def briefText : String :=
  "\x7b\"version\":\"1.0\",\"modules\":[\x7b\"name\":\"nt\"\x7d],"
    ++ "\"clients\":[\x7b\"pid\":4,\"tid\":8,"
    ++ "\"calls\":[\x7b\"id\":1,\"name\":\"NtCreateFile\",\"module\":\"nt\"\x7d,"
    ++ "\x7b\"id\":2,\"parent\":1,\"name\":\"NtClose\",\"module\":\"nt\"\x7d,"
    ++ "\x7b\"id\":3,\"name\":\"stub\",\"module\":\"nt\",\"entry\":\"synthetic\"\x7d]\x7d]\x7d"

/-- The document of that text. -/
def briefDocument : Document where
  version := "1.0"
  modules := [{ name := "nt" }]
  clients := [
    { client := ⟨4, 8⟩
      calls := [{ id := 1, spec := { functionName := "NtCreateFile", moduleName := "nt" } },
        { id := 2, parent := some 1, spec := { functionName := "NtClose", moduleName := "nt" } },
        { id := 3, spec := { functionName := "stub", moduleName := "nt", entry := .synthetic } }] }]

def briefFile : Files :=
  fun _ => .file briefText.toUTF8.data.toList

theorem ofFile_brief : Recording.ofFile briefFile "brief.json" = .ok brief := by
  have decoded : (Document.ofJson briefText.toUTF8.data.toList).toOption = some briefDocument := by
    decide +kernel
  have recorded : Recording.ofDocument briefDocument = .ok brief := by cbv
  exact Recording.ofFile_eq_ok rfl decoded recorded

/-- A call of one store is foreign to another that was opened from a file with the same calls. -/
theorem stores_of_session_readInTurn :
    let s := (({} : Session Unit).run [.openStore brief.reader ()]).run
      (.openFile briefFile "brief.json" () :: readInTurn)
    ∃ stub own store, (0, stub) ∈ s.held ∧ stub.isSynthetic = true ∧ (1, own) ∈ s.held ∧
      s.pool.store? 1 = some store ∧ store.Refuses (·.children stub) (.foreignCall stub 1) ∧
      ∃ listing, store.children own = .ok (.ok listing, store) ∧
        (listing.readAll ()).1 = [(brief.recordAt 1).map (Call.ofRecord · 1)] := by
  have same : (({} : Session Unit).run [.openStore brief.reader ()]).run
      (.openFile briefFile "brief.json" () :: readInTurn) =
        (({} : Session Unit).run [.openStore brief.reader ()]).run
          (.openStore brief.reader () :: readInTurn) := by
    rw [Session.run_cons, Session.step_openFile ofFile_brief, ← Session.run_cons]
  rw [same]
  intro s
  have stubRead : s.held.any (fun p => p.1 == 0 && p.2.isSynthetic) = true := by decide +kernel
  have ownRead :
      s.held.any (fun p => p.1 == 1 && p.2.handle == ⟨0⟩ && !p.2.isSynthetic) = true := by
    decide +kernel
  obtain ⟨⟨origin, stub⟩, hstub, stubIs⟩ := List.any_eq_true.mp stubRead
  obtain ⟨⟨origin', own⟩, hown, ownIs⟩ := List.any_eq_true.mp ownRead
  simp only [Bool.and_eq_true, beq_iff_eq, Bool.not_eq_true'] at stubIs ownIs
  obtain ⟨rfl, synthetic⟩ := stubIs
  obtain ⟨⟨rfl, handle⟩, normal⟩ := ownIs
  obtain ⟨-, -, holds, children⟩ := stores_of_session (σ := Unit)
  have opening : (({} : Session Unit).run [.openStore brief.reader ()]).opening?
      (.openFile briefFile "brief.json" ()) = some ⟨1, brief.reader, (), true⟩ :=
    Session.opening?_openFile ofFile_brief ()
  have opened := holds [.openStore brief.reader ()] readInTurn _ _ opening
  have listed := children [.openStore brief.reader ()] readInTurn _ _ brief opening rfl
  dsimp only at opened listed
  rw [same, (rfl : standingAfter 1 readInTurn = .opened)] at opened listed
  obtain ⟨store, found, -, asked⟩ := opened
  obtain ⟨store', node, listing, found', hnode, granted, items⟩ := listed rfl own hown
  obtain rfl : store = store' := Option.some.inj (found.symm.trans found')
  rw [handle] at hnode
  cases hnode
  refine ⟨stub, own, store, hstub, synthetic, hown, found, ?_, listing, granted, ?_⟩
  · exact asked 0 stub hstub
  · rw [items, if_neg (by rw [normal]; nofun)]
    rfl

end CallTrace
