import Mathlib.Data.List.ReduceOption
import CallTrace.Proofs.Reader.Journal
import CallTrace.Proofs.Walk.Draining
import CallTrace.Proofs.Walk.Turns

/-!
# What a walk asks of its reader

A walk is followed with a reader that keeps a journal.  Nothing else changes, so it delivers
the same items (`next_noted`), and what it has asked so far follows from what it has delivered
so far (`Accounts`): the children of each normal call are requested when the call is
delivered, every client that is listed is opened once, no record is read before it is wanted,
and nothing at all is asked after a failure.

The walk is asked for a number of items, so of each listing only a beginning matters, and it
is no loss that a listing is finite.
-/

namespace CallTrace

variable {σ : Type}

/-! ### Walks with a journal -/

/-- The same listings, with their items noted as they are read. -/
def Pile.noted (p : Pile σ) : Pile (Journal × σ) :=
  ⟨p.listings.map (Listing.noted .ofRecord), p.height, by simp [p.height_eq]⟩

def Stage.noted : Stage σ → Stage (Journal × σ)
  | .reading opened clients => .reading opened.noted (clients.noted .client)
  | .refused e depth => .refused e depth
  | .over => .over

def Walk.noted (w : Walk σ) : Walk (Journal × σ) := ⟨w.stage.noted, w.visited⟩

def Turn.noted : Turn σ → Turn (Journal × σ)
  | .again opened clients => .again opened.noted (clients.noted .client)
  | .stop item stage => .stop item stage.noted

namespace Pile

variable (p : Pile σ)

@[simp] theorem listings_noted : p.noted.listings = p.listings.map (Listing.noted .ofRecord) :=
  rfl

@[simp] theorem noted_push (listing : Listing σ Call) :
    (p.push listing).noted = p.noted.push (listing.noted .ofRecord) := rfl

@[simp] theorem noted_pop : p.pop.noted = p.noted.pop :=
  ext_listings List.map_tail

end Pile

/-- The stage of a walk that has nothing more to ask. -/
def Stage.Rests (stage : Stage σ) : Prop :=
  stage = .over ∨ ∃ e depth, stage = .refused e depth

/-- The number of clients that are still to be taken from their list. -/
def Stage.clientsLeft : Stage σ → Nat
  | .reading _ clients => clients.length
  | _ => 0

/-- What a turn asks of its reader, if so many clients are still to be taken. -/
inductive Turn.Asks : Nat → Turn σ → Journal → Prop where
  | ended : Asks 0 (.stop none .over) []
  | unlisted {left : Nat} {e : TraceError} :
      Asks (left + 1) (.stop (some (.error e)) .over) [.client (.error e)]
  | unopened {left : Nat} (client : Client) {e : TraceError} :
      Asks (left + 1) (.stop (some (.error e)) .over)
        [.client (.ok client), .calls client (some e)]
  | opened (client : Client) {opened : Pile σ} {clients : Listing σ Client} :
      Asks (clients.length + 1) (.again opened clients)
        [.client (.ok client), .calls client none]
  | used {opened : Pile σ} {clients : Listing σ Client} :
      Asks clients.length (.again opened clients) []
  | unread {left : Nat} {e : TraceError} :
      Asks left (.stop (some (.error e)) .over) [.record (some e)]
  | synthetic {call : Call} {opened : Pile σ} {clients : Listing σ Client}
      (entry : call.isSynthetic = true) :
      Asks clients.length (.stop (some (.ok call)) (.reading opened clients)) [.record none]
  | refused {left : Nat} {call : Call} {e : TraceError} {depth : Nat}
      (entry : call.isSynthetic = false) :
      Asks left (.stop (some (.ok call)) (.refused e depth))
        [.record none, .childCalls call.handle (some e)]
  | normal {call : Call} {opened : Pile σ} {clients : Listing σ Client}
      (entry : call.isSynthetic = false) :
      Asks clients.length (.stop (some (.ok call)) (.reading opened clients))
        [.record none, .childCalls call.handle none]

variable {r : Reader σ} {store : StoreId} {opened : Pile σ} {clients : Listing σ Client}
  {s s' : σ}

theorem Pile.noted_listings_nil (h : opened.listings = []) : opened.noted.listings = [] := by
  rw [listings_noted, h, List.map_nil]

theorem Pile.noted_listings_cons {top : Listing σ Call} {outer : List (Listing σ Call)}
    (h : opened.listings = top :: outer) :
    opened.noted.listings = top.noted .ofRecord :: outer.map (Listing.noted .ofRecord) := by
  rw [listings_noted, h, List.map_cons]

/-- With a journal, a turn leads to the same, and notes what it asks. -/
theorem turn_noted {turn : Turn σ} (h : Walk.turn r store opened clients s = (turn, s'))
    (journal : Journal) :
    ∃ added, turn.Asks clients.length added ∧
      Walk.turn r.noted store opened.noted (clients.noted .client) (journal, s) =
        (turn.noted, journal ++ added, s') := by
  cases Walk.turns_of_eq h with
  | ended none_open =>
    refine ⟨[], .ended, ?_⟩
    rw [List.append_nil]
    exact (Walk.Turns.ended (Pile.noted_listings_nil none_open)).eq
  | unlisted none_open failure =>
    exact ⟨_, .unlisted, (Walk.Turns.unlisted (Pile.noted_listings_nil none_open)
      (noted_eq failure .client journal)).eq⟩
  | unopened client none_open next refused =>
    refine ⟨_, .unopened client, ?_⟩
    rw [List.append_cons]
    exact (Walk.Turns.unopened client (Pile.noted_listings_nil none_open)
      (noted_eq next .client journal) (stampedCalls_noted refused _)).eq
  | opened client none_open next granted =>
    refine ⟨_, .opened client, ?_⟩
    rw [List.append_cons]
    exact (Walk.Turns.opened client (Pile.noted_listings_nil none_open)
      (noted_eq next .client journal) (stampedCalls_noted granted _)).eq
  | used top =>
    refine ⟨[], .used, ?_⟩
    rw [List.append_nil, Turn.noted, Pile.noted_pop]
    exact (Walk.Turns.used (Pile.noted_listings_cons top)).eq
  | unread top failure =>
    exact ⟨_, .unread, (Walk.Turns.unread (Pile.noted_listings_cons top)
      (noted_eq failure .ofRecord journal)).eq⟩
  | synthetic top next entry =>
    refine ⟨_, .synthetic entry, ?_⟩
    rw [Turn.noted, Stage.noted, Pile.noted_push, Pile.noted_pop]
    exact (Walk.Turns.synthetic (Pile.noted_listings_cons top)
      (noted_eq next .ofRecord journal) entry).eq
  | childrenRefused top next entry refused =>
    refine ⟨_, .refused entry, ?_⟩
    rw [List.append_cons]
    exact (Walk.Turns.childrenRefused (Pile.noted_listings_cons top)
      (noted_eq next .ofRecord journal) entry (stampedChildren_noted entry refused _)).eq
  | normal top next entry granted =>
    refine ⟨_, .normal entry, ?_⟩
    rw [List.append_cons, Turn.noted, Stage.noted, Pile.noted_push, Pile.noted_push,
      Pile.noted_pop]
    exact (Walk.Turns.normal (Pile.noted_listings_cons top)
      (noted_eq next .ofRecord journal) entry (stampedChildren_noted entry granted _)).eq

/-! ### What follows from the items -/

/-- The calls among some items. -/
def callsOf (items : List (Except TraceError Call)) : List Call :=
  items.filterMap Except.toOption

/-- The normal calls among some items. -/
def normalCalls (items : List (Except TraceError Call)) : List Call :=
  (callsOf items).filter (!·.isSynthetic)

@[simp] theorem callsOf_append (items more : List (Except TraceError Call)) :
    callsOf (items ++ more) = callsOf items ++ callsOf more :=
  List.filterMap_append

@[simp] theorem normalCalls_append (items more : List (Except TraceError Call)) :
    normalCalls (items ++ more) = normalCalls items ++ normalCalls more := by
  rw [normalCalls, callsOf_append, List.filter_append]
  rfl

@[simp] theorem callsOf_error (e : TraceError) : callsOf [.error e] = [] := rfl

@[simp] theorem callsOf_ok (call : Call) : callsOf [.ok call] = [call] := rfl

@[simp] theorem normalCalls_error (e : TraceError) : normalCalls [.error e] = [] := rfl

theorem normalCalls_synthetic {call : Call} (entry : call.isSynthetic = true) :
    normalCalls [.ok call] = [] := by
  simp [normalCalls, entry]

theorem normalCalls_normal {call : Call} (entry : call.isSynthetic = false) :
    normalCalls [.ok call] = [call] := by
  simp [normalCalls, entry]

/-- The walk was ended by a record that could not be read. -/
def EndedByRecord (journal : Journal) (items : List (Except TraceError Call)) : Prop :=
  ∃ e, journal.getLast? = some (.record (some e)) ∧ items.getLast? = some (.error e)

/-- What a walk has noted since it began with a list of so many clients, given the items that
    it has delivered and the stage that it has come to. -/
structure Accounts (listed : Nat) (items : List (Except TraceError Call)) (stage : Stage σ)
    (journal : Journal) : Prop where
  expanded : journal.expanded = (normalCalls items).map (·.handle)
  opened : journal.opened = journal.taken
  taken : journal.taken.length + stage.clientsLeft ≤ listed
  ofWalk : ∀ note ∈ journal, note.isOfWalk = true
  quiet : journal.Quiet
  pulled :
    (journal.pulled = (callsOf items).length ∧
        ∀ e, journal.getLast? ≠ some (.record (some e))) ∨
      journal.pulled = (callsOf items).length + 1 ∧ EndedByRecord journal items ∧ stage = .over
  rests : ∀ note ∈ journal, note.failure?.isSome → stage.Rests

theorem Stage.not_rests_reading (opened : Pile σ) (clients : Listing σ Client) :
    ¬ (Stage.reading opened clients).Rests := by
  rintro (h | ⟨e, depth, h⟩) <;> cases h

namespace Accounts

variable {listed : Nat} {items more : List (Except TraceError Call)} {stage stage' : Stage σ}
  {journal added : Journal}

theorem nil (h : stage.clientsLeft ≤ listed) : Accounts listed [] stage [] where
  expanded := rfl
  opened := rfl
  taken := by rwa [Journal.taken, List.filterMap_nil, List.length_nil, Nat.zero_add]
  ofWalk := by simp
  quiet := Journal.quiet_of_no_failure (by simp)
  pulled := .inl ⟨rfl, by simp⟩
  rests := by simp

/-- A walk that was still reading goes on. -/
theorem append (before : Accounts listed items (.reading opened clients) journal)
    (after : Accounts clients.length more stage added) :
    Accounts listed (items ++ more) stage (journal ++ added) := by
  have reading := Stage.not_rests_reading opened clients
  have smooth : ∀ note ∈ journal, note.failure? = none := by
    intro note hnote
    by_contra failed
    exact reading (before.rests note hnote (Option.isSome_iff_ne_none.mpr failed))
  constructor
  · rw [Journal.expanded_append, before.expanded, after.expanded, normalCalls_append,
      List.map_append]
  · rw [Journal.opened_append, Journal.taken_append, before.opened, after.opened]
  · have first := before.taken
    have second := after.taken
    rw [Stage.clientsLeft] at first
    rw [Journal.taken_append, List.length_append]
    omega
  · intro note hnote
    rcases List.mem_append.mp hnote with h | h
    · exact before.ofWalk note h
    · exact after.ofWalk note h
  · exact Journal.Quiet.after smooth after.quiet
  · rcases before.pulled with ⟨count, fine⟩ | ⟨-, -, isOver⟩
    · rw [Journal.pulled_append, callsOf_append, List.length_append, count, EndedByRecord,
        List.getLast?_append, List.getLast?_append]
      rcases after.pulled with ⟨count', fine'⟩ | ⟨count', ⟨e, last, lastItem⟩, isOver⟩
      · left
        refine ⟨by rw [count'], ?_⟩
        intro e
        cases hadded : added.getLast? with
        | none => exact fine e
        | some note =>
          rw [Option.some_or, ← hadded]
          exact fine' e
      · right
        refine ⟨by rw [count', Nat.add_assoc], ⟨e, ?_, ?_⟩, isOver⟩
        · rw [last, Option.some_or]
        · rw [lastItem, Option.some_or]
    · cases isOver
  · intro note hnote failed
    rcases List.mem_append.mp hnote with h | h
    · rw [smooth note h] at failed
      cases failed
    · exact after.rests note h failed

/-- The refusal that was met before is delivered without asking anything. -/
theorem refused {e : TraceError} {depth : Nat}
    (before : Accounts listed items (.refused e depth : Stage σ) journal) :
    Accounts listed (items ++ [.error e]) (.over : Stage σ) journal where
  expanded := by rw [before.expanded, normalCalls_append, normalCalls_error, List.append_nil]
  opened := before.opened
  taken := before.taken
  ofWalk := before.ofWalk
  quiet := before.quiet
  pulled := by
    rcases before.pulled with ⟨count, fine⟩ | ⟨-, -, isOver⟩
    · left
      refine ⟨?_, fine⟩
      rw [count, callsOf_append, callsOf_error, List.append_nil]
    · cases isOver
  rests := fun _ _ _ => .inl rfl

end Accounts

theorem Turn.Asks.accounts_again {left : Nat} {added : Journal}
    (h : (Turn.again opened clients : Turn σ).Asks left added) :
    Accounts left [] (.reading opened clients) added := by
  cases h with
  | opened client =>
    refine ⟨rfl, rfl, ?_, by simp [Note.isOfWalk], ?_, .inl ⟨rfl, by simp⟩, ?_⟩
    · exact Nat.le_of_eq (Nat.add_comm 1 clients.length)
    · exact Journal.quiet_of_no_failure (by simp [Note.failure?, failureOf])
    · simp [Note.failure?, failureOf]
  | used => exact .nil (Nat.le_refl _)

theorem Turn.Asks.accounts_stop {left : Nat} {item : Option (Except TraceError Call)}
    {stage : Stage σ} {added : Journal} (h : (Turn.stop item stage).Asks left added) :
    Accounts left item.toList stage added := by
  cases h with
  | ended => exact .nil (Nat.le_refl _)
  | unlisted =>
    refine ⟨rfl, rfl, Nat.zero_le _, by simp [Note.isOfWalk], Journal.quiet_singleton _,
      .inl ⟨rfl, by simp⟩, fun _ _ _ => .inl rfl⟩
  | unopened client =>
    refine ⟨rfl, rfl, ?_, by simp [Note.isOfWalk], ?_, .inl ⟨rfl, by simp⟩, fun _ _ _ => .inl rfl⟩
    · exact Nat.le_add_left 1 _
    · exact Journal.Quiet.cons rfl (Journal.quiet_singleton _)
  | unread =>
    refine ⟨rfl, rfl, Nat.zero_le _, by simp [Note.isOfWalk], Journal.quiet_singleton _, ?_, ?_⟩
    · exact .inr ⟨rfl, ⟨_, rfl, rfl⟩, rfl⟩
    · exact fun _ _ _ => .inl rfl
  | synthetic entry =>
    refine ⟨?_, rfl, ?_, by simp [Note.isOfWalk], Journal.quiet_singleton _, .inl ⟨rfl, by simp⟩,
      by simp [Note.failure?]⟩
    · rw [Option.toList_some, normalCalls_synthetic entry]
      rfl
    · exact Nat.le_of_eq (Nat.zero_add _)
  | @refused _ call e depth entry =>
    refine ⟨?_, rfl, Nat.zero_le _, by simp [Note.isOfWalk], ?_, .inl ⟨rfl, by simp⟩, ?_⟩
    · rw [Option.toList_some, normalCalls_normal entry]
      rfl
    · exact Journal.Quiet.cons rfl (Journal.quiet_singleton _)
    · exact fun _ _ _ => .inr ⟨e, depth, rfl⟩
  | normal entry =>
    refine ⟨?_, rfl, ?_, by simp [Note.isOfWalk], ?_, .inl ⟨rfl, by simp⟩, by simp [Note.failure?]⟩
    · rw [Option.toList_some, normalCalls_normal entry]
      rfl
    · exact Nat.le_of_eq (Nat.zero_add _)
    · exact Journal.quiet_of_no_failure (by simp [Note.failure?])

/-! ### Items -/

/-- With a journal, a walk comes to the same next item. -/
theorem advance_noted (r : Reader σ) (store : StoreId) (opened : Pile σ)
    (clients : Listing σ Client) (s : σ) (journal : Journal) :
    ∃ added,
      Accounts clients.length (Walk.advance r store opened clients s).1.1.toList
        (Walk.advance r store opened clients s).1.2 added ∧
      Walk.advance r.noted store opened.noted (clients.noted .client) (journal, s) =
        (((Walk.advance r store opened clients s).1.1,
            (Walk.advance r store opened clients s).1.2.noted),
          journal ++ added, (Walk.advance r store opened clients s).2) := by
  fun_induction Walk.advance r store opened clients s generalizing journal with
  | case1 opened clients s item stage s' hturn =>
    obtain ⟨added, asks, noted⟩ := turn_noted hturn journal
    exact ⟨added, asks.accounts_stop, Walk.advance_of_stop noted⟩
  | case2 opened clients s opened' clients' s' hturn ih =>
    obtain ⟨added, asks, noted⟩ := turn_noted hturn journal
    obtain ⟨more, accounts, later⟩ := ih (journal ++ added)
    refine ⟨added ++ more, asks.accounts_again.append accounts, ?_⟩
    rw [Walk.advance_of_again noted, later, List.append_assoc]

variable (r store)

/-- With a journal, a walk delivers the same next item, and its account goes on. -/
theorem next_noted {listed : Nat} {items : List (Except TraceError Call)} {w : Walk σ}
    {past : Journal} (accounts : Accounts listed items w.stage past) (s : σ) (journal : Journal) :
    ∃ added,
      Accounts listed (items ++ (w.next r store s).1.toList) (w.next r store s).2.1.stage
        (past ++ added) ∧
      w.noted.next r.noted store (journal, s) =
        ((w.next r store s).1, (w.next r store s).2.1.noted, journal ++ added,
          (w.next r store s).2.2) := by
  rcases w with ⟨⟨opened, clients⟩ | ⟨e, depth⟩ | _, visited⟩
  · obtain ⟨added, later, noted⟩ := advance_noted r store opened clients s journal
    refine ⟨added, accounts.append later, ?_⟩
    simp only [Walk.noted, Walk.next, Stage.noted, noted]
  · refine ⟨[], ?_, ?_⟩
    · rw [List.append_nil]
      exact accounts.refused
    · rw [List.append_nil]
      rfl
  · refine ⟨[], ?_, ?_⟩
    · rw [List.append_nil]
      exact (List.append_nil items).symm ▸ accounts
    · rw [List.append_nil]
      rfl

/-! ### Many items -/

/-- What a walk has delivered after it was asked `n` times. -/
def Walk.delivered (r : Reader σ) (store : StoreId) (n : Nat) (w : Walk σ) (s : σ) :
    List (Except TraceError Call) :=
  (w.answers r store n s).reduceOption

variable {r store}

theorem Walk.delivered_succ (n : Nat) (w : Walk σ) (s : σ) :
    w.delivered r store (n + 1) s = w.delivered r store n s ++ (w.answer r store n s).toList := by
  rw [Walk.delivered, Walk.answers_succ_last, List.reduceOption_append, Walk.delivered]
  cases w.answer r store n s with
  | none => rfl
  | some item => rfl

theorem Walk.visited_after (n : Nat) (w : Walk σ) (s : σ) :
    (w.after r store n s).1.visited = w.visited + (callsOf (w.delivered r store n s)).length := by
  induction n with
  | zero => rfl
  | succ n ih =>
    rw [Walk.after_succ, Walk.visited_next, ih, Walk.delivered_succ, callsOf_append,
      List.length_append, Nat.add_assoc, Walk.answer]
    cases ((w.after r store n s).1.next r store (w.after r store n s).2).1 with
    | none => rfl
    | some item => cases item <;> rfl

/-- With a journal, a walk delivers the same items, and its account is kept. -/
theorem after_noted (r : Reader σ) (store : StoreId) (w : Walk σ) (s : σ) (journal : Journal)
    (n : Nat) :
    ∃ added,
      Accounts w.stage.clientsLeft (w.delivered r store n s) (w.after r store n s).1.stage
        added ∧
      w.noted.delivered r.noted store n (journal, s) = w.delivered r store n s ∧
      w.noted.after r.noted store n (journal, s) =
        ((w.after r store n s).1.noted, journal ++ added, (w.after r store n s).2) := by
  induction n with
  | zero => exact ⟨[], .nil (Nat.le_refl _), rfl, by rw [List.append_nil]; rfl⟩
  | succ n ih =>
    obtain ⟨added, accounts, same, hafter⟩ := ih
    obtain ⟨more, later, hnext⟩ :=
      next_noted r store accounts (w.after r store n s).2 (journal ++ added)
    refine ⟨added ++ more, ?_, ?_, ?_⟩
    · rw [Walk.delivered_succ, Walk.after_succ]
      exact later
    · rw [Walk.delivered_succ, Walk.delivered_succ, same, Walk.answer, hafter, hnext, Walk.answer]
    · rw [Walk.after_succ, Walk.after_succ, hafter, hnext, List.append_assoc]

/-! ### Whole walks -/

/-- A walk over the calls of one client, if one is given, else of all clients. -/
def Walk.start (r : Reader σ) (store : StoreId) : Option Client → Read σ (Walk σ)
  | some client => Walk.ofClient r store client
  | none => Walk.ofClients r

/-- The request with which a walk begins. -/
def Note.begins : Option Client → Option TraceError → Note
  | some c => .calls c
  | none => .clients

/-- With a journal, a walk begins in the same way. -/
theorem start_noted {client? : Option Client} {answer : Except TraceError (Walk σ)}
    (h : Walk.start r store client? s = (answer, s')) (journal : Journal) :
    Walk.start r.noted store client? (journal, s) =
      (answer.map Walk.noted, journal ++ [Note.begins client? (failureOf answer)], s') := by
  cases client? with
  | none =>
    rw [Walk.start, Walk.ofClients, Read.map] at h
    generalize asked : r.clients s = clients at h
    rcases clients with ⟨_ | clients, s₁⟩
    · cases h
      simp only [Walk.start, Walk.ofClients, Read.map, Reader.noted, notedListing_eq asked]
      rfl
    · cases h
      simp only [Walk.start, Walk.ofClients, Read.map, Reader.noted, notedListing_eq asked]
      rfl
  | some client =>
    rw [Walk.start, Walk.ofClient, Read.map] at h
    generalize asked : r.stampedCalls store client s = calls at h
    rcases calls with ⟨_ | calls, s₁⟩
    · cases h
      simp only [Walk.start, Walk.ofClient, Read.map, stampedCalls_noted asked]
      rfl
    · cases h
      simp only [Walk.start, Walk.ofClient, Read.map, stampedCalls_noted asked]
      rfl

/-- A walk has asked for nothing but what these items call for: it has begun with the one
    request, it has requested the children of each normal call that it delivered, it has opened
    the clients that it took from their list, it has read as many records as it delivered
    calls, and one more exactly if that one ended the walk, and it has asked nothing after a
    failure. -/
structure AskedFor (client? : Option Client) (items : List (Except TraceError Call))
    (count : Nat) (journal : Journal) : Prop where
  begins : ∃ later, journal = Note.begins client? none :: later ∧
    ∀ note ∈ later, note.isOfWalk = true
  expanded : journal.expanded = (normalCalls items).map (·.handle)
  opened :
    match client? with
    | none => journal.opened = journal.taken
    | some client => journal.opened = [client] ∧ journal.taken = []
  visited : count = (callsOf items).length
  pulled : EndedByRecord journal items ∧ journal.pulled = count + 1 ∨
    ¬ EndedByRecord journal items ∧ journal.pulled = count
  quiet : journal.Quiet

theorem start_eq_ok {client? : Option Client} {w : Walk σ}
    (h : Walk.start r store client? s = (.ok w, s')) :
    w.visited = 0 ∧ (client? ≠ none → w.stage.clientsLeft = 0) := by
  cases client? with
  | none =>
    rw [Walk.start, Walk.ofClients, Read.map] at h
    generalize r.clients s = answer at h
    obtain ⟨_ | clients, s₁⟩ := answer <;> cases h
    exact ⟨rfl, fun absent => absurd rfl absent⟩
  | some client =>
    rw [Walk.start, Walk.ofClient, Read.map] at h
    generalize r.stampedCalls store client s = answer at h
    obtain ⟨_ | calls, s₁⟩ := answer <;> cases h
    exact ⟨rfl, fun _ => rfl⟩

theorem Accounts.askedFor {client? : Option Client} {listed : Nat}
    {items : List (Except TraceError Call)} {stage : Stage σ} {added : Journal}
    (accounts : Accounts listed items stage added) (h : client? ≠ none → listed = 0) :
    AskedFor client? items (callsOf items).length (Note.begins client? none :: added) where
  begins := ⟨added, rfl, accounts.ofWalk⟩
  expanded := by
    rw [← accounts.expanded]
    cases client? <;> rfl
  opened := by
    have same := accounts.opened
    cases client? with
    | none => exact same
    | some client =>
      have untaken : added.taken = [] := by
        have := accounts.taken
        rw [h (Option.some_ne_none client)] at this
        exact List.eq_nil_of_length_eq_zero (by omega)
      rw [untaken] at same
      exact ⟨congrArg (client :: ·) same, untaken⟩
  visited := rfl
  pulled := by
    have skips : Journal.pulled (Note.begins client? none :: added) = added.pulled := by
      cases client? <;> rfl
    have last : ∀ e, List.getLast? (Note.begins client? none :: added) = some (.record (some e)) ↔
        added.getLast? = some (.record (some e)) := by
      intro e
      rw [List.getLast?_cons]
      cases added.getLast? with
      | none => cases client? <;> simp [Note.begins]
      | some note => simp
    simp only [skips, EndedByRecord, last]
    rcases accounts.pulled with ⟨count, fine⟩ | ⟨count, ended, -⟩
    · exact .inr ⟨fun ⟨e, he, _⟩ => fine e he, count⟩
    · exact .inl ⟨ended, count⟩
  quiet := by
    refine Journal.Quiet.cons ?_ accounts.quiet
    cases client? <;> rfl

/-- Whatever its reader does, short of a listing without end, a walk asks it for exactly what its
    items call for, and for the children of a call just when it delivers the call.  That it is
    watched changes nothing else. -/
theorem walk_asks_for_items (r : Reader σ) (store : StoreId) (client? : Option Client) (s : σ) :
    match Walk.start r store client? s with
    | (.error e, s') =>
      Walk.start r.noted store client? ([], s) = (.error e, [Note.begins client? (some e)], s')
    | (.ok w, s') =>
      Walk.start r.noted store client? ([], s) =
          (.ok w.noted, [Note.begins client? none], s') ∧
        ∀ n, ∃ journal added,
          w.noted.after r.noted store n ([Note.begins client? none], s') =
              ((w.after r store n s').1.noted, journal, (w.after r store n s').2) ∧
            w.noted.delivered r.noted store n ([Note.begins client? none], s') =
              w.delivered r store n s' ∧
            AskedFor client? (w.delivered r store n s') (w.after r store n s').1.visited journal ∧
            (w.noted.after r.noted store (n + 1) ([Note.begins client? none], s')).2.1 =
              journal ++ added ∧
            added.expanded =
              (normalCalls (w.answer r store n s').toList).map (·.handle) := by
  generalize started : Walk.start r store client? s = answer
  obtain ⟨_ | w, s'⟩ := answer
  · exact start_noted started []
  · refine ⟨start_noted started [], ?_⟩
    intro n
    obtain ⟨fresh, alone⟩ := start_eq_ok started
    obtain ⟨added, accounts, same, hafter⟩ :=
      after_noted r store w s' [Note.begins client? none] n
    obtain ⟨more, later, hnext⟩ := next_noted r store accounts (w.after r store n s').2
      ([Note.begins client? none] ++ added)
    refine ⟨_, more, hafter, same, ?_, ?_, ?_⟩
    · rw [Walk.visited_after, fresh, Nat.zero_add]
      exact accounts.askedFor alone
    · rw [Walk.after_succ, hafter, hnext]
    · have total := later.expanded
      rw [Journal.expanded_append, accounts.expanded, normalCalls_append, List.map_append] at total
      exact List.append_cancel_left total

end CallTrace
