import CallTrace.Proofs.Walk.Preorder

/-!
# Walks of steady readers

A walk in progress keeps the listings that are not used up.  What it still has to deliver
is the recursive walk through the rest of each of them, innermost first, and then through
the clients to come (`Answers.walkOpened`).  A turn either leaves this as it is or delivers
its first item (`turn_owes`), so every item that is asked for is the next one of the
recursive walk (`next_owes`), and after the last one there is none.
-/

namespace CallTrace

open Delivery

variable {σ : Type} {a : Answers} {r : Reader σ} {store : StoreId}

namespace Answers

variable (a : Answers) (store : StoreId)

/-- What is left to be delivered when some listings are open, innermost first, and some
    clients are to come. -/
noncomputable def walkOpened : List (List (Except TraceError CallRecord)) →
    List (Except TraceError Client) → Option Delivery
  | [], clients => a.walkClients store clients
  | records :: opened, clients => andThen (a.walkCalls store records) (walkOpened opened clients)

variable (records : List (Except TraceError CallRecord))
  (opened : List (List (Except TraceError CallRecord)))
  (clients : List (Except TraceError Client))

@[simp] theorem walkOpened_nil_cons :
    a.walkOpened store ([] :: opened) clients = a.walkOpened store opened clients := by
  rw [walkOpened, walkCalls_nil, nothing_andThen]

@[simp] theorem walkOpened_error (e : TraceError) :
    a.walkOpened store ((.error e :: records) :: opened) clients = some (.failed e) := by
  rw [walkOpened, walkCalls_error, failed_andThen]

variable {records opened clients} {record : CallRecord}

theorem walkOpened_synthetic (h : record.entry = .synthetic) :
    a.walkOpened store ((.ok record :: records) :: opened) clients =
      (a.walkOpened store (records :: opened) clients).map
        (cons (Call.ofRecord record store)) := by
  rw [walkOpened, walkCalls_ok, walkBelow_synthetic a store h, nothing_andThen,
    map_cons_andThen, walkOpened]

theorem walkOpened_refused {e : TraceError} (h : record.entry = .normal)
    (refused : a.childCalls record.handle = .error e) :
    a.walkOpened store ((.ok record :: records) :: opened) clients =
      some (.cons (Call.ofRecord record store) (.failed e)) := by
  rw [walkOpened, walkCalls_ok, walkBelow_normal a store h, refused, failed_andThen,
    map_cons_andThen, failed_andThen, Option.map_some]

theorem walkOpened_normal {children : List (Except TraceError CallRecord)}
    (h : record.entry = .normal) (granted : a.childCalls record.handle = .ok children) :
    a.walkOpened store ((.ok record :: records) :: opened) clients =
      (a.walkOpened store (children :: records :: opened) clients).map
        (cons (Call.ofRecord record store)) := by
  rw [walkOpened, walkCalls_ok, walkBelow_normal a store h, granted, map_cons_andThen,
    andThen_assoc, walkOpened, walkOpened]

end Answers

/-! ### Listings that are open -/

/-- The listing has these calls, stamped with the store. -/
def Listing.Serves (store : StoreId) (listing : Listing σ Call)
    (records : List (Except TraceError CallRecord)) : Prop :=
  listing.Gives (records.map (Except.map (Call.ofRecord · store)))

theorem Read.Gives.eq {α : Type} {read : Read σ α} {result : Except TraceError α}
    (h : read.Gives result) (s : σ) : ∃ s', read s = (result, s') :=
  ⟨(read s).2, Prod.ext (h s) rfl⟩

/-- A request for calls is refused, or opens a listing of the calls in the table. -/
theorem stamped_cases {request : Read σ (Listing σ CallRecord)}
    {answer : Except TraceError (List (Except TraceError CallRecord))}
    (h : request.Lists answer) (store : StoreId) (s : σ) :
    (∃ e s', answer = .error e ∧
        Read.map (Listing.map (Call.ofRecord · store)) request s = (.error e, s')) ∨
      ∃ records listing s', answer = .ok records ∧
        Read.map (Listing.map (Call.ofRecord · store)) request s = (.ok listing, s') ∧
        Listing.Serves store listing records := by
  rcases (Read.lists_mapped (Call.ofRecord · store) h).cases s with
    ⟨e, s', hanswer, hread⟩ | ⟨results, listing, s', hanswer, hread, gives⟩
  · left
    cases answer with
    | error _ =>
      cases hanswer
      exact ⟨e, s', rfl, hread⟩
    | ok records => cases hanswer
  · right
    cases answer with
    | error _ => cases hanswer
    | ok records =>
      cases hanswer
      exact ⟨records, listing, s', rfl, hread, gives⟩

theorem stampedChildren_normal (r : Reader σ) (store : StoreId) {record : CallRecord}
    (h : record.entry = .normal) :
    r.stampedChildren store (Call.ofRecord record store) =
      (r.childCalls record.handle).map (Listing.map (Call.ofRecord · store)) := by
  simp [Reader.stampedChildren, Call.isSynthetic, Call.ofRecord, h]

/-! ### Turns -/

/-- What a stage still has to deliver. -/
inductive Stage.Owes (a : Answers) (store : StoreId) : Stage σ → Delivery → Prop where
  | reading {opened : Pile σ} {clients : Listing σ Client}
      {records : List (List (Except TraceError CallRecord))}
      {names : List (Except TraceError Client)} {d : Delivery}
      (serves : List.Forall₂ (Listing.Serves store) opened.listings records)
      (gives : Listing.Gives clients names)
      (owed : a.walkOpened store records names = some d) :
      Owes a store (.reading opened clients) d
  | refused {e : TraceError} {depth : Nat} : Owes a store (.refused e depth) (.failed e)
  | done : Owes a store .over .nothing

/-- What a turn leaves to be delivered, if it was to deliver this. -/
def Turn.Owes (a : Answers) (store : StoreId) : Turn σ → Delivery → Prop
  | .again opened clients, d => (Stage.reading opened clients).Owes a store d
  | .stop item stage, d => item = d.items.head? ∧ stage.Owes a store d.rest

theorem Turn.owes_stop_ok {call : Call} {stage : Stage σ} {d : Delivery}
    {left : Option Delivery} (owed : left.map (cons call) = some d)
    (h : ∀ d', left = some d' → stage.Owes a store d') :
    (Turn.stop (some (.ok call)) stage).Owes a store d := by
  obtain ⟨d', hd', rfl⟩ := Option.map_eq_some_iff.mp owed
  exact ⟨rfl, h d' hd'⟩

theorem Turn.owes_stop_error {e : TraceError} {d : Delivery} (owed : some (failed e) = some d) :
    (Turn.stop (some (.error e)) (.over : Stage σ)).Owes a store d := by
  cases owed
  exact ⟨rfl, .done⟩

/-- A turn that opens the next client. -/
theorem turn_owes_client (steady : r.Gives a) {opened : Pile σ} (used : opened.listings = [])
    {read : Read σ Client} {clients : Listing σ Client} {name : Except TraceError Client}
    {names : List (Except TraceError Client)} (head : read.Gives name)
    (tail : Listing.Gives clients names) {d : Delivery}
    (owed : a.walkOpened store [] (name :: names) = some d) (s : σ) :
    (Walk.turn r store opened (read :: clients) s).1.Owes a store d := by
  obtain ⟨s', hread⟩ := head.eq s
  cases name with
  | error e =>
    simp only [Walk.turn, used, hread]
    exact Turn.owes_stop_error owed
  | ok client =>
    rcases stamped_cases (steady.calls client) store s' with
      ⟨e, s'', hcalls, hasked⟩ | ⟨records, listing, s'', hcalls, hasked, serves⟩
    · simp only [Walk.turn, used, hread, Reader.stampedCalls, hasked]
      simp only [Answers.walkOpened, Answers.walkClients, hcalls] at owed
      exact Turn.owes_stop_error owed
    · simp only [Walk.turn, used, hread, Reader.stampedCalls, hasked]
      simp only [Answers.walkOpened, Answers.walkClients, hcalls] at owed
      have opens : List.Forall₂ (Listing.Serves store) (opened.push listing).listings
          [records] := by
        rw [Pile.listings_push, used]
        exact List.Forall₂.cons serves List.Forall₂.nil
      exact .reading opens tail owed

/-- A turn that reads an item of the innermost listing. -/
theorem turn_owes_call (steady : r.Gives a) {opened : Pile σ} {read : Read σ Call}
    {later : Listing σ Call} {outer : List (Listing σ Call)}
    (top : opened.listings = (read :: later) :: outer) {clients : Listing σ Client}
    {item : Except TraceError CallRecord} {records : List (Except TraceError CallRecord)}
    {outerRecords : List (List (Except TraceError CallRecord))}
    {names : List (Except TraceError Client)}
    (head : read.Gives (item.map (Call.ofRecord · store))) (tail : later.Serves store records)
    (serves : List.Forall₂ (Listing.Serves store) outer outerRecords)
    (gives : clients.Gives names) {d : Delivery}
    (owed : a.walkOpened store ((item :: records) :: outerRecords) names = some d) (s : σ) :
    (Walk.turn r store opened clients s).1.Owes a store d := by
  obtain ⟨s', hread⟩ := head.eq s
  have left : List.Forall₂ (Listing.Serves store) (opened.pop.push later).listings
      (records :: outerRecords) := by
    rw [Pile.listings_push, Pile.listings_pop, top]
    exact List.Forall₂.cons tail serves
  cases item with
  | error e =>
    simp only [Walk.turn, top, hread, Except.map]
    rw [Answers.walkOpened_error] at owed
    exact Turn.owes_stop_error owed
  | ok record =>
    cases hentry : record.entry with
    | synthetic =>
      have synthetic : (Call.ofRecord record store).isSynthetic = true := by
        simp [Call.isSynthetic, Call.ofRecord, hentry]
      simp only [Walk.turn, top, hread, Except.map, synthetic, if_true]
      rw [Answers.walkOpened_synthetic a store hentry] at owed
      exact Turn.owes_stop_ok owed fun d' hd' => .reading left gives hd'
    | normal =>
      have normal : (Call.ofRecord record store).isSynthetic = false := by
        simp [Call.isSynthetic, Call.ofRecord, hentry]
      simp only [Walk.turn, top, hread, Except.map, normal, Bool.false_eq_true, if_false,
        stampedChildren_normal r store hentry]
      rcases stamped_cases (steady.childCalls record.handle) store s' with
        ⟨e, s'', hchildren, hasked⟩ | ⟨children, listing, s'', hchildren, hasked, opens⟩
      · simp only [hasked]
        rw [Answers.walkOpened_refused a store hentry hchildren] at owed
        cases owed
        exact ⟨rfl, .refused⟩
      · simp only [hasked]
        rw [Answers.walkOpened_normal a store hentry hchildren] at owed
        refine Turn.owes_stop_ok owed fun d' hd' => .reading ?_ gives hd'
        rw [Pile.listings_push]
        exact List.Forall₂.cons opens left

theorem turn_owes (steady : r.Gives a) {opened : Pile σ} {clients : Listing σ Client}
    {d : Delivery} (owes : (Stage.reading opened clients).Owes a store d) (s : σ) :
    (Walk.turn r store opened clients s).1.Owes a store d := by
  rcases owes with ⟨serves, gives, owed⟩
  -- The innermost listing, and then its first item, decide what the turn does.
  generalize top : opened.listings = listings at serves
  cases serves with
  | nil =>
    cases gives with
    | nil =>
      simp only [Walk.turn, top]
      cases owed
      exact ⟨rfl, .done⟩
    | cons head tail => exact turn_owes_client steady top head tail owed s
  | @cons listing records outer outerRecords inner serves =>
    cases records with
    | nil =>
      cases inner
      simp only [Walk.turn, top]
      rw [Answers.walkOpened_nil_cons] at owed
      refine .reading ?_ gives owed
      rw [Pile.listings_pop, top]
      exact serves
    | cons item records =>
      cases inner with
      | cons head tail => exact turn_owes_call steady top head tail serves gives owed s

/-! ### Items -/

theorem advance_owes (steady : r.Gives a) {opened : Pile σ} {clients : Listing σ Client}
    {d : Delivery} (owes : (Stage.reading opened clients).Owes a store d) (s : σ) :
    (Walk.advance r store opened clients s).1.1 = d.items.head? ∧
      (Walk.advance r store opened clients s).1.2.Owes a store d.rest := by
  fun_induction Walk.advance r store opened clients s with
  | case1 opened clients s item stage s' hturn =>
    have := turn_owes steady owes s
    rw [hturn] at this
    exact this
  | case2 opened clients s opened' clients' s' hturn ih =>
    have := turn_owes steady owes s
    rw [hturn] at this
    exact ih this

theorem next_owes (steady : r.Gives a) {w : Walk σ} {d : Delivery}
    (owes : w.stage.Owes a store d) (s : σ) :
    (w.next r store s).1 = d.items.head? ∧ (w.next r store s).2.1.stage.Owes a store d.rest := by
  rcases w with ⟨⟨opened, clients⟩ | ⟨e, depth⟩ | _, visited⟩
  · exact advance_owes steady owes s
  · cases owes
    exact ⟨rfl, .done⟩
  · cases owes
    exact ⟨rfl, .done⟩

/-- What a walk answers when it is asked for its next item `n` times. -/
def Walk.answers (r : Reader σ) (store : StoreId) :
    Nat → Walk σ → σ → List (Option (Except TraceError Call))
  | 0, _, _ => []
  | n + 1, w, s =>
    let (item, w, s) := w.next r store s
    item :: answers r store n w s

theorem Walk.answers_succ (n : Nat) (w : Walk σ) (s : σ) :
    w.answers r store (n + 1) s =
      (w.next r store s).1 :: (w.next r store s).2.1.answers r store n (w.next r store s).2.2 :=
  rfl

/-- A walk delivers these items, one each time it is asked, and after them nothing, however
    often it is asked. -/
def Walk.Delivers (r : Reader σ) (store : StoreId) (w : Walk σ) (s : σ) (d : Delivery) : Prop :=
  ∀ n, w.answers r store n s = (List.range n).map (d.items[·]?)

theorem Delivery.map_range_succ (d : Delivery) (n : Nat) :
    (List.range (n + 1)).map (d.items[·]?) =
      d.items.head? :: (List.range n).map (d.rest.items[·]?) := by
  rw [List.range_succ_eq_map, List.map_cons, List.map_map, List.head?_eq_getElem?, items_rest]
  simp [Function.comp_def]

/-- What a walk delivers is its next item and what it delivers from then on. -/
theorem Walk.delivers_iff_next {w : Walk σ} {s : σ} {d : Delivery} :
    w.Delivers r store s d ↔ (w.next r store s).1 = d.items.head? ∧
      (w.next r store s).2.1.Delivers r store (w.next r store s).2.2 d.rest := by
  constructor
  · intro delivers
    refine ⟨(List.cons.inj ((delivers 1).trans (d.map_range_succ 0))).1, ?_⟩
    intro n
    exact (List.cons.inj ((delivers (n + 1)).trans (d.map_range_succ n))).2
  · rintro ⟨first, later⟩ n
    cases n with
    | zero => rfl
    | succ n => rw [Walk.answers_succ, first, later n, d.map_range_succ]

theorem delivers_of_owes (steady : r.Gives a) {w : Walk σ} {d : Delivery}
    (owes : w.stage.Owes a store d) (s : σ) : w.Delivers r store s d := by
  intro n
  -- The induction is on how often the walk is asked; each time it owes one item less.
  induction n generalizing w d s with
  | zero => rfl
  | succ n ih =>
    obtain ⟨first, later⟩ := next_owes steady owes s
    rw [Walk.answers_succ, first, ih later, d.map_range_succ]

/-- A walk over all clients cannot begin if the list of clients is refused. -/
theorem ofClients_refused (steady : r.Gives a) {e : TraceError} (refused : a.clients = .error e)
    (s : σ) : (Walk.ofClients r s).1 = .error e := by
  obtain ⟨s', hasked⟩ := steady.clients.refused refused s
  rw [Walk.ofClients, Read.map, hasked]
  rfl

/-- A walk over one client cannot begin if its calls are refused. -/
theorem ofClient_refused (steady : r.Gives a) {client : Client} {e : TraceError}
    (refused : a.calls client = .error e) (s : σ) :
    (Walk.ofClient r store client s).1 = .error e := by
  have stamped := Read.lists_mapped (Call.ofRecord · store) (steady.calls client)
  rw [refused] at stamped
  obtain ⟨s', hasked⟩ := stamped.refused rfl s
  rw [Walk.ofClient, Reader.stampedCalls, Read.map, hasked]
  rfl

/-- The walk over all clients of a steady reader delivers the recursive walk, if that comes
    to an end. -/
theorem exists_ofClients_delivers (steady : r.Gives a) {clients : List (Except TraceError Client)}
    (granted : a.clients = .ok clients) {d : Delivery}
    (walked : a.walkClients store clients = some d) (s : σ) :
    ∃ w s', Walk.ofClients r s = (.ok w, s') ∧ w.visited = 0 ∧ w.Delivers r store s' d := by
  obtain ⟨listing, s', hasked, gives⟩ := steady.clients.granted granted s
  have closed : List.Forall₂ (Listing.Serves store) (Pile.empty : Pile σ).listings [] :=
    List.Forall₂.nil
  have owes : (Stage.reading Pile.empty listing).Owes a store d := .reading closed gives walked
  refine ⟨⟨.reading .empty listing, 0⟩, s', ?_, rfl, delivers_of_owes steady owes s'⟩
  rw [Walk.ofClients, Read.map, hasked]
  rfl

/-- The walk over one client delivers the recursive walk through its calls. -/
theorem exists_ofClient_delivers (steady : r.Gives a) {client : Client}
    {records : List (Except TraceError CallRecord)} (granted : a.calls client = .ok records)
    {d : Delivery} (walked : a.walkCalls store records = some d) (s : σ) :
    ∃ w s', Walk.ofClient r store client s = (.ok w, s') ∧ w.visited = 0 ∧
      w.Delivers r store s' d := by
  have stamped := Read.lists_mapped (Call.ofRecord · store) (steady.calls client)
  rw [granted] at stamped
  obtain ⟨listing, s', hasked, serves⟩ := stamped.granted rfl s
  have opened : List.Forall₂ (Listing.Serves store) (Pile.empty.push listing).listings
      [records] := List.Forall₂.cons serves List.Forall₂.nil
  have owed : a.walkOpened store [records] [] = some d := by
    rw [Answers.walkOpened, Answers.walkOpened, Answers.walkClients, walked, andThen_nothing]
  have owes : (Stage.reading (Pile.empty.push listing) []).Owes a store d :=
    .reading opened Listing.gives_nil owed
  refine ⟨⟨.reading (Pile.empty.push listing) [], 0⟩, s', ?_, rfl,
    delivers_of_owes steady owes s'⟩
  rw [Walk.ofClient, Reader.stampedCalls, Read.map, hasked]
  rfl

/-! ### Whole walks -/

/-- The walk of a steady reader delivers what the recursive walk delivers, item by item,
    and nothing after it, be it a walk over all clients or over one.  It cannot begin if
    the first request is refused. -/
theorem walk_delivers_recursive_walk {r : Reader σ} {a : Answers} (steady : r.Gives a)
    (ends : ∀ client records, a.calls client = .ok records → a.Ends records)
    (store : StoreId) (s : σ) :
    (match a.clients with
      | .error e => (Walk.ofClients r s).1 = .error e
      | .ok clients =>
        ∃ d w s', a.walkClients store clients = some d ∧
          Walk.ofClients r s = (.ok w, s') ∧ w.Delivers r store s' d) ∧
      ∀ client,
        match a.calls client with
        | .error e => (Walk.ofClient r store client s).1 = .error e
        | .ok records =>
          ∃ d w s', a.walkCalls store records = some d ∧
            Walk.ofClient r store client s = (.ok w, s') ∧ w.Delivers r store s' d := by
  constructor
  · split
    · rename_i e refused
      exact ofClients_refused steady refused s
    · rename_i clients granted
      obtain ⟨d, hd⟩ := Answers.exists_walkClients store ends clients
      obtain ⟨w, s', started, -, delivers⟩ := exists_ofClients_delivers steady granted hd s
      exact ⟨d, w, s', hd, started, delivers⟩
  · intro client
    split
    · rename_i e refused
      exact ofClient_refused steady refused s
    · rename_i records granted
      obtain ⟨d, hd⟩ := Answers.exists_walkCalls store (ends client records granted)
      obtain ⟨w, s', started, -, delivers⟩ := exists_ofClient_delivers steady granted hd s
      exact ⟨d, w, s', hd, started, delivers⟩

/-- A client whose first call has a child that refuses to list its children. -/
def refusedBelow : Answers where
  clients := .ok [.ok ⟨4, 8⟩, .error (.cannotRead (.reported "never reached"))]
  calls _ := .ok [.ok (default : CallRecord), .ok { (default : CallRecord) with handle := ⟨2⟩ }]
  childCalls handle :=
    if handle = ⟨0⟩ then .ok [.ok { (default : CallRecord) with handle := ⟨1⟩ }]
    else .error (.cannotRead (.reported "refused"))

theorem refusedBelow_below {child parent : Handle} (h : refusedBelow.Below child parent) :
    child = ⟨1⟩ ∧ parent = ⟨0⟩ := by
  obtain ⟨children, hchildren, record, hmem, -, rfl⟩ := h
  by_cases hparent : parent = ⟨0⟩
  · simp only [refusedBelow, hparent, if_true, Except.ok.injEq] at hchildren
    subst hchildren
    simp only [List.mem_singleton, Except.ok.injEq] at hmem
    subst hmem
    exact ⟨rfl, hparent⟩
  · simp [refusedBelow, hparent] at hchildren

theorem refusedBelow_walkClients (store : StoreId)
    (clients : List (Except TraceError Client)) :
    refusedBelow.walkClients store (.ok ⟨4, 8⟩ :: clients) =
      some (.cons (Call.ofRecord default store)
        (.cons (Call.ofRecord { (default : CallRecord) with handle := ⟨1⟩ } store)
          (.failed (.cannotRead (.reported "refused"))))) := by
  have inner : refusedBelow.walkCalls store
      [.ok { (default : CallRecord) with handle := ⟨1⟩ }] =
        some (.cons (Call.ofRecord { (default : CallRecord) with handle := ⟨1⟩ } store)
          (.failed (.cannotRead (.reported "refused")))) := by
    rw [Answers.walkCalls_ok, Answers.walkBelow_normal _ _ rfl]
    rfl
  have outer : refusedBelow.walkBelow store default =
      refusedBelow.walkCalls store [.ok { (default : CallRecord) with handle := ⟨1⟩ }] :=
    Answers.walkBelow_normal refusedBelow store rfl
  simp only [Answers.walkClients, refusedBelow]
  rw [Answers.walkCalls_ok]
  change andThen ((andThen (refusedBelow.walkBelow store default) _).map _) _ = _
  rw [outer, inner]
  rfl

/-- The call whose children are refused is delivered, and the refusal right after it. -/
theorem walk_delivers_refusal_after_call :
    refusedBelow.reader.Gives refusedBelow ∧
      (∀ client records, refusedBelow.calls client = .ok records → refusedBelow.Ends records) ∧
      ∃ d w s', Walk.ofClients refusedBelow.reader 0 = (.ok w, s') ∧
        w.Delivers refusedBelow.reader 3 s' d ∧
        d.items = [.ok (Call.ofRecord default 3),
          .ok (Call.ofRecord { (default : CallRecord) with handle := ⟨1⟩ } 3),
          .error (.cannotRead (.reported "refused"))] := by
  have ends : ∀ client records, refusedBelow.calls client = .ok records →
      refusedBelow.Ends records := by
    intro client records _
    apply Answers.ends_of_measure fun handle => 1 - handle.index
    intro child parent h
    obtain ⟨rfl, rfl⟩ := refusedBelow_below h
    decide
  refine ⟨refusedBelow.reader_gives, ends, ?_⟩
  obtain ⟨⟨d, w, s', hd, hw, delivers⟩, -⟩ :=
    walk_delivers_recursive_walk refusedBelow.reader_gives ends 3 0
  rw [refusedBelow_walkClients] at hd
  cases hd
  exact ⟨_, w, s', hw, delivers, rfl⟩

end CallTrace
