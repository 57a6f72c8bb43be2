import CallTrace.Proofs.Merging

/-!
# Counting client by client

The walk over all clients is the walk over one client after the other, up to the first failure
(`Answers.walkClients_cases`).  So the tallies of the clients can be made one by one and merged
(`histogram_partition`), whether all clients can be read or not.
-/

namespace CallTrace

open Delivery

namespace Answers

variable {a : Answers} {store : StoreId}

/-- The walk through the calls of one client. -/
noncomputable def walkClient (a : Answers) (store : StoreId) (client : Client) :
    Option Delivery :=
  match a.calls client with
  | .error e => some (.failed e)
  | .ok records => a.walkCalls store records

theorem walkClients_ok (client : Client) (clients : List (Except TraceError Client)) :
    a.walkClients store (.ok client :: clients) =
      andThen (a.walkClient store client) (a.walkClients store clients) := by
  rw [walkClients, walkClient]
  cases a.calls client with
  | error e => rw [failed_andThen]
  | ok records => rfl

/-- These calls are delivered, client by client, without a failure. -/
def WalksThrough (a : Answers) (store : StoreId) : List Client → List (List Call) → Prop :=
  List.Forall₂ fun client calls => a.walkClient store client = some ⟨calls, none⟩

/-- The walk over all clients passes through some of them.  Then it is at the end, at a client
    that cannot be named or at a client with a failure. -/
theorem walkClients_cases {clients : List (Except TraceError Client)} {d : Delivery}
    (walked : a.walkClients store clients = some d) :
    ∃ earlier groups, a.WalksThrough store earlier groups ∧
      ((clients = earlier.map .ok ∧ d = ⟨groups.flatten, none⟩) ∨
        (∃ e later, clients = earlier.map .ok ++ .error e :: later ∧
          d = ⟨groups.flatten, some e⟩) ∨
        ∃ client later calls e, clients = earlier.map .ok ++ .ok client :: later ∧
          a.walkClient store client = some ⟨calls, some e⟩ ∧
          d = ⟨groups.flatten ++ calls, some e⟩) := by
  induction clients generalizing d with
  | nil =>
    cases walked
    exact ⟨[], [], .nil, .inl ⟨rfl, rfl⟩⟩
  | cons item clients ih =>
    cases item with
    | error e =>
      cases walked
      exact ⟨[], [], .nil, .inr (.inl ⟨e, clients, rfl, rfl⟩)⟩
    | ok client =>
      rw [walkClients_ok] at walked
      cases first : a.walkClient store client with
      | none =>
        rw [first] at walked
        cases walked
      | some delivered =>
        obtain ⟨calls, failure⟩ := delivered
        rw [first] at walked
        cases failure with
        | some e =>
          cases walked
          exact ⟨[], [], .nil, .inr (.inr ⟨client, clients, calls, e, rfl, first, rfl⟩)⟩
        | none =>
          obtain ⟨d', walked', rfl⟩ := Option.map_eq_some_iff.mp walked
          obtain ⟨earlier, groups, through, outcome⟩ := ih walked'
          refine ⟨client :: earlier, calls :: groups, .cons first through, ?_⟩
          rcases outcome with ⟨rfl, rfl⟩ | ⟨e, later, rfl, rfl⟩ |
            ⟨failing, later, partly, e, rfl, fails, rfl⟩
          · exact .inl ⟨rfl, rfl⟩
          · exact .inr (.inl ⟨e, later, rfl, rfl⟩)
          · refine .inr (.inr ⟨failing, later, partly, e, rfl, fails, ?_⟩)
            rw [List.flatten_cons, List.append_assoc]

end Answers

variable {σ : Type} {a : Answers} {r : Reader σ} {store : StoreId}

theorem clientHistogram_eq (steady : r.Gives a) {client : Client} {d : Delivery}
    (walked : a.walkClient store client = some d) (key : Call → String) (t : Tally) (s : σ) :
    (r.clientHistogram store client key t s).1 = t.fold key d.items := by
  rw [Answers.walkClient] at walked
  cases granted : a.calls client with
  | error e =>
    rw [granted] at walked
    cases walked
    rw [Reader.clientHistogram, Reader.countWalk_refused (ofClient_refused steady granted s)]
    rfl
  | ok records =>
    rw [granted] at walked
    obtain ⟨w, s', started, -, delivers⟩ := exists_ofClient_delivers steady granted walked s
    exact countWalk_eq started delivers key t

/-- A pass over one client, from an empty tally, comes to this in every state of the reader. -/
def Reader.PassGives (r : Reader σ) (store : StoreId) (key : Call → String) (client : Client)
    (counted : Counted) : Prop :=
  ∀ s, (r.clientHistogram store client key .empty s).1 = counted

/-- The passes over these clients succeed and come to these tallies. -/
def Reader.PassesGive (r : Reader σ) (store : StoreId) (key : Call → String) :
    List Client → List Tally → Prop :=
  List.Forall₂ fun client tally => r.PassGives store key client (tally, .ok ())

theorem exists_passes (steady : r.Gives a) (key : Call → String) {clients : List Client}
    {groups : List (List Call)} (through : a.WalksThrough store clients groups) :
    ∃ tallies, r.PassesGive store key clients tallies ∧
      List.Forall₂ Tally.Counts tallies (groups.map (List.map key)) := by
  induction through with
  | nil => exact ⟨[], .nil, .nil⟩
  | @cons client calls clients groups walked _ ih =>
    obtain ⟨tallies, passes, counts⟩ := ih
    refine ⟨Tally.accumulateAll .empty (calls.map key) :: tallies, .cons ?_ passes,
      .cons (Tally.counts_accumulateAll _) counts⟩
    intro s
    rw [clientHistogram_eq steady walked, Tally.fold_items]

theorem histogram_refused (steady : r.Gives a) {e : TraceError} (refused : a.clients = .error e)
    (key : Call → String) (t : Tally) (s : σ) :
    (r.histogram store key t s).1 = (t, .error e) := by
  rw [Reader.histogram, Reader.countWalk_refused (ofClients_refused steady refused s)]

/-- Counting all clients at once and merging what is counted client by client come to the same.
    If the count of all clients breaks off at a client, the counts of the earlier ones do not,
    and that of this client breaks off with the same error. -/
theorem histogram_partition (steady : r.Gives a)
    (ends : ∀ client records, a.calls client = .ok records → a.Ends records)
    (store : StoreId) (key : Call → String) (s : σ) :
    (∀ t, (r.histogram store key .empty s).1 = (t, .ok ()) →
      ∃ clients tallies, a.clients = .ok (clients.map .ok) ∧
        r.PassesGive store key clients tallies ∧
        ∀ merged, Tally.MergedFrom tallies merged → (merged == t) = true) ∧
    ∀ t e, (r.histogram store key .empty s).1 = (t, .error e) →
      (a.clients = .error e ∧ (t == .empty) = true) ∨
      ∃ earlier tallies, r.PassesGive store key earlier tallies ∧
        ((∃ later, a.clients = .ok (earlier.map .ok ++ .error e :: later) ∧
            ∀ merged, Tally.MergedFrom tallies merged → (merged == t) = true) ∨
          ∃ client later partly, a.clients = .ok (earlier.map .ok ++ .ok client :: later) ∧
            r.PassGives store key client (partly, .error e) ∧
            ∀ merged, Tally.MergedFrom (tallies ++ [partly]) merged →
              (merged == t) = true) := by
  cases granted : a.clients with
  | error e =>
    have refused : (r.histogram store key .empty s).1 = (.empty, .error e) :=
      histogram_refused steady granted key .empty s
    constructor
    · intro t h
      rw [refused] at h
      cases h
    · intro t e' h
      rw [refused] at h
      cases h
      exact .inl ⟨rfl, Tally.counts_empty.beq Tally.counts_empty⟩
  | ok clients =>
    obtain ⟨d, walked⟩ := Answers.exists_walkClients store ends clients
    have counted := histogram_eq steady granted walked key .empty s
    rw [Tally.fold_items] at counted
    obtain ⟨earlier, groups, through, outcome⟩ := Answers.walkClients_cases walked
    obtain ⟨tallies, passes, counts⟩ := exists_passes steady key through
    have whole : ∀ merged, Tally.MergedFrom tallies merged →
        (merged == Tally.accumulateAll .empty (groups.flatten.map key)) = true := by
      intro merged h
      refine (h.counts counts).beq ?_
      rw [← List.map_flatten]
      exact Tally.counts_accumulateAll _
    rcases outcome with ⟨rfl, rfl⟩ | ⟨e, later, rfl, rfl⟩ |
      ⟨client, later, calls, e, rfl, fails, rfl⟩
    · constructor
      · intro t h
        rw [counted] at h
        cases h
        exact ⟨earlier, tallies, rfl, passes, whole⟩
      · intro t e h
        rw [counted] at h
        cases h
    · constructor
      · intro t h
        rw [counted] at h
        cases h
      · intro t e' h
        rw [counted] at h
        cases h
        exact .inr ⟨earlier, tallies, passes, .inl ⟨later, rfl, whole⟩⟩
    · constructor
      · intro t h
        rw [counted] at h
        cases h
      · intro t e' h
        rw [counted] at h
        cases h
        have partly : r.PassGives store key client
            (Tally.accumulateAll .empty (calls.map key), .error e) := by
          intro s'
          rw [clientHistogram_eq steady fails, Tally.fold_items]
        refine .inr ⟨earlier, tallies, passes, .inr ⟨client, later, _, rfl, partly, ?_⟩⟩
        intro merged h
        have all := h.counts (List.rel_append counts
          (.cons (Tally.counts_accumulateAll (calls.map key)) .nil))
        refine all.beq ?_
        rw [List.flatten_append, ← List.map_flatten, List.flatten_singleton, ← List.map_append]
        exact Tally.counts_accumulateAll _

/-- A client that can be read, then one whose second call cannot. -/
def secondUnreadable : Answers where
  clients := .ok [.ok ⟨4, 8⟩, .ok ⟨4, 12⟩]
  calls client :=
    if client = ⟨4, 8⟩ then .ok [.ok default]
    else .ok [.ok default, .error (.cannotRead (.reported "unreadable"))]
  childCalls _ := .ok []

theorem secondUnreadable_walkClient (store : StoreId) :
    secondUnreadable.walkClient store ⟨4, 8⟩ = some ⟨[Call.ofRecord default store], none⟩ ∧
      secondUnreadable.walkClient store ⟨4, 12⟩ =
        some ⟨[Call.ofRecord default store], some (.cannotRead (.reported "unreadable"))⟩ := by
  have below : secondUnreadable.walkBelow store default = some nothing :=
    Answers.walkBelow_normal secondUnreadable store rfl
  constructor
  · change secondUnreadable.walkCalls store [.ok default] = _
    rw [Answers.walkCalls_ok, below]
    rfl
  · change secondUnreadable.walkCalls store [.ok default, .error _] = _
    rw [Answers.walkCalls_ok, below]
    rfl

/-- The count breaks off at the second client, and so does the pass over this client. -/
theorem histogram_partition_secondUnreadable :
    secondUnreadable.reader.Gives secondUnreadable ∧
      (∀ client records, secondUnreadable.calls client = .ok records →
        secondUnreadable.Ends records) ∧
      ∃ e t first partly,
        (secondUnreadable.reader.histogram 3 Call.qualifiedName .empty 0).1 = (t, .error e) ∧
        secondUnreadable.reader.PassGives 3 Call.qualifiedName ⟨4, 8⟩ (first, .ok ()) ∧
        secondUnreadable.reader.PassGives 3 Call.qualifiedName ⟨4, 12⟩ (partly, .error e) ∧
        ([first, partly].foldl Tally.merge .empty == t) = true ∧
        (Tally.merge partly first == t) = true := by
  have ends : ∀ client records, secondUnreadable.calls client = .ok records →
      secondUnreadable.Ends records := by
    intro client records _
    apply Answers.ends_of_measure fun _ => 0
    rintro child parent ⟨children, granted, record, hmem, -⟩
    cases granted
    cases hmem
  have steady := secondUnreadable.reader_gives
  obtain ⟨first, second⟩ := secondUnreadable_walkClient 3
  have walked : secondUnreadable.walkClients 3 [.ok ⟨4, 8⟩, .ok ⟨4, 12⟩] =
      some ⟨[Call.ofRecord default 3, Call.ofRecord default 3],
        some (.cannotRead (.reported "unreadable"))⟩ := by
    rw [Answers.walkClients_ok, Answers.walkClients_ok, first, second]
    rfl
  have counted := histogram_eq steady rfl walked Call.qualifiedName .empty 0
  rw [Tally.fold_items] at counted
  refine ⟨steady, ends, ?_⟩
  obtain ⟨-, broken⟩ := histogram_partition steady ends 3 Call.qualifiedName 0
  rcases broken _ _ counted with ⟨refused, -⟩ | ⟨earlier, tallies, passes, ⟨later, listed, -⟩ |
    ⟨client, later, partly, listed, breaks, merges⟩⟩
  · cases refused
  · rcases earlier with _ | ⟨_, _ | ⟨_, earlier⟩⟩ <;> simp [secondUnreadable] at listed
  · rcases earlier with _ | ⟨_, _ | ⟨_, earlier⟩⟩
    · -- The first client cannot be the one that fails.
      simp only [secondUnreadable, List.map_nil, List.nil_append, Except.ok.injEq,
        List.cons.injEq] at listed
      obtain ⟨rfl, -⟩ := listed
      have passed := clientHistogram_eq steady first Call.qualifiedName .empty 0
      rw [breaks 0, Tally.fold_items] at passed
      cases passed
    · simp only [secondUnreadable, List.map_cons, List.map_nil, List.cons_append, List.nil_append,
        Except.ok.injEq, List.cons.injEq] at listed
      obtain ⟨rfl, rfl, -⟩ := listed
      obtain ⟨tally, rest, pass, none, rfl⟩ := List.forall₂_cons_left_iff.mp passes
      cases none
      refine ⟨_, _, tally, partly, counted, pass, breaks, ?_, ?_⟩
      · exact merges _ (Tally.mergedFrom_foldl [tally, partly])
      · exact merges _ (.merge (.one partly) (.one tally) (List.Perm.swap partly tally []))
    · simp [secondUnreadable] at listed

end CallTrace
