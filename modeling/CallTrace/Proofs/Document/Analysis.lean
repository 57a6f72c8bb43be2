import CallTrace.Analysis
import CallTrace.Proofs.Document.Tree
import CallTrace.Proofs.Ranking
import CallTrace.Proofs.Walk.Placed

/-!
# The analysis of a document

What an analysis comes to can be read off the document: the calls to be counted are those
that no synthetic call stands above (`Document.reached`), and each is counted under a key
that depends on its own entry in the document alone (`CallSpec.key`).  If one of them names a
module that is not listed, there is no ranking, and the error is that of the first such call
in pre-order.  The histogram of the recording agrees
(`Recording.Recorded.histogram_outcome`), and so does the analysis.
-/

namespace CallTrace

/-- The key of a call, with the function name cut to its first 64 characters. -/
def CallSpec.key (grouping : Grouping) (spec : CallSpec) : String :=
  match grouping with
  | .qualifiedName => spec.moduleName ++ "!" ++ String.ofList (spec.functionName.toList.take 64)
  | .namePrefix => namePrefix (String.ofList (spec.functionName.toList.take 64))

namespace Document

variable (d : Document)

/-- The calls of the document, each with the number of its client, in order of first
    appearance, and the number of its parent in its entry. -/
def placed : List Placement :=
  placements (clientsOf d.clients) (sitesOf d.clients)

/-- The calls that no synthetic call stands above, with their numbers. -/
def reached : List (Placement × Nat) :=
  d.placed.zipIdx.filter fun p => isReached d.placed p.2

/-- The module of the call is listed. -/
def Lists (spec : CallSpec) : Prop :=
  spec.moduleName ∈ d.modules.map Module.name

instance (spec : CallSpec) : Decidable (d.Lists spec) :=
  inferInstanceAs (Decidable (spec.moduleName ∈ d.modules.map Module.name))

/-- Of the calls that are reached and whose module is not listed, this one comes first in
    pre-order. -/
structure FirstUnlisted (p : Placement) (i : Nat) : Prop where
  reached : (p, i) ∈ d.reached
  unlisted : ¬ d.Lists p.spec
  first : ∀ q j, (q, j) ∈ d.reached → ¬ d.Lists q.spec → j ≠ i →
    position d.placed i < position d.placed j

variable {d} {spec : CallSpec}

theorem record_listed (h : d.Lists spec) (n : Nat) :
    ∃ record, d.record spec n = .ok record ∧ record.handle = ⟨n⟩ ∧ record.entry = spec.entry ∧
      record.functionName = spec.functionName ∧ record.moduleName = spec.moduleName := by
  rw [record]
  cases hm : d.module? spec.moduleName with
  | none =>
    obtain ⟨m, hmem, hname⟩ := List.mem_map.mp h
    have hnone := List.find?_eq_none.mp hm m (List.mem_reverse.mpr hmem)
    rw [hname] at hnone
    exact absurd (beq_self_eq_true _) hnone
  | some m => exact ⟨_, rfl, rfl, rfl, rfl, rfl⟩

theorem record_unlisted (h : ¬ d.Lists spec) (n : Nat) :
    d.record spec n =
      .error (.cannotRead (.unknownModule ⟨n⟩ spec.functionName spec.moduleName)) := by
  rw [record]
  cases hm : d.module? spec.moduleName with
  | none => rfl
  | some m =>
    have hmem := List.mem_reverse.mp (List.mem_of_find?_eq_some hm)
    have hname := List.find?_some hm
    rw [beq_iff_eq] at hname
    exact absurd (List.mem_map.mpr ⟨m, hmem, hname⟩) h

/-- The key of the call with a number. -/
def keyAt (d : Document) (grouping : Grouping) (i : Nat) : String :=
  ((d.placed[i]?).map fun p => p.spec.key grouping).getD ""

theorem mem_reached {p : Placement} {i : Nat} :
    (p, i) ∈ d.reached ↔ d.placed[i]? = some p ∧ isReached d.placed i = true := by
  rw [reached, List.mem_filter, List.mk_mem_zipIdx_iff_getElem?]

theorem keyAt_eq {grouping : Grouping} {p : Placement} {i : Nat} (hp : d.placed[i]? = some p) :
    d.keyAt grouping i = p.spec.key grouping := by
  rw [keyAt, hp]
  rfl

theorem map_keyAt (grouping : Grouping) :
    (d.reached.map Prod.snd).map (d.keyAt grouping) =
      d.reached.map fun p => p.1.spec.key grouping := by
  rw [List.map_map]
  apply List.map_congr_left
  rintro ⟨p, i⟩ hp
  exact keyAt_eq (mem_reached.mp hp).1

theorem mem_map_reached {i : Nat} : i ∈ d.reached.map Prod.snd ↔ ∃ p, (p, i) ∈ d.reached := by
  rw [List.mem_map]
  constructor
  · rintro ⟨⟨p, j⟩, hp, rfl⟩
    exact ⟨p, hp⟩
  · rintro ⟨p, hp⟩
    exact ⟨(p, i), hp, rfl⟩

/-- In pre-order, a call of no listed module is the first if those before it are listed. -/
theorem firstUnlisted_of_split {front rear : List Nat} {i : Nat} {p : Placement}
    (ordered : (front ++ i :: rear).Pairwise fun i j => position d.placed i < position d.placed j)
    (hperm : (front ++ i :: rear).Perm (d.reached.map Prod.snd))
    (before : ∀ j ∈ front, ∀ q, (q, j) ∈ d.reached → d.Lists q.spec) (hp : (p, i) ∈ d.reached)
    (unlisted : ¬ d.Lists p.spec) : d.FirstUnlisted p i := by
  refine ⟨hp, unlisted, ?_⟩
  intro q j hq hlists hne
  have hj := hperm.mem_iff.mpr (mem_map_reached.mpr ⟨q, hq⟩)
  rcases List.mem_append.mp hj with hj | hj
  · exact absurd (before j hj q hq) hlists
  · rcases List.mem_cons.mp hj with hj | hj
    · exact absurd hj hne
    · have later := (List.pairwise_append.mp ordered).2.1
      exact (List.pairwise_cons.mp later).1 j hj

theorem lists_or_firstUnlisted {order : List Nat}
    (ordered : order.Pairwise fun i j => position d.placed i < position d.placed j)
    (hperm : order.Perm (d.reached.map Prod.snd)) :
    (∀ p ∈ d.reached, d.Lists p.1.spec) ∨
      ∃ front i rear p, order = front ++ i :: rear ∧
        (∀ j ∈ front, ∀ q, (q, j) ∈ d.reached → d.Lists q.spec) ∧ d.FirstUnlisted p i := by
  cases hfirst : order.find? fun i => (d.placed[i]?).any fun p => !decide (d.Lists p.spec) with
  | none =>
    left
    rintro ⟨p, i⟩ hp
    have hi := hperm.mem_iff.mpr (mem_map_reached.mpr ⟨p, hp⟩)
    have hlists := List.find?_eq_none.mp hfirst i hi
    rw [(mem_reached.mp hp).1] at hlists
    simpa using hlists
  | some i =>
    right
    obtain ⟨hunlisted, front, rear, rfl, hfront⟩ := List.find?_eq_some_iff_append.mp hfirst
    have hi : i ∈ front ++ i :: rear := List.mem_append_right front List.mem_cons_self
    obtain ⟨p, hp⟩ := mem_map_reached.mp (hperm.mem_iff.mp hi)
    rw [(mem_reached.mp hp).1] at hunlisted
    have unlisted : ¬ d.Lists p.spec := by simpa using hunlisted
    have before : ∀ j ∈ front, ∀ q, (q, j) ∈ d.reached → d.Lists q.spec := by
      intro j hj q hq
      have hlists := hfront j hj
      rw [(mem_reached.mp hq).1] at hlists
      simpa using hlists
    exact ⟨front, i, rear, p, rfl, before,
      firstUnlisted_of_split ordered hperm before hp unlisted⟩

end Document

namespace Recording

variable {d : Document} {r : Recording}

section Recorded

variable (recorded : Recorded d.modules (clientsOf d.clients) (sitesOf d.clients) r)
include recorded

theorem Recorded.recordAt_placed {i : Nat} {p : Placement} (hp : d.placed[i]? = some p) :
    r.recordAt i = d.record p.spec i := by
  obtain ⟨s, hs, rfl⟩ := Option.map_eq_some_iff.mp (List.getElem?_map ▸ hp)
  exact recorded.recordAt_eq hs

theorem Recorded.arranged : r.Arranged (clientsOf d.clients) d.placed :=
  ⟨⟨d.modules, recorded.eq⟩, nodup_clientsOf d.clients, recorded.placed⟩

/-- The answers that are read off the document fit the placements of its calls. -/
theorem Recorded.fits : d.answers.Fits (clientsOf d.clients) d.placed r.recordAt := by
  rw [← recorded.answers_eq]
  exact recorded.arranged.fits

theorem Recorded.mem_reached_iff {p : Placement} {i : Nat} :
    (p, i) ∈ d.reached ↔ d.placed[i]? = some p ∧
      ∀ j, Relation.TransGen (fun x y => parentAt d.placed x = some y) i j →
        ∀ q, d.placed[j]? = some q → q.spec.entry = .normal := by
  have well : WellPlaced (clientsOf d.clients).length d.placed := recorded.placed
  rw [Document.mem_reached, well.isReached_iff_normal]

/-- A walk takes the calls that are reached in the order of their positions. -/
theorem Recorded.exists_order :
    ∃ order, Traversal d.placed (topPlaces (clientsOf d.clients) d.placed) order ∧
      (order.Pairwise fun i j => position d.placed i < position d.placed j) ∧
      order.Perm (d.reached.map Prod.snd) := by
  obtain ⟨order, traversal, ordered, hmem⟩ :=
    exists_traversal_top (nodup_clientsOf d.clients) recorded.placed
  refine ⟨order, traversal, ordered, ?_⟩
  have distinct : order.Nodup := by
    refine ordered.imp ?_
    rintro i j hlt rfl
    exact List.lt_irrefl _ hlt
  have distinct' : (d.reached.map Prod.snd).Nodup := by
    have numbers : (d.placed.zipIdx.map Prod.snd).Nodup := by
      rw [List.zipIdx_map_snd]
      exact List.nodup_range'
    exact numbers.sublist (List.Sublist.map Prod.snd List.filter_sublist)
  rw [List.perm_ext_iff_of_nodup distinct distinct']
  intro i
  rw [hmem, List.mem_map]
  constructor
  · rintro ⟨hi, hreached⟩
    exact ⟨(d.placed[i], i), Document.mem_reached.mpr ⟨List.getElem?_eq_getElem hi, hreached⟩, rfl⟩
  · rintro ⟨⟨p, i⟩, hp, rfl⟩
    obtain ⟨hget, hreached⟩ := Document.mem_reached.mp hp
    exact ⟨(List.getElem?_eq_some_iff.mp hget).1, hreached⟩

/-- A call of a listed module is read, and counted under its key. -/
theorem Recorded.readable (store : StoreId) (grouping : Grouping) {i : Nat} {p : Placement}
    (hp : d.placed[i]? = some p) (hlists : d.Lists p.spec) :
    ∃ record, r.recordAt i = .ok record ∧
      grouping.key (Call.ofRecord record store) = p.spec.key grouping := by
  obtain ⟨record, hrecord, -, -, hfunction, hmodule⟩ := Document.record_listed hlists i
  refine ⟨record, (recorded.recordAt_placed hp).trans hrecord, ?_⟩
  cases grouping with
  | qualifiedName =>
    rw [Grouping.key, Call.qualifiedName, CallSpec.key, ← hfunction, ← hmodule]
    rfl
  | namePrefix =>
    rw [Grouping.key, CallSpec.key, ← hfunction]
    rfl

/-- The histogram counts what a walk in this order delivers. -/
theorem Recorded.histogram_order {σ : Type} (store : StoreId) (grouping : Grouping) (s : σ)
    {order : List Nat}
    (traversal : Traversal d.placed (topPlaces (clientsOf d.clients) d.placed) order) :
    ((r.reader : Reader σ).histogram store grouping.key .empty s).1 =
      Tally.empty.fold grouping.key (Delivery.upTo store (order.map r.recordAt)).items := by
  have walked : d.answers.walkClients store ((clientsOf d.clients).map .ok) =
      some (.upTo store (order.map r.recordAt)) := recorded.fits.walkClients_eq traversal
  exact histogram_eq recorded.gives recorded.fits.clients walked grouping.key .empty s

/-- The histogram counts all calls that are reached, or ends at the first that cannot be
    read. -/
theorem Recorded.histogram_outcome {σ : Type} (store : StoreId) (grouping : Grouping) (s : σ) :
    (∃ t, ((r.reader : Reader σ).histogram store grouping.key .empty s).1 = (t, .ok ()) ∧
        (∀ p ∈ d.reached, d.Lists p.1.spec) ∧
        t.Counts (d.reached.map fun p => p.1.spec.key grouping)) ∨
      ∃ t p i, ((r.reader : Reader σ).histogram store grouping.key .empty s).1 =
          (t, .error (.cannotRead (.unknownModule ⟨i⟩ p.spec.functionName p.spec.moduleName))) ∧
        d.FirstUnlisted p i := by
  obtain ⟨order, traversal, ordered, hperm⟩ := recorded.exists_order
  rw [recorded.histogram_order store grouping s traversal, Tally.fold_items]
  rcases Document.lists_or_firstUnlisted ordered hperm with
    lists | ⟨front, i, rear, p, rfl, before, first⟩
  · left
    have delivered : (Delivery.upTo store (order.map r.recordAt)).failure = none ∧
        (Delivery.upTo store (order.map r.recordAt)).calls.map grouping.key =
          order.map (d.keyAt grouping) := by
      apply Delivery.upTo_readable
      intro i hi
      obtain ⟨p, hp⟩ := Document.mem_map_reached.mp (hperm.mem_iff.mp hi)
      have hget := (Document.mem_reached.mp hp).1
      rw [Document.keyAt_eq hget]
      exact recorded.readable store grouping hget (lists (p, i) hp)
    rw [delivered.1, delivered.2]
    refine ⟨_, rfl, lists, ?_⟩
    rw [← Document.map_keyAt]
    exact (Tally.counts_empty.accumulateAll _).perm (hperm.map _)
  · right
    have failed : (Delivery.upTo store ((front ++ i :: rear).map r.recordAt)).failure =
        some (.cannotRead (.unknownModule ⟨i⟩ p.spec.functionName p.spec.moduleName)) := by
      apply Delivery.upTo_unreadable
      · intro j hj
        have hmem := hperm.mem_iff.mp (List.mem_append_left (i :: rear) hj)
        obtain ⟨q, hq⟩ := Document.mem_map_reached.mp hmem
        obtain ⟨record, hrecord, -⟩ := recorded.readable store grouping
          (Document.mem_reached.mp hq).1 (before j hj q hq)
        exact ⟨record, hrecord⟩
      · rw [recorded.recordAt_placed (Document.mem_reached.mp first.reached).1,
          Document.record_unlisted first.unlisted]
    rw [failed]
    exact ⟨_, p, i, rfl, first⟩

end Recorded

end Recording

/-- The analysis of an accepted document ranks the calls that are reached, those to which no
    synthetic call leads, by their own keys, or reports the first of them in pre-order whose
    module is not listed. -/
theorem analyze_document {d : Document} {r : Recording} (h : Recording.ofDocument d = .ok r)
    {σ : Type} (id : StoreId) (s : σ) (grouping : Grouping) (n : Nat) :
    (∀ p i, (p, i) ∈ d.reached ↔ d.placed[i]? = some p ∧
        ∀ j, Relation.TransGen (fun x y => parentAt d.placed x = some y) i j →
          ∀ q, d.placed[j]? = some q → q.spec.entry = .normal) ∧
      ∃ outcome s', Store.analyze ⟨id, r.reader, s, true⟩ grouping n =
          .ok (outcome, ⟨id, r.reader, s', true⟩) ∧
        ((∀ p ∈ d.reached, d.Lists p.1.spec) →
          ∃ all, Ranked (d.reached.map fun p => p.1.spec.key grouping) all ∧
            outcome = .ok
              ⟨all.take (min n (d.reached.map fun p => p.1.spec.key grouping).dedup.length),
                d.reached.length⟩) ∧
        ((∃ p ∈ d.reached, ¬ d.Lists p.1.spec) →
          ∃ p i, d.FirstUnlisted p i ∧
            outcome = .error (.reading
              (.cannotRead (.unknownModule ⟨i⟩ p.spec.functionName p.spec.moduleName)))) := by
  have recorded := Recording.recorded_of_ok h
  refine ⟨fun p i => recorded.mem_reached_iff, _, _, Store.analyze_open id _ s grouping n, ?_⟩
  rcases recorded.histogram_outcome id grouping s with
    ⟨t, counted, lists, counts⟩ | ⟨t, p, i, counted, first⟩
  · rw [counted]
    constructor
    · intro _
      obtain ⟨all, ranked, hranking⟩ := Ranking.exists_ranked counts
      refine ⟨all, ranked, ?_⟩
      rw [Counted.ranking, hranking, ← ranked.length_eq, List.take_eq_take_min,
        List.length_map]
    · rintro ⟨p, hp, unlisted⟩
      exact absurd (lists p hp) unlisted
  · rw [counted]
    constructor
    · intro lists
      exact absurd (lists (p, i) first.reached) first.unlisted
    · intro _
      exact ⟨p, i, first, rfl⟩

/-- A document with a call of no known module below a synthetic call. -/
def hiddenCall : Document where
  version := "1.2"
  modules := [{ name := "nt" }]
  clients := [
    { client := ⟨4, 8⟩
      calls := [{ id := 1, spec := { functionName := "KiEntry", moduleName := "nt" } },
        { id := 2, parent := some 1,
          spec := { functionName := "stub", moduleName := "nt", entry := .synthetic } },
        { id := 3, parent := some 2, spec := { functionName := "lost", moduleName := "gone" } }] },
    { client := ⟨4, 12⟩
      calls := [{ id := 1, spec := { functionName := "NtClose", moduleName := "nt" } }] },
    { client := ⟨4, 8⟩
      calls := [{ id := 1, spec := { functionName := "KiEntry", moduleName := "nt" } }] }]

theorem hiddenCall_keys :
    (hiddenCall.reached.map fun p => p.1.spec.key .qualifiedName) =
      ["nt!KiEntry", "nt!stub", "nt!NtClose", "nt!KiEntry"] := by
  decide +kernel

theorem hiddenCall_ranked :
    Ranked (hiddenCall.reached.map fun p => p.1.spec.key .qualifiedName)
      [⟨"nt!KiEntry", 2⟩, ⟨"nt!NtClose", 1⟩, ⟨"nt!stub", 1⟩] := by
  rw [hiddenCall_keys]
  constructor
  · rintro ⟨key, callCount⟩
    simp only [List.mem_cons, RankedKey.mk.injEq, List.not_mem_nil, or_false]
    constructor
    · rintro (⟨rfl, rfl⟩ | ⟨rfl, rfl⟩ | ⟨rfl, rfl⟩) <;> decide
    · rintro ⟨rfl | rfl | rfl | rfl, rfl⟩ <;> decide
  · decide

/-- The call below the synthetic call is neither counted nor reported. -/
theorem analyze_document_hiddenCall :
    ∃ r, Recording.ofDocument hiddenCall = .ok r ∧ ∃ state,
      Store.analyze ⟨3, r.reader, (), true⟩ .qualifiedName 2 =
        .ok (.ok ⟨[⟨"nt!KiEntry", 2⟩, ⟨"nt!NtClose", 1⟩], 4⟩, ⟨3, r.reader, state, true⟩) := by
  have accepted : (Recording.ofDocument hiddenCall).toBool = true := by cbv
  have lists : (hiddenCall.reached.all fun p => decide (hiddenCall.Lists p.1.spec)) = true := by
    decide +kernel
  obtain ⟨r, h⟩ := Recording.exists_of_toBool accepted
  obtain ⟨-, outcome, state, hanalyze, hranking, -⟩ := analyze_document h 3 () .qualifiedName 2
  obtain ⟨all, ranked, rfl⟩ := hranking (by simpa using lists)
  have total : hiddenCall.reached.length = 4 := by
    rw [← List.length_map, hiddenCall_keys]
    rfl
  rw [ranked.unique hiddenCall_ranked, hiddenCall_keys, total] at hanalyze
  exact ⟨r, h, state, hanalyze⟩

end CallTrace
