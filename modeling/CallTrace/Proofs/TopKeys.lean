import CallTrace.Proofs.History
import CallTrace.Proofs.Ranking

/-!
# The most counted keys

Which keys a ranking lists and in which order follows from the counts alone
(`Ranking.IsTop.items_eq`): the order of rankings is strict on different keys, so it leaves no
choice at a tie, be it inside the ranking or at the place where it is cut.  Neither the order in
which the keys were counted nor the way in which the entries are sorted can be seen in a ranking
(`Ranking.top_keys`).
-/

namespace CallTrace

theorem RankedKey.Before.trans {a b c : RankedKey} (h : a.Before b) (h' : b.Before c) :
    a.Before c := by
  rcases h with hlt | ⟨heq, hbytes⟩
  · left
    rcases h' with hlt' | ⟨heq', -⟩ <;> omega
  · rcases h' with hlt' | ⟨heq', hbytes'⟩
    · left
      omega
    · right
      exact ⟨heq.trans heq', List.lt_trans hbytes hbytes'⟩

instance : Trans RankedKey.Before RankedKey.Before RankedKey.Before :=
  ⟨RankedKey.Before.trans⟩

namespace Ranking

/-- The ranking lists `n` keys of the tally, or all if there are fewer.  It lists them with their
    counts and in the order of rankings, and no key that is left out comes before one of them. -/
structure IsTop (t : Tally) (n : Nat) (r : Ranking) : Prop where
  length_eq : r.items.length = min n t.distinct
  distinct : (r.items.map RankedKey.key).Nodup
  counts : ∀ item ∈ r.items, item.callCount = t.count item.key
  ordered : r.items.IsChain RankedKey.Before
  rest : ∀ key ∈ t.counts, key ∉ r.items.map RankedKey.key →
    ∀ item ∈ r.items, item.Before ⟨key, t.count key⟩
  total_eq : r.total = t.total

variable {t : Tally} {keys : List String} {all : List RankedKey} {n : Nat} {r : Ranking}

/-- The front of the list of all keys is such a ranking. -/
theorem isTop_take (h : t.Counts keys) (ranked : Ranked keys all) (n : Nat) :
    IsTop t n ⟨all.take n, t.total⟩ where
  length_eq := by rw [List.length_take, ranked.length_eq, h.distinct_eq]
  distinct := ((List.take_sublist n all).map _).nodup ranked.nodup_keys
  counts := by
    intro item hitem
    rw [h.count_eq]
    exact ((ranked.mem item).mp (List.mem_of_mem_take hitem)).2
  ordered := (ranked.ordered.sublist (List.take_sublist n all)).isChain
  rest := by
    intro key hkey unlisted item hitem
    have counted : (⟨key, t.count key⟩ : RankedKey) ∈ all :=
      (ranked.mem _).mpr ⟨h.mem_counts.mp hkey, h.count_eq key⟩
    have later : (⟨key, t.count key⟩ : RankedKey) ∈ all.drop n := by
      rw [← List.take_append_drop n all, List.mem_append] at counted
      refine counted.resolve_left fun earlier => unlisted ?_
      exact List.mem_map.mpr ⟨_, earlier, rfl⟩
    have split : (all.take n ++ all.drop n).Pairwise RankedKey.Before := by
      rw [List.take_append_drop]
      exact ranked.ordered
    exact (List.pairwise_append.mp split).2.2 item hitem _ later
  total_eq := rfl

/-- No key is listed that the tally does not have: its count would be zero, and a key that the
    tally has would be left out for it. -/
theorem IsTop.key_mem (h : t.Counts keys) (top : IsTop t n r) :
    ∀ item ∈ r.items, item.key ∈ keys := by
  intro item hitem
  by_contra stray
  have leftOut : ∃ key ∈ keys, key ∉ r.items.map RankedKey.key := by
    by_contra! listed
    have distinct : (item.key :: keys.dedup).Nodup :=
      List.nodup_cons.mpr ⟨fun hmem => stray (List.mem_dedup.mp hmem), keys.nodup_dedup⟩
    have contained : item.key :: keys.dedup ⊆ r.items.map RankedKey.key := by
      rw [List.cons_subset]
      exact ⟨List.mem_map_of_mem hitem, fun key hkey => listed key (List.mem_dedup.mp hkey)⟩
    have tooMany := (List.subperm_of_subset distinct contained).length_le
    rw [List.length_cons, List.length_map, top.length_eq, h.distinct_eq] at tooMany
    omega
  obtain ⟨key, hkey, unlisted⟩ := leftOut
  have before := top.rest key (h.mem_counts.mpr hkey) unlisted item hitem
  have none : item.callCount = 0 := by
    rw [top.counts item hitem, h.count_eq, List.count_eq_zero_of_not_mem stray]
  have some : 0 < t.count key := by
    rw [h.count_eq]
    exact List.count_pos_iff.mpr hkey
  rcases before with hlt | ⟨heq, -⟩
  · rw [none] at hlt
    exact Nat.not_lt_zero _ hlt
  · rw [none] at heq
    exact some.ne heq

/-- What is listed, and after it the rest of all keys, are all keys in the order of rankings. -/
theorem IsTop.append_rest (h : t.Counts keys) (ranked : Ranked keys all) (top : IsTop t n r) :
    r.items ++ all.filter (·.key ∉ r.items.map RankedKey.key) = all := by
  have counted : ∀ item ∈ r.items, item ∈ all := by
    intro item hitem
    rw [ranked.mem, ← h.count_eq]
    exact ⟨top.key_mem h item hitem, top.counts item hitem⟩
  have count_eq : ∀ item ∈ all, (⟨item.key, t.count item.key⟩ : RankedKey) = item := by
    intro item hitem
    rw [h.count_eq, ← ((ranked.mem item).mp hitem).2]
  have ordered : (r.items ++ all.filter (·.key ∉ r.items.map RankedKey.key)).Pairwise
      RankedKey.Before := by
    refine List.pairwise_append.mpr ⟨List.isChain_iff_pairwise.mp top.ordered,
      ranked.ordered.sublist List.filter_sublist, ?_⟩
    intro item hitem other hother
    obtain ⟨hother, unlisted⟩ := List.mem_filter.mp hother
    have key_mem := ((ranked.mem other).mp hother).1
    rw [← count_eq other hother]
    exact top.rest other.key (h.mem_counts.mpr key_mem) (of_decide_eq_true unlisted) item hitem
  apply ordered.eq_of_mem_iff ranked.ordered
  intro item
  rw [List.mem_append, List.mem_filter, decide_eq_true_iff]
  constructor
  · rintro (hitem | ⟨hitem, -⟩)
    · exact counted item hitem
    · exact hitem
  · intro hitem
    by_cases listed : item.key ∈ r.items.map RankedKey.key
    · left
      obtain ⟨same, hsame, hkey⟩ := List.mem_map.mp listed
      rw [← count_eq item hitem, ← hkey, count_eq same (counted same hsame)]
      exact hsame
    · exact .inr ⟨hitem, listed⟩

/-- There is one such ranking. -/
theorem IsTop.items_eq (h : t.Counts keys) (ranked : Ranked keys all) (top : IsTop t n r) :
    r.items = all.take n := by
  have cut : min n all.length = r.items.length := by
    rw [top.length_eq, ranked.length_eq, h.distinct_eq]
  calc r.items
      = (r.items ++ all.filter (·.key ∉ r.items.map RankedKey.key)).take r.items.length :=
        (List.take_left' rfl).symm
    _ = all.take (min n all.length) := by rw [top.append_rest h ranked, cut]
    _ = all.take n := List.take_eq_take_min.symm

/-- Tallies of the same keys, counted in any order, have the same rankings. -/
theorem ofTally_perm {other : Tally} {others : List String} (h : t.Counts keys)
    (hother : other.Counts others) (perm : keys.Perm others) (n : Nat) :
    ofTally other n = ofTally t n := by
  obtain ⟨all, ranked, front⟩ := exists_ranked (h.perm perm)
  obtain ⟨all', ranked', front'⟩ := exists_ranked hother
  rw [front, front', ranked.unique ranked']

/-- The ranking of a tally is the one list of the most counted keys.  Neither the order of the
    entries nor the way in which they are sorted makes a difference, nor does anything about the
    tally but its counts; and a shorter ranking is the beginning of a longer one. -/
theorem top_keys (h : t.History keys) (n : Nat) :
    (∀ r, IsTop t n r ↔ r = ofTally t n) ∧
    (∀ sorted : List (String × Nat), sorted.Perm t.entries →
      (sorted.Pairwise fun a b => mayPrecede a b = true) →
        ofTally t n = ⟨(sorted.take n).map fun e => ⟨e.1, e.2⟩, t.total⟩) ∧
    (∀ (other : Tally) (others : List String), other.History others →
      (∀ key, t.count key = other.count key) ∨ keys.Perm others →
        ofTally other n = ofTally t n) ∧
    ∀ m, n ≤ m → (ofTally t n).items <+: (ofTally t m).items ∧
      (ofTally t n).total = (ofTally t m).total := by
  have counts := h.counts
  obtain ⟨all, ranked, front⟩ := exists_ranked counts
  have taken : ∀ n, ofTally t n = ⟨all.take n, t.total⟩ := by
    intro n
    rw [front, counts.total]
  refine ⟨?_, ?_, ?_, ?_⟩
  · intro r
    rw [taken]
    constructor
    · intro top
      obtain ⟨items, total⟩ := r
      rw [← top.items_eq counts ranked, ← top.total_eq]
    · rintro rfl
      exact isTop_take counts ranked n
  · intro sorted perm ordered
    rw [taken, List.map_take, ranked.unique (ranked_of_sorted counts perm ordered)]
  · rintro other others hother (same | perm)
    · refine ofTally_perm counts hother.counts (List.perm_iff_count.mpr ?_) n
      intro key
      rw [← counts.count_eq, same, hother.counts.count_eq]
    · exact ofTally_perm counts hother.counts perm n
  · intro m hle
    rw [taken, taken]
    exact ⟨List.take_prefix_take_left hle, rfl⟩

/-- Two keys with equal counts, of which the one that is smaller in bytes is listed. -/
theorem top_keys_tied :
    ∃ t other, t.History ["z", "é", "b", "b"] ∧ other.History ["b", "é", "b", "z"] ∧
      ofTally t 2 = ⟨[⟨"b", 2⟩, ⟨"z", 1⟩], 4⟩ ∧ IsTop t 2 ⟨[⟨"b", 2⟩, ⟨"z", 1⟩], 4⟩ ∧
      ofTally other 2 = ofTally t 2 ∧ (ofTally t 2).items <+: (ofTally t 3).items := by
  have h := Tally.history_accumulateAll ["z", "é", "b", "b"]
  have hother := Tally.history_accumulateAll ["b", "é", "b", "z"]
  have listed : (Tally.accumulateAll .empty ["z", "é", "b", "b"]).entries =
      [("b", 2), ("z", 1), ("é", 1)] := by
    decide +kernel
  obtain ⟨top, sorted, same, shorter⟩ := top_keys h 2
  have two := sorted [("b", 2), ("z", 1), ("é", 1)] (listed ▸ List.Perm.refl _) (by decide +kernel)
  refine ⟨_, _, h, hother, two, (top _).mpr two.symm, same _ _ hother (.inr (by decide)), ?_⟩
  exact (shorter 3 (by decide)).1

end Ranking

end CallTrace
