import Mathlib.Algebra.BigOperators.Group.Finset.Basic
import Mathlib.Algebra.Order.BigOperators.Group.List
import Mathlib.Algebra.Order.Field.Rat
import CallTrace.Proofs.TopKeys

/-!
# What rankings cover

A ranking covers the calls that were counted for the keys it lists.  No other choice of as many
keys accounts for more calls (`Ranking.covered_isGreatest`): the counts descend along the list of
all keys, so any part of the list adds up to at most what the front of the same length does
(`sum_le_sum_take`).  The ranking covers everything exactly if no key was cut.
-/

namespace CallTrace

/-! ### Descending counts -/

section Counts

variable {counts part : List Nat} {n : Nat}

theorem sum_take_succ_le {first : Nat} (h : ∀ count ∈ counts, count ≤ first) (n : Nat) :
    (counts.take (n + 1)).sum ≤ first + (counts.take n).sum := by
  rw [List.take_add_one, List.sum_append, Nat.add_comm]
  apply Nat.add_le_add_right
  cases next : counts[n]? with
  | none => exact Nat.zero_le first
  | some count =>
    rw [Option.toList_some, List.sum_singleton]
    exact h count (List.mem_of_getElem? next)

/-- Of all parts of a descending list that have at most `n` members, the front has the greatest
    sum. -/
theorem sum_le_sum_take (descending : counts.Pairwise (· ≥ ·)) (inside : part.Sublist counts)
    (short : part.length ≤ n) : part.sum ≤ (counts.take n).sum := by
  induction inside generalizing n with
  | slnil => exact Nat.zero_le _
  | @cons part counts first inside ih =>
    obtain ⟨greatest, later⟩ := List.pairwise_cons.mp descending
    cases n with
    | zero =>
      rw [List.eq_nil_of_length_eq_zero (Nat.le_zero.mp short)]
      exact Nat.zero_le _
    | succ n =>
      calc part.sum
          ≤ (counts.take (n + 1)).sum := ih later short
        _ ≤ first + (counts.take n).sum := sum_take_succ_le greatest n
  | @cons_cons part counts first inside ih =>
    obtain ⟨-, later⟩ := List.pairwise_cons.mp descending
    cases n with
    | zero => cases short
    | succ n =>
      rw [List.take_succ_cons, List.sum_cons, List.sum_cons]
      exact Nat.add_le_add_left (ih later (Nat.le_of_succ_le_succ short)) first

theorem sum_le_of_sublist (inside : part.Sublist counts) : part.sum ≤ counts.sum :=
  inside.sum_le_sum fun _ _ => Nat.zero_le _

theorem sum_take_mono {m : Nat} (h : n ≤ m) : (counts.take n).sum ≤ (counts.take m).sum :=
  sum_le_of_sublist (List.take_sublist_take_left h)

theorem sum_take_lt (positive : ∀ count ∈ counts, 0 < count) (h : n < counts.length) :
    (counts.take n).sum < (counts.take (n + 1)).sum := by
  rw [List.take_add_one, List.getElem?_eq_getElem h, List.sum_append, Option.toList_some,
    List.sum_singleton]
  exact Nat.lt_add_of_pos_right (positive _ (List.getElem_mem h))

/-- A part at the front adds up to everything only if it is everything. -/
theorem sum_take_eq_iff (positive : ∀ count ∈ counts, 0 < count) :
    (counts.take n).sum = counts.sum ↔ counts.length ≤ n := by
  constructor
  · intro same
    by_contra! h
    have less : (counts.take n).sum < counts.sum := by
      calc (counts.take n).sum
          < (counts.take (n + 1)).sum := sum_take_lt positive h
        _ ≤ (counts.take counts.length).sum := sum_take_mono h
        _ = counts.sum := by rw [List.take_length]
    exact less.ne same
  · intro h
    rw [List.take_of_length_le h]

end Counts

namespace Ranked

variable {keys : List String} {all : List RankedKey}

theorem callCount_eq (ranked : Ranked keys all) :
    all.map RankedKey.callCount = (all.map RankedKey.key).map (keys.count ·) := by
  rw [List.map_map]
  apply List.map_congr_left
  intro item hitem
  exact ((ranked.mem item).mp hitem).2

theorem sum_eq (ranked : Ranked keys all) :
    (all.map RankedKey.callCount).sum = keys.length := by
  rw [ranked.callCount_eq, Tally.sum_count_of_perm ranked.perm_dedup]

theorem descending (ranked : Ranked keys all) :
    (all.map RankedKey.callCount).Pairwise (· ≥ ·) := by
  rw [List.pairwise_map]
  refine ranked.ordered.imp ?_
  rintro a b (hlt | ⟨heq, -⟩)
  · exact hlt.le
  · exact heq.ge

theorem positive (ranked : Ranked keys all) :
    ∀ count ∈ all.map RankedKey.callCount, 0 < count := by
  intro count hcount
  obtain ⟨item, hitem, rfl⟩ := List.mem_map.mp hcount
  obtain ⟨hkey, heq⟩ := (ranked.mem item).mp hitem
  rw [heq]
  exact List.count_pos_iff.mpr hkey

end Ranked

namespace Ranking

variable {t : Tally} {keys : List String} {all : List RankedKey} {n : Nat}

theorem covered_eq_sum (r : Ranking) : r.covered = (r.items.map RankedKey.callCount).sum := by
  rw [covered, List.sum_eq_foldl, List.foldl_map]

/-- The sum over the first items is one of the sums on the way to the sum over all. -/
theorem covered_take_le (r : Ranking) (k : Nat) :
    covered { r with items := r.items.take k } ≤ r.covered := by
  rw [covered_eq_sum, covered_eq_sum]
  exact sum_le_of_sublist ((List.take_sublist k r.items).map _)

/-- The numbers of calls that at most `n` keys of a tally account for. -/
def Attainable (t : Tally) (n : Nat) : Set Nat :=
  {sum | ∃ chosen : Finset String, (∀ key ∈ chosen, key ∈ t.counts) ∧ chosen.card ≤ n ∧
    ∑ key ∈ chosen, t.count key = sum}

/-- The keys of a part of the list of all keys, as a set, and what they account for. -/
theorem keys_of_part (h : t.Counts keys) (ranked : Ranked keys all) {part : List RankedKey}
    (inside : part.Sublist all) :
    (part.map RankedKey.key).toFinset.card = part.length ∧
      ∑ key ∈ (part.map RankedKey.key).toFinset, t.count key =
        (part.map RankedKey.callCount).sum := by
  have distinct : (part.map RankedKey.key).Nodup := (inside.map _).nodup ranked.nodup_keys
  constructor
  · rw [List.toFinset_card_of_nodup distinct, List.length_map]
  · rw [List.sum_toFinset _ distinct, List.map_map]
    apply congrArg List.sum
    apply List.map_congr_left
    intro item hitem
    rw [((ranked.mem item).mp (inside.subset hitem)).2]
    exact h.count_eq item.key

theorem sum_take_attainable (h : t.Counts keys) (ranked : Ranked keys all) (n : Nat) :
    ((all.map RankedKey.callCount).take n).sum ∈ Attainable t n := by
  obtain ⟨card_eq, sum_eq⟩ := keys_of_part h ranked (List.take_sublist n all)
  refine ⟨((all.take n).map RankedKey.key).toFinset, ?_, ?_, ?_⟩
  · intro key hkey
    obtain ⟨item, hitem, rfl⟩ := List.mem_map.mp (List.mem_toFinset.mp hkey)
    exact h.mem_counts.mpr ((ranked.mem item).mp (List.mem_of_mem_take hitem)).1
  · rw [card_eq, List.length_take]
    exact Nat.min_le_left n all.length
  · rw [sum_eq, List.map_take]

/-- The keys that are chosen stand somewhere in the list of all keys. -/
theorem le_sum_take (h : t.Counts keys) (ranked : Ranked keys all) {sum : Nat}
    (attainable : sum ∈ Attainable t n) : sum ≤ ((all.map RankedKey.callCount).take n).sum := by
  obtain ⟨chosen, counted, short, rfl⟩ := attainable
  have inside : (all.filter (·.key ∈ chosen)).Sublist all := List.filter_sublist
  have listed : ((all.filter (·.key ∈ chosen)).map RankedKey.key).toFinset = chosen := by
    ext key
    rw [List.mem_toFinset, List.mem_map]
    constructor
    · rintro ⟨item, hitem, rfl⟩
      exact of_decide_eq_true (List.mem_filter.mp hitem).2
    · intro hkey
      have hall : (⟨key, keys.count key⟩ : RankedKey) ∈ all :=
        (ranked.mem _).mpr ⟨h.mem_counts.mp (counted key hkey), rfl⟩
      exact ⟨_, List.mem_filter.mpr ⟨hall, decide_eq_true hkey⟩, rfl⟩
  obtain ⟨card_eq, sum_eq⟩ := keys_of_part h ranked inside
  rw [listed] at card_eq sum_eq
  rw [sum_eq]
  apply sum_le_sum_take ranked.descending (inside.map _)
  rw [List.length_map, ← card_eq]
  exact short

/-- A ranking covers as many calls as any choice of at most `n` keys can account for: all of them
    if no key was cut, and otherwise fewer, and more with each further key.  As long as the total
    is a word, so are all sums on the way to this number. -/
theorem covered_isGreatest (h : t.History keys) (n : Nat) :
    IsGreatest (Attainable t n) (ofTally t n).covered ∧
    (t.total < 2 ^ 64 →
      ∀ k, covered { ofTally t n with items := (ofTally t n).items.take k } < 2 ^ 64) ∧
    (ofTally t n).covered ≤ t.total ∧
    ((ofTally t n).covered = t.total ↔ t.distinct ≤ n) ∧
    (∀ m, n ≤ m → (ofTally t n).covered ≤ (ofTally t m).covered) ∧
    (n < t.distinct → (ofTally t n).covered < (ofTally t (n + 1)).covered) ∧
    (0 : ℚ) ≤ (ofTally t n).covered / (ofTally t n).total ∧
    ((ofTally t n).covered : ℚ) / (ofTally t n).total ≤ 1 ∧
    (((ofTally t n).covered : ℚ) / (ofTally t n).total = 1 → t.distinct ≤ n) := by
  have counts := h.counts
  obtain ⟨all, ranked, front⟩ := exists_ranked counts
  have covered_eq : ∀ n, (ofTally t n).covered = ((all.map RankedKey.callCount).take n).sum := by
    intro n
    rw [covered_eq_sum, front, List.map_take]
  have total_eq : t.total = (all.map RankedKey.callCount).sum := by
    rw [ranked.sum_eq, counts.total]
  have distinct_eq : t.distinct = (all.map RankedKey.callCount).length := by
    rw [counts.distinct_eq, List.length_map, ranked.length_eq]
  have covered_le : ∀ n, (ofTally t n).covered ≤ t.total := by
    intro n
    rw [covered_eq, total_eq]
    exact sum_le_of_sublist (List.take_sublist n _)
  have everything : (ofTally t n).covered = t.total ↔ t.distinct ≤ n := by
    rw [covered_eq, total_eq, distinct_eq, sum_take_eq_iff ranked.positive]
  refine ⟨⟨?_, ?_⟩, ?_, covered_le n, everything, ?_, ?_, ?_, ?_, ?_⟩
  · rw [covered_eq]
    exact sum_take_attainable counts ranked n
  · intro sum attainable
    rw [covered_eq]
    exact le_sum_take counts ranked attainable
  · intro bound k
    calc covered { ofTally t n with items := (ofTally t n).items.take k }
        ≤ (ofTally t n).covered := covered_take_le (ofTally t n) k
      _ ≤ t.total := covered_le n
      _ < 2 ^ 64 := bound
  · intro m hle
    rw [covered_eq, covered_eq]
    exact sum_take_mono hle
  · intro hlt
    rw [distinct_eq] at hlt
    rw [covered_eq, covered_eq]
    exact sum_take_lt ranked.positive hlt
  · exact div_nonneg (Nat.cast_nonneg _) (Nat.cast_nonneg _)
  · exact div_le_one_of_le₀ (Nat.cast_le.mpr (covered_le n)) (Nat.cast_nonneg _)
  · intro whole
    have counted : (t.total : ℚ) ≠ 0 := by
      intro none
      have quotient : ((ofTally t n).covered : ℚ) / t.total = 1 := whole
      rw [none, div_zero] at quotient
      exact zero_ne_one quotient
    exact everything.mp (Nat.cast_injective ((div_eq_one_iff_eq counted).mp whole))

/-- Two of three keys cover three of four calls, and no two keys cover more. -/
theorem covered_isGreatest_cut :
    ∃ t, t.History ["z", "é", "b", "b"] ∧ t.total < 2 ^ 64 ∧ 2 ≤ 3 ∧ 2 < t.distinct ∧
      IsGreatest (Attainable t 2) 3 ∧
      (∀ k, covered { ofTally t 2 with items := (ofTally t 2).items.take k } < 2 ^ 64) ∧
      (ofTally t 2).covered < (ofTally t 3).covered ∧ (ofTally t 3).covered = t.total := by
  have h := Tally.history_accumulateAll ["z", "é", "b", "b"]
  have small : (Tally.accumulateAll .empty ["z", "é", "b", "b"]).total < 2 ^ 64 := by decide
  have three : (Tally.accumulateAll .empty ["z", "é", "b", "b"]).distinct = 3 := by decide +kernel
  have listed : (Tally.accumulateAll .empty ["z", "é", "b", "b"]).entries =
      [("b", 2), ("z", 1), ("é", 1)] := by
    decide +kernel
  obtain ⟨all, ranked, front⟩ := exists_ranked h.counts
  have two : (ofTally (Tally.accumulateAll .empty ["z", "é", "b", "b"]) 2).covered = 3 := by
    rw [front, ranked.unique (ranked_of_sorted h.counts (.of_eq listed.symm) (by decide +kernel))]
    rfl
  obtain ⟨greatest, words, -, -, -, more, -⟩ := covered_isGreatest h 2
  obtain ⟨-, -, -, whole, -⟩ := covered_isGreatest h 3
  rw [two] at greatest
  rw [three] at more whole
  exact ⟨_, h, small, by decide, three ▸ by decide, greatest, words small, more (by decide),
    whole.mpr (by decide)⟩

end Ranking

end CallTrace
