import Mathlib.Data.List.Dedup
import Mathlib.Data.List.Sort
import CallTrace.Proofs.Counting
import CallTrace.Proofs.Text.ByteOrder
import CallTrace.Ranking

/-!
# What a ranking lists

The keys of a sequence with their counts, in the order of rankings, are one list
(`Ranked.unique`).  A ranking of a tally that counts the sequence is the front of this list
(`Ranking.exists_ranked`).
-/

namespace CallTrace

/-- The first key has the higher count, or the same count and comes first in the order of
    bytes. -/
def RankedKey.Before (a b : RankedKey) : Prop :=
  b.callCount < a.callCount ∨ a.callCount = b.callCount ∧ bytes a.key < bytes b.key

instance (a b : RankedKey) : Decidable (a.Before b) :=
  inferInstanceAs (Decidable (_ ∨ _))

theorem RankedKey.Before.asymm {a b : RankedKey} (h : a.Before b) : ¬ b.Before a := by
  rintro (h' | ⟨heq', hbytes'⟩)
  · rcases h with h | ⟨heq, -⟩ <;> omega
  · rcases h with h | ⟨-, hbytes⟩
    · omega
    · exact List.lt_asymm hbytes hbytes'

instance : Std.Irrefl RankedKey.Before :=
  ⟨fun _ h => h.asymm h⟩

instance : Std.Antisymm RankedKey.Before :=
  ⟨fun _ _ h h' => absurd h' h.asymm⟩

/-- All keys of a sequence with the number of times they occur, in the order of rankings. -/
structure Ranked (keys : List String) (all : List RankedKey) : Prop where
  mem : ∀ item, item ∈ all ↔ item.key ∈ keys ∧ item.callCount = keys.count item.key
  ordered : all.Pairwise RankedKey.Before

namespace Ranked

variable {keys : List String} {all : List RankedKey}

theorem unique {others : List RankedKey} (h : Ranked keys all) (h' : Ranked keys others) :
    all = others := by
  apply h.ordered.eq_of_mem_iff h'.ordered
  intro item
  rw [h.mem, h'.mem]

theorem nodup_keys (h : Ranked keys all) : (all.map RankedKey.key).Nodup := by
  rw [List.Nodup, List.pairwise_map]
  refine h.ordered.imp_of_mem ?_
  intro a b ha hb before hkey
  have hcount : a.callCount = b.callCount := by
    rw [((h.mem a).mp ha).2, ((h.mem b).mp hb).2, hkey]
  rcases before with hlt | ⟨-, hbytes⟩
  · omega
  · rw [hkey] at hbytes
    exact List.lt_irrefl _ hbytes

/-- Every key is listed once. -/
theorem perm_dedup (h : Ranked keys all) : (all.map RankedKey.key).Perm keys.dedup := by
  rw [List.perm_ext_iff_of_nodup h.nodup_keys keys.nodup_dedup]
  intro key
  rw [List.mem_map, List.mem_dedup]
  constructor
  · rintro ⟨item, hitem, rfl⟩
    exact ((h.mem item).mp hitem).1
  · intro hmem
    exact ⟨⟨key, keys.count key⟩, (h.mem _).mpr ⟨hmem, rfl⟩, rfl⟩

theorem length_eq (h : Ranked keys all) : all.length = keys.dedup.length := by
  rw [← h.perm_dedup.length_eq, List.length_map]

end Ranked

namespace Ranking

theorem mayPrecede_iff {a b : String × Nat} :
    mayPrecede a b = true ↔ b.2 < a.2 ∨ a.2 = b.2 ∧ (compare a.1 b.1).isLE := by
  rw [mayPrecede, Bool.or_eq_true, Bool.and_eq_true, decide_eq_true_iff, beq_iff_eq]

theorem mayPrecede_trans (a b c : String × Nat) (hab : mayPrecede a b = true)
    (hbc : mayPrecede b c = true) : mayPrecede a c = true := by
  rw [mayPrecede_iff] at hab hbc ⊢
  rcases hab with hab | ⟨hab, hkey⟩
  · left
    rcases hbc with hbc | ⟨hbc, -⟩ <;> omega
  · rcases hbc with hbc | ⟨hbc, hkey'⟩
    · left
      omega
    · right
      exact ⟨hab.trans hbc, Std.TransCmp.isLE_trans hkey hkey'⟩

theorem mayPrecede_total (a b : String × Nat) : (mayPrecede a b || mayPrecede b a) = true := by
  rw [Bool.or_eq_true, mayPrecede_iff, mayPrecede_iff]
  rcases Nat.lt_trichotomy a.2 b.2 with hlt | heq | hgt
  · right
    exact .inl hlt
  · cases hcompare : compare a.1 b.1 with
    | gt =>
      right
      refine .inr ⟨heq.symm, ?_⟩
      rw [Std.OrientedCmp.gt_iff_lt.mp hcompare]
      rfl
    | lt => exact .inl (.inr ⟨heq, rfl⟩)
    | eq => exact .inl (.inr ⟨heq, rfl⟩)
  · left
    exact .inl hgt

/-- Of two entries with different keys, the one that may stand first does. -/
theorem before_of_mayPrecede {a b : String × Nat} (h : mayPrecede a b = true)
    (hne : compare a.1 b.1 ≠ .eq) : RankedKey.Before ⟨a.1, a.2⟩ ⟨b.1, b.2⟩ := by
  rcases mayPrecede_iff.mp h with hlt | ⟨heq, hle⟩
  · exact .inl hlt
  · right
    refine ⟨heq, compare_eq_lt_iff_bytes_lt.mp ?_⟩
    cases hcompare : compare a.1 b.1 with
    | lt => rfl
    | eq => exact absurd hcompare hne
    | gt =>
      rw [hcompare] at hle
      cases hle

/-- Entries that stand in the order of rankings, however they were sorted, rank all keys. -/
theorem ranked_of_sorted {t : Tally} {keys : List String} (h : t.Counts keys)
    {sorted : List (String × Nat)} (perm : sorted.Perm t.entries)
    (ordered : sorted.Pairwise fun a b => mayPrecede a b = true) :
    Ranked keys (sorted.map fun e => ⟨e.1, e.2⟩) := by
  -- Sorting puts no entry strictly before another; that the keys are distinct does.
  have distinct : sorted.Pairwise fun a b => compare a.1 b.1 ≠ .eq := by
    refine List.Pairwise.perm (t.entries_ascending.imp ?_) perm.symm ?_
    · intro a b hlt heq
      rw [hlt] at heq
      cases heq
    · intro a b hne heq
      exact hne (Std.OrientedCmp.eq_comm.mp heq)
  constructor
  · intro item
    rw [← h.mem_entries, ← perm.mem_iff, List.mem_map]
    constructor
    · rintro ⟨e, he, rfl⟩
      exact he
    · intro hitem
      exact ⟨(item.key, item.callCount), hitem, rfl⟩
  · rw [List.pairwise_map]
    exact ordered.imp₂ (fun a b hle hne => before_of_mayPrecede hle hne) distinct

/-- A ranking is the front of the list of all keys that were counted. -/
theorem exists_ranked {t : Tally} {keys : List String} (h : t.Counts keys) :
    ∃ all, Ranked keys all ∧ ∀ n, ofTally t n = ⟨all.take n, keys.length⟩ := by
  have perm := List.mergeSort_perm t.entries mayPrecede
  have ordered := List.pairwise_mergeSort mayPrecede_trans mayPrecede_total t.entries
  refine ⟨_, ranked_of_sorted h perm ordered, ?_⟩
  intro n
  rw [ofTally, h.total, List.map_take]

end Ranking

end CallTrace
