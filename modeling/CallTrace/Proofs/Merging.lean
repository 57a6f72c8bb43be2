import Mathlib.Data.List.Perm.Basic
import CallTrace.Proofs.Counting

/-!
# Merging tallies

The entries of a tally that is merged into another one may come in any order
(`Tally.Merges`); at each key the counts are added (`Tally.getElem?_mergeInOrder`).
Merging a tally of some keys with a tally of others gives a tally of all of them
(`Tally.Counts.merges`).  Tallies of the same keys are equal (`Tally.Counts.beq`), so neither the
order nor the grouping of merges matters (`Tally.MergedFrom.counts`).
-/

namespace CallTrace

namespace Tally

variable {t other : Tally} {keys others : List String}

/-! ### Raising counts by the entries of a tally -/

theorem getElem?_raise (counts : Std.TreeMap String Nat) (key : String) (n : Nat)
    (name : String) :
    (raise counts key n)[name]? =
      if key = name then some (counts.getD key 0 + n) else counts[name]? := by
  rw [raise, Std.TreeMap.getElem?_insert]
  simp only [Std.LawfulEqCmp.compare_eq_iff_eq]

theorem getElem?_foldl_raise_of_notMem {entries : List (String × Nat)} {name : String}
    (h : name ∉ entries.map Prod.fst) (counts : Std.TreeMap String Nat) :
    (entries.foldl (fun counts entry => raise counts entry.1 entry.2) counts)[name]? =
      counts[name]? := by
  induction entries generalizing counts with
  | nil => rfl
  | cons entry entries ih =>
    rw [List.map_cons, List.mem_cons, not_or] at h
    rw [List.foldl_cons, ih h.2, getElem?_raise, if_neg (Ne.symm h.1)]

theorem getElem?_foldl_raise_of_mem {entries : List (String × Nat)}
    (distinct : (entries.map Prod.fst).Nodup) {name : String} {n : Nat}
    (h : (name, n) ∈ entries) (counts : Std.TreeMap String Nat) :
    (entries.foldl (fun counts entry => raise counts entry.1 entry.2) counts)[name]? =
      some (counts.getD name 0 + n) := by
  induction entries generalizing counts with
  | nil => cases h
  | cons entry entries ih =>
    rw [List.map_cons, List.nodup_cons] at distinct
    rcases List.mem_cons.mp h with rfl | h
    · rw [List.foldl_cons, getElem?_foldl_raise_of_notMem distinct.1, getElem?_raise, if_pos rfl]
    · have hne : entry.1 ≠ name := by
        rintro rfl
        exact distinct.1 (List.mem_map.mpr ⟨_, h, rfl⟩)
      have untouched : (raise counts entry.1 entry.2).getD name 0 = counts.getD name 0 := by
        rw [Std.TreeMap.getD_eq_getD_getElem?, Std.TreeMap.getD_eq_getD_getElem?, getElem?_raise,
          if_neg hne]
      rw [List.foldl_cons, ih distinct.2 h, untouched]

theorem nodup_entries (t : Tally) : (t.entries.map Prod.fst).Nodup := by
  rw [List.nodup_iff_pairwise_ne, List.pairwise_map]
  refine t.entries_ascending.imp ?_
  intro a b hlt heq
  simp [heq] at hlt

/-! ### Entries in any order -/

/-- Raises the counts by some entries, one after the other. -/
def raiseAll (t : Tally) (entries : List (String × Nat)) : Tally :=
  { t with counts := entries.foldl (fun counts entry => raise counts entry.1 entry.2) t.counts }

/-- What merging leaves of a tally when the entries of the other one come in this order. -/
def mergeInOrder (t other : Tally) (entries : List (String × Nat)) : Tally :=
  { t.raiseAll entries with total := t.total + other.total }

/-- Merging another tally into a tally, with the entries of the other one in some order, leaves
    this. -/
def Merges (t other merged : Tally) : Prop :=
  ∃ entries, entries.Perm other.entries ∧ merged = t.mergeInOrder other entries

/-- Tallies are merged in the ascending order of the keys. -/
theorem merges_merge (t other : Tally) : t.Merges other (t.merge other) := by
  refine ⟨other.entries, List.Perm.refl _, ?_⟩
  rw [merge, Std.TreeMap.foldl_eq_foldl_toList]
  rfl

theorem getElem?_mergeInOrder {entries : List (String × Nat)} (perm : entries.Perm other.entries)
    (name : String) :
    (t.mergeInOrder other entries).counts[name]? =
      match other.counts[name]? with
      | none => t.counts[name]?
      | some n => some (t.count name + n) := by
  have listed : ∀ n, (name, n) ∈ entries ↔ other.counts[name]? = some n := by
    intro n
    exact perm.mem_iff.trans Std.TreeMap.mem_toList_iff_getElem?_eq_some
  cases hn : other.counts[name]? with
  | none =>
    apply getElem?_foldl_raise_of_notMem
    intro hmem
    obtain ⟨⟨_, n⟩, hentry, rfl⟩ := List.mem_map.mp hmem
    rw [listed, hn] at hentry
    cases hentry
  | some n =>
    have distinct : (entries.map Prod.fst).Nodup :=
      (perm.map Prod.fst).nodup_iff.mpr other.nodup_entries
    exact getElem?_foldl_raise_of_mem distinct ((listed n).mpr hn) t.counts

/-! ### Merged tallies -/

theorem Counts.count_eq (h : t.Counts keys) (name : String) : t.count name = keys.count name := by
  rw [count, Std.TreeMap.getD_eq_getD_getElem?, h.counts]
  by_cases hmem : name ∈ keys
  · rw [if_pos hmem, Option.getD_some]
  · rw [if_neg hmem, Option.getD_none, List.count_eq_zero_of_not_mem hmem]

theorem Counts.merges (h : t.Counts keys) (hother : other.Counts others) {merged : Tally}
    (merges : t.Merges other merged) : merged.Counts (keys ++ others) := by
  obtain ⟨entries, perm, rfl⟩ := merges
  constructor
  · rw [mergeInOrder, h.total, hother.total, List.length_append]
  · intro name
    rw [getElem?_mergeInOrder perm, hother.counts, h.counts, h.count_eq]
    by_cases hmem : name ∈ others
    · simp [hmem, List.count_append]
    · simp [hmem, List.count_append, List.count_eq_zero_of_not_mem hmem]

theorem Counts.merge (h : t.Counts keys) (hother : other.Counts others) :
    (t.merge other).Counts (keys ++ others) :=
  h.merges hother (merges_merge t other)

/-- Tallies are equal if they hold the same counts and the same total. -/
theorem beq_iff : (t == other) = true ↔
    (∀ name : String, t.counts[name]? = other.counts[name]?) ∧ t.total = other.total := by
  have unfolded : (t == other) = (t.entries == other.entries && t.total == other.total) := rfl
  rw [unfolded, Bool.and_eq_true, beq_iff_eq, beq_iff_eq]
  refine and_congr_left fun _ => ⟨?_, ?_⟩
  · intro same name
    ext n
    rw [← Std.TreeMap.mem_toList_iff_getElem?_eq_some,
      ← Std.TreeMap.mem_toList_iff_getElem?_eq_some]
    exact iff_of_eq (congrArg _ same)
  · intro same
    exact (Std.TreeMap.Equiv.of_forall_constGet?_eq same).toList_eq

/-- Tallies of the same keys are equal. -/
theorem Counts.beq (h : t.Counts keys) (hother : other.Counts keys) : (t == other) = true := by
  refine beq_iff.mpr ⟨?_, h.total.trans hother.total.symm⟩
  intro name
  exact (h.counts name).trans (hother.counts name).symm

/-- What is left when some tallies are merged, in any order and grouped in any way. -/
inductive MergedFrom : List Tally → Tally → Prop where
  | none : MergedFrom [] .empty
  | one (t : Tally) : MergedFrom [t] t
  | merge {left right all : List Tally} {t other : Tally} (first : MergedFrom left t)
      (second : MergedFrom right other) (order : all.Perm (left ++ right)) :
      MergedFrom all (t.merge other)

theorem MergedFrom.foldl {tallies : List Tally} (merged : MergedFrom tallies t)
    (more : List Tally) : MergedFrom (tallies ++ more) (more.foldl Tally.merge t) := by
  induction more generalizing tallies t with
  | nil => rwa [List.append_nil]
  | cons next more ih =>
    rw [List.append_cons]
    exact ih (.merge merged (.one next) (List.Perm.refl _))

/-- Tallies can be merged one after the other into an empty one. -/
theorem mergedFrom_foldl (tallies : List Tally) :
    MergedFrom tallies (tallies.foldl Tally.merge .empty) :=
  MergedFrom.none.foldl tallies

theorem MergedFrom.counts {tallies : List Tally} (merged : MergedFrom tallies t)
    {parts : List (List String)} (h : List.Forall₂ Counts tallies parts) :
    t.Counts parts.flatten := by
  induction merged generalizing parts with
  | none =>
    cases h
    exact counts_empty
  | one t =>
    obtain ⟨part, rest, first, hrest, rfl⟩ := List.forall₂_cons_left_iff.mp h
    cases hrest
    rwa [List.flatten_singleton]
  | @merge left right all t other _ _ order ihLeft ihRight =>
    obtain ⟨arranged, h, perm⟩ := List.perm_comp_forall₂ order.symm h
    have hleft := (List.forall₂_take_append arranged left right h.flip).flip
    have hright := (List.forall₂_drop_append arranged left right h.flip).flip
    have both := (ihLeft hleft).merge (ihRight hright)
    rw [← List.flatten_append, List.take_append_drop] at both
    exact both.perm perm.flatten

end Tally

end CallTrace
