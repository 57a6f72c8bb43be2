import Mathlib.Algebra.GroupWithZero.Nat
import CallTrace.Analysis
import CallTrace.Histogram
import CallTrace.Proofs.Walk.Draining

/-!
# What a histogram counts

A tally counts a sequence of keys if it holds, for each key, how often the key occurs in the
sequence, and nothing else.  Counting one more key keeps this (`Tally.Counts.accumulate`), and
from any tally it adds to the counts that are there (`Tally.count_accumulateAll`).
A histogram counts the keys of the calls that its walk delivers and reports the failure of the
walk (`countWalk_eq`); for a steady reader these are the calls of the recursive walk
(`histogram_eq`).
-/

namespace CallTrace

open Delivery

namespace Tally

/-- The tally holds the counts of the keys of this sequence. -/
structure Counts (t : Tally) (keys : List String) : Prop where
  total : t.total = keys.length
  counts : ∀ key : String, t.counts[key]? = if key ∈ keys then some (keys.count key) else none

variable {t : Tally} {keys : List String}

theorem counts_empty : Counts .empty [] := by
  constructor
  · rfl
  · intro key
    exact Std.TreeMap.getElem?_emptyc

theorem Counts.perm (h : t.Counts keys) {others : List String} (hperm : keys.Perm others) :
    t.Counts others := by
  constructor
  · rw [h.total, hperm.length_eq]
  · intro key
    rw [h.counts, hperm.count_eq]
    simp only [hperm.mem_iff]

theorem Counts.accumulate (h : t.Counts keys) (key : String) :
    (t.accumulate key).Counts (keys ++ [key]) := by
  constructor
  · rw [Tally.accumulate, h.total, List.length_append, List.length_singleton]
  · intro other
    rw [Tally.accumulate, raise, Std.TreeMap.getElem?_insert,
      Std.TreeMap.getD_eq_getD_getElem?, h.counts, h.counts]
    by_cases hother : key = other
    · subst hother
      by_cases hmem : key ∈ keys
      · simp [hmem]
      · simp [hmem, List.count_eq_zero_of_not_mem hmem]
    · have hne : other ≠ key := Ne.symm hother
      simp [hother, hne, List.count_append]

theorem Counts.accumulateAll (h : t.Counts keys) (more : List String) :
    (t.accumulateAll more).Counts (keys ++ more) := by
  induction more generalizing t keys with
  | nil => rwa [List.append_nil]
  | cons key more ih =>
    rw [List.append_cons]
    exact ih (h.accumulate key)

theorem counts_accumulateAll (keys : List String) :
    (accumulateAll .empty keys).Counts keys :=
  counts_empty.accumulateAll keys

theorem Counts.mem_entries (h : t.Counts keys) {key : String} {n : Nat} :
    (key, n) ∈ t.entries ↔ key ∈ keys ∧ n = keys.count key := by
  rw [entries, Std.TreeMap.mem_toList_iff_getElem?_eq_some, h.counts]
  by_cases hmem : key ∈ keys
  · rw [if_pos hmem, Option.some_inj, eq_comm, and_iff_right hmem]
  · rw [if_neg hmem]
    constructor
    · intro hnone
      cases hnone
    · intro hmem'
      exact absurd hmem'.1 hmem

theorem entries_ascending (t : Tally) :
    t.entries.Pairwise fun a b => compare a.1 b.1 = .lt :=
  Std.TreeMap.ordered_keys_toList

theorem total_accumulateAll (t : Tally) (keys : List String) :
    (t.accumulateAll keys).total = t.total + keys.length := by
  induction keys generalizing t with
  | nil => rfl
  | cons key keys ih => exact (ih (t.accumulate key)).trans (Nat.add_right_comm t.total 1 _)

theorem count_accumulateAll (t : Tally) (keys : List String) (name : String) :
    (t.accumulateAll keys).count name = t.count name + keys.count name := by
  induction keys generalizing t with
  | nil => rfl
  | cons key keys ih =>
    have first : (t.accumulate key).count name = t.count name + [key].count name := by
      rw [Tally.accumulate, raise, count, count, Std.TreeMap.getD_insert]
      by_cases hname : key = name
      · simp [hname]
      · simp [hname]
    calc ((t.accumulate key).accumulateAll keys).count name
        = (t.accumulate key).count name + keys.count name := ih _
      _ = t.count name + [key].count name + keys.count name := by rw [first]
      _ = t.count name + (key :: keys).count name := by
        rw [Nat.add_assoc, ← List.count_append, List.singleton_append]

/-- All numbers of the tally are words of 64 bits. -/
structure InWords (t : Tally) : Prop where
  total : t.total < 2 ^ 64
  counts : ∀ key, t.count key < 2 ^ 64

/-- No number overflows on the way if the total does not in the end. -/
theorem inWords_accumulateAll {part : List String} (counted : ∀ name, t.count name ≤ t.total)
    (room : t.total + keys.length < 2 ^ 64) (before : part <+: keys) :
    (t.accumulateAll part).InWords := by
  have total : t.total + part.length < 2 ^ 64 :=
    (Nat.add_le_add_left before.length_le t.total).trans_lt room
  constructor
  · rwa [total_accumulateAll]
  · intro name
    calc (t.accumulateAll part).count name
        = t.count name + part.count name := count_accumulateAll t part name
      _ ≤ t.total + part.length := Nat.add_le_add (counted name) List.count_le_length
      _ < 2 ^ 64 := total

/-- The calls of a delivery are counted, each by the key that it has at its turn, and the failure
    of the delivery is reported. -/
theorem foldBy_items {κ : Type} (key : Call → StateM κ String) (t : Tally) (d : Delivery) :
    t.foldBy key d.items =
      (fun names => (t.accumulateAll names,
        match d.failure with
        | none => .ok ()
        | some e => .error e)) <$> d.calls.mapM key := by
  rcases d with ⟨calls, failure⟩
  induction calls generalizing t with
  | nil => cases failure <;> rfl
  | cons call calls ih =>
    rw [List.mapM_cons, map_bind]
    refine bind_congr fun name => ?_
    rw [bind_pure_comp, Functor.map_map]
    exact ih (t.accumulate name)

/-- The calls of a delivery are counted, and its failure is reported. -/
theorem fold_items (key : Call → String) (t : Tally) (d : Delivery) :
    t.fold key d.items =
      (t.accumulateAll (d.calls.map key),
        match d.failure with
        | none => .ok ()
        | some e => .error e) := by
  rw [fold, foldBy_items, List.mapM_pure]
  rfl

end Tally

/-- Each call has a key. -/
theorem length_mapM_key {κ : Type} (key : Call → StateM κ String) (calls : List Call)
    (memory : κ) : (calls.mapM key memory).1.length = calls.length := by
  induction calls generalizing memory with
  | nil => rfl
  | cons call calls ih =>
    rw [List.mapM_cons]
    exact congrArg (· + 1) (ih (key call memory).2)

/-! ### Histograms -/

section Histogram

variable {σ : Type} {a : Answers} {r : Reader σ} {store : StoreId}

/-- A histogram counts what the walk delivers, once it has started. -/
theorem countWalkBy_eq {κ : Type} {start : Read σ (Walk σ)} {w : Walk σ} {s s' : σ} {d : Delivery}
    (started : start s = (.ok w, s')) (delivers : w.Delivers r store s' d)
    (key : Call → StateM κ String) (t : Tally) (memory : κ) :
    (r.countWalkBy store start key t memory s).1 = t.foldBy key d.items memory := by
  rw [Reader.countWalkBy, started]
  dsimp only
  rw [(drain_delivers delivers).1]

theorem countWalk_eq {start : Read σ (Walk σ)} {w : Walk σ} {s s' : σ} {d : Delivery}
    (started : start s = (.ok w, s')) (delivers : w.Delivers r store s' d)
    (key : Call → String) (t : Tally) :
    (r.countWalk store start key t s).1 = t.fold key d.items :=
  congrArg Prod.fst (countWalkBy_eq started delivers (fun call => pure (key call)) t ())

theorem histogram_eq (steady : r.Gives a) {clients : List (Except TraceError Client)}
    (granted : a.clients = .ok clients) {d : Delivery}
    (walked : a.walkClients store clients = some d) (key : Call → String) (t : Tally) (s : σ) :
    (r.histogram store key t s).1 = t.fold key d.items := by
  obtain ⟨w, s', started, -, delivers⟩ := exists_ofClients_delivers steady granted walked s
  exact countWalk_eq started delivers key t

end Histogram

/-- An analysis of an open store ranks what its histogram counts. -/
theorem Store.analyze_open {σ : Type} (id : StoreId) (r : Reader σ) (s : σ)
    (grouping : Grouping) (n : Nat) :
    Store.analyze ⟨id, r, s, true⟩ grouping n =
      .ok (Counted.ranking (r.histogram id grouping.key .empty s).1 n,
        ⟨id, r, (r.histogram id grouping.key .empty s).2, true⟩) :=
  rfl

end CallTrace
