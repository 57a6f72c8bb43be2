import Mathlib.Algebra.BigOperators.Group.List.Lemmas
import Mathlib.Algebra.GroupWithZero.Nat
import Mathlib.Data.List.Dedup
import CallTrace.Proofs.Partition
import CallTrace.Proofs.Walk.Ending

/-!
# Histories of tallies

A tally comes about from empty ones by counting and by merging (`Tally.History`).  Its history is
the sequence of the keys that were counted into it; a tally that is merged into it brings its own
history with it.  Counting may break off with an error, and what was counted before it is then
part of the history.

Whatever its history, a tally holds the counts of the keys in it (`Tally.History.counts`), and the
total, which is kept apart from them, is their sum (`Tally.history_balances`).  So no counter is
ever greater than the total.
-/

namespace CallTrace

/-! ### Walks that are counted -/

/-- The calls among some items, up to the first error. -/
def callsUpToError (items : List (Except TraceError Call)) : List Call :=
  callsOf (items.takeWhile Except.isOk)

section Walks

variable {σ : Type} {r : Reader σ} {store : StoreId} {start : Read σ (Walk σ)} {s s' : σ}
  {w : Walk σ} {items : List (Except TraceError Call)}

/-- A walk that begins like this comes to an end, and these are its items.  If it cannot begin,
    the refusal is the only one. -/
inductive Reader.Completes (r : Reader σ) (store : StoreId) (start : Read σ (Walk σ)) (s : σ) :
    List (Except TraceError Call) → Prop where
  | refused {e : TraceError} {s' : σ} (refused : start s = (.error e, s')) :
      Completes r store start s [.error e]
  | ended {w : Walk σ} {s' : σ} {n : Nat} (started : start s = (.ok w, s'))
      (isOver : w.answer r store n s' = none) :
      Completes r store start s (w.delivered r store n s')

theorem Walk.Delivers.completes {d : Delivery} (delivers : w.Delivers r store s' d)
    (started : start s = (.ok w, s')) : r.Completes store start s d.items := by
  have isOver : w.answer r store d.items.length s' = none := by
    rw [delivers.answer, List.getElem?_eq_none_iff]
  rw [← delivers.delivered_all isOver]
  exact .ended started isOver

/-- Counting a walk that comes to an end is folding its items into the tally. -/
theorem countWalk_completes (completes : r.Completes store start s items) (key : Call → String)
    (t : Tally) : (r.countWalk store start key t s).1 = t.fold key items := by
  cases completes with
  | refused refused =>
    rw [Reader.countWalk_refused (congrArg Prod.fst refused)]
    rfl
  | ended started isOver =>
    obtain ⟨d, delivers⟩ := Walk.exists_delivers isOver
    rw [countWalk_eq started delivers, delivers.delivered_all isOver]

end Walks

namespace Tally

variable {t t' other others' merged : Tally} {keys others more : List String}

theorem fold_fst (key : Call → String) (t : Tally) (items : List (Except TraceError Call)) :
    (t.fold key items).1 = t.accumulateAll ((callsUpToError items).map key) := by
  induction items generalizing t with
  | nil => rfl
  | cons item items ih =>
    cases item with
    | error e => rfl
    | ok call => exact ih (t.accumulate (key call))

/-! ### Histories -/

/-- An operation that counts leaves `t'` of the tally `t` and counts `more` on the way. -/
inductive Counting (t : Tally) : Tally → List String → Prop where
  | accumulate (key : String) : Counting t (t.accumulate key) [key]
  | fold (key : Call → String) (items : List (Except TraceError Call)) :
      Counting t (t.fold key items).1 ((callsUpToError items).map key)
  | histogram {σ : Type} {r : Reader σ} {store : StoreId} {s : σ}
      {items : List (Except TraceError Call)} (key : Call → String)
      (completes : r.Completes store (Walk.ofClients r) s items) :
      Counting t (r.histogram store key t s).1.1 ((callsUpToError items).map key)
  | clientHistogram {σ : Type} {r : Reader σ} {store : StoreId} {client : Client} {s : σ}
      {items : List (Except TraceError Call)} (key : Call → String)
      (completes : r.Completes store (Walk.ofClient r store client) s items) :
      Counting t (r.clientHistogram store client key t s).1.1 ((callsUpToError items).map key)

/-- A tally comes about like this, and these are the keys that were counted.  A copy is another
    tally that is equal to the first. -/
inductive History : Tally → List String → Prop where
  | empty : History .empty []
  | copy {t copied : Tally} {keys : List String} (h : History t keys)
      (same : (copied == t) = true) : History copied keys
  | count {t t' : Tally} {keys more : List String} (h : History t keys)
      (counting : t.Counting t' more) : History t' (keys ++ more)
  | merge {t other merged : Tally} {keys others : List String} (h : History t keys)
      (hother : History other others) (merges : t.Merges other merged) :
      History merged (keys ++ others)

theorem Counting.eq (h : t.Counting t' more) : t' = t.accumulateAll more := by
  cases h with
  | accumulate key => rfl
  | fold key items => exact fold_fst key t items
  | histogram key completes => rw [Reader.histogram, countWalk_completes completes, fold_fst]
  | clientHistogram key completes =>
    rw [Reader.clientHistogram, countWalk_completes completes, fold_fst]

theorem Counts.of_beq (h : t.Counts keys) (same : (t' == t) = true) : t'.Counts keys := by
  obtain ⟨counts, total⟩ := beq_iff.mp same
  exact ⟨total.trans h.total, fun key => (counts key).trans (h.counts key)⟩

/-- A tally holds the counts of the keys in its history. -/
theorem History.counts (h : History t keys) : t.Counts keys := by
  induction h with
  | empty => exact counts_empty
  | copy _ same ih => exact ih.of_beq same
  | count _ counting ih =>
    rw [counting.eq]
    exact ih.accumulateAll _
  | merge _ _ merges ih ihOther => exact ih.merges ihOther merges

theorem History.accumulateAll (h : History t keys) (more : List String) :
    History (t.accumulateAll more) (keys ++ more) := by
  induction more generalizing t keys with
  | nil => rwa [List.append_nil]
  | cons key more ih =>
    rw [List.append_cons]
    exact ih (h.count (.accumulate key))

/-- A sequence of keys is the history of its tally. -/
theorem history_accumulateAll (keys : List String) : History (accumulateAll .empty keys) keys :=
  History.empty.accumulateAll keys

/-! ### Sums -/

theorem Counts.mem_counts (h : t.Counts keys) {key : String} : key ∈ t.counts ↔ key ∈ keys := by
  rw [Std.TreeMap.mem_iff_isSome_getElem?, h.counts]
  by_cases hmem : key ∈ keys
  · simp [hmem]
  · simp [hmem]

theorem Counts.perm_dedup (h : t.Counts keys) : (t.entries.map Prod.fst).Perm keys.dedup := by
  rw [List.perm_ext_iff_of_nodup t.nodup_entries keys.nodup_dedup]
  intro key
  rw [List.mem_dedup, List.mem_map]
  constructor
  · rintro ⟨entry, hentry, rfl⟩
    exact (h.mem_entries.mp hentry).1
  · intro hmem
    exact ⟨(key, keys.count key), h.mem_entries.mpr ⟨hmem, rfl⟩, rfl⟩

theorem Counts.distinct_eq (h : t.Counts keys) : t.distinct = keys.dedup.length := by
  rw [← h.perm_dedup.length_eq, List.length_map]
  exact Std.TreeMap.length_toList.symm

/-- The counts of all keys of a sequence add up to its length. -/
theorem sum_count_of_perm {names : List String} (perm : names.Perm keys.dedup) :
    (names.map (keys.count ·)).sum = keys.length := by
  rw [(perm.map _).sum_eq]
  exact List.sum_map_count_dedup_eq_length keys

/-- The counts of some entries are those of their keys. -/
theorem Counts.map_snd (h : t.Counts keys) {part : List (String × Nat)}
    (inside : part ⊆ t.entries) :
    part.map Prod.snd = (part.map Prod.fst).map (keys.count ·) := by
  rw [List.map_map]
  apply List.map_congr_left
  intro entry hentry
  exact (h.mem_entries.mp (inside hentry)).2

theorem Counts.count_le (h : t.Counts keys) (key : String) : t.count key ≤ t.total := by
  rw [h.count_eq, h.total]
  exact List.count_le_length

theorem Counts.inWords (h : t.Counts keys) (bound : t.total < 2 ^ 64) : t.InWords :=
  ⟨bound, fun key => (h.count_le key).trans_lt bound⟩

end Tally

end CallTrace
