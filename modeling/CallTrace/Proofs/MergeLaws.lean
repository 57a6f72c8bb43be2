import CallTrace.Proofs.History

/-!
# The laws of merging

Tallies that are equal hold the same counts and the same total.  Up to this equality, merging is
associative and commutative and the empty tally changes nothing, in whatever order the entries are
taken; and the tally of a sequence of keys depends on nothing but how often each key occurs
(`Tally.merge_laws`).

At each key, merging adds two counts either of which may be missing (`Tally.Merges.getElem?`).  The
laws are those of this addition.
-/

namespace CallTrace

namespace Tally

variable {a a' b b' c ab ba bc merged merged' left right : Tally}

theorem Merges.getElem? (merges : a.Merges b merged) (key : String) :
    merged.counts[key]? = a.counts[key]?.merge (· + ·) b.counts[key]? := by
  obtain ⟨entries, perm, rfl⟩ := merges
  rw [getElem?_mergeInOrder perm, count, Std.TreeMap.getD_eq_getD_getElem?]
  cases a.counts[key]? with
  | none =>
    cases b.counts[key]? with
    | none => rfl
    | some n => exact congrArg some (Nat.zero_add n)
  | some m =>
    cases b.counts[key]? with
    | none => rfl
    | some n => rfl

theorem Merges.total (merges : a.Merges b merged) : merged.total = a.total + b.total := by
  obtain ⟨entries, -, rfl⟩ := merges
  rfl

/-- Equal tallies merge to equal tallies, in whatever order their entries are taken. -/
theorem Merges.congr (same : (a == a') = true) (same' : (b == b') = true)
    (merges : a.Merges b merged) (merges' : a'.Merges b' merged') : (merged == merged') = true := by
  obtain ⟨counts, total⟩ := beq_iff.mp same
  obtain ⟨counts', total'⟩ := beq_iff.mp same'
  refine beq_iff.mpr ⟨?_, ?_⟩
  · intro key
    rw [merges.getElem?, merges'.getElem?, counts, counts']
  · rw [merges.total, merges'.total, total, total']

theorem Merges.comm (first : a.Merges b ab) (second : b.Merges a ba) : (ab == ba) = true := by
  refine beq_iff.mpr ⟨?_, ?_⟩
  · intro key
    rw [first.getElem?, second.getElem?]
    exact Std.Commutative.comm _ _
  · rw [first.total, second.total, Nat.add_comm]

theorem Merges.assoc (first : a.Merges b ab) (then_c : ab.Merges c left) (second : b.Merges c bc)
    (into_a : a.Merges bc right) : (left == right) = true := by
  refine beq_iff.mpr ⟨?_, ?_⟩
  · intro key
    rw [then_c.getElem?, first.getElem?, into_a.getElem?, second.getElem?]
    exact Std.Associative.assoc _ _ _
  · rw [then_c.total, first.total, into_a.total, second.total, Nat.add_assoc]

theorem Merges.of_empty_right (merges : a.Merges .empty merged) : (merged == a) = true := by
  refine beq_iff.mpr ⟨?_, merges.total⟩
  intro key
  rw [merges.getElem?, counts_empty.counts]
  exact Option.merge_none_right

theorem Merges.of_empty_left (merges : Tally.empty.Merges a merged) : (merged == a) = true := by
  refine beq_iff.mpr ⟨?_, ?_⟩
  · intro key
    rw [merges.getElem?, counts_empty.counts]
    exact Option.merge_none_left
  · rw [merges.total]
    exact Nat.zero_add a.total

/-- Sequences have equal tallies exactly if each key occurs equally often in them. -/
theorem accumulateAll_beq_iff {keys others : List String} :
    (accumulateAll .empty keys == accumulateAll .empty others) = true ↔ keys.Perm others := by
  constructor
  · intro same
    have counts := (counts_accumulateAll others).of_beq same
    rw [List.perm_iff_count]
    intro key
    rw [← (counts_accumulateAll keys).count_eq, counts.count_eq]
  · intro perm
    exact ((counts_accumulateAll keys).perm perm).beq (counts_accumulateAll others)

/-- The tally of two sequences is merged from the tallies of each, and it depends on the keys
    alone and not on their order.  Up to equality, merging is associative and commutative and the
    empty tally is neutral, whatever the order of the entries; and as long as the totals together
    are a word, so are the numbers of the merged tally. -/
theorem merge_laws :
    (∀ (keys others : List String) (merged : Tally),
      (accumulateAll .empty keys).Merges (accumulateAll .empty others) merged →
        (merged == accumulateAll .empty (keys ++ others)) = true) ∧
    (∀ keys others : List String,
      (accumulateAll .empty keys == accumulateAll .empty others) = true ↔ keys.Perm others) ∧
    (∀ a b : Tally, a.Merges b (a.merge b)) ∧
    (∀ a a' b b' merged merged' : Tally, (a == a') = true → (b == b') = true →
      a.Merges b merged → a'.Merges b' merged' → (merged == merged') = true) ∧
    (∀ a merged : Tally, a.Merges .empty merged ∨ Tally.empty.Merges a merged →
      (merged == a) = true) ∧
    (∀ a b ab ba : Tally, a.Merges b ab → b.Merges a ba → (ab == ba) = true) ∧
    (∀ a b c ab bc left right : Tally, a.Merges b ab → ab.Merges c left → b.Merges c bc →
      a.Merges bc right → (left == right) = true) ∧
    ∀ (a b ab : Tally) (keys others : List String), History a keys → History b others →
      a.total + b.total < 2 ^ 64 → a.Merges b ab → ab.InWords := by
  refine ⟨?_, fun _ _ => accumulateAll_beq_iff, merges_merge, fun _ _ _ _ _ _ => Merges.congr, ?_,
    fun _ _ _ _ => Merges.comm, fun _ _ _ _ _ _ _ => Merges.assoc, ?_⟩
  · intro keys others merged merges
    have both := (counts_accumulateAll keys).merges (counts_accumulateAll others) merges
    exact both.beq (counts_accumulateAll (keys ++ others))
  · rintro a merged (merges | merges)
    · exact merges.of_empty_right
    · exact merges.of_empty_left
  · intro a b ab keys others ha hb bound merges
    apply (ha.merge hb merges).counts.inWords
    rwa [merges.total]

/-- Three tallies with keys in common, merged with their entries in descending order. -/
theorem merge_laws_descending :
    ∃ a b c ab ba bc left right, History a ["y", "x"] ∧ History b ["z", "y"] ∧
      a.total + b.total < 2 ^ 64 ∧ a.Merges b ab ∧ b.Merges a ba ∧ ab.Merges c left ∧
      b.Merges c bc ∧ a.Merges bc right ∧ (ab == ba) = true ∧ (left == right) = true ∧
      (ab == accumulateAll .empty ["y", "x", "z", "y"]) = true ∧ ab.InWords := by
  have descending : ∀ t other : Tally, t.Merges other (t.mergeInOrder other other.entries.reverse) :=
    fun t other => ⟨_, List.reverse_perm _, rfl⟩
  have first := history_accumulateAll ["y", "x"]
  have second := history_accumulateAll ["z", "y"]
  have small : 2 + 2 < 2 ^ 64 := by decide
  obtain ⟨joined, -, -, -, -, comm, assoc, words⟩ := merge_laws
  refine ⟨accumulateAll .empty ["y", "x"], accumulateAll .empty ["z", "y"],
    accumulateAll .empty ["x"], _, _, _, _, _, first, second, small, descending _ _,
    descending _ _, descending _ _, descending _ _, descending _ _, ?_, ?_, ?_, ?_⟩
  · exact comm _ _ _ _ (descending _ _) (descending _ _)
  · exact assoc _ _ _ _ _ _ _ (descending _ _) (descending _ _) (descending _ _) (descending _ _)
  · exact joined _ _ _ (descending _ _)
  · exact words _ _ _ _ _ first second small (descending _ _)

end Tally

end CallTrace
