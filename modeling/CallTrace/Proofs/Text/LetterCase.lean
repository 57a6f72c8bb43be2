import CallTrace.Text.LetterCase

/-!
# No letter has two cases

The tables of upper and lower case have no code point in common (`CodeRange.not_covers_of_apart`),
so it makes no difference which of them is asked first, and each case is what its table says.
-/

namespace CallTrace.Text

namespace CodeRange

/-- All code points of the range are even, or all are odd. -/
def alternates (r : CodeRange) : Bool :=
  r.first == r.last || r.step == 2

/-- One range ends before the other begins, or one has even and the other odd code points. -/
def apart (r q : CodeRange) : Bool :=
  decide (r.last < q.first) || decide (q.last < r.first)
    || (r.alternates && q.alternates && (r.first + q.first) % 2 == 1)

/-- Whether the ranges of two tables are apart, as far as they decide about the same code
    points.  The range that ends first is put away. -/
def tablesApart : List CodeRange → List CodeRange → Bool
  | [], _ => true
  | _, [] => true
  | r :: rs, q :: qs =>
    if r.last < q.last then r.apart q && tablesApart rs (q :: qs)
    else r.apart q && tablesApart (r :: rs) qs
termination_by rs qs => rs.length + qs.length

theorem parity_of_contains {r : CodeRange} {n : Nat} (alternates : r.alternates = true)
    (h : r.contains n = true) : n % 2 = r.first % 2 := by
  simp only [contains, Bool.and_eq_true, decide_eq_true_eq, beq_iff_eq] at h
  obtain ⟨⟨first_le, le_last⟩, whole⟩ := h
  rw [CodeRange.alternates, Bool.or_eq_true, beq_iff_eq, beq_iff_eq] at alternates
  rcases alternates with single | even
  · have only : n = r.first := by omega
    rw [only]
  · rw [even] at whole
    omega

theorem not_contains_of_apart {r q : CodeRange} (h : r.apart q = true) {n : Nat}
    (hr : r.contains n = true) : q.contains n = false := by
  apply Bool.eq_false_iff.mpr
  intro hq
  have inside := hr
  have inside' := hq
  simp only [contains, Bool.and_eq_true, decide_eq_true_eq, beq_iff_eq] at inside inside'
  simp only [apart, Bool.or_eq_true, Bool.and_eq_true, decide_eq_true_eq, beq_iff_eq] at h
  rcases h with (before | after) | ⟨⟨alternates, alternates'⟩, odd⟩
  · omega
  · omega
  · have parity := parity_of_contains alternates hr
    have parity' := parity_of_contains alternates' hq
    omega

theorem covers_cons_of_le {r : CodeRange} {n : Nat} (h : n ≤ r.last) (rest : List CodeRange) :
    covers (r :: rest) n = r.contains n := by
  rw [covers, if_pos h]

theorem covers_cons_of_lt {r : CodeRange} {n : Nat} (h : r.last < n) (rest : List CodeRange) :
    covers (r :: rest) n = covers rest n := by
  rw [covers, if_neg (Nat.not_le.mpr h)]

/-- Tables whose ranges are apart have no code point in common. -/
theorem not_covers_of_tablesApart {table other : List CodeRange}
    (h : tablesApart table other = true) {n : Nat} (covered : covers table n = true) :
    covers other n = false := by
  fun_induction tablesApart table other with
  | case1 other => cases covered
  | case2 table _ => rfl
  | case3 r rs q qs before ih =>
    rw [Bool.and_eq_true] at h
    rcases Nat.lt_or_ge r.last n with after | inside
    · rw [covers_cons_of_lt after] at covered
      exact ih h.2 covered
    · rw [covers_cons_of_le inside] at covered
      rw [covers_cons_of_le (Nat.le_trans inside (Nat.le_of_lt before))]
      exact not_contains_of_apart h.1 covered
  | case4 r rs q qs notBefore ih =>
    rw [Bool.and_eq_true] at h
    rcases Nat.lt_or_ge q.last n with after | inside
    · rw [covers_cons_of_lt after]
      exact ih h.2 covered
    · rw [covers_cons_of_le (Nat.le_trans inside (Nat.not_lt.mp notBefore))] at covered
      rw [covers_cons_of_le inside]
      exact not_contains_of_apart h.1 covered

end CodeRange

theorem not_isLower_of_isUpper {c : Char} (h : isUpper c = true) : isLower c = false := by
  have apart : CodeRange.tablesApart uppercaseTable lowercaseTable = true := by decide +kernel
  exact CodeRange.not_covers_of_tablesApart apart h

namespace LetterCase

variable {c : Char}

theorem of?_eq_upper_iff : of? c = some .upper ↔ isUpper c = true := by
  rw [of?]
  split
  · simp [*]
  · split <;> simp [*]

theorem of?_eq_lower_iff : of? c = some .lower ↔ isLower c = true := by
  rw [of?]
  split
  · rename_i upper
    simp [not_isLower_of_isUpper upper]
  · split <;> simp [*]

theorem of?_eq_none_iff : of? c = none ↔ isUpper c = false ∧ isLower c = false := by
  rw [of?]
  split
  · simp [*]
  · split <;> simp [*]

end LetterCase

end CallTrace.Text
