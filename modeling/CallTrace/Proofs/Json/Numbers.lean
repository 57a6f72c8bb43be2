import CallTrace.Json.Number
import CallTrace.Proofs.Json.Grammar

/-!
# Reading numbers

A natural number is read back from its text as long as it fits into 64 bits
(`number_naturalText`).  A number of any form is skipped (`skipMagnitude_of_text`), and where a
number is read, skipping it leads to the same rest (`skipMagnitude_of_magnitude`).
-/

namespace CallTrace.Json

variable {t rest : Bytes}

/-! ### Runs of digits -/

theorem isDigit_iff {b : UInt8} : isDigit b = true ↔ sym '0' ≤ b ∧ b ≤ sym '9' := by
  rw [isDigit, decide_eq_true_iff]

theorem Ends.digitNext (h : Ends rest) : digitNext rest = false := by
  cases rest with
  | nil => rfl
  | cons b rest =>
    have none : ∀ b ∈ delimiters, isDigit b = false := forall_delimiters.mpr (by decide)
    exact none b (h b rfl)

theorem Ends.realNext (h : Ends rest) : realNext rest = false := by
  cases rest with
  | nil => rfl
  | cons b rest =>
    have none : ∀ b ∈ delimiters, (b == sym '.' || b == sym 'e' || b == sym 'E') = false :=
      forall_delimiters.mpr (by decide)
    exact none b (h b rfl)

theorem dropDigits_of_digitNext (h : digitNext rest = false) : dropDigits rest = rest := by
  cases rest with
  | nil => rfl
  | cons b rest => exact List.dropWhile_cons_of_neg (Bool.eq_false_iff.mp h)

theorem dropDigits_append (h : ∀ b ∈ t, sym '0' ≤ b ∧ b ≤ sym '9')
    (stops : digitNext rest = false) : dropDigits (t ++ rest) = rest := by
  have all : ∀ b ∈ t, isDigit b = true := fun b hb => isDigit_iff.mpr (h b hb)
  rw [dropDigits, List.dropWhile_append_of_pos all]
  exact dropDigits_of_digitNext stops

theorem DigitsText.digitNext (h : DigitsText t) (rest : Bytes) : digitNext (t ++ rest) = true := by
  obtain ⟨b, t', rfl, hdigit⟩ := h.exists_cons
  exact isDigit_iff.mpr hdigit

/-! ### Skipped numbers -/

theorem skipDigits_of_text (h : DigitsText t) (stops : digitNext rest = false) :
    skipDigits (t ++ rest) = .ok rest := by
  rw [skipDigits, if_pos (h.digitNext rest), dropDigits_append h.2 stops]

theorem skipWhole_of_text (h : WholeText t) (stops : digitNext rest = false) :
    skipWhole (t ++ rest) = .ok rest := by
  cases h with
  | zero =>
    rw [List.singleton_append, skipWhole, if_pos List.head?_cons]
    exact if_neg (Bool.eq_false_iff.mp stops)
  | digits h noZero =>
    obtain ⟨b, t', rfl, -⟩ := h.exists_cons
    have noZero' : (b :: (t' ++ rest)).head? ≠ some (sym '0') := noZero
    rw [List.cons_append, skipWhole, if_neg noZero']
    exact skipDigits_of_text h stops

theorem skipFraction_of_text (h : FractionText t) (stops : digitNext rest = false)
    (noPoint : rest.head? ≠ some (sym '.')) : skipFraction (t ++ rest) = .ok rest := by
  cases h with
  | none =>
    cases rest with
    | nil => rfl
    | cons b rest =>
      rw [List.nil_append, skipFraction, if_neg fun hb => noPoint (congrArg some hb)]
  | some h =>
    rw [List.cons_append, skipFraction, if_pos rfl]
    exact skipDigits_of_text h stops

theorem sign_append {w : Bytes} (hsign : w = [] ∨ w = [sym '+'] ∨ w = [sym '-'])
    (h : DigitsText t) (rest : Bytes) : (sign (w ++ (t ++ rest))).2 = t ++ rest := by
  rcases hsign with rfl | rfl | rfl
  · obtain ⟨b, t', rfl, hdigit⟩ := h.exists_cons
    have noMinus : b ≠ sym '-' := by
      rintro rfl
      exact absurd hdigit (by decide)
    have noPlus : b ≠ sym '+' := by
      rintro rfl
      exact absurd hdigit (by decide)
    simp only [List.nil_append, List.cons_append, sign, if_neg noMinus, if_neg noPlus]
  · rfl
  · rfl

theorem skipExponent_of_text (h : ExponentText t) (ends : Ends rest) :
    skipExponent (t ++ rest) = .ok rest := by
  cases h with
  | none =>
    cases rest with
    | nil => rfl
    | cons b rest =>
      have none : ∀ b ∈ delimiters, ¬ (b = sym 'e' ∨ b = sym 'E') :=
        forall_delimiters.mpr (by decide)
      rw [List.nil_append, skipExponent, if_neg (none b (ends b rfl))]
  | some hletter hsign h =>
    rw [List.append_assoc, List.cons_append, skipExponent, if_pos hletter, sign_append hsign h]
    exact skipDigits_of_text h ends.digitNext

/-- What follows the digits before the point. -/
theorem head?_fraction_append {fraction exponent : Bytes} (hfraction : FractionText fraction)
    (hexponent : ExponentText exponent) (ends : Ends rest) :
    digitNext (fraction ++ (exponent ++ rest)) = false ∧ digitNext (exponent ++ rest) = false ∧
      (exponent ++ rest).head? ≠ some (sym '.') := by
  have later : digitNext (exponent ++ rest) = false ∧
      (exponent ++ rest).head? ≠ some (sym '.') := by
    cases hexponent with
    | none =>
      refine ⟨ends.digitNext, ?_⟩
      intro point
      exact absurd (ends _ point) (by decide)
    | some hletter _ _ =>
      rcases hletter with rfl | rfl
      · exact ⟨rfl, fun point => absurd (Option.some.inj point) (by decide)⟩
      · exact ⟨rfl, fun point => absurd (Option.some.inj point) (by decide)⟩
  refine ⟨?_, later⟩
  cases hfraction with
  | none => exact later.1
  | some _ => rfl

theorem skipMagnitude_of_text {whole fraction exponent : Bytes} (hwhole : WholeText whole)
    (hfraction : FractionText fraction) (hexponent : ExponentText exponent) (ends : Ends rest) :
    skipMagnitude (whole ++ (fraction ++ (exponent ++ rest))) = .ok rest := by
  obtain ⟨stops, stops', noPoint⟩ := head?_fraction_append hfraction hexponent ends
  calc skipMagnitude (whole ++ (fraction ++ (exponent ++ rest)))
      = ((skipWhole (whole ++ (fraction ++ (exponent ++ rest)))).bind skipFraction).bind
          skipExponent := rfl
    _ = (skipFraction (fraction ++ (exponent ++ rest))).bind skipExponent := by
      rw [skipWhole_of_text hwhole stops]
      rfl
    _ = skipExponent (exponent ++ rest) := by
      rw [skipFraction_of_text hfraction stops' noPoint]
      rfl
    _ = .ok rest := skipExponent_of_text hexponent ends

/-! ### Numbers that are read can be skipped -/

theorem dropDigits_digits (value count : Nat) (text : Bytes) :
    dropDigits (digits value count text).rest = dropDigits text := by
  fun_induction digits value count text with
  | case1 => rfl
  | case2 value count b rest next h ih =>
    rw [ih]
    exact (List.dropWhile_cons_of_pos h.1).symm
  | case3 => rfl

theorem skipFraction_of_fraction {number value : Decimal.Scaled}
    (h : fraction number t = .ok (value, rest)) : skipFraction t = .ok rest := by
  rcases t with _ | ⟨b, t⟩
  · cases h
    rfl
  rw [fraction] at h
  rw [skipFraction]
  split at h
  · rename_i hb
    rw [if_pos hb]
    split at h
    · cases h
    split at h
    · rename_i next
      cases h
      rw [skipDigits, if_pos next, dropDigits_digits]
    · cases h
  · rename_i hb
    cases h
    rw [if_neg hb]

theorem skipExponent_of_exponent {number value : Decimal.Scaled}
    (h : exponent number t = .ok (value, rest)) : skipExponent t = .ok rest := by
  rcases t with _ | ⟨b, t⟩
  · cases h
    rfl
  rw [exponent] at h
  rw [skipExponent]
  split at h
  · rename_i hb
    rw [if_pos hb]
    split at h
    · cases h
    rename_i n rest' hread
    cases h
    rw [exponentDigits] at hread
    split at hread
    · cases hread
    split at hread
    · rename_i next
      cases hread
      rw [skipDigits, if_pos next]
    · cases hread
  · rename_i hb
    cases h
    rw [if_neg hb]

theorem skipWhole_of_digitNext (next : digitNext t = true)
    (noZero : ¬ (t.head? = some (sym '0') ∧ digitNext t.tail = true)) :
    skipWhole t = .ok (dropDigits t) := by
  obtain ⟨b, t, rfl⟩ : ∃ b t', t = b :: t' := by
    cases t with
    | nil => cases next
    | cons b t => exact ⟨b, t, rfl⟩
  rw [skipWhole]
  split
  · rename_i zero
    have stops : digitNext t = false := Bool.eq_false_iff.mpr fun h => noZero ⟨zero, h⟩
    rw [List.tail_cons, if_neg (Bool.eq_false_iff.mp stops)]
    have dropped : dropDigits (b :: t) = dropDigits t := List.dropWhile_cons_of_pos next
    rw [dropped, dropDigits_of_digitNext stops]
  · rw [skipDigits, if_pos next]

theorem skipFraction_of_not_realNext (h : (!realNext t) = true) :
    (skipFraction t).bind skipExponent = .ok t := by
  cases t with
  | nil => rfl
  | cons b t =>
    have plain : ¬ (b = sym '.' ∨ b = sym 'e' ∨ b = sym 'E') := by
      simpa [realNext, and_assoc] using h
    rw [not_or] at plain
    rw [skipFraction, if_neg plain.1]
    exact if_neg plain.2

theorem skipMagnitude_of_magnitude {value : Magnitude} (h : magnitude t = .ok (value, rest)) :
    skipMagnitude t = .ok rest := by
  rw [magnitude] at h
  split at h
  · cases h
  split at h
  · cases h
  rename_i next
  rw [Bool.not_eq_true, Bool.not_eq_false'] at next
  split at h
  · cases h
  rename_i noZero
  have whole := skipWhole_of_digitNext next noZero
  simp only [dropDigits_digits] at h
  suffices later : (skipFraction (dropDigits t)).bind skipExponent = .ok rest by
    rw [skipMagnitude, whole]
    exact later
  split at h
  · rename_i plain
    cases h
    exact skipFraction_of_not_realNext plain.2
  · split at h
    · cases h
    rename_i hfraction
    split at h
    · cases h
    rename_i hexponent
    cases h
    rw [skipFraction_of_fraction hfraction]
    exact skipExponent_of_exponent hexponent

/-! ### Natural numbers -/

theorem naturalText_eq (n : Nat) : naturalText n = (Nat.toDigits 10 n).map sym := by
  rw [naturalText, ascii, Nat.repr, String.toList_ofList]

theorem sym_digitChar {n : Nat} (h : n < 10) :
    sym n.digitChar = UInt8.ofNat (48 + n) ∧ sym '0' ≤ UInt8.ofNat (48 + n) ∧
      UInt8.ofNat (48 + n) ≤ sym '9' ∧ (UInt8.ofNat (48 + n)).toNat - 48 = n ∧
      (UInt8.ofNat (48 + n) = sym '0' → n = 0) := by
  have all : ∀ n < 10, sym n.digitChar = UInt8.ofNat (48 + n) ∧
      sym '0' ≤ UInt8.ofNat (48 + n) ∧ UInt8.ofNat (48 + n) ≤ sym '9' ∧
      (UInt8.ofNat (48 + n)).toNat - 48 = n ∧ (UInt8.ofNat (48 + n) = sym '0' → n = 0) := by
    decide
  exact all n h

theorem naturalText_of_lt {n : Nat} (h : n < 10) : naturalText n = [UInt8.ofNat (48 + n)] := by
  rw [naturalText_eq, Nat.toDigits_of_lt_base h, List.map_singleton, (sym_digitChar h).1]

theorem naturalText_of_le {n : Nat} (h : 10 ≤ n) :
    naturalText n = naturalText (n / 10) ++ [UInt8.ofNat (48 + n % 10)] := by
  have last : n % 10 < 10 := Nat.mod_lt n (by decide)
  rw [naturalText_eq, Nat.toDigits_of_base_le (by decide) h, List.map_append, naturalText_eq,
    List.map_singleton, (sym_digitChar last).1]

/-- The text of a natural number has its digits, no zero in front, and its value. -/
theorem naturalText_spec (n : Nat) :
    DigitsText (naturalText n) ∧ (0 < n → (naturalText n).head? ≠ some (sym '0')) ∧
      digitsValue (naturalText n) = n := by
  induction n using Nat.strongRecOn with
  | ind n ih =>
    by_cases h : n < 10
    · obtain ⟨-, hlow, hhigh, hvalue, hzero⟩ := sym_digitChar h
      rw [naturalText_of_lt h]
      refine ⟨⟨List.cons_ne_nil _ _, ?_⟩, ?_, ?_⟩
      · intro b hb
        rw [List.mem_singleton.mp hb]
        exact ⟨hlow, hhigh⟩
      · intro positive zero
        have := hzero (Option.some.inj zero)
        omega
      · rw [digitsValue, List.foldl_cons, List.foldl_nil, hvalue, Nat.mul_zero, Nat.zero_add]
    · have hle : 10 ≤ n := Nat.le_of_not_lt h
      obtain ⟨⟨hne, hdigits⟩, hhead, hval⟩ := ih (n / 10) (Nat.div_lt_self (by omega) (by decide))
      obtain ⟨-, hlow, hhigh, hvalue, -⟩ := sym_digitChar (Nat.mod_lt n (by decide : 0 < 10))
      rw [naturalText_of_le hle]
      refine ⟨⟨List.append_ne_nil_of_left_ne_nil hne _, ?_⟩, ?_, ?_⟩
      · intro b hb
        rcases List.mem_append.mp hb with hb | hb
        · exact hdigits b hb
        · rw [List.mem_singleton.mp hb]
          exact ⟨hlow, hhigh⟩
      · intro _
        rw [List.head?_append_of_ne_nil _ hne]
        exact hhead (Nat.div_pos hle (by decide))
      · rw [digitsValue] at hval
        rw [digitsValue, List.foldl_append, hval, List.foldl_cons, List.foldl_nil, hvalue]
        exact Nat.div_add_mod n 10

theorem wholeText_naturalText (n : Nat) : WholeText (naturalText n) := by
  obtain ⟨hdigits, hhead, -⟩ := naturalText_spec n
  rcases Nat.eq_zero_or_pos n with rfl | hpos
  · exact .zero
  · exact .digits hdigits (hhead hpos)

theorem le_foldl_digits (value : Nat) (t : Bytes) :
    value ≤ t.foldl (fun value b => 10 * value + (b.toNat - 48)) value := by
  induction t generalizing value with
  | nil => exact Nat.le_refl value
  | cons b t ih =>
    rw [List.foldl_cons]
    exact Nat.le_trans (by omega) (ih _)

/-- Digits are taken to their end if the number that they lead to fits. -/
theorem digits_append (h : ∀ b ∈ t, sym '0' ≤ b ∧ b ≤ sym '9') (stops : digitNext rest = false)
    (value count : Nat)
    (fits : t.foldl (fun value b => 10 * value + (b.toNat - 48)) value < UInt64.size) :
    digits value count (t ++ rest) =
      ⟨t.foldl (fun value b => 10 * value + (b.toNat - 48)) value, count + t.length, rest⟩ := by
  induction t generalizing value count with
  | nil =>
    cases rest with
    | nil => rfl
    | cons b rest =>
      have stops : isDigit b = false := stops
      simp only [List.nil_append, digits, stops, Bool.false_eq_true, false_and, if_false]
      rfl
  | cons b t ih =>
    obtain ⟨hb, later⟩ := List.forall_mem_cons.mp h
    have next := Nat.lt_of_le_of_lt (le_foldl_digits (10 * value + (b.toNat - 48)) t) fits
    rw [List.cons_append, digits]
    rw [if_pos ⟨isDigit_iff.mpr hb, next⟩, ih later _ _ fits, List.length_cons, List.foldl_cons,
      Nat.add_right_comm]
    rfl

theorem magnitude_naturalText {n : Nat} (fits : n < UInt64.size) (ends : Ends rest) :
    magnitude (naturalText n ++ rest) = .ok (.whole n, rest) := by
  obtain ⟨hdigits, hhead, hvalue⟩ := naturalText_spec n
  have read := digits_append hdigits.2 ends.digitNext 0 0 (by rwa [← hvalue] at fits)
  have noZero : ¬ ((naturalText n ++ rest).head? = some (sym '0') ∧
      digitNext (naturalText n ++ rest).tail = true) := by
    rintro ⟨zero, next⟩
    rcases Nat.eq_zero_or_pos n with rfl | hpos
    · rw [naturalText_of_lt (by decide), List.singleton_append, List.tail_cons,
        ends.digitNext] at next
      cases next
    · rw [List.head?_append_of_ne_nil _ hdigits.1] at zero
      exact hhead hpos zero
  have noEnd : (naturalText n ++ rest).isEmpty = false := by
    obtain ⟨b, t', heq, -⟩ := hdigits.exists_cons
    rw [heq]
    rfl
  have noDigits : rest.takeWhile isDigit = [] := by
    cases rest with
    | nil => rfl
    | cons b rest => exact List.takeWhile_cons_of_neg (Bool.eq_false_iff.mp ends.digitNext)
  rw [magnitude, noEnd, hdigits.digitNext, if_neg noZero, read]
  simp only [noDigits, dropDigits_of_digitNext ends.digitNext, ends.realNext]
  change Except.ok (Magnitude.whole (digitsValue (naturalText n)), rest) = _
  rw [hvalue]

/-- A number that fits is read back from its text. -/
theorem number_naturalText {n : Nat} (fits : n < UInt64.size) (ends : Ends rest) :
    number (naturalText n ++ rest) = .ok (.natural n, rest) := by
  have hmagnitude := magnitude_naturalText fits ends
  obtain ⟨b, t', heq, hdigit⟩ := (naturalText_spec n).1.exists_cons
  have noMinus : b ≠ sym '-' := by
    rintro rfl
    exact absurd hdigit (by decide)
  rw [heq, List.cons_append] at hmagnitude ⊢
  rw [number, if_neg noMinus, hmagnitude]
  rfl

end CallTrace.Json
