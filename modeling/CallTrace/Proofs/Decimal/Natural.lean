import Mathlib.Data.List.Induction
import Mathlib.Data.Nat.Digits.Defs
import CallTrace.Decimal.Natural

/-!
# Numbers read from their digits

Reading the digits of a number gives the number (`numeral?_toDigits`): each further digit is added
to ten times the number that was read before it (`digits?_append`).  Which texts are read at all,
and as which numbers, is said without the reader (`Denotes`), and the reader accepts just these
texts (`natural?_eq_some_iff`).
-/

namespace CallTrace.Decimal

theorem digit?_digitChar {n : Nat} (h : n < 10) : digit? n.digitChar = some n := by
  have all : ∀ n < 10, digit? n.digitChar = some n := by decide
  exact all n h

theorem digits?_append (value : Nat) (digits more : List Char) :
    digits? value (digits ++ more) = (digits? value digits).bind fun read => digits? read more := by
  induction digits generalizing value with
  | nil => rfl
  | cons c digits ih =>
    rw [List.cons_append, digits?, digits?]
    cases digit? c with
    | none => rfl
    | some d => exact ih (10 * value + d)

theorem digits?_singleton {n : Nat} (h : n < 10) (value : Nat) :
    digits? value [n.digitChar] = some (10 * value + n) := by
  rw [digits?, digit?_digitChar h]
  rfl

theorem digits?_toDigits (n : Nat) : digits? 0 (Nat.toDigits 10 n) = some n := by
  induction n using Nat.strongRecOn with
  | ind n ih =>
    by_cases h : n < 10
    · rw [Nat.toDigits_of_lt_base h, digits?_singleton h, Nat.mul_zero, Nat.zero_add]
    · have last : n % 10 < 10 := Nat.mod_lt n (by decide)
      have less : n / 10 < n := Nat.div_lt_self (by omega) (by decide)
      rw [Nat.toDigits_of_base_le (by decide) (Nat.le_of_not_lt h), digits?_append, ih _ less,
        Option.bind_some, digits?_singleton last, Nat.div_add_mod]

theorem numeral?_toDigits (n : Nat) : numeral? (Nat.toDigits 10 n) = some n := by
  have read := digits?_toDigits n
  have some_digit : Nat.toDigits 10 n ≠ [] := Nat.toDigits_ne_nil
  cases digits : Nat.toDigits 10 n with
  | nil => exact absurd digits some_digit
  | cons c rest => rwa [digits] at read

/-- The digits of a number are no other characters. -/
theorem notMem_toDigits {c : Char} (h : c.isDigit = false) (n : Nat) : c ∉ Nat.toDigits 10 n := by
  intro hmem
  rw [Nat.isDigit_of_mem_toDigits (by decide) (by decide) hmem] at h
  cases h

/-! ### The texts that are read -/

/-- The number that a run of digits stands for, in which the last digit counts ones. -/
def value (digits : List Char) : Nat :=
  Nat.ofDigits 10 (digits.reverse.map fun c => c.toNat - '0'.toNat)

/-- The text is an optional plus sign and one or more ASCII digits, which stand for the number. -/
inductive Denotes : List Char → Nat → Prop where
  | unsigned {digits : List Char} (some_digit : digits ≠ [])
      (ascii : ∀ c ∈ digits, c.isDigit = true) : Denotes digits (value digits)
  | signed {digits : List Char} (some_digit : digits ≠ [])
      (ascii : ∀ c ∈ digits, c.isDigit = true) : Denotes ('+' :: digits) (value digits)

@[simp] theorem value_nil : value [] = 0 := rfl

theorem value_cons (c : Char) (digits : List Char) :
    value (c :: digits) = (c.toNat - '0'.toNat) * 10 ^ digits.length + value digits := by
  rw [value, List.map_reverse, List.map_cons, Nat.ofDigits_reverse_cons, List.length_map,
    ← List.map_reverse, Nat.add_comm, Nat.mul_comm, value]

theorem digit?_eq_some_iff {c : Char} {d : Nat} :
    digit? c = some d ↔ c.isDigit = true ∧ c.toNat - '0'.toNat = d := by
  have same : ('0' ≤ c ∧ c ≤ '9') ↔ c.isDigit = true := by
    rw [Char.isDigit, Bool.and_eq_true, decide_eq_true_eq, decide_eq_true_eq]
    rfl
  rw [digit?]
  split <;> simp_all

theorem digits?_eq_some_iff {start n : Nat} {digits : List Char} :
    digits? start digits = some n ↔
      (∀ c ∈ digits, c.isDigit = true) ∧ start * 10 ^ digits.length + value digits = n := by
  induction digits generalizing start with
  | nil => simp [digits?]
  | cons c digits ih =>
    rw [digits?, Option.bind_eq_some_iff, List.forall_mem_cons, value_cons, List.length_cons]
    -- What was read before is worth ten times as much, because one more digit follows.
    have shift : ∀ d, (10 * start + d) * 10 ^ digits.length + value digits =
        start * 10 ^ (digits.length + 1) + (d * 10 ^ digits.length + value digits) := by
      intro d
      ring
    constructor
    · rintro ⟨d, hd, rest⟩
      obtain ⟨isDigit, rfl⟩ := digit?_eq_some_iff.mp hd
      obtain ⟨ascii, sum⟩ := ih.mp rest
      exact ⟨⟨isDigit, ascii⟩, (shift _).symm.trans sum⟩
    · rintro ⟨⟨isDigit, ascii⟩, sum⟩
      exact ⟨_, digit?_eq_some_iff.mpr ⟨isDigit, rfl⟩, ih.mpr ⟨ascii, (shift _).trans sum⟩⟩

theorem numeral?_eq_some_iff {digits : List Char} {n : Nat} :
    numeral? digits = some n ↔
      digits ≠ [] ∧ (∀ c ∈ digits, c.isDigit = true) ∧ value digits = n := by
  cases digits with
  | nil => simp [numeral?]
  | cons c digits =>
    have read : numeral? (c :: digits) = digits? 0 (c :: digits) := rfl
    rw [read, digits?_eq_some_iff, Nat.zero_mul, Nat.zero_add]
    exact (and_iff_right (List.cons_ne_nil c digits)).symm

theorem denotes_signed_iff {digits : List Char} {n : Nat} :
    Denotes ('+' :: digits) n ↔ numeral? digits = some n := by
  rw [numeral?_eq_some_iff]
  constructor
  · rintro (⟨-, ascii⟩ | ⟨some_digit, ascii⟩)
    · exact absurd (ascii '+' List.mem_cons_self) (by decide)
    · exact ⟨some_digit, ascii, rfl⟩
  · rintro ⟨some_digit, ascii, rfl⟩
    exact .signed some_digit ascii

theorem denotes_unsigned_iff {text : List Char} {n : Nat} (h : text.head? ≠ some '+') :
    Denotes text n ↔ numeral? text = some n := by
  rw [numeral?_eq_some_iff]
  constructor
  · rintro (⟨some_digit, ascii⟩ | _)
    · exact ⟨some_digit, ascii, rfl⟩
    · exact absurd rfl h
  · rintro ⟨some_digit, ascii, rfl⟩
    exact .unsigned some_digit ascii

/-- A text is read if it denotes a number below the bound, as this number. -/
theorem natural?_eq_some_iff {bound n : Nat} {text : List Char} :
    natural? bound text = some n ↔ Denotes text n ∧ n < bound := by
  unfold natural?
  rw [Option.filter_eq_some_iff, decide_eq_true_eq]
  split
  · rw [denotes_signed_iff]
  · rename_i unsigned
    rw [denotes_unsigned_iff]
    intro sign
    obtain ⟨rest, rfl⟩ := List.head?_eq_some_iff.mp sign
    exact unsigned rest rfl

theorem Denotes.unique {text : List Char} {n m : Nat} (h : Denotes text n) (h' : Denotes text m) :
    n = m := by
  have below : n < max n m + 1 := by omega
  have below' : m < max n m + 1 := by omega
  have read := natural?_eq_some_iff.mpr ⟨h, below⟩
  rw [natural?_eq_some_iff.mpr ⟨h', below'⟩] at read
  exact (Option.some.inj read).symm

/-! ### Leading zeros -/

theorem digitChar_of_isDigit {c : Char} (h : c.isDigit = true) :
    (c.toNat - '0'.toNat).digitChar = c ∧ c.toNat - '0'.toNat < 10 := by
  have bounds : 48 ≤ c.toNat ∧ c.toNat < 58 := by
    have := Char.isDigit_iff_toNat.mp h
    exact ⟨this.1, Nat.lt_succ_of_le this.2⟩
  have all : ∀ n < 58, 48 ≤ n → (n - 48).digitChar = Char.ofNat n ∧ n - 48 < 10 := by decide
  have same := all c.toNat bounds.2 bounds.1
  rwa [Char.ofNat_toNat] at same

theorem value_concat (digits : List Char) (c : Char) :
    value (digits ++ [c]) = 10 * value digits + (c.toNat - '0'.toNat) := by
  rw [value, List.reverse_append, List.reverse_singleton, List.singleton_append, List.map_cons,
    Nat.ofDigits_cons, Nat.add_comm, value]

/-- A run of digits is the numeral of its number, perhaps after zeros. -/
theorem exists_zeros {digits : List Char} (some_digit : digits ≠ [])
    (ascii : ∀ c ∈ digits, c.isDigit = true) :
    ∃ zeros, digits = List.replicate zeros '0' ++ Nat.toDigits 10 (value digits) := by
  induction digits using List.reverseRecOn with
  | nil => exact absurd rfl some_digit
  | append_singleton front c ih =>
    obtain ⟨isChar, small⟩ := digitChar_of_isDigit (ascii c List.mem_concat_self)
    rw [value_concat]
    generalize c.toNat - '0'.toNat = last at isChar small
    by_cases h : front = []
    · subst h
      rw [value_nil, Nat.mul_zero, Nat.zero_add, Nat.toDigits_of_lt_base small, isChar]
      exact ⟨0, rfl⟩
    obtain ⟨zeros, hfront⟩ := ih h fun d hd => ascii d (List.mem_append_left _ hd)
    rcases Nat.eq_zero_or_pos (value front) with none | some
    · -- All digits before the last one are zeros.
      rw [none] at hfront ⊢
      refine ⟨zeros + 1, ?_⟩
      rw [Nat.mul_zero, Nat.zero_add, Nat.toDigits_of_lt_base small, isChar, hfront,
        List.replicate_succ']
      rfl
    · have several : 10 ≤ 10 * value front + last := by omega
      have before : (10 * value front + last) / 10 = value front := by omega
      have mod : (10 * value front + last) % 10 = last := by omega
      refine ⟨zeros, ?_⟩
      rw [Nat.toDigits_of_base_le (by decide) several, before, mod, isChar, ← List.append_assoc,
        ← hfront]

theorem digits?_zeros (zeros : Nat) (digits : List Char) :
    digits? 0 (List.replicate zeros '0' ++ digits) = digits? 0 digits := by
  induction zeros with
  | zero => rfl
  | succ zeros ih => exact ih

theorem numeral?_eq_some_iff_zeros {digits : List Char} {n : Nat} :
    numeral? digits = some n ↔ ∃ zeros, digits = List.replicate zeros '0' ++ Nat.toDigits 10 n := by
  constructor
  · intro h
    obtain ⟨some_digit, ascii, rfl⟩ := numeral?_eq_some_iff.mp h
    exact exists_zeros some_digit ascii
  · rintro ⟨zeros, rfl⟩
    have read := numeral?_toDigits n
    cases zeros with
    | zero => exact read
    | succ zeros =>
      rw [← digits?_toDigits n, ← digits?_zeros (zeros + 1)]
      rfl

/-- A number is denoted by its numeral, with any number of zeros and perhaps a plus sign before
    it, and by nothing else. -/
theorem denotes_iff_zeros {text : List Char} {n : Nat} :
    Denotes text n ↔ ∃ zeros,
      text = List.replicate zeros '0' ++ Nat.toDigits 10 n ∨
        text = '+' :: List.replicate zeros '0' ++ Nat.toDigits 10 n := by
  constructor
  · rintro (⟨some_digit, ascii⟩ | ⟨some_digit, ascii⟩)
    · obtain ⟨zeros, h⟩ := exists_zeros some_digit ascii
      exact ⟨zeros, .inl h⟩
    · obtain ⟨zeros, h⟩ := exists_zeros some_digit ascii
      exact ⟨zeros, .inr (congrArg _ h)⟩
  · rintro ⟨zeros, written⟩
    obtain ⟨some_digit, ascii, stands⟩ := numeral?_eq_some_iff.mp
      (numeral?_eq_some_iff_zeros.mpr ⟨zeros, rfl⟩ : numeral? (_ ++ Nat.toDigits 10 n) = some n)
    rcases written with rfl | rfl
    · have denotes := Denotes.unsigned some_digit ascii
      rwa [stands] at denotes
    · have denotes := Denotes.signed some_digit ascii
      rwa [stands] at denotes

end CallTrace.Decimal
