import CallTrace.Json.Token

/-!
# Numbers of JSON texts

A number without fraction and exponent is an integer if it fits into 64 bits, signed
or unsigned; every other number is real.  The digits of a real number are collected
as long as they fit into 64 bits.  Later digits are dropped, those before the point
with their weight kept.  The real value is the collected integer as a binary64
value, then scaled by a power of ten, each step rounded to nearest.

Minus zero is real, since no integer stands for it.
-/

namespace CallTrace.Json

open Decimal (Scaled)

/-- The value of a number. -/
inductive Number where
  | natural (n : Nat)
  /-- The number `-n`. -/
  | negative (n : Nat)
  | real (x : Float)

/-- The ASCII digits. -/
def isDigit (b : UInt8) : Bool :=
  decide (sym '0' ≤ b ∧ b ≤ sym '9')

/-- Whether the text goes on with a digit. -/
def digitNext (text : Bytes) : Bool :=
  text.head?.any isDigit

/-- Whether the text goes on with a fraction or an exponent. -/
def realNext (text : Bytes) : Bool :=
  text.head?.any fun b => b == sym '.' || b == sym 'e' || b == sym 'E'

/-- Digits, and what follows them. -/
structure Digits where
  value : Nat
  count : Nat
  rest : Bytes

/-- Appends digits to a value as long as it fits into 64 bits. -/
def digits (value count : Nat) (text : Bytes) : Digits :=
  match text with
  | [] => ⟨value, count, []⟩
  | b :: rest =>
    let next : Nat := 10 * value + (b.toNat - 48)
    if isDigit b ∧ next < UInt64.size then digits next (count + 1) rest
    else ⟨value, count, text⟩

theorem digits_length (value count : Nat) (text : Bytes) :
    (digits value count text).rest.length ≤ text.length := by
  fun_induction digits value count text with
  | case1 => simp
  | case2 _ _ _ _ _ _ ih => simp only [List.length_cons]; omega
  | case3 => simp

theorem digits_length_lt (count : Nat) (text : Bytes) (h : digitNext text = true) :
    (digits 0 count text).rest.length < text.length := by
  cases text with
  | nil => simp [digitNext] at h
  | cons b rest =>
    have hb : isDigit b = true := by simpa [digitNext] using h
    have small : 10 * 0 + (b.toNat - 48) < UInt64.size := by
      have := b.toNat_lt
      simp only [UInt64.size]; omega
    have := digits_length (10 * 0 + (b.toNat - 48)) (count + 1) rest
    simp only [digits, hb, small, and_self, if_true, List.length_cons]
    omega

/-- A text without the digits at its front. -/
def dropDigits (text : Bytes) : Bytes :=
  text.dropWhile isDigit

theorem dropDigits_length (text : Bytes) : (dropDigits text).length ≤ text.length :=
  (List.dropWhile_sublist _).length_le

/-! ### Real numbers -/

/-- Reads a fraction, if there is one, and appends its digits. -/
def fraction (number : Scaled) (text : Bytes) : Result Scaled :=
  match text with
  | [] => .ok (number, text)
  | b :: rest =>
    if b = sym '.' then
      if rest.isEmpty then .error (.textEnds .value)
      else if digitNext rest then
        let read := digits number.digits 0 rest
        .ok (⟨read.value, number.exponent - read.count⟩, dropDigits read.rest)
      else .error .malformedNumber
    else .ok (number, text)

theorem fraction_length {number value : Scaled} {text rest : Bytes}
    (h : fraction number text = .ok (value, rest)) : rest.length ≤ text.length := by
  unfold fraction at h
  split at h
  · simp only [Except.ok.injEq, Prod.mk.injEq] at h; simp [← h.2]
  · rename_i b after
    split at h
    · split at h
      · simp at h
      · split at h
        · simp only [Except.ok.injEq, Prod.mk.injEq] at h
          have := digits_length number.digits 0 after
          have := dropDigits_length (digits number.digits 0 after).rest
          rw [← h.2, List.length_cons]; omega
        · simp at h
    · simp only [Except.ok.injEq, Prod.mk.injEq] at h; simp [← h.2]

/-- The value of a run of digits. -/
def digitsValue (text : Bytes) : Nat :=
  text.foldl (fun value b => 10 * value + (b.toNat - 48)) 0

/-- Reads the digits of an exponent. -/
def exponentDigits (text : Bytes) : Result Nat :=
  if text.isEmpty then .error (.textEnds .value)
  else if digitNext text then .ok (digitsValue (text.takeWhile isDigit), dropDigits text)
  else .error .malformedNumber

theorem exponentDigits_length {n : Nat} {text rest : Bytes}
    (h : exponentDigits text = .ok (n, rest)) : rest.length ≤ text.length := by
  unfold exponentDigits at h
  split at h
  · simp at h
  · split at h
    · simp only [Except.ok.injEq, Prod.mk.injEq] at h
      rw [← h.2]; exact dropDigits_length text
    · simp at h

/-- Reads a sign, if there is one; the answer tells whether it is a minus. -/
def sign (text : Bytes) : Bool × Bytes :=
  match text with
  | [] => (false, text)
  | b :: rest =>
    if b = sym '-' then (true, rest)
    else if b = sym '+' then (false, rest)
    else (false, text)

theorem sign_length (text : Bytes) : (sign text).2.length ≤ text.length := by
  unfold sign
  split
  · simp
  · split
    · simp
    · split <;> simp

/-- Reads an exponent, if there is one. -/
def exponent (number : Scaled) (text : Bytes) : Result Scaled :=
  match text with
  | [] => .ok (number, text)
  | b :: rest =>
    if b = sym 'e' ∨ b = sym 'E' then
      match exponentDigits (sign rest).2 with
      | .error fault => .error fault
      | .ok (n, rest') =>
        .ok (⟨number.digits,
          if (sign rest).1 then number.exponent - n else number.exponent + n⟩, rest')
    else .ok (number, text)

theorem exponent_length {number value : Scaled} {text rest : Bytes}
    (h : exponent number text = .ok (value, rest)) : rest.length ≤ text.length := by
  unfold exponent at h
  split at h
  · simp only [Except.ok.injEq, Prod.mk.injEq] at h; simp [← h.2]
  · rename_i b after
    split at h
    · split at h
      · simp at h
      · rename_i he
        simp only [Except.ok.injEq, Prod.mk.injEq] at h
        have := exponentDigits_length he
        have := sign_length after
        rw [← h.2, List.length_cons]; omega
    · simp only [Except.ok.injEq, Prod.mk.injEq] at h; simp [← h.2]

/-- The greatest power of ten that a real number is scaled by in one step. -/
def greatestPower : Nat := 308

/-- A power of ten, rounded to nearest. -/
def powerOfTen (k : Nat) : Float :=
  Float.ofScientific 1 false k

/-- A binary64 value times a power of ten.  Powers below the least are divided by in
    several steps, until nothing is left. -/
def scale (x : Float) (e : Int) : Except Fault Float :=
  if e < -greatestPower then
    if x == 0 then .ok x else scale (x / powerOfTen greatestPower) (e + greatestPower)
  else if e < 0 then .ok (x / powerOfTen (-e).toNat)
  else if e ≤ greatestPower then
    let y := x * powerOfTen e.toNat
    if y.isInf then .error .numberTooLarge else .ok y
  else if x == 0 then .ok x
  else .error .numberTooLarge
termination_by (-e).toNat
decreasing_by simp only [greatestPower] at *; omega

/-- The value of a decimal whose digits fit into 64 bits. -/
def realValue (number : Scaled) : Except Fault Float :=
  scale number.digits.toUInt64.toFloat number.exponent

/-! ### All numbers -/

/-- A number without its sign. -/
inductive Magnitude where
  | whole (n : Nat)
  | decimal (number : Scaled)

/-- Reads a number without its sign. -/
def magnitude (text : Bytes) : Result Magnitude :=
  if text.isEmpty then .error (.textEnds .value)
  else if !digitNext text then .error .malformedNumber
  else if text.head? = some (sym '0') ∧ digitNext text.tail then .error .malformedNumber
  else
    let whole := digits 0 0 text
    let dropped := (whole.rest.takeWhile isDigit).length
    let rest := dropDigits whole.rest
    if dropped = 0 ∧ !realNext rest then .ok (.whole whole.value, rest)
    else
      match fraction ⟨whole.value, dropped⟩ rest with
      | .error fault => .error fault
      | .ok (number, rest) =>
        match exponent number rest with
        | .error fault => .error fault
        | .ok (number, rest) => .ok (.decimal number, rest)

theorem magnitude_length {value : Magnitude} {text rest : Bytes}
    (h : magnitude text = .ok (value, rest)) : rest.length < text.length := by
  unfold magnitude at h
  split at h
  · simp at h
  · split at h
    · simp at h
    · rename_i hd
      have hlt := digits_length_lt 0 text (by simpa using hd)
      have hle := dropDigits_length (digits 0 0 text).rest
      split at h
      · simp at h
      · simp only at h
        split at h
        · simp only [Except.ok.injEq, Prod.mk.injEq] at h
          rw [← h.2]; omega
        · split at h
          · simp at h
          · rename_i hf
            have := fraction_length hf
            split at h
            · simp at h
            · rename_i he
              have := exponent_length he
              simp only [Except.ok.injEq, Prod.mk.injEq] at h
              rw [← h.2]; omega

/-- The value of a number that is not negative. -/
def Number.ofMagnitude : Magnitude → Except Fault Number
  | .whole n => .ok (.natural n)
  | .decimal number => (realValue number).map .real

/-- The least signed integer of 64 bits, without its minus. -/
def greatestNegated : Nat := 0x8000000000000000

/-- The value of a number after a minus. -/
def Number.ofNegated : Magnitude → Except Fault Number
  | .whole n =>
    if 0 < n ∧ n ≤ greatestNegated then .ok (.negative n) else .ok (.real (-n.toUInt64.toFloat))
  | .decimal number => (realValue number).map fun x => .real (-x)

/-- Reads a number with its sign. -/
def number (text : Bytes) : Result Number :=
  match text with
  | [] => .error (.textEnds .value)
  | b :: rest =>
    if b = sym '-' then
      match magnitude rest with
      | .error fault => .error fault
      | .ok (value, rest) => (Number.ofNegated value).map (·, rest)
    else
      match magnitude text with
      | .error fault => .error fault
      | .ok (value, rest) => (Number.ofMagnitude value).map (·, rest)

theorem number_length {value : Number} {text rest : Bytes}
    (h : number text = .ok (value, rest)) : rest.length < text.length := by
  unfold number at h
  split at h
  · simp at h
  · split at h
    · split at h
      · simp at h
      · rename_i read
        obtain ⟨_, _, ends⟩ := map_eq_ok.1 h
        have := magnitude_length read
        rw [← (Prod.mk.inj ends).2, List.length_cons]; omega
    · split at h
      · simp at h
      · rename_i read
        obtain ⟨_, _, ends⟩ := map_eq_ok.1 h
        rw [← (Prod.mk.inj ends).2]
        exact magnitude_length read

/-! ### Skipped numbers -/

/-- Skips one or more digits. -/
def skipDigits (text : Bytes) : Except Fault Bytes :=
  if digitNext text then .ok (dropDigits text) else .error .malformedNumber

/-- Skips the digits before the point; a zero stands alone. -/
def skipWhole (text : Bytes) : Except Fault Bytes :=
  if text.head? = some (sym '0') then
    if digitNext text.tail then .error .malformedNumber else .ok text.tail
  else skipDigits text

/-- Skips a fraction, if there is one. -/
def skipFraction : Bytes → Except Fault Bytes
  | [] => .ok []
  | b :: rest => if b = sym '.' then skipDigits rest else .ok (b :: rest)

/-- Skips an exponent, if there is one. -/
def skipExponent : Bytes → Except Fault Bytes
  | [] => .ok []
  | b :: rest =>
    if b = sym 'e' ∨ b = sym 'E' then skipDigits (sign rest).2 else .ok (b :: rest)

/-- Skips a number after its sign. -/
def skipMagnitude (text : Bytes) : Except Fault Bytes :=
  ((skipWhole text).bind skipFraction).bind skipExponent

theorem dropDigits_length_lt {text : Bytes} (h : digitNext text = true) :
    (dropDigits text).length < text.length := by
  cases text with
  | nil => simp [digitNext] at h
  | cons b rest =>
    have hb : isDigit b = true := by simpa [digitNext] using h
    have := dropDigits_length rest
    simp only [dropDigits, List.dropWhile_cons, hb, if_true, List.length_cons] at *
    omega

theorem skipDigits_length {text rest : Bytes} (h : skipDigits text = .ok rest) :
    rest.length < text.length := by
  unfold skipDigits at h
  split at h
  · rename_i hd
    simp only [Except.ok.injEq] at h
    rw [← h]; exact dropDigits_length_lt hd
  · simp at h

theorem skipWhole_length {text rest : Bytes} (h : skipWhole text = .ok rest) :
    rest.length < text.length := by
  unfold skipWhole at h
  split at h
  · split at h
    · simp at h
    · cases text with
      | nil => simp_all
      | cons b after =>
        simp only [Except.ok.injEq, List.tail_cons] at h
        rw [← h, List.length_cons]; omega
  · exact skipDigits_length h

theorem skipFraction_length {text rest : Bytes} (h : skipFraction text = .ok rest) :
    rest.length ≤ text.length := by
  unfold skipFraction at h
  split at h
  · simp only [Except.ok.injEq] at h; simp [← h]
  · split at h
    · have := skipDigits_length h; simp only [List.length_cons]; omega
    · simp only [Except.ok.injEq] at h; simp [← h]

theorem skipExponent_length {text rest : Bytes} (h : skipExponent text = .ok rest) :
    rest.length ≤ text.length := by
  unfold skipExponent at h
  split at h
  · simp only [Except.ok.injEq] at h; simp [← h]
  · rename_i b after
    split at h
    · have := skipDigits_length h
      have := sign_length after
      simp only [List.length_cons]; omega
    · simp only [Except.ok.injEq] at h; simp [← h]

theorem skipMagnitude_length {text rest : Bytes} (h : skipMagnitude text = .ok rest) :
    rest.length < text.length := by
  obtain ⟨afterFraction, h, power⟩ := bind_eq_ok.1 h
  obtain ⟨afterWhole, whole, fraction⟩ := bind_eq_ok.1 h
  have := skipWhole_length whole
  have := skipFraction_length fraction
  have := skipExponent_length power
  omega

end CallTrace.Json
