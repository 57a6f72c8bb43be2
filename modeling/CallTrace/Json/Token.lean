import CallTrace.Json.Fault

/-!
# Tokens of JSON texts

A text is a list of bytes.  Every function here takes what it reads off the front of
a text and hands back the rest.  The rest is never longer than the text, and shorter
wherever something must be read; the lemmas that say so end the loops of the
decoders.

Strings are read in two ways.  A string whose contents matter is decoded: surrogate
pairs are joined, and the bytes must be UTF-8.  A string that is skipped only has to
be well formed: its escapes are checked, but not what they stand for.
-/

namespace CallTrace.Json

/-- The bytes of a text. -/
abbrev Bytes := List UInt8

/-- The byte of an ASCII character. -/
abbrev sym (c : Char) : UInt8 := c.toUInt8

/-- What is read, and the rest of the text. -/
abbrev Result (α : Type) := Except Fault (α × Bytes)

theorem bind_eq_ok {α β : Type} {x : Except Fault α} {f : α → Except Fault β} {b : β} :
    x.bind f = .ok b ↔ ∃ a, x = .ok a ∧ f a = .ok b := by
  cases x <;> simp [Except.bind]

theorem map_eq_ok {α β : Type} {x : Except Fault α} {f : α → β} {b : β} :
    x.map f = .ok b ↔ ∃ a, x = .ok a ∧ f a = b := by
  cases x <;> simp [Except.map]

/-! ### Blanks and words -/

/-- Space, tab, line feed and carriage return. -/
def isSpace (b : UInt8) : Bool :=
  b == 0x20 || b == 0x09 || b == 0x0A || b == 0x0D

/-- A text without the blanks at its front. -/
def trimFront (text : Bytes) : Bytes :=
  text.dropWhile isSpace

theorem trimFront_length (text : Bytes) : (trimFront text).length ≤ text.length :=
  (List.dropWhile_sublist _).length_le

theorem trimFront_cons_length {text rest : Bytes} {b : UInt8} (h : trimFront text = b :: rest) :
    rest.length < text.length := by
  have := trimFront_length text
  rw [h, List.length_cons] at this
  omega

/-- Reads the remaining letters of a word. -/
def finishWord : List Char → Bytes → Except Fault Bytes
  | [], text => .ok text
  | _ :: _, [] => .error (.textEnds .value)
  | c :: word, b :: text => if b = sym c then finishWord word text else .error .wordExpected

theorem finishWord_length {word : List Char} {text rest : Bytes}
    (h : finishWord word text = .ok rest) : rest.length ≤ text.length := by
  induction word generalizing text with
  | nil => simp [finishWord] at h; simp [h]
  | cons c word ih =>
    cases text with
    | nil => simp [finishWord] at h
    | cons b text =>
      simp only [finishWord] at h
      split at h
      · have := ih h; simp only [List.length_cons]; omega
      · simp at h

/-! ### Escapes -/

/-- The value of a hexadecimal digit. -/
def hexDigit? (b : UInt8) : Option Nat :=
  if sym '0' ≤ b ∧ b ≤ sym '9' then some (b.toNat - 48)
  else if sym 'A' ≤ b ∧ b ≤ sym 'F' then some (b.toNat - 55)
  else if sym 'a' ≤ b ∧ b ≤ sym 'f' then some (b.toNat - 87)
  else none

/-- Reads four hexadecimal digits. -/
def hexUnit : Bytes → Result Nat
  | a :: b :: c :: d :: rest =>
    match hexDigit? a, hexDigit? b, hexDigit? c, hexDigit? d with
    | some a, some b, some c, some d => .ok (((a * 16 + b) * 16 + c) * 16 + d, rest)
    | _, _, _, _ => .error .malformedEscape
  | _ => .error (.textEnds .string)

theorem hexUnit_length {text rest : Bytes} {n : Nat} (h : hexUnit text = .ok (n, rest)) :
    rest.length < text.length := by
  unfold hexUnit at h
  split at h
  · split at h
    · simp only [Except.ok.injEq, Prod.mk.injEq] at h
      obtain ⟨-, rfl⟩ := h
      simp only [List.length_cons]; omega
    · simp at h
  · simp at h

/-- The code units that begin a surrogate pair. -/
def isLeadingHalf (n : Nat) : Bool := decide (0xD800 ≤ n ∧ n ≤ 0xDBFF)

/-- The code units that end a surrogate pair. -/
def isTrailingHalf (n : Nat) : Bool := decide (0xDC00 ≤ n ∧ n ≤ 0xDFFF)

/-- The character of a surrogate pair. -/
def joinHalves (leading trailing : Nat) : Char :=
  Char.ofNat (0x10000 + (leading - 0xD800) * 0x400 + (trailing - 0xDC00))

/-- Reads the second half of a surrogate pair. -/
def trailingHalf (leading : Nat) : Bytes → Result Char
  | [] => .error (.textEnds .string)
  | a :: text =>
    if a = sym '\\' then
      match text with
      | [] => .error (.textEnds .string)
      | b :: text =>
        if b = sym 'u' then
          match hexUnit text with
          | .error fault => .error fault
          | .ok (n, rest) =>
            if isTrailingHalf n then .ok (joinHalves leading n, rest) else .error .pairMismatched
        else .error .pairUnfinished
    else .error .pairUnfinished

theorem trailingHalf_length {leading : Nat} {text rest : Bytes} {c : Char}
    (h : trailingHalf leading text = .ok (c, rest)) : rest.length < text.length := by
  unfold trailingHalf at h
  repeat' split at h
  all_goals first
    | (simp at h; done)
    | (rename_i hu _
       simp only [Except.ok.injEq, Prod.mk.injEq] at h
       obtain ⟨-, rfl⟩ := h
       have := hexUnit_length hu
       simp only [List.length_cons]; omega)

/-- Reads the code unit after `\u`, and its other half if it is one of a pair. -/
def unicodeEscape (text : Bytes) : Result Char :=
  match hexUnit text with
  | .error fault => .error fault
  | .ok (n, rest) =>
    if isTrailingHalf n then .error .pairMismatched
    else if isLeadingHalf n then trailingHalf n rest
    else .ok (Char.ofNat n, rest)

theorem unicodeEscape_length {text rest : Bytes} {c : Char}
    (h : unicodeEscape text = .ok (c, rest)) : rest.length < text.length := by
  unfold unicodeEscape at h
  split at h
  · simp at h
  · rename_i n r hu
    have := hexUnit_length hu
    split at h
    · simp at h
    · split at h
      · have := trailingHalf_length h; omega
      · simp only [Except.ok.injEq, Prod.mk.injEq] at h
        obtain ⟨-, rfl⟩ := h
        omega

/-- The characters that are escaped by a single letter. -/
def simpleEscape? (b : UInt8) : Option Char :=
  if b = sym '"' then some '"'
  else if b = sym '\\' then some '\\'
  else if b = sym '/' then some '/'
  else if b = sym 'b' then some '\x08'
  else if b = sym 'f' then some '\x0c'
  else if b = sym 'n' then some '\n'
  else if b = sym 'r' then some '\r'
  else if b = sym 't' then some '\t'
  else none

/-- Reads what follows a backslash. -/
def escape : Bytes → Result Char
  | [] => .error (.textEnds .string)
  | b :: rest =>
    match simpleEscape? b with
    | some c => .ok (c, rest)
    | none => if b = sym 'u' then unicodeEscape rest else .error .malformedEscape

theorem escape_length {text rest : Bytes} {c : Char} (h : escape text = .ok (c, rest)) :
    rest.length < text.length := by
  unfold escape at h
  split at h
  · simp at h
  · split at h
    · simp only [Except.ok.injEq, Prod.mk.injEq] at h
      obtain ⟨-, rfl⟩ := h
      simp
    · split at h
      · have := unicodeEscape_length h; simp only [List.length_cons]; omega
      · simp at h

/-! ### Strings -/

/-- Reads the rest of a string after its opening quote and collects its bytes. -/
def stringBytes (collected : ByteArray) (text : Bytes) : Result ByteArray :=
  match text with
  | [] => .error (.textEnds .string)
  | b :: rest =>
    if b = sym '"' then .ok (collected, rest)
    else if b = sym '\\' then
      match _h : escape rest with
      | .error fault => .error fault
      | .ok (c, rest') => stringBytes (collected ++ (String.singleton c).toUTF8) rest'
    else if b < 0x20 then .error .controlCharacter
    else stringBytes (collected.push b) rest
termination_by text.length
decreasing_by
  · have := escape_length _h; simp only [List.length_cons]; omega
  · simp

/-- Reads the rest of a string after its opening quote.  The bytes are checked when the
    closing quote is reached. -/
def string (text : Bytes) : Result String :=
  match stringBytes .empty text with
  | .error fault => .error fault
  | .ok (bytes, rest) =>
    match String.fromUTF8? bytes with
    | some value => .ok (value, rest)
    | none => .error .notUtf8

theorem stringBytes_length {collected bytes : ByteArray} {text rest : Bytes}
    (h : stringBytes collected text = .ok (bytes, rest)) : rest.length < text.length := by
  fun_induction stringBytes collected text with
  | case1 => simp at h
  | case2 =>
    simp only [Except.ok.injEq, Prod.mk.injEq] at h
    obtain ⟨-, rfl⟩ := h
    simp
  | case3 => simp at h
  | case4 =>
    rename_i he _ ih
    have := ih h
    have := escape_length he
    simp only [List.length_cons]; omega
  | case5 => simp at h
  | case6 _ _ _ _ _ _ ih =>
    have := ih h
    simp only [List.length_cons]; omega

theorem string_length {text rest : Bytes} {value : String}
    (h : string text = .ok (value, rest)) : rest.length < text.length := by
  unfold string at h
  split at h
  · simp at h
  · rename_i hb
    split at h
    · simp only [Except.ok.injEq, Prod.mk.injEq] at h
      obtain ⟨-, rfl⟩ := h
      exact stringBytes_length hb
    · simp at h

/-- Skips what follows a backslash. -/
def skipEscape : Bytes → Except Fault Bytes
  | [] => .error (.textEnds .string)
  | b :: rest =>
    if (simpleEscape? b).isSome then .ok rest
    else if b = sym 'u' then (hexUnit rest).map Prod.snd
    else .error .malformedEscape

theorem skipEscape_length {text rest : Bytes} (h : skipEscape text = .ok rest) :
    rest.length < text.length := by
  unfold skipEscape at h
  split at h
  · simp at h
  · split at h
    · simp only [Except.ok.injEq] at h; subst h; simp
    · split at h
      · obtain ⟨⟨_, after⟩, unit, rfl⟩ := map_eq_ok.1 h
        have := hexUnit_length unit
        simp only [List.length_cons]; omega
      · simp at h

/-- Skips the rest of a string after its opening quote. -/
def skipString (text : Bytes) : Except Fault Bytes :=
  match text with
  | [] => .error (.textEnds .string)
  | b :: rest =>
    if b = sym '"' then .ok rest
    else if b = sym '\\' then
      match _h : skipEscape rest with
      | .error fault => .error fault
      | .ok rest' => skipString rest'
    else if b < 0x20 then .error .controlCharacter
    else skipString rest
termination_by text.length
decreasing_by
  · have := skipEscape_length _h; simp only [List.length_cons]; omega
  · simp

theorem skipString_length {text rest : Bytes} (h : skipString text = .ok rest) :
    rest.length < text.length := by
  fun_induction skipString text with
  | case1 => simp at h
  | case2 => simp only [Except.ok.injEq] at h; subst h; simp
  | case3 => simp at h
  | case4 =>
    rename_i he _ ih
    have := ih h
    have := skipEscape_length he
    simp only [List.length_cons]; omega
  | case5 => simp at h
  | case6 _ _ _ _ _ ih =>
    have := ih h
    simp only [List.length_cons]; omega

/-! ### Punctuation -/

/-- Reads the colon after a key. -/
def colon (text : Bytes) : Except Fault Bytes :=
  match trimFront text with
  | [] => .error (.textEnds .object)
  | b :: rest => if b = sym ':' then .ok rest else .error .colonExpected

theorem colon_length {text rest : Bytes} (h : colon text = .ok rest) :
    rest.length < text.length := by
  unfold colon at h
  split at h
  · simp at h
  · rename_i ht
    split at h
    · simp only [Except.ok.injEq] at h
      subst h
      exact trimFront_cons_length ht
    · simp at h

end CallTrace.Json
