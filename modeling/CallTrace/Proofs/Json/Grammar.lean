import Mathlib.Data.List.Forall2
import CallTrace.Json.Token

/-!
# The grammar of JSON texts

What JSON texts look like, told without a decoder.  A character of a string may be written in
several ways, blanks may stand between any two tokens, and a value is described by its own text:
a list by the texts of its items (`ListText`), and an object by its keys and the texts of its
values (`ObjectText`).

A string that nobody decodes need not stand for a text: its escapes may name halves of surrogate
pairs that lack the other half (`LooseText`).
-/

namespace CallTrace.Json

/-- White space between tokens. -/
def Blanks (t : Bytes) : Prop :=
  ∀ b ∈ t, b = 0x20 ∨ b = 0x09 ∨ b = 0x0A ∨ b = 0x0D

/-- The text of a word, or of anything else in ASCII. -/
def ascii (s : String) : Bytes :=
  s.toList.map sym

/-! ### Strings -/

/-- A hexadecimal digit, in either case, for a number below 16. -/
def IsHexDigit (n : Nat) (b : UInt8) : Prop :=
  n < 10 ∧ b.toNat = 48 + n ∨ 10 ≤ n ∧ n < 16 ∧ (b.toNat = 55 + n ∨ b.toNat = 87 + n)

/-- Four hexadecimal digits for a code unit. -/
inductive UnitText : Nat → Bytes → Prop where
  | digits {k l m n : Nat} {a b c d : UInt8} (ha : IsHexDigit k a) (hb : IsHexDigit l b)
      (hc : IsHexDigit m c) (hd : IsHexDigit n d) :
      UnitText (((k * 16 + l) * 16 + m) * 16 + n) [a, b, c, d]

/-- The letters that stand for a character after a backslash. -/
def letterEscapes : List (Char × Char) :=
  [('"', '"'), ('\\', '\\'), ('/', '/'), ('b', '\x08'), ('f', '\x0c'), ('n', '\n'), ('r', '\r'),
    ('t', '\t')]

/-- The ways to write a character inside a string. -/
inductive CharText : Char → Bytes → Prop where
  | plain {c : Char} (printable : 0x20 ≤ c.toNat) (noQuote : c ≠ '"') (noEscape : c ≠ '\\') :
      CharText c (String.utf8EncodeChar c)
  | letter {l c : Char} (h : (l, c) ∈ letterEscapes) : CharText c [sym '\\', sym l]
  | unit {c : Char} {t : Bytes} (h : UnitText c.toNat t) : CharText c (sym '\\' :: sym 'u' :: t)
  | pair {c : Char} {leading trailing : Nat} {s t : Bytes}
      (hleading : 0xD800 ≤ leading ∧ leading ≤ 0xDBFF)
      (htrailing : 0xDC00 ≤ trailing ∧ trailing ≤ 0xDFFF)
      (joined : c.toNat = 0x10000 + (leading - 0xD800) * 0x400 + (trailing - 0xDC00))
      (hs : UnitText leading s) (ht : UnitText trailing t) :
      CharText c (sym '\\' :: sym 'u' :: s ++ sym '\\' :: sym 'u' :: t)

inductive CharsText : List Char → Bytes → Prop where
  | nil : CharsText [] []
  | cons {c : Char} {cs : List Char} {s t : Bytes} (first : CharText c s)
      (later : CharsText cs t) : CharsText (c :: cs) (s ++ t)

/-- A text for a string. -/
def StringText (value : String) (t : Bytes) : Prop :=
  ∃ s, CharsText value.toList s ∧ t = sym '"' :: s ++ [sym '"']

/-- Characters and code units; no code unit needs to be a character. -/
inductive LooseChars : Bytes → Prop where
  | nil : LooseChars []
  | char {c : Char} {s t : Bytes} (first : CharText c s) (later : LooseChars t) :
      LooseChars (s ++ t)
  | unit {n : Nat} {s t : Bytes} (first : UnitText n s) (later : LooseChars t) :
      LooseChars (sym '\\' :: sym 'u' :: s ++ t)

/-- A string that need not stand for a text. -/
def LooseText (t : Bytes) : Prop :=
  ∃ s, LooseChars s ∧ t = sym '"' :: s ++ [sym '"']

/-! ### Numbers -/

/-- One or more digits. -/
def DigitsText (t : Bytes) : Prop :=
  t ≠ [] ∧ ∀ b ∈ t, sym '0' ≤ b ∧ b ≤ sym '9'

/-- The digits before the point.  A zero stands alone. -/
inductive WholeText : Bytes → Prop where
  | zero : WholeText [sym '0']
  | digits {t : Bytes} (h : DigitsText t) (noZero : t.head? ≠ some (sym '0')) : WholeText t

inductive FractionText : Bytes → Prop where
  | none : FractionText []
  | some {t : Bytes} (h : DigitsText t) : FractionText (sym '.' :: t)

inductive ExponentText : Bytes → Prop where
  | none : ExponentText []
  | some {letter : UInt8} {sign t : Bytes} (hletter : letter = sym 'e' ∨ letter = sym 'E')
      (hsign : sign = [] ∨ sign = [sym '+'] ∨ sign = [sym '-']) (h : DigitsText t) :
      ExponentText (letter :: sign ++ t)

inductive NumberText : Bytes → Prop where
  | number {sign whole fraction exponent : Bytes} (hsign : sign = [] ∨ sign = [sym '-'])
      (hwhole : WholeText whole) (hfraction : FractionText fraction)
      (hexponent : ExponentText exponent) : NumberText (sign ++ whole ++ fraction ++ exponent)

/-- The text for a natural number. -/
def naturalText (n : Nat) : Bytes :=
  ascii (Nat.repr n)

def Word32Text (n : UInt32) (t : Bytes) : Prop :=
  t = naturalText n.toNat

def Word64Text (n : UInt64) (t : Bytes) : Prop :=
  t = naturalText n.toNat

/-! ### Lists and objects -/

/-- What stands before an item: a comma, unless it is the first one, and blanks. -/
inductive LeadText : Bool → Bytes → Prop where
  | first {w : Bytes} (h : Blanks w) : LeadText true w
  | next {w w' : Bytes} (h : Blanks w) (h' : Blanks w') : LeadText false (w ++ sym ',' :: w')

/-- Items up to the closing bracket; the first of them may have others before it. -/
inductive ItemsText : Bool → List Bytes → Bytes → Prop where
  | nil {first : Bool} {w : Bytes} (h : Blanks w) : ItemsText first [] w
  | cons {first : Bool} {lead item t : Bytes} {items : List Bytes} (h : LeadText first lead)
      (later : ItemsText false items t) : ItemsText first (item :: items) (lead ++ item ++ t)

/-- A list with the texts of its items. -/
inductive ListText : List Bytes → Bytes → Prop where
  | list {items : List Bytes} {t : Bytes} (h : ItemsText true items t) :
      ListText items (sym '[' :: t ++ [sym ']'])

/-- A member with the texts of its key and of its value. -/
inductive MemberText : Bytes × Bytes → Bytes → Prop where
  | member {key value w w' : Bytes} (h : Blanks w) (h' : Blanks w') :
      MemberText (key, value) (key ++ w ++ sym ':' :: w' ++ value)

/-- An object with the texts of its keys and of its values. -/
inductive MembersText : List (Bytes × Bytes) → Bytes → Prop where
  | object {members : List (Bytes × Bytes)} {items : List Bytes} {t : Bytes}
      (hitems : List.Forall₂ MemberText members items) (h : ItemsText true items t) :
      MembersText members (sym '{' :: t ++ [sym '}'])

/-- An object with its keys and the texts of its values. -/
def ObjectText (members : List (String × Bytes)) (t : Bytes) : Prop :=
  ∃ texts, MembersText texts t ∧
    List.Forall₂ (fun m text => StringText m.1 text.1 ∧ text.2 = m.2) members texts

/-! ### Values -/

/-- Any value. -/
inductive ValueText : Bytes → Prop where
  | null : ValueText (ascii "null")
  | true : ValueText (ascii "true")
  | false : ValueText (ascii "false")
  | number {t : Bytes} (h : NumberText t) : ValueText t
  | string {t : Bytes} (h : LooseText t) : ValueText t
  | list {items : List Bytes} {t : Bytes} (h : ListText items t)
      (hitems : ∀ item ∈ items, ValueText item) : ValueText t
  | object {members : List (Bytes × Bytes)} {t : Bytes} (h : MembersText members t)
      (hkeys : ∀ m ∈ members, LooseText m.1) (hvalues : ∀ m ∈ members, ValueText m.2) :
      ValueText t

/-- A text with one value and blanks around it. -/
def Alone (IsText : Bytes → Prop) (t : Bytes) : Prop :=
  ∃ w s w', Blanks w ∧ Blanks w' ∧ IsText s ∧ t = w ++ (s ++ w')

/-! ### What stands between values -/

/-- Blanks, commas and closing brackets. -/
def delimiters : List UInt8 :=
  [0x20, 0x09, 0x0A, 0x0D, sym ',', sym ']', sym '}']

theorem forall_delimiters {p : UInt8 → Prop} :
    (∀ b ∈ delimiters, p b) ↔
      p 0x20 ∧ p 0x09 ∧ p 0x0A ∧ p 0x0D ∧ p (sym ',') ∧ p (sym ']') ∧ p (sym '}') := by
  simp [delimiters]

/-- No value goes on here. -/
def Ends (rest : Bytes) : Prop :=
  ∀ b ∈ rest.head?, b ∈ delimiters

theorem ends_nil : Ends [] := by
  rintro _ ⟨⟩

theorem ends_cons {b : UInt8} (h : b ∈ delimiters) (rest : Bytes) : Ends (b :: rest) := by
  rintro _ ⟨⟩
  exact h

theorem blanks_nil : Blanks [] := by
  intro b hb
  cases hb

theorem Blanks.ends_append {w : Bytes} (h : Blanks w) {rest : Bytes} (hrest : Ends rest) :
    Ends (w ++ rest) := by
  cases w with
  | nil => exact hrest
  | cons b w =>
    apply ends_cons
    rcases h b List.mem_cons_self with rfl | rfl | rfl | rfl <;> decide

/-- After an item there is a comma or the closing bracket. -/
theorem ItemsText.ends {items : List Bytes} {t : Bytes} (h : ItemsText false items t)
    {closing : UInt8} (hclosing : closing ∈ delimiters) (rest : Bytes) :
    Ends (t ++ closing :: rest) := by
  cases h with
  | nil h => exact h.ends_append (ends_cons hclosing rest)
  | cons h _ =>
    cases h with
    | next h h' =>
      simp only [List.append_assoc, List.cons_append]
      exact h.ends_append (ends_cons (by decide) _)

theorem DigitsText.exists_cons {t : Bytes} (h : DigitsText t) :
    ∃ b t', t = b :: t' ∧ sym '0' ≤ b ∧ b ≤ sym '9' := by
  obtain ⟨b, t', rfl⟩ := List.exists_cons_of_ne_nil h.1
  exact ⟨b, t', rfl, h.2 b List.mem_cons_self⟩

theorem WholeText.digits_text {t : Bytes} (h : WholeText t) : DigitsText t := by
  cases h with
  | zero => exact ⟨List.cons_ne_nil _ _, List.forall_mem_singleton.mpr (by decide)⟩
  | digits h _ => exact h

theorem not_mem_delimiters_of_digit {b : UInt8} (h : sym '0' ≤ b ∧ b ≤ sym '9') :
    b ∉ delimiters := by
  have none : ∀ b ∈ delimiters, ¬ (sym '0' ≤ b ∧ b ≤ sym '9') :=
    forall_delimiters.mpr (by decide)
  exact fun hb => none b hb h

theorem ListText.exists_cons {items : List Bytes} {t : Bytes} (h : ListText items t) :
    ∃ t', t = sym '[' :: t' := by
  cases h
  exact ⟨_, rfl⟩

theorem MembersText.exists_cons {members : List (Bytes × Bytes)} {t : Bytes}
    (h : MembersText members t) : ∃ t', t = sym '{' :: t' := by
  cases h
  exact ⟨_, rfl⟩

/-- A value does not begin like what stands between values. -/
theorem ValueText.exists_cons {t : Bytes} (h : ValueText t) :
    ∃ b t', t = b :: t' ∧ b ∉ delimiters := by
  cases h with
  | null => exact ⟨_, _, rfl, by decide⟩
  | true => exact ⟨_, _, rfl, by decide⟩
  | false => exact ⟨_, _, rfl, by decide⟩
  | number h =>
    cases h with
    | number hsign hwhole _ _ =>
      obtain ⟨b, t', rfl, hdigit⟩ := hwhole.digits_text.exists_cons
      rcases hsign with rfl | rfl
      · exact ⟨_, _, rfl, not_mem_delimiters_of_digit hdigit⟩
      · exact ⟨_, _, rfl, by decide⟩
  | string h =>
    obtain ⟨s, -, rfl⟩ := h
    exact ⟨_, _, rfl, by decide⟩
  | list h _ =>
    obtain ⟨t', rfl⟩ := h.exists_cons
    exact ⟨_, _, rfl, by decide⟩
  | object h _ _ =>
    obtain ⟨t', rfl⟩ := h.exists_cons
    exact ⟨_, _, rfl, by decide⟩

end CallTrace.Json
