import CallTrace.Proofs.Json.Reading
import CallTrace.Proofs.Text.ByteOrder

/-!
# Writing values

Every string has a text, and there is one in UTF-8 (`exists_stringText`).  The texts that are given
here have no blanks, and characters stand for themselves wherever they may.
-/

namespace CallTrace.Json

variable {α : Type} {s t : Bytes}

/-! ### Bytes of strings -/

/-- The bytes of some string. -/
def Utf8 (t : Bytes) : Prop :=
  ∃ text, bytes text = t

theorem Utf8.append (hs : Utf8 s) (ht : Utf8 t) : Utf8 (s ++ t) := by
  obtain ⟨a, rfl⟩ := hs
  obtain ⟨b, rfl⟩ := ht
  refine ⟨a ++ b, ?_⟩
  rw [bytes_eq_flatMap, bytes_eq_flatMap, bytes_eq_flatMap, String.toList_append,
    List.flatMap_append]

theorem utf8_nil : Utf8 [] :=
  ⟨"", by decide⟩

theorem utf8_char (c : Char) : Utf8 (String.utf8EncodeChar c) := by
  refine ⟨String.singleton c, ?_⟩
  rw [bytes_eq_flatMap, String.toList_singleton, List.flatMap_singleton]

theorem Utf8.cons {b : UInt8} (hb : b.toNat < 128) (ht : Utf8 t) : Utf8 (b :: t) := by
  have encoded : String.utf8EncodeChar (Char.ofNat b.toNat) = [b] := by
    have value : (Char.ofNat b.toNat).val.toNat = b.toNat := by
      have valid : b.toNat.isValidChar := .inl (by omega)
      rw [Char.ofNat, dif_pos valid]
      rfl
    simp only [String.utf8EncodeChar]
    rw [value, if_pos (by omega), UInt8.ofNat_toNat]
  have first := utf8_char (Char.ofNat b.toNat)
  rw [encoded] at first
  exact first.append ht

/-- ASCII is UTF-8. -/
theorem utf8_of_ascii (h : ∀ b ∈ t, b.toNat < 128) : Utf8 t := by
  induction t with
  | nil => exact utf8_nil
  | cons b t ih =>
    obtain ⟨hb, ht⟩ := List.forall_mem_cons.mp h
    exact (ih ht).cons hb

/-! ### Strings -/

theorem exists_hexDigit {n : Nat} (h : n < 16) : ∃ b : UInt8, IsHexDigit n b ∧ b.toNat < 128 := by
  by_cases hn : n < 10
  · refine ⟨UInt8.ofNat (48 + n), .inl ⟨hn, ?_⟩, ?_⟩
    all_goals rw [UInt8.toNat_ofNat']; omega
  · refine ⟨UInt8.ofNat (55 + n), .inr ⟨by omega, h, .inl ?_⟩, ?_⟩
    all_goals rw [UInt8.toNat_ofNat']; omega

theorem exists_unitText {n : Nat} (h : n < 256) : ∃ t, UnitText n t ∧ ∀ b ∈ t, b.toNat < 128 := by
  obtain ⟨a, ha, asciiA⟩ := exists_hexDigit (by decide : 0 < 16)
  obtain ⟨b, hb, asciiB⟩ := exists_hexDigit (by omega : n / 16 < 16)
  obtain ⟨c, hc, asciiC⟩ := exists_hexDigit (by omega : n % 16 < 16)
  have text := UnitText.digits ha ha hb hc
  have value : ((0 * 16 + 0) * 16 + n / 16) * 16 + n % 16 = n := by omega
  rw [value] at text
  refine ⟨_, text, ?_⟩
  simp [asciiA, asciiB, asciiC]

theorem exists_charText (c : Char) : ∃ t, CharText c t ∧ Utf8 t := by
  by_cases printable : 0x20 ≤ c.toNat
  · by_cases noQuote : c = '"'
    · refine ⟨_, .letter (l := '"') (by rw [noQuote]; decide), ?_⟩
      exact (utf8_nil.cons (by decide)).cons (by decide)
    · by_cases noEscape : c = '\\'
      · refine ⟨_, .letter (l := '\\') (by rw [noEscape]; decide), ?_⟩
        exact (utf8_nil.cons (by decide)).cons (by decide)
      · exact ⟨_, .plain printable noQuote noEscape, utf8_char c⟩
  · -- Control characters have no other text than their code units, and some a letter.
    obtain ⟨t, ht, hascii⟩ := exists_unitText (by omega : c.toNat < 256)
    exact ⟨_, .unit ht, ((utf8_of_ascii hascii).cons (by decide)).cons (by decide)⟩

theorem exists_charsText (cs : List Char) : ∃ t, CharsText cs t ∧ Utf8 t := by
  induction cs with
  | nil => exact ⟨[], .nil, utf8_nil⟩
  | cons c cs ih =>
    obtain ⟨s, hs, hsUtf8⟩ := exists_charText c
    obtain ⟨t, ht, htUtf8⟩ := ih
    exact ⟨s ++ t, .cons hs ht, hsUtf8.append htUtf8⟩

theorem exists_stringText (value : String) : ∃ t, StringText value t ∧ Utf8 t := by
  obtain ⟨s, hs, hUtf8⟩ := exists_charsText value.toList
  refine ⟨_, ⟨s, hs, rfl⟩, ?_⟩
  exact (hUtf8.cons (by decide)).append (utf8_nil.cons (by decide))

def quoted (s : String) : Bytes :=
  sym '"' :: bytes s ++ [sym '"']

/-- All characters of the string may stand for themselves. -/
def isPlain (s : String) : Bool :=
  s.toList.all fun c => 0x20 ≤ c.toNat && c != '"' && c != '\\'

theorem charsText_bytes {s : String} (h : isPlain s = true) : CharsText s.toList (bytes s) := by
  rw [bytes_eq_flatMap]
  rw [isPlain] at h
  revert h
  induction s.toList with
  | nil => exact fun _ => .nil
  | cons c cs ih =>
    intro h
    simp only [List.all_cons, Bool.and_eq_true, decide_eq_true_eq, bne_iff_ne] at h
    obtain ⟨⟨⟨printable, noQuote⟩, noEscape⟩, later⟩ := h
    exact .cons (.plain printable noQuote noEscape) (ih later)

theorem stringText_quoted {s : String} (h : isPlain s = true) : StringText s (quoted s) :=
  ⟨bytes s, charsText_bytes h, rfl⟩

/-! ### Numbers -/

theorem utf8_naturalText (n : Nat) : Utf8 (naturalText n) := by
  apply utf8_of_ascii
  intro b hb
  obtain ⟨-, high⟩ := (naturalText_spec n).1.2 b hb
  exact Nat.lt_of_le_of_lt (UInt8.le_iff_toNat_le.mp high) (by decide)

theorem exists_word32Text (n : UInt32) : ∃ t, Word32Text n t ∧ Utf8 t :=
  ⟨_, rfl, utf8_naturalText n.toNat⟩

theorem exists_word64Text (n : UInt64) : ∃ t, Word64Text n t ∧ Utf8 t :=
  ⟨_, rfl, utf8_naturalText n.toNat⟩

theorem exists_nullableText {IsText : α → Bytes → Prop} (h : ∀ x, ∃ t, IsText x t ∧ Utf8 t)
    (x : Option α) : ∃ t, NullableText IsText x t ∧ Utf8 t := by
  cases x with
  | none => exact ⟨_, .none, "null", by decide⟩
  | some x =>
    obtain ⟨t, ht, hutf8⟩ := h x
    exact ⟨t, .some ht, hutf8⟩

/-! ### Lists and objects without blanks -/

/-- Items with a comma between any two. -/
def joined : List Bytes → Bytes
  | [] => []
  | item :: items => item ++ items.flatMap (sym ',' :: ·)

def listOf (items : List Bytes) : Bytes :=
  sym '[' :: joined items ++ [sym ']']

/-- An object with the texts of its keys and of its values. -/
def objectOf (members : List (Bytes × Bytes)) : Bytes :=
  sym '{' :: joined (members.map fun m => m.1 ++ sym ':' :: m.2) ++ [sym '}']

theorem itemsText_joined (items : List Bytes) : ItemsText true items (joined items) := by
  have later : ∀ items : List Bytes,
      ItemsText false items (items.flatMap (sym ',' :: ·)) := by
    intro items
    induction items with
    | nil => exact .nil blanks_nil
    | cons item items ih => exact .cons (.next blanks_nil blanks_nil) ih
  cases items with
  | nil => exact .nil blanks_nil
  | cons item items => exact .cons (.first blanks_nil) (later items)

theorem utf8_joined {items : List Bytes} (h : ∀ item ∈ items, Utf8 item) : Utf8 (joined items) := by
  have later : ∀ items : List Bytes, (∀ item ∈ items, Utf8 item) →
      Utf8 (items.flatMap (sym ',' :: ·)) := by
    intro items h
    induction items with
    | nil => exact utf8_nil
    | cons item items ih =>
      obtain ⟨hitem, hitems⟩ := List.forall_mem_cons.mp h
      exact (hitem.cons (by decide)).append (ih hitems)
  cases items with
  | nil => exact utf8_nil
  | cons item items =>
    obtain ⟨hitem, hitems⟩ := List.forall_mem_cons.mp h
    exact hitem.append (later items hitems)

theorem listText_listOf (items : List Bytes) : ListText items (listOf items) :=
  .list (itemsText_joined items)

theorem utf8_listOf {items : List Bytes} (h : ∀ item ∈ items, Utf8 item) : Utf8 (listOf items) :=
  ((utf8_joined h).cons (by decide)).append (utf8_nil.cons (by decide))

theorem membersText_objectOf (members : List (Bytes × Bytes)) :
    MembersText members (objectOf members) := by
  refine .object ?_ (itemsText_joined _)
  induction members with
  | nil => exact .nil
  | cons m members ih =>
    refine .cons ?_ ih
    have h : MemberText (m.1, m.2) _ := .member blanks_nil blanks_nil
    simpa using h

theorem utf8_objectOf {members : List (Bytes × Bytes)}
    (h : ∀ m ∈ members, Utf8 m.1 ∧ Utf8 m.2) : Utf8 (objectOf members) := by
  have items : ∀ item ∈ members.map fun m => m.1 ++ sym ':' :: m.2, Utf8 item := by
    intro item hitem
    obtain ⟨m, hm, rfl⟩ := List.mem_map.mp hitem
    exact (h m hm).1.append ((h m hm).2.cons (by decide))
  exact ((utf8_joined items).cons (by decide)).append (utf8_nil.cons (by decide))

theorem exists_itemTexts {IsText : α → Bytes → Prop} (h : ∀ x, ∃ t, IsText x t ∧ Utf8 t)
    (xs : List α) : ∃ t, ItemTexts IsText xs t ∧ Utf8 t := by
  choose text htext hutf8 using h
  refine ⟨listOf (xs.map text), ⟨xs.map text, listText_listOf _, ?_⟩, ?_⟩
  · rw [List.forall₂_map_right_iff, List.forall₂_same]
    exact fun x _ => htext x
  · apply utf8_listOf
    intro item hitem
    obtain ⟨x, -, rfl⟩ := List.mem_map.mp hitem
    exact hutf8 x

end CallTrace.Json
