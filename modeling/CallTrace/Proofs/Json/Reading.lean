import CallTrace.Json.Decoder
import CallTrace.Proofs.Json.Skipping

/-!
# Decoders read what the grammar writes

A decoder reads a kind of texts if it takes each of them to its end and gives the value that it
stands for, whatever follows (`Decoder.Reads`).  There is one lemma for each decoder of single
values and for lists; records are read member by member.
-/

namespace CallTrace.Json

variable {α : Type} {d : Decoder α} {IsText : α → Bytes → Prop} {t rest text : Bytes}

/-- The texts for a value begin like a value. -/
def Starts (IsText : α → Bytes → Prop) : Prop :=
  ∀ x t, IsText x t → ∃ b t', t = b :: t' ∧ b ∉ delimiters

/-- Every text for a value is decoded as this value. -/
structure Decoder.Reads (d : Decoder α) (IsText : α → Bytes → Prop) : Prop where
  starts : Starts IsText
  run : ∀ x t, IsText x t → ∀ w rest, Blanks w → Ends rest →
    d.run (w ++ (t ++ rest)) = .ok (x, rest)

theorem trimFront_start {b : UInt8} (hb : b ∉ delimiters) {w : Bytes} (hw : Blanks w) (t : Bytes) :
    trimFront (w ++ b :: t) = b :: t := by
  rw [trimFront_blanks hw, trimFront_cons (isSpace_of_not_mem hb)]

/-- The first byte of a text in quotes or brackets. -/
theorem trimFront_enclosed {b c : UInt8} (hb : b ∉ delimiters) {w : Bytes} (hw : Blanks w)
    (t rest : Bytes) : trimFront (w ++ (b :: t ++ [c] ++ rest)) = b :: (t ++ c :: rest) := by
  rw [List.append_assoc, List.cons_append]
  exact trimFront_start hb hw _

/-- Blanks around a value make no difference. -/
theorem Decoder.Reads.decode (h : d.Reads IsText) {x : α} (ht : Alone (IsText x) text) :
    d.decode text = .ok x := by
  obtain ⟨w, t, w', hw, hw', ht, rfl⟩ := ht
  have hends := hw'.ends_append ends_nil
  have done := trimFront_blanks hw' []
  rw [List.append_nil] at hends done
  rw [Decoder.decode, h.run x t ht w w' hw hends]
  simp only [done]
  rfl

/-! ### Single values -/

theorem Decoder.reads_string : Decoder.string.Reads StringText := by
  constructor
  · rintro value _ ⟨s, -, rfl⟩
    exact ⟨_, _, rfl, by decide⟩
  · rintro value _ ⟨s, hs, rfl⟩ w rest hw _
    change readString _ = _
    rw [readString, trimFront_enclosed (by decide) hw]
    simp only [if_true]
    exact string_of_chars hs rest

theorem starts_naturalText (n : Nat) :
    ∃ b t, naturalText n = b :: t ∧ sym '0' ≤ b ∧ b ≤ sym '9' :=
  (naturalText_spec n).1.exists_cons

theorem readWord_naturalText {bound n : Nat} (h : n < bound) (hbound : bound ≤ UInt64.size)
    (wanted : String) {w : Bytes} (hw : Blanks w) (hrest : Ends rest) :
    readWord bound wanted (w ++ (naturalText n ++ rest)) = .ok (n, rest) := by
  have hnumber := number_naturalText (Nat.lt_of_lt_of_le h hbound) hrest
  obtain ⟨b, t, heq, hdigit⟩ := starts_naturalText n
  rw [heq, List.cons_append] at hnumber ⊢
  rw [readWord, trimFront_start (not_mem_delimiters_of_digit hdigit) hw]
  simp only [isDigit_iff.mpr hdigit, or_true, if_true, hnumber, Number.word, if_pos h]
  rfl

/-- A word of any width up to 64 bits is read back. -/
theorem Decoder.reads_word {bound : Nat} (hbound : bound ≤ UInt64.size) (wanted : String)
    {ofNat : Nat → α} {toNat : α → Nat} (lt : ∀ x, toNat x < bound)
    (inverse : ∀ x, ofNat (toNat x) = x) :
    (Decoder.map ofNat ⟨readWord bound wanted, readWord_length⟩).Reads
      fun x t => t = naturalText (toNat x) := by
  constructor
  · rintro x _ rfl
    obtain ⟨b, t, heq, hdigit⟩ := starts_naturalText (toNat x)
    exact ⟨b, t, heq, not_mem_delimiters_of_digit hdigit⟩
  · rintro x _ rfl w rest hw hrest
    have read := readWord_naturalText (lt x) hbound wanted hw hrest
    simp only [Decoder.map, read, inverse]

theorem Decoder.reads_word32 : Decoder.word32.Reads Word32Text :=
  reads_word (by decide) "u32" UInt32.toNat_lt_size fun _ => UInt32.ofNat_toNat

theorem Decoder.reads_word64 : Decoder.word64.Reads Word64Text :=
  reads_word (by decide) "u64" UInt64.toNat_lt_size fun _ => UInt64.ofNat_toNat

/-- Nothing is written as `null`. -/
inductive NullableText (IsText : α → Bytes → Prop) : Option α → Bytes → Prop where
  | none : NullableText IsText none (ascii "null")
  | some {x : α} {t : Bytes} (h : IsText x t) : NullableText IsText (some x) t

theorem Decoder.Reads.nullable (h : d.Reads IsText)
    (noNull : ∀ x t, IsText x t → t.head? ≠ some (sym 'n')) :
    d.nullable.Reads (NullableText IsText) := by
  constructor
  · intro x t ht
    cases ht with
    | none => exact ⟨_, _, rfl, by decide⟩
    | some ht => exact h.starts _ t ht
  · intro x t ht w rest hw hrest
    change readNullable d _ = _
    cases ht with
    | none =>
      have start : trimFront (w ++ (ascii "null" ++ rest)) = sym 'n' :: (ascii "ull" ++ rest) :=
        trimFront_start (by decide) hw _
      rw [readNullable, start]
      rfl
    | some ht =>
      have read := h.run _ t ht [] rest blanks_nil hrest
      have other := noNull _ t ht
      obtain ⟨b, t', rfl, hb⟩ := h.starts _ t ht
      have hne : b ≠ sym 'n' := fun heq => other (congrArg some heq)
      rw [List.nil_append, List.cons_append] at read
      rw [readNullable, List.cons_append, trimFront_start hb hw]
      simp only [if_neg hne, read]

theorem Decoder.reads_choice {options : List (String × α)} {name : α → String}
    (h : ∀ x, options.lookup (name x) = some x) :
    (Decoder.choice options).Reads fun x => StringText (name x) := by
  constructor
  · intro x t ht
    exact Decoder.reads_string.starts _ t ht
  · rintro x _ ⟨s, hs, rfl⟩ w rest hw _
    change readChoice options _ = _
    rw [readChoice, trimFront_enclosed (by decide) hw]
    simp only [if_true, string_of_chars hs, chosen, h]
    rfl

/-! ### Lists -/

theorem nextElement_of_lead {first : Bool} {lead : Bytes} (h : LeadText first lead) {b : UInt8}
    (hb : b ∉ delimiters) (t : Bytes) :
    nextElement first (lead ++ b :: t) = .ok (true, b :: t) := by
  have hclose : b ≠ sym ']' := by
    rintro rfl
    exact hb (by decide)
  cases h with
  | first h =>
    rw [nextElement, trimFront_start hb h]
    simp only [if_neg hclose, if_true]
  | next h h' =>
    rename_i w w'
    have comma : trimFront (w ++ sym ',' :: w' ++ b :: t) = sym ',' :: (w' ++ b :: t) := by
      rw [List.append_assoc, trimFront_blanks h, List.cons_append, trimFront_cons rfl]
    rw [nextElement, comma]
    simp only [trimFront_start hb h', if_neg hclose]
    rfl

theorem nextElement_item {first : Bool} {lead item : Bytes} (h : LeadText first lead)
    (hitem : ∃ b t, item = b :: t ∧ b ∉ delimiters) (t rest : Bytes) :
    nextElement first (lead ++ item ++ t ++ rest) = .ok (true, item ++ (t ++ rest)) := by
  obtain ⟨b, t', rfl, hb⟩ := hitem
  simp only [List.append_assoc]
  exact nextElement_of_lead h hb _

theorem nextElement_of_end (first : Bool) {w : Bytes} (h : Blanks w) (rest : Bytes) :
    nextElement first (w ++ sym ']' :: rest) = .ok (false, sym ']' :: rest) := by
  rw [nextElement, trimFront_blanks h, trimFront_cons rfl]
  rfl

theorem elements_done {first : Bool} {collected : List α}
    (h : nextElement first text = .ok (false, rest)) :
    elements d first collected text = .ok (collected.reverse, rest) := by
  rw [elements]
  grind

theorem elements_next {first : Bool} {collected : List α} {x : α} {after : Bytes}
    (h : nextElement first text = .ok (true, rest)) (hd : d.run rest = .ok (x, after)) :
    elements d first collected text = elements d false (x :: collected) after := by
  rw [elements]
  grind

/-- A list of values, each written in one of its texts. -/
def ItemTexts (IsText : α → Bytes → Prop) (xs : List α) (t : Bytes) : Prop :=
  ∃ items, ListText items t ∧ List.Forall₂ IsText xs items

theorem Decoder.Reads.elements (h : d.Reads IsText) {first : Bool} {xs : List α}
    {items : List Bytes} (ht : ItemsText first items t) (hall : List.Forall₂ IsText xs items)
    (collected : List α) (rest : Bytes) :
    Json.elements d first collected (t ++ sym ']' :: rest) =
      .ok (collected.reverse ++ xs, sym ']' :: rest) := by
  induction hall generalizing first t collected with
  | nil =>
    cases ht with
    | nil hw => rw [elements_done (nextElement_of_end first hw rest), List.append_nil]
  | @cons x item xs items hx _ ih =>
    cases ht with
    | @cons _ lead _ t _ hlead later =>
      have hclosing : sym ']' ∈ delimiters := by decide
      have read := h.run x item hx [] _ blanks_nil (later.ends hclosing rest)
      have next := nextElement_item hlead (h.starts x item hx) t (sym ']' :: rest)
      rw [elements_next next read, ih later, List.reverse_cons, List.append_assoc]
      rfl

theorem Decoder.Reads.list (h : d.Reads IsText) : d.list.Reads (ItemTexts IsText) := by
  constructor
  · rintro xs t ⟨items, ht, -⟩
    obtain ⟨t', rfl⟩ := ht.exists_cons
    exact ⟨_, t', rfl, by decide⟩
  · rintro xs t ⟨items, ht, hall⟩ w rest hw _
    cases ht with
    | @list t ht =>
      change readList d _ = _
      rw [readList, trimFront_enclosed (by decide) hw]
      simp only [if_true, h.elements ht hall [] rest]
      rfl

/-! ### Texts are values -/

theorem StringText.valueText {value : String} (h : StringText value t) : ValueText t :=
  .string h.loose

theorem valueText_naturalText (n : Nat) : ValueText (naturalText n) := by
  have h := NumberText.number (.inl rfl) (wholeText_naturalText n) .none .none
  rw [List.nil_append, List.append_nil, List.append_nil] at h
  exact .number h

theorem Word32Text.valueText {n : UInt32} (h : Word32Text n t) : ValueText t := by
  rw [Word32Text] at h
  rw [h]
  exact valueText_naturalText n.toNat

theorem Word64Text.valueText {n : UInt64} (h : Word64Text n t) : ValueText t := by
  rw [Word64Text] at h
  rw [h]
  exact valueText_naturalText n.toNat

theorem NullableText.valueText (h : ∀ x t, IsText x t → ValueText t) {x : Option α}
    (ht : NullableText IsText x t) : ValueText t := by
  cases ht with
  | none => exact .null
  | some ht => exact h _ t ht

theorem ItemTexts.valueText (h : ∀ x t, IsText x t → ValueText t) {xs : List α}
    (ht : ItemTexts IsText xs t) : ValueText t := by
  obtain ⟨items, ht, hall⟩ := ht
  refine .list ht ?_
  intro item hitem
  obtain ⟨x, -, hx⟩ := exists_of_forall₂_right hall hitem
  exact h x item hx

end CallTrace.Json
