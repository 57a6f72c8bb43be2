import CallTrace.Proofs.Json.Grammar

/-!
# Reading strings

A string is read back from every text that the grammar has for it (`string_of_text`), and a
string that is not decoded is skipped in every spelling (`skipString_of_chars`).  Where a string is
decoded, skipping it leads to the same rest (`skipString_of_string`).
-/

namespace CallTrace.Json

variable {c : Char} {s t rest : Bytes}

/-! ### Escapes -/

theorem hexDigit?_of_isHexDigit {n : Nat} {b : UInt8} (h : IsHexDigit n b) :
    hexDigit? b = some n := by
  have bytes : sym '0' = 48 ∧ sym '9' = 57 ∧ sym 'A' = 65 ∧ sym 'F' = 70 ∧ sym 'a' = 97 ∧
      sym 'f' = 102 := by
    decide
  obtain ⟨h0, h9, hA, hF, ha, hf⟩ := bytes
  simp only [hexDigit?, h0, h9, hA, hF, ha, hf, UInt8.le_iff_toNat_le, UInt8.reduceToNat]
  rcases h with ⟨hn, hb⟩ | ⟨hn, hn', hb | hb⟩
  · rw [if_pos (by omega), hb, Nat.add_sub_cancel_left]
  · rw [if_neg (by omega), if_pos (by omega), hb, Nat.add_sub_cancel_left]
  · rw [if_neg (by omega), if_neg (by omega), if_pos (by omega), hb, Nat.add_sub_cancel_left]

theorem hexUnit_of_text {n : Nat} (h : UnitText n t) (rest : Bytes) :
    hexUnit (t ++ rest) = .ok (n, rest) := by
  cases h with
  | digits ha hb hc hd =>
    simp only [List.cons_append, List.nil_append, hexUnit, hexDigit?_of_isHexDigit ha,
      hexDigit?_of_isHexDigit hb, hexDigit?_of_isHexDigit hc, hexDigit?_of_isHexDigit hd]

theorem simpleEscape?_of_letter {l : Char} (h : (l, c) ∈ letterEscapes) :
    simpleEscape? (sym l) = some c := by
  simp only [letterEscapes, List.mem_cons, Prod.mk.injEq, List.not_mem_nil, or_false] at h
  rcases h with ⟨rfl, rfl⟩ | ⟨rfl, rfl⟩ | ⟨rfl, rfl⟩ | ⟨rfl, rfl⟩ | ⟨rfl, rfl⟩ | ⟨rfl, rfl⟩ |
    ⟨rfl, rfl⟩ | ⟨rfl, rfl⟩ <;> rfl

theorem escape_of_letter {l : Char} (h : (l, c) ∈ letterEscapes) (rest : Bytes) :
    escape (sym l :: rest) = .ok (c, rest) := by
  rw [escape, simpleEscape?_of_letter h]

theorem escape_of_unit (h : UnitText c.toNat t) (rest : Bytes) :
    escape (sym 'u' :: t ++ rest) = .ok (c, rest) := by
  have noHalf : ¬ (0xD800 ≤ c.toNat ∧ c.toNat ≤ 0xDFFF) := by
    rcases c.valid with hc | hc
    · change c.toNat < 0xD800 at hc
      omega
    · have hc : 0xDFFF < c.toNat := hc.1
      omega
  have noTrailing : isTrailingHalf c.toNat = false := by
    rw [isTrailingHalf, decide_eq_false_iff_not]
    omega
  have noLeading : isLeadingHalf c.toNat = false := by
    rw [isLeadingHalf, decide_eq_false_iff_not]
    omega
  have letter : simpleEscape? (sym 'u') = none := rfl
  simp only [List.cons_append, escape, letter, if_true, unicodeEscape, hexUnit_of_text h,
    noTrailing, noLeading, Bool.false_eq_true, if_false]
  rw [Char.ofNat_toNat]

theorem escape_of_pair {leading trailing : Nat} (hleading : 0xD800 ≤ leading ∧ leading ≤ 0xDBFF)
    (htrailing : 0xDC00 ≤ trailing ∧ trailing ≤ 0xDFFF)
    (joined : c.toNat = 0x10000 + (leading - 0xD800) * 0x400 + (trailing - 0xDC00))
    (hs : UnitText leading s) (ht : UnitText trailing t) (rest : Bytes) :
    escape (sym 'u' :: s ++ sym '\\' :: sym 'u' :: t ++ rest) = .ok (c, rest) := by
  have letter : simpleEscape? (sym 'u') = none := rfl
  have noTrailing : isTrailingHalf leading = false := by
    rw [isTrailingHalf, decide_eq_false_iff_not]
    omega
  have isLeading : isLeadingHalf leading = true := decide_eq_true hleading
  have isTrailing : isTrailingHalf trailing = true := decide_eq_true htrailing
  simp only [List.cons_append, List.append_assoc, escape, letter, if_true, unicodeEscape,
    hexUnit_of_text hs, noTrailing, isLeading, Bool.false_eq_true, if_false, trailingHalf,
    hexUnit_of_text ht, isTrailing]
  rw [joinHalves, ← joined, Char.ofNat_toNat]

/-! ### Characters that stand for themselves -/

/-- A byte inside a string that is neither the end of the string nor an escape. -/
def IsPlain (b : UInt8) : Prop :=
  b ≠ sym '"' ∧ b ≠ sym '\\' ∧ ¬ b < 0x20

theorem isPlain_iff {b : UInt8} : IsPlain b ↔ b.toNat ≠ 34 ∧ b.toNat ≠ 92 ∧ 0x20 ≤ b.toNat := by
  have bytes : sym '"' = UInt8.ofNat 34 ∧ sym '\\' = UInt8.ofNat 92 := by decide
  rw [IsPlain, bytes.1, bytes.2, ← UInt8.toNat_inj.ne, ← UInt8.toNat_inj.ne, UInt8.not_lt,
    UInt8.le_iff_toNat_le]
  rfl

theorem isPlain_of_mem_utf8EncodeChar (printable : 0x20 ≤ c.toNat) (noQuote : c ≠ '"')
    (noEscape : c ≠ '\\') {b : UInt8} (h : b ∈ String.utf8EncodeChar c) : IsPlain b := by
  have hmax : c.val.toNat < 0x110000 := by
    rcases c.valid with hc | hc
    · exact Nat.lt_trans hc (by decide)
    · exact hc.2
  have noQuote' : c.val.toNat ≠ 34 := by
    intro h
    exact noQuote (Char.ext (UInt32.toNat_inj.mp h))
  have noEscape' : c.val.toNat ≠ 92 := by
    intro h
    exact noEscape (Char.ext (UInt32.toNat_inj.mp h))
  change 0x20 ≤ c.val.toNat at printable
  rw [isPlain_iff]
  simp only [String.utf8EncodeChar] at h
  -- Only the bytes of an ASCII character are below 128.
  split at h
  · rw [List.mem_singleton] at h
    subst h
    rw [UInt8.toNat_ofNat']
    omega
  split at h
  · simp only [List.mem_cons, List.not_mem_nil, or_false] at h
    rcases h with rfl | rfl <;> rw [UInt8.toNat_ofNat'] <;> omega
  split at h
  · simp only [List.mem_cons, List.not_mem_nil, or_false] at h
    rcases h with rfl | rfl | rfl <;> rw [UInt8.toNat_ofNat'] <;> omega
  · simp only [List.mem_cons, List.not_mem_nil, or_false] at h
    rcases h with rfl | rfl | rfl | rfl <;> rw [UInt8.toNat_ofNat'] <;> omega

theorem stringBytes_plain (h : ∀ b ∈ s, IsPlain b) (collected : ByteArray) (rest : Bytes) :
    stringBytes collected (s ++ rest) = stringBytes (collected ++ s.toByteArray) rest := by
  induction s generalizing collected with
  | nil => simp
  | cons b s ih =>
    obtain ⟨⟨noQuote, noEscape, printable⟩, later⟩ := List.forall_mem_cons.mp h
    have pushed : collected.push b ++ s.toByteArray = collected ++ (b :: s).toByteArray := by
      apply ByteArray.ext
      simp
    rw [List.cons_append, stringBytes, if_neg noQuote, if_neg noEscape, if_neg printable,
      ih later, pushed]

/-! ### Decoded strings -/

theorem stringBytes_escape (h : escape t = .ok (c, rest)) (collected : ByteArray) :
    stringBytes collected (sym '\\' :: t) = stringBytes (collected ++ [c].utf8Encode) rest := by
  rw [stringBytes, if_neg (by decide), if_pos rfl]
  split
  · rename_i fault hfault
    rw [h] at hfault
    cases hfault
  · rename_i c' rest' hread
    rw [h] at hread
    cases hread
    rw [String.toUTF8_eq_toByteArray, String.toByteArray_singleton]

theorem stringBytes_char (h : CharText c s) (collected : ByteArray) (rest : Bytes) :
    stringBytes collected (s ++ rest) = stringBytes (collected ++ [c].utf8Encode) rest := by
  cases h with
  | plain printable noQuote noEscape =>
    have encoded : (String.utf8EncodeChar c).toByteArray = [c].utf8Encode := by
      rw [List.utf8Encode, List.flatMap_singleton]
    rw [stringBytes_plain (fun b => isPlain_of_mem_utf8EncodeChar printable noQuote noEscape),
      encoded]
  | letter h => exact stringBytes_escape (escape_of_letter h rest) collected
  | unit h => exact stringBytes_escape (escape_of_unit h rest) collected
  | pair hleading htrailing joined hs ht =>
    exact stringBytes_escape (escape_of_pair hleading htrailing joined hs ht rest) collected

theorem stringBytes_of_chars {cs : List Char} (h : CharsText cs s) (collected : ByteArray)
    (rest : Bytes) :
    stringBytes collected (s ++ sym '"' :: rest) = .ok (collected ++ cs.utf8Encode, rest) := by
  induction h generalizing collected with
  | nil =>
    rw [List.nil_append, stringBytes, if_pos rfl]
    simp
  | @cons c cs s t first _ ih =>
    rw [List.append_assoc, stringBytes_char first, ih, ByteArray.append_assoc,
      ← List.utf8Encode_cons]

/-- A string is read back from every text for it. -/
theorem string_of_chars {value : String} (h : CharsText value.toList s) (rest : Bytes) :
    string (s ++ sym '"' :: rest) = .ok (value, rest) := by
  have decoded : String.fromUTF8? (ByteArray.empty ++ value.toList.utf8Encode) = some value := by
    rw [ByteArray.empty_append, String.utf8Encode_toList]
    exact dif_pos value.isValidUTF8
  rw [string, stringBytes_of_chars h]
  simp only [decoded]

/-! ### Skipped strings -/

theorem skipString_plain (h : ∀ b ∈ s, IsPlain b) (rest : Bytes) :
    skipString (s ++ rest) = skipString rest := by
  induction s with
  | nil => rfl
  | cons b s ih =>
    obtain ⟨⟨noQuote, noEscape, printable⟩, later⟩ := List.forall_mem_cons.mp h
    rw [List.cons_append, skipString, if_neg noQuote, if_neg noEscape, if_neg printable, ih later]

theorem skipString_escape (h : skipEscape t = .ok rest) :
    skipString (sym '\\' :: t) = skipString rest := by
  rw [skipString, if_neg (by decide), if_pos rfl]
  split
  · rename_i fault hfault
    rw [h] at hfault
    cases hfault
  · rename_i rest' hskip
    rw [h] at hskip
    cases hskip
    rfl

theorem skipString_letter {b : UInt8} (h : simpleEscape? b = some c) (rest : Bytes) :
    skipString (sym '\\' :: b :: rest) = skipString rest := by
  apply skipString_escape
  rw [skipEscape, h]
  rfl

theorem skipString_hexUnit {n : Nat} (h : hexUnit t = .ok (n, rest)) :
    skipString (sym '\\' :: sym 'u' :: t) = skipString rest := by
  apply skipString_escape
  have letter : simpleEscape? (sym 'u') = none := rfl
  rw [skipEscape, letter, h]
  rfl

theorem skipString_unit {n : Nat} (h : UnitText n t) (rest : Bytes) :
    skipString (sym '\\' :: sym 'u' :: t ++ rest) = skipString rest :=
  skipString_hexUnit (hexUnit_of_text h rest)

theorem skipString_char (h : CharText c s) (rest : Bytes) :
    skipString (s ++ rest) = skipString rest := by
  cases h with
  | plain printable noQuote noEscape =>
    exact skipString_plain
      (fun b => isPlain_of_mem_utf8EncodeChar printable noQuote noEscape) rest
  | letter h => exact skipString_letter (simpleEscape?_of_letter h) rest
  | unit h => exact skipString_unit h rest
  | pair _ _ _ hs ht =>
    rw [List.append_assoc, skipString_unit hs, skipString_unit ht]

theorem skipString_of_chars (h : LooseChars s) (rest : Bytes) :
    skipString (s ++ sym '"' :: rest) = .ok rest := by
  induction h with
  | nil => rw [List.nil_append, skipString, if_pos rfl]
  | char first _ ih => rw [List.append_assoc, skipString_char first, ih]
  | unit first _ ih => rw [List.append_assoc, skipString_unit first, ih]

theorem CharsText.loose {cs : List Char} (h : CharsText cs s) : LooseChars s := by
  induction h with
  | nil => exact .nil
  | cons first _ ih => exact .char first ih

theorem StringText.loose {value : String} (h : StringText value t) : LooseText t := by
  obtain ⟨s, hs, rfl⟩ := h
  exact ⟨s, hs.loose, rfl⟩

/-! ### Decoded strings can be skipped -/

theorem exists_hexUnit_of_trailingHalf {leading : Nat}
    (h : trailingHalf leading t = .ok (c, rest)) :
    ∃ m t', t = sym '\\' :: sym 'u' :: t' ∧ hexUnit t' = .ok (m, rest) := by
  rcases t with _ | ⟨b, t⟩
  · cases h
  by_cases hb : b = sym '\\'
  · rw [trailingHalf.eq_def] at h
    simp only [if_pos hb] at h
    rcases t with _ | ⟨b', t⟩
    · cases h
    by_cases hb' : b' = sym 'u'
    · simp only [if_pos hb'] at h
      split at h
      · cases h
      rename_i m r hunit
      split at h
      · simp only [Except.ok.injEq, Prod.mk.injEq] at h
        obtain ⟨-, rfl⟩ := h
        exact ⟨m, t, by rw [hb, hb'], hunit⟩
      · cases h
    · simp only [if_neg hb'] at h
      cases h
  · rw [trailingHalf.eq_def] at h
    simp only [if_neg hb] at h
    cases h

theorem skipString_of_escape (h : escape t = .ok (c, rest)) :
    skipString (sym '\\' :: t) = skipString rest := by
  rcases t with _ | ⟨b, t⟩
  · cases h
  rw [escape] at h
  split at h
  · rename_i letter
    cases h
    exact skipString_letter letter _
  split at h
  · rename_i hb
    subst hb
    rw [unicodeEscape] at h
    split at h
    · cases h
    rename_i n r hunit
    rw [skipString_hexUnit hunit]
    split at h
    · cases h
    split at h
    · -- The other half of the pair is an escape of its own.
      obtain ⟨m, t', rfl, hother⟩ := exists_hexUnit_of_trailingHalf h
      exact skipString_hexUnit hother
    · cases h
      rfl
  · cases h

theorem skipString_of_stringBytes {collected bytes : ByteArray}
    (h : stringBytes collected t = .ok (bytes, rest)) : skipString t = .ok rest := by
  fun_induction stringBytes collected t with
  | case1 => cases h
  | case2 =>
    cases h
    rw [skipString, if_pos rfl]
  | case3 => cases h
  | case4 =>
    rename_i hread _ ih
    rw [skipString_of_escape hread, ih h]
  | case5 => cases h
  | case6 collected b t noQuote noEscape printable ih =>
    rw [skipString, if_neg noQuote, if_neg noEscape, if_neg printable, ih h]

theorem skipString_of_string {value : String} (h : string t = .ok (value, rest)) :
    skipString t = .ok rest := by
  rw [string] at h
  split at h
  · cases h
  rename_i bytes after hbytes
  split at h
  · cases h
    exact skipString_of_stringBytes hbytes
  · cases h

end CallTrace.Json
