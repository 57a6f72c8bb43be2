import Mathlib.Data.List.Lex

/-!
# The order of strings and of their bytes

Strings are compared character by character.  Their encodings in UTF-8, compared byte by
byte, stand in the same order (`compare_eq_lt_iff_bytes_lt`): of two characters the greater one has
the greater byte at the first place where their encodings differ.
-/

namespace CallTrace

/-- The encoding of a string in UTF-8. -/
def bytes (s : String) : List UInt8 :=
  s.toUTF8.data.toList

theorem bytes_eq_flatMap (s : String) : bytes s = s.toList.flatMap String.utf8EncodeChar := by
  rw [bytes, String.toUTF8_eq_toByteArray, ← String.utf8Encode_toList, List.utf8Encode,
    List.data_toByteArray, List.toList_toArray]

/-! ### Bytes of one character -/

section

variable {a b : Nat} {xs ys : List UInt8}

theorem cons_lt_of_lt (h : a < b) (hb : b < 256) :
    UInt8.ofNat a :: xs < UInt8.ofNat b :: ys := by
  apply List.cons_lt_cons_iff.mpr
  left
  rw [UInt8.lt_iff_toNat_lt, UInt8.toNat_ofNat', UInt8.toNat_ofNat']
  omega

theorem cons_lt_of_eq (h : a = b) (later : xs < ys) :
    UInt8.ofNat a :: xs < UInt8.ofNat b :: ys := by
  apply List.cons_lt_cons_iff.mpr
  right
  exact ⟨congrArg UInt8.ofNat h, later⟩

end

/-- The encodings of different characters differ in a byte, whatever follows them. -/
theorem utf8EncodeChar_append_lt {c d : Char} (h : c < d) (xs ys : List UInt8) :
    String.utf8EncodeChar c ++ xs < String.utf8EncodeChar d ++ ys := by
  have hlt : c.val.toNat < d.val.toNat := h
  have hmax : d.val.toNat < 0x110000 := by
    rcases d.valid with hd | hd
    · exact Nat.lt_trans hd (by decide)
    · exact hd.2
  simp only [String.utf8EncodeChar]
  generalize c.val.toNat = v at hlt
  generalize d.val.toNat = w at hlt hmax
  -- The cases are the numbers of bytes of the two characters.
  by_cases h1 : v ≤ 0x7f
  · rw [if_pos h1]
    split
    · exact cons_lt_of_lt hlt (by omega)
    split
    · exact cons_lt_of_lt (by omega) (by omega)
    split
    · exact cons_lt_of_lt (by omega) (by omega)
    · exact cons_lt_of_lt (by omega) (by omega)
  rw [if_neg h1, if_neg (by omega : ¬ w ≤ 0x7f)]
  by_cases h2 : v ≤ 0x7ff
  · rw [if_pos h2]
    split
    · by_cases h6 : v / 64 = w / 64
      · exact cons_lt_of_eq (by omega) (cons_lt_of_lt (by omega) (by omega))
      · exact cons_lt_of_lt (by omega) (by omega)
    split
    · exact cons_lt_of_lt (by omega) (by omega)
    · exact cons_lt_of_lt (by omega) (by omega)
  rw [if_neg h2, if_neg (by omega : ¬ w ≤ 0x7ff)]
  by_cases h3 : v ≤ 0xffff
  · rw [if_pos h3]
    split
    · by_cases h12 : v / 4096 = w / 4096
      · by_cases h6 : v / 64 = w / 64
        · exact cons_lt_of_eq (by omega)
            (cons_lt_of_eq (by omega) (cons_lt_of_lt (by omega) (by omega)))
        · exact cons_lt_of_eq (by omega) (cons_lt_of_lt (by omega) (by omega))
      · exact cons_lt_of_lt (by omega) (by omega)
    · exact cons_lt_of_lt (by omega) (by omega)
  rw [if_neg h3, if_neg (by omega : ¬ w ≤ 0xffff)]
  by_cases h18 : v / 262144 = w / 262144
  · by_cases h12 : v / 4096 = w / 4096
    · by_cases h6 : v / 64 = w / 64
      · exact cons_lt_of_eq (by omega) (cons_lt_of_eq (by omega)
          (cons_lt_of_eq (by omega) (cons_lt_of_lt (by omega) (by omega))))
      · exact cons_lt_of_eq (by omega)
          (cons_lt_of_eq (by omega) (cons_lt_of_lt (by omega) (by omega)))
    · exact cons_lt_of_eq (by omega) (cons_lt_of_lt (by omega) (by omega))
  · exact cons_lt_of_lt (by omega) (by omega)

/-! ### Strings -/

theorem flatMap_utf8EncodeChar_lt {cs ds : List Char} (h : cs < ds) :
    cs.flatMap String.utf8EncodeChar < ds.flatMap String.utf8EncodeChar := by
  induction cs generalizing ds with
  | nil =>
    cases ds with
    | nil => exact absurd h (List.lt_irrefl [])
    | cons d ds =>
      rw [List.flatMap_nil, List.flatMap_cons]
      cases hbytes : String.utf8EncodeChar d with
      | nil => exact absurd hbytes String.utf8EncodeChar_ne_nil
      | cons byte rest => exact List.nil_lt_cons byte _
  | cons c cs ih =>
    cases ds with
    | nil => exact absurd h (List.not_lt_nil _)
    | cons d ds =>
      rw [List.flatMap_cons, List.flatMap_cons]
      rcases List.cons_lt_cons_iff.mp h with hlt | ⟨rfl, hrest⟩
      · exact utf8EncodeChar_append_lt hlt _ _
      · exact List.append_left_lt (ih hrest)

theorem bytes_lt_of_compare {s t : String} (h : compare s t = .lt) : bytes s < bytes t := by
  have hlt : s.toList < t.toList := String.lt_iff.mp (compareOfLessAndEq_eq_lt.mp h)
  rw [bytes_eq_flatMap, bytes_eq_flatMap]
  exact flatMap_utf8EncodeChar_lt hlt

/-- Strings are compared as their bytes are. -/
theorem compare_eq_lt_iff_bytes_lt {s t : String} : compare s t = .lt ↔ bytes s < bytes t := by
  constructor
  · exact bytes_lt_of_compare
  · intro h
    cases hcompare : compare s t with
    | lt => rfl
    | eq =>
      rw [Std.LawfulEqOrd.eq_of_compare hcompare] at h
      exact absurd h (List.lt_irrefl _)
    | gt =>
      have later := bytes_lt_of_compare (Std.OrientedCmp.gt_iff_lt.mp hcompare)
      exact absurd later (List.lt_asymm h)

end CallTrace
