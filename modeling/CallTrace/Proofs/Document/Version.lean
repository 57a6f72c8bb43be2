import CallTrace.Document.Version
import CallTrace.Proofs.Decimal.Natural
import CallTrace.Proofs.Text.Blank

/-!
# Which versions are accepted

The part of a version that counts is described without the functions that find it
(`IsMajorPart`), and so are the numbers that it may denote.  From this it follows which versions are
accepted and which of the two errors the others meet (`checkVersion_language`).
-/

namespace CallTrace

/-- The front is what stands before the first point of a text; if there is no point, it is the
    whole text. -/
inductive BeforePoint : List Char → List Char → Prop where
  | whole {front : List Char} (no_point : '.' ∉ front) : BeforePoint front front
  | cut {front : List Char} (rest : List Char) (no_point : '.' ∉ front) :
      BeforePoint (front ++ '.' :: rest) front

/-- The text is what counts of a version. -/
def IsMajorPart (version : String) (text : List Char) : Prop :=
  ∃ front, BeforePoint version.toList front ∧ Text.Trims front text

theorem beforePoint_takeWhile (text : List Char) : BeforePoint text (text.takeWhile (· ≠ '.')) := by
  have no_point : '.' ∉ text.takeWhile (· ≠ '.') := by
    intro point
    have := List.mem_takeWhile_imp point
    simp at this
  have whole : text.takeWhile (· ≠ '.') ++ text.dropWhile (· ≠ '.') = text :=
    List.takeWhile_append_dropWhile
  have stop := List.head?_dropWhile_not (· ≠ '.') text
  cases hrest : text.dropWhile (· ≠ '.') with
  | nil =>
    rw [hrest, List.append_nil] at whole
    rw [whole] at no_point ⊢
    exact .whole no_point
  | cons c rest =>
    rw [hrest] at whole stop
    have point : c = '.' := by simpa using stop
    rw [point] at whole
    have cut := BeforePoint.cut rest no_point
    rwa [whole] at cut

theorem BeforePoint.eq {text front : List Char} (h : BeforePoint text front) :
    text.takeWhile (· ≠ '.') = front := by
  cases h with
  | whole no_point => exact List.takeWhile_eq_self_iff.mpr (by grind)
  | cut rest no_point =>
    have before : ∀ c ∈ front, (decide (c ≠ '.')) = true := by grind
    rw [List.takeWhile_append_of_pos before, List.takeWhile_cons_of_neg (by simp),
      List.append_nil]

theorem isMajorPart_iff {version : String} {text : List Char} :
    IsMajorPart version text ↔ text = Text.trim (version.toList.takeWhile (· ≠ '.')) := by
  constructor
  · rintro ⟨front, before, trims⟩
    rw [before.eq]
    exact (Text.trims_iff.mp trims).symm
  · rintro rfl
    exact ⟨_, beforePoint_takeWhile _, Text.trims_iff.mpr rfl⟩

section Outcomes

variable {version : String} {major : List Char} (h : IsMajorPart version major)

include h

theorem majorVersion?_eq_some_iff {n : Nat} :
    majorVersion? version = some n ↔ Decimal.Denotes major n ∧ n < 2 ^ 32 := by
  rw [majorVersion?, ← isMajorPart_iff.mp h]
  exact Decimal.natural?_eq_some_iff

theorem majorVersion?_eq_none_iff :
    majorVersion? version = none ↔ ∀ n, Decimal.Denotes major n → 2 ^ 32 ≤ n := by
  rw [Option.eq_none_iff_forall_ne_some]
  refine forall_congr' fun n => ?_
  rw [ne_eq, majorVersion?_eq_some_iff h, not_and, not_lt]

theorem checkVersion_eq_ok_iff : checkVersion version = .ok () ↔ Decimal.Denotes major 1 := by
  have read := majorVersion?_eq_some_iff h (n := 1)
  rw [and_iff_left (by decide)] at read
  rw [← read, checkVersion]
  cases majorVersion? version with
  | none => simp
  | some n => by_cases supported : n = supportedMajor <;> simp_all [supportedMajor]

theorem checkVersion_eq_invalid_iff :
    checkVersion version = .error (.invalid version) ↔
      (∀ n, ¬ Decimal.Denotes major n) ∨ ∃ n, Decimal.Denotes major n ∧ 2 ^ 32 ≤ n := by
  have unread : checkVersion version = .error (.invalid version) ↔ majorVersion? version = none := by
    rw [checkVersion]
    cases majorVersion? version with
    | none => simp
    | some n => by_cases supported : n = supportedMajor <;> simp [supported]
  rw [unread, majorVersion?_eq_none_iff h]
  constructor
  · intro large
    by_cases denotes : ∃ n, Decimal.Denotes major n
    · obtain ⟨n, hn⟩ := denotes
      exact .inr ⟨n, hn, large n hn⟩
    · exact .inl (not_exists.mp denotes)
  · rintro (none | ⟨n, hn, large⟩) m hm
    · exact absurd hm (none m)
    · rwa [← hn.unique hm]

theorem checkVersion_eq_unsupported_iff :
    checkVersion version = .error (.unsupported version) ↔
      ∃ n, Decimal.Denotes major n ∧ n < 2 ^ 32 ∧ n ≠ 1 := by
  have other : checkVersion version = .error (.unsupported version) ↔
      ∃ n, majorVersion? version = some n ∧ n ≠ 1 := by
    rw [checkVersion]
    cases majorVersion? version with
    | none => simp
    | some n => by_cases supported : n = supportedMajor <;> simp_all [supportedMajor]
  simp only [other, majorVersion?_eq_some_iff h, and_assoc]

end Outcomes

/-- Of a version only the text before its first point counts, without the blanks around it.  The
    version is accepted if this text is an optional plus sign and ASCII digits with the value one,
    however many of them are leading zeros.  It is invalid if the text has another form or a
    value of more than 32 bits, and unsupported with any other value; either error quotes the
    whole version. -/
theorem checkVersion_language (version : String) :
    ∃ major, (∀ text, IsMajorPart version text ↔ text = major) ∧
      (checkVersion version = .ok () ↔ Decimal.Denotes major 1) ∧
      (checkVersion version = .ok () ↔ ∃ zeros,
        major = List.replicate zeros '0' ++ ['1'] ∨
          major = '+' :: List.replicate zeros '0' ++ ['1']) ∧
      (checkVersion version = .error (.invalid version) ↔
        (∀ n, ¬ Decimal.Denotes major n) ∨ ∃ n, Decimal.Denotes major n ∧ 2 ^ 32 ≤ n) ∧
      (checkVersion version = .error (.unsupported version) ↔
        ∃ n, Decimal.Denotes major n ∧ n < 2 ^ 32 ∧ n ≠ 1) ∧
      (VersionFault.invalid version).message =
        "invalid trace format version '" ++ version ++ "'" ∧
      (VersionFault.unsupported version).message =
        "unsupported trace format version " ++ version ++ " (expected 1.x)" := by
  obtain ⟨major, hmajor⟩ : ∃ major, ∀ text, IsMajorPart version text ↔ text = major :=
    ⟨_, fun text => isMajorPart_iff⟩
  have isMajor : IsMajorPart version major := (hmajor major).mpr rfl
  have accepted := checkVersion_eq_ok_iff isMajor
  refine ⟨major, hmajor, accepted, ?_, checkVersion_eq_invalid_iff isMajor,
    checkVersion_eq_unsupported_iff isMajor, rfl, ?_⟩
  · have one : Nat.toDigits 10 1 = ['1'] := by decide
    rw [accepted, Decimal.denotes_iff_zeros, one]
  · have expected : " (expected " ++ (Nat.repr supportedMajor ++ ".x)") = " (expected 1.x)" := by
      cbv
    change "unsupported trace format version " ++ version ++ " (expected "
      ++ Nat.repr supportedMajor ++ ".x)" = _
    simp only [String.append_assoc, expected]

/-- Blanks may stand around the number, but not inside it. -/
example : checkVersion "\u2003+0001 .x.2" = .ok () ∧
    checkVersion "+ 1.0" = .error (.invalid "+ 1.0") ∧
    checkVersion "4294967295" = .error (.unsupported "4294967295") ∧
    checkVersion "4294967296" = .error (.invalid "4294967296") := by
  refine ⟨?_, ?_, ?_, ?_⟩ <;> cbv

end CallTrace
