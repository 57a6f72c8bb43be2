import Mathlib.Data.List.DropRight
import CallTrace.Text.Blank

/-!
# Texts without the blanks around them

A text is some blanks, a core that neither begins nor ends with a blank, and some blanks.  The core
is unique, and it is what trimming gives (`trims_iff`).
-/

namespace CallTrace.Text

/-- The core is the text without the blanks at both ends. -/
structure Trims (text core : List Char) : Prop where
  around : ∃ front back, text = front ++ (core ++ back) ∧
    (∀ c ∈ front, isBlank c = true) ∧ ∀ c ∈ back, isBlank c = true
  first : ∀ c, core.head? = some c → isBlank c = false
  last : ∀ c, core.getLast? = some c → isBlank c = false

variable {text core : List Char}

theorem trim_eq (text : List Char) : trim text = (text.dropWhile isBlank).rdropWhile isBlank := rfl

theorem trims_trim (text : List Char) : Trims text (trim text) where
  around := by
    refine ⟨text.takeWhile isBlank, (text.dropWhile isBlank).rtakeWhile isBlank, ?_, ?_, ?_⟩
    · rw [trim_eq, List.rdropWhile_append_rtakeWhile, List.takeWhile_append_dropWhile]
    · exact fun c => List.mem_takeWhile_imp
    · exact fun c => List.mem_rtakeWhile_imp
  first := by
    intro c hc
    obtain ⟨back, whole⟩ := List.rdropWhile_prefix isBlank (text.dropWhile isBlank)
    have notBlank := List.head?_dropWhile_not isBlank text
    rwa [← whole, ← trim_eq, List.head?_append, hc, Option.some_or] at notBlank
  last := by
    intro c hc
    have some_left : trim text ≠ [] := by
      intro none_left
      rw [none_left] at hc
      cases hc
    rw [List.getLast?_eq_some_getLast some_left, Option.some_inj] at hc
    rw [← hc]
    exact Bool.eq_false_iff.mpr (List.rdropWhile_last_not isBlank _ some_left)

theorem dropWhile_blanks {front rest : List Char} (blank : ∀ c ∈ front, isBlank c = true)
    (first : ∀ c, rest.head? = some c → isBlank c = false) :
    (front ++ rest).dropWhile isBlank = rest := by
  rw [List.dropWhile_append_of_pos blank]
  cases rest with
  | nil => rfl
  | cons c rest => exact List.dropWhile_cons_of_neg (by simp [first c rfl])

/-- No other core is possible. -/
theorem Trims.eq (h : Trims text core) : trim text = core := by
  obtain ⟨⟨front, back, rfl, blank, blank'⟩, first, last⟩ := h
  cases core with
  | nil =>
    have all : ∀ c ∈ front ++ back, isBlank c = true := by
      simpa [or_imp, forall_and] using ⟨blank, blank'⟩
    rw [List.nil_append, trim_eq, List.dropWhile_eq_nil_iff.mpr all, List.rdropWhile_nil]
  | cons c rest =>
    have begins : ∀ d, (c :: rest ++ back).head? = some d → isBlank d = false := by
      rintro d ⟨⟩
      exact first c rfl
    rw [trim_eq, dropWhile_blanks blank begins, List.rdropWhile, List.reverse_append,
      dropWhile_blanks, List.reverse_reverse]
    · simpa using blank'
    · rwa [List.head?_reverse]

theorem trims_iff : Trims text core ↔ trim text = core :=
  ⟨Trims.eq, fun h => h ▸ trims_trim text⟩

end CallTrace.Text
