import Mathlib.Data.List.DropRight
import CallTrace.Proofs.Decimal.Natural
import CallTrace.Report

/-!
# Reading reports back

The lines of a report are those of its keys, an empty one and that of the total (`lines_format`).
The line of a key is never empty, so the first empty line ends the keys whatever stands in them.
What follows the last tab of a line is the count, and what stands before it, without the spaces in
front, is the key (`readItem?_itemText`).  So a report can be read back (`read?_format`), as long
as no key contains a line break or begins with a space.
-/

namespace CallTrace.Report

/-! ### Reading -/

/-- Reads the line of a ranked key, which is split at its last tab. -/
def readItem? (line : List Char) : Option RankedKey :=
  (Decimal.numeral? (line.rtakeWhile (· != '\t'))).map fun callCount =>
    { key := String.ofList ((line.rdropWhile (· != '\t')).dropLast.dropWhile (· == ' '))
      callCount }

/-- Reads the line of the total, which begins with it. -/
def readTotal? (line : List Char) : Option Nat :=
  Decimal.numeral? (line.takeWhile (· != ' '))

/-- Reads lines up to the first empty one, and the total after it. -/
def readLines? : List (List Char) → Option Ranking
  | [] => none
  | [] :: rest => (rest.head?.bind readTotal?).map fun total => { items := [], total }
  | line :: rest =>
    (readItem? line).bind fun item =>
      (readLines? rest).map fun r => { r with items := item :: r.items }

/-- Reads the text of a report. -/
def read? (text : String) : Option Ranking :=
  readLines? (text.toList.splitOn '\n')

/-- A key that stands in one line, and that does not begin like the padding before it. -/
structure Legible (key : String) : Prop where
  oneLine : '\n' ∉ key.toList
  noSpace : key.toList.head? ≠ some ' '

instance (key : String) : Decidable (Legible key) :=
  decidable_of_iff ('\n' ∉ key.toList ∧ key.toList.head? ≠ some ' ')
    ⟨fun h => ⟨h.1, h.2⟩, fun h => ⟨h.oneLine, h.noSpace⟩⟩

/-! ### Lines -/

/-- The line of a ranked key, without its end. -/
def itemText (item : RankedKey) : List Char :=
  justify item.key.toList ++ '\t' :: Nat.toDigits 10 item.callCount

/-- The line of the total, without its end. -/
def totalText (total : Nat) : List Char :=
  Nat.toDigits 10 total ++ " events total".toList

theorem itemLine_eq (item : RankedKey) : itemLine item = itemText item ++ ['\n'] := by
  rw [itemLine, itemText, List.append_assoc, List.cons_append]

theorem totalLine_eq (total : Nat) : totalLine total = totalText total ++ ['\n'] := by
  rw [totalLine, totalText, List.append_assoc]
  rfl

theorem itemText_ne_nil (item : RankedKey) : itemText item ≠ [] :=
  List.append_ne_nil_of_right_ne_nil _ (List.cons_ne_nil _ _)

theorem notMem_itemText {item : RankedKey} (h : '\n' ∉ item.key.toList) :
    '\n' ∉ itemText item := by
  rw [itemText, justify, List.mem_append, List.mem_append, List.mem_cons]
  rintro ((padding | key) | (tab | count))
  · cases List.eq_of_mem_replicate padding
  · exact h key
  · cases tab
  · exact Decimal.notMem_toDigits rfl item.callCount count

theorem notMem_totalText (total : Nat) : '\n' ∉ totalText total := by
  rw [totalText, List.mem_append, not_or]
  exact ⟨Decimal.notMem_toDigits rfl total, by decide⟩

/-- A line ends where it is split off. -/
theorem splitOn_line {line : List Char} (h : '\n' ∉ line) (rest : List Char) :
    (line ++ '\n' :: rest).splitOn '\n' = line :: rest.splitOn '\n' := by
  apply List.splitOnP_append_cons_of_forall_mem
  · intro c hc
    rw [beq_eq_false_iff_ne]
    rintro rfl
    exact h hc
  · rfl

theorem lines_format {r : Ranking} (h : ∀ item ∈ r.items, '\n' ∉ item.key.toList) :
    (format r).toList.splitOn '\n' = r.items.map itemText ++ [[], totalText r.total, []] := by
  rw [format, String.toList_ofList]
  generalize r.items = items at h
  induction items with
  | nil =>
    rw [List.flatMap_nil, totalLine_eq, List.nil_append, ← List.nil_append ('\n' :: _),
      splitOn_line (List.not_mem_nil), splitOn_line (notMem_totalText r.total)]
    rfl
  | cons item items ih =>
    rw [List.forall_mem_cons] at h
    rw [List.flatMap_cons, itemLine_eq, List.append_assoc, List.append_assoc,
      List.singleton_append, splitOn_line (notMem_itemText h.1), ih h.2]
    rfl

/-! ### Keys and counts -/

theorem passes_of_notMem {separator : Char} {text : List Char} (h : separator ∉ text) :
    ∀ c ∈ text, (c != separator) = true := by
  intro c hc
  rw [bne_iff_ne]
  rintro rfl
  exact h hc

section Line

variable {front count : List Char}

theorem reverse_line (front count : List Char) :
    (front ++ '\t' :: count).reverse = count.reverse ++ '\t' :: front.reverse := by
  rw [List.reverse_append, List.reverse_cons, List.append_assoc, List.singleton_append]

/-- The count is what follows the last tab. -/
theorem rtakeWhile_line (h : '\t' ∉ count) :
    (front ++ '\t' :: count).rtakeWhile (· != '\t') = count := by
  have passes := passes_of_notMem (List.mem_reverse.not.mpr h)
  rw [List.rtakeWhile, reverse_line, List.takeWhile_append_of_pos passes,
    List.takeWhile_cons_of_neg (by decide), List.append_nil, List.reverse_reverse]

theorem rdropWhile_line (h : '\t' ∉ count) :
    (front ++ '\t' :: count).rdropWhile (· != '\t') = front ++ ['\t'] := by
  have passes := passes_of_notMem (List.mem_reverse.not.mpr h)
  rw [List.rdropWhile, reverse_line, List.dropWhile_append_of_pos passes,
    List.dropWhile_cons_of_neg (by decide), List.reverse_cons, List.reverse_reverse]

end Line

theorem dropWhile_justify {key : List Char} (h : key.head? ≠ some ' ') :
    (justify key).dropWhile (· == ' ') = key := by
  have padding : ∀ c ∈ List.replicate (nameColumnWidth - key.length) ' ', (c == ' ') = true := by
    intro c hc
    rw [List.eq_of_mem_replicate hc]
    rfl
  rw [justify, List.dropWhile_append_of_pos padding]
  cases key with
  | nil => rfl
  | cons c rest =>
    have first : ¬ (c == ' ') = true := by
      rw [beq_iff_eq]
      rintro rfl
      exact h rfl
    exact List.dropWhile_cons_of_neg first

theorem readItem?_itemText {item : RankedKey} (h : Legible item.key) :
    readItem? (itemText item) = some item := by
  have digits := Decimal.notMem_toDigits (c := '\t') rfl item.callCount
  rw [readItem?, itemText, rtakeWhile_line digits, rdropWhile_line digits,
    Decimal.numeral?_toDigits, List.dropLast_concat, dropWhile_justify h.noSpace,
    String.ofList_toList]
  rfl

theorem readTotal?_totalText (total : Nat) : readTotal? (totalText total) = some total := by
  have digits := passes_of_notMem (Decimal.notMem_toDigits (c := ' ') rfl total)
  have stops : " events total".toList.takeWhile (· != ' ') = [] := by decide
  rw [readTotal?, totalText, List.takeWhile_append_of_pos digits, stops, List.append_nil,
    Decimal.numeral?_toDigits]

/-! ### Whole reports -/

theorem readLines?_item {line : List Char} (h : line ≠ []) (rest : List (List Char)) :
    readLines? (line :: rest) =
      (readItem? line).bind fun item =>
        (readLines? rest).map fun r => { r with items := item :: r.items } := by
  rw [readLines?]
  exact h

theorem read?_format {r : Ranking} (h : ∀ item ∈ r.items, Legible item.key) :
    read? (format r) = some r := by
  rw [read?, lines_format fun item hitem => (h item hitem).oneLine]
  obtain ⟨items, total⟩ := r
  induction items with
  | nil =>
    rw [List.map_nil, List.nil_append, readLines?, List.head?_cons, Option.bind_some,
      readTotal?_totalText]
    rfl
  | cons item items ih =>
    rw [List.forall_mem_cons] at h
    rw [List.map_cons, List.cons_append, readLines?_item (itemText_ne_nil item),
      readItem?_itemText h.1, ih h.2]
    rfl

/-- A report can be read back as long as each key stands in one line and does not begin with a
    space, so it tells rankings of such keys apart.  Up to the empty line, each of its lines is a
    key with its padding, a tab and the count, and no such line is empty; the total follows. -/
theorem format_faithful :
    (∀ r : Ranking, (∀ item ∈ r.items, Legible item.key) → read? (format r) = some r) ∧
    (∀ r other : Ranking, (∀ item ∈ r.items, Legible item.key) →
      (∀ item ∈ other.items, Legible item.key) → format r = format other → r = other) ∧
    ∀ r : Ranking, (∀ item ∈ r.items, '\n' ∉ item.key.toList) →
      ∃ lines, lines = (r.items.map fun item =>
          item.key.toList.leftpad 60 ' ' ++ '\t' :: Nat.toDigits 10 item.callCount) ∧
        [] ∉ lines ∧
        (format r).toList.splitOn '\n' =
          lines ++ [[], Nat.toDigits 10 r.total ++ " events total".toList, []] := by
  refine ⟨fun r => read?_format, ?_, ?_⟩
  · intro r other h hother same
    have read := read?_format h
    rw [same, read?_format hother] at read
    exact (Option.some.inj read).symm
  · intro r h
    refine ⟨r.items.map itemText, rfl, ?_, lines_format h⟩
    intro empty
    obtain ⟨item, -, hitem⟩ := List.mem_map.mp empty
    exact itemText_ne_nil item hitem

/-- Keys with a tab and digits, with the words of the last line, and without characters. -/
def tabbed : Ranking :=
  ⟨[⟨"nt\t7", 12⟩, ⟨"3 events total", 0⟩, ⟨"", 5⟩], 7⟩

/-- Another ranking, whose first line has the same digits. -/
def untabbed : Ranking :=
  ⟨[⟨"nt", 712⟩, ⟨"3 events total", 0⟩, ⟨"", 5⟩], 7⟩

/-- Where the tab stands makes a difference. -/
theorem format_faithful_tabbed :
    (∀ item ∈ tabbed.items, Legible item.key) ∧ (∀ item ∈ untabbed.items, Legible item.key) ∧
      read? (format tabbed) = some tabbed ∧ format tabbed ≠ format untabbed ∧
      ((format tabbed).toList.splitOn '\n').length = 6 := by
  have legible : ∀ item ∈ tabbed.items, Legible item.key := by decide
  have legible' : ∀ item ∈ untabbed.items, Legible item.key := by decide
  obtain ⟨readBack, tellsApart, inLines⟩ := format_faithful
  refine ⟨legible, legible', readBack tabbed legible, ?_, ?_⟩
  · intro same
    have equal := tellsApart tabbed untabbed legible legible' same
    exact absurd equal (by decide)
  · obtain ⟨lines, hlines, -, split⟩ :=
      inLines tabbed fun item hitem => (legible item hitem).oneLine
    rw [split, hlines]
    rfl

end CallTrace.Report
