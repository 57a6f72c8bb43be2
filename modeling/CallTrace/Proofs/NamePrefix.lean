import CallTrace.Call
import CallTrace.Proofs.Text.LetterCase

/-!
# Where names are cut

A name is cut before the first capital letter that follows a small letter, if there is one
(`secondWord?`, `beforeChange_upper`).  Reading goes on or stops at a character whatever comes after
it (`beforeChange_cons`).  So cutting a name at a length and cutting it to its leading words can
be done in either order (`beforeChange_take`), and what is cut off makes no difference
(`beforeChange_append`).
-/

namespace CallTrace

open Text

/-- The place at which the second word of a name begins: that of the first capital letter after
    the first small letter. -/
def secondWord? (name : List Char) : Option Nat :=
  (name.findIdx? isLower).bind fun i => ((name.drop (i + 1)).findIdx? isUpper).map (i + 1 + ·)

/-- A text with others inserted: `gap i` stands before the character at `i`, and the last one at
    the end. -/
def spaced (gap : Nat → List Char) : List Char → List Char
  | [] => gap 0
  | c :: rest => gap 0 ++ c :: spaced (fun i => gap (i + 1)) rest

section Reading

variable {allowed : Nat} {current : LetterCase} {c : Char} {name rest : List Char}

/-! ### One character -/

theorem beforeChange_caseless (h : LetterCase.of? c = none) (rest : List Char) :
    beforeChange allowed current (c :: rest) = c :: beforeChange allowed current rest := by
  rw [beforeChange, h]

theorem beforeChange_same (h : LetterCase.of? c = some current) (rest : List Char) :
    beforeChange allowed current (c :: rest) = c :: beforeChange allowed current rest := by
  simp only [beforeChange, h, if_true]

theorem beforeChange_change {case : LetterCase} (h : LetterCase.of? c = some case)
    (changes : case ≠ current) (rest : List Char) :
    beforeChange (allowed + 1) current (c :: rest) = c :: beforeChange allowed case rest := by
  simp only [beforeChange, h, if_neg changes]

theorem beforeChange_stop {case : LetterCase} (h : LetterCase.of? c = some case)
    (changes : case ≠ current) (rest : List Char) :
    beforeChange 0 current (c :: rest) = [] := by
  simp only [beforeChange, h, if_neg changes]

/-- Whether a character is kept, and how reading goes on after it, does not depend on what
    follows. -/
theorem beforeChange_cons (allowed : Nat) (current : LetterCase) (c : Char) :
    (∃ left case, ∀ rest,
      beforeChange allowed current (c :: rest) = c :: beforeChange left case rest) ∨
    ∀ rest, beforeChange allowed current (c :: rest) = [] := by
  cases h : LetterCase.of? c with
  | none => exact .inl ⟨allowed, current, beforeChange_caseless h⟩
  | some case =>
    by_cases same : case = current
    · subst same
      exact .inl ⟨allowed, case, beforeChange_same h⟩
    · cases allowed with
      | zero => exact .inr (beforeChange_stop h same)
      | succ left => exact .inl ⟨left, case, beforeChange_change h same⟩

/-! ### Whole names -/

theorem beforeChange_front (allowed : Nat) (current : LetterCase) (name : List Char) :
    beforeChange allowed current name <+: name := by
  induction name generalizing allowed current with
  | nil => exact List.prefix_refl _
  | cons c rest ih =>
    rcases beforeChange_cons allowed current c with ⟨left, case, keeps⟩ | stops
    · rw [keeps, List.prefix_cons_inj]
      exact ih left case
    · rw [stops]
      exact List.nil_prefix

theorem beforeChange_take (allowed : Nat) (current : LetterCase) (name : List Char) (n : Nat) :
    beforeChange allowed current (name.take n) = (beforeChange allowed current name).take n := by
  induction name generalizing allowed current n with
  | nil => rw [List.take_nil, beforeChange, List.take_nil]
  | cons c rest ih =>
    cases n with
    | zero => rfl
    | succ n =>
      rw [List.take_succ_cons]
      rcases beforeChange_cons allowed current c with ⟨left, case, keeps⟩ | stops
      · rw [keeps, keeps, List.take_succ_cons, ih]
      · rw [stops, stops, List.take_nil]

/-- What was read is read again as it is. -/
theorem beforeChange_idem (allowed : Nat) (current : LetterCase) (name : List Char) :
    beforeChange allowed current (beforeChange allowed current name) =
      beforeChange allowed current name := by
  have front := List.prefix_iff_eq_take.mp (beforeChange_front allowed current name)
  calc beforeChange allowed current (beforeChange allowed current name)
      = beforeChange allowed current (name.take (beforeChange allowed current name).length) := by
        rw [← front]
    _ = (beforeChange allowed current name).take (beforeChange allowed current name).length :=
        beforeChange_take allowed current name _
    _ = beforeChange allowed current name := List.take_length

/-- Once reading has stopped, nothing that follows the name is looked at. -/
theorem beforeChange_append (short : (beforeChange allowed current name).length < name.length)
    (more : List Char) :
    beforeChange allowed current (name ++ more) = beforeChange allowed current name := by
  have front := beforeChange_take allowed current (name ++ more) name.length
  rw [List.take_left] at front
  rw [front, List.length_take] at short
  rw [front, List.take_of_length_le (by omega)]

/-- Reading goes on through a run of one case. -/
theorem beforeChange_run {run : List Char}
    (within : ∀ c ∈ run, ∀ case, LetterCase.of? c = some case → case = current)
    (rest : List Char) :
    beforeChange allowed current (run ++ rest) = run ++ beforeChange allowed current rest := by
  induction run with
  | nil => rfl
  | cons c run ih =>
    rw [List.forall_mem_cons] at within
    have keeps : ∀ rest, beforeChange allowed current (c :: rest) =
        c :: beforeChange allowed current rest := by
      cases h : LetterCase.of? c with
      | none => exact beforeChange_caseless h
      | some case =>
        cases within.1 case h
        exact beforeChange_same h
    rw [List.cons_append, keeps, ih within.2, List.cons_append]

theorem beforeChange_caseless_append {inserted : List Char}
    (caseless : ∀ c ∈ inserted, LetterCase.of? c = none) (allowed : Nat) (current : LetterCase)
    (rest : List Char) :
    beforeChange allowed current (inserted ++ rest) =
      inserted ++ beforeChange allowed current rest := by
  apply beforeChange_run
  intro c hc case h
  rw [caseless c hc] at h
  cases h

/-- Caseless characters stay where they are inserted, up to the place of the cut. -/
theorem beforeChange_spaced {gap : Nat → List Char}
    (caseless : ∀ i, ∀ c ∈ gap i, LetterCase.of? c = none) (allowed : Nat)
    (current : LetterCase) (name : List Char) :
    beforeChange allowed current (spaced gap name) =
      spaced gap (beforeChange allowed current name) := by
  induction name generalizing gap allowed current with
  | nil =>
    have all := beforeChange_caseless_append (caseless 0) allowed current []
    rwa [List.append_nil, beforeChange, List.append_nil] at all
  | cons c rest ih =>
    rw [spaced, beforeChange_caseless_append (caseless 0)]
    rcases beforeChange_cons allowed current c with ⟨left, case, keeps⟩ | stops
    · rw [keeps, keeps, spaced, ih fun i => caseless (i + 1)]
    · rw [stops, stops, spaced, List.append_nil]

/-! ### The place of the cut -/

theorem exists_split_of_findIdx? {p : Char → Bool} {i : Nat} (h : name.findIdx? p = some i) :
    ∃ run c rest, name = run ++ c :: rest ∧ run.length = i ∧ (∀ x ∈ run, p x = false) ∧
      p c = true := by
  induction name generalizing i with
  | nil => cases h
  | cons c rest ih =>
    rw [List.findIdx?_cons] at h
    split at h
    · rename_i hc
      cases h
      exact ⟨[], c, rest, rfl, rfl, nofun, hc⟩
    · rename_i hc
      obtain ⟨i, hi, rfl⟩ := Option.map_eq_some_iff.mp h
      obtain ⟨run, c', rest', rfl, rfl, before, here⟩ := ih hi
      refine ⟨c :: run, c', rest', rfl, rfl, ?_, here⟩
      exact List.forall_mem_cons.mpr ⟨Bool.eq_false_iff.mpr hc, before⟩

theorem beforeChange_run_lower {run : List Char} (noUpper : ∀ c ∈ run, isUpper c = false)
    (allowed : Nat) (rest : List Char) : beforeChange allowed .lower (run ++ rest) =
      run ++ beforeChange allowed .lower rest := by
  apply beforeChange_run
  rintro c hc (_ | _) h
  · rw [LetterCase.of?_eq_upper_iff, noUpper c hc] at h
    cases h
  · rfl

theorem beforeChange_run_upper {run : List Char} (noLower : ∀ c ∈ run, isLower c = false)
    (allowed : Nat) (rest : List Char) : beforeChange allowed .upper (run ++ rest) =
      run ++ beforeChange allowed .upper rest := by
  apply beforeChange_run
  rintro c hc (_ | _) h
  · rfl
  · rw [LetterCase.of?_eq_lower_iff, noLower c hc] at h
    cases h

/-- After a small letter, reading stops at the first capital letter. -/
theorem beforeChange_lower (name : List Char) :
    beforeChange 0 .lower name = (name.findIdx? isUpper).elim name name.take := by
  cases h : name.findIdx? isUpper with
  | none =>
    have whole := beforeChange_run_lower (List.findIdx?_eq_none_iff.mp h) 0 []
    rwa [List.append_nil, beforeChange, List.append_nil] at whole
  | some i =>
    obtain ⟨run, c, rest, rfl, rfl, noUpper, upper⟩ := exists_split_of_findIdx? h
    have changes : LetterCase.upper ≠ .lower := nofun
    rw [beforeChange_run_lower noUpper,
      beforeChange_stop (LetterCase.of?_eq_upper_iff.mpr upper) changes, List.append_nil,
      Option.elim_some, List.take_left]

/-- A name is read up to its second word. -/
theorem beforeChange_upper (name : List Char) :
    beforeChange 1 .upper name = (secondWord? name).elim name name.take := by
  rw [secondWord?]
  cases h : name.findIdx? isLower with
  | none =>
    have whole := beforeChange_run_upper (List.findIdx?_eq_none_iff.mp h) 1 []
    rwa [List.append_nil, beforeChange, List.append_nil] at whole
  | some i =>
    obtain ⟨run, c, rest, rfl, rfl, noLower, lower⟩ := exists_split_of_findIdx? h
    have changes : LetterCase.lower ≠ .upper := nofun
    have first : run.length + 1 = (run ++ [c]).length := by
      rw [List.length_append, List.length_singleton]
    rw [beforeChange_run_upper noLower,
      beforeChange_change (LetterCase.of?_eq_lower_iff.mpr lower) changes, beforeChange_lower,
      Option.bind_some, first, List.append_cons run c rest, List.drop_left]
    cases rest.findIdx? isUpper with
    | none => exact List.append_cons run c rest
    | some k =>
      rw [Option.map_some, Option.elim_some, Option.elim_some, List.take_length_add_append]
      exact List.append_cons run c (rest.take k)

end Reading

/-! ### Leading words -/

theorem toList_namePrefix (name : String) :
    (namePrefix name).toList = beforeChange 1 .upper name.toList :=
  String.toList_ofList

theorem toList_boundName (name : String) :
    (boundName name).toList = name.toList.take functionNameLimit :=
  String.toList_ofList

/-- The leading words of a name are the name itself, or it goes on after them. -/
theorem exists_append_namePrefix (name : String) : ∃ rest, namePrefix name ++ rest = name := by
  obtain ⟨rest, hrest⟩ := beforeChange_front 1 .upper name.toList
  refine ⟨String.ofList rest, String.toList_inj.mp ?_⟩
  rw [String.toList_append, String.toList_ofList, toList_namePrefix, hrest]

theorem namePrefix_eq_empty {name : String} (h : namePrefix name = "") : name = "" := by
  have none : beforeChange 1 .upper name.toList = [] := by
    rw [← toList_namePrefix, h, String.toList_empty]
  rw [beforeChange_upper] at none
  apply String.toList_inj.mp
  rw [String.toList_empty]
  cases place : secondWord? name.toList with
  | none =>
    rw [place] at none
    exact none
  | some j =>
    -- The second word begins after a small letter, so something is before it.
    obtain ⟨i, -, hj⟩ := Option.bind_eq_some_iff.mp place
    obtain ⟨k, -, rfl⟩ := Option.map_eq_some_iff.mp hj
    rw [place, Option.elim_some, List.take_eq_nil_iff] at none
    exact none.resolve_left (by omega)

/-- A name is cut before its second word, the first capital letter after the first small letter.
    So its leading words are a part of it that ends between two characters and that is empty only
    for the empty name, they are their own leading words, and nothing that follows the cut makes a
    difference to them.  Characters without case that are inserted anywhere are inserted into the
    leading words if they stand before the cut, and otherwise left out. -/
theorem namePrefix_cut (name : String) :
    (∀ c, ¬ (isUpper c = true ∧ isLower c = true)) ∧
    (namePrefix name).toList =
      (match secondWord? name.toList with
        | some j => name.toList.take j
        | none => name.toList) ∧
    (∃ rest, namePrefix name ++ rest = name) ∧
    (namePrefix name = "" → name = "") ∧
    namePrefix (namePrefix name) = namePrefix name ∧
    ((namePrefix name).length < name.length →
      ∀ more, namePrefix (name ++ more) = namePrefix name) ∧
    ∀ gap : Nat → List Char, (∀ i, ∀ c ∈ gap i, isUpper c = false ∧ isLower c = false) →
      (namePrefix (String.ofList (spaced gap name.toList))).toList =
        spaced gap (namePrefix name).toList := by
  refine ⟨?_, ?_, exists_append_namePrefix name, namePrefix_eq_empty, ?_, ?_, ?_⟩
  · rintro c ⟨upper, lower⟩
    rw [not_isLower_of_isUpper upper] at lower
    cases lower
  · rw [toList_namePrefix, beforeChange_upper]
    cases secondWord? name.toList with
    | none => rfl
    | some j => rfl
  · apply String.toList_inj.mp
    rw [toList_namePrefix, toList_namePrefix, beforeChange_idem]
  · intro short more
    rw [← String.length_toList, ← String.length_toList, toList_namePrefix] at short
    apply String.toList_inj.mp
    rw [toList_namePrefix, toList_namePrefix, String.toList_append, beforeChange_append short]
  · intro gap caseless
    have noCase : ∀ i, ∀ c ∈ gap i, LetterCase.of? c = none :=
      fun i c hc => LetterCase.of?_eq_none_iff.mpr (caseless i c hc)
    rw [toList_namePrefix, toList_namePrefix, String.toList_ofList, beforeChange_spaced noCase]

/-- Three characters that have no case. -/
def twoScoresAndZero : Nat → List Char
  | 0 | 2 => ['_']
  | 3 => ['0']
  | _ => []

/-- Of three characters that are inserted, two stand before the second word. -/
theorem namePrefix_cut_inserted :
    namePrefix "KiFastCall" = "Ki" ∧ (namePrefix "KiFastCall").length < "KiFastCall".length ∧
      namePrefix ("KiFastCall" ++ "Entry") = "Ki" ∧
      (∀ i, ∀ c ∈ twoScoresAndZero i, isUpper c = false ∧ isLower c = false) ∧
      namePrefix "_Ki_F0astCall" = "_Ki_" := by
  have two : namePrefix "KiFastCall" = "Ki" := by decide +kernel
  have short : (namePrefix "KiFastCall").length < "KiFastCall".length := by
    rw [two]
    decide
  have noCase : ∀ i, ∀ c ∈ twoScoresAndZero i, isUpper c = false ∧ isLower c = false := by
    have score : isUpper '_' = false ∧ isLower '_' = false := by decide +kernel
    have zero : isUpper '0' = false ∧ isLower '0' = false := by decide +kernel
    intro i
    unfold twoScoresAndZero
    split
    · exact List.forall_mem_singleton.mpr score
    · exact List.forall_mem_singleton.mpr score
    · exact List.forall_mem_singleton.mpr zero
    · nofun
  obtain ⟨-, -, -, -, -, further, inserted⟩ := namePrefix_cut "KiFastCall"
  have spacedOut := inserted twoScoresAndZero noCase
  rw [two] at spacedOut
  exact ⟨two, short, (further short "Entry").trans two, noCase, String.toList_inj.mp spacedOut⟩

/-! ### Bounded names -/

theorem namePrefix_boundName (name : String) :
    namePrefix (boundName name) = boundName (namePrefix name) := by
  apply String.toList_inj.mp
  rw [toList_namePrefix, toList_boundName, toList_boundName, toList_namePrefix, beforeChange_take]

theorem boundName_eq_self_iff {name : String} :
    boundName name = name ↔ name.length ≤ functionNameLimit := by
  rw [← String.toList_inj, toList_boundName, ← String.length_toList]
  constructor
  · intro whole
    rw [← whole]
    exact List.length_take_le functionNameLimit name.toList
  · exact List.take_of_length_le

/-- A call is counted under the bounded prefix of its whole name. -/
theorem prefixKey_ofRecord (record : CallRecord) (store : StoreId) :
    Grouping.namePrefix.key (Call.ofRecord record store) =
      boundName (namePrefix record.functionName) :=
  namePrefix_boundName record.functionName

/-- Cutting a name to its bounded length and to its leading words can be done in either order.  So
    the bound on names never tells calls apart whose names have the same prefix.  It makes a
    difference to a key only if the prefix is itself longer than the bound, and calls whose prefixes
    differ have the same key only if one of the prefixes is. -/
theorem prefixKey_bounded :
    (∀ name, namePrefix (boundName name) = boundName (namePrefix name)) ∧
    (∀ (a b : CallRecord) (store other : StoreId),
      namePrefix a.functionName = namePrefix b.functionName →
        Grouping.namePrefix.key (Call.ofRecord a store) =
          Grouping.namePrefix.key (Call.ofRecord b other)) ∧
    (∀ (record : CallRecord) (store : StoreId),
      Grouping.namePrefix.key (Call.ofRecord record store) ≠ namePrefix record.functionName ↔
        functionNameLimit < (namePrefix record.functionName).length) ∧
    ∀ (a b : CallRecord) (store other : StoreId),
      Grouping.namePrefix.key (Call.ofRecord a store) =
        Grouping.namePrefix.key (Call.ofRecord b other) →
      namePrefix a.functionName = namePrefix b.functionName ∨
        functionNameLimit < (namePrefix a.functionName).length ∨
        functionNameLimit < (namePrefix b.functionName).length := by
  refine ⟨namePrefix_boundName, ?_, ?_, ?_⟩
  · intro a b store other same
    rw [prefixKey_ofRecord, prefixKey_ofRecord, same]
  · intro record store
    rw [prefixKey_ofRecord, ne_eq, boundName_eq_self_iff, Nat.not_le]
  · intro a b store other same
    rw [prefixKey_ofRecord, prefixKey_ofRecord] at same
    rcases Nat.lt_or_ge functionNameLimit (namePrefix a.functionName).length with long | within
    · exact .inr (.inl long)
    · rcases Nat.lt_or_ge functionNameLimit (namePrefix b.functionName).length with long | within'
      · exact .inr (.inr long)
      · rw [boundName_eq_self_iff.mpr within, boundName_eq_self_iff.mpr within'] at same
        exact .inl same

/-- A function whose name is longer than the bound. -/
def longNamed (ending : List Char) : CallRecord :=
  { (default : CallRecord) with
    functionName := String.ofList (List.replicate functionNameLimit 'k' ++ ending) }

/-- Two long names with the same prefix, and a third one whose prefix is the same up to the
    bound. -/
theorem prefixKey_bounded_longNamed :
    namePrefix (longNamed ['x', 'E']).functionName = namePrefix (longNamed ['x']).functionName ∧
      Grouping.namePrefix.key (Call.ofRecord (longNamed ['x', 'E']) 1) =
        Grouping.namePrefix.key (Call.ofRecord (longNamed ['x']) 2) ∧
      Grouping.namePrefix.key (Call.ofRecord (longNamed ['x']) 2) ≠
        namePrefix (longNamed ['x']).functionName ∧
      Grouping.namePrefix.key (Call.ofRecord (longNamed ['x']) 2) =
        Grouping.namePrefix.key (Call.ofRecord (longNamed ['y']) 2) ∧
      (functionNameLimit < (namePrefix (longNamed ['x']).functionName).length ∨
        functionNameLimit < (namePrefix (longNamed ['y']).functionName).length) := by
  have read : ∀ ending, (namePrefix (longNamed ending).functionName).toList =
      beforeChange 1 .upper (List.replicate functionNameLimit 'k' ++ ending) := by
    intro ending
    rw [toList_namePrefix, longNamed, String.toList_ofList]
  have same : namePrefix (longNamed ['x', 'E']).functionName =
      namePrefix (longNamed ['x']).functionName := by
    rw [← String.toList_inj, read, read]
    decide +kernel
  have differ : namePrefix (longNamed ['x']).functionName ≠
      namePrefix (longNamed ['y']).functionName := by
    rw [ne_eq, ← String.toList_inj, read, read]
    decide +kernel
  have long : functionNameLimit < (namePrefix (longNamed ['x']).functionName).length := by
    rw [← String.length_toList, read]
    decide +kernel
  have together : Grouping.namePrefix.key (Call.ofRecord (longNamed ['x']) 2) =
      Grouping.namePrefix.key (Call.ofRecord (longNamed ['y']) 2) := by
    rw [prefixKey_ofRecord, prefixKey_ofRecord, ← String.toList_inj, toList_boundName,
      toList_boundName, read, read]
    decide +kernel
  obtain ⟨-, keys, bounded, merged⟩ := prefixKey_bounded
  exact ⟨same, keys _ _ 1 2 same, (bounded _ 2).mpr long, together,
    (merged _ _ 2 2 together).resolve_left differ⟩

end CallTrace
