import CallTrace.Json.Skip

/-!
# Decoders

A decoder reads one value of a known kind off the front of a text.  It comes with
the proof that it takes at least one byte, so decoders can be iterated: the loops
over lists and objects end because the text gets shorter.

This file has the decoders of single values and of lists.  A value of the wrong kind
is read far enough to say what it is, so a malformed value is reported as such and
not as one of the wrong kind.
-/

namespace CallTrace.Json

/-- Reads values of one kind. -/
structure Decoder (α : Type) where
  run : Bytes → Result α
  shortens : ∀ {text rest : Bytes} {value : α},
    run text = .ok (value, rest) → rest.length < text.length

namespace Decoder

/-- Decodes a whole text.  Only blanks may follow the value. -/
def decode {α : Type} (d : Decoder α) (text : Bytes) : Except Fault α :=
  match d.run text with
  | .error fault => .error fault
  | .ok (value, rest) =>
    if (trimFront rest).isEmpty then .ok value else .error .trailingText

/-- Applies a function to what is decoded. -/
def map {α β : Type} (f : α → β) (d : Decoder α) : Decoder β where
  run text :=
    match d.run text with
    | .error fault => .error fault
    | .ok (value, rest) => .ok (f value, rest)
  shortens := by
    intro text rest value h
    split at h
    · simp at h
    · rename_i hd
      simp only [Except.ok.injEq, Prod.mk.injEq] at h
      rw [← h.2]; exact d.shortens hd

end Decoder

/-! ### Values of the wrong kind -/

/-- How a number of the wrong kind is reported. -/
def Number.found : Number → Found
  | .natural n => .integer n
  | .negative n => .integer (-n)
  | .real x => .real x

/-- What a value is, as far as it has to be read to be sure; `b` is its first byte. -/
def found (b : UInt8) (rest : Bytes) : Except Fault Found :=
  if b = sym 'n' then (finishWord ['u', 'l', 'l'] rest).map fun _ => .null
  else if b = sym 't' then (finishWord ['r', 'u', 'e'] rest).map fun _ => .boolean true
  else if b = sym 'f' then (finishWord ['a', 'l', 's', 'e'] rest).map fun _ => .boolean false
  else if b = sym '"' then (string rest).map fun read => .text read.1
  else if b = sym '-' ∨ isDigit b then (number (b :: rest)).map fun read => read.1.found
  else if b = sym '[' then .ok .list
  else if b = sym '{' then .ok .object
  else .error .valueExpected

/-- The fault of a value that is not of the kind that is asked for. -/
def mismatch (wanted : String) (b : UInt8) (rest : Bytes) : Fault :=
  match found b rest with
  | .error fault => fault
  | .ok found => .wrongKind found wanted

/-! ### Texts -/

/-- Reads a text. -/
def readString (text : Bytes) : Result String :=
  match trimFront text with
  | [] => .error (.textEnds .value)
  | b :: rest => if b = sym '"' then string rest else .error (mismatch "a string" b rest)

theorem readString_length {value : String} {text rest : Bytes}
    (h : readString text = .ok (value, rest)) : rest.length < text.length := by
  unfold readString at h
  split at h
  · simp at h
  · rename_i ht
    have := trimFront_cons_length ht
    split at h
    · have := string_length h; omega
    · simp at h

/-- Decodes texts. -/
def Decoder.string : Decoder String where
  run := readString
  shortens := readString_length

/-! ### Words -/

/-- An integer below a bound. -/
def Number.word (bound : Nat) (wanted : String) : Number → Except Fault Nat
  | .natural n => if n < bound then .ok n else .error (.outOfRange n wanted)
  | .negative n => .error (.outOfRange (-n) wanted)
  | .real x => .error (.wrongKind (.real x) wanted)

/-- Reads an integer below a bound. -/
def readWord (bound : Nat) (wanted : String) (text : Bytes) : Result Nat :=
  match trimFront text with
  | [] => .error (.textEnds .value)
  | b :: rest =>
    if b = sym '-' ∨ isDigit b then
      match number (b :: rest) with
      | .error fault => .error fault
      | .ok (n, rest) => (n.word bound wanted).map (·, rest)
    else .error (mismatch wanted b rest)

theorem readWord_length {bound n : Nat} {wanted : String} {text rest : Bytes}
    (h : readWord bound wanted text = .ok (n, rest)) : rest.length < text.length := by
  unfold readWord at h
  split at h
  · simp at h
  · rename_i ht
    have := trimFront_cons_length ht
    split at h
    · split at h
      · simp at h
      · rename_i hn
        obtain ⟨_, _, ends⟩ := map_eq_ok.1 h
        have := number_length hn
        rw [List.length_cons] at this
        rw [← (Prod.mk.inj ends).2]; omega
    · simp at h

/-- Decodes words of 32 bits. -/
def Decoder.word32 : Decoder UInt32 :=
  Decoder.map Nat.toUInt32 ⟨readWord UInt32.size "u32", readWord_length⟩

/-- Decodes words of 64 bits. -/
def Decoder.word64 : Decoder UInt64 :=
  Decoder.map Nat.toUInt64 ⟨readWord UInt64.size "u64", readWord_length⟩

/-! ### Values that may be null -/

/-- Reads `null` as nothing, and everything else as the decoder does. -/
def readNullable {α : Type} (d : Decoder α) (text : Bytes) : Result (Option α) :=
  match trimFront text with
  | [] => .error (.textEnds .value)
  | b :: rest =>
    if b = sym 'n' then (finishWord ['u', 'l', 'l'] rest).map (none, ·)
    else
      match d.run (b :: rest) with
      | .error fault => .error fault
      | .ok (value, rest) => .ok (some value, rest)

theorem readNullable_length {α : Type} {d : Decoder α} {value : Option α} {text rest : Bytes}
    (h : readNullable d text = .ok (value, rest)) : rest.length < text.length := by
  unfold readNullable at h
  split at h
  · simp at h
  · rename_i ht
    have := trimFront_cons_length ht
    split at h
    · obtain ⟨_, word, ends⟩ := map_eq_ok.1 h
      have := finishWord_length word
      rw [← (Prod.mk.inj ends).2]; omega
    · split at h
      · simp at h
      · rename_i hd
        have := d.shortens hd
        simp only [Except.ok.injEq, Prod.mk.injEq] at h
        rw [← h.2]
        rw [List.length_cons] at this; omega

/-- Decodes `null` as nothing. -/
def Decoder.nullable {α : Type} (d : Decoder α) : Decoder (Option α) :=
  ⟨readNullable d, readNullable_length⟩

/-! ### Choices -/

/-- The value of a named option. -/
def chosen {α : Type} (options : List (String × α)) (name : String) : Except Fault α :=
  match options.lookup name with
  | some value => .ok value
  | none => .error (.unknownOption name (options.map Prod.fst))

/-- Reads `null`. -/
def unit (text : Bytes) : Except Fault Bytes :=
  match trimFront text with
  | [] => .error (.textEnds .value)
  | b :: rest =>
    if b = sym 'n' then finishWord ['u', 'l', 'l'] rest else .error (mismatch "unit" b rest)

theorem unit_length {text rest : Bytes} (h : unit text = .ok rest) :
    rest.length ≤ text.length := by
  unfold unit at h
  split at h
  · simp at h
  · rename_i ht
    have := trimFront_cons_length ht
    split at h
    · have := finishWord_length h; omega
    · simp at h

/-- Reads the brace that closes a choice in object form. -/
def closeChoice (text : Bytes) : Except Fault Bytes :=
  match trimFront text with
  | [] => .error (.textEnds .object)
  | b :: rest => if b = sym '}' then .ok rest else .error .valueExpected

theorem closeChoice_length {text rest : Bytes} (h : closeChoice text = .ok rest) :
    rest.length ≤ text.length := by
  unfold closeChoice at h
  split at h
  · simp at h
  · rename_i ht
    have := trimFront_cons_length ht
    split at h
    · simp only [Except.ok.injEq] at h; rw [← h]; omega
    · simp at h

/-- Reads the name of the only member of a choice in object form. -/
def choiceName (text : Bytes) : Result String :=
  match trimFront text with
  | [] => .error (.textEnds .object)
  | b :: rest =>
    if b = sym '"' then string rest
    else if b = sym '}' then .error .valueExpected
    else .error .keyExpected

theorem choiceName_length {name : String} {text rest : Bytes}
    (h : choiceName text = .ok (name, rest)) : rest.length < text.length := by
  unfold choiceName at h
  split at h
  · simp at h
  · rename_i ht
    have := trimFront_cons_length ht
    split at h
    · have := string_length h; omega
    · split at h <;> simp at h

/-- Reads the rest of a choice in object form: its only member is named by the option
    and null. -/
def choiceMember {α : Type} (options : List (String × α)) (text : Bytes) : Result α :=
  match choiceName text with
  | .error fault => .error fault
  | .ok (name, rest) =>
    match chosen options name with
    | .error fault => .error fault
    | .ok value => (((colon rest).bind unit).bind closeChoice).map (value, ·)

theorem choiceMember_length {α : Type} {options : List (String × α)} {value : α}
    {text rest : Bytes} (h : choiceMember options text = .ok (value, rest)) :
    rest.length < text.length := by
  unfold choiceMember at h
  split at h
  · simp at h
  · rename_i hs
    have := choiceName_length hs
    split at h
    · simp at h
    · obtain ⟨_, h, ends⟩ := map_eq_ok.1 h
      obtain ⟨_, h, closed⟩ := bind_eq_ok.1 h
      obtain ⟨_, separated, null⟩ := bind_eq_ok.1 h
      have := colon_length separated
      have := unit_length null
      have := closeChoice_length closed
      rw [← (Prod.mk.inj ends).2]; omega

/-- Reads the name of an option, alone or as the only member of an object. -/
def readChoice {α : Type} (options : List (String × α)) (text : Bytes) : Result α :=
  match trimFront text with
  | [] => .error (.textEnds .value)
  | b :: rest =>
    if b = sym '"' then
      match string rest with
      | .error fault => .error fault
      | .ok (name, rest) => (chosen options name).map (·, rest)
    else if b = sym '{' then choiceMember options rest
    else .error .valueExpected

theorem readChoice_length {α : Type} {options : List (String × α)} {value : α}
    {text rest : Bytes} (h : readChoice options text = .ok (value, rest)) :
    rest.length < text.length := by
  unfold readChoice at h
  split at h
  · simp at h
  · rename_i ht
    have := trimFront_cons_length ht
    split at h
    · split at h
      · simp at h
      · rename_i hs
        obtain ⟨_, _, ends⟩ := map_eq_ok.1 h
        have := string_length hs
        rw [← (Prod.mk.inj ends).2]; omega
    · split at h
      · have := choiceMember_length h; omega
      · simp at h

/-- Decodes one of several named options. -/
def Decoder.choice {α : Type} (options : List (String × α)) : Decoder α :=
  ⟨readChoice options, readChoice_length⟩

/-! ### Lists -/

/-- Looks for an element of a list.  The answer tells whether there is one; the text
    then begins with it, and with the closing bracket otherwise. -/
def nextElement (first : Bool) (text : Bytes) : Result Bool :=
  match trimFront text with
  | [] => .error (.textEnds .list)
  | b :: rest =>
    if b = sym ']' then .ok (false, b :: rest)
    else if first then .ok (true, b :: rest)
    else if b = sym ',' then
      match trimFront rest with
      | [] => .error (.textEnds .value)
      | c :: after => if c = sym ']' then .error .trailingComma else .ok (true, c :: after)
    else .error .commaOrBracketExpected

theorem nextElement_length {first more : Bool} {text rest : Bytes}
    (h : nextElement first text = .ok (more, rest)) : rest.length ≤ text.length := by
  unfold nextElement at h
  split at h
  · simp at h
  · rename_i b after ht
    have hle := trimFront_length text
    rw [ht] at hle
    split at h
    · simp only [Except.ok.injEq, Prod.mk.injEq] at h; rw [← h.2]; exact hle
    split at h
    · simp only [Except.ok.injEq, Prod.mk.injEq] at h; rw [← h.2]; exact hle
    split at h
    · have := trimFront_length after
      split at h
      · simp at h
      · rename_i ha
        rw [ha] at this
        split at h
        · simp at h
        · simp only [Except.ok.injEq, Prod.mk.injEq] at h
          rw [← h.2]
          rw [List.length_cons] at hle
          omega
    · simp at h

/-- Reads the bracket that closes a list. -/
def closeList (text : Bytes) : Except Fault Bytes :=
  match trimFront text with
  | [] => .error (.textEnds .list)
  | b :: rest =>
    if b = sym ']' then .ok rest
    else if b = sym ',' ∧ (trimFront rest).head? = some (sym ']') then .error .trailingComma
    else .error .trailingText

theorem closeList_length {text rest : Bytes} (h : closeList text = .ok rest) :
    rest.length < text.length := by
  unfold closeList at h
  split at h
  · simp at h
  · rename_i ht
    have := trimFront_cons_length ht
    split at h
    · simp only [Except.ok.injEq] at h; rw [← h]; exact this
    · split at h <;> simp at h

/-- Reads the elements of a list up to its closing bracket. -/
def elements {α : Type} (d : Decoder α) (first : Bool) (collected : List α) (text : Bytes) :
    Result (List α) :=
  match _h : nextElement first text with
  | .error fault => .error fault
  | .ok (false, rest) => .ok (collected.reverse, rest)
  | .ok (true, rest) =>
    match _hd : d.run rest with
    | .error fault => .error fault
    | .ok (value, rest') => elements d false (value :: collected) rest'
termination_by text.length
decreasing_by
  have := nextElement_length _h
  have := d.shortens _hd
  omega

theorem elements_length {α : Type} {d : Decoder α} {first : Bool} {collected values : List α}
    {text rest : Bytes} (h : elements d first collected text = .ok (values, rest)) :
    rest.length ≤ text.length := by
  fun_induction elements d first collected text with
  | case2 =>
    rename_i next
    simp only [Except.ok.injEq, Prod.mk.injEq] at h
    rw [← h.2]; exact nextElement_length next
  | case4 =>
    rename_i next _ _ decoded ih
    have := ih h
    have := nextElement_length next
    have := d.shortens decoded
    omega
  | _ => simp at h

/-- Reads a list with its brackets. -/
def readList {α : Type} (d : Decoder α) (text : Bytes) : Result (List α) :=
  match trimFront text with
  | [] => .error (.textEnds .value)
  | b :: rest =>
    if b = sym '[' then
      match elements d true [] rest with
      | .error fault => .error fault
      | .ok (values, rest) => (closeList rest).map (values, ·)
    else .error (mismatch "a sequence" b rest)

theorem readList_length {α : Type} {d : Decoder α} {values : List α} {text rest : Bytes}
    (h : readList d text = .ok (values, rest)) : rest.length < text.length := by
  unfold readList at h
  split at h
  · simp at h
  · rename_i ht
    have := trimFront_cons_length ht
    split at h
    · split at h
      · simp at h
      · rename_i he
        obtain ⟨_, closed, ends⟩ := map_eq_ok.1 h
        have := elements_length he
        have := closeList_length closed
        rw [← (Prod.mk.inj ends).2]; omega
    · simp at h

/-- Decodes lists. -/
def Decoder.list {α : Type} (d : Decoder α) : Decoder (List α) :=
  ⟨readList d, readList_length⟩

end CallTrace.Json
