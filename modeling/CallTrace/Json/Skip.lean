import CallTrace.Json.Number

/-!
# Skipped values

Members that a layout does not know are skipped.  Their values have to be well
formed, but numbers are not evaluated, texts are not decoded, and keys may repeat.
Nesting is not limited: the brackets that are open are kept in a list, innermost
first, instead of recurring.
-/

namespace CallTrace.Json

/-- The kinds of brackets. -/
inductive Bracket where
  | list
  | object
deriving DecidableEq, Repr

namespace Bracket

def opening : Bracket → UInt8
  | .list => sym '['
  | .object => sym '{'

def closing : Bracket → UInt8
  | .list => sym ']'
  | .object => sym '}'

/-- The bracket that a byte opens. -/
def opened? (b : UInt8) : Option Bracket :=
  if b = Bracket.list.opening then some .list
  else if b = Bracket.object.opening then some .object
  else none

/-- The text ends before the bracket is closed. -/
def unclosed : Bracket → Fault
  | .list => .textEnds .list
  | .object => .textEnds .object

/-- Neither a comma nor the closing bracket follows an item. -/
def separatorMissing : Bracket → Fault
  | .list => .commaOrBracketExpected
  | .object => .commaOrBraceExpected

/-- Skips what precedes the value of an item: nothing in a list, a key and a colon in
    an object. -/
def skipKey : Bracket → Bytes → Except Fault Bytes
  | .list, text => .ok text
  | .object, text =>
    match trimFront text with
    | [] => .error (.textEnds .object)
    | b :: rest =>
      if b = sym '"' then (skipString rest).bind colon else .error .keyExpected

theorem skipKey_length {bracket : Bracket} {text rest : Bytes}
    (h : bracket.skipKey text = .ok rest) : rest.length ≤ text.length := by
  unfold skipKey at h
  split at h
  · simp only [Except.ok.injEq] at h; simp [h]
  · split at h
    · simp at h
    · rename_i ht
      split at h
      · obtain ⟨after', key, h⟩ := bind_eq_ok.1 h
        have := trimFront_cons_length ht
        have := skipString_length key
        have := colon_length h
        omega
      · simp at h

end Bracket

/-- Skips a value that is neither a list nor an object; `b` is its first byte. -/
def skipScalar (b : UInt8) (rest : Bytes) : Except Fault Bytes :=
  if b = sym 'n' then finishWord ['u', 'l', 'l'] rest
  else if b = sym 't' then finishWord ['r', 'u', 'e'] rest
  else if b = sym 'f' then finishWord ['a', 'l', 's', 'e'] rest
  else if b = sym '"' then skipString rest
  else if b = sym '-' then skipMagnitude rest
  else if isDigit b then skipMagnitude (b :: rest)
  else .error .valueExpected

/-- What is next in a value that is being skipped. -/
inductive Place where
  | value
  /-- A value is complete; a comma or a closing bracket follows, if one is open. -/
  | separator
deriving DecidableEq, Repr

theorem skipScalar_length {b : UInt8} {text rest : Bytes} (h : skipScalar b text = .ok rest) :
    rest.length ≤ text.length := by
  unfold skipScalar at h
  split at h
  · exact finishWord_length h
  split at h
  · exact finishWord_length h
  split at h
  · exact finishWord_length h
  split at h
  · exact Nat.le_of_lt (skipString_length h)
  split at h
  · exact Nat.le_of_lt (skipMagnitude_length h)
  split at h
  · exact Nat.le_of_lt_succ (skipMagnitude_length h)
  · simp at h

/-- Skips what is left of a value, given the brackets that are open. -/
def skip (place : Place) (opened : List Bracket) (text : Bytes) : Except Fault Bytes :=
  match place, opened with
  | .value, opened =>
    match _h : trimFront text with
    | [] => .error (.textEnds .value)
    | b :: rest =>
      match Bracket.opened? b with
      | some bracket =>
        match _ht : trimFront rest with
        | [] => .error bracket.unclosed
        | c :: after =>
          if c = bracket.closing then skip .separator opened after
          else
            match _hk : bracket.skipKey (c :: after) with
            | .error fault => .error fault
            | .ok rest' => skip .value (bracket :: opened) rest'
      | none =>
        match _hs : skipScalar b rest with
        | .error fault => .error fault
        | .ok rest' => skip .separator opened rest'
  | .separator, [] => .ok text
  | .separator, bracket :: outer =>
    match _h : trimFront text with
    | [] => .error bracket.unclosed
    | b :: rest =>
      if b = sym ',' then
        match _hk : bracket.skipKey rest with
        | .error fault => .error fault
        | .ok rest' => skip .value (bracket :: outer) rest'
      else if b = bracket.closing then skip .separator outer rest
      else .error bracket.separatorMissing
termination_by text.length
decreasing_by
  all_goals have read := trimFront_cons_length _h
  · have := trimFront_cons_length _ht; omega
  · have := trimFront_length rest
    rw [_ht] at this
    have := Bracket.skipKey_length _hk
    omega
  · have := skipScalar_length _hs; omega
  · have := Bracket.skipKey_length _hk; omega
  · omega

/-- Skips a value. -/
def skipValue (text : Bytes) : Except Fault Bytes :=
  skip .value [] text

theorem skip_length {place : Place} {opened : List Bracket} {text rest : Bytes}
    (h : skip place opened text = .ok rest) :
    rest.length + (if place = .value then 1 else 0) ≤ text.length := by
  fun_induction skip place opened text with
  | case3 =>
    rename_i read _ _ _ closed ih
    have := ih h
    have := trimFront_cons_length read
    have := trimFront_cons_length closed
    simp only [reduceIte, reduceCtorEq] at *; omega
  | case5 =>
    rename_i inner read _ _ _ _ trimmed _ _ keyed ih
    have := ih h
    have := trimFront_cons_length read
    have := trimFront_length inner
    rw [trimmed] at this
    have := Bracket.skipKey_length keyed
    simp only [reduceIte] at *; omega
  | case7 =>
    rename_i read _ _ skipped ih
    have := ih h
    have := trimFront_cons_length read
    have := skipScalar_length skipped
    simp only [reduceIte, reduceCtorEq] at *; omega
  | case8 => simp only [Except.ok.injEq] at h; simp [h]
  | case11 =>
    rename_i keyed read ih
    have := ih h
    have := trimFront_cons_length read
    have := Bracket.skipKey_length keyed
    simp only [reduceIte, reduceCtorEq] at *; omega
  | case12 =>
    rename_i read _ ih
    have := ih h
    have := trimFront_cons_length read
    simp only [reduceIte, reduceCtorEq] at *; omega
  | _ => simp at h

theorem skipValue_length {text rest : Bytes} (h : skipValue text = .ok rest) :
    rest.length < text.length := by
  have := skip_length h
  simp only [reduceIte] at this
  omega

end CallTrace.Json
