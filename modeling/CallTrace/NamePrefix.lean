import CallTrace.Text.LetterCase

/-!
# Name prefixes

Routines are grouped by the leading words of their names: the name is cut right
before its second change of letter case, so `KiFastCallEntry` and
`KiSystemService` both fall under `Ki`, and `RtlAllocateHeap` under `Rtl`.

Reading starts in upper case, so a name that begins with a small letter has
already used its first change.  Characters without case never count as a change
and continue the current run.
-/

namespace CallTrace

open Text

/-- The part of a name before its change of case number `allowed + 1`, when the
    letter before it was of case `current`. -/
def beforeChange (allowed : Nat) (current : LetterCase) : List Char → List Char
  | [] => []
  | c :: rest =>
    match LetterCase.of? c with
    | none => c :: beforeChange allowed current rest
    | some case =>
      if case = current then c :: beforeChange allowed current rest
      else match allowed with
        | 0 => []
        | left + 1 => c :: beforeChange left case rest

/-- The leading words of a name: all of it before its second change of case. -/
def namePrefix (name : String) : String :=
  String.ofList (beforeChange 1 .upper name.toList)

end CallTrace
