import CallTrace.Decimal.Shortest
import CallTrace.Text.Quoted

/-!
# Faults of JSON texts

A text is decoded in one pass straight into records, and the first fault in reading
order is reported, whether the text is no JSON or does not have the layout that is
asked for.
-/

namespace CallTrace.Json

/-- What was being read when the text ended. -/
inductive Unfinished where
  | value
  | list
  | object
  | string
deriving DecidableEq, Repr

/-- A value of the wrong kind. -/
inductive Found where
  | null
  | boolean (value : Bool)
  | integer (value : Int)
  | real (value : Float)
  | text (value : String)
  | list
  | object

/-- Why a text cannot be decoded. -/
inductive Fault where
  | textEnds (within : Unfinished)
  | valueExpected
  /-- A word that begins like `true`, `false` or `null` goes on differently. -/
  | wordExpected
  | colonExpected
  | commaOrBracketExpected
  | commaOrBraceExpected
  | keyExpected
  | trailingComma
  | trailingText
  | malformedNumber
  /-- The number is beyond the greatest binary64 value. -/
  | numberTooLarge
  | malformedEscape
  /-- The first half of a surrogate pair is not followed by another escape. -/
  | pairUnfinished
  /-- A half of a surrogate pair stands where the other half should. -/
  | pairMismatched
  | controlCharacter
  | notUtf8
  | memberMissing (name : String)
  | memberRepeated (name : String)
  | wrongKind (found : Found) (wanted : String)
  /-- An integer that does not fit the width that is asked for. -/
  | outOfRange (value : Int) (wanted : String)
  | unknownOption (found : String) (options : List String)
  /-- A record in list form has only `length` of the `size` elements of its layout. -/
  | tooShort (length : Nat) (record : String) (size : Nat)

/-- Numbers with a fraction or exponent are written positionally from `1e-5` up to
    sixteen digits before the point, and with a signed exponent beyond that. -/
def realLayout : Decimal.Layout where
  plainFrom := -5
  plainTo := 15

/-- An integer in decimal. -/
def integerText (n : Int) : String :=
  if n < 0 then "-" ++ Nat.repr n.natAbs else Nat.repr n.natAbs

/-- A piece of text between backticks. -/
def ticked (text : String) : String :=
  "`" ++ text ++ "`"

def Unfinished.message : Unfinished → String
  | .value => "EOF while parsing a value"
  | .list => "EOF while parsing a list"
  | .object => "EOF while parsing an object"
  | .string => "EOF while parsing a string"

def Found.describe : Found → String
  | .null => "null"
  | .boolean value => "boolean " ++ ticked (if value then "true" else "false")
  | .integer value => "integer " ++ ticked (integerText value)
  | .real value => "floating point " ++ ticked (realLayout.ofFloat value)
  | .text value => "string " ++ Text.quoted value
  | .list => "sequence"
  | .object => "map"

/-- The options of a choice in words. -/
def optionsText : List String → String
  | [a] => ticked a
  | [a, b] => ticked a ++ " or " ++ ticked b
  | options => "one of " ++ String.intercalate ", " (options.map ticked)

/-- The wording of a fault.  It does not say where in the text the fault is: no decoder keeps the line
    and the column, so an ending such as `at line 1 column 5` has no place in a message. -/
def Fault.message : Fault → String
  | .textEnds within => within.message
  | .valueExpected => "expected value"
  | .wordExpected => "expected ident"
  | .colonExpected => "expected `:`"
  | .commaOrBracketExpected => "expected `,` or `]`"
  | .commaOrBraceExpected => "expected `,` or `\x7d`"
  | .keyExpected => "key must be a string"
  | .trailingComma => "trailing comma"
  | .trailingText => "trailing characters"
  | .malformedNumber => "invalid number"
  | .numberTooLarge => "number out of range"
  | .malformedEscape => "invalid escape"
  | .pairUnfinished => "unexpected end of hex escape"
  | .pairMismatched => "lone leading surrogate in hex escape"
  | .controlCharacter => "control character (\\u0000-\\u001F) found while parsing a string"
  | .notUtf8 => "invalid unicode code point"
  | .memberMissing name => "missing field " ++ ticked name
  | .memberRepeated name => "duplicate field " ++ ticked name
  | .wrongKind found wanted => "invalid type: " ++ found.describe ++ ", expected " ++ wanted
  | .outOfRange value wanted =>
    "invalid value: integer " ++ ticked (integerText value) ++ ", expected " ++ wanted
  | .unknownOption found options =>
    "unknown variant " ++ ticked found ++ ", expected " ++ optionsText options
  | .tooShort length record size =>
    "invalid length " ++ Nat.repr length ++ ", expected " ++ record ++ " with "
      ++ Nat.repr size ++ " elements"

end CallTrace.Json
