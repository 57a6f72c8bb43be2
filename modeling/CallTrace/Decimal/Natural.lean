/-!
# Reading natural numbers

Numbers in versions and arguments are written as an optional plus sign and one or
more ASCII digits.  There is no other sign, no blank and no separator, and leading
zeros are allowed.
-/

namespace CallTrace.Decimal

/-- The value of an ASCII digit. -/
def digit? (c : Char) : Option Nat :=
  if '0' ≤ c ∧ c ≤ '9' then some (c.toNat - '0'.toNat) else none

/-- The value of a run of digits that continues a number, most significant first. -/
def digits? (value : Nat) : List Char → Option Nat
  | [] => some value
  | c :: rest => (digit? c).bind fun d => digits? (10 * value + d) rest

/-- The value of a non-empty run of digits. -/
def numeral? : List Char → Option Nat
  | [] => none
  | cs => digits? 0 cs

/-- The number written as an optional plus sign and digits, provided that it is
    below `bound`. -/
def natural? (bound : Nat) (text : List Char) : Option Nat :=
  (numeral? (match text with | '+' :: rest => rest | cs => cs)).filter (· < bound)

end CallTrace.Decimal
