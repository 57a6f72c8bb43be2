/-!
# Ranges of code points

A property of characters is kept as an ascending list of ranges.  A range with
step two takes every second code point, which is how alternating capital and
small letters are laid out.
-/

namespace CallTrace.Text

/-- The code points `first`, `first + step`, … up to `last`. -/
structure CodeRange where
  first : Nat
  last : Nat
  step : Nat
deriving DecidableEq, Repr

namespace CodeRange

def contains (r : CodeRange) (n : Nat) : Bool :=
  decide (r.first ≤ n) && decide (n ≤ r.last) && (n - r.first) % r.step == 0

/-- Whether an ascending table holds a code point.  The first range that ends at or
    after the code point decides. -/
def covers : List CodeRange → Nat → Bool
  | [], _ => false
  | r :: rest, n => if n ≤ r.last then r.contains n else covers rest n

end CodeRange

end CallTrace.Text
