import CallTrace.Tally

/-!
# Rankings

A ranking lists the most counted keys of a tally, highest count first.  Keys with
equal counts stand in ascending order, so a tally has one ranking of each length.
-/

namespace CallTrace

/-- A ranked key. -/
structure RankedKey where
  key : String
  callCount : Nat
deriving DecidableEq, Repr, Inhabited

/-- Ranked keys, and the total of the tally that they were drawn from. -/
structure Ranking where
  items : List RankedKey
  total : Nat
deriving DecidableEq, Repr, Inhabited

namespace Ranking

/-- Whether an entry may stand before another: a higher count, or the same count and
    a key that is not greater. -/
def mayPrecede (a b : String × Nat) : Bool :=
  decide (b.2 < a.2) || (a.2 == b.2 && (compare a.1 b.1).isLE)

/-- The `n` most counted keys of a tally. -/
def ofTally (t : Tally) (n : Nat) : Ranking :=
  { items := ((t.entries.mergeSort mayPrecede).take n).map fun e => ⟨e.1, e.2⟩
    total := t.total }

/-- The number of calls that the ranked keys account for. -/
def covered (r : Ranking) : Nat :=
  r.items.foldl (fun sum item => sum + item.callCount) 0

/-- The share of all calls that the ranked keys account for, in percent.  Both numbers
    are words of 64 bits; the quotient and the product are each rounded to nearest. -/
def coveragePercentage (r : Ranking) : Float :=
  if 0 < r.total then
    r.covered.toUInt64.toFloat / r.total.toUInt64.toFloat * 100.0
  else 0.0

end Ranking

end CallTrace
