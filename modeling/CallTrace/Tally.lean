import Std.Data.TreeMap

/-!
# Tallies

A tally maps keys to the number of times they were counted and keeps the total.
Keys are compared exactly, and listed in ascending order of their characters, which
is also the order of their UTF-8 bytes.
-/

namespace CallTrace

/-- Counts per key, and the number of everything counted. -/
structure Tally where
  counts : Std.TreeMap String Nat := ∅
  total : Nat := 0

namespace Tally

/-- Nothing counted yet. -/
def empty : Tally := {}

instance : Inhabited Tally := ⟨empty⟩

/-- How often a key was counted. -/
def count (t : Tally) (key : String) : Nat :=
  t.counts.getD key 0

/-- The keys with their counts, in ascending order of the keys. -/
def entries (t : Tally) : List (String × Nat) :=
  t.counts.toList

/-- The number of different keys. -/
def distinct (t : Tally) : Nat :=
  t.counts.size

def isEmpty (t : Tally) : Bool :=
  t.total == 0

/-- Adds to the count of one key. -/
def raise (counts : Std.TreeMap String Nat) (key : String) (n : Nat) : Std.TreeMap String Nat :=
  counts.insert key (counts.getD key 0 + n)

/-- Counts a key once. -/
def accumulate (t : Tally) (key : String) : Tally :=
  { counts := raise t.counts key 1, total := t.total + 1 }

/-- Counts a sequence of keys, each once. -/
def accumulateAll (t : Tally) (keys : List String) : Tally :=
  keys.foldl accumulate t

/-- Adds the counts and the total of another tally. -/
def merge (t other : Tally) : Tally :=
  { counts := other.counts.foldl raise t.counts, total := t.total + other.total }

/-- Tallies are equal when they have the same counts for the same keys and the same
    total. -/
instance : BEq Tally :=
  ⟨fun a b => a.entries == b.entries && a.total == b.total⟩

end Tally

end CallTrace
