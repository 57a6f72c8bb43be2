import CallTrace.Output
import CallTrace.Ranking

/-!
# Reports

The report has one line per ranked key: the key, right-justified in a column of
sixty characters, a tab and the count.  After a blank line it states the total.
-/

namespace CallTrace.Report

/-- The width of the column of keys.  Longer keys are written in full. -/
def nameColumnWidth : Nat := 60

/-- A key padded on the left to the width of the column, counted in characters. -/
def justify (key : List Char) : List Char :=
  List.replicate (nameColumnWidth - key.length) ' ' ++ key

/-- The line of one ranked key. -/
def itemLine (item : RankedKey) : List Char :=
  justify item.key.toList ++ '\t' :: (Nat.toDigits 10 item.callCount ++ ['\n'])

/-- The line that states the total. -/
def totalLine (total : Nat) : List Char :=
  Nat.toDigits 10 total ++ " events total\n".toList

/-- The text of the report. -/
def format (r : Ranking) : String :=
  String.ofList (r.items.flatMap itemLine ++ '\n' :: totalLine r.total)

/-- Writes the report to a sink; the answer tells whether all of it fitted. -/
def write (r : Ranking) (sink : Sink) : Bool × Sink :=
  sink.writeText (format r)

end CallTrace.Report
