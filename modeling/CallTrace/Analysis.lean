import CallTrace.Histogram
import CallTrace.Ranking
import CallTrace.Recording.Listings
import CallTrace.Recording.OfFile

/-!
# Analyses

An analysis counts all calls of a trace by a grouping and ranks the most frequent keys.
A trace that cannot be read to its end has no ranking.
-/

namespace CallTrace

/-- What to analyze, and how many keys to rank. -/
structure AnalysisRequest where
  path : String
  grouping : Grouping := .qualifiedName
  count : Nat := 100
deriving DecidableEq, Repr, Inhabited

/-- The greatest number of keys that can be asked for. -/
def greatestCount : Nat := 10000

/-- What is wrong with a request. -/
inductive RequestFault where
  | emptyPath
  | zeroCount
  | countTooLarge
deriving DecidableEq, Repr

def RequestFault.message : RequestFault → String
  | .emptyPath => "Trace file path cannot be empty"
  | .zeroCount => "count must be greater than 0"
  | .countTooLarge => "count is too large (max " ++ Nat.repr greatestCount ++ ")"

/-- Why an analysis has no ranking. -/
inductive AnalysisError where
  | request (fault : RequestFault)
  /-- The trace cannot be opened. -/
  | opening (cause : TraceError)
  /-- The calls cannot be read to the end. -/
  | reading (cause : TraceError)
  /-- The store cannot be closed. -/
  | closing (cause : TraceError)
  /-- The store is not used as it should be. -/
  | misused (mistake : Misuse)

namespace AnalysisError

def message : AnalysisError → String
  | .request fault => fault.message
  | .opening cause => cause.message
  | .reading cause => "Failed to read call tree: " ++ cause.message
  | .closing cause => "Failed to close trace store: " ++ cause.message
  | .misused mistake => mistake.report

/-- The error of the trace behind the error, if there is one. -/
def cause? : AnalysisError → Option TraceError
  | .request _ | .misused _ => none
  | .opening cause | .reading cause | .closing cause => some cause

end AnalysisError

/-- Checks a request before anything is opened. -/
def AnalysisRequest.check (a : AnalysisRequest) : Except RequestFault Unit :=
  if a.path.isEmpty then .error .emptyPath
  else if a.count = 0 then .error .zeroCount
  else if greatestCount < a.count then .error .countTooLarge
  else .ok ()

/-- The ranking of a complete count. -/
def Counted.ranking (counted : Counted) (count : Nat) : Except AnalysisError Ranking :=
  match counted with
  | (t, .ok ()) => .ok (Ranking.ofTally t count)
  | (_, .error e) => .error (.reading e)

/-- Counts and ranks the calls of an open store. -/
def Store.analyze {σ : Type} (s : Store σ) (grouping : Grouping) (count : Nat) :
    Except Misuse (Except AnalysisError Ranking × Store σ) :=
  match s.histogram none grouping.key .empty with
  | .error misuse => .error misuse
  | .ok (counted, s) => .ok (Counted.ranking counted count, s)

/-- Opens the store of a trace file beside the stores of the pool.  A file that cannot be opened
    uses up no number. -/
def StorePool.openFile {σ : Type} (pool : StorePool σ) (files : Files) (path : String)
    (state : σ) : Except TraceError (Store σ × StorePool σ) :=
  (Recording.ofFile files path).map fun r =>
    (pool.next r.reader state, (pool.openStore r.reader state).2)

/-- Opens a trace file, counts and ranks its calls, and closes it.  The stores of the pool were
    opened before. -/
def AnalysisRequest.run (a : AnalysisRequest) (files : Files) (pool : StorePool Unit := {}) :
    Except AnalysisError Ranking := do
  a.check.mapError .request
  let (store, _) ← (pool.openFile files a.path ()).mapError .opening
  let (outcome, store) ← (store.analyze a.grouping a.count).mapError .misused
  let ranking ← outcome
  store.close.1.mapError .closing
  return ranking

end CallTrace
