import CallTrace.Reader

/-!
# Readers with planned faults

A plan makes a reader fail at chosen points, and a meter counts what was asked of it.
Such readers show what becomes of a failure in whatever reads them.

Requests for calls and for children are counted together.  A record is counted when it
is read, even if reading it fails.
-/

namespace CallTrace

/-- Where a reader is to fail. -/
structure FaultPlan where
  /-- The request with this number is refused, counted from one. -/
  failingRequest : Option Nat := none
  /-- The record with this number cannot be read, counted from one. -/
  failingRecord : Option Nat := none
  /-- Requests for the children of these calls are refused and not counted. -/
  guarded : List Handle := []
  clientsRefused : Bool := false
  /-- Clients that are listed after those of the reader. -/
  extraClients : List Client := []
  /-- The list of clients breaks off with an error after this many. -/
  clientsCut : Option Nat := none
  modulesRefused : Bool := false
  closeRefused : Bool := false
deriving DecidableEq, Repr, Inhabited

/-- What was asked of a reader. -/
structure Meter where
  requests : Nat := 0
  records : Nat := 0
  closed : Nat := 0
  /-- The calls whose children were requested, unless the request was refused. -/
  expanded : Array Handle := #[]
deriving DecidableEq, Repr, Inhabited

/-- A reading step that leaves a meter as it is. -/
def Read.unmetered {σ α : Type} (read : Read σ α) : Read (Meter × σ) α :=
  fun (meter, s) =>
    let (result, s) := read s
    (result, meter, s)

namespace FaultPlan

variable {σ α : Type}

/-- An error that a plan causes. -/
def failure (reason : String) : TraceError :=
  .cannotRead (.reported reason)

/-- A request that is refused with a reason, if it is to be refused. -/
def refuseIf (refused : Bool) (reason : String) (granted : Read σ α) : Read σ α :=
  if refused then Read.answer (.error (failure reason)) else granted

/-- Counts a request and refuses it if it is the failing one. -/
def request (plan : FaultPlan) (granted : Read (Meter × σ) α) : Read (Meter × σ) α :=
  fun (meter, s) =>
    let count := meter.requests + 1
    let meter := { meter with requests := count }
    if plan.failingRequest = some count then
      (.error (failure ("injected failure on request " ++ Nat.repr count)), meter, s)
    else granted (meter, s)

/-- Counts a record and replaces it by an error if it is the failing one. -/
def record (plan : FaultPlan) (read : Read σ α) : Read (Meter × σ) α :=
  fun (meter, s) =>
    let count := meter.records + 1
    let meter := { meter with records := count }
    if plan.failingRecord = some count then
      (.error (failure ("injected failure on record " ++ Nat.repr count)), meter, s)
    else read.unmetered (meter, s)

/-- A request for records, each of which is counted. -/
def metered (plan : FaultPlan) (request : Read σ (Listing σ α)) :
    Read (Meter × σ) (Listing (Meter × σ) α) :=
  request.unmetered.map (List.map plan.record)

/-- The clients of a reader with the extra ones, up to the cut. -/
def clientItems (plan : FaultPlan) (clients : Listing σ Client) :
    Listing (Meter × σ) Client :=
  let all := List.map Read.unmetered clients ++ Listing.ofList (plan.extraClients.map .ok)
  match plan.clientsCut with
  | none => all
  | some n => all.take n ++ [Read.answer (.error (failure "client enumeration failed"))]

/-- Notes that the children of a call were requested. -/
def expand (handle : Handle) (read : Read (Meter × σ) α) : Read (Meter × σ) α :=
  fun (meter, s) => read ({ meter with expanded := meter.expanded.push handle }, s)

/-- Counts a close. -/
def countClose (read : Read (Meter × σ) α) : Read (Meter × σ) α :=
  fun (meter, s) => read ({ meter with closed := meter.closed + 1 }, s)

/-- The reader that fails as planned and as the given one does. -/
def reader (plan : FaultPlan) (r : Reader σ) : Reader (Meter × σ) where
  clients := refuseIf plan.clientsRefused "client enumeration refused"
    (r.clients.unmetered.map plan.clientItems)
  calls client := plan.request (plan.metered (r.calls client))
  childCalls handle :=
    refuseIf (plan.guarded.contains handle)
      ("guarded call " ++ Nat.repr handle.index ++ " expanded")
      (plan.request (expand handle (plan.metered (r.childCalls handle))))
  modules := refuseIf plan.modulesRefused "module enumeration refused"
    (r.modules.unmetered.map (List.map Read.unmetered))
  close := countClose (refuseIf plan.closeRefused "close failed" r.close.unmetered)

end FaultPlan

end CallTrace
