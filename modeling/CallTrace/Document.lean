import CallTrace.Call
import CallTrace.Client
import CallTrace.Module

/-!
# Trace documents

A document is the flat form in which recordings are stored.  It lists the modules and,
per client, the calls in the order in which they were recorded.  A call names its
parent by an identifier, so the document stays shallow however deep the calls nest.

Identifiers belong to one entry of the list of clients.  Two entries may describe the
same client, and their calls are then kept apart by their entries alone.
-/

namespace CallTrace

/-- A call of a document. -/
structure CallEntry where
  id : UInt64
  /-- The identifier of an earlier call of the same entry; none for a top-level call. -/
  parent : Option UInt64 := none
  spec : CallSpec
deriving DecidableEq, Repr, Inhabited

/-- A client with its calls. -/
structure ClientEntry where
  client : Client
  calls : List CallEntry := []
deriving DecidableEq, Repr, Inhabited

/-- The contents of a trace file. -/
structure Document where
  version : String
  modules : List Module := []
  clients : List ClientEntry := []
deriving DecidableEq, Repr, Inhabited

end CallTrace
