import CallTrace.Json.Fault
import CallTrace.Recording.OfDocument

/-!
# Trace errors

A trace can be missing, it can be refused as a whole when it is opened, or a part of it
can turn out to be unreadable while it is being read.
-/

namespace CallTrace

/-- Why a trace is refused when it is opened. -/
inductive OpenFailure where
  | directory
  | unreadable (reason : String)
  | json (fault : Json.Fault)
  | document (fault : DocumentFault)

/-- Why a part of an open trace cannot be read. -/
inductive ReadFailure where
  /-- A call names a module that the recording does not have. -/
  | unknownModule (handle : Handle) (functionName moduleName : String)
  | unknownClient (client : Client)
  | invalidHandle (handle : Handle)
  /-- The source reports a reason of its own. -/
  | reported (reason : String)
deriving DecidableEq, Repr

/-- What can be wrong with a trace. -/
inductive TraceError where
  | notFound (path : String)
  | cannotOpen (path : String) (cause : OpenFailure)
  | cannotRead (cause : ReadFailure)

def OpenFailure.message : OpenFailure → String
  | .directory => "Is a directory (os error 21)"
  | .unreadable reason => reason
  | .json fault => fault.message
  | .document fault => fault.message

def ReadFailure.message : ReadFailure → String
  | .unknownModule handle functionName moduleName =>
    "call " ++ Nat.repr handle.index ++ " (" ++ functionName
      ++ ") references unknown module '" ++ moduleName ++ "'"
  | .unknownClient client => "unknown client " ++ client.describe
  | .invalidHandle handle => "invalid call handle " ++ Nat.repr handle.index
  | .reported reason => reason

namespace TraceError

def message : TraceError → String
  | .notFound path => "Trace file not found: " ++ path
  | .cannotOpen path cause => "Failed to open trace file " ++ path ++ ": " ++ cause.message
  | .cannotRead cause => "Failed to read trace: " ++ cause.message

/-- Whether the trace was open; what was read before the error is still good. -/
def isReadError : TraceError → Bool
  | .cannotRead _ => true
  | _ => false

end TraceError

end CallTrace
