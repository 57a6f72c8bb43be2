import Std.Data.HashMap
import CallTrace.Document
import CallTrace.Document.Version
import CallTrace.Recording

/-!
# Recordings of documents

The calls of a document are added one by one.  Each entry of the list of clients has its
own table from identifiers to handles, in which parents are looked up.  The first fault
is reported: the version first, then the calls in the order of the document.  Of one
call, the parent is checked before the identifier.
-/

namespace CallTrace

/-- Why a document does not describe a recording. -/
inductive DocumentFault where
  | version (fault : VersionFault)
  | parentUnknown (client : Client) (call parent : UInt64)
  | callRepeated (client : Client) (call : UInt64)
  /-- A call cannot be added where the document puts it. -/
  | misplaced (fault : Misplaced)
deriving DecidableEq, Repr

def DocumentFault.message : DocumentFault → String
  | .version fault => fault.message
  | .parentUnknown client call parent =>
    "client " ++ client.describe ++ ": call " ++ Nat.repr call.toNat
      ++ " refers to unknown or later parent " ++ Nat.repr parent.toNat
  | .callRepeated client call =>
    "client " ++ client.describe ++ ": duplicate call id " ++ Nat.repr call.toNat
  | .misplaced fault => fault.message

namespace Recording

/-- The handles of the calls of one entry, by their identifiers. -/
abbrev Handles := Std.HashMap UInt64 Handle

/-- The handle of the parent that a call names. -/
def parentHandle (client : Client) (handles : Handles) (call : CallEntry) :
    Except DocumentFault (Option Handle) :=
  match call.parent with
  | none => .ok none
  | some parent =>
    match handles[parent]? with
    | some handle => .ok (some handle)
    | none => .error (.parentUnknown client call.id parent)

/-- Adds one call of an entry. -/
def addCallEntry (client : Client) (index : Nat) (r : Recording) (handles : Handles)
    (call : CallEntry) : Except DocumentFault (Recording × Handles) :=
  match parentHandle client handles call with
  | .error fault => .error fault
  | .ok parent =>
    match r.addCall index parent call.spec with
    | .error fault => .error (.misplaced fault)
    | .ok (handle, r) =>
      if handles.contains call.id then .error (.callRepeated client call.id)
      else .ok (r, handles.insert call.id handle)

/-- Adds the calls of an entry in order. -/
def addCallEntries (client : Client) (index : Nat) (r : Recording) (handles : Handles) :
    List CallEntry → Except DocumentFault Recording
  | [] => .ok r
  | call :: calls =>
    match addCallEntry client index r handles call with
    | .error fault => .error fault
    | .ok (r, handles) => addCallEntries client index r handles calls

/-- Adds a client and its calls. -/
def addClientEntry (r : Recording) (entry : ClientEntry) : Except DocumentFault Recording :=
  let (index, r) := r.addClient entry.client
  addCallEntries entry.client index r ∅ entry.calls

/-- The recording that a document describes. -/
def ofDocument (d : Document) : Except DocumentFault Recording :=
  match checkVersion d.version with
  | .error fault => .error (.version fault)
  | .ok () => d.clients.foldlM addClientEntry (d.modules.foldl addModule empty)

end Recording

end CallTrace
