import CallTrace.Call
import CallTrace.Client
import CallTrace.Module

/-!
# Recordings

A recording holds all its calls in one array; the handle of a call is its place there.
Every client lists its top-level calls, and every call lists its children, in the order
in which they were added.  A call can only be added below an earlier call of the same
client, so parents come before their children and the calls of a client form a forest.

A recording grows by adding modules, clients and calls.  A call may name a module that
is not, or not yet, part of the recording.
-/

namespace CallTrace

/-- A call with its place in the recording. -/
structure Node where
  spec : CallSpec
  /-- The index of the client that made the call. -/
  client : Nat
  children : Array Nat := #[]
deriving DecidableEq, Repr, Inhabited

/-- A client with the indices of its top-level calls. -/
structure ClientRoots where
  client : Client
  roots : Array Nat := #[]
deriving DecidableEq, Repr, Inhabited

/-- Modules, clients and calls. -/
structure Recording where
  modules : Array Module := #[]
  clients : Array ClientRoots := #[]
  nodes : Array Node := #[]
deriving DecidableEq, Repr, Inhabited

/-- Ways to add a call that cannot be meant. -/
inductive Misplaced where
  | unknownClient (index : Nat)
  | unknownParent (handle : Handle)
  | parentOfOtherClient
deriving DecidableEq, Repr

def Misplaced.message : Misplaced → String
  | .unknownClient index => "unknown client index " ++ Nat.repr index
  | .unknownParent handle => "unknown parent call handle " ++ Nat.repr handle.index
  | .parentOfOtherClient => "parent call belongs to another client"

namespace Recording

/-- Nothing recorded yet. -/
def empty : Recording := {}

def callCount (r : Recording) : Nat :=
  r.nodes.size

/-- The module that a name stands for: of several with this name, the last one. -/
def module? (r : Recording) (name : String) : Option Module :=
  (r.modules.toList.filter (·.name == name)).getLast?

/-- The entry of a client. -/
def client? (r : Recording) (client : Client) : Option ClientRoots :=
  r.clients.find? (·.client == client)

/-! ### Growth -/

def addModule (r : Recording) (m : Module) : Recording :=
  { r with modules := r.modules.push m }

/-- Adds a client unless it is known.  Gives its index. -/
def addClient (r : Recording) (client : Client) : Nat × Recording :=
  match r.clients.findIdx? (·.client == client) with
  | some index => (index, r)
  | none => (r.clients.size, { r with clients := r.clients.push { client } })

/-- Puts the next call below a parent, or at the top level of its client. -/
def link (r : Recording) (client : Nat) : Option Handle → Except Misplaced Recording
  | none =>
    let index := r.nodes.size
    .ok { r with
      clients := r.clients.modify client fun c => { c with roots := c.roots.push index } }
  | some parent =>
    match r.nodes[parent.index]? with
    | none => .error (.unknownParent parent)
    | some node =>
      if node.client = client then
        let index := r.nodes.size
        .ok { r with
          nodes := r.nodes.modify parent.index fun n =>
            { n with children := n.children.push index } }
      else .error .parentOfOtherClient

/-- Adds a call of a client, below a parent if one is given.  Gives its handle. -/
def addCall (r : Recording) (client : Nat) (parent : Option Handle) (spec : CallSpec) :
    Except Misplaced (Handle × Recording) :=
  if client < r.clients.size then
    match r.link client parent with
    | .error misplaced => .error misplaced
    | .ok linked =>
      let index := linked.nodes.size
      .ok (⟨index⟩, { linked with nodes := linked.nodes.push { spec, client } })
  else .error (.unknownClient client)

/-- Adds equal calls, each below the one before.  Gives the handle of the last one, which
    is the given parent if there are none. -/
def addChain (r : Recording) (client : Nat) (parent : Option Handle) (spec : CallSpec) :
    Nat → Except Misplaced (Option Handle × Recording)
  | 0 => .ok (parent, r)
  | n + 1 =>
    match r.addCall client parent spec with
    | .error misplaced => .error misplaced
    | .ok (handle, r) => addChain r client (some handle) spec n

end Recording

end CallTrace
