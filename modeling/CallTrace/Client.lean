/-!
# Clients

A client is one traced thread of one traced process.  Every call of a recording
belongs to exactly one client.
-/

namespace CallTrace

/-- A process and one of its threads. -/
structure Client where
  processId : UInt32
  threadId : UInt32
deriving DecidableEq, Repr, Inhabited

namespace Client

/-- Clients are ordered by process, then by thread. -/
def order (a b : Client) : Ordering :=
  (compare a.processId b.processId).then (compare a.threadId b.threadId)

instance : Ord Client := ⟨order⟩

/-- How a client is named in messages. -/
def describe (c : Client) : String :=
  "pid " ++ Nat.repr c.processId.toNat ++ " / tid " ++ Nat.repr c.threadId.toNat

end Client

end CallTrace
