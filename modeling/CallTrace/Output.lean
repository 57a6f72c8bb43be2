/-!
# Output

A sink takes bytes until its room is used up.  A piece of output that only partly
fits is taken up to the limit, and counts as failed.  A program that prints ends at the first
piece that its sink refuses.
-/

namespace CallTrace

/-- Where output goes: how many more bytes fit, if that is limited, what was taken so far,
    and what is said of a piece that does not fit. -/
structure Sink where
  room : Option Nat := none
  taken : List UInt8 := []
  refusal : String := "failed to write whole buffer"
deriving DecidableEq, Repr, Inhabited

namespace Sink

/-- Offers bytes to a sink; the answer tells whether all of them fitted. -/
def write (bytes : List UInt8) (sink : Sink) : Bool × Sink :=
  match sink.room with
  | none => (true, { sink with taken := sink.taken ++ bytes })
  | some room =>
    (decide (bytes.length ≤ room),
      { sink with
        room := some (room - bytes.length)
        taken := sink.taken ++ bytes.take room })

/-- Offers a text in UTF-8. -/
def writeText (text : String) (sink : Sink) : Bool × Sink :=
  sink.write text.toUTF8.data.toList

end Sink

/-- A program that prints, and that may end early with the text of an error. -/
abbrev Printing := ExceptT String (StateM Sink)

namespace Printing

/-- Writes to the sink, which must not refuse a part of it. -/
def offer (write : Sink → Bool × Sink) : Printing Unit := do
  let fits ← modifyGet write
  if fits then pure () else throw (← get).refusal

def print (text : String) : Printing Unit :=
  offer (Sink.writeText text)

end Printing

end CallTrace
