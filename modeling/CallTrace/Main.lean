import CallTrace.CommandLine

/-!
# The program

Reads the trace file that the arguments name, runs the command line on it, and prints
what it wrote.
-/

namespace CallTrace

/-- What stands at a path of the file system. -/
def readState (path : String) : IO FileState := do
  try
    let place ← IO.FS.realPath path
    if ← place.isDir then return .directory
    let read := do return FileState.file (← IO.FS.readBinFile place).data.toList
    tryCatch read fun failure => return .unreadable (toString failure)
  catch _ => return .absent

end CallTrace

def main (words : List String) : IO UInt32 := do
  let words := "trcan" :: words
  let state ← match CallTrace.Arguments.read words with
    | .ok arguments => CallTrace.readState arguments.request.path
    | .error _ => pure .absent
  let (code, sink) := CallTrace.CommandLine.run (fun _ => state) words {}
  let out ← IO.getStdout
  out.write ⟨sink.taken.toArray⟩
  out.flush
  return code.toUInt32
