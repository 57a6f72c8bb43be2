import CallTrace.Document.Layout
import CallTrace.TraceError

/-!
# Recordings from files

A trace file holds a document in JSON.  Its text is decoded completely before the version
and the calls are checked.
-/

namespace CallTrace

/-- What stands at a path. -/
inductive FileState where
  | absent
  | directory
  /-- There is a file, but it cannot be opened or not be read to its end. -/
  | unreadable (reason : String)
  | file (contents : Json.Bytes)
deriving DecidableEq, Repr, Inhabited

/-- What stands at each path. -/
abbrev Files := String → FileState

namespace Recording

/-- The recording that a JSON text describes. -/
def ofJson (text : Json.Bytes) : Except OpenFailure Recording :=
  match Document.ofJson text with
  | .error fault => .error (.json fault)
  | .ok d =>
    match ofDocument d with
    | .error fault => .error (.document fault)
    | .ok r => .ok r

/-- The recording in a text that is no file; errors name it `<inline>`. -/
def ofText (text : String) : Except TraceError Recording :=
  (ofJson text.toUTF8.data.toList).mapError (.cannotOpen "<inline>")

/-- The recording in a file. -/
def ofFile (files : Files) (path : String) : Except TraceError Recording :=
  match files path with
  | .absent => .error (.notFound path)
  | .directory => .error (.cannotOpen path .directory)
  | .unreadable reason => .error (.cannotOpen path (.unreadable reason))
  | .file contents => (ofJson contents).mapError (.cannotOpen path)

end Recording

end CallTrace
