/-!
# Modules

A module is a binary image loaded by a traced process.  Calls name their module;
its path is looked up when a call is read.
-/

namespace CallTrace

/-- A loaded module. -/
structure Module where
  name : String
  path : String := ""
  loadAddress : UInt64 := 0
  size : UInt32 := 0
deriving DecidableEq, Repr, Inhabited

end CallTrace
