import CallTrace.Decimal.Natural
import CallTrace.Text.Blank

/-!
# Versions of the document format

Only the part of a version before its first point counts: it must read as the supported
major version.  Blanks around it are ignored, as is everything after the point.
-/

namespace CallTrace

/-- The major version of the documents that can be read. -/
def supportedMajor : Nat := 1

/-- Why a version is refused. -/
inductive VersionFault where
  /-- The major part is not a number of 32 bits. -/
  | invalid (version : String)
  | unsupported (version : String)
deriving DecidableEq, Repr

def VersionFault.message : VersionFault → String
  | .invalid version => "invalid trace format version '" ++ version ++ "'"
  | .unsupported version =>
    "unsupported trace format version " ++ version ++ " (expected "
      ++ Nat.repr supportedMajor ++ ".x)"

/-- The number before the first point of a version. -/
def majorVersion? (version : String) : Option Nat :=
  Decimal.natural? UInt32.size (Text.trim (version.toList.takeWhile (· ≠ '.')))

/-- Accepts a version whose major part is the supported one. -/
def checkVersion (version : String) : Except VersionFault Unit :=
  match majorVersion? version with
  | none => .error (.invalid version)
  | some major => if major = supportedMajor then .ok () else .error (.unsupported version)

end CallTrace
