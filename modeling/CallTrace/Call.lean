import CallTrace.NamePrefix

/-!
# Calls

A recorded call appears in three forms.  `CallSpec` is what is known when it is
recorded.  `CallRecord` is what a reader hands out: the module is resolved and the
call has a handle.  `Call` is a record stamped with the store that read it, with
the function name cut to a bounded length.
-/

namespace CallTrace

/-- How a call was entered.  A synthetic entry is a bookkeeping record and never
    has children. -/
inductive EntryType where
  | normal
  | synthetic
deriving DecidableEq, Repr, Inhabited

/-- How a call was left. -/
inductive ExitType where
  | normal
  | synthetic
  | exception
deriving DecidableEq, Repr, Inhabited

/-- The word for a way to enter a call. -/
def EntryType.text : EntryType → String
  | .normal => "normal"
  | .synthetic => "synthetic"

/-- The word for a way to leave a call. -/
def ExitType.text : ExitType → String
  | .normal => "normal"
  | .synthetic => "synthetic"
  | .exception => "exception"

/-- The place of a call in its recording, counted over all clients. -/
structure Handle where
  index : Nat
deriving DecidableEq, Repr, Inhabited

/-- The description of a call to be recorded. -/
structure CallSpec where
  functionName : String
  moduleName : String
  entry : EntryType := .normal
  exit : ExitType := .normal
  entryTimestamp : UInt64 := 0
  exitTimestamp : UInt64 := 0
  callerIp : UInt64 := 0
  returnValue : UInt64 := 0
deriving DecidableEq, Repr, Inhabited

/-- A call as a reader delivers it. -/
structure CallRecord where
  functionName : String
  moduleName : String
  modulePath : String
  entry : EntryType
  exit : ExitType
  entryTimestamp : UInt64
  exitTimestamp : UInt64
  callerIp : UInt64
  returnValue : UInt64
  handle : Handle
deriving DecidableEq, Repr, Inhabited

/-- Stores are numbered in the order in which they were opened. -/
abbrev StoreId := Nat

/-- A record stamped with the store that it was read from. -/
structure Call extends CallRecord where
  store : StoreId
deriving DecidableEq, Repr, Inhabited

/-- Function names of calls have at most this many characters. -/
def functionNameLimit : Nat := 64

/-- A name cut to the bounded length. -/
def boundName (name : String) : String :=
  String.ofList (name.toList.take functionNameLimit)

namespace Call

/-- Stamps a record; the function name is cut, all else is kept. -/
def ofRecord (record : CallRecord) (store : StoreId) : Call :=
  { record with functionName := boundName record.functionName, store }

/-- Whether a call is a bookkeeping record. -/
def isSynthetic (call : Call) : Bool :=
  call.entry == .synthetic

/-- `Module!Function`. -/
def qualifiedName (call : Call) : String :=
  call.moduleName ++ "!" ++ call.functionName

/-- The time between entry and exit, zero if the timestamps are inverted. -/
def duration (call : Call) : UInt64 :=
  if call.entryTimestamp ≤ call.exitTimestamp then
    call.exitTimestamp - call.entryTimestamp
  else 0

end Call

/-- What calls are counted by. -/
inductive Grouping where
  /-- By `Module!Function`. -/
  | qualifiedName
  /-- By the leading words of the function name alone. -/
  | namePrefix
deriving DecidableEq, Repr, Inhabited

/-- The key under which a call is counted. -/
def Grouping.key : Grouping → Call → String
  | .qualifiedName, call => call.qualifiedName
  | .namePrefix, call => CallTrace.namePrefix call.functionName

end CallTrace
