import CallTrace.Document
import CallTrace.Json.Layout

/-!
# Documents in JSON

The records of a document and their members.  Some members go by an older name as
well.  Everything that is not needed to place a call may be left out.
-/

namespace CallTrace

open Json

/-- The names of the ways to enter a call. -/
def EntryType.options : List (String × EntryType) :=
  [EntryType.normal, .synthetic].map fun t => (t.text, t)

/-- The names of the ways to leave a call. -/
def ExitType.options : List (String × ExitType) :=
  [ExitType.normal, .synthetic, .exception].map fun t => (t.text, t)

def Module.layout : Json.Layout Module where
  name := "struct ModuleEntry"
  blank := { name := "" }
  members := [
    .required ("name", []) .string fun v m => { m with name := v },
    .optional ("path", ["file_path"]) .string fun v m => { m with path := v },
    .optional ("load_address", []) .word64 fun v m => { m with loadAddress := v },
    .optional ("size", []) .word32 fun v m => { m with size := v }]

/-- A change of the description of a call, as a change of its entry. -/
def CallEntry.describe {α : Type} (put : α → CallSpec → CallSpec) (v : α) (e : CallEntry) :
    CallEntry :=
  { e with spec := put v e.spec }

def CallEntry.layout : Json.Layout CallEntry where
  name := "struct CallEntry"
  blank := { id := 0, spec := { functionName := "", moduleName := "" } }
  members := [
    .required ("id", []) .word64 fun v e => { e with id := v },
    .optional ("parent", []) (.nullable .word64) fun v e => { e with parent := v },
    .required ("function", ["name"]) .string
      (describe fun v s => { s with functionName := v }),
    .required ("module", []) .string (describe fun v s => { s with moduleName := v }),
    .optional ("entry", []) (.choice EntryType.options)
      (describe fun v s => { s with entry := v }),
    .optional ("exit", []) (.choice ExitType.options)
      (describe fun v s => { s with exit := v }),
    .optional ("entry_timestamp", []) .word64
      (describe fun v s => { s with entryTimestamp := v }),
    .optional ("exit_timestamp", []) .word64
      (describe fun v s => { s with exitTimestamp := v }),
    .optional ("caller_ip", []) .word64 (describe fun v s => { s with callerIp := v }),
    .optional ("return_value", []) .word64 (describe fun v s => { s with returnValue := v })]

def ClientEntry.layout : Json.Layout ClientEntry where
  name := "struct ClientEntry"
  blank := { client := ⟨0, 0⟩ }
  members := [
    .required ("process_id", ["pid"]) .word32
      fun v e => { e with client := { e.client with processId := v } },
    .required ("thread_id", ["tid"]) .word32
      fun v e => { e with client := { e.client with threadId := v } },
    .optional ("calls", []) (.list CallEntry.layout.decoder) fun v e => { e with calls := v }]

def Document.layout : Json.Layout Document where
  name := "struct TraceDocument"
  blank := { version := "" }
  members := [
    .required ("version", []) .string fun v d => { d with version := v },
    .optional ("modules", []) (.list Module.layout.decoder) fun v d => { d with modules := v },
    .optional ("clients", []) (.list ClientEntry.layout.decoder)
      fun v d => { d with clients := v }]

/-- The document that a JSON text stands for. -/
def Document.ofJson (text : Bytes) : Except Fault Document :=
  Document.layout.decoder.decode text

end CallTrace
