import CallTrace.Reader

/-!
# Recordings as readers

A recording in memory answers every request from its arrays.  The module of a call is
looked up when the call is read; a call whose module is unknown is unreadable, but does
not hide the calls after it.
-/

namespace CallTrace.Recording

/-- The record of the call at an index. -/
def recordAt (r : Recording) (index : Nat) : Except TraceError CallRecord :=
  match r.nodes[index]? with
  | none => .error (.cannotRead (.invalidHandle ⟨index⟩))
  | some node =>
    match r.module? node.spec.moduleName with
    | none =>
      .error (.cannotRead (.unknownModule ⟨index⟩ node.spec.functionName node.spec.moduleName))
    | some m =>
      .ok {
        functionName := node.spec.functionName
        moduleName := m.name
        modulePath := m.path
        entry := node.spec.entry
        exit := node.spec.exit
        entryTimestamp := node.spec.entryTimestamp
        exitTimestamp := node.spec.exitTimestamp
        callerIp := node.spec.callerIp
        returnValue := node.spec.returnValue
        handle := ⟨index⟩ }

/-- The calls at some indices, read one at a time. -/
def records {σ : Type} (r : Recording) (indices : Array Nat) : Listing σ CallRecord :=
  indices.toList.map fun index s => (r.recordAt index, s)

/-- A recording as a reader.  Reading it changes nothing, and closing it does not fail. -/
def reader {σ : Type} (r : Recording) : Reader σ where
  clients := Read.answer (.ok (Listing.ofList (r.clients.toList.map (.ok ·.client))))
  calls client := Read.answer <|
    match r.client? client with
    | some entry => .ok (r.records entry.roots)
    | none => .error (.cannotRead (.unknownClient client))
  childCalls handle := Read.answer <|
    match r.nodes[handle.index]? with
    | some node => .ok (r.records node.children)
    | none => .error (.cannotRead (.invalidHandle handle))
  modules := Read.answer (.ok (Listing.ofList (r.modules.toList.map .ok)))
  close := Read.answer (.ok ())

end CallTrace.Recording
