import CallTrace.Proofs.Reader.Steady
import CallTrace.Recording.Listings

/-!
# What a recording answers

A recording in memory is a steady reader: it answers every request from its arrays
(`Recording.reader_gives`).  A call can be read exactly if its module is part of the recording.
-/

namespace CallTrace.Recording

variable (r : Recording)

/-- The answers of the recording as a reader. -/
def answers : Answers where
  clients := .ok (r.clients.toList.map (.ok ·.client))
  calls client :=
    match r.client? client with
    | some entry => .ok (entry.roots.toList.map r.recordAt)
    | none => .error (.cannotRead (.unknownClient client))
  childCalls handle :=
    match r.nodes[handle.index]? with
    | some node => .ok (node.children.toList.map r.recordAt)
    | none => .error (.cannotRead (.invalidHandle handle))

variable {σ : Type}

theorem gives_records (indices : Array Nat) :
    Listing.Gives (r.records indices : Listing σ CallRecord) (indices.toList.map r.recordAt) := by
  have reads : ∀ index, Read.Gives (fun s : σ => (r.recordAt index, s)) (r.recordAt index) :=
    fun index s => rfl
  exact Listing.gives_map reads indices.toList

theorem reader_gives : (r.reader : Reader σ).Gives r.answers where
  clients := Read.lists_answer (Listing.gives_ofList _)
  calls := by
    intro client
    simp only [reader, answers]
    cases r.client? client with
    | none => exact Read.lists_refused _
    | some entry => exact Read.lists_answer (r.gives_records entry.roots)
  childCalls := by
    intro handle
    simp only [reader, answers]
    cases r.nodes[handle.index]? with
    | none => exact Read.lists_refused _
    | some node => exact Read.lists_answer (r.gives_records node.children)

variable {r} {i : Nat} {record : CallRecord} {node : Node}

theorem exists_module? {name : String} (h : name ∈ r.modules.toList.map Module.name) :
    ∃ m, r.module? name = some m := by
  obtain ⟨m, hm, hname⟩ := List.mem_map.mp h
  have listed : m ∈ r.modules.toList.filter (·.name == name) := by
    rw [List.mem_filter, hname]
    exact ⟨hm, beq_self_eq_true name⟩
  exact ⟨_, List.getLast?_eq_some_getLast (List.ne_nil_of_mem listed)⟩

theorem recordAt_of_listed (hnode : r.nodes[i]? = some node)
    (h : node.spec.moduleName ∈ r.modules.toList.map Module.name) :
    ∃ record, r.recordAt i = .ok record := by
  obtain ⟨m, hm⟩ := exists_module? h
  simp only [recordAt, hnode, hm]
  exact ⟨_, rfl⟩

theorem recordAt_eq_ok (h : r.recordAt i = .ok record) :
    ∃ node, r.nodes[i]? = some node ∧ record.handle = ⟨i⟩ ∧ record.entry = node.spec.entry := by
  rw [recordAt] at h
  cases hnode : r.nodes[i]? with
  | none =>
    rw [hnode] at h
    cases h
  | some node =>
    cases hmodule : r.module? node.spec.moduleName with
    | none =>
      simp only [hnode, hmodule] at h
      cases h
    | some m =>
      simp only [hnode, hmodule] at h
      cases h
      exact ⟨node, rfl, rfl, rfl⟩

end CallTrace.Recording
