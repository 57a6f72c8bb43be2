import CallTrace.Proofs.Counting
import CallTrace.Proofs.Recording.Interleaving
import CallTrace.Proofs.Walk.Placed

/-!
# Walks over recordings that differ by a renumbering

If the calls of one recording are those of another under other handles, every answer of the
first is the same answer of the second with the handles replaced (`Arranged.answers_renumber`).
A walk then takes the same calls in the same order and fails at the same place, so the calls
are counted under the same keys.  In particular a recording looks the same, apart from the
handles, however the calls of its clients were mixed (`Recording.build_interleaved`).
-/

namespace CallTrace

/-! ### Other handles -/

section Renumber

variable (π : Equiv.Perm Nat)

def Handle.renumber (handle : Handle) : Handle :=
  ⟨π handle.index⟩

def CallRecord.renumber (record : CallRecord) : CallRecord :=
  { record with handle := record.handle.renumber π }

def ReadFailure.renumber : ReadFailure → ReadFailure
  | .unknownModule handle functionName moduleName =>
    .unknownModule (handle.renumber π) functionName moduleName
  | .unknownClient client => .unknownClient client
  | .invalidHandle handle => .invalidHandle (handle.renumber π)
  | .reported reason => .reported reason

def TraceError.renumber : TraceError → TraceError
  | .notFound path => .notFound path
  | .cannotOpen path cause => .cannotOpen path cause
  | .cannotRead cause => .cannotRead (cause.renumber π)

def renumberItem : Except TraceError CallRecord → Except TraceError CallRecord
  | .ok record => .ok (record.renumber π)
  | .error e => .error (e.renumber π)

def renumberListing : Except TraceError (List (Except TraceError CallRecord)) →
    Except TraceError (List (Except TraceError CallRecord))
  | .ok items => .ok (items.map (renumberItem π))
  | .error e => .error (e.renumber π)

/-- The same answers, with other handles in the requests and in the records. -/
def Answers.renumber (a : Answers) : Answers where
  clients := a.clients
  calls client := renumberListing π (a.calls client)
  childCalls handle := renumberListing π (a.childCalls (handle.renumber π.symm))

end Renumber

variable {π : Equiv.Perm Nat}

/-- The key under which a call is counted does not depend on its handle or on the store. -/
theorem key_renumber (grouping : Grouping) (record : CallRecord) (store store' : StoreId) :
    grouping.key (Call.ofRecord (record.renumber π) store') =
      grouping.key (Call.ofRecord record store) := by
  cases grouping <;> rfl

/-- Renumbered records are delivered one by one, up to the same failure. -/
theorem Delivery.exists_upTo_renumber (store store' : StoreId)
    (items : List (Except TraceError CallRecord)) :
    ∃ (records : List CallRecord) (failure : Option TraceError),
      upTo store items = ⟨records.map (Call.ofRecord · store), failure⟩ ∧
      upTo store' (items.map (renumberItem π)) =
        ⟨records.map fun record => Call.ofRecord (record.renumber π) store',
          failure.map (TraceError.renumber π)⟩ := by
  induction items with
  | nil => exact ⟨[], none, rfl, rfl⟩
  | cons item items ih =>
    cases item with
    | error e => exact ⟨[], some e, rfl, rfl⟩
    | ok record =>
      obtain ⟨records, failure, here, there⟩ := ih
      refine ⟨record :: records, failure, ?_, ?_⟩
      · rw [upTo, here]
        rfl
      · rw [List.map_cons, renumberItem, upTo, there]
        rfl

namespace Recording

/-! ### Recordings whose layouts differ by a renumbering -/

section Layouts

variable {r r' : Recording} {clients : List Client} {ps qs : List Placement}
  (h : Arranged r clients ps) (h' : Arranged r' clients qs) (renumbers : Renumbers π ps qs)
  (modules : r'.modules = r.modules)

include h h' renumbers

theorem Arranged.getElem?_nodes_renumber (i : Nat) :
    r'.nodes[π i]? = (r.nodes[i]?).map fun n =>
      { n with children := (n.children.toList.map π).toArray } := by
  rw [h'.getElem?_nodes, renumbers.getElem?, renumbers.childPlaces_eq h.placed,
    h.getElem?_nodes, Option.map_map, Option.map_map]
  rfl

theorem Arranged.client?_renumber (client : Client) :
    r'.client? client = (r.client? client).map fun c =>
      { c with roots := (c.roots.toList.map π).toArray } := by
  obtain ⟨ms, rfl⟩ := h.eq
  obtain ⟨ms', rfl⟩ := h'.eq
  rw [client?_arrangement, client?_arrangement, renumbers.rootPlaces_eq]
  by_cases hmem : client ∈ clients
  · rw [if_pos hmem, if_pos hmem]
    rfl
  · rw [if_neg hmem, if_neg hmem]
    rfl

include modules

theorem Arranged.recordAt_renumber (i : Nat) :
    r'.recordAt (π i) = renumberItem π (r.recordAt i) := by
  rw [recordAt, recordAt, h.getElem?_nodes_renumber h' renumbers]
  cases r.nodes[i]? with
  | none => rfl
  | some node =>
    have same : r'.module? node.spec.moduleName = r.module? node.spec.moduleName := by
      rw [module?, module?, modules]
    simp only [Option.map_some, same]
    cases r.module? node.spec.moduleName <;> rfl

theorem Arranged.map_recordAt_renumber (is : List Nat) :
    (is.map π).map r'.recordAt = (is.map r.recordAt).map (renumberItem π) := by
  rw [List.map_map, List.map_map]
  apply List.map_congr_left
  intro i _
  exact h.recordAt_renumber h' renumbers modules i

/-- Every answer is the same, apart from the handles. -/
theorem Arranged.answers_renumber : r'.answers = r.answers.renumber π := by
  have sameClients : (r'.clients.toList.map ClientRoots.client).map Except.ok =
      ((r.clients.toList.map ClientRoots.client).map Except.ok :
        List (Except TraceError Client)) := by
    rw [h.map_client, h'.map_client]
  rw [Answers.mk.injEq]
  refine ⟨?_, ?_, ?_⟩
  · rw [List.map_map, List.map_map] at sameClients
    exact congrArg Except.ok sameClients
  · funext client
    simp only [answers, Answers.renumber]
    rw [h.client?_renumber h' renumbers]
    cases r.client? client with
    | none => rfl
    | some entry =>
      exact congrArg Except.ok (h.map_recordAt_renumber h' renumbers modules _)
  · funext handle
    obtain ⟨i, rfl⟩ : ∃ i, handle = ⟨π i⟩ :=
      ⟨π.symm handle.index, congrArg Handle.mk (π.apply_symm_apply _).symm⟩
    simp only [answers, Answers.renumber, Handle.renumber, Equiv.symm_apply_apply]
    rw [h.getElem?_nodes_renumber h' renumbers]
    cases r.nodes[i]? with
    | none => rfl
    | some node =>
      exact congrArg Except.ok (h.map_recordAt_renumber h' renumbers modules _)

/-- The recursive walks take the same calls, and fail at the same call if they fail. -/
theorem Arranged.exists_walkClients_renumber (store store' : StoreId) :
    ∃ (records : List CallRecord) (failure : Option TraceError),
      r.answers.walkClients store (clients.map .ok) =
        some ⟨records.map (Call.ofRecord · store), failure⟩ ∧
      r'.answers.walkClients store' (clients.map .ok) =
        some ⟨records.map fun record => Call.ofRecord (record.renumber π) store',
          failure.map (TraceError.renumber π)⟩ := by
  obtain ⟨order, traversal, -⟩ := exists_traversal_top h.nodup h.placed
  have traversal' := renumbers.traversal h.placed traversal
  rw [← renumbers.topPlaces_eq] at traversal'
  obtain ⟨records, failure, here, there⟩ :=
    Delivery.exists_upTo_renumber store store' (order.map r.recordAt)
  refine ⟨records, failure, ?_, ?_⟩
  · rw [h.fits.walkClients_eq traversal, here]
  · rw [h'.fits.walkClients_eq traversal', h.map_recordAt_renumber h' renumbers modules, there]

end Layouts

/-! ### Interleavings -/

/-- The second recording holds the calls of the first under other handles.  Every call stays
    with its client, and the calls of a client stay in order. -/
structure Renumbered (π : Equiv.Perm Nat) (r r' : Recording) : Prop where
  callCount : r'.callCount = r.callCount
  clientOf : ∀ i, r'.clientOf (π i) = r.clientOf i
  ascending : ∀ i j, r.clientOf i = r.clientOf j → i < j → j < r.callCount → π i < π j

theorem Arranged.renumbered {r r' : Recording} {clients : List Client} {ps qs : List Placement}
    (h : Arranged r clients ps) (h' : Arranged r' clients qs) (renumbers : Renumbers π ps qs)
    (length : qs.length = ps.length) : Renumbered π r r' := by
  constructor
  · rw [callCount, callCount, h.size_nodes, h'.size_nodes, length]
  · intro i
    rw [h.clientOf_eq, h'.clientOf_eq, renumbers.getElem?, Option.map_map]
    rfl
  · intro i j same hlt hj
    rw [callCount, h.size_nodes] at hj
    have hi := Nat.lt_trans hlt hj
    rw [h.clientOf_eq, h.clientOf_eq, List.getElem?_eq_getElem hi, List.getElem?_eq_getElem hj,
      Option.map_some, Option.map_some, Option.some_inj] at same
    exact renumbers.ascending i j _ _ (List.getElem?_eq_getElem hi) (List.getElem?_eq_getElem hj)
      same hlt

/-- However the calls of the clients are mixed when they are recorded, the recording answers
    every request in the same way, apart from the handles; a walk takes the same calls and fails
    after the same calls; and an analysis has the same ranking. -/
theorem build_interleaved {xs ys : List Addition} (same : Interleaved xs ys) {r r' : Recording}
    (hr : build xs = .ok r) (hr' : build ys = .ok r') :
    ∃ π : Equiv.Perm Nat, Renumbered π r r' ∧ ∀ {σ : Type},
      ((r.reader : Reader σ).Gives r.answers ∧
        (r'.reader : Reader σ).Gives (r.answers.renumber π) ∧
        (r'.reader : Reader σ).modules = (r.reader : Reader σ).modules) ∧
      ∀ (id id' : StoreId) (s s' : σ),
        (∃ (records : List CallRecord) (failure : Option TraceError), ∃ w t w' t',
          Walk.ofClients r.reader s = (.ok w, t) ∧
          w.Delivers r.reader id t ⟨records.map (Call.ofRecord · id), failure⟩ ∧
          Walk.ofClients r'.reader s' = (.ok w', t') ∧
          w'.Delivers r'.reader id' t'
            ⟨records.map fun record => Call.ofRecord (record.renumber π) id',
              failure.map (TraceError.renumber π)⟩) ∧
        ∀ grouping n, ∃ t t',
          (∃ ranking,
            Store.analyze ⟨id, r.reader, s, true⟩ grouping n =
              .ok (.ok ranking, ⟨id, r.reader, t, true⟩) ∧
            Store.analyze ⟨id', r'.reader, s', true⟩ grouping n =
              .ok (.ok ranking, ⟨id', r'.reader, t', true⟩)) ∨
          ∃ e,
            Store.analyze ⟨id, r.reader, s, true⟩ grouping n =
              .ok (.error (.reading e), ⟨id, r.reader, t, true⟩) ∧
            Store.analyze ⟨id', r'.reader, s', true⟩ grouping n =
              .ok (.error (.reading (e.renumber π)), ⟨id', r'.reader, t', true⟩) := by
  have built := builtFrom_of_build hr
  have built' := builtFrom_of_build hr'
  have h := built.arranged
  have h' := built'.arranged
  rw [same.clients] at h'
  have renumbers := renumbers_pairing h.placed h'.placed same.calls
  have modules : r'.modules = r.modules := by
    apply Array.toList_inj.mp
    rw [built.modules, built'.modules, same.modules]
  refine ⟨pairing same.calls, h.renumbered h' renumbers (length_eq_of_lineup same.calls), ?_⟩
  intro σ
  have gives : (r'.reader : Reader σ).Gives (r.answers.renumber (pairing same.calls)) :=
    h.answers_renumber h' renumbers modules ▸ r'.reader_gives
  have sameModules : (r'.reader : Reader σ).modules = (r.reader : Reader σ).modules := by
    rw [reader, reader, modules]
  refine ⟨⟨r.reader_gives, gives, sameModules⟩, ?_⟩
  intro id id' s s'
  obtain ⟨records, failure, walked, walked'⟩ :=
    h.exists_walkClients_renumber h' renumbers modules id id'
  constructor
  · obtain ⟨w, t, started, -, delivers⟩ :=
      exists_ofClients_delivers r.reader_gives h.fits.clients walked s
    obtain ⟨w', t', started', -, delivers'⟩ :=
      exists_ofClients_delivers r'.reader_gives h'.fits.clients walked' s'
    exact ⟨records, failure, w, t, w', t', started, delivers, started', delivers'⟩
  · intro grouping n
    refine ⟨(r.reader.histogram id grouping.key .empty s).2,
      (r'.reader.histogram id' grouping.key .empty s').2, ?_⟩
    have counted := histogram_eq r.reader_gives h.fits.clients walked grouping.key .empty s
    have counted' := histogram_eq r'.reader_gives h'.fits.clients walked' grouping.key .empty s'
    -- The keys are the same, so the tallies are.
    have keys : (records.map fun record =>
          Call.ofRecord (record.renumber (pairing same.calls)) id').map grouping.key =
        (records.map (Call.ofRecord · id)).map grouping.key := by
      rw [List.map_map, List.map_map]
      apply List.map_congr_left
      intro record _
      exact key_renumber grouping record id id'
    rw [Tally.fold_items] at counted counted'
    rw [keys] at counted'
    rw [Store.analyze_open, Store.analyze_open, counted, counted']
    cases failure with
    | none => exact .inl ⟨_, rfl, rfl⟩
    | some e => exact .inr ⟨e, rfl, rfl⟩

/-- Two clients whose calls are recorded in turns; the last call names no known module. -/
def inTurns : List Addition :=
  [.module { name := "nt" }, .client ⟨4, 8⟩, .client ⟨4, 12⟩,
    .call 0 none { functionName := "NtCreateFile", moduleName := "nt" },
    .call 1 none { functionName := "NtClose", moduleName := "nt" },
    .call 0 (some ⟨0⟩) { functionName := "NtClose", moduleName := "nt" },
    .call 1 (some ⟨1⟩) { functionName := "lost", moduleName := "gone" }]

/-- The same calls, first those of one client and then those of the other. -/
def oneByOne : List Addition :=
  [.client ⟨4, 8⟩,
    .call 0 none { functionName := "NtCreateFile", moduleName := "nt" },
    .call 0 (some ⟨0⟩) { functionName := "NtClose", moduleName := "nt" },
    .client ⟨4, 12⟩,
    .call 1 none { functionName := "NtClose", moduleName := "nt" },
    .module { name := "nt" }, .client ⟨4, 8⟩,
    .call 1 (some ⟨2⟩) { functionName := "lost", moduleName := "gone" }]

theorem interleaved_inTurns : Interleaved inTurns oneByOne := by
  refine ⟨by decide, by decide, ?_⟩
  intro k
  match k with
  | 0 => decide
  | 1 => decide
  | k + 2 => rfl

/-- The first call of the second client has handle 1 in one recording and 2 in the other. -/
theorem build_interleaved_inTurns :
    Interleaved inTurns oneByOne ∧ build inTurns = .ok (grown inTurns) ∧
      build oneByOne = .ok (grown oneByOne) ∧
      ∃ π : Equiv.Perm Nat, Renumbered π (grown inTurns) (grown oneByOne) ∧ π 1 = 2 ∧
        ((grown oneByOne).reader : Reader Unit).Gives ((grown inTurns).answers.renumber π) := by
  have built : build inTurns = .ok (grown inTurns) := by decide +kernel
  have built' : build oneByOne = .ok (grown oneByOne) := by decide +kernel
  obtain ⟨π, renumbered, listings⟩ := build_interleaved interleaved_inTurns built built'
  refine ⟨interleaved_inTurns, built, built', π, renumbered, ?_, (listings (σ := Unit)).1.2.1⟩
  have clientOf : ∀ i, (grown oneByOne).clientOf i = some 1 → i = 2 ∨ i = 3 := by
    intro i hi
    obtain ⟨node, hnode, -⟩ := Option.map_eq_some_iff.mp hi
    have hlt := (Array.getElem?_eq_some_iff.mp hnode).1
    have size : (grown oneByOne).nodes.size = 4 := by decide +kernel
    have all : ∀ i < 4, (grown oneByOne).clientOf i = some 1 → i = 2 ∨ i = 3 := by
      decide +kernel
    exact all i (size ▸ hlt) hi
  have first := clientOf (π 1) (by rw [renumbered.clientOf]; decide +kernel)
  have second := clientOf (π 3) (by rw [renumbered.clientOf]; decide +kernel)
  have ascending := renumbered.ascending 1 3 (by decide +kernel) (by decide) (by decide +kernel)
  omega

end Recording

end CallTrace
