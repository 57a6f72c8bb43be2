import CallTrace.Proofs.Document.Decoding

/-!
# Clients with several entries

Two entries of one client that follow each other share the client in the recording, but each
has a table of identifiers of its own.  What one table holds beyond the other makes no
difference to calls that do not use those identifiers (`addCallEntries_congr`).  So the two
entries are recorded like one with the calls of both unless a call of the second entry bears
an identifier of the first or names one as its parent (`addClientEntry_splitEntry`).
-/

namespace CallTrace

/-- The call bears the identifier of one of the earlier calls, or names it as its parent. -/
def CallEntry.Meets (earlier : List CallEntry) (call : CallEntry) : Prop :=
  ∃ c ∈ earlier, c.id = call.id ∨ call.parent = some c.id

section Linked

variable {calls first second : List CallEntry}

/-- The parents of linked calls are among their identifiers. -/
theorem Linked.parent_mem (linked : Linked calls) {call : CallEntry} (hcall : call ∈ calls)
    {parent : UInt64} (names : call.parent = some parent) : ∃ c ∈ calls, c.id = parent := by
  obtain ⟨before, after, rfl⟩ := List.append_of_mem hcall
  obtain ⟨c, hc, hid⟩ := linked.parents before call after rfl parent names
  exact ⟨c, List.mem_append_left _ hc, hid⟩

theorem Linked.ids_apart (linked : Linked (first ++ second)) :
    ∀ call ∈ second, ∀ c ∈ first, c.id ≠ call.id := by
  intro call hcall c hc
  have distinct := linked.distinct
  rw [List.map_append, List.nodup_append] at distinct
  exact distinct.2.2 c.id (List.mem_map_of_mem hc) call.id (List.mem_map_of_mem hcall)

end Linked

namespace Document

variable (d : Document) (earlier : List ClientEntry) (client : Client)
  (first second : List CallEntry) (later : List ClientEntry)

/-- The document with these entries, two of them for one client. -/
def splitEntry : Document :=
  { d with clients := earlier ++ ⟨client, first⟩ :: ⟨client, second⟩ :: later }

/-- The document with one entry for the client instead. -/
def joinedEntry : Document :=
  { d with clients := earlier ++ ⟨client, first ++ second⟩ :: later }

end Document

namespace Recording

variable {client : Client} {index : Nat} {r : Recording} {handles handles' : Handles}
  {calls first second : List CallEntry}

/-! ### Tables that agree -/

theorem parentHandle_congr {call : CallEntry}
    (agree : ∀ id, (∀ c ∈ first, c.id ≠ id) → handles[id]? = handles'[id]?)
    (apart : ¬ call.Meets first) :
    parentHandle client handles call = parentHandle client handles' call := by
  rw [parentHandle, parentHandle]
  cases names : call.parent with
  | none => rfl
  | some parent =>
    have same : handles[parent]? = handles'[parent]? := by
      apply agree
      rintro c hc rfl
      exact apart ⟨c, hc, .inr names⟩
    simp only [same]

/-- With tables that agree on what a call uses, the call is refused with one fault or added to
    one recording, and each table gains its identifier. -/
theorem addCallEntry_congr (client : Client) (index : Nat) (r : Recording) {call : CallEntry}
    (agree : ∀ id, (∀ c ∈ first, c.id ≠ id) → handles[id]? = handles'[id]?)
    (apart : ¬ call.Meets first) :
    (∃ fault, addCallEntry client index r handles call = .error fault ∧
        addCallEntry client index r handles' call = .error fault) ∨
      ∃ r' handle,
        addCallEntry client index r handles call = .ok (r', handles.insert call.id handle) ∧
        addCallEntry client index r handles' call = .ok (r', handles'.insert call.id handle) := by
  have contains : handles.contains call.id = handles'.contains call.id := by
    rw [Std.HashMap.contains_eq_isSome_getElem?, Std.HashMap.contains_eq_isSome_getElem?,
      agree call.id fun c hc hid => apart ⟨c, hc, .inl hid⟩]
  simp only [addCallEntry, parentHandle_congr agree apart, contains]
  cases parentHandle client handles' call with
  | error fault => exact .inl ⟨fault, rfl, rfl⟩
  | ok parent =>
    dsimp only
    cases r.addCall index parent call.spec with
    | error misplaced => exact .inl ⟨_, rfl, rfl⟩
    | ok added =>
      dsimp only
      split
      · exact .inl ⟨_, rfl, rfl⟩
      · exact .inr ⟨_, _, rfl, rfl⟩

/-- Identifiers that no call uses make no difference. -/
theorem addCallEntries_congr
    (agree : ∀ id, (∀ c ∈ first, c.id ≠ id) → handles[id]? = handles'[id]?)
    (apart : ∀ call ∈ calls, ¬ call.Meets first) :
    addCallEntries client index r handles calls =
      addCallEntries client index r handles' calls := by
  induction calls generalizing r handles handles' with
  | nil => rfl
  | cons call calls ih =>
    rw [addCallEntries, addCallEntries]
    rcases addCallEntry_congr client index r agree (apart call List.mem_cons_self) with
      ⟨fault, hadd, hadd'⟩ | ⟨r', handle, hadd, hadd'⟩
    · rw [hadd, hadd']
    · rw [hadd, hadd']
      apply ih _ fun c hc => apart c (List.mem_cons_of_mem call hc)
      intro id hid
      rw [Std.HashMap.getElem?_insert, Std.HashMap.getElem?_insert, agree id hid]

/-- Calls are added one after the other, and the table only gains their identifiers. -/
theorem addCallEntries_front (client : Client) (index : Nat) (first : List CallEntry)
    (r : Recording) (handles : Handles) :
    (∃ fault, ∀ more, addCallEntries client index r handles (first ++ more) = .error fault) ∨
      ∃ r' handles', (∀ more, addCallEntries client index r handles (first ++ more) =
          addCallEntries client index r' handles' more) ∧
        ∀ id, (∀ c ∈ first, c.id ≠ id) → handles'[id]? = handles[id]? := by
  induction first generalizing r handles with
  | nil => exact .inr ⟨r, handles, fun _ => rfl, fun _ _ => rfl⟩
  | cons call first ih =>
    -- Without earlier calls there is nothing that a call could meet.
    have alone : ¬ call.Meets [] := by
      rintro ⟨c, hc, -⟩
      cases hc
    rcases addCallEntry_congr client index r (fun id _ => (rfl : handles[id]? = _))
        alone with ⟨fault, hadd, -⟩ | ⟨r₁, handle, hadd, -⟩
    · left
      refine ⟨fault, ?_⟩
      intro more
      rw [List.cons_append, addCallEntries, hadd]
    · have step : ∀ more, addCallEntries client index r handles (call :: first ++ more) =
          addCallEntries client index r₁ (handles.insert call.id handle) (first ++ more) := by
        intro more
        rw [List.cons_append, addCallEntries, hadd]
      rcases ih r₁ (handles.insert call.id handle) with
        ⟨fault, refused⟩ | ⟨r', handles', added, kept⟩
      · left
        refine ⟨fault, ?_⟩
        intro more
        rw [step, refused]
      · right
        refine ⟨r', handles', ?_, ?_⟩
        · intro more
          rw [step, added]
        · intro id hid
          have other : call.id ≠ id := hid call List.mem_cons_self
          rw [kept id fun c hc => hid c (List.mem_cons_of_mem call hc),
            Std.HashMap.getElem?_insert, if_neg (by simpa using other)]

/-! ### Two entries and one -/

/-- A client that has an entry is found again, and the recording stays as it is. -/
theorem Recorded.addClient_known {modules : List Module} {entries : List ClientEntry}
    (recorded : Recorded modules (clientsOf entries) (sitesOf entries) r)
    (known : client ∈ clientsOf entries) :
    r.addClient client = ((clientsOf entries).idxOf client, r) := by
  rw [recorded.eq, addClient_arrangement recorded.placed, if_pos known]

/-- If no call of the second entry meets the first entry, both are recorded like one. -/
theorem addClientEntry_splitEntry (client : Client) {modules : List Module}
    {earlier : List ClientEntry}
    (recorded : Recorded modules (clientsOf earlier) (sitesOf earlier) r)
    (apart : ∀ call ∈ second, ¬ call.Meets first) :
    ((addClientEntry r ⟨client, first⟩).bind fun r' => addClientEntry r' ⟨client, second⟩) =
      addClientEntry r ⟨client, first ++ second⟩ := by
  obtain ⟨r₁, hclient, -⟩ := recorded.addClient ⟨client, first⟩
  generalize hindex : (clientsOf (earlier ++ [⟨client, first⟩])).idxOf client = index at hclient
  have run : ∀ calls, addClientEntry r ⟨client, calls⟩ =
      addCallEntries client index r₁ ∅ calls := by
    intro calls
    rw [addClientEntry, hclient]
  rcases addCallEntries_front client index first r₁ ∅ with
    ⟨fault, refused⟩ | ⟨r', handles', added, kept⟩
  · have alone := refused []
    rw [List.append_nil] at alone
    rw [run, run, refused, alone]
    rfl
  · have alone := added []
    rw [List.append_nil, addCallEntries] at alone
    have known : client ∈ clientsOf (earlier ++ [⟨client, first⟩]) :=
      mem_clientsOf.mpr ⟨⟨client, first⟩, by simp, rfl⟩
    have recorded' : Recorded modules (clientsOf (earlier ++ [⟨client, first⟩]))
        (sitesOf (earlier ++ [⟨client, first⟩])) r' := by
      rcases addClientEntry_outcome recorded ⟨client, first⟩ with
        ⟨r'', hr'', -, recorded''⟩ | ⟨-, -, -, fault, -, -, -, hfault⟩
      · rw [run, alone] at hr''
        cases hr''
        exact recorded''
      · rw [run, alone] at hfault
        cases hfault
    rw [run, run, alone, added]
    calc addClientEntry r' ⟨client, second⟩
        = addCallEntries client index r' ∅ second := by
          rw [addClientEntry, recorded'.addClient_known known, hindex]
      _ = addCallEntries client index r' handles' second :=
          addCallEntries_congr (fun id hid => (kept id hid).symm) apart

variable {d : Document} {earlier later : List ClientEntry}

theorem ofDocument_splitEntry_eq (apart : ∀ call ∈ second, ¬ call.Meets first) :
    ofDocument (d.splitEntry earlier client first second later) =
      ofDocument (d.joinedEntry earlier client first second later) := by
  have start : Recorded d.modules (clientsOf []) (sitesOf []) (d.modules.foldl addModule empty) :=
    ⟨foldl_addModule d.modules, .nil, by simp, by simp, by simp⟩
  simp only [ofDocument, Document.splitEntry, Document.joinedEntry, List.foldlM_append,
    List.foldlM_cons]
  cases checkVersion d.version with
  | error fault => rfl
  | ok accepted =>
    rcases foldlM_addClientEntry_outcome start earlier with
      ⟨r, hr, -, recorded⟩ | ⟨-, -, -, -, -, -, fault, -, -, -, -, -, hr⟩
    · have joined := addClientEntry_splitEntry client recorded apart
      simp only [hr]
      calc ((addClientEntry r ⟨client, first⟩).bind fun r' =>
            (addClientEntry r' ⟨client, second⟩).bind (later.foldlM addClientEntry))
          = ((addClientEntry r ⟨client, first⟩).bind fun r' =>
              addClientEntry r' ⟨client, second⟩).bind (later.foldlM addClientEntry) := by
            cases addClientEntry r ⟨client, first⟩ <;> rfl
        _ = (addClientEntry r ⟨client, first ++ second⟩).bind (later.foldlM addClientEntry) := by
            rw [joined]
    · simp only [hr]
      rfl

/-! ### Which of the two documents is recorded -/

theorem linked_of_splitEntry
    (h : (d.splitEntry earlier client first second later).WellFormed) : Linked second :=
  h.2 ⟨client, second⟩ (by simp [Document.splitEntry])

theorem linked_of_joinedEntry
    (h : (d.joinedEntry earlier client first second later).WellFormed) :
    Linked (first ++ second) :=
  h.2 ⟨client, first ++ second⟩ (by simp [Document.joinedEntry])

/-- Two entries of one client that follow each other are recorded like one entry with all
    calls if no call of the second meets the first.  If the two entries are recorded, the one
    is unless they share an identifier; if the one is recorded, the two are unless a call of the
    second names a parent in the first. -/
theorem ofDocument_splitEntry (d : Document) (earlier later : List ClientEntry) (client : Client)
    (first second : List CallEntry) :
    ((∀ call ∈ second, ¬ call.Meets first) →
        ofDocument (d.splitEntry earlier client first second later) =
          ofDocument (d.joinedEntry earlier client first second later)) ∧
      (∀ r, ofDocument (d.splitEntry earlier client first second later) = .ok r →
        (ofDocument (d.joinedEntry earlier client first second later) = .ok r ↔
          ∀ call ∈ second, ∀ c ∈ first, c.id ≠ call.id)) ∧
      ∀ r, ofDocument (d.joinedEntry earlier client first second later) = .ok r →
        (ofDocument (d.splitEntry earlier client first second later) = .ok r ↔
          ∀ call ∈ second, ∀ c ∈ first, call.parent ≠ some c.id) := by
  refine ⟨ofDocument_splitEntry_eq, ?_, ?_⟩
  · intro r split
    have linked := linked_of_splitEntry (exists_ofDocument_iff.mp ⟨r, split⟩)
    constructor
    · intro joined
      exact (linked_of_joinedEntry (exists_ofDocument_iff.mp ⟨r, joined⟩)).ids_apart
    · intro apart
      rw [← ofDocument_splitEntry_eq, split]
      rintro call hcall ⟨c, hc, same | names⟩
      · exact apart call hcall c hc same
      · obtain ⟨c', hc', hid⟩ := linked.parent_mem hcall names
        exact apart c' hc' c hc hid.symm
  · intro r joined
    have apart := (linked_of_joinedEntry (exists_ofDocument_iff.mp ⟨r, joined⟩)).ids_apart
    constructor
    · intro split call hcall c hc names
      have linked := linked_of_splitEntry (exists_ofDocument_iff.mp ⟨r, split⟩)
      obtain ⟨c', hc', hid⟩ := linked.parent_mem hcall names
      exact apart c' hc' c hc hid.symm
    · intro within
      rw [ofDocument_splitEntry_eq, joined]
      rintro call hcall ⟨c, hc, same | names⟩
      · exact apart call hcall c hc same
      · exact within call hcall c hc names

/-- A parent across two entries is unknown, and an identifier in two entries is accepted; in one
    entry it is the other way round. -/
theorem ofDocument_splitEntry_across :
    (∃ call child : CallEntry,
        ofDocument (Document.splitEntry { version := "1.0" } [] ⟨4, 8⟩ [call] [child] []) =
          .error (.parentUnknown ⟨4, 8⟩ 2 1) ∧
        ∃ r, ofDocument (Document.joinedEntry { version := "1.0" } [] ⟨4, 8⟩ [call] [child] []) =
          .ok r) ∧
      ∃ call again : CallEntry,
        (∃ r, ofDocument (Document.splitEntry { version := "1.0" } [] ⟨4, 8⟩ [call] [again] []) =
          .ok r) ∧
        ofDocument (Document.joinedEntry { version := "1.0" } [] ⟨4, 8⟩ [call] [again] []) =
          .error (.callRepeated ⟨4, 8⟩ 1) := by
  refine ⟨⟨{ id := 1, spec := { functionName := "f", moduleName := "nt" } },
      { id := 2, parent := some 1, spec := { functionName := "g", moduleName := "nt" } }, ?_, ?_⟩,
    { id := 1, spec := { functionName := "f", moduleName := "nt" } },
    { id := 1, spec := { functionName := "g", moduleName := "nt" } }, ?_, ?_⟩
  · cbv
  · apply exists_of_toBool
    cbv
  · apply exists_of_toBool
    cbv
  · cbv

end Recording

end CallTrace
