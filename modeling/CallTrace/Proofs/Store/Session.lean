import CallTrace.Analysis
import CallTrace.Proofs.Reader.Contract

/-!
# Sessions with stores

A session opens stores over readers and over files, enumerates what they hold, reads from the
enumerations in any order, analyzes, closes and drops the stores.  An enumeration is over when its
store is closed or dropped.  An action is about one store at most (`step_sameAt`).

A misuse and a file that cannot be opened leave a session as it was.  So does an analysis that
never comes to an end: nothing comes after it.
-/

namespace CallTrace

variable {σ α : Type}

/-! ### Enumerations -/

/-- What can be enumerated. -/
inductive Query where
  | clients
  | modules
  | calls (client : Client)
  | children (call : Call)
  | walk (client? : Option Client)

/-- An enumeration in progress. -/
inductive Enumeration (σ : Type) where
  | clients (rest : Listing σ Client)
  | modules (rest : Listing σ Module)
  | calls (rest : Listing σ Call)
  | walk (w : Walk σ)

/-- Whether the children are requested of a call that another store handed out. -/
def Query.isForeign (id : StoreId) : Query → Bool
  | .children call => call.store != id
  | _ => false

/-- What a query asks of the reader. -/
def Query.request (r : Reader σ) (id : StoreId) : Query → Read σ (Enumeration σ)
  | .clients => r.clients.map .clients
  | .modules => r.modules.map .modules
  | .calls client => (r.stampedCalls id client).map .calls
  | .children call => (r.stampedChildren id call).map .calls
  | .walk client? => (Walk.start r id client?).map .walk

namespace Store

/-- Begins an enumeration. -/
def enumerate (s : Store σ) : Query → Except Misuse (Except TraceError (Enumeration σ) × Store σ)
  | .clients => s.clients.map fun (answer, s) => (answer.map .clients, s)
  | .modules => s.modules.map fun (answer, s) => (answer.map .modules, s)
  | .calls client => (s.calls client).map fun (answer, s) => (answer.map .calls, s)
  | .children call => (s.children call).map fun (answer, s) => (answer.map .calls, s)
  | .walk client? => (s.walk client?).map fun (answer, s) => (answer.map .walk, s)

/-- Reads the next item of an enumeration.  Gives the item if it is a call. -/
def pull (s : Store σ) : Enumeration σ → Option Call × Enumeration σ × Store σ
  | .clients (read :: rest) => (none, .clients rest, (s.run read).2)
  | .modules (read :: rest) => (none, .modules rest, (s.run read).2)
  | .calls (read :: rest) => ((s.run read).1.toOption, .calls rest, (s.run read).2)
  | .walk w =>
    let (item, w, state) := w.next s.reader s.id s.state
    (item.bind Except.toOption, .walk w, { s with state })
  | used => (none, used, s)

/-- A walk that begins now comes to an end, if it can begin. -/
def Finishes (s : Store σ) (client? : Option Client) : Prop :=
  ∀ w state, Walk.start s.reader s.id client? s.state = (.ok w, state) →
    ∃ n, w.answer s.reader s.id n state = none

end Store

/-! ### Actions -/

/-- What can be done with a store. -/
inductive Use where
  | close
  | drop
  | enumerate (query : Query)
  | histogram (client? : Option Client) (key : Call → String) (t : Tally)
  | analyze (grouping : Grouping) (count : Nat)

inductive Action (σ : Type) where
  | openStore (reader : Reader σ) (state : σ)
  | openFile (files : Files) (path : String) (state : σ)
  | use (id : StoreId) (use : Use)
  /-- Reads the next item of the enumeration that was begun at this place of the order. -/
  | pull (place : Nat)

/-- Stores, the enumerations that are in progress, the calls that were handed out, each with
    the number of its store, and the states in which the readers of dropped stores were left. -/
structure Session (σ : Type) where
  pool : StorePool σ := {}
  running : List (StoreId × Enumeration σ) := []
  held : List (StoreId × Call) := []
  released : StoreId → Option σ := fun _ => none

namespace Session

/-- Puts back a store that was used. -/
def put (s : Session σ) (store : Store σ) : Session σ :=
  { s with pool := s.pool.put store }

/-- Ends the enumerations of a store. -/
def stop (s : Session σ) (id : StoreId) : Session σ :=
  { s with running := s.running.filter (·.1 ≠ id) }

open Classical in
/-- Puts back a store after an analysis, which must have come to an end. -/
noncomputable def conclude (s : Session σ) (store : Store σ) (client? : Option Client) :
    Except Misuse (α × Store σ) → Session σ
  | .error _ => s
  | .ok (_, after) => if store.Finishes client? then s.put after else s

noncomputable def useStore (s : Session σ) (store : Store σ) : Use → Session σ
  | .close => (s.stop store.id).put store.close.2
  | .drop =>
    let (state, pool) := s.pool.drop store
    { s.stop store.id with pool, released := Function.update s.released store.id (some state) }
  | .enumerate query =>
    match store.enumerate query with
    | .error _ => s
    | .ok (.error _, after) => s.put after
    | .ok (.ok e, after) => { s.put after with running := s.running ++ [(store.id, e)] }
  | .histogram client? key t => s.conclude store client? (store.histogram client? key t)
  | .analyze grouping count => s.conclude store none (store.analyze grouping count)

/-- Reads the next item of an enumeration of a store. -/
def pullFrom (s : Session σ) (place : Nat) (store : Store σ) (e : Enumeration σ) : Session σ :=
  let (call?, e, after) := store.pull e
  { s.put after with
    running := s.running.set place (store.id, e)
    held := s.held ++ call?.toList.map (store.id, ·) }

noncomputable def step (s : Session σ) : Action σ → Session σ
  | .openStore reader state => { s with pool := (s.pool.openStore reader state).2 }
  | .openFile files path state =>
    match s.pool.openFile files path state with
    | .error _ => s
    | .ok (_, pool) => { s with pool }
  | .use id use =>
    match s.pool.store? id with
    | none => s
    | some store => s.useStore store use
  | .pull place =>
    match s.running[place]? with
    | none => s
    | some (id, e) =>
      match s.pool.store? id with
      | none => s
      | some store => s.pullFrom place store e

noncomputable def run (s : Session σ) (actions : List (Action σ)) : Session σ :=
  actions.foldl step s

/-- The store that an action opens. -/
def opening? (s : Session σ) : Action σ → Option (Store σ)
  | .openStore reader state => some (s.pool.next reader state)
  | .openFile files path state => (s.pool.openFile files path state).toOption.map (·.1)
  | .use _ _ | .pull _ => none

/-- The numbers that are given out to the stores that are opened. -/
noncomputable def handed (s : Session σ) : List (Action σ) → List StoreId
  | [] => []
  | action :: later => (s.opening? action).toList.map (·.id) ++ handed (s.step action) later

/-- The state of the reader of a store, or the state in which it was left. -/
def state? (s : Session σ) (id : StoreId) : Option σ :=
  match s.pool.store? id with
  | some store => some store.state
  | none => s.released id

end Session

/-! ### What a store does -/

namespace Store

variable {s : Store σ}

theorem run_map (read : Read σ α) {β : Type} (f : α → β) :
    s.run (read.map f) = ((s.run read).1.map f, (s.run read).2) := rfl

theorem children_own (h : s.isOpen = true) {call : Call} (own : call.store = s.id) :
    s.children call = .ok (s.run (s.reader.stampedChildren s.id call)) := by
  rw [children, if_pos h, if_pos own]

theorem children_foreign (h : s.isOpen = true) {call : Call} (foreign : call.store ≠ s.id) :
    s.children call = .error (.foreignCall call s.id) := by
  rw [children, if_pos h, if_neg foreign]

theorem enumerate_closed (h : s.isOpen = false) (query : Query) :
    s.enumerate query = .error (.closedStore s.id) := by
  cases query <;> simp [enumerate, clients, modules, calls, children, walk, ask, h, Except.map]

theorem enumerate_foreign (h : s.isOpen = true) {query : Query}
    (foreign : query.isForeign s.id = true) : ∃ misuse, s.enumerate query = .error misuse := by
  cases query with
  | children call =>
    refine ⟨.foreignCall call s.id, ?_⟩
    rw [enumerate, children_foreign h (bne_iff_ne.mp foreign)]
    rfl
  | _ => cases foreign

theorem enumerate_own (h : s.isOpen = true) {query : Query}
    (own : query.isForeign s.id = false) :
    s.enumerate query = .ok (s.run (query.request s.reader s.id)) := by
  cases query with
  | clients => simp [enumerate, clients, ask, h, Except.map, Query.request, run_map]
  | modules => simp [enumerate, modules, ask, h, Except.map, Query.request, run_map]
  | calls client => simp [enumerate, calls, ask, h, Except.map, Query.request, run_map]
  | children call =>
    rw [enumerate, children_own h (bne_eq_false_iff_eq.mp own)]
    rfl
  | walk client? =>
    cases client? <;> simp [enumerate, walk, ask, h, Except.map, Query.request, run_map, Walk.start]

theorem histogram_open (h : s.isOpen = true) (client? : Option Client) (key : Call → String)
    (t : Tally) :
    s.histogram client? key t =
      .ok ((s.reader.countWalk s.id (Walk.start s.reader s.id client?) key t s.state).1,
        { s with
          state := (s.reader.countWalk s.id (Walk.start s.reader s.id client?) key t s.state).2 }) := by
  cases client? with
  | none => exact if_pos h
  | some client => exact if_pos h

theorem histogram_closed (h : s.isOpen = false) (client? : Option Client) (key : Call → String)
    (t : Tally) : s.histogram client? key t = .error (.closedStore s.id) := by
  simp [histogram, h]

theorem analyze_closed (h : s.isOpen = false) (grouping : Grouping) (count : Nat) :
    s.analyze grouping count = .error (.closedStore s.id) := by
  rw [analyze, histogram_closed h]

/-- An enumeration that was begun is what the store's reader answered. -/
theorem enumerate_eq_ok {query : Query} {answer : Except TraceError (Enumeration σ)}
    {after : Store σ} (h : s.enumerate query = .ok (answer, after)) :
    s.isOpen = true ∧ (answer, after) = s.run (query.request s.reader s.id) := by
  cases opened : s.isOpen with
  | false =>
    rw [enumerate_closed opened] at h
    cases h
  | true =>
    refine ⟨rfl, ?_⟩
    cases own : query.isForeign s.id with
    | true =>
      obtain ⟨misuse, refused⟩ := enumerate_foreign opened own
      rw [refused] at h
      cases h
    | false =>
      rw [enumerate_own opened own] at h
      exact (Except.ok.inj h).symm

theorem histogram_eq_ok {client? : Option Client} {key : Call → String} {t : Tally}
    {counted : Counted} {after : Store σ} (h : s.histogram client? key t = .ok (counted, after)) :
    s.isOpen = true ∧ after = { s with
      state := (s.reader.countWalk s.id (Walk.start s.reader s.id client?) key t s.state).2 } := by
  by_cases opened : s.isOpen = true
  · rw [histogram_open opened] at h
    cases h
    exact ⟨opened, rfl⟩
  · rw [histogram_closed (Bool.eq_false_of_not_eq_true opened)] at h
    cases h

theorem analyze_eq_ok {grouping : Grouping} {count : Nat} {ranking : Except AnalysisError Ranking}
    {after : Store σ} (h : s.analyze grouping count = .ok (ranking, after)) :
    ∃ counted, s.histogram none grouping.key .empty = .ok (counted, after) := by
  rw [analyze] at h
  generalize s.histogram none grouping.key .empty = outcome at h
  rcases outcome with misuse | ⟨counted, last⟩
  · cases h
  · cases h
    exact ⟨counted, rfl⟩

/-- The store refuses, and its reader has no part in it: it refuses in the same way whatever its
    reader does, and in whatever state it is. -/
def Refuses {α : Type} (s : Store σ) (request : Store σ → Except Misuse α) (misuse : Misuse) :
    Prop :=
  ∀ reader state, request { s with reader, state } = .error misuse

@[simp] theorem id_run (read : Read σ α) : (s.run read).2.id = s.id := rfl

@[simp] theorem id_close : s.close.2.id = s.id := by
  rw [close]
  split <;> rfl

@[simp] theorem id_pull (e : Enumeration σ) : (s.pull e).2.2.id = s.id := by
  rcases e with (_ | _) | (_ | _) | (_ | _) | w <;> rfl

end Store

/-! ### Opening a store -/

namespace Session

variable {s : Session σ} {action : Action σ} {store : Store σ}

theorem run_cons (s : Session σ) (action : Action σ) (later : List (Action σ)) :
    s.run (action :: later) = (s.step action).run later := rfl

/-- A store is opened from a file like over the reader of its recording. -/
theorem step_openFile {files : Files} {path : String} {r : Recording}
    (h : Recording.ofFile files path = .ok r) (state : σ) :
    s.step (.openFile files path state) = s.step (.openStore r.reader state) := by
  simp only [step, StorePool.openFile, h]
  rfl

theorem opening?_openFile {files : Files} {path : String} {r : Recording}
    (h : Recording.ofFile files path = .ok r) (state : σ) :
    s.opening? (.openFile files path state) = s.opening? (.openStore r.reader state) := by
  simp only [opening?, StorePool.openFile, h]
  rfl

/-- The store that is opened gets the next number and place. -/
theorem opening?_eq_some (h : s.opening? action = some store) :
    ∃ reader state, store = s.pool.next reader state ∧
      s.step action = s.step (.openStore reader state) := by
  cases action with
  | openStore reader state => exact ⟨reader, state, (Option.some.inj h).symm, rfl⟩
  | openFile files path state =>
    cases opened : Recording.ofFile files path with
    | error cause =>
      rw [opening?, StorePool.openFile, opened] at h
      cases h
    | ok r =>
      rw [opening?_openFile opened] at h
      exact ⟨r.reader, state, (Option.some.inj h).symm, step_openFile opened state⟩
  | use _ _ | pull _ => cases h

theorem step_openFile_refused {files : Files} {path : String} {state : σ}
    (h : s.opening? (.openFile files path state) = none) :
    s.step (.openFile files path state) = s := by
  cases opened : Recording.ofFile files path with
  | error cause =>
    rw [step, StorePool.openFile, opened]
    rfl
  | ok r =>
    rw [opening?_openFile opened] at h
    cases h

end Session

/-! ### What an action leaves alone -/

/-- Nothing that belongs to a store differs, except that enumerations may have ended. -/
structure Session.SameAt (id : StoreId) (s s' : Session σ) : Prop where
  place : s'.pool.places[id]? = s.pool.places[id]?
  released : s'.released id = s.released id
  running : ∀ e, (id, e) ∈ s'.running → (id, e) ∈ s.running
  held : ∀ call, (id, call) ∈ s'.held → (id, call) ∈ s.held

/-- The action is about the store. -/
def Action.IsAbout (s : Session σ) (id : StoreId) : Action σ → Prop
  | .openStore _ _ | .openFile _ _ _ => s.pool.places.size = id
  | .use other _ => other = id
  | .pull place => ∃ e, s.running[place]? = some (id, e)

namespace Session

variable {s s' : Session σ} {store : Store σ} {id : StoreId}

theorem SameAt.refl (id : StoreId) (s : Session σ) : SameAt id s s :=
  ⟨rfl, rfl, fun _ h => h, fun _ h => h⟩

theorem sameAt_put (h : store.id ≠ id) : SameAt id s (s.put store) := by
  refine ⟨?_, rfl, fun _ h => h, fun _ h => h⟩
  exact Array.getElem?_setIfInBounds_ne h

theorem sameAt_conclude (h : store.id ≠ id) {client? : Option Client}
    {outcome : Except Misuse (α × Store σ)}
    (same : ∀ x after, outcome = .ok (x, after) → after.id = store.id) :
    SameAt id s (s.conclude store client? outcome) := by
  rcases outcome with misuse | ⟨x, after⟩
  · exact SameAt.refl id s
  · rw [conclude]
    split
    · exact sameAt_put (same x after rfl ▸ h)
    · exact SameAt.refl id s

theorem sameAt_useStore (h : store.id ≠ id) (use : Use) : SameAt id s (s.useStore store use) := by
  cases use with
  | close =>
    have owner : store.close.2.id ≠ id := by rwa [Store.id_close]
    refine ⟨Array.getElem?_setIfInBounds_ne owner, rfl, ?_, fun _ h => h⟩
    exact fun e he => List.mem_of_mem_filter he
  | drop =>
    refine ⟨Array.getElem?_setIfInBounds_ne h, ?_, ?_, fun _ h => h⟩
    · exact Function.update_of_ne h.symm _ _
    · exact fun e he => List.mem_of_mem_filter he
  | enumerate query =>
    rw [useStore]
    split
    · exact SameAt.refl id s
    · rename_i e after begun
      have owner := congrArg (fun p => p.2.id) (Store.enumerate_eq_ok begun).2
      exact sameAt_put (owner.symm ▸ h)
    · rename_i e after begun
      have owner := congrArg (fun p => p.2.id) (Store.enumerate_eq_ok begun).2
      have put : SameAt id s (s.put after) := sameAt_put (owner.symm ▸ h)
      refine ⟨put.place, put.released, ?_, put.held⟩
      intro e' he'
      rcases List.mem_append.mp he' with old | new
      · exact old
      · exact absurd (congrArg Prod.fst (List.mem_singleton.mp new)).symm h
  | histogram client? key t =>
    refine sameAt_conclude h ?_
    intro counted after done
    rw [(Store.histogram_eq_ok done).2]
  | analyze grouping count =>
    refine sameAt_conclude h ?_
    intro ranking after done
    obtain ⟨counted, done⟩ := Store.analyze_eq_ok done
    rw [(Store.histogram_eq_ok done).2]

theorem sameAt_pullFrom (h : store.id ≠ id) (place : Nat) (e : Enumeration σ) :
    SameAt id s (s.pullFrom place store e) := by
  have owner : (store.pull e).2.2.id ≠ id := by rwa [Store.id_pull]
  refine ⟨Array.getElem?_setIfInBounds_ne owner, rfl, ?_, ?_⟩
  · intro e' he'
    rcases List.mem_or_eq_of_mem_set he' with old | new
    · exact old
    · exact absurd (congrArg Prod.fst new).symm h
  · intro call hcall
    rcases List.mem_append.mp hcall with old | new
    · exact old
    · obtain ⟨call', -, heq⟩ := List.mem_map.mp new
      exact absurd (congrArg Prod.fst heq) h

theorem sameAt_openStore (h : s.pool.places.size ≠ id) (reader : Reader σ) (state : σ) :
    SameAt id s (s.step (.openStore reader state)) := by
  refine ⟨?_, rfl, fun _ h => h, fun _ h => h⟩
  exact (Array.getElem?_push ..).trans (if_neg h.symm)

/-- An action leaves all stores alone but the one that it is about. -/
theorem step_sameAt {action : Action σ} (h : ¬ action.IsAbout s id) :
    SameAt id s (s.step action) := by
  cases action with
  | openStore reader state => exact sameAt_openStore h reader state
  | openFile files path state =>
    cases opened : s.opening? (.openFile files path state) with
    | none =>
      rw [step_openFile_refused opened]
      exact SameAt.refl id s
    | some store =>
      obtain ⟨reader, state, -, same⟩ := opening?_eq_some opened
      rw [same]
      exact sameAt_openStore h reader state
  | use other use =>
    rw [step]
    cases found : s.pool.store? other with
    | none => exact SameAt.refl id s
    | some store =>
      have owner := (StorePool.store?_eq_some found).2
      exact sameAt_useStore (owner ▸ h) use
  | pull place =>
    rw [step]
    cases begun : s.running[place]? with
    | none => exact SameAt.refl id s
    | some entry =>
      obtain ⟨other, e⟩ := entry
      dsimp only
      cases found : s.pool.store? other with
      | none => exact SameAt.refl id s
      | some store =>
        have owner := (StorePool.store?_eq_some found).2
        refine sameAt_pullFrom ?_ place e
        rw [owner]
        rintro rfl
        exact h ⟨e, begun⟩

/-! ### Numbers -/

theorem size_put : (s.put store).pool.places.size = s.pool.places.size :=
  Array.size_setIfInBounds

theorem size_conclude {client? : Option Client} {outcome : Except Misuse (α × Store σ)} :
    (s.conclude store client? outcome).pool.places.size = s.pool.places.size := by
  rcases outcome with misuse | ⟨x, after⟩
  · rfl
  · rw [conclude]
    split
    · exact size_put
    · rfl

theorem size_useStore (use : Use) :
    (s.useStore store use).pool.places.size = s.pool.places.size := by
  cases use with
  | close => exact size_put
  | drop => exact Array.size_setIfInBounds
  | enumerate query =>
    rw [useStore]
    split
    · rfl
    · exact size_put
    · exact size_put
  | histogram client? key t => exact size_conclude
  | analyze grouping count => exact size_conclude

theorem size_step (action : Action σ) :
    (s.step action).pool.places.size =
      if (s.opening? action).isSome then s.pool.places.size + 1 else s.pool.places.size := by
  cases opened : s.opening? action with
  | some store =>
    obtain ⟨reader, state, -, same⟩ := opening?_eq_some opened
    rw [same]
    exact Array.size_push _
  | none =>
    cases action with
    | openStore reader state => cases opened
    | openFile files path state =>
      rw [step_openFile_refused opened]
      rfl
    | use id use =>
      rw [step]
      cases s.pool.store? id with
      | none => rfl
      | some store => exact size_useStore use
    | pull place =>
      rw [step]
      rcases s.running[place]? with _ | ⟨id, e⟩
      · rfl
      · dsimp only
        cases s.pool.store? id with
        | none => rfl
        | some store => exact size_put

/-- Numbers are given out without gaps, and none twice. -/
theorem handed_eq (s : Session σ) (actions : List (Action σ)) :
    ∃ count, s.handed actions = List.range' s.pool.places.size count := by
  induction actions generalizing s with
  | nil => exact ⟨0, rfl⟩
  | cons action actions ih =>
    have grown := s.size_step action
    obtain ⟨count, later⟩ := ih (s.step action)
    rw [handed, later, grown]
    cases opened : s.opening? action with
    | none => exact ⟨count, rfl⟩
    | some store =>
      obtain ⟨reader, state, rfl, -⟩ := opening?_eq_some opened
      exact ⟨count + 1, rfl⟩

/-- A number was given out when a store was opened. -/
theorem exists_opening {s : Session σ} {actions : List (Action σ)} (old : s.pool.places.size ≤ id)
    (new : id < (s.run actions).pool.places.size) :
    ∃ before action after store, actions = before ++ action :: after ∧
      (s.run before).opening? action = some store ∧ store.id = id := by
  induction actions generalizing s with
  | nil => exact absurd new (Nat.not_lt.mpr old)
  | cons action actions ih =>
    have grown := s.size_step action
    by_cases opens : ∃ store, s.opening? action = some store ∧ store.id = id
    · obtain ⟨store, opened, hid⟩ := opens
      exact ⟨[], action, actions, store, rfl, opened, hid⟩
    · have still : (s.step action).pool.places.size ≤ id := by
        rw [grown]
        cases opened : s.opening? action with
        | none => exact old
        | some store =>
          obtain ⟨reader, state, rfl, -⟩ := opening?_eq_some opened
          exact Nat.lt_of_le_of_ne old fun hid => opens ⟨_, opened, hid⟩
      obtain ⟨before, action', after, store, rfl, opened, hid⟩ := ih still new
      exact ⟨action :: before, action', after, store, rfl, opened, hid⟩

/-- Enumerations and calls are those of stores that were opened. -/
structure Known (s : Session σ) : Prop where
  running : ∀ id e, (id, e) ∈ s.running → id < s.pool.places.size
  held : ∀ id call, (id, call) ∈ s.held → id < s.pool.places.size

theorem known_step (h : s.Known) (action : Action σ) : (s.step action).Known := by
  have grown := s.size_step action
  have untouched : ∀ id, (s.step action).pool.places.size ≤ id → SameAt id s (s.step action) := by
    intro id unknown
    cases action with
    | openStore reader state =>
      rw [grown] at unknown
      exact step_sameAt (Nat.ne_of_lt unknown)
    | openFile files path state =>
      cases opened : s.opening? (.openFile files path state) with
      | none =>
        rw [step_openFile_refused opened]
        exact SameAt.refl id s
      | some store =>
        rw [grown, opened] at unknown
        exact step_sameAt (Nat.ne_of_lt unknown)
    | use other use =>
      rw [grown] at unknown
      by_cases about : other = id
      · have absent : s.pool.store? other = none := by
          rw [StorePool.store?, Array.getElem?_eq_none (about ▸ unknown)]
          rfl
        rw [step, absent]
        exact SameAt.refl id s
      · exact step_sameAt about
    | pull place =>
      rw [grown] at unknown
      refine step_sameAt ?_
      rintro ⟨e, begun⟩
      exact Nat.not_lt.mpr unknown (h.running id e (List.mem_of_getElem? begun))
  have monotone : s.pool.places.size ≤ (s.step action).pool.places.size := by
    rw [grown]
    split <;> omega
  constructor
  · intro id e he
    by_contra unknown
    have old := (untouched id (Nat.not_lt.mp unknown)).running e he
    exact unknown (Nat.lt_of_lt_of_le (h.running id e old) monotone)
  · intro id call hcall
    by_contra unknown
    have old := (untouched id (Nat.not_lt.mp unknown)).held call hcall
    exact unknown (Nat.lt_of_lt_of_le (h.held id call old) monotone)

theorem known_run (actions : List (Action σ)) (h : s.Known) : (s.run actions).Known := by
  induction actions generalizing s with
  | nil => exact h
  | cons action actions ih => exact ih (known_step h action)

end Session

end CallTrace
