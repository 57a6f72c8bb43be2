import Mathlib.Order.WellFounded
import CallTrace.Proofs.Reader.Steady
import CallTrace.Walk

/-!
# The recursive walk

`Answers.walkCalls` is the walk that a recursive definition gives: it delivers a call, walks
the children of the call if it is normal, and goes on with the next sibling
(`Answers.walkCalls_ok`, `Answers.walkBelow_normal`).  The first failure that it meets is
the last thing it delivers.  `Answers.walkClients` walks the calls of one client after the
other.

Nothing keeps a table of answers from nesting calls without end, so the recursion need not
come to an end.  The walk is therefore what the recursion gives with enough levels, if any
number is enough.  Without an endless chain of normal calls there is one
(`Answers.exists_walkCalls`).
-/

namespace CallTrace

/-- What a walk delivers: calls, and after them the failure that ended it, if one did. -/
structure Delivery where
  calls : List Call
  failure : Option TraceError

namespace Delivery

def nothing : Delivery := ⟨[], none⟩

def failed (e : TraceError) : Delivery := ⟨[], some e⟩

/-- A call is delivered before everything else. -/
def cons (call : Call) (d : Delivery) : Delivery := ⟨call :: d.calls, d.failure⟩

/-- The items in the order in which they are delivered. -/
def items (d : Delivery) : List (Except TraceError Call) :=
  d.calls.map .ok ++ d.failure.toList.map .error

/-- What is left after the first item. -/
def rest : Delivery → Delivery
  | ⟨_ :: calls, failure⟩ => ⟨calls, failure⟩
  | ⟨[], _⟩ => nothing

@[simp] theorem items_failed (e : TraceError) : (failed e).items = [.error e] := rfl

@[simp] theorem items_cons (call : Call) (d : Delivery) :
    (cons call d).items = .ok call :: d.items := rfl

theorem items_rest (d : Delivery) : d.rest.items = d.items.tail := by
  rcases d with ⟨_ | ⟨call, calls⟩, _ | e⟩ <;> rfl

/-- What comes next follows, unless there was a failure.  Either part may be the result of
    a walk without end. -/
def andThen (d next : Option Delivery) : Option Delivery :=
  d.bind fun d =>
    match d.failure with
    | some _ => some d
    | none => next.map fun next => ⟨d.calls ++ next.calls, next.failure⟩

@[simp] theorem nothing_andThen (next : Option Delivery) :
    andThen (some nothing) next = next := by
  cases next <;> rfl

@[simp] theorem failed_andThen (e : TraceError) (next : Option Delivery) :
    andThen (some (failed e)) next = some (failed e) := rfl

@[simp] theorem andThen_nothing (d : Option Delivery) : andThen d (some nothing) = d := by
  rcases d with _ | ⟨calls, _ | e⟩
  · rfl
  · simp [andThen, nothing]
  · rfl

theorem map_cons_andThen (call : Call) (d next : Option Delivery) :
    andThen (d.map (cons call)) next = (andThen d next).map (cons call) := by
  rcases d with _ | ⟨calls, _ | e⟩
  · rfl
  · cases next <;> rfl
  · rfl

theorem andThen_assoc (a b c : Option Delivery) :
    andThen (andThen a b) c = andThen a (andThen b c) := by
  rcases a with _ | ⟨as, _ | e⟩
  · rfl
  · rcases b with _ | ⟨bs, _ | e⟩
    · rfl
    · rcases c with _ | ⟨cs, f⟩
      · rfl
      · simp [andThen]
    · rfl
  · rfl

theorem exists_andThen {d next : Option Delivery} (hd : ∃ x, d = some x)
    (hnext : ∃ x, next = some x) : ∃ x, andThen d next = some x := by
  obtain ⟨⟨calls, failure⟩, rfl⟩ := hd
  obtain ⟨next, rfl⟩ := hnext
  cases failure <;> exact ⟨_, rfl⟩

/-- What two parts deliver stays the same when a part is known to deliver more often. -/
theorem andThen_mono {d d' next next' : Option Delivery} (hd : ∀ x, d = some x → d' = some x)
    (hnext : ∀ x, next = some x → next' = some x) {x : Delivery}
    (h : andThen d next = some x) : andThen d' next' = some x := by
  rcases d with _ | ⟨calls, _ | e⟩
  · cases h
  · rw [hd _ rfl]
    cases next with
    | none => cases h
    | some y => rw [hnext y rfl]; exact h
  · rw [hd _ rfl]
    exact h

end Delivery

namespace Answers

open Delivery

section Walk

variable (a : Answers) (store : StoreId)

/-- The walk through a listing of calls, given the walk through what is below each. -/
def walkListing (below : CallRecord → Option Delivery) :
    List (Except TraceError CallRecord) → Option Delivery
  | [] => some .nothing
  | .error e :: _ => some (.failed e)
  | .ok record :: records =>
    (andThen (below record) (walkListing below records)).map (cons (Call.ofRecord record store))

/-- The walk through what is below a call, if it needs no more than so many levels of the
    recursion.  The children of a call are requested if it is normal. -/
def walkLevels : Nat → CallRecord → Option Delivery
  | 0, _ => none
  | levels + 1, record =>
    match record.entry with
    | .synthetic => some .nothing
    | .normal =>
      match a.childCalls record.handle with
      | .error e => some (.failed e)
      | .ok children => walkListing store (walkLevels levels) children

open scoped Classical in
/-- The walk through what is below a call, if the recursion comes to an end. -/
noncomputable def walkBelow (record : CallRecord) : Option Delivery :=
  if ends : ∃ levels, (a.walkLevels store levels record).isSome then
    a.walkLevels store ends.choose record
  else none

/-- The walk through a listing of calls and everything below them. -/
noncomputable def walkCalls (records : List (Except TraceError CallRecord)) : Option Delivery :=
  walkListing store (a.walkBelow store) records

/-- The walk through the calls of a sequence of clients. -/
noncomputable def walkClients : List (Except TraceError Client) → Option Delivery
  | [] => some .nothing
  | .error e :: _ => some (.failed e)
  | .ok client :: clients =>
    match a.calls client with
    | .error e => some (.failed e)
    | .ok records => andThen (a.walkCalls store records) (walkClients clients)

/-! ### Levels of the recursion -/

variable {a store} {record : CallRecord} {records : List (Except TraceError CallRecord)}
  {d : Delivery}

theorem walkListing_mono {f g : CallRecord → Option Delivery}
    (h : ∀ record, .ok record ∈ records → ∀ d, f record = some d → g record = some d)
    (walked : walkListing store f records = some d) : walkListing store g records = some d := by
  induction records generalizing d with
  | nil => exact walked
  | cons item records ih =>
    cases item with
    | error e => exact walked
    | ok record =>
      obtain ⟨d', hd', rfl⟩ := Option.map_eq_some_iff.mp walked
      have later : ∀ x, walkListing store f records = some x →
          walkListing store g records = some x := by
        intro x hx
        exact ih (fun other hother => h other (List.mem_cons_of_mem _ hother)) hx
      exact Option.map_eq_some_iff.mpr
        ⟨d', andThen_mono (h record List.mem_cons_self) later hd', rfl⟩

theorem walkLevels_succ {levels : Nat} (walked : a.walkLevels store levels record = some d) :
    a.walkLevels store (levels + 1) record = some d := by
  induction levels generalizing record d with
  | zero => cases walked
  | succ levels ih =>
    rw [walkLevels] at walked ⊢
    cases hentry : record.entry with
    | synthetic =>
      rw [hentry] at walked
      exact walked
    | normal =>
      rw [hentry] at walked
      cases hchildren : a.childCalls record.handle with
      | error e =>
        rw [hchildren] at walked
        exact walked
      | ok children =>
        rw [hchildren] at walked
        exact walkListing_mono (fun _ _ _ => ih) walked

/-- More levels do not change the walk. -/
theorem walkLevels_le {levels more : Nat} (hle : levels ≤ more)
    (walked : a.walkLevels store levels record = some d) :
    a.walkLevels store more record = some d := by
  induction hle with
  | refl => exact walked
  | step _ ih => exact walkLevels_succ ih

theorem walkBelow_eq_some :
    a.walkBelow store record = some d ↔ ∃ levels, a.walkLevels store levels record = some d := by
  have level : ∀ levels, a.walkLevels store levels record = some d →
      a.walkBelow store record = some d := by
    intro levels walked
    have ends : ∃ levels, (a.walkLevels store levels record).isSome :=
      ⟨levels, Option.isSome_of_eq_some walked⟩
    obtain ⟨d', hd'⟩ := Option.isSome_iff_exists.mp ends.choose_spec
    have same := (walkLevels_le (Nat.le_max_left levels ends.choose) walked).symm.trans
      (walkLevels_le (Nat.le_max_right levels ends.choose) hd')
    rw [walkBelow, dif_pos ends, hd', same]
  constructor
  · intro walked
    rw [walkBelow] at walked
    split at walked
    · exact ⟨_, walked⟩
    · cases walked
  · rintro ⟨levels, walked⟩
    exact level levels walked

/-- The calls of a listing need no more levels than the deepest of them. -/
theorem exists_levels (records : List (Except TraceError CallRecord)) :
    ∃ levels, ∀ record, .ok record ∈ records → ∀ d, a.walkBelow store record = some d →
      a.walkLevels store levels record = some d := by
  induction records with
  | nil => exact ⟨0, by simp⟩
  | cons item records ih =>
    obtain ⟨levels, hlevels⟩ := ih
    cases item with
    | error e =>
      refine ⟨levels, ?_⟩
      intro record hmem
      exact hlevels record (by simpa using hmem)
    | ok first =>
      cases hfirst : a.walkBelow store first with
      | none =>
        refine ⟨levels, ?_⟩
        intro record hmem d hd
        rcases List.mem_cons.mp hmem with hsame | hmem
        · cases hsame
          rw [hfirst] at hd
          cases hd
        · exact hlevels record hmem d hd
      | some x =>
        obtain ⟨deep, hdeep⟩ := walkBelow_eq_some.mp hfirst
        refine ⟨max levels deep, ?_⟩
        intro record hmem d hd
        rcases List.mem_cons.mp hmem with hsame | hmem
        · cases hsame
          rw [hfirst] at hd
          cases hd
          exact walkLevels_le (Nat.le_max_right levels deep) hdeep
        · exact walkLevels_le (Nat.le_max_left levels deep) (hlevels record hmem d hd)

theorem walkCalls_eq_some :
    a.walkCalls store records = some d ↔
      ∃ levels, walkListing store (a.walkLevels store levels) records = some d := by
  constructor
  · intro walked
    obtain ⟨levels, hlevels⟩ : ∃ levels, ∀ record, .ok record ∈ records → ∀ d,
        a.walkBelow store record = some d → a.walkLevels store levels record = some d :=
      exists_levels records
    exact ⟨levels, walkListing_mono hlevels walked⟩
  · rintro ⟨levels, walked⟩
    exact walkListing_mono (fun _ _ _ h => walkBelow_eq_some.mpr ⟨levels, h⟩) walked

/-! ### The equations of the recursion -/

variable (a store)

@[simp] theorem walkCalls_nil : a.walkCalls store [] = some .nothing := rfl

@[simp] theorem walkCalls_error (e : TraceError) (records : List (Except TraceError CallRecord)) :
    a.walkCalls store (.error e :: records) = some (.failed e) := rfl

/-- A call is delivered, then everything below it, then its later siblings. -/
theorem walkCalls_ok (record : CallRecord) (records : List (Except TraceError CallRecord)) :
    a.walkCalls store (.ok record :: records) =
      (andThen (a.walkBelow store record) (a.walkCalls store records)).map
        (cons (Call.ofRecord record store)) := rfl

theorem walkBelow_synthetic (h : record.entry = .synthetic) :
    a.walkBelow store record = some .nothing := by
  apply walkBelow_eq_some.mpr
  refine ⟨1, ?_⟩
  rw [walkLevels, h]

theorem walkBelow_normal (h : record.entry = .normal) :
    a.walkBelow store record =
      match a.childCalls record.handle with
      | .error e => some (.failed e)
      | .ok children => a.walkCalls store children := by
  cases hchildren : a.childCalls record.handle with
  | error e =>
    apply walkBelow_eq_some.mpr
    refine ⟨1, ?_⟩
    rw [walkLevels, h, hchildren]
  | ok children =>
    apply Option.ext
    intro d
    rw [walkBelow_eq_some, walkCalls_eq_some]
    constructor
    · rintro ⟨_ | levels, walked⟩
      · cases walked
      · rw [walkLevels, h, hchildren] at walked
        exact ⟨levels, walked⟩
    · rintro ⟨levels, walked⟩
      refine ⟨levels + 1, ?_⟩
      rw [walkLevels, h, hchildren]
      exact walked

end Walk

/-! ### Where the recursion ends -/

/-- The listing has a normal call with this handle. -/
def Normal (records : List (Except TraceError CallRecord)) (handle : Handle) : Prop :=
  ∃ record, .ok record ∈ records ∧ record.entry = .normal ∧ record.handle = handle

/-- The first call is a normal child of the second. -/
def Below (a : Answers) (child parent : Handle) : Prop :=
  ∃ children, a.childCalls parent = .ok children ∧ Normal children child

/-- No endless chain of requests for children starts from the normal calls of a listing. -/
def Ends (a : Answers) (records : List (Except TraceError CallRecord)) : Prop :=
  ¬ ∃ chain : Nat → Handle, Normal records (chain 0) ∧ ∀ n, a.Below (chain (n + 1)) (chain n)

theorem acc_of_ends {a : Answers} {records : List (Except TraceError CallRecord)}
    (ends : a.Ends records) {handle : Handle} (h : Normal records handle) :
    Acc a.Below handle := by
  by_contra endless
  obtain ⟨chain, start, steps⟩ := not_acc_iff_exists_descending_chain.mp endless
  exact ends ⟨chain, start ▸ h, steps⟩

/-- There is no endless chain if something grows smaller from each call to its children. -/
theorem ends_of_measure {a : Answers} (measure : Handle → Nat)
    (h : ∀ child parent, a.Below child parent → measure child < measure parent)
    (records : List (Except TraceError CallRecord)) : a.Ends records := by
  rintro ⟨chain, -, steps⟩
  have falling : ∀ n, measure (chain n) + n ≤ measure (chain 0) := by
    intro n
    induction n with
    | zero => exact Nat.le_refl _
    | succ n ih =>
      have step := h _ _ (steps n)
      omega
  have := falling (measure (chain 0) + 1)
  omega

/-- A walk comes to an end if it does so below each of its normal calls. -/
theorem exists_walkCalls_of_below {a : Answers} (store : StoreId)
    {records : List (Except TraceError CallRecord)}
    (below : ∀ handle, Normal records handle → ∀ children,
      a.childCalls handle = .ok children → ∃ d, a.walkCalls store children = some d) :
    ∃ d, a.walkCalls store records = some d := by
  induction records with
  | nil => exact ⟨_, walkCalls_nil a store⟩
  | cons item records ih =>
    cases item with
    | error e => exact ⟨_, walkCalls_error a store e records⟩
    | ok record =>
      have later : ∃ d, a.walkCalls store records = some d := by
        apply ih
        rintro handle ⟨other, hmem, hentry, hhandle⟩
        exact below handle ⟨other, List.mem_cons_of_mem _ hmem, hentry, hhandle⟩
      have deeper : ∃ d, a.walkBelow store record = some d := by
        cases hentry : record.entry with
        | synthetic => exact ⟨_, walkBelow_synthetic a store hentry⟩
        | normal =>
          rw [walkBelow_normal a store hentry]
          cases hchildren : a.childCalls record.handle with
          | error e => exact ⟨_, rfl⟩
          | ok children =>
            exact below record.handle ⟨record, List.mem_cons_self, hentry, rfl⟩ children hchildren
      obtain ⟨d, hd⟩ := exists_andThen deeper later
      rw [walkCalls_ok, hd]
      exact ⟨_, rfl⟩

theorem exists_walkCalls_of_acc {a : Answers} (store : StoreId) {handle : Handle}
    (acc : Acc a.Below handle) {children : List (Except TraceError CallRecord)}
    (h : a.childCalls handle = .ok children) :
    ∃ d, a.walkCalls store children = some d := by
  induction acc generalizing children with
  | intro handle _ ih =>
    apply exists_walkCalls_of_below
    intro child hchild grandchildren hgrandchildren
    exact ih child ⟨children, h, hchild⟩ hgrandchildren

theorem exists_walkCalls {a : Answers} (store : StoreId)
    {records : List (Except TraceError CallRecord)} (ends : a.Ends records) :
    ∃ d, a.walkCalls store records = some d := by
  apply exists_walkCalls_of_below
  intro handle hhandle children hchildren
  exact exists_walkCalls_of_acc store (acc_of_ends ends hhandle) hchildren

theorem exists_walkClients {a : Answers} (store : StoreId)
    (ends : ∀ client records, a.calls client = .ok records → a.Ends records)
    (clients : List (Except TraceError Client)) :
    ∃ d, a.walkClients store clients = some d := by
  induction clients with
  | nil => exact ⟨_, rfl⟩
  | cons item clients ih =>
    cases item with
    | error e => exact ⟨_, rfl⟩
    | ok client =>
      rw [walkClients]
      cases hcalls : a.calls client with
      | error e => exact ⟨_, rfl⟩
      | ok records => exact exists_andThen (exists_walkCalls store (ends client records hcalls)) ih

end Answers

end CallTrace
