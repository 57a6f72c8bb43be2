import CallTrace.Reader

/-!
# Readers that keep a journal

Any reader can be made to note what is asked of it: every request, every item that is read
from a listing, and whether it failed.  It answers as it did before (`noted_eq`, `notedListing_eq`,
`stampedCalls_noted`, `stampedChildren_noted`), so the journal tells how others use the reader.
-/

namespace CallTrace

/-- Something that was asked of a reader, with the failure that it met. -/
inductive Note where
  | clients (failure : Option TraceError)
  /-- An item of the list of clients was read. -/
  | client (item : Except TraceError Client)
  | calls (client : Client) (failure : Option TraceError)
  | childCalls (handle : Handle) (failure : Option TraceError)
  /-- An item of a list of calls was read. -/
  | record (failure : Option TraceError)
  | modules (failure : Option TraceError)
  /-- An item of the list of modules was read. -/
  | module (failure : Option TraceError)
  | close (failure : Option TraceError)

/-- What was asked of a reader, in its order. -/
abbrev Journal := List Note

/-- The error that a step ended with. -/
def failureOf {α : Type} : Except TraceError α → Option TraceError
  | .ok _ => none
  | .error e => some e

namespace Note

def failure? : Note → Option TraceError
  | .client item => failureOf item
  | .clients failure | .calls _ failure | .childCalls _ failure | .record failure
  | .modules failure | .module failure | .close failure => failure

/-- The note of a record that was read. -/
def ofRecord {α : Type} (item : Except TraceError α) : Note := record (failureOf item)

def opened? : Note → Option Client
  | .calls c _ => some c
  | _ => none

def taken? : Note → Option Client
  | .client (.ok c) => some c
  | _ => none

def expanded? : Note → Option Handle
  | .childCalls handle _ => some handle
  | _ => none

def isRecord : Note → Bool
  | .record _ => true
  | _ => false

def isClose : Note → Bool
  | .close _ => true
  | _ => false

/-- Whether a walk makes such a note after it has begun. -/
def isOfWalk : Note → Bool
  | .client _ | .calls _ _ | .childCalls _ _ | .record _ => true
  | .clients _ | .modules _ | .module _ | .close _ => false

end Note

namespace Journal

variable (journal : Journal)

/-- The clients whose calls were requested. -/
def opened : List Client := journal.filterMap Note.opened?

/-- The clients that were read from the list of clients. -/
def taken : List Client := journal.filterMap Note.taken?

/-- The calls whose children were requested. -/
def expanded : List Handle := journal.filterMap Note.expanded?

/-- How many records were read, or could not be read. -/
def pulled : Nat := journal.countP Note.isRecord

/-- How often the reader was closed. -/
def closes : Nat := journal.countP Note.isClose

/-- Nothing was asked after a failure. -/
def Quiet : Prop :=
  ∀ front note back, journal = front ++ note :: back → note.failure?.isSome → back = []

variable {journal} {more : Journal}

@[simp] theorem opened_append : opened (journal ++ more) = opened journal ++ opened more :=
  List.filterMap_append

@[simp] theorem taken_append : taken (journal ++ more) = taken journal ++ taken more :=
  List.filterMap_append

@[simp] theorem expanded_append :
    expanded (journal ++ more) = expanded journal ++ expanded more :=
  List.filterMap_append

@[simp] theorem pulled_append : pulled (journal ++ more) = pulled journal + pulled more :=
  List.countP_append

@[simp] theorem closes_append : closes (journal ++ more) = closes journal + closes more :=
  List.countP_append

theorem quiet_of_no_failure (h : ∀ note ∈ journal, note.failure? = none) : Quiet journal := by
  intro front note back hsplit failed
  rw [h note (by simp [hsplit])] at failed
  cases failed

theorem quiet_singleton (note : Note) : Quiet [note] := by
  intro front last back hsplit _
  cases front with
  | nil => exact (List.cons.inj hsplit).2.symm
  | cons first front => simp at hsplit

/-- After a journal without failures, any quiet one may follow. -/
theorem Quiet.after (h : ∀ note ∈ journal, note.failure? = none) (quiet : Quiet more) :
    Quiet (journal ++ more) := by
  intro front note back hsplit failed
  rcases List.append_eq_append_iff.mp hsplit with ⟨between, rfl, later⟩ | ⟨between, earlier, later⟩
  · exact quiet between note back later failed
  · cases between with
    | nil => exact quiet [] note back later.symm failed
    | cons first between =>
      obtain ⟨rfl, -⟩ := List.cons.inj later
      rw [h note (by simp [earlier])] at failed
      cases failed

theorem Quiet.cons {note : Note} (h : note.failure? = none) (quiet : Quiet more) :
    Quiet (note :: more) := by
  have smooth : ∀ first ∈ [note], first.failure? = none := by
    intro first hfirst
    rw [List.mem_singleton.mp hfirst, h]
  exact Quiet.after smooth quiet

end Journal

/-! ### Keeping a journal -/

variable {σ α β : Type}

/-- A reading step that is noted. -/
def Read.noted (note : Except TraceError α → Note) (read : Read σ α) : Read (Journal × σ) α :=
  fun (journal, s) =>
    let (result, s) := read s
    (result, journal ++ [note result], s)

/-- A listing whose items are noted as they are read. -/
def Listing.noted (note : Except TraceError α → Note) (listing : Listing σ α) :
    Listing (Journal × σ) α :=
  List.map (Read.noted note) listing

/-- A request that is noted, as are the items that it lists. -/
def Read.notedListing (asked : Option TraceError → Note) (item : Except TraceError α → Note)
    (request : Read σ (Listing σ α)) : Read (Journal × σ) (Listing (Journal × σ) α) :=
  (request.noted (fun answer => asked (failureOf answer))).map (Listing.noted item)

/-- The reader that answers as the given one does and notes what is asked of it. -/
def Reader.noted (r : Reader σ) : Reader (Journal × σ) where
  clients := r.clients.notedListing .clients .client
  calls client := (r.calls client).notedListing (.calls client) .ofRecord
  childCalls handle := (r.childCalls handle).notedListing (.childCalls handle) .ofRecord
  modules := r.modules.notedListing .modules fun item => .module (failureOf item)
  close := r.close.noted fun result => .close (failureOf result)

theorem failureOf_map (f : α → β) (result : Except TraceError α) :
    failureOf (result.map f) = failureOf result := by
  cases result <;> rfl

theorem noted_eq {read : Read σ α} {result : Except TraceError α} {s s' : σ}
    (h : read s = (result, s')) (note : Except TraceError α → Note) (journal : Journal) :
    read.noted note (journal, s) = (result, journal ++ [note result], s') := by
  simp only [Read.noted, h]

theorem notedListing_eq {request : Read σ (Listing σ α)} {answer : Except TraceError (Listing σ α)}
    {s s' : σ} (h : request s = (answer, s')) (asked : Option TraceError → Note)
    (item : Except TraceError α → Note) (journal : Journal) :
    request.notedListing asked item (journal, s) =
      (answer.map (Listing.noted item), journal ++ [asked (failureOf answer)], s') := by
  simp only [Read.notedListing, Read.map, noted_eq h]

theorem listing_map_noted (f : α → β) (listing : Listing σ α) :
    Listing.map f (Listing.noted Note.ofRecord listing) =
      Listing.noted Note.ofRecord (Listing.map f listing) := by
  have same : ∀ read : Read σ α,
      (read.noted Note.ofRecord).map f = (read.map f).noted Note.ofRecord := by
    intro read
    funext ⟨journal, s⟩
    simp only [Read.map, Read.noted, Note.ofRecord, failureOf_map]
  simp only [Listing.map, Listing.noted, List.map_map]
  exact List.map_congr_left fun read _ => same read

/-- A request for calls is answered as before, and noted. -/
theorem stamped_noted {request : Read σ (Listing σ CallRecord)} {store : StoreId}
    {answer : Except TraceError (Listing σ Call)} {s s' : σ}
    (h : request.map (Listing.map (Call.ofRecord · store)) s = (answer, s'))
    (asked : Option TraceError → Note) (journal : Journal) :
    (request.notedListing asked Note.ofRecord).map (Listing.map (Call.ofRecord · store))
        (journal, s) =
      (answer.map (Listing.noted Note.ofRecord), journal ++ [asked (failureOf answer)], s') := by
  rw [Read.map] at h
  generalize hasked : request s = asked' at h
  obtain ⟨records, s₁⟩ := asked'
  cases h
  rw [Read.map, notedListing_eq hasked]
  cases records with
  | error e => rfl
  | ok records => simp only [Except.map, failureOf, listing_map_noted]

theorem stampedCalls_noted {r : Reader σ} {store : StoreId} {client : Client}
    {answer : Except TraceError (Listing σ Call)} {s s' : σ}
    (h : r.stampedCalls store client s = (answer, s')) (journal : Journal) :
    r.noted.stampedCalls store client (journal, s) =
      (answer.map (Listing.noted Note.ofRecord), journal ++ [.calls client (failureOf answer)],
        s') :=
  stamped_noted h (.calls client) journal

theorem stampedChildren_noted {r : Reader σ} {store : StoreId} {call : Call}
    (entry : call.isSynthetic = false) {answer : Except TraceError (Listing σ Call)} {s s' : σ}
    (h : r.stampedChildren store call s = (answer, s')) (journal : Journal) :
    r.noted.stampedChildren store call (journal, s) =
      (answer.map (Listing.noted Note.ofRecord),
        journal ++ [.childCalls call.handle (failureOf answer)], s') := by
  simp only [Reader.stampedChildren, entry, Bool.false_eq_true, if_false] at h ⊢
  exact stamped_noted h (.childCalls call.handle) journal

end CallTrace
