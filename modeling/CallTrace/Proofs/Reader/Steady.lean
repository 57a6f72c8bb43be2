import Mathlib.Data.List.Forall2
import CallTrace.Reader

/-!
# Steady readers

A reader is steady if it answers the same request in the same way every time, whatever
state the requests before it have left it in.  All that can be learned from such a reader
is then a table of answers: each request is either refused or answered with a finite
sequence of items, some of which may be unreadable.
-/

namespace CallTrace

variable {σ α β : Type}

theorem eq_ok_of_toOption {ε : Type} {result : Except ε α} {x : α}
    (h : result.toOption = some x) : result = .ok x := by
  cases result with
  | error e => cases h
  | ok y => exact congrArg Except.ok (Option.some.inj h)

/-- The answer to each request: a refusal, or the items of a listing. -/
structure Answers where
  clients : Except TraceError (List (Except TraceError Client))
  calls : Client → Except TraceError (List (Except TraceError CallRecord))
  childCalls : Handle → Except TraceError (List (Except TraceError CallRecord))

/-- The reading step has the same result in every state. -/
def Read.Gives (read : Read σ α) (result : Except TraceError α) : Prop :=
  ∀ s, (read s).1 = result

/-- The items of a listing can be read at any time, each with its own result. -/
def Listing.Gives (listing : Listing σ α) (results : List (Except TraceError α)) : Prop :=
  List.Forall₂ Read.Gives listing results

/-- The request is always refused with the same error, or always answered with a listing
    of the same items. -/
def Read.Lists (request : Read σ (Listing σ α)) :
    Except TraceError (List (Except TraceError α)) → Prop
  | .error e => ∀ s, (request s).1 = .error e
  | .ok results => ∀ s, ∃ listing, (request s).1 = .ok listing ∧ Listing.Gives listing results

/-- The reader answers every request for clients and calls as the table says. -/
structure Reader.Gives (r : Reader σ) (a : Answers) : Prop where
  clients : r.clients.Lists a.clients
  calls : ∀ client, (r.calls client).Lists (a.calls client)
  childCalls : ∀ handle, (r.childCalls handle).Lists (a.childCalls handle)

/-! ### Answers that are known already -/

theorem Read.gives_answer (result : Except TraceError α) :
    Read.Gives (Read.answer result : Read σ α) result := by
  intro s
  rfl

theorem Listing.gives_nil : Listing.Gives ([] : Listing σ α) [] :=
  List.Forall₂.nil

theorem Listing.gives_map {γ : Type} {read : γ → Read σ α} {result : γ → Except TraceError α}
    (h : ∀ x, (read x).Gives (result x)) (xs : List γ) :
    Listing.Gives (xs.map read) (xs.map result) := by
  induction xs with
  | nil => exact Listing.gives_nil
  | cons x xs ih => exact List.Forall₂.cons (h x) ih

theorem Listing.gives_ofList (results : List (Except TraceError α)) :
    Listing.Gives (Listing.ofList results : Listing σ α) results := by
  have h := Listing.gives_map (fun result => Read.gives_answer (σ := σ) result) results
  rwa [List.map_id'] at h

theorem Listing.Gives.readAll {listing : Listing σ α} {results : List (Except TraceError α)}
    (h : listing.Gives results) (s : σ) : (listing.readAll s).1 = results := by
  induction h generalizing s with
  | nil => rfl
  | @cons read result listing results first _ ih =>
    exact congrArg₂ List.cons (first s) (ih (read s).2)

theorem Read.lists_refused (e : TraceError) :
    Read.Lists (Read.answer (.error e) : Read σ (Listing σ α)) (.error e) := by
  intro s
  rfl

theorem Read.lists_answer {listing : Listing σ α} {results : List (Except TraceError α)}
    (h : listing.Gives results) :
    Read.Lists (Read.answer (.ok listing)) (.ok results) := by
  intro s
  exact ⟨listing, rfl, h⟩

/-! ### Answers to which a function is applied -/

theorem Read.gives_mapped (f : α → β) {read : Read σ α} {result : Except TraceError α}
    (h : read.Gives result) : (read.map f).Gives (result.map f) := by
  intro s
  rw [← h s]
  rfl

theorem Listing.gives_mapped (f : α → β) {listing : Listing σ α}
    {results : List (Except TraceError α)} (h : listing.Gives results) :
    (listing.map f).Gives (results.map (Except.map f)) := by
  induction h with
  | nil => exact Listing.gives_nil
  | cons head _ ih => exact List.Forall₂.cons (Read.gives_mapped f head) ih

theorem Read.lists_mapped (f : α → β) {request : Read σ (Listing σ α)}
    {answer : Except TraceError (List (Except TraceError α))} (h : request.Lists answer) :
    Read.Lists (Read.map (Listing.map f) request) (answer.map (List.map (Except.map f))) := by
  cases answer with
  | error e =>
    intro s
    have refused := h s
    show (request s).1.map (Listing.map f) = .error e
    rw [refused]
    rfl
  | ok results =>
    intro s
    obtain ⟨listing, granted, gives⟩ := h s
    refine ⟨listing.map f, ?_, Listing.gives_mapped f gives⟩
    show (request s).1.map (Listing.map f) = .ok (listing.map f)
    rw [granted]
    rfl

/-- What a request leads to, whatever state it is made in. -/
theorem Read.Lists.cases {request : Read σ (Listing σ α)}
    {answer : Except TraceError (List (Except TraceError α))} (h : request.Lists answer)
    (s : σ) :
    (∃ e s', answer = .error e ∧ request s = (.error e, s')) ∨
      ∃ results listing s', answer = .ok results ∧ request s = (.ok listing, s') ∧
        Listing.Gives listing results := by
  cases answer with
  | error e =>
    left
    exact ⟨e, (request s).2, rfl, Prod.ext (h s) rfl⟩
  | ok results =>
    right
    obtain ⟨listing, granted, gives⟩ := h s
    exact ⟨results, listing, (request s).2, rfl, Prod.ext granted rfl, gives⟩

theorem Read.Lists.refused {request : Read σ (Listing σ α)} {e : TraceError}
    {answer : Except TraceError (List (Except TraceError α))} (h : request.Lists answer)
    (refused : answer = .error e) (s : σ) : ∃ s', request s = (.error e, s') := by
  subst refused
  exact ⟨_, Prod.ext (h s) rfl⟩

theorem Read.Lists.granted {request : Read σ (Listing σ α)}
    {answer : Except TraceError (List (Except TraceError α))} (h : request.Lists answer)
    {results : List (Except TraceError α)} (granted : answer = .ok results) (s : σ) :
    ∃ listing s', request s = (.ok listing, s') ∧ Listing.Gives listing results := by
  subst granted
  obtain ⟨listing, hlisting, gives⟩ := h s
  exact ⟨listing, _, Prod.ext hlisting rfl, gives⟩

/-! ### Readers that answer from a table -/

/-- A request that is answered from a table and counted. -/
def Read.counted (answer : Except TraceError (List (Except TraceError α))) :
    Read Nat (Listing Nat α) :=
  fun requests => (answer.map Listing.ofList, requests + 1)

/-- A reader that answers from a table and counts its requests. -/
def Answers.reader (a : Answers) : Reader Nat where
  clients := Read.counted a.clients
  calls client := Read.counted (a.calls client)
  childCalls handle := Read.counted (a.childCalls handle)
  modules := Read.counted (.ok [])
  close := Read.answer (.ok ())

theorem Read.lists_counted (answer : Except TraceError (List (Except TraceError α))) :
    Read.Lists (Read.counted answer) answer := by
  cases answer with
  | error e =>
    intro requests
    rfl
  | ok results =>
    intro requests
    exact ⟨Listing.ofList results, rfl, Listing.gives_ofList results⟩

/-- Every table of answers belongs to a steady reader. -/
theorem Answers.reader_gives (a : Answers) : a.reader.Gives a where
  clients := Read.lists_counted a.clients
  calls client := Read.lists_counted (a.calls client)
  childCalls handle := Read.lists_counted (a.childCalls handle)

end CallTrace
