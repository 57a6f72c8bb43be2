import CallTrace.TraceError

/-!
# Readers

A reader answers requests for clients, calls and modules.  It either refuses a request or
answers with a listing, whose items are read one at a time: an item that was not asked
for costs nothing and cannot fail.  Reading may change the state of the reader, for
instance what it has counted.

Listings are finite.  What an item is may depend on the state in which it is read, but how
many items there are is settled when the request is answered.  Sequences that go on forever,
or that grow while they are read, are left out.

`σ` is the type of these states.
-/

namespace CallTrace

/-- A reading step, which may fail and may change the state of the reader. -/
abbrev Read (σ α : Type) := σ → Except TraceError α × σ

/-- Items that are still to be read, a finite number. -/
abbrev Listing (σ α : Type) := List (Read σ α)

/-- A source of clients, calls and modules. -/
structure Reader (σ : Type) where
  clients : Read σ (Listing σ Client)
  /-- The top-level calls of a client. -/
  calls : Client → Read σ (Listing σ CallRecord)
  /-- The calls made by a call. -/
  childCalls : Handle → Read σ (Listing σ CallRecord)
  modules : Read σ (Listing σ Module)
  close : Read σ Unit

namespace Read

variable {σ α β : Type}

/-- Answers without looking at the state. -/
def answer (result : Except TraceError α) : Read σ α :=
  fun s => (result, s)

/-- Applies a function to what is read. -/
def map (f : α → β) (read : Read σ α) : Read σ β :=
  fun s =>
    match read s with
    | (result, s) => (result.map f, s)

end Read

namespace Listing

variable {σ α β : Type}

/-- Items that are known already. -/
def ofList (items : List (Except TraceError α)) : Listing σ α :=
  items.map Read.answer

/-- Applies a function to every item. -/
def map (f : α → β) (listing : Listing σ α) : Listing σ β :=
  List.map (Read.map f) listing

/-- Reads all items.  An item that cannot be read does not hide the later ones. -/
def readAll : Listing σ α → σ → List (Except TraceError α) × σ
  | [], s => ([], s)
  | read :: rest, s =>
    let (item, s) := read s
    let (items, s) := readAll rest s
    (item :: items, s)

end Listing

namespace Reader

variable {σ : Type}

/-- The top-level calls of a client, stamped with the store that asks. -/
def stampedCalls (r : Reader σ) (store : StoreId) (client : Client) : Read σ (Listing σ Call) :=
  (r.calls client).map (Listing.map (Call.ofRecord · store))

/-- The children of a call, stamped with the store that asks.  A synthetic call has none,
    and the reader is not asked. -/
def stampedChildren (r : Reader σ) (store : StoreId) (call : Call) : Read σ (Listing σ Call) :=
  if call.isSynthetic then Read.answer (.ok [])
  else (r.childCalls call.handle).map (Listing.map (Call.ofRecord · store))

end Reader

end CallTrace
