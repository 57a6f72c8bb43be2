import CallTrace.Reader

/-!
# Stores

A store owns one reader from the time it is opened until it is closed.  It passes requests
on to the reader and stamps the calls that it hands out with its own number.

A request to a closed store, and a request for the children of a call that another store
handed out, are mistakes of the caller.  They are told apart from failures of the
reader, never reach it, and leave the store as it was.
-/

namespace CallTrace

/-- Requests that cannot be meant, and the store that was asked. -/
inductive Misuse where
  | closedStore (asked : StoreId)
  | foreignCall (call : Call) (asked : StoreId)
deriving DecidableEq, Repr

namespace Misuse

/-- What is wrong, in two or three words. -/
def message : Misuse → String
  | .closedStore _ => "used after close"
  | .foreignCall _ _ => "foreign call"

/-- What is wrong, with the call and the stores that are involved. -/
def report : Misuse → String
  | .closedStore asked => "trace store " ++ Nat.repr asked ++ " " ++ message (.closedStore asked)
  | .foreignCall call asked =>
    "call " ++ call.qualifiedName ++ " was produced by trace store " ++ Nat.repr call.store
      ++ ", not " ++ Nat.repr asked

end Misuse

/-- A reader in use. -/
structure Store (σ : Type) where
  id : StoreId
  reader : Reader σ
  state : σ
  isOpen : Bool := true

namespace Store

variable {σ α : Type}

/-- Lets a reading step change the state of the reader. -/
def run (s : Store σ) (read : Read σ α) : Except TraceError α × Store σ :=
  let (result, state) := read s.state
  (result, { s with state })

/-- Makes a request to the reader of an open store.  A refusal gives no store back: the reader had
    no part in it, and the store that was asked is still as it was. -/
def ask (s : Store σ) (request : Read σ α) :
    Except Misuse (Except TraceError α × Store σ) :=
  if s.isOpen then .ok (s.run request) else .error (.closedStore s.id)

def clients (s : Store σ) : Except Misuse (Except TraceError (Listing σ Client) × Store σ) :=
  s.ask s.reader.clients

def modules (s : Store σ) : Except Misuse (Except TraceError (Listing σ Module) × Store σ) :=
  s.ask s.reader.modules

/-- The top-level calls of a client. -/
def calls (s : Store σ) (client : Client) :
    Except Misuse (Except TraceError (Listing σ Call) × Store σ) :=
  s.ask (s.reader.stampedCalls s.id client)

/-- The children of a call of this store. -/
def children (s : Store σ) (call : Call) :
    Except Misuse (Except TraceError (Listing σ Call) × Store σ) :=
  if s.isOpen then
    if call.store = s.id then .ok (s.run (s.reader.stampedChildren s.id call))
    else .error (.foreignCall call s.id)
  else .error (.closedStore s.id)

/-- Releases the reader.  The store is closed even if the reader fails to close, and
    closing it again does nothing. -/
def close (s : Store σ) : Except TraceError Unit × Store σ :=
  if s.isOpen then
    let (result, s) := s.run s.reader.close
    (result, { s with isOpen := false })
  else (.ok (), s)

/-- Closes the store for good.  Nobody is left to tell if the reader fails. -/
def drop (s : Store σ) : Store σ :=
  s.close.2

/-- How a store shows itself. -/
def describe (s : Store σ) : String :=
  "TraceStore \x7b id: " ++ Nat.repr s.id ++ ", open: "
    ++ (if s.isOpen then "true" else "false") ++ " \x7d"

end Store

/-- Every store stands at the place of its number. -/
def Numbered {σ : Type} (places : Array (Option (Store σ))) : Prop :=
  ∀ (place : Nat) (s : Store σ), places[place]? = some (some s) → s.id = place

namespace Numbered

variable {σ : Type} {places : Array (Option (Store σ))}

theorem empty : Numbered (#[] : Array (Option (Store σ))) := by
  intro place s h
  cases h

theorem push (h : Numbered places) (reader : Reader σ) (state : σ) :
    Numbered (places.push (some { id := places.size, reader, state })) := by
  intro place s hplace
  rw [Array.getElem?_push] at hplace
  split at hplace
  · rename_i last
    cases hplace
    exact last.symm
  · exact h place s hplace

theorem set (h : Numbered places) {id : StoreId} {entry : Option (Store σ)}
    (hentry : ∀ s, entry = some s → s.id = id) : Numbered (places.setIfInBounds id entry) := by
  intro place s hplace
  rw [Array.getElem?_setIfInBounds] at hplace
  split at hplace
  · rename_i same
    split at hplace
    · rw [← same]
      exact hentry s (Option.some.inj hplace)
    · cases hplace
  · exact h place s hplace

end Numbered

/-- The stores of a session.  A store that was dropped leaves an empty place. -/
structure StorePool (σ : Type) where
  places : Array (Option (Store σ)) := #[]
  numbered : Numbered places := by exact Numbered.empty

namespace StorePool

variable {σ : Type}

/-- The store over a reader that is opened next.  Stores are numbered in the order in which they
    are opened, and no number is used twice. -/
def next (pool : StorePool σ) (reader : Reader σ) (state : σ) : Store σ :=
  { id := pool.places.size, reader, state }

/-- Opens a store over a reader.  Gives its number. -/
def openStore (pool : StorePool σ) (reader : Reader σ) (state : σ) : StoreId × StorePool σ :=
  (pool.places.size,
    ⟨pool.places.push (some (pool.next reader state)), pool.numbered.push reader state⟩)

/-- The store with a number, unless it was dropped. -/
def store? (pool : StorePool σ) (id : StoreId) : Option (Store σ) :=
  (pool.places[id]?).join

/-- Puts back a store that was used. -/
def put (pool : StorePool σ) (s : Store σ) : StorePool σ :=
  ⟨pool.places.setIfInBounds s.id (some s), pool.numbered.set fun _ h => Option.some.inj h ▸ rfl⟩

/-- Drops a store.  Gives the state in which its reader was left. -/
def drop (pool : StorePool σ) (s : Store σ) : σ × StorePool σ :=
  (s.drop.state, ⟨pool.places.setIfInBounds s.id none, pool.numbered.set fun _ h => nomatch h⟩)

theorem store?_eq_some {pool : StorePool σ} {id : StoreId} {s : Store σ}
    (h : pool.store? id = some s) : pool.places[id]? = some (some s) ∧ s.id = id := by
  have place : pool.places[id]? = some (some s) := Option.join_eq_some_iff.mp h
  exact ⟨place, pool.numbered id s place⟩

end StorePool

end CallTrace
