import CallTrace.Store
import CallTrace.Tally
import CallTrace.Walk

/-!
# Histograms

A histogram counts the calls of a walk by a key.  The first failure ends the counting;
what was counted before it stays counted.  A key may remember the calls that it was asked
about before; most keys do not.
-/

namespace CallTrace

/-- Counts, and whether everything could be read. -/
abbrev Counted := Tally × Except TraceError Unit

/-- Counts calls up to the first error, by a key that may remember the calls before. -/
def Tally.foldBy {κ : Type} (key : Call → StateM κ String) (t : Tally) :
    List (Except TraceError Call) → StateM κ Counted
  | [] => pure (t, .ok ())
  | .ok call :: rest => do
    let name ← key call
    foldBy key (t.accumulate name) rest
  | .error e :: _ => pure (t, .error e)

/-- Counts calls by a key, up to the first error. -/
def Tally.fold (key : Call → String) (t : Tally) (items : List (Except TraceError Call)) :
    Counted :=
  (t.foldBy (fun call => pure (key call)) items ()).1

namespace Reader

variable {σ κ : Type}

/-- Counts the calls of a walk, once it has started, by a key that may remember the calls
    before. -/
def countWalkBy (r : Reader σ) (store : StoreId) (start : Read σ (Walk σ))
    (key : Call → StateM κ String) (t : Tally) (memory : κ) (s : σ) : (Counted × κ) × σ :=
  match start s with
  | (.error e, s) => (((t, .error e), memory), s)
  | (.ok w, s) =>
    let (visits, _, s) := w.drain r store s
    (t.foldBy key (visits.map Visit.item) memory, s)

/-- Counts the calls of a walk, once it has started. -/
def countWalk (r : Reader σ) (store : StoreId) (start : Read σ (Walk σ)) (key : Call → String)
    (t : Tally) (s : σ) : Counted × σ :=
  let (counted, s) := r.countWalkBy store start (fun call => pure (key call)) t () s
  (counted.1, s)

theorem countWalk_refused {r : Reader σ} {start : Read σ (Walk σ)} {e : TraceError} {s : σ}
    (h : (start s).1 = .error e) (store : StoreId) (key : Call → String) (t : Tally) :
    r.countWalk store start key t s = ((t, .error e), (start s).2) := by
  rw [countWalk, countWalkBy]
  generalize start s = answer at h
  obtain ⟨_, s'⟩ := answer
  cases h
  rfl

theorem countWalk_started {r : Reader σ} {start : Read σ (Walk σ)} {w : Walk σ} {s s' : σ}
    (h : start s = (.ok w, s')) (store : StoreId) (key : Call → String) (t : Tally) :
    r.countWalk store start key t s =
      (t.fold key ((w.drain r store s').1.map Visit.item), (w.drain r store s').2.2) := by
  rw [countWalk, countWalkBy, h]
  rfl

/-- Counts the calls of all clients by a key that may remember the calls before. -/
def histogramBy (r : Reader σ) (store : StoreId) (key : Call → StateM κ String) (t : Tally)
    (memory : κ) (s : σ) : (Counted × κ) × σ :=
  r.countWalkBy store (Walk.ofClients r) key t memory s

/-- Counts the calls of all clients. -/
def histogram (r : Reader σ) (store : StoreId) (key : Call → String) (t : Tally) (s : σ) :
    Counted × σ :=
  r.countWalk store (Walk.ofClients r) key t s

/-- Counts the calls of one client. -/
def clientHistogram (r : Reader σ) (store : StoreId) (client : Client) (key : Call → String)
    (t : Tally) (s : σ) : Counted × σ :=
  r.countWalk store (Walk.ofClient r store client) key t s

end Reader

namespace Store

variable {σ : Type}

/-- Begins a walk, over one client if one is given. -/
def walk (s : Store σ) (client : Option Client) :
    Except Misuse (Except TraceError (Walk σ) × Store σ) :=
  s.ask <|
    match client with
    | some client => Walk.ofClient s.reader s.id client
    | none => Walk.ofClients s.reader

/-- Adds the calls of a store to a tally, or those of one client if one is given. -/
def histogram (s : Store σ) (client : Option Client) (key : Call → String) (t : Tally) :
    Except Misuse (Counted × Store σ) :=
  if s.isOpen then
    let (counted, state) :=
      match client with
      | some client => s.reader.clientHistogram s.id client key t s.state
      | none => s.reader.histogram s.id key t s.state
    .ok (counted, { s with state })
  else .error (.closedStore s.id)

end Store

end CallTrace
