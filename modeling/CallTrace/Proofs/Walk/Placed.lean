import CallTrace.Proofs.Recording.Answers
import CallTrace.Proofs.Recording.Traversal
import CallTrace.Proofs.Walk.Simulation

/-!
# Walks over placed calls

Answers fit placed calls if the top-level calls of each client and the children of each
call are listed where the calls are placed.  The recursive walk then follows the traversal
from the top and delivers the calls up to the first that cannot be read
(`Answers.Fits.walkClients_eq`).
-/

namespace CallTrace

open Delivery

/-- The records up to the first that cannot be read. -/
def Delivery.upTo (store : StoreId) : List (Except TraceError CallRecord) → Delivery
  | [] => nothing
  | .error e :: _ => failed e
  | .ok record :: records => cons (Call.ofRecord record store) (upTo store records)

theorem Delivery.upTo_append (store : StoreId) (xs ys : List (Except TraceError CallRecord)) :
    some (upTo store (xs ++ ys)) = andThen (some (upTo store xs)) (some (upTo store ys)) := by
  induction xs with
  | nil => rw [List.nil_append, upTo, nothing_andThen]
  | cons item xs ih =>
    cases item with
    | error e => rfl
    | ok record =>
      calc some (upTo store (.ok record :: (xs ++ ys)))
          = (some (upTo store (xs ++ ys))).map (cons (Call.ofRecord record store)) := rfl
        _ = (andThen (some (upTo store xs)) (some (upTo store ys))).map
              (cons (Call.ofRecord record store)) := by rw [ih]
        _ = andThen (some (upTo store (.ok record :: xs))) (some (upTo store ys)) :=
          (map_cons_andThen _ _ _).symm

section UpTo

variable {store : StoreId} {record : Nat → Except TraceError CallRecord}

/-- If all calls can be read, they are all delivered. -/
theorem Delivery.upTo_readable {α : Type} {key : Call → α} {keyAt : Nat → α} {is : List Nat}
    (h : ∀ i ∈ is, ∃ r, record i = .ok r ∧ key (Call.ofRecord r store) = keyAt i) :
    (upTo store (is.map record)).failure = none ∧
      (upTo store (is.map record)).calls.map key = is.map keyAt := by
  induction is with
  | nil => exact ⟨rfl, rfl⟩
  | cons i is ih =>
    obtain ⟨r, hr, hkey⟩ := h i List.mem_cons_self
    obtain ⟨hfailure, hcalls⟩ := ih fun j hj => h j (List.mem_cons_of_mem i hj)
    rw [List.map_cons, hr, upTo]
    refine ⟨hfailure, ?_⟩
    rw [cons, List.map_cons, List.map_cons, hkey, hcalls]

/-- The first call that cannot be read is the failure. -/
theorem Delivery.upTo_unreadable {front rear : List Nat} {i : Nat} {e : TraceError}
    (h : ∀ j ∈ front, ∃ r, record j = .ok r) (hi : record i = .error e) :
    (upTo store ((front ++ i :: rear).map record)).failure = some e := by
  induction front with
  | nil =>
    rw [List.nil_append, List.map_cons, hi]
    rfl
  | cons j front ih =>
    obtain ⟨r, hr⟩ := h j List.mem_cons_self
    rw [List.cons_append, List.map_cons, hr, upTo]
    exact ih fun k hk => h k (List.mem_cons_of_mem j hk)

end UpTo

namespace Answers

variable {a : Answers} {store : StoreId}

theorem walkCalls_append (xs ys : List (Except TraceError CallRecord)) :
    a.walkCalls store (xs ++ ys) = andThen (a.walkCalls store xs) (a.walkCalls store ys) := by
  induction xs with
  | nil => rw [List.nil_append, walkCalls_nil, nothing_andThen]
  | cons item xs ih =>
    cases item with
    | error e => rw [List.cons_append, walkCalls_error, walkCalls_error, failed_andThen]
    | ok record =>
      rw [List.cons_append, walkCalls_ok, walkCalls_ok, ih, map_cons_andThen, andThen_assoc]

/-- Clients whose calls are listed are walked like one long listing. -/
theorem walkClients_map_ok {clients : List Client}
    {listing : Client → List (Except TraceError CallRecord)}
    (h : ∀ client ∈ clients, a.calls client = .ok (listing client)) :
    a.walkClients store (clients.map .ok) = a.walkCalls store (clients.flatMap listing) := by
  induction clients with
  | nil => rw [List.map_nil, List.flatMap_nil, walkClients, walkCalls_nil]
  | cons client clients ih =>
    have later := ih fun c hc => h c (List.mem_cons_of_mem client hc)
    rw [List.map_cons, List.flatMap_cons, walkClients, h client List.mem_cons_self, later,
      walkCalls_append]

/-- The answers list the calls of these clients where they are placed. -/
structure Fits (a : Answers) (names : List Client) (ps : List Placement)
    (record : Nat → Except TraceError CallRecord) : Prop where
  clients : a.clients = .ok (names.map .ok)
  calls : ∀ client ∈ names,
    a.calls client = .ok ((rootPlaces ps (names.idxOf client)).map record)
  childCalls : ∀ i r, record i = .ok r → a.childCalls ⟨i⟩ = .ok ((childPlaces ps i).map record)
  handle : ∀ i r, record i = .ok r → r.handle = ⟨i⟩
  entry : ∀ i r, record i = .ok r → isSyntheticAt ps i = (r.entry == .synthetic)

namespace Fits

variable {clients : List Client} {ps : List Placement}
  {record : Nat → Except TraceError CallRecord}

theorem walkCalls_eq (fits : a.Fits clients ps record) {is order : List Nat}
    (h : Traversal ps is order) :
    a.walkCalls store (is.map record) = some (upTo store (order.map record)) := by
  -- A traversal splits a listing as the walk does, so the induction follows it.
  induction h with
  | nil => rw [List.map_nil, walkCalls_nil, upTo]
  | @synthetic i is later entry _ ih =>
    rw [List.map_cons, List.map_cons]
    cases hrecord : record i with
    | error e => rw [walkCalls_error, upTo]
    | ok r =>
      have hentry : r.entry = .synthetic := by
        rw [fits.entry i r hrecord] at entry
        exact beq_iff_eq.mp entry
      rw [walkCalls_ok, walkBelow_synthetic a store hentry, nothing_andThen, ih, upTo,
        Option.map_some]
  | @normal i is inside later entry _ _ ihBelow ihAfter =>
    rw [List.map_cons, List.map_cons, List.map_append]
    cases hrecord : record i with
    | error e => rw [walkCalls_error, upTo]
    | ok r =>
      have hentry : r.entry = .normal := by
        rw [fits.entry i r hrecord] at entry
        cases hr : r.entry with
        | normal => rfl
        | synthetic =>
          rw [hr] at entry
          cases entry
      have below : a.walkBelow store r = some (upTo store (inside.map record)) := by
        rw [walkBelow_normal a store hentry, fits.handle i r hrecord,
          fits.childCalls i r hrecord]
        exact ihBelow
      rw [walkCalls_ok, below, ihAfter, ← upTo_append, upTo, Option.map_some]

/-- The walk over all clients delivers the traversal from the top, up to the first call that
    cannot be read. -/
theorem walkClients_eq (fits : a.Fits clients ps record) {order : List Nat}
    (h : Traversal ps (topPlaces clients ps) order) :
    a.walkClients store (clients.map .ok) = some (upTo store (order.map record)) := by
  rw [walkClients_map_ok fits.calls, ← fits.walkCalls_eq h, topPlaces, List.map_flatMap]

end Fits

end Answers

/-- The answers of a recording fit the placements by which it is laid out. -/
theorem Recording.Arranged.fits {r : Recording} {clients : List Client} {ps : List Placement}
    (h : r.Arranged clients ps) : r.answers.Fits clients ps r.recordAt := by
  refine ⟨?_, ?_, ?_, ?_, ?_⟩
  · rw [← h.map_client, List.map_map]
    rfl
  · intro client hclient
    obtain ⟨modules, rfl⟩ := h.eq
    simp only [Recording.answers, Recording.client?_arrangement, if_pos hclient]
  · intro i record hrecord
    obtain ⟨node, hnode, -⟩ := Recording.recordAt_eq_ok hrecord
    have hchildren := hnode
    rw [h.getElem?_nodes, Option.map_eq_some_iff] at hchildren
    obtain ⟨p, -, rfl⟩ := hchildren
    simp only [Recording.answers, hnode]
  · intro i record hrecord
    obtain ⟨-, -, hhandle, -⟩ := Recording.recordAt_eq_ok hrecord
    exact hhandle
  · intro i record hrecord
    obtain ⟨node, hnode, -, hentry⟩ := Recording.recordAt_eq_ok hrecord
    rw [h.getElem?_nodes, Option.map_eq_some_iff] at hnode
    obtain ⟨p, hp, rfl⟩ := hnode
    rw [isSyntheticAt, hp, hentry]
    rfl

end CallTrace
