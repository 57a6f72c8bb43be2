import CallTrace.Analysis
import CallTrace.Proofs.Counting
import CallTrace.Proofs.Walk.Log
import CallTrace.Reader.Faulty

/-!
# Walks that meet a fault

A fault is put into a reader whose walk over all clients ends without a failure.  The walk of
the faulty reader goes through the log of the first walk until the fault is due
(`FaultPlan.replay`, `Reader.Logs.delivers_replay`).  So it delivers a beginning of the same
calls, then the error, and counts exactly these calls (`walk_delivers_until_fault`).
-/

namespace CallTrace

open Delivery

/-- A single failure of a reader. -/
inductive Fault where
  /-- The request with this number is refused. -/
  | request (n : Nat)
  /-- The record with this number cannot be read. -/
  | record (n : Nat)
  /-- The list of clients breaks off after this many. -/
  | clients (n : Nat)

namespace Fault

def plan : Fault → FaultPlan
  | request n => { failingRequest := some n }
  | record n => { failingRecord := some n }
  | clients n => { clientsCut := some n }

def error : Fault → TraceError
  | request n => FaultPlan.failure ("injected failure on request " ++ Nat.repr n)
  | record n => FaultPlan.failure ("injected failure on record " ++ Nat.repr n)
  | clients _ => FaultPlan.failure "client enumeration failed"

end Fault

namespace FaultPlan

variable {σ : Type}

/-- What is delivered in the course of a log if its reader fails as planned, after so many
    requests and records and with so many clients left before the list of clients breaks off. -/
def replay (plan : FaultPlan) (requests records : Nat) : Option Nat → Log → Delivery
  | none, [] => nothing
  | some n, [] => failed (Fault.clients n).error
  | some 0, .opened _ :: _ => failed (Fault.clients 0).error
  | cut, .opened _ :: log =>
    if plan.failingRequest = some (requests + 1) then
      failed (Fault.request (requests + 1)).error
    else plan.replay (requests + 1) records (cut.map (· - 1)) log
  | cut, .delivered call :: log =>
    if plan.failingRecord = some (records + 1) then failed (Fault.record (records + 1)).error
    else if call.isSynthetic then cons call (plan.replay requests (records + 1) cut log)
    else if plan.failingRequest = some (requests + 1) then
      cons call (failed (Fault.request (requests + 1)).error)
    else cons call (plan.replay (requests + 1) (records + 1) cut log)

/-! ### Answers of a faulty reader -/

variable {plan : FaultPlan} {r : Reader σ} {store : StoreId} {m : Meter} {s s' : σ}

theorem map_record {α β : Type} (f : α → β) (read : Read σ α) :
    (plan.record read).map f = plan.record (read.map f) := by
  funext ⟨m, s⟩
  simp only [Read.map, record, Read.unmetered]
  split <;> rfl

theorem record_ok {α : Type} {read : Read σ α} {x : α} (h : read s = (.ok x, s'))
    (spared : plan.failingRecord ≠ some (m.records + 1)) :
    plan.record read (m, s) = (.ok x, { m with records := m.records + 1 }, s') := by
  simp [record, Read.unmetered, h, spared]

theorem record_due {α : Type} (read : Read σ α)
    (due : plan.failingRecord = some (m.records + 1)) :
    ∃ after, plan.record read (m, s) = (.error (Fault.record (m.records + 1)).error, after) := by
  simp [record, due, Fault.error]

theorem request_spared {α : Type} (granted : Read (Meter × σ) α)
    (spared : plan.failingRequest ≠ some (m.requests + 1)) :
    plan.request granted (m, s) = granted ({ m with requests := m.requests + 1 }, s) := by
  simp [request, spared]

theorem request_due {α : Type} (granted : Read (Meter × σ) α)
    (due : plan.failingRequest = some (m.requests + 1)) :
    ∃ after, plan.request granted (m, s) = (.error (Fault.request (m.requests + 1)).error, after) := by
  simp [request, due, Fault.error]

theorem metered_ok {request : Read σ (Listing σ CallRecord)} {calls : Listing σ Call}
    (h : request.map (Listing.map (Call.ofRecord · store)) s = (.ok calls, s')) (m : Meter) :
    (plan.metered request).map (Listing.map (Call.ofRecord · store)) (m, s) =
      (.ok (List.map plan.record calls), m, s') := by
  simp only [Read.map] at h
  simp only [metered, Read.map, Read.unmetered]
  generalize request s = answer at h
  obtain ⟨_ | records, _⟩ := answer
  · cases h
  · cases h
    simp [Except.map, Listing.map, map_record]

theorem stampedCalls_ok {client : Client} {calls : Listing σ Call}
    (granted : r.stampedCalls store client s = (.ok calls, s'))
    (spared : plan.failingRequest ≠ some (m.requests + 1)) :
    (plan.reader r).stampedCalls store client (m, s) =
      (.ok (List.map plan.record calls), { m with requests := m.requests + 1 }, s') := by
  rw [← metered_ok granted]
  simp only [Reader.stampedCalls, reader, Read.map, request_spared _ spared]

theorem stampedCalls_due (client : Client)
    (due : plan.failingRequest = some (m.requests + 1)) :
    ∃ after, (plan.reader r).stampedCalls store client (m, s) =
      (.error (Fault.request (m.requests + 1)).error, after) := by
  obtain ⟨after, refused⟩ := request_due (s := s) (plan.metered (r.calls client)) due
  refine ⟨after, ?_⟩
  simp only [Reader.stampedCalls, reader, Read.map, refused, Except.map]

theorem stampedChildren_ok {call : Call} {children : Listing σ Call}
    (entry : call.isSynthetic = false) (unguarded : plan.guarded = [])
    (granted : r.stampedChildren store call s = (.ok children, s'))
    (spared : plan.failingRequest ≠ some (m.requests + 1)) :
    (plan.reader r).stampedChildren store call (m, s) =
      (.ok (List.map plan.record children),
        { m with requests := m.requests + 1, expanded := m.expanded.push call.handle }, s') := by
  simp only [Reader.stampedChildren, entry, Bool.false_eq_true, if_false] at granted ⊢
  rw [← metered_ok granted]
  simp only [reader, unguarded, List.contains_nil, refuseIf, Bool.false_eq_true, if_false,
    Read.map, request_spared _ spared, expand]

theorem stampedChildren_due {call : Call} (entry : call.isSynthetic = false)
    (unguarded : plan.guarded = []) (due : plan.failingRequest = some (m.requests + 1)) :
    ∃ after, (plan.reader r).stampedChildren store call (m, s) =
      (.error (Fault.request (m.requests + 1)).error, after) := by
  obtain ⟨after, refused⟩ := request_due (s := s)
    (expand call.handle (plan.metered (r.childCalls call.handle))) due
  refine ⟨after, ?_⟩
  simp only [Reader.stampedChildren, entry, Bool.false_eq_true, if_false, reader, unguarded,
    List.contains_nil, refuseIf, Read.map, refused, Except.map]

/-! ### In step with the log -/

theorem replay_nil (plan : FaultPlan) (requests records : Nat) (cut : Option Nat) :
    plan.replay requests records cut [] =
      match cut with
      | none => nothing
      | some n => failed (Fault.clients n).error := by
  cases cut <;> rfl

theorem replay_opened (plan : FaultPlan) (requests records : Nat) {cut : Option Nat}
    (h : cut ≠ some 0) (client : Client) (log : Log) :
    plan.replay requests records cut (.opened client :: log) =
      if plan.failingRequest = some (requests + 1) then
        failed (Fault.request (requests + 1)).error
      else plan.replay (requests + 1) records (cut.map (· - 1)) log := by
  rcases cut with _ | _ | n
  · rfl
  · exact absurd rfl h
  · rfl

theorem replay_delivered (plan : FaultPlan) (requests records : Nat) (cut : Option Nat)
    (call : Call) (log : Log) :
    plan.replay requests records cut (.delivered call :: log) =
      if plan.failingRecord = some (records + 1) then failed (Fault.record (records + 1)).error
      else if call.isSynthetic then cons call (plan.replay requests (records + 1) cut log)
      else if plan.failingRequest = some (requests + 1) then
        cons call (failed (Fault.request (requests + 1)).error)
      else cons call (plan.replay (requests + 1) (records + 1) cut log) := by
  rcases cut with _ | _ | n <;> rfl

theorem clientItems_cons {cut : Option Nat} (h : cut ≠ some 0) (read : Read σ Client)
    (clients : Listing σ Client) :
    clientItems { clientsCut := cut } (read :: clients) =
      read.unmetered :: clientItems { clientsCut := cut.map (· - 1) } clients := by
  rcases cut with _ | _ | n
  · rfl
  · exact absurd rfl h
  · simp [clientItems, Listing.ofList]

theorem delivers_cut {opened : Pile (Meter × σ)} (used : opened.listings = [])
    {clients : Listing σ Client} {n : Nat} (h : n = 0 ∨ clients = []) (visited : Nat) :
    (⟨.reading opened (clientItems { clientsCut := some n } clients), visited⟩ :
        Walk (Meter × σ)).Delivers (plan.reader r) store (m, s)
      (failed (Fault.clients n).error) := by
  have breaks : clientItems { clientsCut := some n } clients =
      [Read.answer (.error (Fault.clients n).error)] := by
    rcases h with rfl | rfl <;> simp [clientItems, Listing.ofList, Fault.error]
  rw [breaks]
  exact delivers_unnamed used rfl

end FaultPlan

variable {σ : Type} {r : Reader σ} {store : StoreId} {plan : FaultPlan}

/-- The walk of a faulty reader goes through the log of the walk without a fault. -/
theorem Reader.Logs.delivers_replay {opened : List (Listing σ Call)} {clients : Listing σ Client}
    {s : σ} {log : Log} (logs : r.Logs store opened clients s log)
    (unguarded : plan.guarded = []) {pile : Pile (Meter × σ)}
    (same : pile.listings = opened.map (List.map plan.record)) (cut : Option Nat) (m : Meter)
    (visited : Nat) :
    (⟨.reading pile (FaultPlan.clientItems { clientsCut := cut } clients), visited⟩ :
        Walk (Meter × σ)).Delivers (plan.reader r) store (m, s)
      (plan.replay m.requests m.records cut log) := by
  induction logs generalizing pile cut m visited with
  | ended =>
    rw [FaultPlan.replay_nil]
    cases cut with
    | none => exact delivers_end same
    | some n => exact FaultPlan.delivers_cut same (.inr rfl) visited
  | @opened read clients client calls s s' s'' log next granted later ih =>
    by_cases hcut : cut = some 0
    · subst hcut
      exact FaultPlan.delivers_cut same (.inl rfl) visited
    · have hnext : read.unmetered (m, s) = (.ok client, (m, s')) := by
        simp only [Read.unmetered, next]
      rw [FaultPlan.clientItems_cons hcut, FaultPlan.replay_opened plan _ _ hcut]
      by_cases due : plan.failingRequest = some (m.requests + 1)
      · rw [if_pos due]
        obtain ⟨after, refused⟩ := FaultPlan.stampedCalls_due client due
        exact delivers_unopened same hnext refused
      · rw [if_neg due]
        refine delivers_opened same hnext (FaultPlan.stampedCalls_ok granted due) ?_
        refine ih ?_ (cut.map (· - 1)) _ visited
        rw [Pile.listings_push, same]
        rfl
  | @used opened clients s log later ih =>
    rw [List.map_cons] at same
    refine delivers_used same (ih ?_ cut m visited)
    rw [Pile.listings_pop, same]
    rfl
  | @synthetic read rest opened clients call s s' log next entry later ih =>
    rw [List.map_cons, List.map_cons] at same
    rw [FaultPlan.replay_delivered]
    by_cases due : plan.failingRecord = some (m.records + 1)
    · rw [if_pos due]
      obtain ⟨after, failure⟩ := FaultPlan.record_due read due
      exact delivers_unread same failure
    · rw [if_neg due, if_pos entry]
      refine delivers_synthetic same (FaultPlan.record_ok next due) entry ?_
      intro visited
      refine ih ?_ cut { m with records := m.records + 1 } visited
      rw [Pile.listings_push, Pile.listings_pop, same]
      rfl
  | @normal read rest opened clients call children s s' s'' log next entry granted later ih =>
    rw [List.map_cons, List.map_cons] at same
    rw [FaultPlan.replay_delivered]
    by_cases due : plan.failingRecord = some (m.records + 1)
    · rw [if_pos due]
      obtain ⟨after, failure⟩ := FaultPlan.record_due read due
      exact delivers_unread same failure
    · rw [if_neg due, if_neg (Bool.eq_false_iff.mp entry)]
      have hnext := FaultPlan.record_ok (m := m) next due
      by_cases dueNext : plan.failingRequest = some (m.requests + 1)
      · rw [if_pos dueNext]
        obtain ⟨after, refused⟩ := FaultPlan.stampedChildren_due (r := r)
          (m := { m with records := m.records + 1 }) entry unguarded dueNext
        exact delivers_childrenRefused same hnext entry refused
      · rw [if_neg dueNext]
        refine delivers_normal same hnext entry
          (FaultPlan.stampedChildren_ok entry unguarded granted dueNext) ?_
        intro visited
        refine ih ?_ cut _ visited
        rw [Pile.listings_push, Pile.listings_push, Pile.listings_pop, same]
        rfl

/-! ### How far a walk comes -/

theorem exists_nth {α : Type} {p : α → Bool} {xs : List α} {n : Nat} (pos : 0 < n)
    (hle : n ≤ xs.countP p) :
    ∃ front x back, xs = front ++ x :: back ∧ p x = true ∧ front.countP p + 1 = n := by
  induction xs generalizing n with
  | nil => exact absurd hle (by simpa using Nat.ne_of_gt pos)
  | cons y xs ih =>
    by_cases hy : p y = true
    · rw [List.countP_cons_of_pos hy] at hle
      by_cases hn : n = 1
      · exact ⟨[], y, xs, rfl, hy, hn.symm⟩
      · obtain ⟨front, x, back, rfl, hx, hcount⟩ := ih (n := n - 1) (by omega) (by omega)
        refine ⟨y :: front, x, back, rfl, hx, ?_⟩
        rw [List.countP_cons_of_pos hy]
        omega
    · rw [List.countP_cons_of_neg hy] at hle
      obtain ⟨front, x, back, rfl, hx, hcount⟩ := ih pos hle
      refine ⟨y :: front, x, back, rfl, hx, ?_⟩
      rw [List.countP_cons_of_neg hy, hcount]

namespace Fault

/-- The walk with this log comes to the point where the fault is due. -/
def Reached (log : Log) : Fault → Prop
  | request n => 0 < n ∧ n ≤ Log.requests log
  | record n => 0 < n ∧ n ≤ (Log.calls log).length
  | clients n => n ≤ Log.clients log

/-- The calls that are delivered before a fault. -/
inductive Leaves : Fault → Log → List Call → Prop where
  /-- The top-level calls of a client are refused: all calls of the earlier clients. -/
  | topLevel {front back : Log} {client : Client} :
      Leaves (.request (Log.requests front + 1)) (front ++ .opened client :: back)
        (Log.calls front)
  /-- The children of a call are refused: the calls up to this one. -/
  | children {front back : Log} {call : Call} (entry : call.isSynthetic = false) :
      Leaves (.request (Log.requests front + 1)) (front ++ .delivered call :: back)
        (Log.calls front ++ [call])
  /-- A record cannot be read: all calls before it. -/
  | record {front back : Log} {call : Call} :
      Leaves (.record ((Log.calls front).length + 1)) (front ++ .delivered call :: back)
        (Log.calls front)
  /-- The list of clients breaks off: all calls of the clients that are listed. -/
  | clients {front back : Log} (between : ∀ event ∈ back.head?, event.opens = true) :
      Leaves (.clients (Log.clients front)) (front ++ back) (Log.calls front)

variable {fault : Fault} {log : Log} {kept : List Call}

theorem Reached.exists_leaves (h : fault.Reached log) : ∃ kept, fault.Leaves log kept := by
  cases fault with
  | request n =>
    obtain ⟨front, event, back, rfl, asks, rfl⟩ := exists_nth h.1 h.2
    cases event with
    | opened client => exact ⟨_, .topLevel⟩
    | delivered call => exact ⟨_, .children (by simpa [Event.asks] using asks)⟩
  | record n =>
    have hle := h.2
    rw [Log.calls, List.length_filterMap_eq_countP] at hle
    obtain ⟨front, event, back, rfl, isCall, rfl⟩ := exists_nth h.1 hle
    rw [← List.length_filterMap_eq_countP]
    cases event with
    | opened client => cases isCall
    | delivered call => exact ⟨_, .record⟩
  | clients n =>
    by_cases hn : n = Log.clients log
    · refine ⟨Log.calls log, ?_⟩
      have all : (Fault.clients (Log.clients log)).Leaves (log ++ []) (Log.calls log) :=
        .clients (by simp)
      rwa [List.append_nil, ← hn] at all
    · have hlt : n + 1 ≤ Log.clients log := Nat.lt_of_le_of_ne h hn
      obtain ⟨front, event, back, rfl, opens, hcount⟩ := exists_nth (Nat.succ_pos n) hlt
      obtain rfl : Log.clients front = n := Nat.succ.inj hcount
      exact ⟨_, .clients (by simpa using opens)⟩

theorem Leaves.prefix_calls (h : fault.Leaves log kept) : kept <+: Log.calls log := by
  cases h with
  | topLevel => simp
  | children entry => simp
  | record => simp
  | clients between => simp

theorem Leaves.length_of_record {n : Nat} (h : (Fault.record n).Leaves log kept) :
    kept.length + 1 = n := by
  cases h
  rfl

end Fault

namespace FaultPlan

variable {plan : FaultPlan} {requests records : Nat} {cut : Option Nat} {log : Log}
  {client : Client} {call : Call}

/-- No fault is due in the course of the log. -/
structure Spares (plan : FaultPlan) (requests records : Nat) (cut : Option Nat) (log : Log) :
    Prop where
  requests : ∀ n, plan.failingRequest = some n → requests + Log.requests log < n
  records : ∀ n, plan.failingRecord = some n → records + (Log.calls log).length < n
  cut : ∀ n, cut = some n → Log.clients log ≤ n

theorem Spares.opened (h : plan.Spares requests records cut (.opened client :: log)) :
    cut ≠ some 0 ∧ plan.failingRequest ≠ some (requests + 1) ∧
      plan.Spares (requests + 1) records (cut.map (· - 1)) log := by
  obtain ⟨hrequests, hrecords, hcut⟩ := h
  rw [Log.requests_opened] at hrequests
  rw [Log.clients_opened] at hcut
  refine ⟨?_, ?_, ?_, hrecords, ?_⟩
  · intro none
    exact absurd (hcut 0 none) (Nat.not_succ_le_zero _)
  · intro due
    have := hrequests _ due
    omega
  · intro n hn
    have := hrequests n hn
    omega
  · intro n hn
    obtain ⟨k, rfl, rfl⟩ := Option.map_eq_some_iff.mp hn
    exact Nat.le_pred_of_lt (hcut k rfl)

theorem Spares.record (h : plan.Spares requests records cut (.delivered call :: log)) :
    plan.failingRecord ≠ some (records + 1) ∧
      ∀ n, plan.failingRecord = some n → records + 1 + (Log.calls log).length < n := by
  have hrecords := h.records
  rw [Log.calls_delivered, List.length_cons] at hrecords
  constructor
  · intro due
    have := hrecords _ due
    omega
  · intro n hn
    have := hrecords n hn
    omega

theorem Spares.synthetic (entry : call.isSynthetic = true)
    (h : plan.Spares requests records cut (.delivered call :: log)) :
    plan.Spares requests (records + 1) cut log := by
  refine ⟨?_, h.record.2, h.cut⟩
  have hrequests := h.requests
  rwa [Log.requests_synthetic entry] at hrequests

theorem Spares.normal (entry : call.isSynthetic = false)
    (h : plan.Spares requests records cut (.delivered call :: log)) :
    plan.failingRequest ≠ some (requests + 1) ∧
      plan.Spares (requests + 1) (records + 1) cut log := by
  have hrequests := h.requests
  rw [Log.requests_normal entry] at hrequests
  refine ⟨?_, ?_, h.record.2, h.cut⟩
  · intro due
    have := hrequests _ due
    omega
  · intro n hn
    have := hrequests n hn
    omega

/-- As long as no fault is due, the calls of the log are delivered. -/
theorem replay_append {front : Log} (spares : plan.Spares requests records cut front)
    (back : Log) :
    plan.replay requests records cut (front ++ back) =
      (Log.calls front).foldr cons (plan.replay (requests + Log.requests front)
        (records + (Log.calls front).length) (cut.map (· - Log.clients front)) back) := by
  induction front generalizing requests records cut with
  | nil => simp
  | cons event front ih =>
    cases event with
    | opened client =>
      obtain ⟨listed, granted, later⟩ := spares.opened
      have hcut : cut.map (· - (Log.clients front + 1)) =
          (cut.map (· - 1)).map (· - Log.clients front) := by
        rw [Option.map_map]
        congr 1
        funext n
        change n - (Log.clients front + 1) = n - 1 - Log.clients front
        omega
      rw [List.cons_append, replay_opened plan _ _ listed, if_neg granted, ih later,
        Log.calls_opened, Log.requests_opened, Log.clients_opened, hcut, Nat.add_right_comm,
        Nat.add_assoc]
    | delivered call =>
      rw [List.cons_append, replay_delivered, if_neg spares.record.1, Log.calls_delivered,
        List.foldr_cons, Log.clients_delivered, List.length_cons]
      cases entry : call.isSynthetic with
      | true =>
        rw [if_pos rfl, ih (spares.synthetic entry), Log.requests_synthetic entry,
          Nat.add_right_comm records, Nat.add_assoc records]
      | false =>
        obtain ⟨granted, later⟩ := spares.normal entry
        rw [if_neg Bool.false_ne_true, if_neg granted, ih later, Log.requests_normal entry,
          Nat.add_right_comm records, Nat.add_assoc records, Nat.add_right_comm requests,
          Nat.add_assoc requests]

end FaultPlan

namespace Fault

variable {fault : Fault} {log : Log} {kept : List Call}

theorem foldr_cons_failed (calls : List Call) (e : TraceError) :
    calls.foldr cons (failed e) = ⟨calls, some e⟩ := by
  induction calls with
  | nil => rfl
  | cons call calls ih => rw [List.foldr_cons, ih, cons]

/-- The faulty reader lets through exactly the calls that the fault leaves. -/
theorem Leaves.replay_eq (h : fault.Leaves log kept) :
    fault.plan.replay 0 0 fault.plan.clientsCut log = ⟨kept, some fault.error⟩ := by
  rw [← foldr_cons_failed]
  cases h with
  | topLevel =>
    rw [FaultPlan.replay_append ⟨by simp [plan], by simp [plan], by simp [plan]⟩]
    simp [FaultPlan.replay_opened, plan]
  | children entry =>
    rw [FaultPlan.replay_append ⟨by simp [plan], by simp [plan], by simp [plan]⟩]
    simp [FaultPlan.replay_delivered, plan, entry]
  | record =>
    rw [FaultPlan.replay_append ⟨by simp [plan], by simp [plan], by simp [plan]⟩]
    simp [FaultPlan.replay_delivered, plan]
  | @clients front back between =>
    rw [FaultPlan.replay_append ⟨by simp [plan], by simp [plan], by simp [plan]⟩]
    -- The list breaks off here, whether there was another client or not.
    rcases back with _ | ⟨_ | _, back⟩
    · simp [FaultPlan.replay_nil, plan, error]
    · simp [FaultPlan.replay, plan, error]
    · simp [Event.opens] at between

end Fault

/-! ### The faulty reader as a whole -/

theorem exists_ofClients_faulty {s : σ} {log : Log} (logs : r.LogsAll store s log)
    {fault : Fault} {kept : List Call} (leaves : fault.Leaves log kept) :
    ∃ w s', Walk.ofClients (fault.plan.reader r) ({}, s) = (.ok w, s') ∧
      w.Delivers (fault.plan.reader r) store s' ⟨kept, some fault.error⟩ := by
  obtain ⟨clients, s', asked, logs⟩ := logs
  have started : Walk.ofClients (fault.plan.reader r) ({}, s) =
      (.ok ⟨.reading .empty (FaultPlan.clientItems { clientsCut := fault.plan.clientsCut } clients),
        0⟩, ({}, s')) := by
    cases fault <;> simp [Walk.ofClients, Read.map, FaultPlan.reader, FaultPlan.refuseIf,
      Fault.plan, Read.unmetered, asked, Except.map, FaultPlan.clientItems]
  refine ⟨_, _, started, ?_⟩
  rw [← leaves.replay_eq]
  exact logs.delivers_replay (by cases fault <;> rfl) rfl _ {} 0

/-- A walk that ends without a failure is given a reader with one fault.  Up to the point where
    the fault is due it delivers the same calls, then the error and nothing more.  What was
    counted until then stays counted, also by a key that remembers, and there is no ranking.
    As long as the total is a word of 64 bits, all counts are words on the way. -/
theorem walk_delivers_until_fault {w : Walk σ} {s s' : σ} {calls : List Call}
    (started : Walk.ofClients r s = (.ok w, s'))
    (delivers : w.Delivers r store s' ⟨calls, none⟩) :
    ∃ log, r.LogsAll store s log ∧ Log.calls log = calls ∧
      ∀ fault : Fault, fault.Reached log → ∃ kept, fault.Leaves log kept ∧ kept <+: calls ∧
        (∃ w s', Walk.ofClients (fault.plan.reader r) ({}, s) = (.ok w, s') ∧
          w.Delivers (fault.plan.reader r) store s' ⟨kept, some fault.error⟩) ∧
        (∀ key t, ((fault.plan.reader r).histogram store key t ({}, s)).1 =
            (t.accumulateAll (kept.map key), .error fault.error) ∧
          (t.accumulateAll (kept.map key)).total = t.total + kept.length ∧
          (∀ name, (t.accumulateAll (kept.map key)).count name =
            t.count name + (kept.map key).count name) ∧
          ((∀ name, t.count name ≤ t.total) → t.total + kept.length < 2 ^ 64 →
            ∀ part, part <+: kept.map key → (t.accumulateAll part).InWords)) ∧
        (∀ (κ : Type) (key : Call → StateM κ String) (t : Tally) (memory : κ),
          ∃ names later, kept.mapM key memory = (names, later) ∧
            ((fault.plan.reader r).histogramBy store key t memory ({}, s)).1 =
              ((t.accumulateAll names, .error fault.error), later) ∧
            ((∀ name, t.count name ≤ t.total) → t.total + kept.length < 2 ^ 64 →
              ∀ part, part <+: names → (t.accumulateAll part).InWords)) ∧
        ∀ grouping count, ∃ after,
          Store.analyze ⟨store, fault.plan.reader r, ({}, s), true⟩ grouping count =
            .ok (.error (.reading fault.error), after) := by
  obtain ⟨log, logs, rfl⟩ := exists_logsAll started delivers
  refine ⟨log, logs, rfl, ?_⟩
  intro fault reached
  obtain ⟨kept, leaves⟩ := reached.exists_leaves
  obtain ⟨w', s₁, started', delivers'⟩ := exists_ofClients_faulty logs leaves
  have counted : ∀ key t, ((fault.plan.reader r).histogram store key t ({}, s)).1 =
      (t.accumulateAll (kept.map key), .error fault.error) := by
    intro key t
    rw [Reader.histogram, countWalk_eq started' delivers' key t, Tally.fold_items]
  refine ⟨kept, leaves, leaves.prefix_calls, ⟨w', s₁, started', delivers'⟩, ?_, ?_, ?_⟩
  · intro key t
    refine ⟨counted key t, ?_, Tally.count_accumulateAll t _, fun sums room part before => ?_⟩
    · rw [Tally.total_accumulateAll, List.length_map]
    · exact Tally.inWords_accumulateAll sums (by rwa [List.length_map]) before
  · intro κ key t memory
    refine ⟨(kept.mapM key memory).1, (kept.mapM key memory).2, rfl, ?_, ?_⟩
    · rw [Reader.histogramBy, countWalkBy_eq started' delivers' key t memory, Tally.foldBy_items]
      rfl
    · intro sums room part before
      exact Tally.inWords_accumulateAll sums (by rwa [length_mapM_key]) before
  · intro grouping count
    simp only [Store.analyze, Store.histogram, if_true, counted, Counted.ranking]
    exact ⟨_, rfl⟩

/-- Two clients with one call each. -/
def onePerClient : Answers where
  clients := .ok [.ok ⟨4, 8⟩, .ok ⟨4, 12⟩]
  calls _ := .ok [.ok default]
  childCalls _ := .ok []

theorem onePerClient_walkClients (store : StoreId) :
    onePerClient.walkClients store [.ok ⟨4, 8⟩, .ok ⟨4, 12⟩] =
      some ⟨[Call.ofRecord default store, Call.ofRecord default store], none⟩ := by
  have one : onePerClient.walkCalls store [.ok default] =
      some ⟨[Call.ofRecord default store], none⟩ := by
    rw [Answers.walkCalls_ok, Answers.walkBelow_normal _ _ rfl]
    rfl
  simp only [Answers.walkClients, onePerClient] at one ⊢
  rw [one]
  rfl

/-- A key that numbers the calls. -/
def numbered (_ : Call) : StateM Nat String :=
  fun n => (Nat.repr n, n + 1)

/-- The second record cannot be read: the first call is counted. -/
theorem walk_delivers_until_second_record :
    ∃ w s' calls, Walk.ofClients onePerClient.reader 0 = (.ok w, s') ∧
      w.Delivers onePerClient.reader 3 s' ⟨calls, none⟩ ∧ calls.length = 2 ∧
      ∃ after, Store.analyze ⟨3, (Fault.record 2).plan.reader onePerClient.reader, ({}, 0), true⟩
        .qualifiedName 100 = .ok (.error (.reading (Fault.record 2).error), after) ∧
      (let t := (((Fault.record 2).plan.reader onePerClient.reader).histogram 3
        Call.qualifiedName .empty ({}, 0)).1.1
      t.total = 1 ∧ t.InWords) ∧
      (((Fault.record 2).plan.reader onePerClient.reader).histogramBy 3 numbered .empty 0
        ({}, 0)).1 = ((Tally.accumulateAll .empty ["0"], .error (Fault.record 2).error), 1) := by
  obtain ⟨w, s', started, -, delivers⟩ := exists_ofClients_delivers onePerClient.reader_gives rfl
    (onePerClient_walkClients 3) 0
  obtain ⟨log, -, hcalls, faults⟩ := walk_delivers_until_fault started delivers
  have reached : (Fault.record 2).Reached log := by
    rw [Fault.Reached, hcalls]
    decide
  obtain ⟨kept, leaves, -, -, counted, remembered, analyzed⟩ := faults _ reached
  obtain ⟨after, hafter⟩ := analyzed .qualifiedName 100
  obtain ⟨call, rfl⟩ := List.length_eq_one_iff.mp (Nat.succ.inj leaves.length_of_record)
  refine ⟨w, s', _, started, delivers, rfl, after, hafter, ?_, ?_⟩
  · obtain ⟨result, total, -, words⟩ := counted Call.qualifiedName .empty
    rw [result]
    have room : 1 < 2 ^ 64 := by decide
    exact ⟨total, words (fun _ => Nat.le_refl 0) room _ (List.prefix_refl _)⟩
  · obtain ⟨names, later, asked, result, -⟩ := remembered Nat numbered .empty 0
    cases asked
    exact result

end CallTrace
