import CallTrace.Proofs.Walk.Turns
import CallTrace.Proofs.Walk.Simulation

/-!
# Logs of walks

A walk over all clients opens one client after the other and delivers the calls of each.  The
calls of a client are requested when it is opened, the children of a normal call when the call
is delivered.  A log lists these events in their order (`Reader.Logs`).  Every walk that comes
to an end without a failure has a log, whatever its reader depends on (`exists_logsAll`).
-/

namespace CallTrace

open Delivery

/-- What happens in the course of a walk. -/
inductive Event where
  /-- The calls of a client are requested. -/
  | opened (client : Client)
  /-- A call is delivered, and its children are requested if it is normal. -/
  | delivered (call : Call)

namespace Event

def opens : Event → Bool
  | opened _ => true
  | delivered _ => false

/-- Whether calls or children are requested. -/
def asks : Event → Bool
  | opened _ => true
  | delivered call => !call.isSynthetic

def call? : Event → Option Call
  | opened _ => none
  | delivered call => some call

end Event

abbrev Log := List Event

namespace Log

/-- The calls that are delivered. -/
def calls (log : Log) : List Call := log.filterMap Event.call?

/-- The number of requests for calls and for children. -/
def requests (log : Log) : Nat := log.countP Event.asks

/-- The number of clients that are opened. -/
def clients (log : Log) : Nat := log.countP Event.opens

variable {front back log : Log} {client : Client} {call : Call}

@[simp] theorem calls_nil : calls [] = [] := rfl

@[simp] theorem calls_opened : calls (.opened client :: log) = calls log := rfl

@[simp] theorem calls_delivered : calls (.delivered call :: log) = call :: calls log := rfl

@[simp] theorem calls_append : calls (front ++ back) = calls front ++ calls back :=
  List.filterMap_append

@[simp] theorem requests_nil : requests [] = 0 := rfl

@[simp] theorem requests_opened : requests (.opened client :: log) = requests log + 1 :=
  List.countP_cons_of_pos rfl

theorem requests_synthetic (h : call.isSynthetic = true) :
    requests (.delivered call :: log) = requests log :=
  List.countP_cons_of_neg (by simp [Event.asks, h])

theorem requests_normal (h : call.isSynthetic = false) :
    requests (.delivered call :: log) = requests log + 1 :=
  List.countP_cons_of_pos (by simp [Event.asks, h])

@[simp] theorem clients_nil : clients [] = 0 := rfl

@[simp] theorem clients_opened : clients (.opened client :: log) = clients log + 1 :=
  List.countP_cons_of_pos rfl

@[simp] theorem clients_delivered : clients (.delivered call :: log) = clients log :=
  List.countP_cons_of_neg (by simp [Event.opens])

end Log

variable {σ : Type}

/-- The open listings can be read to their end, innermost first, and then the clients to come,
    with these events. -/
inductive Reader.Logs (r : Reader σ) (store : StoreId) :
    List (Listing σ Call) → Listing σ Client → σ → Log → Prop where
  | ended {s : σ} : Logs r store [] [] s []
  | opened {read : Read σ Client} {clients : Listing σ Client} {client : Client}
      {calls : Listing σ Call} {s s' s'' : σ} {log : Log} (named : read s = (.ok client, s'))
      (granted : r.stampedCalls store client s' = (.ok calls, s''))
      (later : Logs r store [calls] clients s'' log) :
      Logs r store [] (read :: clients) s (.opened client :: log)
  | used {opened : List (Listing σ Call)} {clients : Listing σ Client} {s : σ} {log : Log}
      (later : Logs r store opened clients s log) : Logs r store ([] :: opened) clients s log
  | synthetic {read : Read σ Call} {rest : Listing σ Call} {opened : List (Listing σ Call)}
      {clients : Listing σ Client} {call : Call} {s s' : σ} {log : Log}
      (delivered : read s = (.ok call, s')) (entry : call.isSynthetic = true)
      (later : Logs r store (rest :: opened) clients s' log) :
      Logs r store ((read :: rest) :: opened) clients s (.delivered call :: log)
  | normal {read : Read σ Call} {rest : Listing σ Call} {opened : List (Listing σ Call)}
      {clients : Listing σ Client} {call : Call} {children : Listing σ Call} {s s' s'' : σ}
      {log : Log} (delivered : read s = (.ok call, s')) (entry : call.isSynthetic = false)
      (granted : r.stampedChildren store call s' = (.ok children, s''))
      (later : Logs r store (children :: rest :: opened) clients s'' log) :
      Logs r store ((read :: rest) :: opened) clients s (.delivered call :: log)

/-! ### Deliveries by turns -/

section Turns

variable {r : Reader σ} {store : StoreId} {opened opened' : Pile σ}
  {clients clients' : Listing σ Client} {s s' : σ} {visited : Nat} {d : Delivery}

theorem delivers_over (r : Reader σ) (store : StoreId) (s : σ) (visited : Nat) :
    (⟨.over, visited⟩ : Walk σ).Delivers r store s nothing := by
  intro n
  induction n with
  | zero => rfl
  | succ n ih => rw [Walk.answers_succ, Delivery.map_range_succ]; exact congrArg _ ih

theorem delivers_refused (r : Reader σ) (store : StoreId) (e : TraceError) (depth : Nat) (s : σ)
    (visited : Nat) : (⟨.refused e depth, visited⟩ : Walk σ).Delivers r store s (failed e) :=
  Walk.delivers_iff_next.mpr ⟨rfl, delivers_over r store s visited⟩

/-- A turn without an item changes nothing of what is delivered. -/
theorem delivers_iff_of_again
    (h : Walk.turn r store opened clients s = (.again opened' clients', s')) :
    (⟨.reading opened clients, visited⟩ : Walk σ).Delivers r store s d ↔
      (⟨.reading opened' clients', visited⟩ : Walk σ).Delivers r store s' d := by
  have same : Walk.advance r store opened clients s =
      Walk.advance r store opened' clients' s' := Walk.advance_of_again h
  have next_eq : (⟨.reading opened clients, visited⟩ : Walk σ).next r store s =
      (⟨.reading opened' clients', visited⟩ : Walk σ).next r store s' := by
    simp only [Walk.next, same]
  rw [Walk.delivers_iff_next, next_eq]
  exact Walk.delivers_iff_next.symm

/-- A turn with an item delivers it first. -/
theorem delivers_iff_of_stop {item : Option (Except TraceError Call)} {stage : Stage σ}
    (h : Walk.turn r store opened clients s = (.stop item stage, s')) :
    (⟨.reading opened clients, visited⟩ : Walk σ).Delivers r store s d ↔
      item = d.items.head? ∧
        (⟨stage, visited + Walk.callsIn item⟩ : Walk σ).Delivers r store s' d.rest := by
  have stops : Walk.advance r store opened clients s = ((item, stage), s') :=
    Walk.advance_of_stop h
  rw [Walk.delivers_iff_next]
  simp only [Walk.next, stops]

section Kinds

variable {e : TraceError} {s'' : σ}

theorem delivers_end (used : opened.listings = []) :
    (⟨.reading opened [], visited⟩ : Walk σ).Delivers r store s nothing := by
  have turn : Walk.turn r store opened [] s = (.stop none .over, s) := (Walk.Turns.ended used).eq
  exact (delivers_iff_of_stop turn).mpr ⟨rfl, delivers_over r store s _⟩

variable {named : Read σ Client} {client : Client} {calls : Listing σ Call}

theorem delivers_unnamed (used : opened.listings = []) (failure : named s = (.error e, s')) :
    (⟨.reading opened (named :: clients), visited⟩ : Walk σ).Delivers r store s (failed e) := by
  have turn : Walk.turn r store opened (named :: clients) s =
      (.stop (some (.error e)) .over, s') := (Walk.Turns.unlisted used failure).eq
  exact (delivers_iff_of_stop turn).mpr ⟨rfl, delivers_over r store s' _⟩

theorem delivers_unopened (used : opened.listings = []) (next : named s = (.ok client, s'))
    (refused : r.stampedCalls store client s' = (.error e, s'')) :
    (⟨.reading opened (named :: clients), visited⟩ : Walk σ).Delivers r store s (failed e) := by
  have turn : Walk.turn r store opened (named :: clients) s =
      (.stop (some (.error e)) .over, s'') := (Walk.Turns.unopened client used next refused).eq
  exact (delivers_iff_of_stop turn).mpr ⟨rfl, delivers_over r store s'' _⟩

theorem delivers_opened (used : opened.listings = []) (next : named s = (.ok client, s'))
    (granted : r.stampedCalls store client s' = (.ok calls, s''))
    (later : (⟨.reading (opened.push calls) clients, visited⟩ : Walk σ).Delivers r store s'' d) :
    (⟨.reading opened (named :: clients), visited⟩ : Walk σ).Delivers r store s d := by
  have turn : Walk.turn r store opened (named :: clients) s =
      (.again (opened.push calls) clients, s'') := (Walk.Turns.opened client used next granted).eq
  exact (delivers_iff_of_again turn).mpr later

variable {outer : List (Listing σ Call)} {read : Read σ Call} {rest : Listing σ Call} {call : Call}

theorem delivers_used (top : opened.listings = [] :: outer)
    (later : (⟨.reading opened.pop clients, visited⟩ : Walk σ).Delivers r store s d) :
    (⟨.reading opened clients, visited⟩ : Walk σ).Delivers r store s d := by
  have turn : Walk.turn r store opened clients s = (.again opened.pop clients, s) :=
    (Walk.Turns.used top).eq
  exact (delivers_iff_of_again turn).mpr later

theorem delivers_unread (top : opened.listings = (read :: rest) :: outer)
    (failure : read s = (.error e, s')) :
    (⟨.reading opened clients, visited⟩ : Walk σ).Delivers r store s (failed e) := by
  have turn : Walk.turn r store opened clients s = (.stop (some (.error e)) .over, s') :=
    (Walk.Turns.unread top failure).eq
  exact (delivers_iff_of_stop turn).mpr ⟨rfl, delivers_over r store s' _⟩

theorem delivers_synthetic (top : opened.listings = (read :: rest) :: outer)
    (next : read s = (.ok call, s')) (entry : call.isSynthetic = true)
    (later : ∀ visited, (⟨.reading (opened.pop.push rest) clients, visited⟩ : Walk σ).Delivers
      r store s' d) :
    (⟨.reading opened clients, visited⟩ : Walk σ).Delivers r store s (cons call d) := by
  have turn : Walk.turn r store opened clients s =
      (.stop (some (.ok call)) (.reading (opened.pop.push rest) clients), s') :=
    (Walk.Turns.synthetic top next entry).eq
  exact (delivers_iff_of_stop turn).mpr ⟨rfl, later _⟩

theorem delivers_childrenRefused (top : opened.listings = (read :: rest) :: outer)
    (next : read s = (.ok call, s')) (entry : call.isSynthetic = false)
    (refused : r.stampedChildren store call s' = (.error e, s'')) :
    (⟨.reading opened clients, visited⟩ : Walk σ).Delivers r store s
      (cons call (failed e)) := by
  have turn : Walk.turn r store opened clients s =
      (.stop (some (.ok call)) (.refused e (opened.pop.push rest).height), s'') :=
    (Walk.Turns.childrenRefused top next entry refused).eq
  exact (delivers_iff_of_stop turn).mpr ⟨rfl, delivers_refused r store e _ s'' _⟩

theorem delivers_normal {children : Listing σ Call}
    (top : opened.listings = (read :: rest) :: outer) (next : read s = (.ok call, s'))
    (entry : call.isSynthetic = false)
    (granted : r.stampedChildren store call s' = (.ok children, s''))
    (later : ∀ visited, (⟨.reading ((opened.pop.push rest).push children) clients, visited⟩ :
      Walk σ).Delivers r store s'' d) :
    (⟨.reading opened clients, visited⟩ : Walk σ).Delivers r store s (cons call d) := by
  have turn : Walk.turn r store opened clients s =
      (.stop (some (.ok call)) (.reading ((opened.pop.push rest).push children) clients), s'') :=
    (Walk.Turns.normal top next entry granted).eq
  exact (delivers_iff_of_stop turn).mpr ⟨rfl, later _⟩

end Kinds

/-! ### Logs of walks that end without a failure -/

theorem Reader.Logs.of_again {log : Log}
    (h : Walk.turn r store opened clients s = (.again opened' clients', s'))
    (later : r.Logs store opened'.listings clients' s' log) :
    ∃ whole, r.Logs store opened.listings clients s whole ∧ Log.calls whole = Log.calls log := by
  cases Walk.turns_of_eq h with
  | opened client none_open next granted =>
    rw [Pile.listings_push, none_open] at later
    rw [none_open]
    exact ⟨_, .opened next granted later, Log.calls_opened⟩
  | used top =>
    rw [Pile.listings_pop, top] at later
    rw [top]
    exact ⟨_, .used later, rfl⟩

theorem Reader.logs_of_end {stage : Stage σ}
    (h : Walk.turn r store opened clients s = (.stop none stage, s')) :
    r.Logs store opened.listings clients s [] := by
  cases Walk.turns_of_eq h with
  | ended none_open =>
    rw [none_open]
    exact .ended

/-- A turn that delivers a call, unless the children of the call are refused. -/
theorem Reader.logs_of_call {call : Call} {stage : Stage σ}
    (h : Walk.turn r store opened clients s = (.stop (some (.ok call)) stage, s')) :
    (∃ e depth, stage = .refused e depth) ∨
      ∃ opened' clients', stage = .reading opened' clients' ∧
        ∀ log, r.Logs store opened'.listings clients' s' log →
          r.Logs store opened.listings clients s (.delivered call :: log) := by
  cases Walk.turns_of_eq h with
  | synthetic top next entry =>
    refine .inr ⟨_, _, rfl, ?_⟩
    intro log later
    rw [Pile.listings_push, Pile.listings_pop, top] at later
    rw [top]
    exact .synthetic next entry later
  | childrenRefused => exact .inl ⟨_, _, rfl⟩
  | normal top next entry granted =>
    refine .inr ⟨_, _, rfl, ?_⟩
    intro log later
    rw [Pile.listings_push, Pile.listings_push, Pile.listings_pop, top] at later
    rw [top]
    exact .normal next entry granted later

/-- Turns without an item come to an end. -/
theorem Reader.exists_stop (r : Reader σ) (store : StoreId) (opened : Pile σ)
    (clients : Listing σ Client) (s : σ) :
    ∃ opened' clients' s' item stage s'',
      Walk.turn r store opened' clients' s' = (.stop item stage, s'') ∧
      (∀ visited d, (⟨.reading opened clients, visited⟩ : Walk σ).Delivers r store s d →
        (⟨.reading opened' clients', visited⟩ : Walk σ).Delivers r store s' d) ∧
      ∀ log, r.Logs store opened'.listings clients' s' log →
        ∃ whole, r.Logs store opened.listings clients s whole ∧
          Log.calls whole = Log.calls log := by
  fun_induction Walk.advance r store opened clients s with
  | case1 opened clients s item stage s' hturn =>
    exact ⟨opened, clients, s, item, stage, s', hturn, fun _ _ => id,
      fun log logs => ⟨log, logs, rfl⟩⟩
  | case2 opened clients s opened₁ clients₁ s₁ hturn ih =>
    obtain ⟨opened', clients', s', item, stage, s'', stops, delivers, logs⟩ := ih
    refine ⟨opened', clients', s', item, stage, s'', stops, ?_, ?_⟩
    · intro visited d h
      exact delivers visited d ((delivers_iff_of_again hturn).mp h)
    · intro log h
      obtain ⟨whole, later, same⟩ := logs log h
      obtain ⟨all, all_logs, hcalls⟩ := Logs.of_again hturn later
      exact ⟨all, all_logs, hcalls.trans same⟩

theorem Reader.logs_of_delivers {calls : List Call}
    (delivers : (⟨.reading opened clients, visited⟩ : Walk σ).Delivers r store s ⟨calls, none⟩) :
    ∃ log, r.Logs store opened.listings clients s log ∧ Log.calls log = calls := by
  induction calls generalizing opened clients s visited with
  | nil =>
    obtain ⟨opened', clients', s', item, stage, s'', stops, forward, back⟩ :=
      exists_stop r store opened clients s
    obtain ⟨rfl, -⟩ := (delivers_iff_of_stop stops).mp (forward _ _ delivers)
    exact back [] (logs_of_end stops)
  | cons call calls ih =>
    obtain ⟨opened', clients', s', item, stage, s'', stops, forward, back⟩ :=
      exists_stop r store opened clients s
    obtain ⟨rfl, rest⟩ := (delivers_iff_of_stop stops).mp (forward _ _ delivers)
    rcases logs_of_call stops with ⟨e, depth, rfl⟩ | ⟨opened₁, clients₁, rfl, extend⟩
    · -- A refusal would be delivered next, but there is no failure.
      have first := (Walk.delivers_iff_next.mp rest).1
      cases calls <;> cases first
    · obtain ⟨log, logs, hcalls⟩ := ih rest
      obtain ⟨whole, whole_logs, same⟩ := back _ (extend log logs)
      exact ⟨whole, whole_logs, by rw [same, Log.calls_delivered, hcalls]⟩

/-- The log of the whole walk. -/
def Reader.LogsAll (r : Reader σ) (store : StoreId) (s : σ) (log : Log) : Prop :=
  ∃ clients s', r.clients s = (.ok clients, s') ∧ r.Logs store [] clients s' log

/-- A walk over all clients that ends without a failure has a log of its calls. -/
theorem exists_logsAll {w : Walk σ} {calls : List Call}
    (started : Walk.ofClients r s = (.ok w, s')) (delivers : w.Delivers r store s' ⟨calls, none⟩) :
    ∃ log, r.LogsAll store s log ∧ Log.calls log = calls := by
  rw [Walk.ofClients, Read.map] at started
  generalize asked : r.clients s = answer at started
  obtain ⟨_ | clients, s₁⟩ := answer
  · cases started
  · cases started
    obtain ⟨log, logs, hcalls⟩ := Reader.logs_of_delivers delivers
    exact ⟨log, ⟨clients, s', asked, logs⟩, hcalls⟩

end Turns

end CallTrace
