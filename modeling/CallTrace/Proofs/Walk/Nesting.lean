import CallTrace.Proofs.Walk.Draining
import CallTrace.Proofs.Walk.Requests

/-!
# How deep calls are nested

A recursive walk knows which calls lead to the one that it delivers.  It need not come to an end,
since a reader may nest calls without end, so it is asked for a number of calls
(`Reader.nesting`).  The walk delivers the same calls, and after each of them it keeps one listing for
every level down to that call, and one more if the children of the call are listed
(`walk_depth_nesting`).  What was used up before leaves no trace: neither siblings nor empty
listings nor earlier clients count.
-/

namespace CallTrace

variable {σ : Type}

/-- What becomes of the children of a call that is delivered. -/
inductive Offspring where
  /-- The call is synthetic, and they are not requested. -/
  | hidden
  | refused
  | listed
deriving DecidableEq, Repr

/-- A call among the calls that it is nested in. -/
structure Nested where
  call : Call
  /-- The calls that lead to it, its parent first. -/
  above : List Call
  offspring : Offspring

namespace Nested

/-- A top-level call has level one, and a child has one more than its parent. -/
def level (x : Nested) : Nat := x.above.length + 1

/-- The number of listings that may still be needed right after the call. -/
def depth (x : Nested) : Nat :=
  match x.offspring with
  | .hidden | .refused => x.level
  | .listed => x.level + 1

theorem depth_le (x : Nested) : x.depth ≤ x.level + 1 := by
  rw [depth]
  split <;> omega

end Nested

/-! ### Recursive walks -/

/-- Where a recursive walk leaves off. -/
inductive Ending (σ : Type) where
  /-- As many calls have been delivered as were asked for. -/
  | paused
  | failed (error : TraceError)
  | done (s : σ)

def Ending.failure? : Ending σ → Option TraceError
  | .failed e => some e
  | .paused | .done _ => none

/-- What a recursive walk delivers. -/
structure Outline (σ : Type) where
  calls : List Nested
  ending : Ending σ

namespace Outline

def cons (x : Nested) (o : Outline σ) : Outline σ := ⟨x :: o.calls, o.ending⟩

/-- Goes on when the first part is done, given the number of calls in it. -/
def andThen (o : Outline σ) (next : Nat → σ → Outline σ) : Outline σ :=
  match o.ending with
  | .done s => ⟨o.calls ++ (next o.calls.length s).calls, (next o.calls.length s).ending⟩
  | .paused | .failed _ => o

/-- The answer when so many calls have been delivered before, and the depth after it. -/
def visit (o : Outline σ) (n : Nat) : Option (Except TraceError Call) × Nat :=
  match o.calls[n]? with
  | some x => (some (.ok x.call), x.depth)
  | none => (if n = o.calls.length then o.ending.failure?.map .error else none, 0)

variable (next later : Nat → σ → Outline σ)

theorem failed_andThen (calls : List Nested) (e : TraceError) :
    (⟨calls, .failed e⟩ : Outline σ).andThen next = ⟨calls, .failed e⟩ := rfl

theorem done_andThen (s : σ) : (⟨[], .done s⟩ : Outline σ).andThen next = next 0 s := rfl

theorem cons_andThen (x : Nested) (o : Outline σ) :
    (cons x o).andThen next = cons x (o.andThen fun used => next (used + 1)) := by
  obtain ⟨calls, _ | e | s⟩ := o <;> rfl

theorem andThen_assoc (o : Outline σ) :
    (o.andThen next).andThen later =
      o.andThen fun used s => (next used s).andThen fun more => later (used + more) := by
  obtain ⟨calls, _ | e | s⟩ := o
  · rfl
  · rfl
  · simp only [andThen]
    generalize next calls.length s = middle
    obtain ⟨calls', _ | e | s'⟩ := middle <;> simp

theorem visit_done (s : σ) (n : Nat) : (⟨[], .done s⟩ : Outline σ).visit n = (none, 0) := by
  simp [visit, Ending.failure?]

theorem visit_cons_succ (x : Nested) (o : Outline σ) (n : Nat) :
    (cons x o).visit (n + 1) = o.visit n := by
  simp [visit, cons]

end Outline

namespace Reader

variable (r : Reader σ) (store : StoreId)

/-- Delivers up to `n` calls of a listing and the calls nested in them.  The calls above the
    listing are known. -/
def outline (above : List Call) (n : Nat) (listing : Listing σ Call) (s : σ) : Outline σ :=
  match n, listing with
  | 0, _ => ⟨[], .paused⟩
  | _ + 1, [] => ⟨[], .done s⟩
  | n + 1, read :: rest =>
    match read s with
    | (.error e, _) => ⟨[], .failed e⟩
    | (.ok call, s) =>
      if call.isSynthetic then .cons ⟨call, above, .hidden⟩ (outline above n rest s)
      else
        match r.stampedChildren store call s with
        | (.error e, _) => ⟨[⟨call, above, .refused⟩], .failed e⟩
        | (.ok children, s) =>
          .cons ⟨call, above, .listed⟩
            ((outline (call :: above) n children s).andThen fun used s =>
              outline above (n - used) rest s)
termination_by n

/-- Delivers up to `n` calls of the clients, one client after the other. -/
def outlineClients : Nat → Listing σ Client → σ → Outline σ
  | 0, _, _ => ⟨[], .paused⟩
  | _ + 1, [], s => ⟨[], .done s⟩
  | n + 1, read :: clients, s =>
    match read s with
    | (.error e, _) => ⟨[], .failed e⟩
    | (.ok client, s) =>
      match r.stampedCalls store client s with
      | (.error e, _) => ⟨[], .failed e⟩
      | (.ok calls, s) =>
        (r.outline store [] (n + 1) calls s).andThen fun used s =>
          outlineClients (n + 1 - used) clients s

/-- Delivers up to `n` calls of one client, if one is given, else of all clients, unless they are
    refused. -/
def nesting (client? : Option Client) (n : Nat) (s : σ) : Except TraceError (Outline σ) :=
  match client? with
  | some client =>
    match r.stampedCalls store client s with
    | (.error e, _) => .error e
    | (.ok calls, s) => .ok (r.outline store [] n calls s)
  | none =>
    match r.clients s with
    | (.error e, _) => .error e
    | (.ok clients, s) => .ok (r.outlineClients store n clients s)

/-- Delivers up to `n` calls of the open listings, innermost first, and then of the clients to
    come.  The calls above the innermost listing are known, and so those above the others are. -/
def outlineOpened (n : Nat) : List (Listing σ Call) → List Call → Listing σ Client → σ → Outline σ
  | [], _, clients, s => r.outlineClients store n clients s
  | listing :: outer, above, clients, s =>
    (r.outline store above n listing s).andThen fun used s =>
      outlineOpened (n - used) outer above.tail clients s

variable {r store} {n : Nat} {above : List Call} {outer : List (Listing σ Call)}
  {clients : Listing σ Client} {s s' s'' : σ} {e : TraceError}

theorem outlineOpened_used :
    r.outlineOpened store (n + 1) ([] :: outer) above clients s =
      r.outlineOpened store (n + 1) outer above.tail clients s := by
  rw [outlineOpened, outline, Outline.done_andThen, Nat.sub_zero]

section Listing

variable {read : Read σ Call} {rest : Listing σ Call} {call : Call}

theorem outlineOpened_unread (failure : read s = (.error e, s')) :
    r.outlineOpened store (n + 1) ((read :: rest) :: outer) above clients s = ⟨[], .failed e⟩ := by
  simp only [outlineOpened, outline, failure, Outline.failed_andThen]

theorem outlineOpened_synthetic (next : read s = (.ok call, s'))
    (entry : call.isSynthetic = true) :
    r.outlineOpened store (n + 1) ((read :: rest) :: outer) above clients s =
      .cons ⟨call, above, .hidden⟩ (r.outlineOpened store n (rest :: outer) above clients s') := by
  simp only [outlineOpened, outline, next, entry, if_true, Outline.cons_andThen,
    Nat.add_sub_add_right]

theorem outlineOpened_refused (next : read s = (.ok call, s')) (entry : call.isSynthetic = false)
    (refused : r.stampedChildren store call s' = (.error e, s'')) :
    r.outlineOpened store (n + 1) ((read :: rest) :: outer) above clients s =
      .cons ⟨call, above, .refused⟩ ⟨[], .failed e⟩ := by
  simp only [outlineOpened, outline, next, entry, Bool.false_eq_true, if_false, refused,
    Outline.failed_andThen, Outline.cons]

theorem outlineOpened_normal {children : Listing σ Call} (next : read s = (.ok call, s'))
    (entry : call.isSynthetic = false)
    (granted : r.stampedChildren store call s' = (.ok children, s'')) :
    r.outlineOpened store (n + 1) ((read :: rest) :: outer) above clients s =
      .cons ⟨call, above, .listed⟩
        (r.outlineOpened store n (children :: rest :: outer) (call :: above) clients s'') := by
  simp only [outlineOpened, outline, next, entry, Bool.false_eq_true, if_false, granted,
    Outline.cons_andThen, Outline.andThen_assoc, Nat.add_sub_add_right, List.tail_cons]
  simp only [Nat.sub_add_eq]

end Listing

section Clients

variable {named : Read σ Client} {client : Client}

theorem outlineOpened_unlisted (failure : named s = (.error e, s')) :
    r.outlineOpened store (n + 1) [] above (named :: clients) s = ⟨[], .failed e⟩ := by
  simp only [outlineOpened, outlineClients, failure]

theorem outlineOpened_unopened (next : named s = (.ok client, s'))
    (refused : r.stampedCalls store client s' = (.error e, s'')) :
    r.outlineOpened store (n + 1) [] above (named :: clients) s = ⟨[], .failed e⟩ := by
  simp only [outlineOpened, outlineClients, next, refused]

theorem outlineOpened_opened {calls : Listing σ Call} (next : named s = (.ok client, s'))
    (granted : r.stampedCalls store client s' = (.ok calls, s'')) :
    r.outlineOpened store (n + 1) [] above (named :: clients) s =
      r.outlineOpened store (n + 1) [calls] [] clients s'' := by
  simp only [outlineOpened, outlineClients, next, granted]

end Clients

end Reader

/-! ### Turns -/

/-- What a stage still delivers, if the calls above the innermost listing are these. -/
def Stage.outline (r : Reader σ) (store : StoreId) (n : Nat) (above : List Call) :
    Stage σ → σ → Outline σ
  | .reading opened clients, s => r.outlineOpened store n opened.listings above clients s
  | .refused e _, _ => ⟨[], .failed e⟩
  | .over, s => ⟨[], .done s⟩

/-- There is a call above each of the open listings but the outermost one. -/
def Stage.Fits (above : List Call) : Stage σ → Prop
  | .reading opened _ => above.length = opened.listings.tail.length
  | .refused _ _ | .over => True

variable {r : Reader σ} {store : StoreId} {opened opened' : Pile σ}
  {clients clients' : Listing σ Client} {s s' : σ} {above : List Call}

theorem Pile.listings_rest {listing : Listing σ Call} {outer : List (Listing σ Call)}
    (top : opened.listings = listing :: outer) (rest : Listing σ Call) :
    (opened.pop.push rest).listings = rest :: outer := by
  rw [listings_push, listings_pop, top, List.tail_cons]

/-- The innermost listing is one more than the calls above it. -/
theorem Pile.height_rest {listing : Listing σ Call} {outer : List (Listing σ Call)}
    (top : opened.listings = listing :: outer) (fits : above.length = outer.length)
    (rest : Listing σ Call) : (opened.pop.push rest).height = above.length + 1 := by
  rw [height_eq, listings_rest top, List.length_cons, fits]

/-- A turn without an item leaves what is delivered as it is. -/
theorem turn_again_outline
    (h : Walk.turn r store opened clients s = (.again opened' clients', s'))
    (fits : (Stage.reading opened clients).Fits above) (n : Nat) :
    ∃ above', (Stage.reading opened' clients').Fits above' ∧
      r.outlineOpened store (n + 1) opened.listings above clients s =
        r.outlineOpened store (n + 1) opened'.listings above' clients' s' := by
  rw [Stage.Fits] at fits
  cases Walk.turns_of_eq h with
  | opened client none_open next granted =>
    refine ⟨[], ?_, ?_⟩
    · rw [Stage.Fits, Pile.listings_push, none_open]
      rfl
    · rw [none_open, Reader.outlineOpened_opened next granted, Pile.listings_push, none_open]
  | used top =>
    refine ⟨above.tail, ?_, ?_⟩
    · rw [Stage.Fits, Pile.listings_pop, List.length_tail, List.length_tail, fits]
    · rw [top, Reader.outlineOpened_used, Pile.listings_pop, top, List.tail_cons]

/-- A turn with an item delivers the next one, and leaves the others. -/
theorem turn_stop_outline {item : Option (Except TraceError Call)} {stage : Stage σ}
    (h : Walk.turn r store opened clients s = (.stop item stage, s'))
    (fits : (Stage.reading opened clients).Fits above) (visited n : Nat) :
    (item, (⟨stage, visited⟩ : Walk σ).depth) =
        (r.outlineOpened store (n + 1) opened.listings above clients s).visit 0 ∧
      ∃ above', stage.Fits above' ∧ ∀ i,
        (r.outlineOpened store (n + 1) opened.listings above clients s).visit (i + 1) =
          (stage.outline r store n above' s').visit i := by
  rw [Stage.Fits] at fits
  cases Walk.turns_of_eq h with
  | ended none_open =>
    rw [none_open, Reader.outlineOpened, Reader.outlineClients]
    refine ⟨(Outline.visit_done s 0).symm, [], trivial, fun i => ?_⟩
    rw [Stage.outline, Outline.visit_done, Outline.visit_done]
  | unlisted none_open failure =>
    rw [none_open, Reader.outlineOpened_unlisted failure]
    exact ⟨rfl, [], trivial, fun i => (Outline.visit_done s' i).symm⟩
  | unopened client none_open next refused =>
    rw [none_open, Reader.outlineOpened_unopened next refused]
    exact ⟨rfl, [], trivial, fun i => (Outline.visit_done s' i).symm⟩
  | unread top failure =>
    rw [top, Reader.outlineOpened_unread failure]
    exact ⟨rfl, [], trivial, fun i => (Outline.visit_done s' i).symm⟩
  | synthetic top next entry =>
    rw [top, List.tail_cons] at fits
    have listings := Pile.listings_rest top
    have depth := Pile.height_rest top fits
    rw [top, Reader.outlineOpened_synthetic next entry]
    refine ⟨congrArg (Prod.mk _) (depth _), above, ?_, fun i => ?_⟩
    · rw [Stage.Fits, listings, List.tail_cons, fits]
    · rw [Outline.visit_cons_succ, Stage.outline, listings]
  | childrenRefused top next entry refused =>
    rw [top, List.tail_cons] at fits
    have depth := Pile.height_rest top fits
    rw [top, Reader.outlineOpened_refused next entry refused]
    refine ⟨congrArg (Prod.mk _) (depth _), above, trivial, fun i => ?_⟩
    rw [Outline.visit_cons_succ, Stage.outline]
  | normal top next entry granted =>
    rename_i call children
    rw [top, List.tail_cons] at fits
    have listings := Pile.listings_rest top
    have depth := Pile.height_rest top fits
    rw [top, Reader.outlineOpened_normal next entry granted]
    refine ⟨congrArg (fun height => (_, height + 1)) (depth _), call :: above, ?_, fun i => ?_⟩
    · rw [Stage.Fits, Pile.listings_push, listings, List.tail_cons, List.length_cons,
        List.length_cons, fits]
    · rw [Outline.visit_cons_succ, Stage.outline, Pile.listings_push, listings]

/-! ### Items -/

theorem advance_outline (r : Reader σ) (store : StoreId) (opened : Pile σ)
    (clients : Listing σ Client) (s : σ)
    (fits : (Stage.reading opened clients).Fits above) (visited n : Nat) :
    ((Walk.advance r store opened clients s).1.1,
        (⟨(Walk.advance r store opened clients s).1.2, visited⟩ : Walk σ).depth) =
        (r.outlineOpened store (n + 1) opened.listings above clients s).visit 0 ∧
      ∃ above', (Walk.advance r store opened clients s).1.2.Fits above' ∧ ∀ i,
        (r.outlineOpened store (n + 1) opened.listings above clients s).visit (i + 1) =
          ((Walk.advance r store opened clients s).1.2.outline r store n above'
            (Walk.advance r store opened clients s).2).visit i := by
  fun_induction Walk.advance r store opened clients s generalizing above with
  | case1 opened clients s item stage s' hturn => exact turn_stop_outline hturn fits visited n
  | case2 opened clients s opened' clients' s' hturn ih =>
    obtain ⟨above', fits', same⟩ := turn_again_outline hturn fits n
    rw [same]
    exact ih fits'

/-- A walk delivers the first call of the outline and comes to the depth that goes with it, and the
    rest of the outline is what it delivers from then on. -/
theorem next_outline (r : Reader σ) (store : StoreId) (w : Walk σ) (s : σ)
    (fits : w.stage.Fits above) (n : Nat) :
    ((w.next r store s).1, (w.next r store s).2.1.depth) =
        (w.stage.outline r store (n + 1) above s).visit 0 ∧
      ∃ above', (w.next r store s).2.1.stage.Fits above' ∧ ∀ i,
        (w.stage.outline r store (n + 1) above s).visit (i + 1) =
          ((w.next r store s).2.1.stage.outline r store n above' (w.next r store s).2.2).visit i := by
  rcases w with ⟨⟨opened, clients⟩ | ⟨e, depth⟩ | _, visited⟩
  · exact advance_outline r store opened clients s fits _ n
  · exact ⟨rfl, [], trivial, fun i => (Outline.visit_done s i).symm⟩
  · refine ⟨(Outline.visit_done s 0).symm, [], trivial, fun i => ?_⟩
    exact (Outline.visit_done s (i + 1)).trans (Outline.visit_done s i).symm

/-- The answer of a walk that has been asked `i` times, and the depth after it. -/
theorem after_outline (r : Reader σ) (store : StoreId) (w : Walk σ) (s : σ)
    (fits : w.stage.Fits above) {n i : Nat} (h : i < n) :
    (w.answer r store i s, (w.after r store (i + 1) s).1.depth) =
      (w.stage.outline r store n above s).visit i := by
  induction i generalizing w s above n with
  | zero =>
    obtain ⟨n, rfl⟩ := Nat.exists_eq_add_one_of_ne_zero (Nat.ne_of_gt h)
    exact (next_outline r store w s fits n).1
  | succ i ih =>
    obtain ⟨n, rfl⟩ := Nat.exists_eq_add_one_of_ne_zero (Nat.ne_zero_of_lt h)
    obtain ⟨-, above', fits', rest⟩ := next_outline r store w s fits n
    rw [rest]
    exact ih _ _ fits' (Nat.lt_of_succ_lt_succ h)

/-! ### Whole walks -/

theorem map_range_outline (r : Reader σ) (store : StoreId) (w : Walk σ) (s : σ)
    (fits : w.stage.Fits above) (n : Nat) :
    (List.range n).map
        (fun i => (w.answer r store i s, (w.after r store (i + 1) s).1.depth)) =
      (List.range n).map (w.stage.outline r store n above s).visit :=
  List.map_congr_left fun _ hi => after_outline r store w s fits (List.mem_range.mp hi)

theorem visit_andThen_noClients (o : Outline σ) (n : Nat) :
    (o.andThen fun used => r.outlineClients store (n - used) []).visit = o.visit := by
  obtain ⟨calls, _ | e | s⟩ := o
  · rfl
  · rfl
  · funext i
    rw [Outline.andThen]
    cases n - calls.length <;> simp [Outline.visit, Reader.outlineClients, Ending.failure?]

/-- A walk begins where the recursive walk begins. -/
theorem start_outline (r : Reader σ) (store : StoreId) (client? : Option Client) (s : σ) :
    match Walk.start r store client? s with
    | (.error e, _) => ∀ n, r.nesting store client? n s = .error e
    | (.ok w, s') => w.depth = (if client?.isSome then 1 else 0) ∧ w.stage.Fits [] ∧
        ∀ n, ∃ o, r.nesting store client? n s = .ok o ∧
          (w.stage.outline r store n [] s').visit = o.visit := by
  cases client? with
  | none =>
    rw [Walk.start, Walk.ofClients, Read.map]
    generalize asked : r.clients s = answer
    obtain ⟨e | clients, s'⟩ := answer
    · intro n
      rw [Reader.nesting, asked]
    · refine ⟨rfl, rfl, fun n => ⟨r.outlineClients store n clients s', ?_, ?_⟩⟩
      · rw [Reader.nesting, asked]
      · rw [Stage.outline, Pile.listings_empty, Reader.outlineOpened]
  | some client =>
    rw [Walk.start, Walk.ofClient, Read.map]
    generalize asked : r.stampedCalls store client s = answer
    obtain ⟨e | calls, s'⟩ := answer
    · intro n
      rw [Reader.nesting, asked]
    · refine ⟨rfl, rfl, fun n => ⟨r.outline store [] n calls s', ?_, ?_⟩⟩
      · rw [Reader.nesting, asked]
      · rw [Stage.outline, Pile.listings_push, Pile.listings_empty, Reader.outlineOpened]
        exact visit_andThen_noClients _ n

/-- Whatever its reader does, short of a listing without end, a walk keeps one listing for the
    calls of one client, and none for all clients, before it is asked for an item.  Its answers are
    those of the recursive walk.  Right after a call it keeps one listing for each level down to
    the call, and one more exactly if the children of the call are listed; after a failure, and
    when there is nothing more, it keeps none, however often it is asked. -/
theorem walk_depth_nesting (r : Reader σ) (store : StoreId) (client? : Option Client) (s : σ) :
    match Walk.start r store client? s with
    | (.error e, _) => ∀ n, r.nesting store client? n s = .error e
    | (.ok w, s') =>
      w.depth = (if client?.isSome then 1 else 0) ∧
        ∀ n, ∃ o, r.nesting store client? n s = .ok o ∧
          (List.range n).map (fun i =>
              (w.answer r store i s', (w.after r store (i + 1) s').1.depth)) =
            (List.range n).map o.visit ∧
          ∀ x ∈ o.calls, x.depth ≤ x.level + 1 := by
  have begins := start_outline r store client? s
  generalize Walk.start r store client? s = answer at begins
  obtain ⟨e | w, s'⟩ := answer
  · exact begins
  · obtain ⟨depth, fits, outlines⟩ := begins
    refine ⟨depth, fun n => ?_⟩
    obtain ⟨o, nesting, same⟩ := outlines n
    refine ⟨o, nesting, ?_, fun x _ => x.depth_le⟩
    rw [← same]
    exact map_range_outline r store w s' fits n

end CallTrace
