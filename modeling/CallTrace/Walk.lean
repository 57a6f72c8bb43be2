import CallTrace.Reader

/-!
# Walks over call forests

A walk delivers the calls of one client, or of all clients in turn, parents before their
children and in the order in which the reader lists them.  It keeps the listings that
are not used up, innermost first, so the nesting of the calls is limited by memory
alone.  The children of a call are requested when the call is delivered and read when
the walk goes on.

The children of a synthetic call are never requested.  The first failure is delivered as
the last item of the walk.  If the request for the children of a call is refused, the
call itself is delivered first.
-/

namespace CallTrace

/-- Listings of nested calls, innermost first, and how many there are. -/
structure Pile (σ : Type) where
  listings : List (Listing σ Call)
  height : Nat
  height_eq : height = listings.length

namespace Pile

variable {σ : Type}

def empty : Pile σ := ⟨[], 0, rfl⟩

/-- Puts a listing on top. -/
def push (listing : Listing σ Call) (p : Pile σ) : Pile σ :=
  ⟨listing :: p.listings, p.height + 1, by simp [p.height_eq]⟩

/-- Puts the top listing away. -/
def pop (p : Pile σ) : Pile σ :=
  ⟨p.listings.tail, p.height - 1, by simp [p.height_eq]⟩

theorem ext_listings {p q : Pile σ} (h : p.listings = q.listings) : p = q := by
  have hp := p.height_eq
  have hq := q.height_eq
  cases p; cases q
  simp only at h hp hq
  subst h hp hq
  rfl

@[simp] theorem listings_empty : (empty : Pile σ).listings = [] := rfl

@[simp] theorem listings_push (listing : Listing σ Call) (p : Pile σ) :
    (p.push listing).listings = listing :: p.listings := rfl

@[simp] theorem listings_pop (p : Pile σ) : p.pop.listings = p.listings.tail := rfl

@[simp] theorem pop_push (listing : Listing σ Call) (p : Pile σ) : (p.push listing).pop = p :=
  ext_listings rfl

end Pile

/-- How far a walk has come. -/
inductive Stage (σ : Type) where
  /-- There are listings to be read, and then further clients. -/
  | reading (opened : Pile σ) (clients : Listing σ Client)
  /-- The children of the call that was just delivered were refused. -/
  | refused (error : TraceError) (depth : Nat)
  | over

/-- A walk in progress. -/
structure Walk (σ : Type) where
  stage : Stage σ
  /-- The number of calls that were delivered. -/
  visited : Nat := 0

/-- An item that a walk delivered, and the depth right after it. -/
structure Visit where
  item : Except TraceError Call
  depth : Nat

/-- What one turn of a walk leads to: the next turn, or an item and a stage. -/
inductive Turn (σ : Type) where
  | again (opened : Pile σ) (clients : Listing σ Client)
  | stop (item : Option (Except TraceError Call)) (stage : Stage σ)

namespace Walk

variable {σ : Type}

/-- A walk over the calls of one client. -/
def ofClient (r : Reader σ) (store : StoreId) (client : Client) : Read σ (Walk σ) :=
  (r.stampedCalls store client).map fun calls => ⟨.reading (Pile.empty.push calls) [], 0⟩

/-- A walk over the calls of all clients. -/
def ofClients (r : Reader σ) : Read σ (Walk σ) :=
  r.clients.map fun clients => ⟨.reading .empty clients, 0⟩

/-- The number of listings that are kept. -/
def depth (w : Walk σ) : Nat :=
  match w.stage with
  | .reading opened _ => opened.height
  | .refused _ depth => depth
  | .over => 0

/-! ### One item -/

/-- One turn: a listing that is used up is put away, the next client is opened, or an
    item is read. -/
def turn (r : Reader σ) (store : StoreId) (opened : Pile σ) (clients : Listing σ Client)
    (s : σ) : Turn σ × σ :=
  match opened.listings, clients with
  | [], [] => (.stop none .over, s)
  | [], read :: clients =>
    match read s with
    | (.error e, s) => (.stop (some (.error e)) .over, s)
    | (.ok client, s) =>
      match r.stampedCalls store client s with
      | (.error e, s) => (.stop (some (.error e)) .over, s)
      | (.ok calls, s) => (.again (opened.push calls) clients, s)
  | [] :: _, clients => (.again opened.pop clients, s)
  | (read :: rest) :: _, clients =>
    match read s with
    | (.error e, s) => (.stop (some (.error e)) .over, s)
    | (.ok call, s) =>
      let after := opened.pop.push rest
      if call.isSynthetic then (.stop (some (.ok call)) (.reading after clients), s)
      else
        match r.stampedChildren store call s with
        | (.error e, s) => (.stop (some (.ok call)) (.refused e after.height), s)
        | (.ok children, s) => (.stop (some (.ok call)) (.reading (after.push children) clients), s)

theorem turn_again_lt {r : Reader σ} {store : StoreId} {opened opened' : Pile σ}
    {clients clients' : Listing σ Client} {s s' : σ}
    (h : turn r store opened clients s = (.again opened' clients', s')) :
    opened'.height + 2 * clients'.length < opened.height + 2 * clients.length := by
  have height := opened.height_eq
  unfold turn at h
  split at h
  · simp at h
  · split at h
    · simp at h
    · split at h
      · simp at h
      · simp only [Prod.mk.injEq, Turn.again.injEq] at h
        obtain ⟨⟨rfl, rfl⟩, -⟩ := h
        simp only [Pile.push, List.length_cons]; omega
  · rename_i outer _ top
    simp only [Prod.mk.injEq, Turn.again.injEq] at h
    obtain ⟨⟨rfl, rfl⟩, -⟩ := h
    rw [top, List.length_cons] at height
    simp only [Pile.pop]; omega
  · split at h
    · simp at h
    · split at h
      · simp at h
      · split at h <;> simp at h

/-- Takes turns until there is an item or the walk is over. -/
def advance (r : Reader σ) (store : StoreId) (opened : Pile σ) (clients : Listing σ Client)
    (s : σ) : (Option (Except TraceError Call) × Stage σ) × σ :=
  match _h : turn r store opened clients s with
  | (.stop item stage, s) => ((item, stage), s)
  | (.again opened clients, s) => advance r store opened clients s
termination_by opened.height + 2 * clients.length
decreasing_by exact turn_again_lt _h

theorem advance_of_stop {r : Reader σ} {store : StoreId} {opened : Pile σ}
    {clients : Listing σ Client} {s s' : σ} {item : Option (Except TraceError Call)}
    {stage : Stage σ} (h : turn r store opened clients s = (.stop item stage, s')) :
    advance r store opened clients s = ((item, stage), s') := by
  rw [advance]
  split
  · rename_i hturn
    rw [h] at hturn
    cases hturn
    rfl
  · rename_i hturn
    rw [h] at hturn
    cases hturn

theorem advance_of_again {r : Reader σ} {store : StoreId} {opened opened' : Pile σ}
    {clients clients' : Listing σ Client} {s s' : σ}
    (h : turn r store opened clients s = (.again opened' clients', s')) :
    advance r store opened clients s = advance r store opened' clients' s' := by
  rw [advance]
  split
  · rename_i hturn
    rw [h] at hturn
    cases hturn
  · rename_i hturn
    rw [h] at hturn
    cases hturn
    rfl

/-- How many calls an item is. -/
def callsIn : Option (Except TraceError Call) → Nat
  | some (.ok _) => 1
  | _ => 0

/-- Delivers the next item, if there is one. -/
def next (r : Reader σ) (store : StoreId) (w : Walk σ) (s : σ) :
    Option (Except TraceError Call) × Walk σ × σ :=
  match w.stage with
  | .over => (none, w, s)
  | .refused e _ => (some (.error e), { w with stage := .over }, s)
  | .reading opened clients =>
    let ((item, stage), s) := advance r store opened clients s
    (item, ⟨stage, w.visited + callsIn item⟩, s)

/-! ### Many items -/

/-- Delivers items until the walk is over, after those in `visits`, latest first.  Nothing
    keeps a reader from nesting calls without end, so the walk need not come to an end. -/
def follow (r : Reader σ) (store : StoreId) (w : Walk σ) (s : σ) (visits : List Visit) :
    List Visit × Walk σ × σ :=
  match w.next r store s with
  | (none, w, s) => (visits.reverse, w, s)
  | (some item, w, s) => w |>.follow r store s (⟨item, w.depth⟩ :: visits)
partial_fixpoint

/-- Delivers all items that are left. -/
def drain (r : Reader σ) (store : StoreId) (w : Walk σ) (s : σ) : List Visit × Walk σ × σ :=
  follow r store w s []

end Walk

end CallTrace
