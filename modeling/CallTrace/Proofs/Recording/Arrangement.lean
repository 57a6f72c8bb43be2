import CallTrace.Recording

/-!
# Recordings as they are laid out

A recording that grows call by call is determined by its modules, its clients and, for each
call in order, the client it was added for, the parent it was put below and what is known
of it: its placement.  `arrangement` builds the recording of given placements at once, and
adding a call to such a recording adds a placement to the end (`addCall_arrangement`).
-/

namespace CallTrace

/-! ### Places in a list -/

/-- The places, in ascending order, of the members that satisfy a predicate. -/
def places {α : Type} (p : α → Bool) (xs : List α) : List Nat :=
  (xs.zipIdx.filter fun x => p x.1).map Prod.snd

section Places

variable {α : Type} {p : α → Bool} {xs : List α}

@[simp] theorem places_append_singleton (x : α) :
    places p (xs ++ [x]) = places p xs ++ if p x then [xs.length] else [] := by
  by_cases h : p x <;> simp [places, List.zipIdx_append, h]

theorem mem_places {i : Nat} : i ∈ places p xs ↔ ∃ x, xs[i]? = some x ∧ p x = true := by
  simp only [places, List.mem_map, List.mem_filter, Prod.exists,
    exists_eq_right, List.mk_mem_zipIdx_iff_getElem?]

theorem places_lt_length {i : Nat} (h : i ∈ places p xs) : i < xs.length := by
  obtain ⟨x, hx, -⟩ := mem_places.mp h
  exact (List.getElem?_eq_some_iff.mp hx).1

theorem places_pairwise : (places p xs).Pairwise (· < ·) := by
  have ordered : (xs.zipIdx.map Prod.snd).Pairwise (· < ·) := by
    rw [List.zipIdx_map_snd]
    exact List.pairwise_lt_range'
  exact ordered.sublist (List.Sublist.map Prod.snd List.filter_sublist)

theorem nodup_places : (places p xs).Nodup :=
  places_pairwise.imp Nat.ne_of_lt

theorem places_congr {q : α → Bool} (h : ∀ x ∈ xs, p x = q x) : places p xs = places q xs := by
  unfold places
  congr 1
  apply List.filter_congr
  intro x hx
  exact h x.1 (List.fst_mem_of_mem_zipIdx hx)

theorem places_eq_nil (h : ∀ x ∈ xs, p x = false) : places p xs = [] := by
  rw [places_congr h]
  simp [places]

theorem places_map {β : Type} (f : α → β) (q : β → Bool) :
    places q (xs.map f) = places (fun x => q (f x)) xs := by
  simp [places, List.zipIdx_map, List.filter_map, Function.comp_def]

end Places

/-- Without repetitions, a list goes on with a member that it does not have yet. -/
theorem eraseDups_append_singleton {α : Type} [BEq α] [LawfulBEq α] (xs : List α) (x : α) :
    (xs ++ [x]).eraseDups = if x ∈ xs.eraseDups then xs.eraseDups else xs.eraseDups ++ [x] := by
  rw [List.eraseDups_append]
  by_cases known : x ∈ xs
  · rw [if_pos (List.mem_eraseDups.mpr known)]
    simp [List.cons_removeAll, known]
  · rw [if_neg (mt List.mem_eraseDups.mp known)]
    simp [List.cons_removeAll, List.eraseDups_cons, known]

/-! ### Placements -/

/-- Where a call was put, and what is known of it. -/
structure Placement where
  client : Nat
  parent : Option Nat
  spec : CallSpec
deriving DecidableEq, Repr

/-- The calls directly below the call at an index. -/
def childPlaces (ps : List Placement) (i : Nat) : List Nat :=
  places (fun p : Placement => p.parent == some i) ps

/-- The top-level calls of the client at an index. -/
def rootPlaces (ps : List Placement) (k : Nat) : List Nat :=
  places (fun p : Placement => p.client == k && p.parent == none) ps

/-- Every call belongs to one of the clients, and its parent is an earlier call of the same
    client. -/
structure WellPlaced (clients : Nat) (ps : List Placement) : Prop where
  client_lt : ∀ p ∈ ps, p.client < clients
  parent : ∀ (i : Nat) (p : Placement), ps[i]? = some p → ∀ q, p.parent = some q →
    q < i ∧ (ps[q]?).map Placement.client = some p.client

namespace WellPlaced

variable {clients : Nat} {ps : List Placement}

theorem nil : WellPlaced clients [] :=
  ⟨by simp, by simp⟩

theorem append (well : WellPlaced clients ps) {p : Placement} (hclient : p.client < clients)
    (hparent : ∀ q, p.parent = some q → (ps[q]?).map Placement.client = some p.client) :
    WellPlaced clients (ps ++ [p]) := by
  constructor
  · intro x hx
    rcases List.mem_append.mp hx with h | h
    · exact well.client_lt x h
    · rw [List.mem_singleton.mp h]
      exact hclient
  · intro i x hx q hq
    by_cases hi : i < ps.length
    · rw [List.getElem?_append_left hi] at hx
      obtain ⟨hlt, hsame⟩ := well.parent i x hx q hq
      rw [List.getElem?_append_left (Nat.lt_trans hlt hi)]
      exact ⟨hlt, hsame⟩
    · have hlast : i = ps.length ∧ x = p := by
        have := (List.getElem?_eq_some_iff.mp hx).1
        simp only [List.length_append, List.length_singleton] at this
        have hi' : i = ps.length := by omega
        subst hi'
        simpa [eq_comm] using hx
      obtain ⟨rfl, rfl⟩ := hlast
      have hlt : q < ps.length := by
        obtain ⟨y, hy, -⟩ := Option.map_eq_some_iff.mp (hparent q hq)
        exact (List.getElem?_eq_some_iff.mp hy).1
      rw [List.getElem?_append_left hlt]
      exact ⟨hlt, hparent q hq⟩

theorem mono {more : Nat} (well : WellPlaced clients ps) (h : clients ≤ more) :
    WellPlaced more ps :=
  ⟨fun p hp => Nat.lt_of_lt_of_le (well.client_lt p hp) h, well.parent⟩

/-- A call that is not there yet has no children. -/
theorem childPlaces_length (well : WellPlaced clients ps) : childPlaces ps ps.length = [] := by
  apply places_eq_nil
  intro p hp
  obtain ⟨i, hi, rfl⟩ := List.mem_iff_getElem.mp hp
  rw [beq_eq_false_iff_ne]
  intro hparent
  have := (well.parent i ps[i] (List.getElem?_eq_getElem hi) _ hparent).1
  omega

/-- A client that is not there yet has no calls. -/
theorem rootPlaces_eq_nil (well : WellPlaced clients ps) : rootPlaces ps clients = [] := by
  apply places_eq_nil
  intro p hp
  have := well.client_lt p hp
  simp [Nat.ne_of_lt this]

end WellPlaced

namespace Recording

/-- The recording with these modules, clients and calls. -/
def arrangement (modules : List Module) (clients : List Client) (ps : List Placement) :
    Recording where
  modules := modules.toArray
  clients := (clients.zipIdx.map fun c =>
    { client := c.1, roots := (rootPlaces ps c.2).toArray }).toArray
  nodes := (ps.zipIdx.map fun p =>
    { spec := p.1.spec, client := p.1.client, children := (childPlaces ps p.2).toArray }).toArray

variable {modules : List Module} {clients : List Client} {ps : List Placement}

@[simp] theorem size_clients_arrangement :
    (arrangement modules clients ps).clients.size = clients.length := by
  simp [arrangement]

@[simp] theorem size_nodes_arrangement :
    (arrangement modules clients ps).nodes.size = ps.length := by
  simp [arrangement]

theorem getElem?_clients_arrangement (k : Nat) :
    (arrangement modules clients ps).clients[k]? =
      (clients[k]?).map fun c => { client := c, roots := (rootPlaces ps k).toArray } := by
  simp [arrangement, List.getElem?_zipIdx, Function.comp_def]

theorem getElem?_nodes_arrangement (i : Nat) :
    (arrangement modules clients ps).nodes[i]? =
      (ps[i]?).map fun p =>
        { spec := p.spec, client := p.client, children := (childPlaces ps i).toArray } := by
  simp [arrangement, List.getElem?_zipIdx, Function.comp_def]

theorem map_client_arrangement :
    (arrangement modules clients ps).clients.toList.map ClientRoots.client = clients := by
  simp [arrangement, Function.comp_def]

theorem find?_zipIdx (client : Client) (clients : List Client) (k : Nat) :
    (clients.zipIdx k).find? (fun c => c.1 == client) =
      if client ∈ clients then some (client, k + clients.idxOf client) else none := by
  induction clients generalizing k with
  | nil => rfl
  | cons c clients ih =>
    rw [List.zipIdx_cons, List.find?_cons]
    by_cases h : c = client
    · subst h
      simp
    · have hne : (c == client) = false := beq_eq_false_iff_ne.mpr h
      rw [hne, ih, List.idxOf_cons, hne, cond_false]
      simp only [List.mem_cons, Ne.symm h, false_or]
      congr 3
      omega

theorem client?_arrangement (client : Client) :
    (arrangement modules clients ps).client? client =
      if client ∈ clients then
        some { client, roots := (rootPlaces ps (clients.idxOf client)).toArray }
      else none := by
  have hfind := find?_zipIdx client clients 0
  rw [client?, arrangement, List.find?_toArray, List.find?_map]
  simp only [Function.comp_def]
  rw [hfind]
  by_cases h : client ∈ clients
  · rw [if_pos h, if_pos h, Option.map_some, Nat.zero_add]
  · rw [if_neg h, if_neg h, Option.map_none]

/-! ### Growth -/

theorem addModule_arrangement (m : Module) :
    (arrangement modules clients ps).addModule m = arrangement (modules ++ [m]) clients ps := by
  simp [addModule, arrangement]

theorem ext_getElem? {r r' : Recording} (hmodules : r.modules = r'.modules)
    (hclients : ∀ k : Nat, r.clients[k]? = r'.clients[k]?)
    (hnodes : ∀ i : Nat, r.nodes[i]? = r'.nodes[i]?) : r = r' := by
  rcases r with ⟨modules, clients, nodes⟩
  rcases r' with ⟨modules', clients', nodes'⟩
  congr
  · exact Array.ext_getElem? hclients
  · exact Array.ext_getElem? hnodes

/-- One more placement adds a call, below its parent if it has one. -/
theorem getElem?_nodes_append (well : WellPlaced clients.length ps) {p : Placement}
    (hparent : p.parent ≠ some ps.length) (i : Nat) :
    (arrangement modules clients (ps ++ [p])).nodes[i]? =
      if i = ps.length then some { spec := p.spec, client := p.client }
      else ((arrangement modules clients ps).nodes[i]?).map fun n =>
        if p.parent = some i then { n with children := n.children.push ps.length } else n := by
  rw [getElem?_nodes_arrangement, getElem?_nodes_arrangement]
  have children : childPlaces (ps ++ [p]) i =
      childPlaces ps i ++ if p.parent = some i then [ps.length] else [] := by
    simp [childPlaces]
  by_cases hi : i = ps.length
  · subst hi
    rw [if_pos rfl, List.getElem?_concat_length, Option.map_some, children, if_neg hparent,
      well.childPlaces_length]
    rfl
  · rw [if_neg hi, children]
    have hget : (ps ++ [p])[i]? = ps[i]? := by
      by_cases hlt : i < ps.length
      · exact List.getElem?_append_left hlt
      · rw [List.getElem?_eq_none (by simp; omega), List.getElem?_eq_none (by omega)]
    rw [hget, Option.map_map]
    by_cases hq : p.parent = some i <;> simp [hq, Function.comp_def]

/-- One more placement adds a top-level call to its client, if it has no parent. -/
theorem getElem?_clients_append {p : Placement} (k : Nat) :
    (arrangement modules clients (ps ++ [p])).clients[k]? =
      ((arrangement modules clients ps).clients[k]?).map fun c =>
        if p.client = k ∧ p.parent = none then { c with roots := c.roots.push ps.length }
        else c := by
  rw [getElem?_clients_arrangement, getElem?_clients_arrangement, Option.map_map]
  have roots : rootPlaces (ps ++ [p]) k =
      rootPlaces ps k ++ if p.client = k ∧ p.parent = none then [ps.length] else [] := by
    simp [rootPlaces]
  rw [roots]
  by_cases hk : p.client = k ∧ p.parent = none <;> simp [hk, Function.comp_def]

/-- Adding a call adds its placement. -/
theorem addCall_arrangement (well : WellPlaced clients.length ps) {p : Placement}
    (hclient : p.client < clients.length)
    (hparent : ∀ q, p.parent = some q → (ps[q]?).map Placement.client = some p.client) :
    (arrangement modules clients ps).addCall p.client (p.parent.map Handle.mk) p.spec =
      .ok (⟨ps.length⟩, arrangement modules clients (ps ++ [p])) := by
  have hlt : p.client < (arrangement modules clients ps).clients.size := by
    rw [size_clients_arrangement]
    exact hclient
  cases hp : p.parent with
  | none =>
    simp only [addCall, if_pos hlt, Option.map_none, link, size_nodes_arrangement]
    congr 2
    refine ext_getElem? rfl ?_ ?_
    · intro k
      rw [getElem?_clients_append, Array.getElem?_modify, hp]
      by_cases hk : p.client = k <;> simp [hk]
    · intro i
      rw [getElem?_nodes_append well (by simp [hp]), Array.getElem?_push,
        size_nodes_arrangement, hp]
      simp
  | some q =>
    obtain ⟨parent, hq, hsame⟩ := Option.map_eq_some_iff.mp (hparent q hp)
    have hqlt : q < ps.length := (List.getElem?_eq_some_iff.mp hq).1
    simp only [addCall, if_pos hlt, Option.map_some, link]
    rw [getElem?_nodes_arrangement, hq]
    simp only [Option.map_some, hsame, if_true, Array.size_modify, size_nodes_arrangement]
    congr 2
    refine ext_getElem? rfl ?_ ?_
    · intro k
      rw [getElem?_clients_append, hp]
      simp
    · intro i
      rw [getElem?_nodes_append well (by simp [hp]; omega), Array.getElem?_push,
        Array.size_modify, size_nodes_arrangement, Array.getElem?_modify, hp]
      by_cases hi : q = i <;> simp [hi]

/-- Adding a client adds it to the end unless it is there. -/
theorem addClient_arrangement (well : WellPlaced clients.length ps) (client : Client) :
    (arrangement modules clients ps).addClient client =
      (clients.idxOf client,
        arrangement modules (if client ∈ clients then clients else clients ++ [client]) ps) := by
  have found : (arrangement modules clients ps).clients.findIdx? (·.client == client) =
      clients.findIdx? (· == client) := by
    calc (arrangement modules clients ps).clients.findIdx? (·.client == client)
        = ((arrangement modules clients ps).clients.toList.map ClientRoots.client).findIdx?
            (· == client) := by
          rw [List.findIdx?_map, ← List.findIdx?_toArray, Array.toArray_toList]
          rfl
      _ = clients.findIdx? (· == client) := by rw [map_client_arrangement]
  by_cases hmem : client ∈ clients
  · have hsome : clients.findIdx? (· == client) = some (clients.idxOf client) :=
      List.findIdx?_eq_some_iff_findIdx_eq.mpr ⟨List.idxOf_lt_length_of_mem hmem, rfl⟩
    rw [addClient, found, hsome, if_pos hmem]
  · have hnone : clients.findIdx? (· == client) = none := List.idxOf?_eq_none_iff.mpr hmem
    rw [addClient, found, hnone, if_neg hmem, List.idxOf_eq_length hmem, size_clients_arrangement]
    dsimp only
    congr 1
    refine ext_getElem? rfl ?_ ?_
    · intro k
      rw [Array.getElem?_push, size_clients_arrangement, getElem?_clients_arrangement,
        getElem?_clients_arrangement]
      by_cases hk : k = clients.length
      · subst hk
        rw [if_pos rfl, List.getElem?_concat_length, Option.map_some, well.rootPlaces_eq_nil]
      · rw [if_neg hk]
        by_cases hlt : k < clients.length
        · rw [List.getElem?_append_left hlt]
        · rw [List.getElem?_eq_none (by omega), List.getElem?_eq_none (by simp; omega)]
    · intro i
      rw [getElem?_nodes_arrangement, getElem?_nodes_arrangement]

/-! ### Recordings that are laid out -/

/-- The recording is laid out by placements. -/
structure Arranged (r : Recording) (clients : List Client) (ps : List Placement) : Prop where
  eq : ∃ modules, r = arrangement modules clients ps
  nodup : clients.Nodup
  placed : WellPlaced clients.length ps

namespace Arranged

theorem empty : Arranged empty [] [] :=
  ⟨⟨[], rfl⟩, List.nodup_nil, .nil⟩

variable {r : Recording}

theorem size_nodes (h : Arranged r clients ps) : r.nodes.size = ps.length := by
  obtain ⟨modules, rfl⟩ := h.eq
  exact size_nodes_arrangement

theorem getElem?_nodes (h : Arranged r clients ps) (i : Nat) :
    r.nodes[i]? = (ps[i]?).map fun p =>
      { spec := p.spec, client := p.client, children := (childPlaces ps i).toArray } := by
  obtain ⟨modules, rfl⟩ := h.eq
  exact getElem?_nodes_arrangement i

theorem getElem?_clients (h : Arranged r clients ps) (k : Nat) :
    r.clients[k]? =
      (clients[k]?).map fun c => { client := c, roots := (rootPlaces ps k).toArray } := by
  obtain ⟨modules, rfl⟩ := h.eq
  exact getElem?_clients_arrangement k

theorem map_client (h : Arranged r clients ps) :
    r.clients.toList.map ClientRoots.client = clients := by
  obtain ⟨modules, rfl⟩ := h.eq
  exact map_client_arrangement

end Arranged

end Recording

end CallTrace
