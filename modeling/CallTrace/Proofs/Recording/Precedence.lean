import CallTrace.Proofs.Recording.Growth

/-!
# Which call comes first

A call comes before everything below it; of two calls in one listing the earlier one comes
first, with everything below it; and the calls of one client come before those of the next.
Of two calls that a traversal takes, it takes first the one that comes first
(`Arranged.sublist_iff_precedes`).
-/

namespace CallTrace

open Relation

namespace Recording

section Relations

variable (r : Recording)

/-- The second call is listed directly below the first. -/
def IsChild (p i : Nat) : Prop :=
  ∃ node, r.nodes[p]? = some node ∧ i ∈ node.children

def IsSynthetic (i : Nat) : Prop :=
  ∃ node, r.nodes[i]? = some node ∧ node.spec.entry = .synthetic

/-- The index of the client that made a call. -/
def clientOf (i : Nat) : Option Nat :=
  (r.nodes[i]?).map Node.client

/-- The calls are in one listing, and the first has the smaller handle. -/
def Siblings (i j : Nat) : Prop :=
  i < j ∧ ((∃ c ∈ r.clients, i ∈ c.roots ∧ j ∈ c.roots) ∨
    ∃ node ∈ r.nodes, i ∈ node.children ∧ j ∈ node.children)

inductive Precedes (i j : Nat) : Prop where
  | below (leads : TransGen r.IsChild i j)
  | siblings {a b : Nat} (h : r.Siblings a b) (hi : ReflTransGen r.IsChild a i)
      (hj : ReflTransGen r.IsChild b j)
  | clients {k l : Nat} (hi : r.clientOf i = some k) (hj : r.clientOf j = some l) (h : k < l)

end Relations

namespace Arranged

variable {r : Recording} {clients : List Client} {ps : List Placement} {i j : Nat}

theorem isChild_iff (h : Arranged r clients ps) : r.IsChild j i ↔ parentAt ps i = some j := by
  rw [IsChild, h.getElem?_nodes, ← mem_childPlaces]
  constructor
  · rintro ⟨node, hnode, hi⟩
    obtain ⟨p, -, rfl⟩ := Option.map_eq_some_iff.mp hnode
    exact List.mem_toArray.mp hi
  · intro hi
    have hj := Nat.lt_trans (h.placed.parentAt_lt (mem_childPlaces.mp hi)) (places_lt_length hi)
    exact ⟨_, Option.map_eq_some_iff.mpr ⟨_, List.getElem?_eq_getElem hj, rfl⟩,
      List.mem_toArray.mpr hi⟩

theorem isChild_eq (h : Arranged r clients ps) :
    r.IsChild = fun q i => parentAt ps i = some q := by
  funext q i
  exact propext h.isChild_iff

theorem isSynthetic_iff (h : Arranged r clients ps) :
    r.IsSynthetic i ↔ isSyntheticAt ps i = true := by
  rw [IsSynthetic, isSyntheticAt, h.getElem?_nodes]
  cases ps[i]? with
  | none => simp
  | some p => simp

theorem clientOf_eq (h : Arranged r clients ps) :
    r.clientOf i = (ps[i]?).map Placement.client := by
  rw [clientOf, h.getElem?_nodes, Option.map_map]
  rfl

/-- A call is reached if none of the calls that it is below is synthetic. -/
theorem isReached_iff (h : Arranged r clients ps) :
    isReached ps i = true ↔ ∀ p, TransGen r.IsChild p i → ¬ r.IsSynthetic p := by
  rw [isReached, Bool.not_eq_true', List.any_eq_false]
  refine forall_congr' fun p => ?_
  rw [h.placed.mem_ancestors, h.isSynthetic_iff, h.isChild_eq, ← transGen_swap]

theorem clientOf_below (h : Arranged r clients ps) (leads : ReflTransGen r.IsChild i j) :
    r.clientOf j = r.clientOf i := by
  induction leads with
  | refl => rfl
  | @tail q c _ child ih =>
    obtain ⟨p, hp, hparent⟩ := Option.bind_eq_some_iff.mp (h.isChild_iff.mp child)
    rw [← ih, h.clientOf_eq, h.clientOf_eq, hp, (h.placed.parent c p hp q hparent).2]
    rfl

theorem siblings_branch (h : Arranged r clients ps) (hij : r.Siblings i j) :
    Branch (position ps i) (position ps j) := by
  obtain ⟨hlt, ⟨c, hc, hi, hj⟩ | ⟨node, hnode, hi, hj⟩⟩ := hij
  · obtain ⟨k, hk⟩ := Array.mem_iff_getElem?.mp hc
    rw [h.getElem?_clients, Option.map_eq_some_iff] at hk
    obtain ⟨client, -, rfl⟩ := hk
    obtain ⟨p, hp, hclient, hparent⟩ := mem_rootPlaces.mp (List.mem_toArray.mp hi)
    obtain ⟨q, hq, hclient', hparent'⟩ := mem_rootPlaces.mp (List.mem_toArray.mp hj)
    rw [position_root hp hparent, position_root hq hparent', hclient, hclient']
    exact ⟨[k], i, j, hlt, List.prefix_rfl, List.prefix_rfl⟩
  · obtain ⟨q, hq⟩ := Array.mem_iff_getElem?.mp hnode
    rw [h.placed.position_child (h.isChild_iff.mp ⟨node, hq, hi⟩),
      h.placed.position_child (h.isChild_iff.mp ⟨node, hq, hj⟩)]
    exact ⟨position ps q, i, j, hlt, List.prefix_rfl, List.prefix_rfl⟩

/-- Calls that come first have the smaller position. -/
theorem position_lt (h : Arranged r clients ps) (hij : r.Precedes i j) :
    position ps i < position ps j := by
  cases hij with
  | below leads =>
    rw [h.isChild_eq] at leads
    obtain ⟨c, child, leads⟩ := TransGen.head'_iff.mp leads
    exact h.placed.position_lt_child child leads
  | siblings hab hi hj =>
    rw [h.isChild_eq] at hi hj
    exact ((h.siblings_branch hab).extend (h.placed.position_prefix hi)
      (h.placed.position_prefix hj)).lt
  | clients hi hj hkl =>
    rw [h.clientOf_eq] at hi hj
    rw [position, position, hi, hj]
    exact List.cons_lt_cons_iff.mpr (.inl hkl)

theorem precedes_asymm (h : Arranged r clients ps) (hij : r.Precedes i j) : ¬ r.Precedes j i :=
  fun hji => List.lt_asymm (h.position_lt hij) (h.position_lt hji)

/-- Calls at which a traversal may start one after the other. -/
def Apart (r : Recording) (i j : Nat) : Prop :=
  r.Siblings i j ∨ ∃ k l, r.clientOf i = some k ∧ r.clientOf j = some l ∧ k < l

theorem childPlaces_apart (h : Arranged r clients ps) (q : Nat) :
    (childPlaces ps q).Pairwise (Apart r) := by
  refine (places_pairwise : (childPlaces ps q).Pairwise (· < ·)).imp_of_mem ?_
  intro i j hi hj hlt
  obtain ⟨node, hnode, hi⟩ := h.isChild_iff.mpr (mem_childPlaces.mp hi)
  obtain ⟨node', hnode', hj⟩ := h.isChild_iff.mpr (mem_childPlaces.mp hj)
  rw [hnode, Option.some_inj] at hnode'
  subst hnode'
  exact .inl ⟨hlt, .inr ⟨node, Array.mem_of_getElem? hnode, hi, hj⟩⟩

theorem topPlaces_apart (h : Arranged r clients ps) :
    (topPlaces clients ps).Pairwise (Apart r) := by
  rw [topPlaces, List.pairwise_flatMap]
  constructor
  · intro client hclient
    refine (places_pairwise :
      (rootPlaces ps (clients.idxOf client)).Pairwise (· < ·)).imp_of_mem ?_
    intro i j hi hj hlt
    have hentry : r.clients[clients.idxOf client]? =
        some ⟨client, (rootPlaces ps (clients.idxOf client)).toArray⟩ := by
      rw [h.getElem?_clients, List.getElem?_idxOf hclient]
      rfl
    exact .inl ⟨hlt, .inl ⟨_, Array.mem_of_getElem? hentry, List.mem_toArray.mpr hi,
      List.mem_toArray.mpr hj⟩⟩
  · rw [List.pairwise_iff_getElem]
    intro k l hk hl hlt i hi j hj
    obtain ⟨p, hp, hclient, -⟩ := mem_rootPlaces.mp hi
    obtain ⟨q, hq, hclient', -⟩ := mem_rootPlaces.mp hj
    rw [h.nodup.idxOf_getElem] at hclient hclient'
    refine .inr ⟨k, l, ?_, ?_, hlt⟩
    · rw [h.clientOf_eq, hp, Option.map_some, hclient]
    · rw [h.clientOf_eq, hq, Option.map_some, hclient']

theorem pairwise_precedes (h : Arranged r clients ps) {order : List Nat}
    (traversal : Traversal ps (topPlaces clients ps) order) : order.Pairwise r.Precedes := by
  have leads : ∀ {a b}, ReflTransGen (NormalChild ps) a b → ReflTransGen r.IsChild a b := by
    intro a b hab
    rw [h.isChild_eq]
    exact NormalChild.leads hab
  refine traversal.pairwise (S := Apart r) ?_ ?_ h.childPlaces_apart h.topPlaces_apart
  · intro i c j child hcj
    exact .below (TransGen.head' (h.isChild_iff.mpr child) (leads hcj))
  · rintro i j k l (hij | ⟨x, y, hi, hj, hlt⟩) hk hl
    · exact .siblings hij (leads hk) (leads hl)
    · refine .clients ?_ ?_ hlt
      · rw [h.clientOf_below (leads hk), hi]
      · rw [h.clientOf_below (leads hl), hj]

theorem pair_sublist {α : Type} {x y : α} {xs : List α} (hne : x ≠ y) (hx : x ∈ xs)
    (hy : y ∈ xs) : [x, y].Sublist xs ∨ [y, x].Sublist xs := by
  obtain ⟨front, rear, rfl⟩ := List.append_of_mem hx
  rcases List.mem_append.mp hy with hy | hy
  · right
    exact (List.singleton_sublist.mpr hy).append (List.singleton_sublist.mpr List.mem_cons_self)
  · left
    have hy : y ∈ rear := List.mem_of_ne_of_mem hne.symm hy
    exact ((List.singleton_sublist.mpr hy).cons_cons x).trans (List.sublist_append_right _ _)

/-- Of two calls that a traversal takes, it takes first the one that comes first. -/
theorem sublist_iff_precedes (h : Arranged r clients ps) {order : List Nat}
    (traversal : Traversal ps (topPlaces clients ps) order) (hi : i ∈ order) (hj : j ∈ order) :
    [i, j].Sublist order ↔ r.Precedes i j := by
  have ordered := h.pairwise_precedes traversal
  constructor
  · intro hsub
    exact List.pairwise_iff_forall_sublist.mp ordered hsub
  · intro hij
    have hne : i ≠ j := by
      rintro rfl
      exact h.precedes_asymm hij hij
    rcases pair_sublist hne hi hj with hsub | hsub
    · exact hsub
    · exact absurd (List.pairwise_iff_forall_sublist.mp ordered hsub) (h.precedes_asymm hij)

end Arranged
end Recording

end CallTrace
