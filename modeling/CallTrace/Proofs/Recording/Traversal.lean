import CallTrace.Proofs.Recording.Lineage

/-!
# Traversals of placed calls

A traversal takes some calls in turn, each followed by a traversal of its children if it is
normal.  What it takes are the calls to which those at its start lead
(`Traversal.mem_iff`), and it takes them in the order of their positions
(`Traversal.ordered`).  A traversal that starts at the top-level calls of all clients takes
the calls that are reached, each once (`exists_traversal_top`).
-/

namespace CallTrace

open Relation

/-- A traversal that starts at some calls takes the calls in this order. -/
inductive Traversal (ps : List Placement) : List Nat → List Nat → Prop where
  | nil : Traversal ps [] []
  | synthetic {i : Nat} {is later : List Nat} (entry : isSyntheticAt ps i = true)
      (after : Traversal ps is later) : Traversal ps (i :: is) (i :: later)
  | normal {i : Nat} {is inside later : List Nat} (entry : isSyntheticAt ps i = false)
      (below : Traversal ps (childPlaces ps i) inside) (after : Traversal ps is later) :
      Traversal ps (i :: is) (i :: (inside ++ later))

/-- The top-level calls of the clients, one client after the other. -/
def topPlaces (clients : List Client) (ps : List Placement) : List Nat :=
  clients.flatMap fun client => rootPlaces ps (clients.idxOf client)

variable {n : Nat} {ps : List Placement} {is order : List Nat}

/-! ### Children and top-level calls -/

theorem mem_childPlaces {q i : Nat} : i ∈ childPlaces ps q ↔ parentAt ps i = some q := by
  rw [childPlaces, mem_places, parentAt, Option.bind_eq_some_iff]
  simp only [beq_iff_eq]

theorem mem_rootPlaces {k i : Nat} :
    i ∈ rootPlaces ps k ↔ ∃ p, ps[i]? = some p ∧ p.client = k ∧ p.parent = none := by
  rw [rootPlaces, mem_places]
  simp only [Bool.and_eq_true, beq_iff_eq]

theorem mem_topPlaces {clients : List Client} (distinct : clients.Nodup)
    (well : WellPlaced clients.length ps) {i : Nat} :
    i ∈ topPlaces clients ps ↔ i < ps.length ∧ parentAt ps i = none := by
  simp only [topPlaces, List.mem_flatMap, mem_rootPlaces]
  constructor
  · rintro ⟨client, -, p, hp, -, hparent⟩
    refine ⟨(List.getElem?_eq_some_iff.mp hp).1, ?_⟩
    rw [parentAt, hp]
    exact hparent
  · rintro ⟨hi, hparent⟩
    have hclient := well.client_lt ps[i] (List.getElem_mem hi)
    refine ⟨clients[ps[i].client], List.getElem_mem hclient, ps[i],
      List.getElem?_eq_getElem hi, (distinct.idxOf_getElem _ hclient).symm, ?_⟩
    rw [parentAt, List.getElem?_eq_getElem hi] at hparent
    exact hparent

theorem WellPlaced.childPlaces_branch (well : WellPlaced n ps) (q : Nat) :
    (childPlaces ps q).Pairwise fun i j => Branch (position ps i) (position ps j) := by
  have ascending : (childPlaces ps q).Pairwise (· < ·) := places_pairwise
  refine ascending.imp_of_mem ?_
  intro i j hi hj hlt
  have hpi := well.position_child (mem_childPlaces.mp hi)
  have hpj := well.position_child (mem_childPlaces.mp hj)
  exact ⟨position ps q, i, j, hlt, hpi ▸ List.prefix_rfl, hpj ▸ List.prefix_rfl⟩

theorem topPlaces_branch {clients : List Client} (distinct : clients.Nodup) :
    (topPlaces clients ps).Pairwise fun i j => Branch (position ps i) (position ps j) := by
  rw [topPlaces, List.pairwise_flatMap]
  constructor
  · intro client _
    have ascending : (rootPlaces ps (clients.idxOf client)).Pairwise (· < ·) := places_pairwise
    refine ascending.imp_of_mem ?_
    intro i j hi hj hlt
    obtain ⟨p, hp, hclient, hparent⟩ := mem_rootPlaces.mp hi
    obtain ⟨q, hq, hclient', hparent'⟩ := mem_rootPlaces.mp hj
    rw [position_root hp hparent, position_root hq hparent', hclient, hclient']
    exact ⟨[clients.idxOf client], i, j, hlt, List.prefix_rfl, List.prefix_rfl⟩
  · rw [List.pairwise_iff_getElem]
    intro k l hk hl hlt i hi j hj
    obtain ⟨p, hp, hclient, hparent⟩ := mem_rootPlaces.mp hi
    obtain ⟨q, hq, hclient', hparent'⟩ := mem_rootPlaces.mp hj
    rw [distinct.idxOf_getElem] at hclient hclient'
    rw [position_root hp hparent, position_root hq hparent', hclient, hclient']
    exact ⟨[], k, l, hlt, List.prefix_append [k] [i], List.prefix_append [l] [j]⟩

/-! ### Every traversal comes to an end -/

theorem exists_traversal_of_children
    (below : ∀ i ∈ is, ∃ inside, Traversal ps (childPlaces ps i) inside) :
    ∃ order, Traversal ps is order := by
  induction is with
  | nil => exact ⟨[], .nil⟩
  | cons i is ih =>
    obtain ⟨later, after⟩ := ih fun j hj => below j (List.mem_cons_of_mem i hj)
    cases entry : isSyntheticAt ps i with
    | true => exact ⟨_, .synthetic entry after⟩
    | false =>
      obtain ⟨inside, hinside⟩ := below i List.mem_cons_self
      exact ⟨_, .normal entry hinside after⟩

/-- Children stand after their parents, so the calls below a call run out. -/
theorem WellPlaced.exists_traversal_children (well : WellPlaced n ps) (i : Nat) :
    ∃ inside, Traversal ps (childPlaces ps i) inside := by
  generalize hleft : ps.length - i = left
  induction left using Nat.strongRecOn generalizing i with
  | ind left ih =>
    apply exists_traversal_of_children
    intro c hc
    have hlt := well.parentAt_lt (mem_childPlaces.mp hc)
    have hlength := places_lt_length hc
    exact ih (ps.length - c) (by omega) c rfl

/-! ### What is taken, and in which order -/

theorem Traversal.mem_iff (h : Traversal ps is order) {j : Nat} :
    j ∈ order ↔ ∃ i ∈ is, ReflTransGen (NormalChild ps) i j := by
  induction h with
  | nil => simp
  | @synthetic i is later entry _ ih =>
    have alone : ReflTransGen (NormalChild ps) i j ↔ j = i := by
      constructor
      · intro leads
        rcases leads.cases_head with rfl | ⟨c, child, -⟩
        · rfl
        · rw [child.2] at entry
          cases entry
      · rintro rfl
        exact .refl
    simp only [List.mem_cons, exists_eq_or_imp, ih, alone]
  | @normal i is inside later entry _ _ ihBelow ihAfter =>
    have first : ReflTransGen (NormalChild ps) i j ↔ j = i ∨ j ∈ inside := by
      rw [ihBelow, ReflTransGen.cases_head_iff, eq_comm]
      simp only [mem_childPlaces, NormalChild, entry, and_true]
    simp only [List.mem_cons, List.mem_append, exists_eq_or_imp, ihAfter, first, or_assoc]

/-- What holds between a call and those below it, and between all that is below siblings, holds
    between the calls of a traversal in the order in which it takes them. -/
theorem Traversal.pairwise {R S : Nat → Nat → Prop} (h : Traversal ps is order)
    (down : ∀ {i c j}, parentAt ps c = some i → ReflTransGen (NormalChild ps) c j → R i j)
    (across : ∀ {i j k l}, S i j → ReflTransGen (NormalChild ps) i k →
      ReflTransGen (NormalChild ps) j l → R k l)
    (children : ∀ q, (childPlaces ps q).Pairwise S) (start : is.Pairwise S) :
    order.Pairwise R := by
  induction h with
  | nil => exact List.Pairwise.nil
  | @synthetic i is later _ after ih =>
    obtain ⟨hfirst, hrest⟩ := List.pairwise_cons.mp start
    refine List.Pairwise.cons ?_ (ih hrest)
    intro j hj
    obtain ⟨m, hm, leads⟩ := after.mem_iff.mp hj
    exact across (hfirst m hm) .refl leads
  | @normal i is inside later entry below after ihBelow ihAfter =>
    obtain ⟨hfirst, hrest⟩ := List.pairwise_cons.mp start
    refine List.Pairwise.cons ?_ (List.pairwise_append.mpr
      ⟨ihBelow (children i), ihAfter hrest, ?_⟩)
    · intro j hj
      rcases List.mem_append.mp hj with hj | hj
      · obtain ⟨c, hc, leads⟩ := below.mem_iff.mp hj
        exact down (mem_childPlaces.mp hc) leads
      · obtain ⟨m, hm, leads⟩ := after.mem_iff.mp hj
        exact across (hfirst m hm) .refl leads
    · intro k hk j hj
      obtain ⟨c, hc, inner⟩ := below.mem_iff.mp hk
      obtain ⟨m, hm, leads⟩ := after.mem_iff.mp hj
      exact across (hfirst m hm) (inner.head ⟨mem_childPlaces.mp hc, entry⟩) leads

theorem Traversal.ordered (well : WellPlaced n ps) (h : Traversal ps is order)
    (branch : is.Pairwise fun i j => Branch (position ps i) (position ps j)) :
    order.Pairwise fun i j => position ps i < position ps j := by
  refine h.pairwise ?_ ?_ well.childPlaces_branch branch
  · intro i c j child leads
    exact well.position_lt_child child (NormalChild.leads leads)
  · intro i j k l apart hk hl
    exact (apart.extend (well.position_prefix (NormalChild.leads hk))
      (well.position_prefix (NormalChild.leads hl))).lt

/-- A traversal from the top takes the calls that are reached, in the order of their
    positions. -/
theorem exists_traversal_top {clients : List Client} (distinct : clients.Nodup)
    (well : WellPlaced clients.length ps) :
    ∃ order, Traversal ps (topPlaces clients ps) order ∧
      (order.Pairwise fun i j => position ps i < position ps j) ∧
      ∀ i, i ∈ order ↔ i < ps.length ∧ isReached ps i = true := by
  have ends : ∃ order, Traversal ps (topPlaces clients ps) order :=
    exists_traversal_of_children fun i _ => well.exists_traversal_children i
  obtain ⟨order, h⟩ := ends
  refine ⟨order, h, h.ordered well (topPlaces_branch distinct), ?_⟩
  intro i
  rw [h.mem_iff]
  constructor
  · rintro ⟨root, hroot, leads⟩
    obtain ⟨hlt, htop⟩ := (mem_topPlaces distinct well).mp hroot
    have hi : i < ps.length := by
      rcases leads.cases_tail with rfl | ⟨q, -, child, -⟩
      · exact hlt
      · exact places_lt_length (mem_childPlaces.mpr child)
    exact ⟨hi, (well.isReached_iff hi).mpr ⟨root, hlt, htop, leads⟩⟩
  · rintro ⟨hi, hreached⟩
    obtain ⟨root, hlt, htop, leads⟩ := (well.isReached_iff hi).mp hreached
    exact ⟨root, (mem_topPlaces distinct well).mpr ⟨hlt, htop⟩, leads⟩

end CallTrace
