import Mathlib.Data.List.Perm.Subperm
import CallTrace.Proofs.Recording.Precedence
import CallTrace.Proofs.Walk.Draining
import CallTrace.Proofs.Walk.Placed

/-!
# Walks over recordings

However a recording has grown, if every call names a module of it, a walk over all clients
delivers the calls that are not below a synthetic one, each once and in pre-order
(`exists_walk_grown`).
-/

namespace CallTrace

open Relation

namespace Recording

/-- Every call names a module of the recording. -/
def Registered (r : Recording) : Prop :=
  ∀ node ∈ r.nodes, node.spec.moduleName ∈ r.modules.toList.map Module.name

instance (r : Recording) : Decidable r.Registered :=
  inferInstanceAs (Decidable (∀ node ∈ r.nodes, _))

/-- The calls that are not below a synthetic call, each once, a call before those that it
    precedes. -/
structure Preorder (r : Recording) (order : List Nat) : Prop where
  nodup : order.Nodup
  mem : ∀ i, i ∈ order ↔ i < r.callCount ∧ ∀ p, TransGen r.IsChild p i → ¬ r.IsSynthetic p
  sublist : ∀ i ∈ order, ∀ j ∈ order, ([i, j].Sublist order ↔ r.Precedes i j)

variable {r : Recording} {clients : List Client} {ps : List Placement} {order : List Nat}

theorem Arranged.exists_preorder (h : Arranged r clients ps) :
    ∃ order, Traversal ps (topPlaces clients ps) order ∧ r.Preorder order := by
  obtain ⟨order, traversal, ordered, hmem⟩ := exists_traversal_top h.nodup h.placed
  refine ⟨order, traversal, ?_, ?_, ?_⟩
  · refine ordered.imp ?_
    rintro i j hlt rfl
    exact List.lt_irrefl _ hlt
  · intro i
    rw [hmem, h.isReached_iff, callCount, h.size_nodes]
  · intro i hi j hj
    exact h.sublist_iff_precedes traversal hi hj

/-- A pre-order takes all calls unless a synthetic call has a child. -/
theorem Preorder.length_eq_iff (h : r.Preorder order) (forest : r.IsForest) :
    order.length ≤ r.callCount ∧
      (order.length = r.callCount ↔ ∀ p i, r.IsChild p i → ¬ r.IsSynthetic p) := by
  have inside : order ⊆ List.range r.callCount := by
    intro i hi
    exact List.mem_range.mpr ((h.mem i).mp hi).1
  have subperm := List.subperm_of_subset h.nodup inside
  have hle : order.length ≤ r.callCount := by
    simpa using subperm.length_le
  refine ⟨hle, ?_⟩
  constructor
  · intro hlength p i child synthetic
    have hperm := subperm.perm_of_length_le (by simp [hlength])
    obtain ⟨node, hnode, hi⟩ := child
    have hi : i < r.callCount := by
      obtain ⟨-, hclient⟩ := forest.child p node hnode i hi
      obtain ⟨child, hchild, -⟩ := Option.map_eq_some_iff.mp hclient
      exact (Array.getElem?_eq_some_iff.mp hchild).1
    have reached := ((h.mem i).mp (hperm.mem_iff.mpr (List.mem_range.mpr hi))).2
    exact reached p (.single ⟨node, hnode, ‹_›⟩) synthetic
  · intro leaves
    refine Nat.le_antisymm hle ?_
    have all : List.range r.callCount ⊆ order := by
      intro i hi
      refine (h.mem i).mpr ⟨List.mem_range.mp hi, ?_⟩
      intro p below
      obtain ⟨c, child, -⟩ := TransGen.head'_iff.mp below
      exact leaves p c child
    simpa using (List.subperm_of_subset List.nodup_range all).length_le

/-- The walk over all clients of a recording in which every call names a module delivers the
    calls in pre-order, without an error.  It visits all of them unless a synthetic call has a
    child. -/
theorem exists_walk_grown (additions : List Addition) (registered : (grown additions).Registered)
    {σ : Type} (store : StoreId) (s : σ) :
    ∃ calls w s', Walk.ofClients (grown additions).reader s = (.ok w, s') ∧
      w.Delivers (grown additions).reader store s' ⟨calls, none⟩ ∧
      (grown additions).Preorder (calls.map (·.handle.index)) ∧
      (w.drain (grown additions).reader store s').2.1.visited = calls.length ∧
      calls.length ≤ (grown additions).callCount ∧
      (calls.length = (grown additions).callCount ↔
        ∀ p i, (grown additions).IsChild p i → ¬ (grown additions).IsSynthetic p) := by
  obtain ⟨clients, ps, h, -⟩ := Arranged.grown additions
  obtain ⟨order, traversal, preorder⟩ := h.exists_preorder
  have walked : (grown additions).answers.walkClients store (clients.map .ok) =
      some (.upTo store (order.map (grown additions).recordAt)) := h.fits.walkClients_eq traversal
  have delivered : (Delivery.upTo store (order.map (grown additions).recordAt)).failure = none ∧
      (Delivery.upTo store (order.map (grown additions).recordAt)).calls.map (·.handle.index) =
        order.map id := by
    apply Delivery.upTo_readable
    intro i hi
    have hlt : i < (grown additions).nodes.size := ((preorder.mem i).mp hi).1
    obtain ⟨record, hrecord⟩ := recordAt_of_listed (Array.getElem?_eq_getElem hlt)
      (registered _ (Array.getElem_mem hlt))
    obtain ⟨-, -, hhandle, -⟩ := recordAt_eq_ok hrecord
    refine ⟨record, hrecord, ?_⟩
    rw [Call.ofRecord, hhandle]
    rfl
  generalize Delivery.upTo store (order.map (grown additions).recordAt) = d at walked delivered
  obtain ⟨calls, _⟩ := d
  obtain ⟨rfl, handles⟩ := delivered
  have order_eq : calls.map (·.handle.index) = order := by
    rw [handles, List.map_id]
  obtain ⟨w, s', started, visited, delivers⟩ :=
    exists_ofClients_delivers (grown additions).reader_gives h.fits.clients walked s
  have length_eq : calls.length = order.length := by
    rw [← order_eq, List.length_map]
  refine ⟨calls, w, s', started, delivers, ?_, ?_, ?_⟩
  · rw [order_eq]
    exact preorder
  · rw [(drain_delivers delivers).2, visited, Nat.zero_add]
  · rw [length_eq]
    exact preorder.length_eq_iff h.isForest

/-- Two clients whose calls are added in turns, a call below a synthetic one, and a call that
    is refused because its parent belongs to the other client. -/
def interleaved : List Addition :=
  [.client ⟨4, 8⟩, .client ⟨4, 12⟩,
    .call 0 none { functionName := "NtCreateFile", moduleName := "nt" },
    .call 1 none { functionName := "NtClose", moduleName := "nt" },
    .call 1 (some ⟨0⟩) { functionName := "misplaced", moduleName := "nt" },
    .call 0 (some ⟨0⟩) { functionName := "stub", moduleName := "nt", entry := .synthetic },
    .call 0 (some ⟨2⟩) { functionName := "hidden", moduleName := "nt" },
    .call 0 none { functionName := "NtClose", moduleName := "nt" },
    .module { name := "nt" }]

/-- The call below the synthetic one is not visited. -/
theorem exists_walk_grown_interleaved :
    (grown interleaved).Registered ∧ (grown interleaved).callCount = 5 ∧
      ∃ calls w s', Walk.ofClients (grown interleaved).reader () = (.ok w, s') ∧
        w.Delivers (grown interleaved).reader 7 s' ⟨calls, none⟩ ∧
        3 ∉ calls.map (·.handle.index) ∧
        (w.drain (grown interleaved).reader 7 s').2.1.visited < 5 := by
  have registered : (grown interleaved).Registered := by decide +kernel
  have count : (grown interleaved).callCount = 5 := by decide +kernel
  have stub : ∃ node, (grown interleaved).nodes[2]? = some node ∧
      node.spec.entry = .synthetic ∧ 3 ∈ node.children :=
    ⟨⟨{ functionName := "stub", moduleName := "nt", entry := .synthetic }, 0, #[3]⟩,
      by decide +kernel⟩
  obtain ⟨calls, w, s', started, delivers, preorder, visited, hle, hall⟩ :=
    exists_walk_grown interleaved registered 7 ()
  obtain ⟨node, hnode, hentry, hchild⟩ := stub
  have child : (grown interleaved).IsChild 2 3 := ⟨node, hnode, hchild⟩
  have synthetic : (grown interleaved).IsSynthetic 2 := ⟨node, hnode, hentry⟩
  refine ⟨registered, count, calls, w, s', started, delivers, ?_, ?_⟩
  · intro hmem
    exact ((preorder.mem 3).mp hmem).2 2 (.single child) synthetic
  · have missed : calls.length ≠ (grown interleaved).callCount :=
      fun heq => hall.mp heq 2 3 child synthetic
    rw [visited]
    omega

end Recording

end CallTrace
