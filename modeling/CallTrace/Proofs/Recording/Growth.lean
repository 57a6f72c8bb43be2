import Mathlib.Data.List.Nodup
import CallTrace.Proofs.Recording.Traversal

/-!
# Recordings as they grow

Modules, clients and calls are added one at a time, and a call that cannot be added changes
nothing.  Whatever is added, the recording stays laid out by placements
(`Arranged.add`), so its listings are those of a forest: every call is listed once, below an
earlier call of its client or at the top level of its client (`Arranged.isForest`).
-/

namespace CallTrace

/-- Something to be added to a recording. -/
inductive Addition where
  | module (m : Module)
  | client (client : Client)
  | call (client : Nat) (parent : Option Handle) (spec : CallSpec)
deriving DecidableEq, Repr

namespace Recording

/-- The recording after an addition.  A call that is refused leaves it as it was. -/
def add (r : Recording) : Addition → Recording
  | .module m => r.addModule m
  | .client client => (r.addClient client).2
  | .call client parent spec =>
    match r.addCall client parent spec with
    | .ok (_, r') => r'
    | .error _ => r

/-- The handle that an addition gives out. -/
def handed (r : Recording) : Addition → Option Handle
  | .call client parent spec =>
    match r.addCall client parent spec with
    | .ok (handle, _) => some handle
    | .error _ => none
  | _ => none

/-- The recording that some additions lead to. -/
def grown (additions : List Addition) : Recording :=
  additions.foldl add empty

theorem grown_append_cons (additions : List Addition) (addition : Addition)
    (more : List Addition) :
    grown (additions ++ addition :: more) = more.foldl add ((grown additions).add addition) :=
  List.foldl_append

/-- The handles that are given out on the way. -/
def handles (r : Recording) : List Addition → List Handle
  | [] => []
  | addition :: more => (r.handed addition).toList ++ (r.add addition).handles more

/-- The client is known, and the parent is a call of this client. -/
def Accepts (r : Recording) (client : Nat) (parent : Option Handle) : Prop :=
  client < r.clients.size ∧
    ∀ p, parent = some p → (r.nodes[p.index]?).map Node.client = some client

/-- Every call is listed once, at the top level of its client or below an earlier call of
    its client, and every listing is in ascending order. -/
structure IsForest (r : Recording) : Prop where
  clients_nodup : (r.clients.toList.map ClientRoots.client).Nodup
  listed_once : (r.clients.toList.flatMap (fun c => c.roots.toList) ++
    r.nodes.toList.flatMap fun n => n.children.toList).Perm (List.range r.nodes.size)
  roots_ascending : ∀ c ∈ r.clients, c.roots.toList.Pairwise (· < ·)
  children_ascending : ∀ n ∈ r.nodes, n.children.toList.Pairwise (· < ·)
  root : ∀ (k : Nat) c, r.clients[k]? = some c → ∀ i ∈ c.roots,
    (r.nodes[i]?).map Node.client = some k
  child : ∀ (p : Nat) n, r.nodes[p]? = some n → ∀ i ∈ n.children,
    p < i ∧ (r.nodes[i]?).map Node.client = some n.client

/-! ### What adding a call can do -/

/-- A call is added if it is accepted and refused for one of three reasons if it is not. -/
theorem addCall_cases (r : Recording) (client : Nat) (parent : Option Handle) (spec : CallSpec) :
    (r.Accepts client parent ∧ ∃ r', r.addCall client parent spec = .ok (⟨r.nodes.size⟩, r')) ∨
      ¬ r.Accepts client parent ∧
        (r.addCall client parent spec = .error (.unknownClient client) ∨
          ∃ p, parent = some p ∧
            (r.addCall client parent spec = .error (.unknownParent p) ∨
              r.addCall client parent spec = .error .parentOfOtherClient)) := by
  by_cases hclient : client < r.clients.size
  · cases parent with
    | none =>
      left
      refine ⟨⟨hclient, by simp⟩, ?_⟩
      simp only [addCall, if_pos hclient, link]
      exact ⟨_, rfl⟩
    | some p =>
      cases hnode : r.nodes[p.index]? with
      | none =>
        right
        refine ⟨fun accepts => ?_, .inr ⟨p, rfl, .inl ?_⟩⟩
        · have := accepts.2 p rfl
          simp [hnode] at this
        · simp only [addCall, if_pos hclient, link, hnode]
      | some node =>
        by_cases hsame : node.client = client
        · left
          refine ⟨⟨hclient, ?_⟩, ?_⟩
          · rintro _ ⟨⟩
            rw [hnode, Option.map_some, hsame]
          · simp only [addCall, if_pos hclient, link, hnode, if_pos hsame, Array.size_modify]
            exact ⟨_, rfl⟩
        · right
          refine ⟨fun accepts => ?_, .inr ⟨p, rfl, .inr ?_⟩⟩
          · have := accepts.2 p rfl
            rw [hnode, Option.map_some, Option.some_inj] at this
            exact hsame this
          · simp only [addCall, if_pos hclient, link, hnode, if_neg hsame]
  · right
    refine ⟨fun accepts => hclient accepts.1, .inl ?_⟩
    rw [addCall, if_neg hclient]

theorem exists_addCall_error {r : Recording} {client : Nat} {parent : Option Handle}
    (refuses : ¬ r.Accepts client parent) (spec : CallSpec) :
    ∃ misplaced, r.addCall client parent spec = .error misplaced := by
  rcases addCall_cases r client parent spec with ⟨accepts, -⟩ | ⟨-, hadd | ⟨p, -, hadd | hadd⟩⟩
  · exact absurd accepts refuses
  · exact ⟨_, hadd⟩
  · exact ⟨_, hadd⟩
  · exact ⟨_, hadd⟩

theorem exists_addCall_ok_iff (r : Recording) (client : Nat) (parent : Option Handle)
    (spec : CallSpec) :
    (∃ handle r', r.addCall client parent spec = .ok (handle, r')) ↔ r.Accepts client parent := by
  constructor
  · rintro ⟨handle, r', hadd⟩
    by_contra refuses
    obtain ⟨misplaced, refused⟩ := exists_addCall_error refuses spec
    rw [hadd] at refused
    cases refused
  · intro accepts
    rcases addCall_cases r client parent spec with ⟨-, r', hadd⟩ | ⟨refuses, -⟩
    · exact ⟨_, r', hadd⟩
    · exact absurd accepts refuses

/-- A call that is refused changes nothing, and no handle is given out. -/
theorem add_of_refuses {r : Recording} {client : Nat} {parent : Option Handle}
    (refuses : ¬ r.Accepts client parent) (spec : CallSpec) :
    r.add (.call client parent spec) = r ∧ r.handed (.call client parent spec) = none := by
  obtain ⟨misplaced, hadd⟩ := exists_addCall_error refuses spec
  rw [add, handed, hadd]
  exact ⟨rfl, rfl⟩

/-! ### What stays as it is -/

variable {r : Recording} {clients : List Client} {ps : List Placement}

namespace Arranged

theorem addClient (h : Arranged r clients ps) (client : Client) :
    (r.addClient client).1 = clients.idxOf client ∧
      Arranged (r.addClient client).2
        (if client ∈ clients then clients else clients ++ [client]) ps := by
  obtain ⟨modules, rfl⟩ := h.eq
  rw [addClient_arrangement h.placed]
  refine ⟨rfl, ⟨modules, rfl⟩, ?_, ?_⟩
  · by_cases hmem : client ∈ clients
    · rw [if_pos hmem]
      exact h.nodup
    · rw [if_neg hmem]
      exact List.concat_eq_append ▸ h.nodup.concat hmem
  · by_cases hmem : client ∈ clients
    · rw [if_pos hmem]
      exact h.placed
    · rw [if_neg hmem]
      exact h.placed.mono (by simp)

theorem addCall (h : Arranged r clients ps) {client : Nat} {parent : Option Handle}
    (accepts : r.Accepts client parent) (spec : CallSpec) :
    ∃ r', r.addCall client parent spec = .ok (⟨ps.length⟩, r') ∧
      Arranged r' clients (ps ++ [⟨client, parent.map Handle.index, spec⟩]) := by
  obtain ⟨hclient, hparent⟩ := accepts
  have hlt : client < clients.length := by
    rwa [← h.map_client, List.length_map, Array.length_toList]
  have hsame : ∀ q, parent.map Handle.index = some q →
      (ps[q]?).map Placement.client = some client := by
    intro q hq
    obtain ⟨p, rfl, rfl⟩ := Option.map_eq_some_iff.mp hq
    have := hparent p rfl
    rwa [h.getElem?_nodes, Option.map_map] at this
  obtain ⟨modules, rfl⟩ := h.eq
  have same : (parent.map Handle.index).map Handle.mk = parent := by
    cases parent <;> rfl
  have added : (arrangement modules clients ps).addCall client parent spec =
      .ok (⟨ps.length⟩,
        arrangement modules clients (ps ++ [⟨client, parent.map Handle.index, spec⟩])) := by
    rw [← addCall_arrangement h.placed hlt hsame, same]
  exact ⟨_, added, ⟨modules, rfl⟩, h.nodup, h.placed.append hlt hsame⟩

/-- An addition keeps the layout and the clients, and numbers a new call after those that
    are there. -/
theorem add (h : Arranged r clients ps) (addition : Addition) :
    ∃ clients' ps', Arranged (r.add addition) clients' ps' ∧ clients <+: clients' ∧
      (List.range ps.length).map Handle.mk ++ (r.handed addition).toList =
        (List.range ps'.length).map Handle.mk := by
  cases addition with
  | module m =>
    obtain ⟨modules, rfl⟩ := h.eq
    refine ⟨clients, ps, ⟨⟨modules ++ [m], ?_⟩, h.nodup, h.placed⟩, List.prefix_rfl, ?_⟩
    · exact addModule_arrangement m
    · exact List.append_nil _
  | client client =>
    refine ⟨_, ps, (h.addClient client).2, ?_, List.append_nil _⟩
    split
    · exact List.prefix_rfl
    · exact List.prefix_append _ _
  | call client parent spec =>
    by_cases accepts : r.Accepts client parent
    · obtain ⟨r', hadd, h'⟩ := h.addCall accepts spec
      refine ⟨clients, ps ++ [⟨client, parent.map Handle.index, spec⟩], ?_, List.prefix_rfl, ?_⟩
      · rw [Recording.add, hadd]
        exact h'
      · simp only [handed, hadd, Option.toList_some, List.length_append, List.length_singleton,
          List.range_succ, List.map_append, List.map_singleton]
    · obtain ⟨same, noHandle⟩ := add_of_refuses accepts spec
      refine ⟨clients, ps, ?_, List.prefix_rfl, ?_⟩
      · rwa [same]
      · rw [noHandle]
        exact List.append_nil _

theorem foldl_add (h : Arranged r clients ps) (additions : List Addition) :
    ∃ clients' ps', Arranged (additions.foldl Recording.add r) clients' ps' ∧
      clients <+: clients' ∧
      (List.range ps.length).map Handle.mk ++ r.handles additions =
        (List.range ps'.length).map Handle.mk := by
  induction additions generalizing r clients ps with
  | nil => exact ⟨clients, ps, h, List.prefix_rfl, List.append_nil _⟩
  | cons addition additions ih =>
    obtain ⟨clients', ps', h', hclients, hhandles⟩ := h.add addition
    obtain ⟨clients'', ps'', h'', hclients', hhandles'⟩ := ih h'
    refine ⟨clients'', ps'', h'', hclients.trans hclients', ?_⟩
    rw [handles, ← List.append_assoc, hhandles, hhandles']

theorem grown (additions : List Addition) :
    ∃ clients ps, Arranged (grown additions) clients ps ∧
      Recording.empty.handles additions = (List.range ps.length).map Handle.mk := by
  obtain ⟨clients, ps, h, -, hhandles⟩ := Arranged.empty.foldl_add additions
  exact ⟨clients, ps, h, hhandles⟩

/-- The index of a client denotes it whatever is added later. -/
theorem client_kept (h : Arranged r clients ps) (client : Client) (more : List Addition) :
    ((more.foldl Recording.add (r.addClient client).2).clients[(r.addClient client).1]?).map
      ClientRoots.client = some client := by
  obtain ⟨hindex, h'⟩ := h.addClient client
  obtain ⟨clients', ps', h'', hprefix, -⟩ := h'.foldl_add more
  have hget : (if client ∈ clients then clients else clients ++ [client])[
      clients.idxOf client]? = some client := by
    by_cases hmem : client ∈ clients
    · rw [if_pos hmem, List.getElem?_idxOf hmem]
    · rw [if_neg hmem, List.idxOf_eq_length hmem, List.getElem?_concat_length]
  obtain ⟨hlt, hclient⟩ := List.getElem?_eq_some_iff.mp hget
  have kept := List.prefix_iff_getElem?.mp hprefix _ hlt
  rw [hclient] at kept
  rw [hindex, h''.getElem?_clients, kept]
  rfl

/-! ### The forest -/

theorem flatMap_roots (h : Arranged r clients ps) :
    r.clients.toList.flatMap (fun c => c.roots.toList) =
      (List.range clients.length).flatMap (rootPlaces ps) := by
  obtain ⟨modules, rfl⟩ := h.eq
  have places : clients.zipIdx.map Prod.snd = List.range clients.length := by
    rw [List.zipIdx_map_snd, List.range_eq_range']
  rw [← places, arrangement, List.toList_toArray, List.flatMap_map, List.flatMap_map]

theorem flatMap_children (h : Arranged r clients ps) :
    r.nodes.toList.flatMap (fun n => n.children.toList) =
      (List.range ps.length).flatMap (childPlaces ps) := by
  obtain ⟨modules, rfl⟩ := h.eq
  have places : ps.zipIdx.map Prod.snd = List.range ps.length := by
    rw [List.zipIdx_map_snd, List.range_eq_range']
  rw [← places, arrangement, List.toList_toArray, List.flatMap_map, List.flatMap_map]

/-- Every call is listed once: at the top level if it has no parent, else below its parent. -/
theorem listed_once (h : Arranged r clients ps) :
    (r.clients.toList.flatMap (fun c => c.roots.toList) ++
      r.nodes.toList.flatMap fun n => n.children.toList).Perm (List.range r.nodes.size) := by
  have top : ((List.range clients.length).flatMap (rootPlaces ps)).Nodup := by
    refine List.nodup_flatMap.mpr ⟨fun k _ => nodup_places, ?_⟩
    refine List.nodup_range.imp ?_
    intro k l hne i hk hl
    obtain ⟨p, hp, hclient, -⟩ := mem_rootPlaces.mp hk
    obtain ⟨q, hq, hclient', -⟩ := mem_rootPlaces.mp hl
    rw [hp, Option.some_inj] at hq
    exact hne (hclient.symm.trans (hq ▸ hclient'))
  have below : ((List.range ps.length).flatMap (childPlaces ps)).Nodup := by
    refine List.nodup_flatMap.mpr ⟨fun k _ => nodup_places, ?_⟩
    refine List.nodup_range.imp ?_
    intro p q hne i hp hq
    rw [mem_childPlaces] at hp hq
    exact hne (Option.some_inj.mp (hp.symm.trans hq))
  rw [h.flatMap_roots, h.flatMap_children, h.size_nodes,
    List.perm_ext_iff_of_nodup _ List.nodup_range]
  · intro i
    simp only [List.mem_append, List.mem_flatMap, List.mem_range]
    constructor
    · rintro (⟨k, -, hi⟩ | ⟨p, -, hi⟩)
      · exact places_lt_length hi
      · exact places_lt_length hi
    · intro hi
      have hp := List.getElem?_eq_getElem hi
      cases hparent : ps[i].parent with
      | none =>
        left
        exact ⟨_, h.placed.client_lt _ (List.getElem_mem hi),
          mem_rootPlaces.mpr ⟨_, hp, rfl, hparent⟩⟩
      | some q =>
        right
        refine ⟨q, Nat.lt_trans (h.placed.parent i _ hp q hparent).1 hi, ?_⟩
        rw [mem_childPlaces, parentAt, hp]
        exact hparent
  · refine List.nodup_append'.mpr ⟨top, below, ?_⟩
    intro i htop hbelow
    obtain ⟨k, -, hroot⟩ := List.mem_flatMap.mp htop
    obtain ⟨q, -, hchild⟩ := List.mem_flatMap.mp hbelow
    obtain ⟨p, hp, -, hparent⟩ := mem_rootPlaces.mp hroot
    rw [mem_childPlaces, parentAt, hp, Option.bind_some, hparent] at hchild
    cases hchild

theorem isForest (h : Arranged r clients ps) : r.IsForest where
  clients_nodup := by
    rw [h.map_client]
    exact h.nodup
  listed_once := h.listed_once
  roots_ascending := by
    intro c hc
    obtain ⟨k, hk⟩ := Array.mem_iff_getElem?.mp hc
    rw [h.getElem?_clients, Option.map_eq_some_iff] at hk
    obtain ⟨client, -, rfl⟩ := hk
    exact (places_pairwise : (rootPlaces ps k).Pairwise (· < ·))
  children_ascending := by
    intro n hn
    obtain ⟨i, hi⟩ := Array.mem_iff_getElem?.mp hn
    rw [h.getElem?_nodes, Option.map_eq_some_iff] at hi
    obtain ⟨p, -, rfl⟩ := hi
    exact (places_pairwise : (childPlaces ps i).Pairwise (· < ·))
  root := by
    intro k c hc i hi
    rw [h.getElem?_clients, Option.map_eq_some_iff] at hc
    obtain ⟨client, -, rfl⟩ := hc
    obtain ⟨p, hp, hclient, -⟩ := mem_rootPlaces.mp (List.mem_toArray.mp hi)
    rw [h.getElem?_nodes, hp, Option.map_some, Option.map_some, hclient]
  child := by
    intro q n hn i hi
    rw [h.getElem?_nodes, Option.map_eq_some_iff] at hn
    obtain ⟨parent, hq, rfl⟩ := hn
    obtain ⟨p, hp, hparent⟩ := Option.bind_eq_some_iff.mp
      (mem_childPlaces.mp (List.mem_toArray.mp hi))
    obtain ⟨hlt, hsame⟩ := h.placed.parent i p hp q hparent
    rw [hq, Option.map_some, Option.some_inj] at hsame
    refine ⟨hlt, ?_⟩
    rw [h.getElem?_nodes, hp, Option.map_some, Option.map_some, hsame]

end Arranged

/-- Whatever is added, the listings are those of a forest, the handles given out number the
    calls, a client keeps its index, and calls are added exactly where they are accepted. -/
theorem isForest_grown (additions : List Addition) :
    (grown additions).IsForest ∧
      empty.handles additions = (List.range (grown additions).nodes.size).map Handle.mk ∧
      (∀ client more,
        ((grown (additions ++ .client client :: more)).clients[
            ((grown additions).addClient client).1]?).map ClientRoots.client = some client) ∧
      ∀ client parent spec,
        ((∃ handle r, (grown additions).addCall client parent spec = .ok (handle, r)) ↔
            (grown additions).Accepts client parent) ∧
          ((grown additions).Accepts client parent ∨
            grown (additions ++ [.call client parent spec]) = grown additions) := by
  obtain ⟨clients, ps, h, hhandles⟩ := Arranged.grown additions
  refine ⟨h.isForest, ?_, ?_, ?_⟩
  · rw [hhandles, h.size_nodes]
  · intro client more
    rw [grown_append_cons]
    exact h.client_kept client more
  · intro client parent spec
    refine ⟨exists_addCall_ok_iff _ client parent spec, ?_⟩
    by_cases accepts : (grown additions).Accepts client parent
    · exact .inl accepts
    · right
      rw [grown_append_cons]
      exact (add_of_refuses accepts spec).1

end Recording

end CallTrace
