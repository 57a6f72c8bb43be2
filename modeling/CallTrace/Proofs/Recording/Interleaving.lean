import Mathlib.Data.List.Induction
import Mathlib.Data.List.Sort
import Mathlib.Logic.Equiv.Defs
import CallTrace.Proofs.Recording.Precedence

/-!
# Clients whose calls are recorded in turns

A handle numbers a call over all clients, so it depends on how the calls of the clients were
mixed when they were recorded.  Nothing else does.  Two sequences of additions are interleavings
of each other if they have the same modules and clients and, client by client, the same calls;
a parent is then known by its number among the calls of its client.  The recordings that they
build differ by a renumbering of the calls that keeps the client and, within a client, the order
(`Interleaved.exists_renumbered`): the call that was the n-th of its client in one of them is
the n-th of this client in the other.

What the additions lead to is a layout (`build_eq_arrangement`), and the renumbering is that of
its placements.
-/

namespace CallTrace

namespace Recording

/-- One addition; it fails if a call cannot be added. -/
def tryAdd (r : Recording) : Addition → Except Misplaced Recording
  | .module m => .ok (r.addModule m)
  | .client client => .ok (r.addClient client).2
  | .call client parent spec => (r.addCall client parent spec).map Prod.snd

/-- The recording to which some additions lead, if none of them fails. -/
def build (additions : List Addition) : Except Misplaced Recording :=
  additions.foldlM tryAdd empty

end Recording

/-! ### What is added -/

def Addition.module? : Addition → Option Module
  | .module m => some m
  | _ => none

def Addition.client? : Addition → Option Client
  | .client c => some c
  | _ => none

def Addition.placement? : Addition → Option Placement
  | .call k parent spec => some ⟨k, parent.map Handle.index, spec⟩
  | _ => none

def modulesAdded (additions : List Addition) : List Module :=
  additions.filterMap Addition.module?

/-- The clients in order of first appearance. -/
def clientsAdded (additions : List Addition) : List Client :=
  (additions.filterMap Addition.client?).eraseDups

def callsAdded (additions : List Addition) : List Placement :=
  additions.filterMap Addition.placement?

/-- The handles of the calls of a client. -/
def clientPlaces (ps : List Placement) (k : Nat) : List Nat :=
  places (fun p : Placement => p.client == k) ps

/-- The calls of a client, each with the number that its parent has among them. -/
def lineup (ps : List Placement) (k : Nat) : List (Option Nat × CallSpec) :=
  (ps.filter fun p => p.client == k).map fun p =>
    (p.parent.map fun q => (clientPlaces ps k).idxOf q, p.spec)

/-- The same modules and clients are added in the same order, and for each client the same
    calls. -/
structure Interleaved (xs ys : List Addition) : Prop where
  modules : modulesAdded ys = modulesAdded xs
  clients : clientsAdded ys = clientsAdded xs
  calls : ∀ k, lineup (callsAdded ys) k = lineup (callsAdded xs) k

section Added

variable (additions : List Addition)

theorem modulesAdded_append_singleton (addition : Addition) :
    modulesAdded (additions ++ [addition]) =
      modulesAdded additions ++ addition.module?.toList := by
  rw [modulesAdded, List.filterMap_append]
  cases addition <;> rfl

theorem callsAdded_append_singleton (addition : Addition) :
    callsAdded (additions ++ [addition]) =
      callsAdded additions ++ addition.placement?.toList := by
  rw [callsAdded, List.filterMap_append]
  cases addition <;> rfl

theorem callsAdded_append_of_none {addition : Addition} (h : addition.placement? = none) :
    callsAdded (additions ++ [addition]) = callsAdded additions := by
  rw [callsAdded_append_singleton, h]
  exact List.append_nil _

theorem clientsAdded_append_client (client : Client) :
    clientsAdded (additions ++ [.client client]) =
      if client ∈ clientsAdded additions then clientsAdded additions
      else clientsAdded additions ++ [client] := by
  have last : [Addition.client client].filterMap Addition.client? = [client] := rfl
  rw [clientsAdded, List.filterMap_append, last]
  exact eraseDups_append_singleton _ _

theorem clientsAdded_append_of_none {addition : Addition} (h : addition.client? = none) :
    clientsAdded (additions ++ [addition]) = clientsAdded additions := by
  rw [clientsAdded, List.filterMap_append, List.filterMap_cons_none h, List.filterMap_nil,
    List.append_nil]
  rfl

end Added

namespace Recording

variable {additions : List Addition} {r : Recording}

theorem modules_addCall {k : Nat} {parent : Option Handle} {spec : CallSpec} {handle : Handle}
    {r' : Recording} (h : r.addCall k parent spec = .ok (handle, r')) :
    r'.modules = r.modules := by
  rw [addCall] at h
  split at h
  · cases parent with
    | none =>
      cases h
      rfl
    | some p =>
      simp only [link] at h
      cases hnode : r.nodes[p.index]? with
      | none =>
        rw [hnode] at h
        cases h
      | some node =>
        by_cases same : node.client = k
        · simp only [hnode, if_pos same] at h
          cases h
          rfl
        · simp only [hnode, if_neg same] at h
          cases h
  · cases h

theorem modules_addClient (r : Recording) (client : Client) :
    (r.addClient client).2.modules = r.modules := by
  rw [addClient]
  split <;> rfl

/-- What was added determines what is built. -/
structure BuiltFrom (additions : List Addition) (r : Recording) : Prop where
  arranged : Arranged r (clientsAdded additions) (callsAdded additions)
  modules : r.modules.toList = modulesAdded additions

theorem BuiltFrom.tryAdd {addition : Addition} {r' : Recording} (built : BuiltFrom additions r)
    (h : r.tryAdd addition = .ok r') : BuiltFrom (additions ++ [addition]) r' := by
  rcases built with ⟨arranged, modules⟩
  cases addition with
  | module m =>
    cases h
    constructor
    · obtain ⟨ms, eq⟩ := arranged.eq
      rw [clientsAdded_append_of_none additions rfl, callsAdded_append_of_none additions rfl]
      refine ⟨⟨ms ++ [m], ?_⟩, arranged.nodup, arranged.placed⟩
      rw [eq, addModule_arrangement]
    · rw [modulesAdded_append_singleton, ← modules]
      exact Array.toList_push
  | client c =>
    cases h
    constructor
    · rw [clientsAdded_append_client, callsAdded_append_of_none additions rfl]
      exact (arranged.addClient c).2
    · rw [modulesAdded_append_singleton, modules_addClient, modules]
      exact (List.append_nil _).symm
  | call k parent spec =>
    rw [Recording.tryAdd] at h
    cases hadd : r.addCall k parent spec with
    | error misplaced =>
      rw [hadd] at h
      cases h
    | ok added =>
      rw [hadd] at h
      cases h
      have accepts := (exists_addCall_ok_iff r k parent spec).mp ⟨added.1, added.2, hadd⟩
      obtain ⟨r', hadd', arranged'⟩ := arranged.addCall accepts spec
      rw [hadd] at hadd'
      cases hadd'
      constructor
      · rw [clientsAdded_append_of_none additions rfl, callsAdded_append_singleton]
        exact arranged'
      · rw [modulesAdded_append_singleton, modules_addCall hadd, modules]
        exact (List.append_nil _).symm

theorem builtFrom_of_build (h : build additions = .ok r) : BuiltFrom additions r := by
  induction additions using List.reverseRecOn generalizing r with
  | nil =>
    cases h
    exact ⟨.empty, rfl⟩
  | append_singleton additions addition ih =>
    rw [build, List.foldlM_append] at h
    cases hbefore : additions.foldlM Recording.tryAdd empty with
    | error misplaced =>
      rw [hbefore] at h
      cases h
    | ok before =>
      rw [hbefore] at h
      have hlast : before.tryAdd addition = .ok r := by
        rw [← h]
        exact (bind_pure _).symm
      exact (ih hbefore).tryAdd hlast

end Recording

/-! ### The renumbering -/

/-- The renumbering takes the calls of the first layout to those of the second. -/
structure Renumbers (π : Equiv.Perm Nat) (ps qs : List Placement) : Prop where
  getElem? : ∀ i, qs[π i]? = (ps[i]?).map fun p => { p with parent := p.parent.map π }
  ascending : ∀ (i j : Nat) (p q : Placement), ps[i]? = some p → ps[j]? = some q →
    p.client = q.client → i < j → π i < π j

theorem map_getElem?_places {α : Type} (p : α → Bool) (xs : List α) :
    (places p xs).map (xs[·]?) = (xs.filter p).map some := by
  induction xs using List.reverseRecOn with
  | nil => rfl
  | append_singleton xs x ih =>
    have earlier : (places p xs).map ((xs ++ [x])[·]?) = (places p xs).map (xs[·]?) := by
      apply List.map_congr_left
      intro i hi
      exact List.getElem?_append_left (places_lt_length hi)
    rw [places_append_singleton, List.map_append, earlier, ih, List.filter_append]
    by_cases hx : p x = true
    · simp [hx]
    · simp [hx]

theorem getElem?_filter_places {α : Type} (p : α → Bool) (xs : List α) (n : Nat) :
    (xs.filter p)[n]? = ((places p xs)[n]?).bind (xs[·]?) := by
  have same := congrArg (·[n]?) (map_getElem?_places p xs)
  simp only [List.getElem?_map] at same
  cases hi : (places p xs)[n]? with
  | none =>
    rw [hi] at same
    exact Option.map_eq_none_iff.mp same.symm
  | some i =>
    rw [hi] at same
    obtain ⟨x, hx, hsome⟩ := Option.map_eq_some_iff.mp same.symm
    exact hx.trans hsome

variable {ps qs : List Placement} {i j k n : Nat} {p : Placement}

theorem mem_clientPlaces : i ∈ clientPlaces ps k ↔ (ps[i]?).map Placement.client = some k := by
  simp only [clientPlaces, mem_places, beq_iff_eq, Option.map_eq_some_iff]

theorem getElem?_clientPlaces_idxOf (hp : ps[i]? = some p) :
    (clientPlaces ps p.client)[(clientPlaces ps p.client).idxOf i]? = some i := by
  apply List.getElem?_idxOf
  rw [mem_clientPlaces, hp]
  rfl

theorem idxOf_clientPlaces (h : (clientPlaces ps k)[n]? = some i) :
    (clientPlaces ps k).idxOf i = n := by
  obtain ⟨hn, rfl⟩ := List.getElem?_eq_some_iff.mp h
  exact nodup_places.idxOf_getElem n hn

theorem getElem?_lineup (k n : Nat) :
    (lineup ps k)[n]? = ((clientPlaces ps k)[n]?).bind fun i =>
      (ps[i]?).map fun p => (p.parent.map fun q => (clientPlaces ps k).idxOf q, p.spec) := by
  rw [lineup, List.getElem?_map, getElem?_filter_places, Option.map_bind]
  rfl

/-- The call that has the same number among those of its client in another layout. -/
def counterpart (ps qs : List Placement) (i : Nat) : Nat :=
  match ps[i]? with
  | none => i
  | some p => ((clientPlaces qs p.client)[(clientPlaces ps p.client).idxOf i]?).getD i

theorem counterpart_eq (hp : ps[i]? = some p)
    (hj : (clientPlaces qs p.client)[(clientPlaces ps p.client).idxOf i]? = some j) :
    counterpart ps qs i = j := by
  simp only [counterpart, hp, hj, Option.getD_some]

/-- Counterparts are known by what is known of them in their line-up. -/
theorem exists_counterpart (same : ∀ k, lineup qs k = lineup ps k) (hp : ps[i]? = some p) :
    ∃ q, qs[counterpart ps qs i]? = some q ∧ q.client = p.client ∧ q.spec = p.spec ∧
      (q.parent.map fun x => (clientPlaces qs p.client).idxOf x) =
        (p.parent.map fun x => (clientPlaces ps p.client).idxOf x) ∧
      (clientPlaces qs p.client)[(clientPlaces ps p.client).idxOf i]? =
        some (counterpart ps qs i) := by
  have here := @getElem?_lineup ps p.client ((clientPlaces ps p.client).idxOf i)
  rw [getElem?_clientPlaces_idxOf hp, Option.bind_some, hp, Option.map_some, ← same,
    getElem?_lineup] at here
  obtain ⟨j, hj, there⟩ := Option.bind_eq_some_iff.mp here
  obtain ⟨q, hq, hknown⟩ := Option.map_eq_some_iff.mp there
  obtain ⟨hparent, hspec⟩ := Prod.mk.inj hknown
  rw [counterpart_eq hp hj]
  have hclient := mem_clientPlaces.mp (List.mem_of_getElem? hj)
  rw [hq, Option.map_some, Option.some_inj] at hclient
  exact ⟨q, hq, hclient, hspec, hparent, hj⟩

theorem length_eq_of_lineup (same : ∀ k, lineup qs k = lineup ps k) : qs.length = ps.length := by
  have count : ∀ (ps : List Placement) k,
      (ps.map Placement.client).count k = (lineup ps k).length := by
    intro ps k
    rw [List.count_eq_countP, List.countP_map, List.countP_eq_length_filter, lineup,
      List.length_map]
    rfl
  have hperm : (qs.map Placement.client).Perm (ps.map Placement.client) := by
    rw [List.perm_iff_count]
    intro k
    rw [count, count, same]
  simpa using hperm.length_eq

theorem counterpart_counterpart (same : ∀ k, lineup qs k = lineup ps k) (i : Nat) :
    counterpart qs ps (counterpart ps qs i) = i := by
  cases hp : ps[i]? with
  | none =>
    have hq : qs[i]? = none := by
      rw [List.getElem?_eq_none_iff, length_eq_of_lineup same]
      exact List.getElem?_eq_none_iff.mp hp
    have outside : counterpart ps qs i = i := by simp only [counterpart, hp]
    rw [outside]
    simp only [counterpart, hq]
  | some p =>
    obtain ⟨q, hq, hclient, -, -, hj⟩ := exists_counterpart same hp
    apply counterpart_eq hq
    rw [hclient, idxOf_clientPlaces hj]
    exact getElem?_clientPlaces_idxOf hp

/-- Every call and its counterpart. -/
def pairing (same : ∀ k, lineup qs k = lineup ps k) : Equiv.Perm Nat where
  toFun := counterpart ps qs
  invFun := counterpart qs ps
  left_inv := counterpart_counterpart same
  right_inv := counterpart_counterpart fun k => (same k).symm

theorem clientPlaces_lt_iff {a b : Nat} {m : Nat} (ha : (clientPlaces ps k)[n]? = some a)
    (hb : (clientPlaces ps k)[m]? = some b) : a < b ↔ n < m := by
  obtain ⟨hn, rfl⟩ := List.getElem?_eq_some_iff.mp ha
  obtain ⟨hm, rfl⟩ := List.getElem?_eq_some_iff.mp hb
  have ascending : (clientPlaces ps k).SortedLT := List.sortedLT_iff_pairwise.mpr places_pairwise
  exact ascending.getElem_lt_getElem_iff

/-- Layouts with the same line-ups differ by a renumbering. -/
theorem renumbers_pairing {clients : Nat} (hps : WellPlaced clients ps)
    (hqs : WellPlaced clients qs) (same : ∀ k, lineup qs k = lineup ps k) :
    Renumbers (pairing same) ps qs := by
  constructor
  · intro i
    change qs[counterpart ps qs i]? = _
    cases hp : ps[i]? with
    | none =>
      have outside : counterpart ps qs i = i := by simp only [counterpart, hp]
      rw [outside, List.getElem?_eq_none_iff.mpr, Option.map_none]
      rw [length_eq_of_lineup same]
      exact List.getElem?_eq_none_iff.mp hp
    | some p =>
      obtain ⟨⟨k, parent, spec⟩, hq, hclient, hspec, hparent, -⟩ := exists_counterpart same hp
      dsimp only at hclient hspec hparent
      subst hclient hspec
      rw [hq, Option.map_some]
      congr 2
      cases hx : p.parent with
      | none =>
        rw [hx] at hparent
        exact Option.map_eq_none_iff.mp hparent
      | some x =>
        rw [hx, Option.map_some] at hparent
        obtain ⟨y, rfl, hnumber⟩ := Option.map_eq_some_iff.mp hparent
        -- The parents belong to the client, and have the same number among its calls.
        obtain ⟨px, hpx, hown⟩ := Option.map_eq_some_iff.mp (hps.parent i p hp x hx).2
        have hy := List.getElem?_idxOf (mem_clientPlaces.mpr (hqs.parent _ _ hq y rfl).2)
        rw [hnumber, ← hown] at hy
        exact congrArg some (counterpart_eq hpx hy).symm
  · intro i j p q hp hq hclient hlt
    change counterpart ps qs i < counterpart ps qs j
    obtain ⟨-, -, -, -, -, hi⟩ := exists_counterpart same hp
    obtain ⟨-, -, -, -, -, hj⟩ := exists_counterpart same hq
    have hi' := getElem?_clientPlaces_idxOf hp
    rw [hclient] at hi hi'
    exact (clientPlaces_lt_iff hi hj).mpr
      ((clientPlaces_lt_iff hi' (getElem?_clientPlaces_idxOf hq)).mp hlt)

/-! ### Listings under a renumbering -/

namespace Renumbers

variable {π : Equiv.Perm Nat}

/-- Calls of one client that are told by a property are renumbered one by one. -/
theorem places_eq (h : Renumbers π ps qs) {f g : Placement → Bool}
    (hfg : ∀ p : Placement, g { p with parent := p.parent.map π } = f p)
    (one : ∀ p ∈ ps, ∀ q ∈ ps, f p = true → f q = true → p.client = q.client) :
    places g qs = (places f ps).map π := by
  apply List.Pairwise.eq_of_mem_iff (r := (· < ·)) places_pairwise
  · rw [List.pairwise_map]
    refine places_pairwise.imp_of_mem ?_
    intro i j hi hj hlt
    obtain ⟨p, hp, hfp⟩ := mem_places.mp hi
    obtain ⟨q, hq, hfq⟩ := mem_places.mp hj
    exact h.ascending i j p q hp hq
      (one p (List.mem_of_getElem? hp) q (List.mem_of_getElem? hq) hfp hfq) hlt
  · intro j
    obtain ⟨i, rfl⟩ := π.surjective j
    rw [List.mem_map_of_injective π.injective, mem_places, mem_places, h.getElem?]
    constructor
    · rintro ⟨q, hq, hgq⟩
      obtain ⟨p, hp, rfl⟩ := Option.map_eq_some_iff.mp hq
      exact ⟨p, hp, (hfg p).symm.trans hgq⟩
    · rintro ⟨p, hp, hfp⟩
      exact ⟨_, Option.map_eq_some_iff.mpr ⟨p, hp, rfl⟩, (hfg p).trans hfp⟩

theorem rootPlaces_eq (h : Renumbers π ps qs) (k : Nat) :
    rootPlaces qs k = (rootPlaces ps k).map π := by
  apply h.places_eq
  · intro p
    cases p.parent <;> rfl
  · intro p _ q _ hp hq
    rw [Bool.and_eq_true, beq_iff_eq] at hp hq
    exact hp.1.trans hq.1.symm

theorem childPlaces_eq {clients : Nat} (h : Renumbers π ps qs) (well : WellPlaced clients ps)
    (i : Nat) : childPlaces qs (π i) = (childPlaces ps i).map π := by
  apply h.places_eq
  · intro p
    cases p.parent with
    | none => rfl
    | some q =>
      rw [Bool.eq_iff_iff, beq_iff_eq, beq_iff_eq, Option.map_some, Option.some_inj,
        Option.some_inj]
      exact π.injective.eq_iff
  · intro p hp q hq hpi hqi
    rw [beq_iff_eq] at hpi hqi
    obtain ⟨a, ha⟩ := List.mem_iff_getElem?.mp hp
    obtain ⟨b, hb⟩ := List.mem_iff_getElem?.mp hq
    have hp' := (well.parent a p ha i hpi).2
    rw [(well.parent b q hb i hqi).2, Option.some_inj] at hp'
    exact hp'.symm

theorem isSyntheticAt_eq (h : Renumbers π ps qs) (i : Nat) :
    isSyntheticAt qs (π i) = isSyntheticAt ps i := by
  rw [isSyntheticAt, h.getElem?, isSyntheticAt]
  cases ps[i]? <;> rfl

theorem topPlaces_eq (h : Renumbers π ps qs) (clients : List Client) :
    topPlaces clients qs = (topPlaces clients ps).map π := by
  rw [topPlaces, topPlaces, List.map_flatMap]
  congr 1
  funext client
  exact h.rootPlaces_eq _

/-- A traversal is renumbered call by call. -/
theorem traversal {clients : Nat} (h : Renumbers π ps qs) (well : WellPlaced clients ps)
    {is order : List Nat} (ht : Traversal ps is order) :
    Traversal qs (is.map π) (order.map π) := by
  induction ht with
  | nil => exact .nil
  | synthetic entry _ ih =>
    apply Traversal.synthetic _ ih
    rw [h.isSyntheticAt_eq, entry]
  | @normal i is inside later entry _ _ ihBelow ihAfter =>
    rw [List.map_cons, List.map_cons, List.map_append]
    apply Traversal.normal
    · rw [h.isSyntheticAt_eq, entry]
    · rw [h.childPlaces_eq well]
      exact ihBelow
    · exact ihAfter

end Renumbers

end CallTrace
