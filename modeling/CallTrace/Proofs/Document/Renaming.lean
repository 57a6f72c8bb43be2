import CallTrace.Proofs.Document.Analysis
import CallTrace.Proofs.Recording.Precedence

/-!
# Renamed identifiers

Identifiers only link the calls of one entry.  If the identifiers of every entry are renamed
by an injective function, of its own for each entry, then the calls stay linked as they were
(`linked_rename`) and a call that has a fault keeps it (`callFault_rename`).  The sites of the
calls are placed as before (`placements_rename`), so the recording is the same.

A fault is located by the number of its entry and of its call in the entry
(`Document.FaultAt`); renaming moves no fault (`Document.faultAt_rename`).
-/

namespace CallTrace

open Function

def CallEntry.rename (f : UInt64 → UInt64) (c : CallEntry) : CallEntry :=
  { c with id := f c.id, parent := c.parent.map f }

def ClientEntry.rename (f : UInt64 → UInt64) (e : ClientEntry) : ClientEntry :=
  { e with calls := e.calls.map (CallEntry.rename f) }

/-- The document in which the identifiers of every entry are renamed, by a function of its own
    for each entry. -/
def Document.rename (f : Nat → UInt64 → UInt64) (d : Document) : Document :=
  { d with clients := d.clients.mapIdx fun k e => e.rename (f k) }

/-- The same fault of the renamed call. -/
def DocumentFault.rename (f : UInt64 → UInt64) : DocumentFault → DocumentFault
  | .parentUnknown client call parent => .parentUnknown client (f call) (f parent)
  | .callRepeated client call => .callRepeated client (f call)
  | .version fault => .version fault
  | .misplaced fault => .misplaced fault

/-! ### Where the fault of a document is -/

/-- The version of a document, or a call by its entry and its number in the entry. -/
inductive FaultPlace where
  | version
  | call (entry index : Nat)
deriving DecidableEq, Repr

/-- The renaming that applies at a place. -/
def FaultPlace.renaming (f : Nat → UInt64 → UInt64) : FaultPlace → UInt64 → UInt64
  | .version => id
  | .call entry _ => f entry

/-- The first fault of a document, with its place: everything before it is as it should be. -/
inductive Document.FaultAt (d : Document) : FaultPlace → DocumentFault → Prop where
  | version {fault : VersionFault} (refused : checkVersion d.version = .error fault) :
      FaultAt d .version (.version fault)
  | call {k i : Nat} {entry : ClientEntry} {call : CallEntry} {fault : DocumentFault}
      (accepted : checkVersion d.version = .ok ()) (entryAt : d.clients[k]? = some entry)
      (earlierLinked : ∀ j < k, ∀ e, d.clients[j]? = some e → Linked e.calls)
      (callAt : entry.calls[i]? = some call) (beforeLinked : Linked (entry.calls.take i))
      (first : CallFault entry.client (entry.calls.take i) call fault) :
      FaultAt d (.call k i) fault

theorem exists_split_of_getElem? {α : Type} {xs : List α} {i : Nat} {x : α}
    (h : xs[i]? = some x) : ∃ after, xs = xs.take i ++ x :: after := by
  obtain ⟨hlt, rfl⟩ := List.getElem?_eq_some_iff.mp h
  refine ⟨xs.drop (i + 1), ?_⟩
  rw [← List.drop_eq_getElem_cons hlt, List.take_append_drop]

theorem Document.firstFault_iff {d : Document} {fault : DocumentFault} :
    d.FirstFault fault ↔ ∃ place, d.FaultAt place fault := by
  constructor
  · intro h
    cases h with
    | version refused => exact ⟨.version, .version refused⟩
    | @call earlier later entry before after call _ accepted entries earlierLinked calls
        beforeLinked first =>
      have entryAt : d.clients[earlier.length]? = some entry := by simp [entries]
      have callAt : entry.calls[before.length]? = some call := by simp [calls]
      have take : entry.calls.take before.length = before := by simp [calls]
      refine ⟨.call earlier.length before.length, .call accepted entryAt ?_ callAt ?_ ?_⟩
      · intro j hj e he
        rw [entries, List.getElem?_append_left hj] at he
        exact earlierLinked e (List.mem_of_getElem? he)
      · rwa [take]
      · rwa [take]
  · rintro ⟨place, h⟩
    cases h with
    | version refused => exact .version refused
    | @call k i entry call _ accepted entryAt earlierLinked callAt beforeLinked first =>
      obtain ⟨later, entries⟩ := exists_split_of_getElem? entryAt
      obtain ⟨after, calls⟩ := exists_split_of_getElem? callAt
      refine .call accepted entries ?_ calls beforeLinked first
      intro e he
      obtain ⟨j, hj⟩ := List.mem_iff_getElem?.mp he
      have hlt : j < k := by
        have := (List.getElem?_eq_some_iff.mp hj).1
        rw [List.length_take] at this
        omega
      rw [List.getElem?_take_of_lt hlt] at hj
      exact earlierLinked j hlt e hj

/-! ### Renamed calls are linked as before -/

section Calls

variable {f : UInt64 → UInt64} {before calls : List CallEntry} {call : CallEntry}

theorem exists_id_rename (injective : Injective f) {id : UInt64} :
    (∃ c ∈ before.map (CallEntry.rename f), c.id = f id) ↔ ∃ c ∈ before, c.id = id := by
  constructor
  · rintro ⟨c, hc, hid⟩
    obtain ⟨c, hmem, rfl⟩ := List.mem_map.mp hc
    exact ⟨c, hmem, injective hid⟩
  · rintro ⟨c, hc, rfl⟩
    exact ⟨_, List.mem_map_of_mem hc, rfl⟩

theorem parentKnown_rename (injective : Injective f) :
    ParentKnown (before.map (CallEntry.rename f)) (call.rename f) ↔ ParentKnown before call := by
  constructor
  · intro known parent names
    apply (exists_id_rename injective).mp
    apply known
    rw [CallEntry.rename, names, Option.map_some]
  · intro known parent names
    obtain ⟨id, hid, rfl⟩ := Option.map_eq_some_iff.mp names
    apply (exists_id_rename injective).mpr
    exact known id hid

theorem linked_rename (injective : Injective f) :
    Linked (calls.map (CallEntry.rename f)) ↔ Linked calls := by
  have fresh : ∀ (before : List CallEntry) (call : CallEntry),
      (∀ c ∈ before.map (CallEntry.rename f), c.id ≠ (call.rename f).id) ↔
        ∀ c ∈ before, c.id ≠ call.id := by
    intro before call
    have renamed : (∃ c ∈ before.map (CallEntry.rename f), c.id = f call.id) ↔
        ∃ c ∈ before, c.id = call.id := exists_id_rename injective
    have absent := not_congr renamed
    simp only [not_exists, not_and] at absent
    exact absent
  induction calls using List.reverseRecOn with
  | nil => exact ⟨fun _ => .nil, fun _ => .nil⟩
  | append_singleton before call ih =>
    rw [List.map_append, List.map_singleton, linked_append_singleton, linked_append_singleton,
      parentKnown_rename injective, fresh]
    exact and_congr_left fun _ => ih

/-- A renamed call has the same fault as before. -/
theorem callFault_rename (injective : Injective f) {client : Client} {fault' : DocumentFault} :
    CallFault client (before.map (CallEntry.rename f)) (call.rename f) fault' ↔
      ∃ fault, CallFault client before call fault ∧ fault' = fault.rename f := by
  constructor
  · intro h
    cases h with
    | parentUnknown names unknown =>
      obtain ⟨parent, hparent, rfl⟩ := Option.map_eq_some_iff.mp names
      refine ⟨_, .parentUnknown hparent ?_, rfl⟩
      intro c hc hid
      obtain ⟨c', hc', hid'⟩ := (exists_id_rename injective).mpr ⟨c, hc, hid⟩
      exact unknown c' hc' hid'
    | callRepeated known repeated =>
      refine ⟨_, .callRepeated ((parentKnown_rename injective).mp known) ?_, rfl⟩
      exact (exists_id_rename injective).mp repeated
  · rintro ⟨fault, h, rfl⟩
    cases h with
    | @parentUnknown parent names unknown =>
      have renamed : (call.rename f).parent = some (f parent) := by
        rw [CallEntry.rename, names, Option.map_some]
      refine .parentUnknown renamed ?_
      intro c hc hid
      obtain ⟨c', hc', hid'⟩ := (exists_id_rename injective).mp ⟨c, hc, hid⟩
      exact unknown c' hc' hid'
    | callRepeated known repeated =>
      refine .callRepeated ((parentKnown_rename injective).mpr known) ?_
      exact (exists_id_rename injective).mpr repeated

end Calls

/-! ### Renamed documents have their faults where they were -/

namespace Document

variable {d : Document} {f : Nat → UInt64 → UInt64}

theorem getElem?_clients_rename (k : Nat) :
    (d.rename f).clients[k]? = (d.clients[k]?).map (ClientEntry.rename (f k)) := by
  rw [rename, List.getElem?_mapIdx]

variable (injective : ∀ k < d.clients.length, Injective (f k))
include injective

theorem linked_calls_rename {k : Nat} {e : ClientEntry} (he : d.clients[k]? = some e) :
    Linked (e.rename (f k)).calls ↔ Linked e.calls :=
  linked_rename (injective k (List.getElem?_eq_some_iff.mp he).1)

theorem earlierLinked_rename {k : Nat} :
    (∀ j < k, ∀ e, (d.rename f).clients[j]? = some e → Linked e.calls) ↔
      ∀ j < k, ∀ e, d.clients[j]? = some e → Linked e.calls := by
  constructor
  · intro linked j hj e he
    apply (linked_calls_rename injective he).mp
    apply linked j hj
    rw [getElem?_clients_rename, he, Option.map_some]
  · intro linked j hj e' he'
    rw [getElem?_clients_rename] at he'
    obtain ⟨e, he, rfl⟩ := Option.map_eq_some_iff.mp he'
    exact (linked_calls_rename injective he).mpr (linked j hj e he)

theorem wellFormed_rename : (d.rename f).WellFormed ↔ d.WellFormed := by
  have entries : ∀ d : Document, (∀ e ∈ d.clients, Linked e.calls) ↔
      ∀ j < d.clients.length, ∀ e, d.clients[j]? = some e → Linked e.calls := by
    intro d
    constructor
    · intro linked j _ e he
      exact linked e (List.mem_of_getElem? he)
    · intro linked e he
      obtain ⟨j, hj⟩ := List.mem_iff_getElem?.mp he
      exact linked j (List.getElem?_eq_some_iff.mp hj).1 e hj
  have length : (d.rename f).clients.length = d.clients.length := List.length_mapIdx
  rw [WellFormed, WellFormed, entries, entries, length, earlierLinked_rename injective]
  rfl

/-- The renamed document has its fault at the same place, and it is the same fault. -/
theorem faultAt_rename {place : FaultPlace} {fault' : DocumentFault} :
    (d.rename f).FaultAt place fault' ↔
      ∃ fault, d.FaultAt place fault ∧ fault' = fault.rename (place.renaming f) := by
  constructor
  · intro h
    cases h with
    | version refused => exact ⟨_, .version refused, rfl⟩
    | call accepted entryAt earlierLinked callAt beforeLinked first =>
      rw [getElem?_clients_rename] at entryAt
      obtain ⟨entry, hentry, rfl⟩ := Option.map_eq_some_iff.mp entryAt
      have unambiguous := injective _ (List.getElem?_eq_some_iff.mp hentry).1
      simp only [ClientEntry.rename, List.getElem?_map] at callAt
      obtain ⟨call, hcall, rfl⟩ := Option.map_eq_some_iff.mp callAt
      simp only [ClientEntry.rename, ← List.map_take] at beforeLinked first
      obtain ⟨fault, hfault, rfl⟩ := (callFault_rename unambiguous).mp first
      exact ⟨fault, .call accepted hentry ((earlierLinked_rename injective).mp earlierLinked)
        hcall ((linked_rename unambiguous).mp beforeLinked) hfault, rfl⟩
  · rintro ⟨fault, h, rfl⟩
    cases h with
    | version refused => exact .version refused
    | @call k i entry call _ accepted entryAt earlierLinked callAt beforeLinked first =>
      have unambiguous := injective k (List.getElem?_eq_some_iff.mp entryAt).1
      have entryAt' : (d.rename f).clients[k]? = some (entry.rename (f k)) := by
        rw [getElem?_clients_rename, entryAt, Option.map_some]
      have callAt' : (entry.rename (f k)).calls[i]? = some (call.rename (f k)) := by
        simp only [ClientEntry.rename, List.getElem?_map, callAt, Option.map_some]
      refine .call accepted entryAt' ((earlierLinked_rename injective).mpr earlierLinked) callAt'
        ?_ ?_
      · simp only [ClientEntry.rename, ← List.map_take]
        exact (linked_rename unambiguous).mpr beforeLinked
      · simp only [ClientEntry.rename, ← List.map_take]
        exact (callFault_rename unambiguous).mpr ⟨fault, first, rfl⟩

end Document

/-! ### Renamed documents are recorded as before -/

def Site.rename (f : Nat → UInt64 → UInt64) (s : Site) : Site :=
  { s with call := s.call.rename (f s.entry) }

section Sites

variable {d : Document} {f : Nat → UInt64 → UInt64}

theorem sitesOf_rename :
    sitesOf (d.rename f).clients = (sitesOf d.clients).map (Site.rename f) := by
  have entries : (d.rename f).clients.zipIdx =
      d.clients.zipIdx.map fun e => (e.1.rename (f e.2), e.2) := by
    apply List.ext_getElem?
    intro k
    simp [List.getElem?_zipIdx, Document.getElem?_clients_rename, Function.comp_def]
  rw [sitesOf, sitesOf, entries, List.flatMap_map, List.map_flatMap]
  simp [ClientEntry.rename, Site.rename, Function.comp_def]

theorem clientsOf_rename : clientsOf (d.rename f).clients = clientsOf d.clients := by
  have clients : (d.rename f).clients.map ClientEntry.client =
      d.clients.map ClientEntry.client := by
    apply List.ext_getElem?
    intro k
    rw [List.getElem?_map, List.getElem?_map, Document.getElem?_clients_rename, Option.map_map]
    rfl
  rw [clientsOf, clientsOf, clients]

variable (injective : ∀ k < d.clients.length, Injective (f k))
include injective

theorem siteIndex?_rename {sites : List Site} {k : Nat} (hk : k < d.clients.length)
    (id : UInt64) :
    siteIndex? (sites.map (Site.rename f)) k (f k id) = siteIndex? sites k id := by
  rw [siteIndex?, siteIndex?, List.findIdx?_map]
  congr 1
  funext s
  rw [Bool.eq_iff_iff]
  simp only [comp_apply, Site.rename, CallEntry.rename, Bool.and_eq_true, beq_iff_eq]
  constructor
  · rintro ⟨rfl, hid⟩
    exact ⟨rfl, injective _ hk hid⟩
  · rintro ⟨rfl, hid⟩
    exact ⟨rfl, congrArg (f s.entry) hid⟩

theorem placements_rename (clients : List Client) :
    placements clients (sitesOf (d.rename f).clients) = placements clients (sitesOf d.clients) := by
  rw [sitesOf_rename, placements, placements, List.map_map]
  apply List.map_congr_left
  intro s hs
  have parent : (s.rename f).call.parent.bind
        (siteIndex? ((sitesOf d.clients).map (Site.rename f)) s.entry) =
      s.call.parent.bind (siteIndex? (sitesOf d.clients) s.entry) := by
    simp only [Site.rename, CallEntry.rename, Option.bind_map]
    congr 1
    funext id
    exact siteIndex?_rename injective (entry_lt_of_mem_sitesOf hs) id
  simp only [comp_apply, placement]
  rw [← parent]
  rfl

end Sites

namespace Recording

variable {d : Document}

theorem ofDocument_rename_of_ok {f : Nat → UInt64 → UInt64}
    (injective : ∀ k < d.clients.length, Injective (f k)) {r : Recording}
    (h : ofDocument d = .ok r) : ofDocument (d.rename f) = .ok r := by
  obtain ⟨r', h'⟩ := exists_ofDocument_iff.mpr
    ((Document.wellFormed_rename injective).mpr (exists_ofDocument_iff.mp ⟨r, h⟩))
  have same : r' = r := by
    rw [(recorded_of_ok h').eq, (recorded_of_ok h).eq, clientsOf_rename,
      placements_rename injective]
    rfl
  rw [h', same]

/-- A call is listed below another exactly if both stand in one entry and it names the other as
    its parent. -/
theorem Recorded.isChild_iff {r : Recording}
    (recorded : Recorded d.modules (clientsOf d.clients) (sitesOf d.clients) r) {i j : Nat} :
    r.IsChild j i ↔ ∃ s t, (sitesOf d.clients)[i]? = some s ∧ (sitesOf d.clients)[j]? = some t ∧
      s.entry = t.entry ∧ s.call.parent = some t.call.id := by
  rw [recorded.arranged.isChild_iff, parentAt, Document.placed, placements, List.getElem?_map]
  constructor
  · intro h
    obtain ⟨p, hp, hparent⟩ := Option.bind_eq_some_iff.mp h
    obtain ⟨s, hs, rfl⟩ := Option.map_eq_some_iff.mp hp
    obtain ⟨id, -, hid⟩ := Option.bind_eq_some_iff.mp hparent
    obtain ⟨t, ht, -⟩ := site_of_siteIndex? hid
    exact ⟨s, t, hs, ht, (recorded.placement_parent_eq_some ht).mp hparent⟩
  · rintro ⟨s, t, hs, ht, hentry, hparent⟩
    rw [hs, Option.map_some, Option.bind_some]
    exact (recorded.placement_parent_eq_some ht).mpr ⟨hentry, hparent⟩

/-- Renaming the identifiers of every entry, each by an injective function of its own, changes
    neither the recording of a document nor the place and the kind of its fault; and whatever
    the identifiers of other entries, a call is listed below the call of its own entry that it
    names. -/
theorem ofDocument_rename {f : Nat → UInt64 → UInt64}
    (injective : ∀ k < d.clients.length, Injective (f k)) :
    (∀ r, ofDocument (d.rename f) = .ok r ↔ ofDocument d = .ok r) ∧
      (∀ fault, ofDocument d = .error fault ↔ ∃ place, d.FaultAt place fault) ∧
      (∀ fault, ofDocument (d.rename f) = .error fault ↔
        ∃ place, (d.rename f).FaultAt place fault) ∧
      (∀ place fault', (d.rename f).FaultAt place fault' ↔
        ∃ fault, d.FaultAt place fault ∧ fault' = fault.rename (place.renaming f)) ∧
      ∀ r, ofDocument d = .ok r → ∀ i j, r.IsChild j i ↔
        ∃ s t, (sitesOf d.clients)[i]? = some s ∧ (sitesOf d.clients)[j]? = some t ∧
          s.entry = t.entry ∧ s.call.parent = some t.call.id := by
  have located : ∀ (d : Document) fault,
      ofDocument d = .error fault ↔ ∃ place, d.FaultAt place fault := by
    intro d fault
    rw [ofDocument_eq_error_iff, Document.firstFault_iff]
  refine ⟨?_, located d, located _, fun place fault' => Document.faultAt_rename injective, ?_⟩
  · intro r
    constructor
    · intro h
      obtain ⟨r', h'⟩ := exists_ofDocument_iff.mpr
        ((Document.wellFormed_rename injective).mp (exists_ofDocument_iff.mp ⟨r, h⟩))
      have same := ofDocument_rename_of_ok injective h'
      rw [h] at same
      cases same
      exact h'
    · exact ofDocument_rename_of_ok injective
  · intro r h i j
    exact (recorded_of_ok h).isChild_iff

/-- The identifiers of the k-th entry, k hundreds further up. -/
def hundreds (k : Nat) (id : UInt64) : UInt64 :=
  id + 100 * k.toUInt64

/-- Two clients that use the same identifiers; the second names a parent that is to come. -/
def laterParent : Document where
  version := "1.0"
  clients := [
    { client := ⟨4, 8⟩
      calls := [{ id := 1, spec := { functionName := "f", moduleName := "nt" } },
        { id := 3, parent := some 1, spec := { functionName := "g", moduleName := "nt" } }] },
    { client := ⟨4, 12⟩
      calls := [{ id := 1, spec := { functionName := "f", moduleName := "nt" } },
        { id := 2, parent := some 3, spec := { functionName := "g", moduleName := "nt" } },
        { id := 3, spec := { functionName := "h", moduleName := "nt" } }] }]

theorem laterParent_faultAt :
    laterParent.FaultAt (.call 1 1) (.parentUnknown ⟨4, 12⟩ 2 3) := by
  have single : ∀ call : CallEntry, call.parent = none → Linked [call] := by
    intro call top
    refine linked_append_singleton.mpr ⟨.nil, ?_, by simp⟩
    intro parent names
    rw [top] at names
    cases names
  have accepted : checkVersion laterParent.version = .ok () := by cbv
  refine .call accepted rfl ?_ rfl ?_ (.parentUnknown rfl ?_)
  · intro j hj e he
    obtain rfl : j = 0 := by omega
    cases he
    refine linked_append_singleton.mpr ⟨single _ rfl, ?_, by decide⟩
    rintro parent ⟨⟩
    exact ⟨_, List.mem_cons_self, rfl⟩
  · exact single _ rfl
  · decide

/-- The identifiers that two entries share are told apart by renaming; a recording stays as it
    was, and a fault stays where it was. -/
theorem ofDocument_rename_hundreds :
    (∀ k, Injective (hundreds k)) ∧
      (∃ r, ofDocument splitClient = .ok r ∧ ofDocument (splitClient.rename hundreds) = .ok r) ∧
      ofDocument (laterParent.rename hundreds) = .error (.parentUnknown ⟨4, 12⟩ 102 103) := by
  have injective : ∀ k, Injective (hundreds k) := by
    intro k a b hab
    exact (UInt64.add_left_inj _).mp hab
  refine ⟨injective, ?_, ?_⟩
  · have accepted : (ofDocument splitClient).toBool = true := by cbv
    obtain ⟨r, h⟩ := exists_of_toBool accepted
    obtain ⟨same, -⟩ := ofDocument_rename (d := splitClient) fun k _ => injective k
    exact ⟨r, h, (same r).mpr h⟩
  · obtain ⟨-, -, located, moved, -⟩ := ofDocument_rename (d := laterParent) fun k _ => injective k
    exact (located _).mpr ⟨.call 1 1, (moved _ _).mpr ⟨_, laterParent_faultAt, rfl⟩⟩

end Recording

end CallTrace
