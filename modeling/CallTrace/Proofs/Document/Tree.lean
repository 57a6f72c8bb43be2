import CallTrace.Proofs.Document.Decoding
import CallTrace.Proofs.Recording.Answers

/-!
# The tree that a document describes

`Document.answers` reads off a document, without recording it, what a reader of its calls
has to answer: the top-level calls of a client are those of all its entries that name no
parent, the children of a call are those of its entry that name it, and a call keeps its
number as its handle.  The recording of the document answers just so
(`Recording.Recorded.gives`).
-/

namespace CallTrace

namespace Document

variable (d : Document)

/-- The module that a name stands for: the last one listed with this name. -/
def module? (name : String) : Option Module :=
  d.modules.reverse.find? fun m => m.name == name

/-- The record of a call with a given number. -/
def record (spec : CallSpec) (n : Nat) : Except TraceError CallRecord :=
  match d.module? spec.moduleName with
  | none => .error (.cannotRead (.unknownModule ⟨n⟩ spec.functionName spec.moduleName))
  | some m =>
    .ok {
      functionName := spec.functionName
      moduleName := spec.moduleName
      modulePath := m.path
      entry := spec.entry
      exit := spec.exit
      entryTimestamp := spec.entryTimestamp
      exitTimestamp := spec.exitTimestamp
      callerIp := spec.callerIp
      returnValue := spec.returnValue
      handle := ⟨n⟩ }

/-- The records of the calls that satisfy a predicate, in the order of the document. -/
def listing (p : Site → Bool) : List (Except TraceError CallRecord) :=
  ((sitesOf d.clients).zipIdx.filter fun s => p s.1).map fun s => d.record s.1.call.spec s.2

/-- What a reader of the calls of the document answers. -/
def answers : Answers where
  clients := .ok ((clientsOf d.clients).map .ok)
  calls client :=
    if client ∈ clientsOf d.clients then
      .ok (d.listing fun s => s.client == client && s.call.parent == none)
    else .error (.cannotRead (.unknownClient client))
  childCalls handle :=
    match (sitesOf d.clients)[handle.index]? with
    | some s => .ok (d.listing fun t => t.entry == s.entry && t.call.parent == some s.call.id)
    | none => .error (.cannotRead (.invalidHandle handle))

end Document

namespace Recording

variable {modules : List Module} {clients : List Client} {sites : List Site} {r : Recording}

/-! ### What is placed where -/

theorem map_places {α β : Type} {p : α → Bool} {xs : List α} {f : Nat → β} {g : α → Nat → β}
    (h : ∀ (i : Nat) x, xs[i]? = some x → f i = g x i) :
    (places p xs).map f = (xs.zipIdx.filter fun x => p x.1).map fun x => g x.1 x.2 := by
  rw [places, List.map_map]
  apply List.map_congr_left
  rintro ⟨x, i⟩ hx
  exact h i x (List.mk_mem_zipIdx_iff_getElem?.mp (List.mem_filter.mp hx).1)

theorem Recorded.siteIndex?_eq (recorded : Recorded modules clients sites r) {i : Nat} {s : Site}
    (hs : sites[i]? = some s) : siteIndex? sites s.entry s.call.id = some i := by
  have hmem := List.mem_of_getElem? hs
  cases hj : siteIndex? sites s.entry s.call.id with
  | none => exact absurd rfl (siteIndex?_eq_none_iff.mp hj s hmem rfl)
  | some j =>
    obtain ⟨t, ht, hentry, hid⟩ := site_of_siteIndex? hj
    have hkey : (sites.map fun s => (s.entry, s.call.id))[j]? =
        (sites.map fun s => (s.entry, s.call.id))[i]? := by
      rw [List.getElem?_map, List.getElem?_map, hs, ht, Option.map_some, Option.map_some, hentry,
        hid]
    have hj : j < (sites.map fun s => (s.entry, s.call.id)).length := by
      rw [List.length_map]
      exact (List.getElem?_eq_some_iff.mp ht).1
    rw [(List.getElem?_inj hj recorded.distinct).mp hkey]

theorem Recorded.placement_parent_eq_none (recorded : Recorded modules clients sites r) {s : Site}
    (hs : s ∈ sites) : (placement clients sites s).parent = none ↔ s.call.parent = none := by
  constructor
  · intro h
    cases hp : s.call.parent with
    | none => rfl
    | some id =>
      obtain ⟨i, hi⟩ := recorded.known s hs id hp
      simp [placement, hp, hi] at h
  · intro h
    simp [placement, h]

/-- A call is placed below the call of its entry that it names as its parent. -/
theorem Recorded.placement_parent_eq_some (recorded : Recorded modules clients sites r) {i : Nat}
    {s t : Site} (hs : sites[i]? = some s) :
    (placement clients sites t).parent = some i ↔
      t.entry = s.entry ∧ t.call.parent = some s.call.id := by
  constructor
  · intro h
    obtain ⟨id, hp, hi⟩ := Option.bind_eq_some_iff.mp h
    obtain ⟨u, hu, hentry, hid⟩ := site_of_siteIndex? hi
    rw [hs] at hu
    cases hu
    exact ⟨hentry.symm, hid ▸ hp⟩
  · rintro ⟨hentry, hp⟩
    simp only [placement, hp, Option.bind_some, hentry]
    exact recorded.siteIndex?_eq hs

/-! ### What the recording answers -/

theorem module?_arrangement (d : Document) (ps : List Placement) (clients : List Client)
    (name : String) : (arrangement d.modules clients ps).module? name = d.module? name := by
  rw [module?, Document.module?, List.getLast?_eq_head?_reverse, ← List.filter_reverse,
    List.head?_filter]
  rfl

theorem Recorded.recordAt_eq {d : Document} (recorded : Recorded d.modules clients sites r)
    {i : Nat} {s : Site} (hs : sites[i]? = some s) :
    r.recordAt i = d.record s.call.spec i := by
  have hnode : r.nodes[i]? =
      some ⟨s.call.spec, clients.idxOf s.client,
        (childPlaces (placements clients sites) i).toArray⟩ := by
    rw [recorded.eq, getElem?_nodes_arrangement, placements, List.getElem?_map, hs]
    rfl
  have hmodule : r.module? s.call.spec.moduleName = d.module? s.call.spec.moduleName := by
    rw [recorded.eq, module?_arrangement]
  simp only [recordAt, hnode, hmodule, Document.record]
  cases hm : d.module? s.call.spec.moduleName with
  | none => rfl
  | some m =>
    have hname := List.find?_some hm
    rw [beq_iff_eq] at hname
    simp only [hname]

end Recording

namespace Recording

variable {d : Document} {r : Recording}

theorem Recorded.map_rootPlaces
    (recorded : Recorded d.modules (clientsOf d.clients) (sitesOf d.clients) r)
    (client : Client) :
    (rootPlaces (placements (clientsOf d.clients) (sitesOf d.clients))
        ((clientsOf d.clients).idxOf client)).map r.recordAt =
      d.listing fun s => s.client == client && s.call.parent == none := by
  rw [rootPlaces, placements, places_map, places_congr (q := fun s =>
    s.client == client && s.call.parent == none)]
  · exact map_places fun i s hs => recorded.recordAt_eq hs
  · intro s hs
    rw [Bool.eq_iff_iff]
    simp only [beq_iff_eq, Bool.and_eq_true]
    exact and_congr (List.idxOf_inj (recorded.listed s hs))
      (recorded.placement_parent_eq_none hs)

theorem Recorded.map_childPlaces
    (recorded : Recorded d.modules (clientsOf d.clients) (sitesOf d.clients) r)
    {i : Nat} {s : Site} (hs : (sitesOf d.clients)[i]? = some s) :
    (childPlaces (placements (clientsOf d.clients) (sitesOf d.clients)) i).map r.recordAt =
      d.listing fun t => t.entry == s.entry && t.call.parent == some s.call.id := by
  rw [childPlaces, placements, places_map,
    places_congr (q := fun t => t.entry == s.entry && t.call.parent == some s.call.id)]
  · exact map_places fun i t ht => recorded.recordAt_eq ht
  · intro t _
    rw [Bool.eq_iff_iff]
    simp only [beq_iff_eq, Bool.and_eq_true]
    exact recorded.placement_parent_eq_some hs

theorem Recorded.answers_clients
    (recorded : Recorded d.modules (clientsOf d.clients) (sitesOf d.clients) r) :
    r.answers.clients = d.answers.clients := by
  have hclients : r.clients.toList.map ClientRoots.client = clientsOf d.clients := by
    rw [recorded.eq, map_client_arrangement]
  simp only [answers, Document.answers, ← hclients, List.map_map]
  rfl

theorem Recorded.answers_calls
    (recorded : Recorded d.modules (clientsOf d.clients) (sitesOf d.clients) r)
    (client : Client) : r.answers.calls client = d.answers.calls client := by
  have hentry : r.client? client =
      if client ∈ clientsOf d.clients then
        some ⟨client, (rootPlaces (placements (clientsOf d.clients) (sitesOf d.clients))
          ((clientsOf d.clients).idxOf client)).toArray⟩
      else none := by
    rw [recorded.eq, client?_arrangement]
  simp only [answers, Document.answers, hentry]
  by_cases hmem : client ∈ clientsOf d.clients
  · rw [if_pos hmem, if_pos hmem, ← recorded.map_rootPlaces client]
  · rw [if_neg hmem, if_neg hmem]

theorem Recorded.answers_childCalls
    (recorded : Recorded d.modules (clientsOf d.clients) (sitesOf d.clients) r)
    (handle : Handle) : r.answers.childCalls handle = d.answers.childCalls handle := by
  have hnode : r.nodes[handle.index]? = ((sitesOf d.clients)[handle.index]?).map fun s =>
      ⟨s.call.spec, (clientsOf d.clients).idxOf s.client,
        (childPlaces (placements (clientsOf d.clients) (sitesOf d.clients))
          handle.index).toArray⟩ := by
    rw [recorded.eq, getElem?_nodes_arrangement, placements, List.getElem?_map, Option.map_map]
    rfl
  simp only [answers, Document.answers, hnode]
  cases hs : (sitesOf d.clients)[handle.index]? with
  | none => rfl
  | some s => simp only [Option.map_some, ← recorded.map_childPlaces hs]

theorem Recorded.answers_eq
    (recorded : Recorded d.modules (clientsOf d.clients) (sitesOf d.clients) r) :
    r.answers = d.answers := by
  calc r.answers
      = ⟨r.answers.clients, r.answers.calls, r.answers.childCalls⟩ := rfl
    _ = ⟨d.answers.clients, d.answers.calls, d.answers.childCalls⟩ := by
      rw [recorded.answers_clients, funext recorded.answers_calls,
        funext recorded.answers_childCalls]

theorem Recorded.gives {σ : Type}
    (recorded : Recorded d.modules (clientsOf d.clients) (sitesOf d.clients) r) :
    (r.reader : Reader σ).Gives d.answers := by
  rw [← recorded.answers_eq]
  exact r.reader_gives

/-- The recording of a document is the tree that its lists describe: as many calls, each
    with its number as its handle, and the answers that can be read off the document. -/
theorem ofDocument_tree (h : ofDocument d = .ok r) :
    r.callCount = (d.clients.map fun e => e.calls.length).sum ∧
      (∀ earlier entry later before call after, d.clients = earlier ++ entry :: later →
        entry.calls = before ++ call :: after →
          (sitesOf d.clients)[(earlier.map fun e => e.calls.length).sum + before.length]? =
              some ⟨earlier.length, entry.client, call⟩ ∧
            r.recordAt ((earlier.map fun e => e.calls.length).sum + before.length) =
              d.record call.spec
                ((earlier.map fun e => e.calls.length).sum + before.length)) ∧
      ∀ σ : Type, (r.reader : Reader σ).Gives d.answers ∧
        (r.reader : Reader σ).modules.Lists (.ok (d.modules.map .ok)) := by
  have recorded := recorded_of_ok h
  refine ⟨?_, ?_, ?_⟩
  · rw [callCount, recorded.eq, size_nodes_arrangement, placements, List.length_map,
      length_sitesOf]
  · intro earlier entry later before call after hentries hcalls
    have hsite := getElem?_sitesOf earlier later hcalls
    rw [← hentries] at hsite
    exact ⟨hsite, recorded.recordAt_eq hsite⟩
  · intro σ
    refine ⟨recorded.gives, ?_⟩
    apply Read.lists_answer
    have hmodules : r.modules.toList = d.modules := by
      rw [recorded.eq]
      rfl
    rw [hmodules]
    exact Listing.gives_ofList _

/-- A document with two entries for one client, a module that is listed twice and a call of
    no known module. -/
def splitClient : Document where
  version := "1.0"
  modules := [{ name := "nt", path := "old" }, { name := "nt", path := "new" }]
  clients := [
    { client := ⟨4, 8⟩
      calls := [{ id := 7, spec := { functionName := "f", moduleName := "nt" } },
        { id := 9, parent := some 7, spec := { functionName := "g", moduleName := "gone" } }] },
    { client := ⟨4, 8⟩
      calls := [{ id := 9, spec := { functionName := "h", moduleName := "nt" } },
        { id := 7, parent := some 9, spec := { functionName := "k", moduleName := "nt" } }] }]

/-- Identifiers are told apart by their entries, the last module of a name counts, and a call
    of no known module is an error in its place. -/
theorem ofDocument_tree_splitClient :
    ∃ r, ofDocument splitClient = .ok r ∧ r.callCount = 4 ∧
      ((r.reader : Reader Unit).calls ⟨4, 8⟩).Lists
        (.ok [.ok ⟨"f", "nt", "new", .normal, .normal, 0, 0, 0, 0, ⟨0⟩⟩,
          .ok ⟨"h", "nt", "new", .normal, .normal, 0, 0, 0, 0, ⟨2⟩⟩]) ∧
      ((r.reader : Reader Unit).childCalls ⟨0⟩).Lists
        (.ok [.error (.cannotRead (.unknownModule ⟨1⟩ "g" "gone"))]) ∧
      ((r.reader : Reader Unit).childCalls ⟨2⟩).Lists
        (.ok [.ok ⟨"k", "nt", "new", .normal, .normal, 0, 0, 0, 0, ⟨3⟩⟩]) := by
  have accepted : (ofDocument splitClient).toBool = true := by cbv
  obtain ⟨r, h⟩ := exists_of_toBool accepted
  obtain ⟨hcount, -, hanswers⟩ := ofDocument_tree h
  obtain ⟨answers, -⟩ := hanswers Unit
  have roots := answers.calls ⟨4, 8⟩
  have first := answers.childCalls ⟨0⟩
  have second := answers.childCalls ⟨2⟩
  refine ⟨r, h, hcount, ?_, ?_, ?_⟩
  · exact roots
  · exact first
  · exact second

end Recording

end CallTrace
