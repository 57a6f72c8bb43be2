import CallTrace.Proofs.Document.Linked
import CallTrace.Proofs.Document.Sites

/-!
# Recording a document

While a document is recorded, the recording built so far is the arrangement of the sites
read so far (`Recorded`), and the table of the entry in progress finds the handle of every
identifier of the entry (`Table`).  One more call keeps both if it is linked to the calls
before it, and is refused with its fault otherwise.  So a document is recorded if it is
well-formed, and refused with its first fault otherwise (`ofDocument_cases`).
-/

namespace CallTrace.Recording

/-- The recording holds the calls at these sites, for these clients. -/
structure Recorded (modules : List Module) (clients : List Client) (sites : List Site)
    (r : Recording) : Prop where
  eq : r = arrangement modules clients (placements clients sites)
  placed : WellPlaced clients.length (placements clients sites)
  listed : ∀ s ∈ sites, s.client ∈ clients
  known : ∀ s ∈ sites, ∀ id, s.call.parent = some id → ∃ i, siteIndex? sites s.entry id = some i
  distinct : (sites.map fun s => (s.entry, s.call.id)).Nodup

/-- The table finds the handles of the calls of an entry by their identifiers. -/
def Table (sites : List Site) (entry : Nat) (handles : Handles) : Prop :=
  ∀ id : UInt64, handles[id]? = (siteIndex? sites entry id).map Handle.mk

/-! ### One call -/

section Call

variable {modules : List Module} {clients : List Client} {sites : List Site} {r : Recording}
  {handles : Handles} {entry : Nat} {client : Client} {before : List CallEntry}
  {call : CallEntry}

/-- The sites are those of earlier entries and of the calls read in this entry. -/
def InEntry (sites : List Site) (entry : Nat) (client : Client) (before : List CallEntry) : Prop :=
  ∃ earlier : List Site, (∀ s ∈ earlier, s.entry ≠ entry) ∧
    sites = earlier ++ before.map (Site.mk entry client)

theorem InEntry.mem_iff (h : InEntry sites entry client before) {s : Site} :
    s ∈ sites ∧ s.entry = entry ↔ ∃ c ∈ before, s = ⟨entry, client, c⟩ := by
  obtain ⟨earlier, hearlier, rfl⟩ := h
  constructor
  · rintro ⟨hmem, hentry⟩
    rcases List.mem_append.mp hmem with h | h
    · exact absurd hentry (hearlier s h)
    · obtain ⟨c, hc, rfl⟩ := List.mem_map.mp h
      exact ⟨c, hc, rfl⟩
  · rintro ⟨c, hc, rfl⟩
    exact ⟨List.mem_append_right _ (List.mem_map_of_mem hc), rfl⟩

theorem InEntry.append (h : InEntry sites entry client before) (call : CallEntry) :
    InEntry (sites ++ [⟨entry, client, call⟩]) entry client (before ++ [call]) := by
  obtain ⟨earlier, hearlier, rfl⟩ := h
  exact ⟨earlier, hearlier, by simp⟩

theorem InEntry.siteIndex?_eq_none_iff (h : InEntry sites entry client before) {id : UInt64} :
    siteIndex? sites entry id = none ↔ ∀ c ∈ before, c.id ≠ id := by
  rw [CallTrace.siteIndex?_eq_none_iff]
  constructor
  · intro hnone c hc
    have hs := h.mem_iff.mpr ⟨c, hc, rfl⟩
    exact hnone _ hs.1 hs.2
  · intro hnone s hs hentry
    obtain ⟨c, hc, rfl⟩ := h.mem_iff.mp ⟨hs, hentry⟩
    exact hnone c hc

theorem InEntry.exists_siteIndex? (h : InEntry sites entry client before)
    (hknown : ParentKnown before call) {id : UInt64} (hid : call.parent = some id) :
    ∃ i, siteIndex? sites entry id = some i := by
  obtain ⟨c, hc, hsame⟩ := hknown id hid
  cases hi : siteIndex? sites entry id with
  | none => exact absurd hsame (h.siteIndex?_eq_none_iff.mp hi c hc)
  | some i => exact ⟨i, rfl⟩

theorem InEntry.client_eq (h : InEntry sites entry client before) {s : Site} (hs : s ∈ sites)
    (hentry : s.entry = entry) : s.client = client := by
  obtain ⟨c, -, rfl⟩ := h.mem_iff.mp ⟨hs, hentry⟩
  rfl

/-- A parent stays where it is when further calls are read. -/
theorem placement_append {s : Site} (more : List Site)
    (known : ∀ id, s.call.parent = some id → ∃ i, siteIndex? sites s.entry id = some i) :
    placement clients (sites ++ more) s = placement clients sites s := by
  have parent : s.call.parent.bind (siteIndex? (sites ++ more) s.entry) =
      s.call.parent.bind (siteIndex? sites s.entry) := by
    cases hp : s.call.parent with
    | none => rfl
    | some id =>
      obtain ⟨i, hi⟩ := known id hp
      simp only [Option.bind_some]
      rw [hi, siteIndex?_append more hi]
  rw [placement, placement, parent]

theorem Recorded.placements_append (recorded : Recorded modules clients sites r) {s : Site}
    (known : ∀ id, s.call.parent = some id → ∃ i, siteIndex? sites s.entry id = some i) :
    placements clients (sites ++ [s]) =
      placements clients sites ++ [placement clients sites s] := by
  rw [placements, List.map_append, List.map_singleton, placement_append [s] known]
  congr 1
  apply List.map_congr_left
  intro t ht
  exact placement_append [s] (recorded.known t ht)

theorem InEntry.parent_client (h : InEntry sites entry client before) {q : Nat}
    (hq : (placement clients sites ⟨entry, client, call⟩).parent = some q) :
    ((placements clients sites)[q]?).map Placement.client = some (clients.idxOf client) := by
  obtain ⟨id, -, hid⟩ := Option.bind_eq_some_iff.mp hq
  obtain ⟨s, hs, hentry, -⟩ := site_of_siteIndex? hid
  have hsame := h.client_eq (List.mem_of_getElem? hs) hentry
  simp [placements, hs, placement, hsame]

/-- A call whose parent is known can be added. -/
theorem Recorded.addCall (recorded : Recorded modules clients sites r)
    (h : InEntry sites entry client before) (hclient : client ∈ clients)
    (known : ParentKnown before call) :
    r.addCall (clients.idxOf client)
        ((placement clients sites ⟨entry, client, call⟩).parent.map Handle.mk) call.spec =
      .ok (⟨sites.length⟩, arrangement modules clients
        (placements clients (sites ++ [⟨entry, client, call⟩]))) := by
  have hknown : ∀ id, call.parent = some id → ∃ i, siteIndex? sites entry id = some i :=
    fun id hid => h.exists_siteIndex? known hid
  rw [recorded.eq, recorded.placements_append hknown,
    ← List.length_map (placement clients sites)]
  exact addCall_arrangement recorded.placed (List.idxOf_lt_length_of_mem hclient)
    fun q hq => h.parent_client hq

/-- The recording of one more call, if it is linked to those before it. -/
theorem Recorded.append (recorded : Recorded modules clients sites r)
    (h : InEntry sites entry client before) (hclient : client ∈ clients)
    (known : ParentKnown before call) (fresh : ∀ c ∈ before, c.id ≠ call.id) :
    Recorded modules clients (sites ++ [⟨entry, client, call⟩])
      (arrangement modules clients (placements clients (sites ++ [⟨entry, client, call⟩]))) := by
  have hknown : ∀ id, call.parent = some id → ∃ i, siteIndex? sites entry id = some i :=
    fun id hid => h.exists_siteIndex? known hid
  refine ⟨rfl, ?_, ?_, ?_, ?_⟩
  · rw [recorded.placements_append hknown]
    exact recorded.placed.append (List.idxOf_lt_length_of_mem hclient)
      fun q hq => h.parent_client hq
  · intro s hs
    rcases List.mem_append.mp hs with hs | hs
    · exact recorded.listed s hs
    · rw [List.mem_singleton.mp hs]
      exact hclient
  · intro s hs id hid
    rcases List.mem_append.mp hs with hs | hs
    · obtain ⟨i, hi⟩ := recorded.known s hs id hid
      exact ⟨i, siteIndex?_append _ hi⟩
    · rw [List.mem_singleton.mp hs] at hid ⊢
      obtain ⟨i, hi⟩ := hknown id hid
      exact ⟨i, siteIndex?_append _ hi⟩
  · rw [List.map_append, List.nodup_append]
    refine ⟨recorded.distinct, by simp, ?_⟩
    intro key hkey other hother hsame
    obtain ⟨s, hs, rfl⟩ := List.mem_map.mp hkey
    simp only [List.map_singleton, List.mem_singleton] at hother
    subst hother
    simp only [Prod.mk.injEq] at hsame
    obtain ⟨c, hc, rfl⟩ := h.mem_iff.mp ⟨hs, hsame.1⟩
    exact fresh c hc hsame.2

theorem Table.parentHandle_known (table : Table sites entry handles)
    (h : InEntry sites entry client before) (known : ParentKnown before call)
    (clients : List Client) :
    parentHandle client handles call =
      .ok ((placement clients sites ⟨entry, client, call⟩).parent.map Handle.mk) := by
  rw [parentHandle, placement]
  cases hp : call.parent with
  | none => rfl
  | some id =>
    obtain ⟨i, hi⟩ := h.exists_siteIndex? known hp
    simp only [table id, Option.bind_some, hi, Option.map_some]

theorem Table.parentHandle_unknown (table : Table sites entry handles)
    (h : InEntry sites entry client before) {parent : UInt64} (names : call.parent = some parent)
    (unknown : ∀ c ∈ before, c.id ≠ parent) :
    parentHandle client handles call = .error (.parentUnknown client call.id parent) := by
  have hnone := h.siteIndex?_eq_none_iff.mpr unknown
  simp only [parentHandle, names, table parent, hnone, Option.map_none]

theorem Table.contains_iff (table : Table sites entry handles)
    (h : InEntry sites entry client before) (id : UInt64) :
    handles.contains id = true ↔ ∃ c ∈ before, c.id = id := by
  rw [Std.HashMap.contains_eq_isSome_getElem?, table id, Option.isSome_map]
  cases hi : siteIndex? sites entry id with
  | none =>
    have := h.siteIndex?_eq_none_iff.mp hi
    simpa using this
  | some i =>
    simp only [Option.isSome_some, true_iff]
    by_contra absent
    have := h.siteIndex?_eq_none_iff.mpr fun c hc hid => absent ⟨c, hc, hid⟩
    rw [hi] at this
    cases this

theorem Table.insert (table : Table sites entry handles)
    (h : InEntry sites entry client before) (fresh : ∀ c ∈ before, c.id ≠ call.id) :
    Table (sites ++ [⟨entry, client, call⟩]) entry
      (handles.insert call.id ⟨sites.length⟩) := by
  intro id
  rw [Std.HashMap.getElem?_insert]
  by_cases hid : call.id = id
  · subst hid
    have hnone := h.siteIndex?_eq_none_iff.mpr fresh
    unfold siteIndex? at hnone ⊢
    rw [List.findIdx?_append, hnone]
    simp
  · rw [if_neg (by simpa using hid), table id]
    unfold siteIndex?
    rw [List.findIdx?_append]
    simp [hid]

/-- A call that is linked to those before it is added to the recording and the table. -/
theorem addCallEntry_linked (recorded : Recorded modules clients sites r)
    (table : Table sites entry handles) (h : InEntry sites entry client before)
    (hclient : client ∈ clients) (known : ParentKnown before call)
    (fresh : ∀ c ∈ before, c.id ≠ call.id) :
    ∃ r' handles', addCallEntry client (clients.idxOf client) r handles call = .ok (r', handles') ∧
      Recorded modules clients (sites ++ [⟨entry, client, call⟩]) r' ∧
      Table (sites ++ [⟨entry, client, call⟩]) entry handles' := by
  have hcontains : handles.contains call.id = false := by
    rw [Bool.eq_false_iff]
    intro hmem
    obtain ⟨c, hc, hid⟩ := (table.contains_iff h call.id).mp hmem
    exact fresh c hc hid
  refine ⟨_, handles.insert call.id ⟨sites.length⟩, ?_, recorded.append h hclient known fresh,
    table.insert h fresh⟩
  rw [addCallEntry, table.parentHandle_known h known clients]
  simp only [recorded.addCall h hclient known, hcontains, Bool.false_eq_true, if_false]

/-- A call that is not linked to those before it is refused with its fault. -/
theorem addCallEntry_fault (recorded : Recorded modules clients sites r)
    (table : Table sites entry handles) (h : InEntry sites entry client before)
    (hclient : client ∈ clients) {fault : DocumentFault}
    (hfault : CallFault client before call fault) :
    addCallEntry client (clients.idxOf client) r handles call = .error fault := by
  cases hfault with
  | parentUnknown names unknown =>
    rw [addCallEntry, table.parentHandle_unknown h names unknown]
  | callRepeated known repeated =>
    -- The call is added before its identifier is looked up.
    have hcontains := (table.contains_iff h call.id).mpr repeated
    rw [addCallEntry, table.parentHandle_known h known clients]
    simp only [recorded.addCall h hclient known, hcontains, if_true]

end Call

/-! ### All calls of an entry -/

/-- The calls of an entry are added if they are linked; otherwise the fault of the first
    that is not linked to those before it is reported. -/
theorem addCallEntries_outcome {modules : List Module} {clients : List Client} {entry : Nat}
    {client : Client} (hclient : client ∈ clients) {calls before : List CallEntry}
    {sites : List Site} {r : Recording} {handles : Handles}
    (recorded : Recorded modules clients sites r) (table : Table sites entry handles)
    (h : InEntry sites entry client before) (linked : Linked before) :
    (∃ r', addCallEntries client (clients.idxOf client) r handles calls = .ok r' ∧
        Linked (before ++ calls) ∧
        Recorded modules clients (sites ++ calls.map (Site.mk entry client)) r') ∨
      ∃ front call rear fault, calls = front ++ call :: rear ∧ Linked (before ++ front) ∧
        CallFault client (before ++ front) call fault ∧
        addCallEntries client (clients.idxOf client) r handles calls = .error fault := by
  induction calls generalizing before sites r handles with
  | nil =>
    left
    refine ⟨r, rfl, ?_, ?_⟩
    · rwa [List.append_nil]
    · rwa [List.map_nil, List.append_nil]
  | cons call calls ih =>
    by_cases hcall : ParentKnown before call ∧ ∀ c ∈ before, c.id ≠ call.id
    · obtain ⟨known, fresh⟩ := hcall
      obtain ⟨r', handles', hadd, recorded', table'⟩ :=
        addCallEntry_linked recorded table h hclient known fresh
      have linked' := linked_append_singleton.mpr ⟨linked, known, fresh⟩
      rcases ih recorded' table' (h.append call) linked' with
        ⟨r'', hrest, hlinked, recorded''⟩ | ⟨front, c, rear, fault, rfl, hlinked, hfault, hrest⟩
      · left
        refine ⟨r'', ?_, ?_, ?_⟩
        · rw [addCallEntries, hadd]
          exact hrest
        · rwa [List.append_cons]
        · rwa [List.map_cons, List.append_cons]
      · right
        refine ⟨call :: front, c, rear, fault, rfl, ?_, ?_, ?_⟩
        · rwa [List.append_cons]
        · rwa [List.append_cons]
        · rw [addCallEntries, hadd]
          exact hrest
    · right
      obtain ⟨fault, hfault⟩ := exists_callFault client hcall
      refine ⟨[], call, calls, fault, rfl, ?_, ?_, ?_⟩
      · rwa [List.append_nil]
      · rwa [List.append_nil]
      · rw [addCallEntries, addCallEntry_fault recorded table h hclient hfault]

/-! ### All entries -/

/-- A client that is met again changes nothing; a new one is added. -/
theorem Recorded.addClient {modules : List Module} {entries : List ClientEntry} {r : Recording}
    (recorded : Recorded modules (clientsOf entries) (sitesOf entries) r) (entry : ClientEntry) :
    ∃ r', r.addClient entry.client =
        ((clientsOf (entries ++ [entry])).idxOf entry.client, r') ∧
      Recorded modules (clientsOf (entries ++ [entry])) (sitesOf entries) r' := by
  have hclients := clientsOf_append_singleton entries entry
  have hindex : (clientsOf (entries ++ [entry])).idxOf entry.client =
      (clientsOf entries).idxOf entry.client := by
    rw [hclients]
    by_cases hmem : entry.client ∈ clientsOf entries
    · rw [if_pos hmem]
    · rw [if_neg hmem, List.idxOf_append, if_neg hmem, List.idxOf_eq_length hmem]
      simp
  have hprefix : clientsOf entries <+: clientsOf (entries ++ [entry]) := by
    rw [hclients]
    split
    · exact List.prefix_rfl
    · exact List.prefix_append _ _
  have hplacements : placements (clientsOf (entries ++ [entry])) (sitesOf entries) =
      placements (clientsOf entries) (sitesOf entries) := by
    apply List.map_congr_left
    intro s hs
    rw [placement, placement, hprefix.idxOf_eq_of_mem (recorded.listed s hs)]
  refine ⟨arrangement modules (clientsOf (entries ++ [entry]))
    (placements (clientsOf entries) (sitesOf entries)), ?_, ?_, ?_, ?_, ?_, ?_⟩
  · rw [recorded.eq, addClient_arrangement recorded.placed, hindex, hclients]
  · rw [hplacements]
  · rw [hplacements]
    exact recorded.placed.mono hprefix.length_le
  · intro s hs
    exact hprefix.subset (recorded.listed s hs)
  · exact recorded.known
  · exact recorded.distinct

theorem addClientEntry_outcome {modules : List Module} {entries : List ClientEntry}
    {r : Recording} (recorded : Recorded modules (clientsOf entries) (sitesOf entries) r)
    (entry : ClientEntry) :
    (∃ r', addClientEntry r entry = .ok r' ∧ Linked entry.calls ∧
        Recorded modules (clientsOf (entries ++ [entry])) (sitesOf (entries ++ [entry])) r') ∨
      ∃ before call after fault, entry.calls = before ++ call :: after ∧ Linked before ∧
        CallFault entry.client before call fault ∧ addClientEntry r entry = .error fault := by
  obtain ⟨r', hadd, recorded'⟩ := recorded.addClient entry
  have hclient : entry.client ∈ clientsOf (entries ++ [entry]) :=
    mem_clientsOf.mpr ⟨entry, by simp, rfl⟩
  have hentry : ∀ s ∈ sitesOf entries, s.entry ≠ entries.length :=
    fun s hs => Nat.ne_of_lt (entry_lt_of_mem_sitesOf hs)
  have table : Table (sitesOf entries) entries.length ∅ := by
    intro id
    rw [siteIndex?_eq_none_iff.mpr fun s hs hsame => absurd hsame (hentry s hs)]
    simp
  have h : InEntry (sitesOf entries) entries.length entry.client [] :=
    ⟨sitesOf entries, hentry, by simp⟩
  rw [addClientEntry, hadd, sitesOf_append_singleton]
  exact addCallEntries_outcome hclient recorded' table h .nil

theorem foldlM_addClientEntry_outcome {modules : List Module} {entries : List ClientEntry}
    {r : Recording} (recorded : Recorded modules (clientsOf entries) (sitesOf entries) r)
    (more : List ClientEntry) :
    (∃ r', more.foldlM addClientEntry r = .ok r' ∧ (∀ entry ∈ more, Linked entry.calls) ∧
        Recorded modules (clientsOf (entries ++ more)) (sitesOf (entries ++ more)) r') ∨
      ∃ earlier entry later before call after fault, more = earlier ++ entry :: later ∧
        (∀ e ∈ earlier, Linked e.calls) ∧ entry.calls = before ++ call :: after ∧
        Linked before ∧ CallFault entry.client before call fault ∧
        more.foldlM addClientEntry r = .error fault := by
  induction more generalizing entries r with
  | nil =>
    left
    refine ⟨r, rfl, by simp, ?_⟩
    rwa [List.append_nil]
  | cons entry more ih =>
    rw [List.foldlM_cons]
    rcases addClientEntry_outcome recorded entry with
      ⟨r', hadd, linked, recorded'⟩ | ⟨before, call, after, fault, hcalls, linked, hfault, hadd⟩
    · rw [hadd]
      rcases ih recorded' with
        ⟨r'', hrest, hlinked, recorded''⟩ |
        ⟨earlier, e, later, before, call, after, fault, rfl, hlinked, hcalls, hbefore, hfault,
          hrest⟩
      · left
        refine ⟨r'', hrest, ?_, ?_⟩
        · intro e he
          rcases List.mem_cons.mp he with rfl | he
          · exact linked
          · exact hlinked e he
        · rwa [List.append_cons]
      · right
        refine ⟨entry :: earlier, e, later, before, call, after, fault, rfl, ?_, hcalls, hbefore,
          hfault, hrest⟩
        intro x hx
        rcases List.mem_cons.mp hx with rfl | hx
        · exact linked
        · exact hlinked x hx
    · right
      rw [hadd]
      exact ⟨[], entry, more, before, call, after, fault, rfl, by simp, hcalls, linked, hfault,
        rfl⟩

theorem foldl_addModule (modules : List Module) :
    modules.foldl addModule empty = arrangement modules [] [] := by
  have general : ∀ (done : List Module),
      modules.foldl addModule (arrangement done [] []) = arrangement (done ++ modules) [] [] := by
    induction modules with
    | nil =>
      intro done
      rw [List.append_nil, List.foldl_nil]
    | cons m modules ih =>
      intro done
      rw [List.foldl_cons, addModule_arrangement, ih, List.append_assoc, List.singleton_append]
  exact general []

/-- A well-formed document is recorded at its sites; any other is refused with its first
    fault. -/
theorem ofDocument_cases (d : Document) :
    (∃ r, ofDocument d = .ok r ∧ d.WellFormed ∧
        Recorded d.modules (clientsOf d.clients) (sitesOf d.clients) r) ∨
      ∃ fault, ofDocument d = .error fault ∧ d.FirstFault fault := by
  have start : Recorded d.modules (clientsOf []) (sitesOf []) (d.modules.foldl addModule empty) :=
    ⟨foldl_addModule d.modules, .nil, by simp, by simp, by simp⟩
  cases hversion : checkVersion d.version with
  | error fault =>
    right
    exact ⟨.version fault, by rw [ofDocument, hversion], .version hversion⟩
  | ok accepted =>
    rw [ofDocument, hversion]
    rcases foldlM_addClientEntry_outcome start d.clients with
      ⟨r, hr, linked, recorded⟩ |
      ⟨earlier, entry, later, before, call, after, fault, hentries, hearlier, hcalls, hbefore,
        hfault, hr⟩
    · left
      exact ⟨r, hr, ⟨hversion, linked⟩, recorded⟩
    · right
      exact ⟨fault, hr, .call hversion hentries hearlier hcalls hbefore hfault⟩

theorem recorded_of_ok {d : Document} {r : Recording} (h : ofDocument d = .ok r) :
    Recorded d.modules (clientsOf d.clients) (sitesOf d.clients) r := by
  rcases ofDocument_cases d with ⟨r', hr, -, recorded⟩ | ⟨fault, hfault, -⟩
  · rw [h] at hr
    cases hr
    exact recorded
  · rw [h] at hfault
    cases hfault

theorem exists_ofDocument_iff {d : Document} : (∃ r, ofDocument d = .ok r) ↔ d.WellFormed := by
  rcases ofDocument_cases d with ⟨r, hr, wellFormed, -⟩ | ⟨fault, hr, hfault⟩
  · exact ⟨fun _ => wellFormed, fun _ => ⟨r, hr⟩⟩
  · constructor
    · rintro ⟨r, h⟩
      rw [hr] at h
      cases h
    · intro wellFormed
      exact absurd wellFormed hfault.not_wellFormed

theorem ofDocument_eq_error_iff {d : Document} {fault : DocumentFault} :
    ofDocument d = .error fault ↔ d.FirstFault fault := by
  rcases ofDocument_cases d with ⟨r, hr, wellFormed, -⟩ | ⟨first, hr, hfirst⟩
  · constructor
    · intro h
      rw [hr] at h
      cases h
    · intro hfault
      exact absurd wellFormed hfault.not_wellFormed
  · constructor
    · intro h
      rw [hr] at h
      cases h
      exact hfirst
    · intro hfault
      rw [hr, hfirst.unique hfault]

theorem exists_of_toBool {d : Document} (h : (ofDocument d).toBool = true) :
    ∃ r, ofDocument d = .ok r := by
  cases hr : ofDocument d with
  | error fault =>
    rw [hr] at h
    cases h
  | ok r => exact ⟨r, rfl⟩

/-- Recording a document succeeds exactly if it is well-formed and otherwise reports its
    first fault.  No document puts a call where it cannot be added. -/
theorem ofDocument_outcome (d : Document) :
    ((∃ r, ofDocument d = .ok r) ↔ d.WellFormed) ∧
      (∀ fault, ofDocument d = .error fault ↔ d.FirstFault fault) ∧
      ∀ misplaced, ofDocument d ≠ .error (.misplaced misplaced) := by
  refine ⟨exists_ofDocument_iff, fun fault => ofDocument_eq_error_iff, ?_⟩
  intro misplaced h
  cases ofDocument_eq_error_iff.mp h with
  | call _ _ _ _ _ hfault => cases hfault

end CallTrace.Recording
