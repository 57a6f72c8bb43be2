import Mathlib.Algebra.GroupWithZero.Nat
import Mathlib.Data.List.Induction
import CallTrace.Document
import CallTrace.Proofs.Recording.Arrangement

/-!
# The calls of a document in order

The calls of all entries, in the order of the document, are numbered from zero; the number
of a call is to be its handle.  A call is told by its identifier only within its entry, so
a site keeps the entry along with the call.  From the sites alone one can tell where each
call has to be placed (`placement`).
-/

namespace CallTrace

/-- A call of a document, with the number of its entry and the client of the entry. -/
structure Site where
  entry : Nat
  client : Client
  call : CallEntry
deriving DecidableEq, Repr

/-- The calls of the entries, in order. -/
def sitesOf (entries : List ClientEntry) : List Site :=
  entries.zipIdx.flatMap fun e => e.1.calls.map (Site.mk e.2 e.1.client)

/-- The clients of the entries, each once, in order of first appearance. -/
def clientsOf (entries : List ClientEntry) : List Client :=
  (entries.map ClientEntry.client).eraseDups

/-- The number of the call that an identifier stands for in an entry. -/
def siteIndex? (sites : List Site) (entry : Nat) (id : UInt64) : Option Nat :=
  sites.findIdx? fun s => s.entry == entry && s.call.id == id

/-- Where the call at a site has to be placed. -/
def placement (clients : List Client) (sites : List Site) (s : Site) : Placement where
  client := clients.idxOf s.client
  parent := s.call.parent.bind (siteIndex? sites s.entry)
  spec := s.call.spec

def placements (clients : List Client) (sites : List Site) : List Placement :=
  sites.map (placement clients sites)

@[simp] theorem sitesOf_nil : sitesOf [] = [] := rfl

theorem sitesOf_append_singleton (entries : List ClientEntry) (entry : ClientEntry) :
    sitesOf (entries ++ [entry]) =
      sitesOf entries ++ entry.calls.map (Site.mk entries.length entry.client) := by
  simp [sitesOf, List.zipIdx_append]

theorem length_sitesOf (entries : List ClientEntry) :
    (sitesOf entries).length = (entries.map fun e => e.calls.length).sum := by
  have firsts : (entries.zipIdx.map Prod.fst).map (fun e => e.calls.length) =
      entries.map fun e => e.calls.length := by
    rw [List.zipIdx_map_fst]
  rw [← firsts, List.map_map, sitesOf, List.length_flatMap]
  simp only [List.length_map]
  rfl

theorem entry_lt_of_mem_sitesOf {entries : List ClientEntry} {s : Site}
    (h : s ∈ sitesOf entries) : s.entry < entries.length := by
  obtain ⟨⟨entry, j⟩, hentry, hs⟩ := List.mem_flatMap.mp h
  obtain ⟨call, -, rfl⟩ := List.mem_map.mp hs
  exact (List.getElem?_eq_some_iff.mp (List.mk_mem_zipIdx_iff_getElem?.mp hentry)).1

/-- The sites of a document stand entry by entry. -/
theorem sitesOf_append (entries more : List ClientEntry) :
    ∃ later, sitesOf (entries ++ more) = sitesOf entries ++ later := by
  simp [sitesOf, List.zipIdx_append]

/-- The number of a call is the number of calls before it, in its entry and in earlier ones. -/
theorem getElem?_sitesOf (earlier later : List ClientEntry) {entry : ClientEntry}
    {before after : List CallEntry} {call : CallEntry}
    (h : entry.calls = before ++ call :: after) :
    (sitesOf (earlier ++ entry :: later))[(earlier.map fun e => e.calls.length).sum +
        before.length]? = some ⟨earlier.length, entry.client, call⟩ := by
  obtain ⟨rest, hrest⟩ := sitesOf_append (earlier ++ [entry]) later
  rw [List.append_cons, hrest, sitesOf_append_singleton, h, ← length_sitesOf]
  simp

theorem mem_clientsOf {entries : List ClientEntry} {client : Client} :
    client ∈ clientsOf entries ↔ ∃ entry ∈ entries, entry.client = client := by
  simp [clientsOf, List.mem_eraseDups]

theorem clientsOf_append_singleton (entries : List ClientEntry) (entry : ClientEntry) :
    clientsOf (entries ++ [entry]) =
      if entry.client ∈ clientsOf entries then clientsOf entries
      else clientsOf entries ++ [entry.client] := by
  rw [clientsOf, List.map_append, List.map_singleton]
  exact eraseDups_append_singleton _ _

theorem nodup_clientsOf (entries : List ClientEntry) : (clientsOf entries).Nodup := by
  induction entries using List.reverseRecOn with
  | nil => exact List.nodup_nil
  | append_singleton entries entry ih =>
    rw [clientsOf_append_singleton]
    by_cases h : entry.client ∈ clientsOf entries
    · rw [if_pos h]
      exact ih
    · rw [if_neg h, List.nodup_append]
      refine ⟨ih, by simp, ?_⟩
      intro client hclient other hother hsame
      rw [List.mem_singleton.mp hother] at hsame
      exact h (hsame ▸ hclient)

/-! ### Identifiers -/

section

variable {sites : List Site} {entry : Nat} {id : UInt64}

theorem siteIndex?_append (more : List Site) {i : Nat} (h : siteIndex? sites entry id = some i) :
    siteIndex? (sites ++ more) entry id = some i := by
  have := h
  unfold siteIndex? at this ⊢
  rw [List.findIdx?_append, this]
  rfl

theorem siteIndex?_eq_none_iff :
    siteIndex? sites entry id = none ↔ ∀ s ∈ sites, s.entry = entry → s.call.id ≠ id := by
  simp [siteIndex?]

theorem site_of_siteIndex? {i : Nat} (h : siteIndex? sites entry id = some i) :
    ∃ s, sites[i]? = some s ∧ s.entry = entry ∧ s.call.id = id := by
  obtain ⟨hlt, hs, -⟩ := List.findIdx?_eq_some_iff_getElem.mp h
  simp only [Bool.and_eq_true, beq_iff_eq] at hs
  exact ⟨sites[i], List.getElem?_eq_getElem hlt, hs⟩

end

end CallTrace
