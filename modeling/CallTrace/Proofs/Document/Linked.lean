import Mathlib.Data.List.Basic
import CallTrace.Recording.OfDocument

/-!
# Documents whose calls are linked

The calls of an entry are linked if each names a parent that stands before it, or none, and
no identifier is used twice.  A document that is not fit to be recorded has a first fault:
its version, or else the first call, in the order of the document, that is not linked to
those before it in its entry.  `Document.FirstFault` says which fault this is without
reference to how it is found, and there is only one (`Document.FirstFault.unique`).
-/

namespace CallTrace

/-- The parent that a call names, if it names one, is the identifier of an earlier call. -/
def ParentKnown (before : List CallEntry) (call : CallEntry) : Prop :=
  ∀ parent, call.parent = some parent → ∃ earlier ∈ before, earlier.id = parent

/-- The parents of the calls stand before them, and their identifiers are distinct. -/
structure Linked (calls : List CallEntry) : Prop where
  parents : ∀ before call after, calls = before ++ call :: after → ParentKnown before call
  distinct : (calls.map CallEntry.id).Nodup

/-- What is wrong with a call after those before it in its entry.  The parent is looked at
    before the identifier. -/
inductive CallFault (client : Client) (before : List CallEntry) (call : CallEntry) :
    DocumentFault → Prop where
  | parentUnknown {parent : UInt64} (names : call.parent = some parent)
      (unknown : ∀ earlier ∈ before, earlier.id ≠ parent) :
      CallFault client before call (.parentUnknown client call.id parent)
  | callRepeated (known : ParentKnown before call) (repeated : ∃ earlier ∈ before,
      earlier.id = call.id) : CallFault client before call (.callRepeated client call.id)

namespace Document

/-- The document has an accepted version, and the calls of each entry are linked. -/
def WellFormed (d : Document) : Prop :=
  checkVersion d.version = .ok () ∧ ∀ entry ∈ d.clients, Linked entry.calls

/-- The first fault of a document: its version, or the first call that is not linked to
    the calls before it. -/
inductive FirstFault (d : Document) : DocumentFault → Prop where
  | version {fault : VersionFault} (refused : checkVersion d.version = .error fault) :
      FirstFault d (.version fault)
  | call {earlier later : List ClientEntry} {entry : ClientEntry}
      {before after : List CallEntry} {call : CallEntry} {fault : DocumentFault}
      (accepted : checkVersion d.version = .ok ())
      (entries : d.clients = earlier ++ entry :: later)
      (earlierLinked : ∀ e ∈ earlier, Linked e.calls)
      (calls : entry.calls = before ++ call :: after) (beforeLinked : Linked before)
      (first : CallFault entry.client before call fault) : FirstFault d fault

end Document

/-! ### One more call -/

theorem Linked.nil : Linked [] :=
  ⟨by simp, by simp⟩

theorem Linked.of_append {calls more : List CallEntry} (h : Linked (calls ++ more)) :
    Linked calls := by
  constructor
  · intro before call after hsplit
    apply h.parents before call (after ++ more)
    rw [hsplit, List.append_assoc, List.cons_append]
  · have := h.distinct
    rw [List.map_append, List.nodup_append] at this
    exact this.1

theorem linked_append_singleton {before : List CallEntry} {call : CallEntry} :
    Linked (before ++ [call]) ↔
      Linked before ∧ ParentKnown before call ∧ ∀ earlier ∈ before, earlier.id ≠ call.id := by
  constructor
  · intro h
    refine ⟨h.of_append, h.parents before call [] rfl, ?_⟩
    intro earlier hmem hsame
    have := h.distinct
    rw [List.map_append, List.nodup_append] at this
    exact this.2.2 earlier.id (List.mem_map_of_mem hmem) call.id (by simp) hsame
  · rintro ⟨linked, known, fresh⟩
    constructor
    · intro front c rear hsplit
      rcases List.eq_nil_or_concat rear with rfl | ⟨rear, last, rfl⟩
      · obtain ⟨rfl, hc⟩ := List.append_inj' hsplit rfl
        cases hc
        exact known
      · have hlast : before ++ [call] = (front ++ c :: rear) ++ [last] := by
          simpa using hsplit
        obtain ⟨hbefore, -⟩ := List.append_inj' hlast rfl
        exact linked.parents front c rear hbefore
    · rw [List.map_append, List.nodup_append]
      refine ⟨linked.distinct, by simp, ?_⟩
      intro id hid other hother
      obtain ⟨earlier, hmem, rfl⟩ := List.mem_map.mp hid
      simp only [List.map_cons, List.map_nil, List.mem_singleton] at hother
      subst hother
      exact fresh earlier hmem

theorem CallFault.not_linked {client : Client} {before : List CallEntry} {call : CallEntry}
    {fault : DocumentFault} (h : CallFault client before call fault) :
    ¬ Linked (before ++ [call]) := by
  intro linked
  obtain ⟨-, known, fresh⟩ := linked_append_singleton.mp linked
  cases h with
  | parentUnknown names unknown =>
    obtain ⟨earlier, hmem, hid⟩ := known _ names
    exact unknown earlier hmem hid
  | callRepeated _ repeated =>
    obtain ⟨earlier, hmem, hid⟩ := repeated
    exact fresh earlier hmem hid

theorem CallFault.unique {client : Client} {before : List CallEntry} {call : CallEntry}
    {fault fault' : DocumentFault} (h : CallFault client before call fault)
    (h' : CallFault client before call fault') : fault = fault' := by
  cases h with
  | parentUnknown names unknown =>
    cases h' with
    | parentUnknown names' _ =>
      rw [names] at names'
      cases names'
      rfl
    | callRepeated known _ =>
      obtain ⟨earlier, hmem, hid⟩ := known _ names
      exact absurd hid (unknown earlier hmem)
  | callRepeated known _ =>
    cases h' with
    | parentUnknown names unknown =>
      obtain ⟨earlier, hmem, hid⟩ := known _ names
      exact absurd hid (unknown earlier hmem)
    | callRepeated _ _ => rfl

/-- A call that is not linked to those before it has a fault. -/
theorem exists_callFault (client : Client) {before : List CallEntry} {call : CallEntry}
    (h : ¬ (ParentKnown before call ∧ ∀ earlier ∈ before, earlier.id ≠ call.id)) :
    ∃ fault, CallFault client before call fault := by
  by_cases known : ParentKnown before call
  · have repeated : ∃ earlier ∈ before, earlier.id = call.id := by
      by_contra absent
      exact h ⟨known, fun earlier hmem hid => absent ⟨earlier, hmem, hid⟩⟩
    exact ⟨_, .callRepeated known repeated⟩
  · unfold ParentKnown at known
    push Not at known
    obtain ⟨parent, names, unknown⟩ := known
    exact ⟨_, .parentUnknown names unknown⟩

/-! ### The first of all -/

/-- Of two ways to single out a member, they agree or one member stands before the other. -/
theorem split_cases {α : Type} {before before' after after' : List α} {x x' : α}
    (h : before ++ x :: after = before' ++ x' :: after') :
    (before = before' ∧ x = x') ∨ (∃ between, before' = before ++ [x] ++ between) ∨
      ∃ between, before = before' ++ [x'] ++ between := by
  rcases List.append_eq_append_iff.mp h with ⟨between, rfl, htail⟩ | ⟨between, rfl, htail⟩
  · cases between with
    | nil =>
      cases htail
      exact .inl ⟨(List.append_nil before).symm, rfl⟩
    | cons y between =>
      cases htail
      exact .inr (.inl ⟨between, by simp⟩)
  · cases between with
    | nil =>
      cases htail
      exact .inl ⟨List.append_nil before', rfl⟩
    | cons y between =>
      cases htail
      exact .inr (.inr ⟨between, by simp⟩)

theorem CallFault.not_linked_calls {client : Client} {before after : List CallEntry}
    {call : CallEntry} {fault : DocumentFault} (h : CallFault client before call fault) :
    ¬ Linked (before ++ call :: after) := by
  intro linked
  rw [List.append_cons] at linked
  exact h.not_linked linked.of_append

namespace Document.FirstFault

variable {d : Document} {fault fault' : DocumentFault}

theorem not_wellFormed (h : d.FirstFault fault) : ¬ d.WellFormed := by
  rintro ⟨accepted, linked⟩
  cases h with
  | version refused =>
    rw [accepted] at refused
    cases refused
  | @call _ _ entry _ _ _ _ _ entries _ calls _ first =>
    have := linked entry (by rw [entries]; simp)
    rw [calls] at this
    exact first.not_linked_calls this

theorem unique (h : d.FirstFault fault) (h' : d.FirstFault fault') : fault = fault' := by
  cases h with
  | version refused =>
    cases h' with
    | version refused' =>
      rw [refused] at refused'
      cases refused'
      rfl
    | call accepted _ _ _ _ _ =>
      rw [refused] at accepted
      cases accepted
  | @call earlier later entry before after call _ accepted entries earlierLinked calls
      beforeLinked first =>
    cases h' with
    | version refused =>
      rw [accepted] at refused
      cases refused
    | @call earlier' later' entry' before' after' call' _ _ entries' earlierLinked' calls'
        beforeLinked' first' =>
      have hentry : ¬ Linked entry.calls := calls ▸ first.not_linked_calls
      have hentry' : ¬ Linked entry'.calls := calls' ▸ first'.not_linked_calls
      rcases split_cases (entries.symm.trans entries') with
        ⟨-, rfl⟩ | ⟨between, rfl⟩ | ⟨between, rfl⟩
      · rcases split_cases (calls.symm.trans calls') with
          ⟨rfl, rfl⟩ | ⟨between, rfl⟩ | ⟨between, rfl⟩
        · exact first.unique first'
        · exact absurd beforeLinked'.of_append first.not_linked
        · exact absurd beforeLinked.of_append first'.not_linked
      · exact absurd (earlierLinked' entry (by simp)) hentry
      · exact absurd (earlierLinked entry' (by simp)) hentry'

end Document.FirstFault

end CallTrace
