import CallTrace.Proofs.Walk.Log
import CallTrace.Proofs.Walk.Requests

/-!
# Walks that come to an end

A walk that has nothing more to deliver, or that has delivered a failure, is over
(`next_over`).  So a walk that has once answered with nothing has delivered some calls, perhaps
a failure after them, and nothing else however often it is asked (`Walk.exists_delivers`).  This
holds of every reader, also of one that answers differently each time.
-/

namespace CallTrace

open Delivery

variable {σ : Type} {r : Reader σ} {store : StoreId} {w : Walk σ} {s : σ} {d : Delivery}

theorem advance_over {opened : Pile σ} {clients : Listing σ Client}
    (h : ∀ call, (Walk.advance r store opened clients s).1.1 ≠ some (.ok call)) :
    (Walk.advance r store opened clients s).1.2 = .over := by
  fun_induction Walk.advance r store opened clients s with
  | case1 opened clients s item stage s' hturn =>
    cases Walk.turns_of_eq hturn with
    | ended none_open => rfl
    | unlisted none_open failure => rfl
    | unopened client none_open next refused => rfl
    | unread top failure => rfl
    | synthetic top next entry => exact absurd rfl (h _)
    | childrenRefused top next entry refused => exact absurd rfl (h _)
    | normal top next entry granted => exact absurd rfl (h _)
  | case2 opened clients s opened' clients' s' hturn ih => exact ih h

/-- A walk that does not deliver a call is over. -/
theorem next_over (h : ∀ call, (w.next r store s).1 ≠ some (.ok call)) :
    (w.next r store s).2.1.stage = .over := by
  rcases w with ⟨⟨opened, clients⟩ | ⟨e, depth⟩ | _, visited⟩
  · exact advance_over h
  · rfl
  · rfl

/-- An answer that is no call is the last thing that a walk delivers. -/
theorem Walk.delivers_last (first : (w.next r store s).1 = d.items.head?)
    (noCalls : d.calls = []) : w.Delivers r store s d := by
  obtain ⟨calls, failure⟩ := d
  cases noCalls
  refine Walk.delivers_iff_next.mpr ⟨first, ?_⟩
  have ended : (w.next r store s).2.1.stage = .over := by
    apply next_over
    intro call hcall
    rw [first] at hcall
    cases failure <;> cases hcall
  generalize (w.next r store s).2.1 = later at ended
  obtain ⟨stage, visited⟩ := later
  cases ended
  exact delivers_over r store _ visited

/-- A walk that has once answered with nothing delivers some items, whatever its reader of finite
    listings does. -/
theorem Walk.exists_delivers {n : Nat} (isOver : w.answer r store n s = none) :
    ∃ d, w.Delivers r store s d := by
  induction n generalizing w s with
  | zero => exact ⟨nothing, delivers_last isOver rfl⟩
  | succ n ih =>
    obtain ⟨later, delivers⟩ :=
      ih (w := (w.next r store s).2.1) (s := (w.next r store s).2.2) isOver
    cases first : (w.next r store s).1 with
    | none => exact ⟨nothing, delivers_last first rfl⟩
    | some item =>
      cases item with
      | error e => exact ⟨failed e, delivers_last first rfl⟩
      | ok call => exact ⟨cons call later, Walk.delivers_iff_next.mpr ⟨first, delivers⟩⟩

/-! ### What has been delivered by then -/

theorem Walk.Delivers.answer (delivers : w.Delivers r store s d) (n : Nat) :
    w.answer r store n s = d.items[n]? := by
  have whole := delivers (n + 1)
  rw [Walk.answers_succ_last, List.range_succ, List.map_append] at whole
  have last := (List.append_inj' whole rfl).2
  exact (List.cons.inj last).1

theorem Walk.Delivers.delivered (delivers : w.Delivers r store s d) (n : Nat) :
    w.delivered r store n s = d.items.take n := by
  induction n with
  | zero => rfl
  | succ n ih => rw [Walk.delivered_succ, ih, delivers.answer, List.take_add_one]

/-- When a walk has answered with nothing, it has delivered everything. -/
theorem Walk.Delivers.delivered_all (delivers : w.Delivers r store s d) {n : Nat}
    (isOver : w.answer r store n s = none) : w.delivered r store n s = d.items := by
  rw [delivers.answer, List.getElem?_eq_none_iff] at isOver
  rw [delivers.delivered, List.take_of_length_le isOver]

end CallTrace
