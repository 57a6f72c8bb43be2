import CallTrace.Proofs.Walk.Simulation

/-!
# Walks that are asked again and again

A walk can be asked for its next item any number of times (`Walk.after`).  If it is asked until
it is over, it gives everything that it delivers, and it has then visited as many calls as it
delivered (`drain_delivers`); it is then where a number of single questions leads
(`drain_eq_after`).
-/

namespace CallTrace

open Delivery

variable {σ : Type} {r : Reader σ} {store : StoreId} {w : Walk σ} {s : σ} {d : Delivery}

theorem Walk.visited_next (r : Reader σ) (store : StoreId) (w : Walk σ) (s : σ) :
    (w.next r store s).2.1.visited = w.visited + Walk.callsIn (w.next r store s).1 := by
  rcases w with ⟨⟨opened, clients⟩ | ⟨e, depth⟩ | _, visited⟩
  · rfl
  · rfl
  · rfl

theorem Delivery.callsIn_head (d : Delivery) :
    Walk.callsIn d.items.head? + d.rest.calls.length = d.calls.length := by
  rcases d with ⟨_ | ⟨call, calls⟩, _ | e⟩
  · rfl
  · rfl
  · exact Nat.add_comm _ _
  · exact Nat.add_comm _ _

theorem follow_delivers (delivers : w.Delivers r store s d) (visits : List Visit) :
    (w.follow r store s visits).1.map Visit.item =
        visits.reverse.map Visit.item ++ d.items ∧
      (w.follow r store s visits).2.1.visited = w.visited + d.calls.length := by
  generalize hlength : d.items.length = length
  induction length generalizing w s d visits with
  | zero =>
    have nothingLeft : d.items = [] := List.eq_nil_of_length_eq_zero hlength
    have noCalls : d.calls = [] := List.map_eq_nil_iff.mp (List.append_eq_nil_iff.mp nothingLeft).1
    have first := (Walk.delivers_iff_next.mp delivers).1
    have visited := Walk.visited_next r store w s
    rw [Walk.follow]
    rw [nothingLeft, List.head?_nil] at first
    rw [first] at visited
    generalize w.next r store s = asked at first visited
    rcases asked with ⟨_ | item, w', s'⟩
    · rw [nothingLeft, noCalls, List.append_nil]
      exact ⟨rfl, visited⟩
    · cases first
  | succ length ih =>
    obtain ⟨first, later⟩ := Walk.delivers_iff_next.mp delivers
    have visited := Walk.visited_next r store w s
    rw [Walk.follow]
    rw [first] at visited
    generalize w.next r store s = asked at first later visited
    rcases asked with ⟨_ | item, w', s'⟩
    · rw [List.head?_eq_none_iff.mp first.symm] at hlength
      cases hlength
    · have hitems : d.items = item :: d.rest.items := by
        rw [items_rest]
        exact List.eq_cons_of_mem_head? first.symm
      rw [hitems, List.length_cons, Nat.succ_inj] at hlength
      dsimp only at later visited ⊢
      obtain ⟨items, count⟩ := ih later (⟨item, w'.depth⟩ :: visits) hlength
      refine ⟨?_, ?_⟩
      · rw [items, hitems, List.reverse_cons, List.map_append, List.append_assoc]
        rfl
      · rw [count, visited, Nat.add_assoc, d.callsIn_head]

/-- A walk that is asked until it is over gives everything that it delivers. -/
theorem drain_delivers (delivers : w.Delivers r store s d) :
    (w.drain r store s).1.map Visit.item = d.items ∧
      (w.drain r store s).2.1.visited = w.visited + d.calls.length :=
  follow_delivers delivers []

/-! ### Any number of times -/

/-- A walk after it was asked for its next item `n` times. -/
def Walk.after (r : Reader σ) (store : StoreId) : Nat → Walk σ → σ → Walk σ × σ
  | 0, w, s => (w, s)
  | n + 1, w, s => (w.next r store s).2.1.after r store n (w.next r store s).2.2

/-- What a walk answers when it has been asked `n` times and is asked again. -/
def Walk.answer (r : Reader σ) (store : StoreId) (n : Nat) (w : Walk σ) (s : σ) :
    Option (Except TraceError Call) :=
  ((w.after r store n s).1.next r store (w.after r store n s).2).1

theorem Walk.after_succ (n : Nat) (w : Walk σ) (s : σ) :
    w.after r store (n + 1) s =
      ((w.after r store n s).1.next r store (w.after r store n s).2).2 := by
  induction n generalizing w s with
  | zero => rfl
  | succ n ih => exact ih (w.next r store s).2.1 (w.next r store s).2.2

theorem Walk.answers_succ_last (n : Nat) (w : Walk σ) (s : σ) :
    w.answers r store (n + 1) s = w.answers r store n s ++ [w.answer r store n s] := by
  induction n generalizing w s with
  | zero => rfl
  | succ n ih =>
    rw [Walk.answers_succ, ih, Walk.answers_succ, List.cons_append]
    rfl

/-- A walk that is asked until it is over, if that happens, is left as single questions
    leave it. -/
theorem follow_eq_after {n : Nat} (isOver : w.answer r store n s = none) (visits : List Visit) :
    ∃ m, (w.follow r store s visits).2 = w.after r store m s := by
  induction n generalizing w s visits with
  | zero =>
    refine ⟨1, ?_⟩
    change (w.next r store s).1 = none at isOver
    rw [Walk.follow, Walk.after]
    generalize w.next r store s = asked at isOver
    obtain ⟨_ | item, w', s'⟩ := asked
    · rfl
    · cases isOver
  | succ n ih =>
    change (w.next r store s).2.1.answer r store n (w.next r store s).2.2 = none at isOver
    rw [Walk.follow]
    generalize hasked : w.next r store s = asked at isOver
    obtain ⟨_ | item, w', s'⟩ := asked
    · exact ⟨1, by rw [Walk.after, hasked]; rfl⟩
    · obtain ⟨m, hm⟩ := ih isOver (⟨item, w'.depth⟩ :: visits)
      exact ⟨m + 1, by rw [Walk.after, hasked]; exact hm⟩

theorem drain_eq_after {n : Nat} (isOver : w.answer r store n s = none) :
    ∃ m, (w.drain r store s).2 = w.after r store m s :=
  follow_eq_after isOver []

end CallTrace
