import Mathlib.Data.List.Lex
import Mathlib.Logic.Relation
import CallTrace.Proofs.Recording.Arrangement

/-!
# Lines of descent

Above a placed call stand its parent, the parent of its parent and so on, up to a top-level
call.  Read from the top, and with the client in front, they are the position of the call in
the forests of all clients.  Positions that are compared number by number are in pre-order:
a call comes before the calls below it (`position_lt_child`), and everything below it comes
before its later siblings (`Branch.lt`).

A call is reached if no call above it is synthetic.
-/

namespace CallTrace

variable {clients : Nat} {ps : List Placement}

/-- The parent of the call at a place. -/
def parentAt (ps : List Placement) (i : Nat) : Option Nat :=
  (ps[i]?).bind Placement.parent

/-- The calls above the one at a place, innermost first.  Parents stand before their
    children. -/
def ancestors (ps : List Placement) (i : Nat) : List Nat :=
  match parentAt ps i with
  | none => []
  | some q => if q < i then q :: ancestors ps q else []

def isSyntheticAt (ps : List Placement) (i : Nat) : Bool :=
  (ps[i]?).any fun p => p.spec.entry == .synthetic

/-- No call above the one at this place is synthetic. -/
def isReached (ps : List Placement) (i : Nat) : Bool :=
  !(ancestors ps i).any (isSyntheticAt ps)

/-- The client of a call, the calls above it from the top, and the call itself. -/
def position (ps : List Placement) (i : Nat) : List Nat :=
  ((ps[i]?).map Placement.client).getD 0 :: (i :: ancestors ps i).reverse

/-! ### Ancestors -/

theorem WellPlaced.parentAt_lt (well : WellPlaced clients ps) {i q : Nat}
    (h : parentAt ps i = some q) : q < i := by
  obtain ⟨p, hp, hq⟩ := Option.bind_eq_some_iff.mp h
  exact (well.parent i p hp q hq).1

theorem ancestors_root {i : Nat} (h : parentAt ps i = none) : ancestors ps i = [] := by
  rw [ancestors, h]

theorem WellPlaced.ancestors_child (well : WellPlaced clients ps) {i q : Nat}
    (h : parentAt ps i = some q) : ancestors ps i = q :: ancestors ps q := by
  rw [ancestors, h]
  exact if_pos (well.parentAt_lt h)

/-- The calls above a call are those to which the parents lead. -/
theorem WellPlaced.mem_ancestors (well : WellPlaced clients ps) {i j : Nat} :
    j ∈ ancestors ps i ↔ Relation.TransGen (fun x y => parentAt ps x = some y) i j := by
  induction i using Nat.strongRecOn with
  | ind i ih =>
    cases hparent : parentAt ps i with
    | none =>
      rw [ancestors_root hparent]
      constructor
      · intro h
        cases h
      · intro h
        obtain ⟨q, hq, -⟩ := Relation.TransGen.head'_iff.mp h
        rw [hparent] at hq
        cases hq
    | some q =>
      have above := ih q (well.parentAt_lt hparent)
      rw [well.ancestors_child hparent, List.mem_cons, Relation.TransGen.head'_iff, above]
      constructor
      · rintro (rfl | h)
        · exact ⟨j, hparent, .refl⟩
        · exact ⟨q, hparent, h.to_reflTransGen⟩
      · rintro ⟨q', hq', h⟩
        rw [hparent] at hq'
        cases hq'
        rcases Relation.reflTransGen_iff_eq_or_transGen.mp h with h | h
        · exact .inl h
        · exact .inr h

theorem isSyntheticAt_eq_false {i : Nat} :
    isSyntheticAt ps i = false ↔ ∀ p, ps[i]? = some p → p.spec.entry = .normal := by
  rw [isSyntheticAt]
  cases ps[i]? with
  | none => simp
  | some p => cases hentry : p.spec.entry <;> simp [hentry]

/-- A call is reached if none of the calls to which the parents lead is synthetic. -/
theorem WellPlaced.isReached_iff_normal (well : WellPlaced clients ps) {i : Nat} :
    isReached ps i = true ↔ ∀ j, Relation.TransGen (fun x y => parentAt ps x = some y) i j →
      ∀ p, ps[j]? = some p → p.spec.entry = .normal := by
  rw [isReached, Bool.not_eq_true', List.any_eq_false]
  simp only [Bool.not_eq_true, isSyntheticAt_eq_false, well.mem_ancestors]

theorem isReached_root {i : Nat} (h : parentAt ps i = none) : isReached ps i = true := by
  rw [isReached, ancestors_root h]
  rfl

theorem WellPlaced.isReached_child (well : WellPlaced clients ps) {i q : Nat}
    (h : parentAt ps i = some q) :
    isReached ps i = (!isSyntheticAt ps q && isReached ps q) := by
  rw [isReached, well.ancestors_child h, List.any_cons, Bool.not_or]
  rfl

/-- The second call is a child of the first, which is normal. -/
def NormalChild (ps : List Placement) (q i : Nat) : Prop :=
  parentAt ps i = some q ∧ isSyntheticAt ps q = false

theorem NormalChild.leads {i j : Nat} (leads : Relation.ReflTransGen (NormalChild ps) i j) :
    Relation.ReflTransGen (fun q i => parentAt ps i = some q) i j :=
  Relation.ReflTransGen.mono (fun _ _ child => child.1) i j leads

/-- The calls that are reached are those to which normal calls lead from the top. -/
theorem WellPlaced.isReached_iff (well : WellPlaced clients ps) {i : Nat} (hi : i < ps.length) :
    isReached ps i = true ↔ ∃ root < ps.length, parentAt ps root = none ∧
      Relation.ReflTransGen (NormalChild ps) root i := by
  induction i using Nat.strongRecOn with
  | ind i ih =>
    cases hparent : parentAt ps i with
    | none =>
      constructor
      · intro _
        exact ⟨i, hi, hparent, .refl⟩
      · intro _
        exact isReached_root hparent
    | some q =>
      have hlt := well.parentAt_lt hparent
      have above := ih q hlt (Nat.lt_trans hlt hi)
      rw [well.isReached_child hparent, Bool.and_eq_true, Bool.not_eq_true', above]
      constructor
      · rintro ⟨hnormal, root, hroot, htop, leads⟩
        exact ⟨root, hroot, htop, leads.tail ⟨hparent, hnormal⟩⟩
      · rintro ⟨root, hroot, htop, leads⟩
        rcases Relation.ReflTransGen.cases_tail leads with rfl | ⟨q', leads', hchild, hnormal⟩
        · rw [hparent] at htop
          cases htop
        · rw [hparent] at hchild
          cases hchild
          exact ⟨hnormal, root, hroot, htop, leads'⟩

/-! ### Positions -/

theorem position_root {i : Nat} {p : Placement} (hp : ps[i]? = some p) (h : p.parent = none) :
    position ps i = [p.client, i] := by
  have hparent : parentAt ps i = none := by
    rw [parentAt, hp]
    exact h
  rw [position, ancestors_root hparent, hp]
  rfl

theorem WellPlaced.position_child (well : WellPlaced clients ps) {i q : Nat}
    (h : parentAt ps i = some q) : position ps i = position ps q ++ [i] := by
  obtain ⟨p, hp, hq⟩ := Option.bind_eq_some_iff.mp h
  have hclient := (well.parent i p hp q hq).2
  rw [position, position, well.ancestors_child h, hclient, hp]
  simp

/-- Everything to which a call leads extends its position. -/
theorem WellPlaced.position_prefix (well : WellPlaced clients ps) {n i : Nat}
    (leads : Relation.ReflTransGen (fun q i => parentAt ps i = some q) n i) :
    position ps n <+: position ps i := by
  induction leads with
  | refl => exact List.prefix_rfl
  | tail _ child ih =>
    rw [well.position_child child]
    exact ih.trans (List.prefix_append _ _)

theorem lt_append_of_ne_nil {xs ys : List Nat} (h : ys ≠ []) : xs < xs ++ ys := by
  have later : xs ++ [] < xs ++ ys := by
    apply List.append_left_lt
    cases ys with
    | nil => exact absurd rfl h
    | cons y ys => exact List.nil_lt_cons y ys
  rwa [List.append_nil] at later

/-- A call comes before everything below it. -/
theorem WellPlaced.position_lt_child (well : WellPlaced clients ps) {n c i : Nat}
    (child : parentAt ps c = some n)
    (leads : Relation.ReflTransGen (fun q i => parentAt ps i = some q) c i) :
    position ps n < position ps i := by
  obtain ⟨rest, hrest⟩ := well.position_prefix leads
  rw [← hrest, well.position_child child, List.append_assoc]
  exact lt_append_of_ne_nil (by simp)

/-- At the first number in which the positions differ, the first has the smaller one. -/
def Branch (a b : List Nat) : Prop :=
  ∃ common x y, x < y ∧ common ++ [x] <+: a ∧ common ++ [y] <+: b

theorem Branch.extend {a b a' b' : List Nat} (h : Branch a b) (ha : a <+: a') (hb : b <+: b') :
    Branch a' b' := by
  obtain ⟨common, x, y, hlt, hx, hy⟩ := h
  exact ⟨common, x, y, hlt, hx.trans ha, hy.trans hb⟩

theorem Branch.lt {a b : List Nat} (h : Branch a b) : a < b := by
  obtain ⟨common, x, y, hlt, ⟨s, rfl⟩, ⟨t, rfl⟩⟩ := h
  rw [List.append_assoc, List.append_assoc]
  apply List.append_left_lt
  exact List.cons_lt_cons_iff.mpr (.inl hlt)

end CallTrace
