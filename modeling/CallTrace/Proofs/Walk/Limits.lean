import CallTrace.Proofs.Walk.Requests

/-!
# How much a walk does for one item

However the calls of a reader are nested, also if they are nested in themselves without end, a walk
comes to its next item.  Every turn that does not deliver one either puts a listing away or takes a
client and opens a listing for it, so the height of the pile and twice the number of clients to come
together fall by one (`turn_again_height`).  That limits the turns for one item, and with them the
requests (`next_within_limit`).
-/

namespace CallTrace

variable {σ : Type}

namespace Walk

/-- Takes turns until there is an item or the walk is over, but gives up before it takes more
    turns than the limit allows. -/
def advanceWithin (r : Reader σ) (store : StoreId) : Nat → Pile σ → Listing σ Client → σ →
    Option ((Option (Except TraceError Call) × Stage σ) × σ)
  | 0, _, _, _ => none
  | limit + 1, opened, clients, s =>
    match turn r store opened clients s with
    | (.stop item stage, s) => some ((item, stage), s)
    | (.again opened clients, s) => advanceWithin r store limit opened clients s

/-- Delivers the next item, if there is one, unless this takes more turns than the limit
    allows. -/
def nextWithin (r : Reader σ) (store : StoreId) (limit : Nat) (w : Walk σ) (s : σ) :
    Option (Option (Except TraceError Call) × Walk σ × σ) :=
  match w.stage with
  | .over => some (none, w, s)
  | .refused e _ => some (some (.error e), { w with stage := .over }, s)
  | .reading opened clients =>
    (advanceWithin r store limit opened clients s).map fun ((item, stage), s) =>
      (item, ⟨stage, w.visited + callsIn item⟩, s)

/-- What a walk asks of its reader for its next item. -/
def asked (r : Reader σ) (store : StoreId) (w : Walk σ) (s : σ) : Journal :=
  (w.noted.next r.noted store ([], s)).2.2.1

end Walk

variable {r : Reader σ} {store : StoreId} {opened opened' : Pile σ}
  {clients clients' : Listing σ Client} {s s' : σ}

/-! ### Turns -/

theorem turn_again_height (h : Walk.turn r store opened clients s = (.again opened' clients', s')) :
    opened'.height + 2 * clients'.length + 1 = opened.height + 2 * clients.length := by
  have height := opened.height_eq
  cases Walk.turns_of_eq h with
  | opened client none_open next granted =>
    rw [none_open, List.length_nil] at height
    simp only [Pile.push, List.length_cons]
    omega
  | used top =>
    rw [top, List.length_cons] at height
    simp only [Pile.pop]
    omega

/-- A turn that takes a client opens it. -/
theorem Turn.Asks.clients_again {left : Nat} {added : Journal}
    (h : (Turn.again opened clients : Turn σ).Asks left added) :
    left = clients.length + added.opened.length := by
  cases h with
  | opened client => rfl
  | used => rfl

/-! ### Limits -/

theorem advanceWithin_of_stop {item : Option (Except TraceError Call)} {stage : Stage σ}
    (h : Walk.turn r store opened clients s = (.stop item stage, s')) (limit : Nat) :
    Walk.advanceWithin r store (limit + 1) opened clients s = some ((item, stage), s') := by
  simp only [Walk.advanceWithin, h]

theorem advanceWithin_of_again
    (h : Walk.turn r store opened clients s = (.again opened' clients', s')) (limit : Nat) :
    Walk.advanceWithin r store (limit + 1) opened clients s =
      Walk.advanceWithin r store limit opened' clients' s' := by
  simp only [Walk.advanceWithin, h]

/-- What is done within a limit is done within any greater one. -/
theorem advanceWithin_mono {limit limit' : Nat} (le : limit ≤ limit')
    {result : (Option (Except TraceError Call) × Stage σ) × σ}
    (h : Walk.advanceWithin r store limit opened clients s = some result) :
    Walk.advanceWithin r store limit' opened clients s = some result := by
  induction limit generalizing limit' opened clients s with
  | zero => cases h
  | succ limit ih =>
    obtain ⟨more, rfl⟩ := Nat.exists_eq_add_of_le' (Nat.le_of_lt_succ (Nat.lt_succ_of_le le))
    generalize hturn : Walk.turn r store opened clients s = next at h
    obtain ⟨⟨opened', clients'⟩ | ⟨item, stage⟩, s'⟩ := next
    · rw [advanceWithin_of_again hturn] at h
      rw [← Nat.add_assoc, advanceWithin_of_again hturn]
      exact ih (Nat.le_add_left limit more) h
    · rw [advanceWithin_of_stop hturn] at h
      rw [← Nat.add_assoc, advanceWithin_of_stop hturn, h]

/-- Two turns for every client that is opened, one for every listing that was open before, and
    one for the item are enough. -/
theorem advance_within (r : Reader σ) (store : StoreId) (opened : Pile σ)
    (clients : Listing σ Client) (s : σ) (journal : Journal) :
    ∃ added,
      (Walk.advance r.noted store opened.noted (clients.noted .client) (journal, s)).2.1 =
        journal ++ added ∧
      Walk.advanceWithin r store (opened.height + 2 * added.opened.length + 1) opened clients s =
        some (Walk.advance r store opened clients s) := by
  fun_induction Walk.advance r store opened clients s generalizing journal with
  | case1 opened clients s item stage s' hturn =>
    obtain ⟨added, -, noted⟩ := turn_noted hturn journal
    refine ⟨added, ?_, advanceWithin_of_stop hturn _⟩
    rw [Walk.advance_of_stop noted]
  | case2 opened clients s opened' clients' s' hturn ih =>
    obtain ⟨added, asks, noted⟩ := turn_noted hturn journal
    obtain ⟨more, later, within⟩ := ih (journal ++ added)
    refine ⟨added ++ more, ?_, ?_⟩
    · rw [Walk.advance_of_again noted, later, List.append_assoc]
    · have height := turn_again_height hturn
      have taken := asks.clients_again
      have limit : opened.height + 2 * (added ++ more).opened.length + 1 =
          opened'.height + 2 * more.opened.length + 1 + 1 := by
        rw [Journal.opened_append, List.length_append]
        omega
      rw [limit, advanceWithin_of_again hturn, within]

/-! ### Items -/

theorem length_normalCalls_le (items : List (Except TraceError Call)) :
    (normalCalls items).length ≤ items.length :=
  Nat.le_trans (List.length_filter_le _ _) (List.length_filterMap_le _ _)

section Next

variable (r store) (w : Walk σ) (s : σ)

theorem next_within :
    w.nextWithin r store (w.depth + 2 * (w.asked r store s).opened.length + 1) s =
      some (w.next r store s) := by
  rcases w with ⟨⟨opened, clients⟩ | ⟨e, depth⟩ | _, visited⟩
  · obtain ⟨added, journal, within⟩ := advance_within r store opened clients s []
    have asked : Walk.asked r store ⟨.reading opened clients, visited⟩ s = added := journal
    simp only [asked, Walk.nextWithin, Walk.depth, within, Option.map_some, Walk.next]
  · rfl
  · rfl

theorem nextWithin_mono {limit limit' : Nat} (le : limit ≤ limit')
    {result : Option (Except TraceError Call) × Walk σ × σ}
    (h : w.nextWithin r store limit s = some result) :
    w.nextWithin r store limit' s = some result := by
  rcases w with ⟨⟨opened, clients⟩ | ⟨e, depth⟩ | _, visited⟩
  · obtain ⟨reached, within, hreached⟩ := Option.map_eq_some_iff.mp h
    simp only [Walk.nextWithin, advanceWithin_mono le within, Option.map_some, hreached]
  · exact h
  · exact h

/-- The account of what is asked for one item. -/
theorem next_asked :
    Accounts w.stage.clientsLeft (w.next r store s).1.toList (w.next r store s).2.1.stage
        (w.asked r store s) ∧
      w.noted.next r.noted store ([], s) =
        ((w.next r store s).1, (w.next r store s).2.1.noted, w.asked r store s,
          (w.next r store s).2.2) := by
  obtain ⟨added, accounts, noted⟩ :=
    next_noted r store (.nil (Nat.le_refl w.stage.clientsLeft)) s []
  have asked : w.asked r store s = added := by rw [Walk.asked, noted, List.nil_append]
  rw [asked]
  exact ⟨accounts, noted⟩

end Next

/-- A walk delivers the next item, or finds that there is none, after finitely many turns,
    whatever its reader does, short of a listing without end: one for every listing that it keeps,
    two for every client that is still to come, of which it need only count those that it opens,
    and one more.  It requests the calls of no more clients than are still to come, and the
    children of one call at most.  That it is watched changes nothing else. -/
theorem next_within_limit (r : Reader σ) (store : StoreId) (w : Walk σ) (s : σ) :
    w.nextWithin r store (w.depth + 2 * w.stage.clientsLeft + 1) s = some (w.next r store s) ∧
      w.nextWithin r store (w.depth + 2 * (w.asked r store s).opened.length + 1) s =
        some (w.next r store s) ∧
      (w.asked r store s).opened.length ≤ w.stage.clientsLeft ∧
      (w.asked r store s).expanded.length ≤ 1 ∧
      w.noted.next r.noted store ([], s) =
        ((w.next r store s).1, (w.next r store s).2.1.noted, w.asked r store s,
          (w.next r store s).2.2) := by
  obtain ⟨accounts, noted⟩ := next_asked r store w s
  have within := next_within r store w s
  have opens : (w.asked r store s).opened.length ≤ w.stage.clientsLeft := by
    rw [accounts.opened]
    exact Nat.le_trans (Nat.le_add_right _ _) accounts.taken
  refine ⟨nextWithin_mono r store w s (by omega) within, within, opens, ?_, noted⟩
  calc (w.asked r store s).expanded.length
      = (normalCalls (w.next r store s).1.toList).length := by
        rw [accounts.expanded, List.length_map]
    _ ≤ (w.next r store s).1.toList.length := length_normalCalls_le _
    _ ≤ 1 := Option.length_toList_le

/-- A reader of clients that made no calls. -/
def idle : Answers where
  clients := .ok []
  calls _ := .ok []
  childCalls _ := .ok []

/-- All of the limit may be needed: one listing that is used up and two clients without calls take
    six turns. -/
example :
    let clients : Listing Nat Client := .ofList [.ok ⟨4, 8⟩, .ok ⟨4, 9⟩]
    let w : Walk Nat := ⟨.reading (Pile.empty.push []) clients, 0⟩
    w.depth + 2 * w.stage.clientsLeft + 1 = 6 ∧
      (w.nextWithin idle.reader 0 6 0).isSome = true ∧
      w.nextWithin idle.reader 0 5 0 = none :=
  ⟨rfl, rfl, rfl⟩

end CallTrace
