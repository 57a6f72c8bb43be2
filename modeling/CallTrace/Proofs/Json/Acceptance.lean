import CallTrace.Proofs.Json.Exactness
import CallTrace.Proofs.Json.Records

/-!
# What accepted texts hold

If a list is accepted then each of its items is (`Decoder.Accepts.item`), and if a record is
accepted then its values are (`Layout.accepts_of_gives`), whether it is written as an object or as
a list.  An object that gives a field twice is not accepted (`Layout.not_repeats`).
-/

namespace CallTrace.Json

variable {α : Type} {d : Decoder α} {t text rest after : Bytes}

/-- The decoder takes the text somewhere. -/
def Decoder.Accepts (d : Decoder α) (t : Bytes) : Prop :=
  ∃ w rest x after, Blanks w ∧ Ends rest ∧ d.run (w ++ (t ++ rest)) = .ok (x, after)

theorem Decoder.Accepts.of_map {β : Type} {f : α → β} (h : (d.map f).Accepts t) :
    d.Accepts t := by
  obtain ⟨w, rest, y, after, hw, hrest, read⟩ := h
  simp only [Decoder.map] at read
  split at read
  · cases read
  rename_i x after' hx
  exact ⟨w, rest, x, after', hw, hrest, hx⟩

/-- A decoder that does not take the value of a text rejects the text. -/
theorem Decoder.decode_of_not_accepts {IsText : Bytes → Prop} (h : ∀ t, IsText t → ¬ d.Accepts t)
    (ht : Alone IsText text) : ∃ fault, d.decode text = .error fault := by
  obtain ⟨w, t, w', hw, hw', ht, rfl⟩ := ht
  have hends := hw'.ends_append ends_nil
  rw [List.append_nil] at hends
  rw [Decoder.decode]
  split
  · exact ⟨_, rfl⟩
  · rename_i read
    exact absurd ⟨w, w', _, _, hw, hends, read⟩ (h t ht)

/-! ### Items -/

theorem elements_next_inv {first : Bool} {collected xs : List α}
    (h : nextElement first text = .ok (true, rest))
    (read : elements d first collected text = .ok (xs, after)) :
    ∃ x rest', d.run rest = .ok (x, rest') ∧
      elements d false (x :: collected) rest' = .ok (xs, after) := by
  rw [elements] at read
  grind

theorem accepts_of_elements (skims : d.Skims) {first : Bool} {items : List Bytes}
    (ht : ItemsText first items t) (hitems : ∀ item ∈ items, ValueText item) {collected xs : List α}
    (read : elements d first collected (t ++ sym ']' :: rest) = .ok (xs, after)) :
    ∀ item ∈ items, d.Accepts item := by
  induction items generalizing first t collected with
  | nil =>
    intro item hitem
    cases hitem
  | cons item items ih =>
    obtain ⟨hitem, hlater⟩ := List.forall_mem_cons.mp hitems
    cases ht with
    | @cons _ lead _ t _ hlead later =>
      have hclosing : sym ']' ∈ delimiters := by decide
      have hends := later.ends hclosing rest
      have next := nextElement_item hlead hitem.exists_cons t (sym ']' :: rest)
      obtain ⟨x, rest', hx, read⟩ := elements_next_inv next read
      obtain rfl := skims.exact hitem blanks_nil hends hx
      refine List.forall_mem_cons.mpr ⟨?_, ih later hlater read⟩
      exact ⟨[], _, x, _, blanks_nil, hends, hx⟩

theorem Decoder.Accepts.item {items : List Bytes} (h : d.list.Accepts t) (skims : d.Skims)
    (ht : ListText items t) (hitems : ∀ item ∈ items, ValueText item) :
    ∀ item ∈ items, d.Accepts item := by
  obtain ⟨w, rest, xs, after, hw, -, read⟩ := h
  cases ht with
  | @list t ht =>
    change readList d _ = _ at read
    rw [readList, trimFront_enclosed (by decide) hw] at read
    simp only [if_true] at read
    split at read
    · cases read
    rename_i helements
    exact accepts_of_elements skims ht hitems helements

/-! ### Members of an object -/

variable {l : Layout α} {fields : List (Field α)}

/-- A text for one of the names of the field. -/
def Field.IsKey (f : Field α) (key : Bytes) : Prop :=
  ∃ name ∈ f.names, StringText name key

/-- Keys and values that any object may have. -/
def LooseMembers (members : List (Bytes × Bytes)) : Prop :=
  ∀ m ∈ members, LooseText m.1 ∧ ValueText m.2

/-- What an accepted object cannot have: a member that was seen, one that its decoder rejects, and
    two for the same member of the layout. -/
structure Layout.Accepted (l : Layout α) (seen : List String) (members : List (Bytes × Bytes)) :
    Prop where
  each : ∀ m ∈ members, ∀ name f, StringText name m.1 → l.find? name = some f →
    f.name ∉ seen ∧ f.store.Accepts m.2
  once : members.Pairwise fun m m' => ∀ name name' f f', StringText name m.1 →
    StringText name' m'.1 → l.find? name = some f → l.find? name' = some f' → f.name ≠ f'.name

/-- However a key is written, it is read as what it stands for, up to its end. -/
theorem key_exact {s : Bytes} (hs : LooseChars s) {key : String}
    (h : string (s ++ sym '"' :: rest) = .ok (key, after)) :
    after = rest ∧ ∀ name, StringText name (sym '"' :: s ++ [sym '"']) → name = key := by
  have skipped := skipString_of_string h
  rw [skipString_of_chars hs] at skipped
  obtain rfl := Except.ok.inj skipped
  refine ⟨rfl, ?_⟩
  rintro name ⟨s', hs', heq⟩
  have same : s = s' := by simpa using heq
  subst same
  rw [string_of_chars hs'] at h
  simp only [Except.ok.injEq, Prod.mk.injEq] at h
  exact h.1

theorem Layout.member_exact (skims : ∀ m ∈ l.members, m.store.Skims) {key : String}
    {seen seen' : List String} {record record' : α} {w w' v : Bytes} (hw : Blanks w)
    (hw' : Blanks w') (hv : ValueText v) (hrest : Ends rest)
    (h : l.member key seen record (w ++ sym ':' :: (w' ++ (v ++ rest))) =
      .ok ((seen', record'), after)) :
    after = rest ∧ (l.find? key = none ∧ seen' = seen ∨
      ∃ m, l.find? key = some m ∧ m.name ∉ seen ∧ seen' = m.name :: seen ∧
        m.store.Accepts v) := by
  rw [Layout.member, colon_of_text hw] at h
  split at h
  · rename_i hfind
    obtain ⟨_, hskip, heq⟩ := map_eq_ok.mp h
    cases heq
    change skipValue (w' ++ (v ++ rest)) = _ at hskip
    rw [skipValue_of_text hv hw' hrest] at hskip
    exact ⟨(Except.ok.inj hskip).symm, .inl ⟨hfind, rfl⟩⟩
  · rename_i m hfind
    split at h
    · cases h
    rename_i fresh
    split at h
    · cases h
    rename_i put rest' hstore
    cases h
    change m.store.run (w' ++ (v ++ rest)) = _ at hstore
    have known : m.store.Skims := skims m (List.mem_of_find?_eq_some hfind)
    obtain rfl := known.exact hv hw' hrest hstore
    refine ⟨rfl, .inr ⟨m, hfind, ?_, rfl, w', _, put, _, hw', hrest, hstore⟩⟩
    rwa [List.contains_iff_mem] at fresh

theorem Layout.inObject_next_inv {first : Bool} {seen : List String} {record x : α}
    (h : nextMember first text = .ok (true, rest))
    (read : l.inObject first seen record text = .ok (x, after)) :
    ∃ key rest' seen' record' rest'', string rest = .ok (key, rest') ∧
      l.member key seen record rest' = .ok ((seen', record'), rest'') ∧
      l.inObject false seen' record' rest'' = .ok (x, after) := by
  rw [Layout.inObject] at read
  grind

theorem Layout.accepted_of_inObject (skims : ∀ m ∈ l.members, m.store.Skims) {first : Bool}
    {items : List Bytes} (ht : ItemsText first items t) {members : List (Bytes × Bytes)}
    (hitems : List.Forall₂ MemberText members items) (hmembers : LooseMembers members)
    {seen : List String} {record x : α}
    (read : l.inObject first seen record (t ++ sym '}' :: rest) = .ok (x, after)) :
    l.Accepted seen members := by
  induction hitems generalizing first t seen record with
  | nil =>
    constructor
    · intro m hm
      cases hm
    · exact List.Pairwise.nil
  | @cons m item members items hmember _ ih =>
    obtain ⟨⟨⟨s, hs, hkey⟩, hvalue⟩, hlater⟩ := List.forall_mem_cons.mp hmembers
    cases hmember with
    | @member key v w w' hw hw' =>
      cases hkey
      cases ht with
      | @cons _ lead _ t _ hlead later =>
        have hclosing : sym '}' ∈ delimiters := by decide
        have hends := later.ends hclosing rest
        have next := nextMember_item hlead s w w' v t (sym '}' :: rest)
        obtain ⟨key, rest', seen', record', rest'', hstring, hmember, read⟩ :=
          inObject_next_inv next read
        obtain ⟨rfl, unique⟩ := key_exact hs hstring
        obtain ⟨rfl, hfind⟩ := member_exact skims hw hw' hvalue hends hmember
        -- What is seen grows by the member that was read, so none of the others is for it.
        have others := ih later hlater read
        rcases hfind with ⟨hfind, rfl⟩ | ⟨f, hfind, fresh, rfl, accepts⟩
        · constructor
          · intro m hm name g hname hg
            rcases List.mem_cons.mp hm with rfl | hm
            · rw [unique name hname, hfind] at hg
              cases hg
            · exact others.each m hm name g hname hg
          · refine List.pairwise_cons.mpr ⟨?_, others.once⟩
            intro m _ name name' g g' hname _ hg
            rw [unique name hname, hfind] at hg
            cases hg
        · constructor
          · intro m hm name g hname hg
            rcases List.mem_cons.mp hm with rfl | hm
            · rw [unique name hname, hfind] at hg
              cases hg
              exact ⟨fresh, accepts⟩
            · obtain ⟨fresh', accepts'⟩ := others.each m hm name g hname hg
              exact ⟨fun h => fresh' (List.mem_cons_of_mem _ h), accepts'⟩
          · refine List.pairwise_cons.mpr ⟨?_, others.once⟩
            intro m hm name name' g g' hname hname' hg hg' heq
            rw [unique name hname, hfind] at hg
            cases hg
            apply (others.each m hm name' g' hname' hg').1
            rw [heq]
            exact List.mem_cons_self

theorem Layout.accepted {members : List (Bytes × Bytes)}
    (skims : ∀ m ∈ l.members, m.store.Skims) (h : l.decoder.Accepts t)
    (ht : MembersText members t) (hmembers : LooseMembers members) : l.Accepted [] members := by
  obtain ⟨w, rest, x, after, hw, -, read⟩ := h
  cases ht with
  | @object items t hitems ht =>
    change l.readRecord _ = _ at read
    rw [readRecord, trimFront_enclosed (by decide) hw] at read
    exact accepted_of_inObject skims ht hitems hmembers read

/-! ### Members in list form -/

theorem Layout.accepts_of_inOrder {ms : List (Member α)} (skims : ∀ m ∈ ms, m.store.Skims)
    {first : Bool} {items : List Bytes} (ht : ItemsText first items t)
    (hitems : ∀ item ∈ items, ValueText item) {record x : α}
    (read : l.inOrder first record ms (t ++ sym ']' :: rest) = .ok (x, after)) {n : ℕ}
    {m : Member α} {v : Bytes} (hm : ms[n]? = some m) (hv : items[n]? = some v) :
    m.store.Accepts v := by
  induction items generalizing first t record ms n with
  | nil => cases hv
  | cons item items ih =>
    cases ms with
    | nil => cases hm
    | cons m' ms =>
      obtain ⟨hskims, hlaterSkims⟩ := List.forall_mem_cons.mp skims
      obtain ⟨hitem, hlater⟩ := List.forall_mem_cons.mp hitems
      cases ht with
      | @cons _ lead _ t _ hlead later =>
        have hclosing : sym ']' ∈ delimiters := by decide
        have hends := later.ends hclosing rest
        have next := nextElement_item hlead hitem.exists_cons t (sym ']' :: rest)
        rw [inOrder, next] at read
        simp only at read
        split at read
        · cases read
        rename_i put rest' hstore
        obtain rfl := hskims.exact hitem blanks_nil hends hstore
        cases n with
        | zero =>
          cases hm
          cases hv
          exact ⟨[], _, put, _, blanks_nil, hends, hstore⟩
        | succ n => exact ih hlaterSkims later hlater read hm hv

theorem Layout.accepts_of_list {items : List Bytes} (skims : ∀ m ∈ l.members, m.store.Skims)
    (h : l.decoder.Accepts t) (ht : ListText items t) (hitems : ∀ item ∈ items, ValueText item)
    {n : ℕ} {m : Member α} {v : Bytes} (hm : l.members[n]? = some m) (hv : items[n]? = some v) :
    m.store.Accepts v := by
  obtain ⟨w, rest, x, after, hw, -, read⟩ := h
  cases ht with
  | @list t ht =>
    change l.readRecord _ = _ at read
    rw [readRecord, trimFront_enclosed (by decide) hw] at read
    simp only [if_true] at read
    split at read
    · cases read
    rename_i horder
    exact accepts_of_inOrder skims ht hitems horder hm hv

/-! ### Records -/

/-- An object gives a field twice, under the same name or under two of its names. -/
def Repeats (fields : List (Field α)) (t : Bytes) : Prop :=
  ∃ members, MembersText members t ∧ LooseMembers members ∧
    ∃ f ∈ fields, ∃ m m', [m, m'].Sublist members ∧ f.IsKey m.1 ∧ f.IsKey m'.1

/-- A record gives the field of this name a value, by a member or by its place in a list. -/
inductive Gives (fields : List (Field α)) (name : String) (v : Bytes) : Bytes → Prop where
  | member {members : List (Bytes × Bytes)} {t key : Bytes} {f : Field α}
      (h : MembersText members t) (hmembers : LooseMembers members) (hv : (key, v) ∈ members)
      (hf : f ∈ fields) (hname : f.name = name) (hkey : f.IsKey key) : Gives fields name v t
  | item {items : List Bytes} {t : Bytes} {n : ℕ} {f : Field α} (h : ListText items t)
      (hitems : ∀ item ∈ items, ValueText item) (hv : items[n]? = some v)
      (hf : fields[n]? = some f) (hname : f.name = name) : Gives fields name v t

/-- An item of a list that a record gives as the value of a field. -/
def Holds (fields : List (Field α)) (name : String) (item t : Bytes) : Prop :=
  ∃ v items, Gives fields name v t ∧ ListText items v ∧ (∀ i ∈ items, ValueText i) ∧ item ∈ items

namespace Layout

theorem not_repeats (fits : l.Fits fields) (h : l.decoder.Accepts t) : ¬ Repeats fields t := by
  rintro ⟨members, ht, hmembers, f, hf, m, m', hsub, ⟨name, hname, hm⟩, ⟨name', hname', hm'⟩⟩
  have once := (accepted fits.skims h ht hmembers).once
  have apart := List.pairwise_iff_forall_sublist.mp once hsub name name'
  have known : ∀ key ∈ f.names, ∃ m, l.find? key = some m ∧ m.name = f.name := by
    intro key hkey
    rcases fits.find?_cases key with ⟨m, g, hfind, hg, hkey', hfits⟩ | ⟨-, hnone⟩
    · obtain rfl := fits.unique hf hg hkey hkey'
      exact ⟨m, hfind, hfits.name⟩
    · exact absurd hkey (hnone f hf)
  obtain ⟨k, hfind, hk⟩ := known name hname
  obtain ⟨k', hfind', hk'⟩ := known name' hname'
  apply apart k k' hm hm' hfind hfind'
  rw [hk, hk']

theorem accepts_of_gives (fits : l.Fits fields) (h : l.decoder.Accepts t) {name : String}
    {v : Bytes} (hv : Gives fields name v t) :
    ∃ m ∈ l.members, m.name = name ∧ m.store.Accepts v := by
  cases hv with
  | @member members _ key f ht hmembers hv hf hname hkey =>
    obtain ⟨key', hkey', htext⟩ := hkey
    rcases fits.find?_cases key' with ⟨m, g, hfind, hg, hkey'', hfits⟩ | ⟨-, hnone⟩
    · obtain rfl := fits.unique hf hg hkey' hkey''
      have each := (accepted fits.skims h ht hmembers).each (key, v) hv key' m htext hfind
      exact ⟨m, List.mem_of_find?_eq_some hfind, hfits.name.trans hname, each.2⟩
    · exact absurd hkey' (hnone f hf)
  | @item items _ n f ht hitems hv hf hname =>
    obtain ⟨m, hm, hfits⟩ := getElem?_of_forall₂ fits.members hf
    exact ⟨m, List.mem_of_getElem? hm, hfits.name.trans hname,
      accepts_of_list fits.skims h ht hitems hm hv⟩

/-- If a member decodes lists then the items that a record gives are accepted. -/
theorem accepts_of_holds {β : Type} {d : Decoder β} (fits : l.Fits fields) (hd : d.Skims)
    (h : l.decoder.Accepts t) {name : String} (only : ∀ m ∈ l.members, m.name = name → ∃ put, m.store = d.list.map put)
    {item : Bytes} (hitem : Holds fields name item t) : d.Accepts item := by
  obtain ⟨v, items, hv, ht, hitems, hmem⟩ := hitem
  obtain ⟨m, hm, hname, accepts⟩ := accepts_of_gives fits h hv
  obtain ⟨put, hstore⟩ := only m hm hname
  rw [hstore] at accepts
  exact accepts.of_map.item hd ht hitems item hmem

end Layout

end CallTrace.Json
