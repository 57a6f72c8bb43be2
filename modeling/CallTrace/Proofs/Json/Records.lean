import Mathlib.Data.List.Nodup
import Mathlib.Data.List.Pairwise
import CallTrace.Json.Layout
import CallTrace.Proofs.Json.Exactness
import CallTrace.Proofs.Json.Writing

/-!
# Records in object form

A field tells the names of a member of a record, how its value is written, and which value it has
if it is left out.  An object describes a record if every field that it gives has the value of the
record, no field is given twice, and the fields that are missing have their default in the record
(`Describes`); members of other names may have any value.  The order of the members and the
choice among the names of a field are free.

A layout that fits the fields reads every such object as the record (`Layout.Fits.reads`).  While
members are read, a field of the record is right from the moment at which the rest of the object no
longer gives it (`Gathered`).  A record of fields that fit can be a field of another record in turn
(`Layout.Fits.decoder`).
-/

namespace CallTrace.Json

/-- A member of a record as a format describes it. -/
structure Field (α : Type) where
  Value : Type
  name : String
  aliases : List String := []
  get : α → Value
  put : Value → α → α
  IsText : Value → Bytes → Prop
  /-- The value of a member that is left out.  A required member has none. -/
  default? : Option Value := none

namespace Field

variable {α : Type}

/-- The names of the member, its main name first. -/
def names (f : Field α) : List String :=
  f.name :: f.aliases

end Field

variable {α : Type} {fields : List (Field α)} {x : α}

/-- The members of an object tell all there is to know about a record. -/
structure Describes (fields : List (Field α)) (x : α) (members : List (String × Bytes)) :
    Prop where
  known : ∀ f ∈ fields, ∀ m ∈ members, m.1 ∈ f.names → f.IsText (f.get x) m.2
  unknown : ∀ m ∈ members, (∀ f ∈ fields, m.1 ∉ f.names) → ValueText m.2
  once : ∀ f ∈ fields, members.Pairwise fun m m' => ¬ (m.1 ∈ f.names ∧ m'.1 ∈ f.names)
  absent : ∀ f ∈ fields, (∀ m ∈ members, m.1 ∉ f.names) → f.default? = some (f.get x)

/-- A record in object form. -/
def RecordText (fields : List (Field α)) (x : α) (t : Bytes) : Prop :=
  ∃ members, ObjectText members t ∧ Describes fields x members

/-- A record is a value if its fields are. -/
theorem RecordText.valueText (h : ∀ f ∈ fields, ∀ v t, f.IsText v t → ValueText t) {t : Bytes}
    (ht : RecordText fields x t) : ValueText t := by
  obtain ⟨members, ⟨texts, ht, hkeys⟩, described⟩ := ht
  have each : ∀ text ∈ texts, LooseText text.1 ∧ ValueText text.2 := by
    intro text htext
    obtain ⟨m, hm, hkey, hvalue⟩ := exists_of_forall₂_right hkeys htext
    refine ⟨hkey.loose, ?_⟩
    rw [hvalue]
    by_cases known : ∃ f ∈ fields, m.1 ∈ f.names
    · obtain ⟨f, hf, hname⟩ := known
      exact h f hf _ _ (described.known f hf m hm hname)
    · exact described.unknown m hm fun f hf hname => known ⟨f, hf, hname⟩
  exact .object ht (fun text htext => (each text htext).1) fun text htext => (each text htext).2

/-- No two fields share a name. -/
theorem eq_of_mem_names (distinct : (fields.flatMap Field.names).Nodup) {f g : Field α}
    (hf : f ∈ fields) (hg : g ∈ fields) {key : String} (hkey : key ∈ f.names)
    (hkey' : key ∈ g.names) : f = g := by
  by_contra hne
  have apart := (List.nodup_flatMap.mp distinct).2
  have symmetric : Std.Symm (Function.onFun List.Disjoint (@Field.names α)) :=
    ⟨fun _ _ h => List.disjoint_symm h⟩
  exact apart.forall hf hg hne hkey hkey'

/-- If each field can be written then so can the record. -/
theorem exists_recordText {fields : List (Field α)} {x : α}
    (distinct : (fields.flatMap Field.names).Nodup)
    (h : ∀ f ∈ fields, ∃ t, f.IsText (f.get x) t ∧ Utf8 t) :
    ∃ t, RecordText fields x t ∧ Utf8 t := by
  choose! value hvalue hutf8 using h
  choose key hkey hkeyUtf8 using exists_stringText
  let members := fields.map fun f => (f.name, value f)
  refine ⟨objectOf (members.map fun m => (key m.1, m.2)), ⟨members, ⟨_, membersText_objectOf _, ?_⟩,
    ?_⟩, ?_⟩
  · rw [List.forall₂_map_right_iff, List.forall₂_same]
    exact fun m _ => ⟨hkey m.1, rfl⟩
  · have own : ∀ f ∈ fields, ∀ m ∈ members, m.1 ∈ f.names → m = (f.name, value f) := by
      intro f hf m hm hname
      obtain ⟨g, hg, rfl⟩ := List.mem_map.mp hm
      rw [eq_of_mem_names distinct hf hg hname List.mem_cons_self]
    constructor
    · intro f hf m hm hname
      rw [own f hf m hm hname]
      exact hvalue f hf
    · intro m hm hnone
      obtain ⟨f, hf, rfl⟩ := List.mem_map.mp hm
      exact absurd List.mem_cons_self (hnone f hf)
    · intro f hf
      refine List.pairwise_map.mpr ((List.nodup_flatMap.mp distinct).2.imp_of_mem ?_)
      rintro g g' hg - apart ⟨hname, hname'⟩
      obtain rfl := eq_of_mem_names distinct hf hg hname List.mem_cons_self
      exact apart hname' List.mem_cons_self
    · intro f hf hnone
      exact absurd List.mem_cons_self (hnone _ (List.mem_map_of_mem hf))
  · apply utf8_objectOf
    intro m hm
    obtain ⟨m', hm', rfl⟩ := List.mem_map.mp hm
    obtain ⟨f, hf, rfl⟩ := List.mem_map.mp hm'
    exact ⟨hkeyUtf8 _, hutf8 f hf⟩

/-! ### Layouts that fit the fields -/

/-- All that has to be known of a decoder and of the texts for its values. -/
structure Decoder.Fits {β : Type} (d : Decoder β) (IsText : β → Bytes → Prop) : Prop where
  reads : d.Reads IsText
  skims : d.Skims
  valueText : ∀ v t, IsText v t → ValueText t
  writes : ∀ v, ∃ t, IsText v t ∧ Utf8 t

structure Member.Fits (m : Member α) (f : Field α) : Prop where
  name : m.name = f.name
  aliases : m.aliases = f.aliases
  required : m.isRequired = f.default?.isNone
  store : ∃ d : Decoder f.Value, d.Fits f.IsText ∧ m.store = d.map f.put

/-- The members of the layout are the fields, and a record is determined by its fields. -/
structure Layout.Fits (l : Layout α) (fields : List (Field α)) : Prop where
  members : List.Forall₂ Member.Fits l.members fields
  distinct : (fields.flatMap Field.names).Nodup
  blank : ∀ f ∈ fields, ∀ v, f.default? = some v → f.get l.blank = v
  get_put : ∀ f ∈ fields, ∀ x r, f.get (f.put (f.get x) r) = f.get x
  get_put_other : ∀ f ∈ fields, ∀ g ∈ fields, ∀ x r, f.get r = f.get x →
    f.get (g.put (g.get x) r) = f.get x
  ext : ∀ x r, (∀ f ∈ fields, f.get r = f.get x) → r = x

theorem Decoder.fits_string : Decoder.string.Fits StringText where
  reads := reads_string
  skims := skims_string
  valueText _ _ h := h.valueText
  writes := exists_stringText

theorem Decoder.fits_word32 : Decoder.word32.Fits Word32Text where
  reads := reads_word32
  skims := skims_word32
  valueText _ _ h := h.valueText
  writes := exists_word32Text

theorem Decoder.fits_word64 : Decoder.word64.Fits Word64Text where
  reads := reads_word64
  skims := skims_word64
  valueText _ _ h := h.valueText
  writes := exists_word64Text

section Members

variable {β : Type} {d : Decoder β} {IsText : β → Bytes → Prop}

theorem Decoder.Fits.nullable (h : d.Fits IsText)
    (noNull : ∀ v t, IsText v t → t.head? ≠ some (sym 'n')) :
    d.nullable.Fits (NullableText IsText) where
  reads := h.reads.nullable noNull
  skims := h.skims.nullable
  valueText _ _ ht := ht.valueText h.valueText
  writes := exists_nullableText h.writes

theorem Decoder.fits_choice {options : List (String × β)} {name : β → String}
    (h : ∀ v, options.lookup (name v) = some v) :
    (Decoder.choice options).Fits fun v => StringText (name v) where
  reads := reads_choice h
  skims := skims_choice options
  valueText _ _ ht := ht.valueText
  writes v := exists_stringText (name v)

theorem Decoder.Fits.list (h : d.Fits IsText) : d.list.Fits (ItemTexts IsText) where
  reads := h.reads.list
  skims := h.skims.list
  valueText _ _ ht := ht.valueText h.valueText
  writes := exists_itemTexts h.writes

theorem Member.fits_required (h : d.Fits IsText) (name : String) (aliases : List String)
    (get : α → β) (put : β → α → α) :
    (Member.required (name, aliases) d put).Fits
      { Value := β, name, aliases, get, put, IsText, default? := none } :=
  ⟨rfl, rfl, rfl, d, h, rfl⟩

theorem Member.fits_optional (h : d.Fits IsText) (name : String) (aliases : List String)
    (get : α → β) (put : β → α → α) (v : β) :
    (Member.optional (name, aliases) d put).Fits
      { Value := β, name, aliases, get, put, IsText, default? := some v } :=
  ⟨rfl, rfl, rfl, d, h, rfl⟩

end Members

/-- The member puts the value of a text into the record. -/
theorem Member.Fits.run {m : Member α} {f : Field α} (h : m.Fits f) {v : f.Value} {t : Bytes}
    (ht : f.IsText v t) {w rest : Bytes} (hw : Blanks w) (hrest : Ends rest) :
    m.store.run (w ++ (t ++ rest)) = .ok (f.put v, rest) := by
  obtain ⟨d, fits, heq⟩ := h.store
  rw [heq]
  simp only [Decoder.map, fits.reads.run v t ht w rest hw hrest]

theorem Member.Fits.answersTo {m : Member α} {f : Field α} (h : m.Fits f) (key : String) :
    m.answersTo key = true ↔ key ∈ f.names := by
  rw [Member.answersTo, h.name, h.aliases, Field.names, List.mem_cons, Bool.or_eq_true, beq_iff_eq,
    List.contains_iff_mem, eq_comm]

/-- A key names a field and its member of the layout, or neither. -/
theorem find?_fits {ms : List (Member α)} (h : List.Forall₂ Member.Fits ms fields)
    (key : String) :
    (∃ m f, ms.find? (·.answersTo key) = some m ∧ f ∈ fields ∧ key ∈ f.names ∧ m.Fits f) ∨
      ms.find? (·.answersTo key) = none ∧ ∀ f ∈ fields, key ∉ f.names := by
  induction h with
  | nil =>
    right
    exact ⟨rfl, fun f hf => absurd hf List.not_mem_nil⟩
  | @cons m f ms fields fits _ ih =>
    by_cases hkey : m.answersTo key = true
    · left
      exact ⟨m, f, List.find?_cons_of_pos hkey, List.mem_cons_self, (fits.answersTo key).mp hkey,
        fits⟩
    · have later : (m :: ms).find? (·.answersTo key) = ms.find? (·.answersTo key) :=
        List.find?_cons_of_neg hkey
      rw [later]
      rcases ih with ⟨m', f', hfind, hf', hkey', fits'⟩ | ⟨hfind, none⟩
      · left
        exact ⟨m', f', hfind, List.mem_cons_of_mem f hf', hkey', fits'⟩
      · right
        refine ⟨hfind, ?_⟩
        intro g hg
        rcases List.mem_cons.mp hg with rfl | hg
        · exact fun hmem => hkey ((fits.answersTo key).mpr hmem)
        · exact none g hg

namespace Layout.Fits

variable {l : Layout α} (fits : l.Fits fields)

include fits

theorem unique {f g : Field α} (hf : f ∈ fields) (hg : g ∈ fields) {key : String}
    (hkey : key ∈ f.names) (hkey' : key ∈ g.names) : f = g :=
  eq_of_mem_names fits.distinct hf hg hkey hkey'

/-- The field of a name that the layout knows, or that none knows it. -/
theorem find?_cases (key : String) :
    (∃ m f, l.find? key = some m ∧ f ∈ fields ∧ key ∈ f.names ∧ m.Fits f) ∨
      l.find? key = none ∧ ∀ f ∈ fields, key ∉ f.names :=
  find?_fits fits.members key

theorem missing?_eq_none {seen : List String}
    (h : ∀ f ∈ fields, f.default? = none → f.name ∈ seen) : l.missing? seen = none := by
  rw [Layout.missing?, Option.map_eq_none_iff, List.find?_eq_none]
  intro m hm
  obtain ⟨f, hf, hfits⟩ := exists_of_forall₂_right fits.members.flip hm
  rw [hfits.required, hfits.name]
  cases hdefault : f.default? with
  | none => simp [h f hf hdefault]
  | some v => simp

end Layout.Fits

/-! ### Reading the members -/

/-- What is known when the names in `seen` have been read and these members are left: a field that
    they do not give is right. -/
structure Gathered (fields : List (Field α)) (x : α) (members : List (String × Bytes))
    (seen : List String) (record : α) : Prop where
  known : ∀ f ∈ fields, ∀ m ∈ members, m.1 ∈ f.names → f.IsText (f.get x) m.2
  unknown : ∀ m ∈ members, (∀ f ∈ fields, m.1 ∉ f.names) → ValueText m.2
  once : ∀ f ∈ fields, members.Pairwise fun m m' => ¬ (m.1 ∈ f.names ∧ m'.1 ∈ f.names)
  past : ∀ f ∈ fields, f.name ∈ seen → ∀ m ∈ members, m.1 ∉ f.names
  agrees : ∀ f ∈ fields, (∀ m ∈ members, m.1 ∉ f.names) → f.get record = f.get x
  required : ∀ f ∈ fields, (∀ m ∈ members, m.1 ∉ f.names) → f.default? = none → f.name ∈ seen

namespace Gathered

variable {l : Layout α} (fits : l.Fits fields) {members : List (String × Bytes)} {key : String}
  {v : Bytes} {seen : List String} {record : α}

/-- A member that no field knows changes nothing. -/
theorem skip (h : Gathered fields x ((key, v) :: members) seen record)
    (hkey : ∀ f ∈ fields, key ∉ f.names) : Gathered fields x members seen record := by
  have same : ∀ f ∈ fields, (∀ m ∈ members, m.1 ∉ f.names) →
      ∀ m ∈ (key, v) :: members, m.1 ∉ f.names := by
    intro f hf hnone
    exact List.forall_mem_cons.mpr ⟨hkey f hf, hnone⟩
  constructor
  · exact fun f hf m hm => h.known f hf m (List.mem_cons_of_mem _ hm)
  · exact fun m hm => h.unknown m (List.mem_cons_of_mem _ hm)
  · exact fun f hf => (List.pairwise_cons.mp (h.once f hf)).2
  · exact fun f hf hseen m hm => h.past f hf hseen m (List.mem_cons_of_mem _ hm)
  · exact fun f hf hnone => h.agrees f hf (same f hf hnone)
  · exact fun f hf hnone => h.required f hf (same f hf hnone)

include fits

theorem start (h : Describes fields x members) : Gathered fields x members [] l.blank where
  known := h.known
  unknown := h.unknown
  once := h.once
  past := by
    intro f _ hseen
    cases hseen
  agrees := by
    intro f hf hnone
    exact fits.blank f hf _ (h.absent f hf hnone)
  required := by
    intro f hf hnone hrequired
    rw [h.absent f hf hnone] at hrequired
    cases hrequired

/-- A member of a field sets this field for good. -/
theorem put (h : Gathered fields x ((key, v) :: members) seen record) {f : Field α}
    (hf : f ∈ fields) (hkey : key ∈ f.names) :
    Gathered fields x members (f.name :: seen) (f.put (f.get x) record) := by
  have later : ∀ m ∈ members, m.1 ∉ f.names :=
    fun m hm hmem => (List.pairwise_cons.mp (h.once f hf)).1 m hm ⟨hkey, hmem⟩
  have others : ∀ g ∈ fields, g ≠ f → (∀ m ∈ members, m.1 ∉ g.names) →
      ∀ m ∈ (key, v) :: members, m.1 ∉ g.names := by
    intro g hg hne hnone
    refine List.forall_mem_cons.mpr ⟨?_, hnone⟩
    exact fun hmem => hne (fits.unique hg hf hmem hkey)
  constructor
  · exact fun g hg m hm => h.known g hg m (List.mem_cons_of_mem _ hm)
  · exact fun m hm => h.unknown m (List.mem_cons_of_mem _ hm)
  · exact fun g hg => (List.pairwise_cons.mp (h.once g hg)).2
  · intro g hg hseen
    rcases List.mem_cons.mp hseen with hname | hseen
    · have same : g = f :=
        fits.unique hg hf (List.mem_cons.mpr (.inl hname.symm)) List.mem_cons_self
      rwa [same]
    · exact fun m hm => h.past g hg hseen m (List.mem_cons_of_mem _ hm)
  · intro g hg hnone
    by_cases hne : g = f
    · rw [hne]
      exact fits.get_put f hf x record
    · exact fits.get_put_other g hg f hf x record (h.agrees g hg (others g hg hne hnone))
  · intro g hg hnone hrequired
    by_cases hne : g = f
    · rw [hne]
      exact List.mem_cons_self
    · exact List.mem_cons_of_mem _ (h.required g hg (others g hg hne hnone) hrequired)

theorem finish (h : Gathered fields x [] seen record) :
    l.missing? seen = none ∧ record = x := by
  have none : ∀ f : Field α, ∀ m ∈ ([] : List (String × Bytes)), m.1 ∉ f.names := by
    intro f m hm
    cases hm
  constructor
  · exact fits.missing?_eq_none fun f hf => h.required f hf (none f)
  · exact fits.ext x record fun f hf => h.agrees f hf (none f)

end Gathered

namespace Layout

variable {l : Layout α} {first : Bool} {seen : List String} {record : α} {text after rest : Bytes}

theorem nextMember_of_lead {lead : Bytes} (h : LeadText first lead) (t : Bytes) :
    nextMember first (lead ++ sym '"' :: t) = .ok (true, t) := by
  cases h with
  | first h =>
    rw [nextMember, trimFront_blanks h, trimFront_cons rfl]
    rfl
  | @next w w' h h' =>
    have comma : trimFront (w ++ sym ',' :: w' ++ sym '"' :: t) =
        sym ',' :: (w' ++ sym '"' :: t) := by
      rw [List.append_assoc, trimFront_blanks h, List.cons_append, trimFront_cons rfl]
    rw [nextMember, comma]
    simp only [trimFront_blanks h', trimFront_cons (b := sym '"') rfl]
    rfl

theorem nextMember_item {lead : Bytes} (h : LeadText first lead) (s w w' v t rest : Bytes) :
    nextMember first (lead ++ (sym '"' :: s ++ [sym '"'] ++ w ++ sym ':' :: w' ++ v) ++ t ++ rest) =
      .ok (true, s ++ sym '"' :: (w ++ sym ':' :: (w' ++ (v ++ (t ++ rest))))) := by
  simp only [List.append_assoc, List.cons_append, List.nil_append]
  exact nextMember_of_lead h _

theorem nextMember_of_end (first : Bool) {w : Bytes} (h : Blanks w) (rest : Bytes) :
    nextMember first (w ++ sym '}' :: rest) = .ok (false, rest) := by
  rw [nextMember, trimFront_blanks h, trimFront_cons rfl]
  rfl

theorem inObject_done (h : nextMember first text = .ok (false, rest))
    (hmissing : l.missing? seen = none) :
    l.inObject first seen record text = .ok (record, rest) := by
  rw [inObject]
  grind

theorem inObject_next {key : String} {seen' : List String} {record' : α} {rest' : Bytes}
    (h : nextMember first text = .ok (true, rest)) (hkey : string rest = .ok (key, rest'))
    (hmember : l.member key seen record rest' = .ok ((seen', record'), after)) :
    l.inObject first seen record text = l.inObject false seen' record' after := by
  rw [inObject]
  grind

theorem member_known {key : String} {m : Member α} {put : α → α}
    (hfind : l.find? key = some m) (hseen : m.name ∉ seen) (hcolon : colon text = .ok after)
    (hstore : m.store.run after = .ok (put, rest)) :
    l.member key seen record text = .ok ((m.name :: seen, put record), rest) := by
  have fresh : seen.contains m.name = false := by
    rw [List.contains_eq_mem, decide_eq_false_iff_not]
    exact hseen
  simp only [member, hfind, fresh, Bool.false_eq_true, if_false, hcolon, Except.bind, hstore]

theorem member_unknown {key : String} (hfind : l.find? key = none)
    (hcolon : colon text = .ok after) (hskip : skipValue after = .ok rest) :
    l.member key seen record text = .ok ((seen, record), rest) := by
  simp only [member, hfind, hcolon, Except.bind, hskip, Except.map]

end Layout

namespace Layout.Fits

variable {l : Layout α} (fits : l.Fits fields)

include fits

/-- The next member of an object, known or not, is read as the record has it. -/
theorem member {members : List (String × Bytes)} {key : String} {v : Bytes} {seen : List String}
    {record : α} (h : Gathered fields x ((key, v) :: members) seen record) {w w' rest : Bytes}
    (hw : Blanks w) (hw' : Blanks w') (hrest : Ends rest) :
    ∃ seen' record', Gathered fields x members seen' record' ∧
      l.member key seen record (w ++ sym ':' :: (w' ++ (v ++ rest))) =
        .ok ((seen', record'), rest) := by
  rcases fits.find?_cases key with ⟨m, f, hfind, hf, hkey, hfits⟩ | ⟨hfind, hnone⟩
  · have htext := h.known f hf (key, v) List.mem_cons_self hkey
    have fresh : m.name ∉ seen := by
      rw [hfits.name]
      exact fun hseen => h.past f hf hseen (key, v) List.mem_cons_self hkey
    have stored := hfits.run htext hw' hrest
    refine ⟨_, _, h.put fits hf hkey, ?_⟩
    rw [Layout.member_known hfind fresh (colon_of_text hw _) stored, hfits.name]
  · have hvalue := h.unknown (key, v) List.mem_cons_self hnone
    exact ⟨_, _, h.skip hnone, Layout.member_unknown hfind (colon_of_text hw _)
      (skipValue_of_text hvalue hw' hrest)⟩

theorem inObject {first : Bool} {members : List (String × Bytes)} {texts : List (Bytes × Bytes)}
    {items : List Bytes} {t : Bytes} (ht : ItemsText first items t)
    (hitems : List.Forall₂ MemberText texts items)
    (hkeys : List.Forall₂ (fun m text => StringText m.1 text.1 ∧ text.2 = m.2) members texts)
    {seen : List String} {record : α} (h : Gathered fields x members seen record)
    (rest : Bytes) : l.inObject first seen record (t ++ sym '}' :: rest) = .ok (x, rest) := by
  -- The induction is on the members that are left, and `Gathered` holds between any two.
  induction hkeys generalizing first items t seen record with
  | nil =>
    cases hitems
    cases ht with
    | nil hw =>
      obtain ⟨missing, rfl⟩ := h.finish fits
      exact inObject_done (nextMember_of_end first hw rest) missing
  | @cons m text members texts hkey _ ih =>
    obtain ⟨key, v⟩ := m
    obtain ⟨key', v'⟩ := text
    obtain ⟨⟨s, hs, rfl⟩, rfl⟩ := hkey
    cases hitems with
    | @cons _ item _ items hmember hitems =>
      cases hmember with
      | @member _ _ w w' hw hw' =>
        cases ht with
        | @cons _ lead _ t _ hlead later =>
          have hclosing : sym '}' ∈ delimiters := by decide
          obtain ⟨seen', record', h', read⟩ := fits.member h hw hw' (later.ends hclosing rest)
          have next := nextMember_item hlead s w w' v' t (sym '}' :: rest)
          rw [inObject_next next (string_of_chars hs _) read]
          exact ih later hitems h'

/-- A layout reads every object that describes a record as this record. -/
theorem reads : l.decoder.Reads (RecordText fields) := by
  constructor
  · rintro x t ⟨members, ⟨texts, ht, -⟩, -⟩
    obtain ⟨t', rfl⟩ := ht.exists_cons
    exact ⟨_, t', rfl, by decide⟩
  · rintro x t ⟨members, ⟨texts, ht, hkeys⟩, h⟩ w rest hw _
    cases ht with
    | @object items t hitems ht =>
      change l.readRecord _ = _
      rw [readRecord, trimFront_enclosed (by decide) hw]
      exact fits.inObject ht hitems hkeys (Gathered.start fits h) rest

theorem skims : ∀ m ∈ l.members, m.store.Skims := by
  intro m hm
  obtain ⟨f, -, hfits⟩ := exists_of_forall₂_right fits.members.flip hm
  obtain ⟨d, h, heq⟩ := hfits.store
  rw [heq]
  exact h.skims.map f.put

/-- What fits its members fits its records. -/
theorem decoder : l.decoder.Fits (RecordText fields) := by
  have each : ∀ f ∈ fields, ∃ d : Decoder f.Value, d.Fits f.IsText := by
    intro f hf
    obtain ⟨m, -, hfits⟩ := exists_of_forall₂_right fits.members hf
    obtain ⟨d, h, -⟩ := hfits.store
    exact ⟨d, h⟩
  constructor
  · exact fits.reads
  · exact Layout.skims fits.skims
  · intro x t ht
    apply ht.valueText
    intro f hf
    obtain ⟨d, h⟩ := each f hf
    exact h.valueText
  · intro x
    apply exists_recordText fits.distinct
    intro f hf
    obtain ⟨d, h⟩ := each f hf
    exact h.writes (f.get x)

end Layout.Fits

end CallTrace.Json
