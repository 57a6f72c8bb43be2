import CallTrace.Json.Layout
import CallTrace.Proofs.Json.Reading

/-!
# Decoders take one value

Where a decoder accepts what it reads, skipping would have led to the same rest
(`Decoder.Skims`).  So a decoder that accepts the text of a value has read exactly this text
(`Decoder.Skims.exact`), whatever the value means to it.  This holds of every decoder that is built
from those of single values, as choices, lists and records are.
-/

namespace CallTrace.Json

variable {α : Type} {d : Decoder α} {text rest after : Bytes} {b : UInt8} {t : Bytes}
  {opened : List Bracket}

/-- What the decoder reads is what skipping skips, below any open brackets. -/
def Decoder.Skims (d : Decoder α) : Prop :=
  ∀ ⦃text : Bytes⦄ ⦃x : α⦄ ⦃rest : Bytes⦄, d.run text = .ok (x, rest) →
    ∀ opened, skip .value opened text = skip .separator opened rest

theorem Decoder.Skims.exact (h : d.Skims) {v w : Bytes} (hv : ValueText v) (hw : Blanks w)
    (hrest : Ends rest) {x : α} (read : d.run (w ++ (v ++ rest)) = .ok (x, after)) :
    after = rest := by
  have skipped := h read []
  rw [hv.skips w [] rest hw hrest, skip_done, skip_done] at skipped
  exact (Except.ok.inj skipped).symm

theorem Decoder.Skims.map (h : d.Skims) {β : Type} (f : α → β) : (d.map f).Skims := by
  intro text y rest read opened
  simp only [Decoder.map] at read
  split at read
  · cases read
  rename_i x rest' hx
  cases read
  exact h hx opened

/-! ### Single values -/

theorem trimFront_idem (text : Bytes) : trimFront (trimFront text) = trimFront text := by
  induction text with
  | nil => rfl
  | cons b text ih =>
    by_cases hb : isSpace b = true
    · have dropped : trimFront (b :: text) = trimFront text := List.dropWhile_cons_of_pos hb
      rw [dropped, ih]
    · rw [Bool.not_eq_true] at hb
      rw [trimFront_cons hb, trimFront_cons hb]

theorem skip_trimFront (opened : List Bracket) (text : Bytes) :
    skip .value opened (trimFront text) = skip .value opened text := by
  have idem := trimFront_idem text
  rw [skip.eq_def, skip.eq_def]
  grind

theorem Decoder.skims_string : Decoder.string.Skims := by
  intro text value rest read opened
  change readString text = _ at read
  rw [readString] at read
  split at read
  · cases read
  rename_i b t ht
  split at read
  · rename_i hb
    subst hb
    exact skip_scalar ht rfl (skipString_of_string read)
  · cases read

theorem skipScalar_of_number {value : Number} (hb : b = sym '-' ∨ isDigit b = true)
    (h : number (b :: t) = .ok (value, rest)) :
    Bracket.opened? b = none ∧ skipScalar b t = .ok rest := by
  rw [number] at h
  split at h
  · rename_i minus
    subst minus
    refine ⟨rfl, ?_⟩
    split at h
    · cases h
    rename_i m rest' hread
    obtain ⟨_, _, heq⟩ := map_eq_ok.mp h
    cases heq
    exact skipMagnitude_of_magnitude hread
  · rename_i noMinus
    have digit := hb.resolve_left noMinus
    refine ⟨opened?_of_isDigit digit, ?_⟩
    split at h
    · cases h
    rename_i m rest' hread
    obtain ⟨_, _, heq⟩ := map_eq_ok.mp h
    cases heq
    rw [skipScalar_digit digit]
    exact skipMagnitude_of_magnitude hread

theorem Decoder.skims_readWord (bound : Nat) (wanted : String) :
    (⟨readWord bound wanted, readWord_length⟩ : Decoder Nat).Skims := by
  intro text n rest read opened
  change readWord bound wanted text = _ at read
  rw [readWord] at read
  split at read
  · cases read
  rename_i b t ht
  split at read
  · rename_i hb
    split at read
    · cases read
    rename_i value rest' hnumber
    obtain ⟨_, _, heq⟩ := map_eq_ok.mp read
    cases heq
    obtain ⟨hopened, hskip⟩ := skipScalar_of_number hb hnumber
    exact skip_scalar ht hopened hskip
  · cases read

theorem Decoder.skims_word32 : Decoder.word32.Skims :=
  Skims.map (skims_readWord UInt32.size "u32") Nat.toUInt32

theorem Decoder.skims_word64 : Decoder.word64.Skims :=
  Skims.map (skims_readWord UInt64.size "u64") Nat.toUInt64

theorem skip_null (ht : trimFront text = sym 'n' :: t)
    (h : finishWord ['u', 'l', 'l'] t = .ok rest) :
    skip .value opened text = skip .separator opened rest :=
  skip_scalar ht rfl h

theorem Decoder.Skims.nullable (h : d.Skims) : d.nullable.Skims := by
  intro text value rest read opened
  change readNullable d text = _ at read
  rw [readNullable] at read
  split at read
  · cases read
  rename_i b t ht
  split at read
  · rename_i hb
    subst hb
    obtain ⟨_, hword, heq⟩ := map_eq_ok.mp read
    cases heq
    exact skip_null ht hword
  · split at read
    · cases read
    rename_i x rest' hx
    cases read
    rw [← skip_trimFront, ht]
    exact h hx opened

/-! ### Choices -/

theorem skip_unit (h : unit text = .ok rest) :
    skip .value opened text = skip .separator opened rest := by
  rw [unit] at h
  split at h
  · cases h
  rename_i b t ht
  split at h
  · rename_i hb
    subst hb
    exact skip_null ht h
  · cases h

theorem skip_closeChoice (h : closeChoice text = .ok rest) :
    skip .separator (.object :: opened) text = skip .separator opened rest := by
  rw [closeChoice] at h
  split at h
  · cases h
  rename_i b t ht
  split at h
  · rename_i hb
    subst hb
    cases h
    exact skip_last ht
  · cases h

theorem skip_choiceMember {options : List (String × α)} {x : α}
    (ht : trimFront text = sym '{' :: t) (h : choiceMember options t = .ok (x, rest)) :
    skip .value opened text = skip .separator opened rest := by
  rw [choiceMember] at h
  split at h
  · cases h
  rename_i name t' hname
  split at h
  · cases h
  obtain ⟨_, hclosed, heq⟩ := map_eq_ok.mp h
  cases heq
  obtain ⟨_, hnull, hclose⟩ := bind_eq_ok.mp hclosed
  obtain ⟨_, hcolon, hunit⟩ := bind_eq_ok.mp hnull
  rw [choiceName] at hname
  split at hname
  · cases hname
  rename_i b s hs
  split at hname
  · rename_i hb
    subst hb
    have hkey : Bracket.object.skipKey (sym '"' :: s) = (skipString s).bind colon := rfl
    rw [skipString_of_string hname] at hkey
    rw [skip_first ht hs (by decide) (hkey.trans hcolon), skip_unit hunit, skip_closeChoice hclose]
  · split at hname <;> cases hname

theorem Decoder.skims_choice (options : List (String × α)) :
    (Decoder.choice options).Skims := by
  intro text x rest read opened
  change readChoice options text = _ at read
  rw [readChoice] at read
  split at read
  · cases read
  rename_i b t ht
  split at read
  · rename_i hb
    subst hb
    split at read
    · cases read
    rename_i name rest' hname
    obtain ⟨_, _, heq⟩ := map_eq_ok.mp read
    cases heq
    exact skip_scalar ht rfl (skipString_of_string hname)
  split at read
  · rename_i hb
    subst hb
    exact skip_choiceMember ht read
  · cases read

/-! ### Lists -/

/-- Skipping what is left in brackets, of which nothing was read yet or some items. -/
def skipInside (bracket : Bracket) (first : Bool) (opened : List Bracket) (text : Bytes) :
    Except Fault Bytes :=
  if first then skip .value opened (bracket.opening :: text)
  else skip .separator (bracket :: opened) text

theorem skipInside_item {first : Bool} (h : nextElement first text = .ok (true, rest)) :
    skipInside .list first opened text = skip .value (.list :: opened) rest := by
  rw [nextElement] at h
  split at h
  · cases h
  rename_i b t ht
  split at h
  · cases h
  rename_i hclose
  cases first with
  | true =>
    cases h
    exact skip_first (trimFront_cons rfl text) ht hclose rfl
  | false =>
    simp only [Bool.false_eq_true, if_false] at h
    split at h
    · rename_i hcomma
      subst hcomma
      split at h
      · cases h
      rename_i c t' ht'
      split at h
      · cases h
      · cases h
        have next : skipInside .list false opened text = skip .value (.list :: opened) t :=
          skip_next ht rfl
        rw [next, ← skip_trimFront, ht']
    · cases h

theorem closeList_of_nextElement {first : Bool} (h : nextElement first text = .ok (false, rest)) :
    rest = trimFront text := by
  rw [nextElement] at h
  split at h
  · cases h
  rename_i b t ht
  split at h
  · cases h
    exact ht.symm
  split at h
  · cases h
  split at h
  · split at h
    · cases h
    · split at h <;> cases h
  · cases h

theorem closeList_trimFront (text : Bytes) : closeList (trimFront text) = closeList text := by
  rw [closeList, closeList, trimFront_idem]

theorem skipInside_closed {bracket : Bracket} {first : Bool}
    (h : trimFront text = bracket.closing :: rest) :
    skipInside bracket first opened text = skip .separator opened rest := by
  have hopening : isSpace bracket.opening = false := by cases bracket <;> rfl
  cases first with
  | true => exact skip_empty (trimFront_cons hopening text) h
  | false => exact skip_last h

theorem skipInside_trimFront (bracket : Bracket) (first : Bool) (opened : List Bracket)
    (text : Bytes) :
    skipInside bracket first opened (trimFront text) = skipInside bracket first opened text := by
  have idem := trimFront_idem text
  have hopening : isSpace bracket.opening = false := by cases bracket <;> rfl
  have hopened := opened?_opening bracket
  have begins := trimFront_cons hopening
  cases first with
  | true =>
    change skip .value opened (bracket.opening :: trimFront text) =
      skip .value opened (bracket.opening :: text)
    rw [skip.eq_def, skip.eq_def]
    grind
  | false =>
    change skip .separator (bracket :: opened) (trimFront text) =
      skip .separator (bracket :: opened) text
    rw [skip.eq_def, skip.eq_def]
    grind

theorem skipInside_close {first : Bool} (h : closeList text = .ok rest) :
    skipInside .list first opened text = skip .separator opened rest := by
  rw [closeList] at h
  split at h
  · cases h
  rename_i b t ht
  split at h
  · rename_i hb
    subst hb
    cases h
    exact skipInside_closed ht
  · split at h <;> cases h

theorem skipInside_elements (h : d.Skims) {first : Bool} {collected xs : List α}
    (read : elements d first collected text = .ok (xs, rest))
    (closed : closeList rest = .ok after) :
    skipInside .list first opened text = skip .separator opened after := by
  fun_induction elements d first collected text with
  | case2 first collected text rest' hend =>
    cases read
    rw [closeList_of_nextElement hend, closeList_trimFront] at closed
    exact skipInside_close closed
  | case4 first collected text rest' hnext x rest'' hx ih =>
    rw [skipInside_item hnext, h hx]
    exact ih read
  | _ => cases read

theorem Decoder.Skims.list (h : d.Skims) : d.list.Skims := by
  intro text xs rest read opened
  change readList d text = _ at read
  rw [readList] at read
  split at read
  · cases read
  rename_i b t ht
  split at read
  · rename_i hb
    subst hb
    split at read
    · cases read
    rename_i xs' rest' helements
    obtain ⟨_, hclosed, heq⟩ := map_eq_ok.mp read
    cases heq
    rw [← skip_trimFront, ht]
    exact skipInside_elements h helements hclosed
  · cases read

/-! ### Records -/

theorem eq_opening {bracket : Bracket} (h : Bracket.opened? b = some bracket) :
    b = bracket.opening := by
  rw [Bracket.opened?] at h
  split at h
  · rename_i hb
    cases h
    exact hb
  · split at h
    · rename_i hb
      cases h
      exact hb
    · cases h

/-- Brackets that are open outside a value make no difference to what is skipped inside. -/
theorem skip_frame {place : Place} {inner : List Bracket}
    (h : skip place inner text = .ok rest) (outer : List Bracket) :
    skip place (inner ++ outer) text = skip .separator outer rest := by
  fun_induction skip place inner text with
  | case3 text inner b t ht bracket hopened after hclosed ih =>
    rw [eq_opening hopened] at ht
    rw [skip_empty ht hclosed]
    exact ih h
  | case5 text inner b t ht bracket hopened c t' hfirst hc after hkey ih =>
    rw [eq_opening hopened] at ht
    rw [skip_first ht hfirst hc hkey]
    exact ih h
  | case7 text inner b t ht hopened after hscalar ih =>
    rw [skip_scalar ht hopened hscalar]
    exact ih h
  | case8 text =>
    cases h
    rfl
  | case11 text bracket inner t after hkey ht ih =>
    rw [List.cons_append, skip_next ht hkey]
    exact ih h
  | case12 text bracket inner after ht _ ih =>
    rw [List.cons_append, skip_last ht]
    exact ih h
  | _ => cases h

theorem skipKey_object {key : String} {afterKey : Bytes} (ht : trimFront text = sym '"' :: t)
    (hkey : string t = .ok (key, afterKey)) (hcolon : colon afterKey = .ok rest) :
    Bracket.object.skipKey text = .ok rest := by
  rw [Bracket.skipKey, ht]
  simp only [if_true]
  rw [skipString_of_string hkey]
  exact hcolon

theorem skipInside_key {first : Bool} {key : String} {afterKey : Bytes}
    (h : Layout.nextMember first text = .ok (true, rest)) (hkey : string rest = .ok (key, afterKey))
    (hcolon : colon afterKey = .ok after) :
    skipInside .object first opened text = skip .value (.object :: opened) after := by
  rw [Layout.nextMember] at h
  split at h
  · cases h
  rename_i b t ht
  split at h
  · cases h
  cases first with
  | true =>
    simp only [if_true] at h
    split at h
    · rename_i hb
      subst hb
      cases h
      exact skip_first (trimFront_cons rfl text) ht (by decide)
        (skipKey_object (trimFront_cons rfl _) hkey hcolon)
    · cases h
  | false =>
    simp only [Bool.false_eq_true, if_false] at h
    split at h
    · rename_i hb
      subst hb
      split at h
      · cases h
      rename_i c t' ht'
      split at h
      · rename_i hc
        subst hc
        cases h
        exact skip_next ht (skipKey_object ht' hkey hcolon)
      · split at h <;> cases h
    · cases h

theorem trimFront_of_nextMember {first : Bool}
    (h : Layout.nextMember first text = .ok (false, rest)) : trimFront text = sym '}' :: rest := by
  rw [Layout.nextMember] at h
  split at h
  · cases h
  rename_i b t ht
  split at h
  · rename_i hb
    subst hb
    cases h
    exact ht
  split at h
  · split at h <;> cases h
  split at h
  · split at h
    · cases h
    · split at h
      · cases h
      · split at h <;> cases h
  · cases h

namespace Layout

variable {l : Layout α} {first : Bool} {seen : List String} {record x : α}

/-- A member that the layout knows is read, the value of another one skipped. -/
theorem skip_member {key : String} {result : List String × α}
    (h : ∀ m ∈ l.members, m.store.Skims)
    (read : l.member key seen record text = .ok (result, rest)) :
    ∃ after, colon text = .ok after ∧
      ∀ opened, skip .value opened after = skip .separator opened rest := by
  rw [member] at read
  split at read
  · obtain ⟨_, hskip, heq⟩ := map_eq_ok.mp read
    cases heq
    obtain ⟨after, hcolon, hskip⟩ := bind_eq_ok.mp hskip
    exact ⟨after, hcolon, skip_frame hskip⟩
  · rename_i m hm
    split at read
    · cases read
    split at read
    · cases read
    rename_i put rest' hstore
    cases read
    obtain ⟨after, hcolon, hstore⟩ := bind_eq_ok.mp hstore
    exact ⟨after, hcolon, h m (List.mem_of_find?_eq_some hm) hstore⟩

theorem skipInside_inObject (h : ∀ m ∈ l.members, m.store.Skims)
    (read : l.inObject first seen record text = .ok (x, rest)) :
    skipInside .object first opened text = skip .separator opened rest := by
  fun_induction inObject l first seen record text with
  | case3 first seen record text rest' hnext _ =>
    cases read
    exact skipInside_closed (trimFront_of_nextMember hnext)
  | case6 first seen record text t hnext key t' hkey seen' record' rest' hmember ih =>
    obtain ⟨after, hcolon, hskip⟩ := skip_member h hmember
    rw [skipInside_key hnext hkey hcolon, hskip]
    exact ih read
  | _ => cases read

theorem skipInside_inOrder {ms : List (Member α)} (h : ∀ m ∈ ms, m.store.Skims)
    (read : l.inOrder first record ms text = .ok (x, rest)) (closed : closeList rest = .ok after) :
    skipInside .list first opened text = skip .separator opened after := by
  induction ms generalizing first record text with
  | nil =>
    rw [inOrder] at read
    cases read
    exact skipInside_close closed
  | cons m ms ih =>
    obtain ⟨hm, hms⟩ := List.forall_mem_cons.mp h
    rw [inOrder] at read
    split at read
    · cases read
    · rename_i t hnext
      split at read
      · cases read
      -- The bracket was found and left, so the blanks before it are gone.
      rw [← skipInside_trimFront, ← closeList_of_nextElement hnext]
      exact ih hms read
    · rename_i t hnext
      split at read
      · cases read
      rename_i put t' hstore
      rw [skipInside_item hnext, hm hstore]
      exact ih hms read

theorem skims (h : ∀ m ∈ l.members, m.store.Skims) : l.decoder.Skims := by
  intro text x rest read opened
  change l.readRecord text = _ at read
  rw [readRecord] at read
  split at read
  · cases read
  rename_i b t ht
  rw [← skip_trimFront, ht]
  split at read
  · rename_i hb
    subst hb
    split at read
    · cases read
    rename_i record rest' horder
    obtain ⟨_, hclosed, heq⟩ := map_eq_ok.mp read
    cases heq
    exact skipInside_inOrder h horder hclosed
  split at read
  · rename_i hb
    subst hb
    exact skipInside_inObject h read
  · cases read

end Layout

end CallTrace.Json
