import CallTrace.Json.Skip
import CallTrace.Proofs.Json.Numbers
import CallTrace.Proofs.Json.Strings

/-!
# Skipping values

Skipping takes a value of any kind to its end, whatever stands around it
(`ValueText.skips`).  The brackets that are open make no difference to what is inside, so what is
said of a value holds below any number of them.
-/

namespace CallTrace.Json

variable {t rest after text : Bytes} {b : UInt8} {opened : List Bracket} {bracket : Bracket}

/-! ### Blanks -/

theorem trimFront_blanks {w : Bytes} (h : Blanks w) (t : Bytes) :
    trimFront (w ++ t) = trimFront t := by
  have spaces : ∀ b ∈ w, isSpace b = true := by
    intro b hb
    rcases h b hb with rfl | rfl | rfl | rfl <;> rfl
  rw [trimFront, List.dropWhile_append_of_pos spaces]
  rfl

theorem trimFront_cons (h : isSpace b = false) (t : Bytes) : trimFront (b :: t) = b :: t :=
  List.dropWhile_cons_of_neg (Bool.eq_false_iff.mp h)

theorem isSpace_of_not_mem (h : b ∉ delimiters) : isSpace b = false := by
  by_contra space
  rw [Bool.not_eq_false] at space
  simp only [isSpace, Bool.or_eq_true, beq_iff_eq] at space
  rcases space with ((rfl | rfl) | rfl) | rfl <;> exact h (by decide)

/-! ### One step -/

theorem skip_done (text : Bytes) : skip .separator [] text = .ok text := by
  rw [skip]

theorem opened?_opening (bracket : Bracket) : Bracket.opened? bracket.opening = some bracket := by
  cases bracket <;> rfl

theorem skip_scalar (ht : trimFront text = b :: t) (hb : Bracket.opened? b = none)
    (h : skipScalar b t = .ok after) :
    skip .value opened text = skip .separator opened after := by
  rw [skip.eq_def]
  grind

theorem skip_empty (ht : trimFront text = bracket.opening :: t)
    (hclosed : trimFront t = bracket.closing :: after) :
    skip .value opened text = skip .separator opened after := by
  have hopened := opened?_opening bracket
  rw [skip.eq_def]
  grind

theorem skip_first (ht : trimFront text = bracket.opening :: t) {t' : Bytes}
    (hfirst : trimFront t = b :: t') (hb : b ≠ bracket.closing)
    (hkey : bracket.skipKey (b :: t') = .ok after) :
    skip .value opened text = skip .value (bracket :: opened) after := by
  have hopened := opened?_opening bracket
  rw [skip.eq_def]
  grind

theorem skip_next (ht : trimFront text = sym ',' :: t) (hkey : bracket.skipKey t = .ok after) :
    skip .separator (bracket :: opened) text = skip .value (bracket :: opened) after := by
  rw [skip.eq_def]
  grind

theorem skip_last (ht : trimFront text = bracket.closing :: after) :
    skip .separator (bracket :: opened) text = skip .separator opened after := by
  have noComma : bracket.closing ≠ sym ',' := by cases bracket <;> decide
  rw [skip.eq_def]
  grind

/-! ### Scalars -/

theorem ne_of_isDigit (h : isDigit b = true) {c : UInt8} (hc : isDigit c = false) : b ≠ c := by
  rintro rfl
  rw [h] at hc
  cases hc

theorem skipScalar_digit (h : isDigit b = true) (rest : Bytes) :
    skipScalar b rest = skipMagnitude (b :: rest) := by
  rw [skipScalar, if_neg (ne_of_isDigit h rfl), if_neg (ne_of_isDigit h rfl),
    if_neg (ne_of_isDigit h rfl), if_neg (ne_of_isDigit h rfl), if_neg (ne_of_isDigit h rfl),
    if_pos h]

theorem opened?_of_isDigit (h : isDigit b = true) : Bracket.opened? b = none := by
  rw [Bracket.opened?, if_neg (ne_of_isDigit h rfl), if_neg (ne_of_isDigit h rfl)]

/-! ### Any value -/

/-- Wherever the value stands, skipping takes it to its end. -/
def Skips (t : Bytes) : Prop :=
  ∀ w opened rest, Blanks w → Ends rest →
    skip .value opened (w ++ (t ++ rest)) = skip .separator opened rest

/-- The same of an item in brackets, with the key that it may have. -/
def SkipsItem (bracket : Bracket) (item : Bytes) : Prop :=
  (∃ c t, item = c :: t ∧ c ∉ delimiters) ∧
    ∀ w opened rest, Blanks w → Ends rest → ∃ after,
      bracket.skipKey (w ++ (item ++ rest)) = .ok after ∧
        skip .value opened after = skip .separator opened rest

theorem skips_of_skipScalar {t' : Bytes} (hb : b ∉ delimiters) (hopened : Bracket.opened? b = none)
    (h : ∀ rest, Ends rest → skipScalar b (t' ++ rest) = .ok rest) : Skips (b :: t') := by
  intro w opened rest hw hrest
  apply skip_scalar _ hopened (h rest hrest)
  rw [trimFront_blanks hw, List.cons_append, trimFront_cons (isSpace_of_not_mem hb)]

theorem NumberText.skips (h : NumberText t) : Skips t := by
  cases h with
  | @number sign whole fraction exponent hsign hwhole hfraction hexponent =>
    have number : ∀ rest, Ends rest →
        skipMagnitude (whole ++ fraction ++ exponent ++ rest) = .ok rest := by
      intro rest hrest
      rw [List.append_assoc, List.append_assoc]
      exact skipMagnitude_of_text hwhole hfraction hexponent hrest
    rcases hsign with rfl | rfl
    · obtain ⟨b, t', rfl, hdigit⟩ := hwhole.digits_text.exists_cons
      refine skips_of_skipScalar (not_mem_delimiters_of_digit hdigit)
        (opened?_of_isDigit (isDigit_iff.mpr hdigit)) ?_
      intro rest hrest
      rw [skipScalar_digit (isDigit_iff.mpr hdigit)]
      exact number rest hrest
    · exact skips_of_skipScalar (by decide) rfl number

theorem LooseText.skips (h : LooseText t) : Skips t := by
  obtain ⟨s, hs, rfl⟩ := h
  refine skips_of_skipScalar (by decide) rfl ?_
  intro rest _
  change skipString (s ++ [sym '"'] ++ rest) = .ok rest
  rw [List.append_assoc]
  exact skipString_of_chars hs rest

theorem skip_later {items : List Bytes} (h : ItemsText false items t)
    (hitems : ∀ item ∈ items, SkipsItem bracket item) (opened : List Bracket) (rest : Bytes) :
    skip .separator (bracket :: opened) (t ++ bracket.closing :: rest) =
      skip .separator opened rest := by
  have hclosing : isSpace bracket.closing = false := by cases bracket <;> rfl
  have hdelimiter : bracket.closing ∈ delimiters := by cases bracket <;> decide
  induction items generalizing t with
  | nil =>
    cases h with
    | nil hw =>
      apply skip_last
      rw [trimFront_blanks hw, trimFront_cons hclosing]
  | cons item items ih =>
    obtain ⟨⟨-, first⟩, others⟩ := List.forall_mem_cons.mp hitems
    cases h with
    | @cons _ lead _ t _ hlead later =>
      cases hlead with
      | @next w w' hw hw' =>
        obtain ⟨after, hkey, hskip⟩ := first w' (bracket :: opened)
          (t ++ bracket.closing :: rest) hw' (later.ends hdelimiter rest)
        have comma : trimFront (w ++ sym ',' :: w' ++ item ++ t ++ bracket.closing :: rest) =
            sym ',' :: (w' ++ (item ++ (t ++ bracket.closing :: rest))) := by
          simp only [List.append_assoc, List.cons_append]
          rw [trimFront_blanks hw, trimFront_cons rfl]
        rw [skip_next comma hkey, hskip, ih later others]

/-- What stands in brackets is skipped item by item. -/
theorem skip_items {items : List Bytes} (h : ItemsText true items t)
    (hitems : ∀ item ∈ items, SkipsItem bracket item) :
    Skips (bracket.opening :: t ++ [bracket.closing]) := by
  have hopening : isSpace bracket.opening = false := by cases bracket <;> rfl
  have hclosing : isSpace bracket.closing = false := by cases bracket <;> rfl
  have hdelimiter : bracket.closing ∈ delimiters := by cases bracket <;> decide
  intro w opened rest hw _
  have start : trimFront (w ++ (bracket.opening :: t ++ [bracket.closing] ++ rest)) =
      bracket.opening :: (t ++ bracket.closing :: rest) := by
    rw [trimFront_blanks hw, List.append_assoc, List.cons_append, trimFront_cons hopening]
    rfl
  cases h with
  | nil hw' =>
    apply skip_empty start
    rw [trimFront_blanks hw', trimFront_cons hclosing]
  | @cons _ lead item t items hlead later =>
    obtain ⟨⟨⟨c, t', rfl, hc⟩, first⟩, others⟩ := List.forall_mem_cons.mp hitems
    cases hlead with
    | first hw' =>
      have begins : trimFront (lead ++ (c :: t') ++ t ++ bracket.closing :: rest) =
          c :: (t' ++ (t ++ bracket.closing :: rest)) := by
        simp only [List.append_assoc, List.cons_append]
        rw [trimFront_blanks hw', trimFront_cons (isSpace_of_not_mem hc)]
      have open' : c ≠ bracket.closing := fun heq => hc (heq ▸ hdelimiter)
      obtain ⟨after, hkey, hskip⟩ := first [] (bracket :: opened) (t ++ bracket.closing :: rest)
        blanks_nil (later.ends hdelimiter rest)
      rw [skip_first start begins open' hkey, hskip, skip_later later others]

theorem ListText.skips {items : List Bytes} (h : ListText items t)
    (hstart : ∀ item ∈ items, ∃ c t, item = c :: t ∧ c ∉ delimiters)
    (hitems : ∀ item ∈ items, Skips item) : Skips t := by
  have each : ∀ item ∈ items, SkipsItem .list item := by
    intro item hitem
    refine ⟨hstart item hitem, ?_⟩
    intro w opened rest hw hrest
    exact ⟨_, rfl, hitems item hitem w opened rest hw hrest⟩
  cases h with
  | list h => exact skip_items h each

theorem colon_of_text {w : Bytes} (h : Blanks w) (rest : Bytes) :
    colon (w ++ sym ':' :: rest) = .ok rest := by
  rw [colon, trimFront_blanks h, trimFront_cons rfl]
  rfl

theorem MemberText.skipsItem {m : Bytes × Bytes} (h : MemberText m t) (hkey : LooseText m.1)
    (hvalue : Skips m.2) : SkipsItem .object t := by
  cases h with
  | @member key value w w' hw hw' =>
    obtain ⟨s, hs, rfl⟩ := hkey
    refine ⟨⟨_, _, rfl, by decide⟩, ?_⟩
    intro w'' opened rest hw'' hrest
    refine ⟨w' ++ (value ++ rest), ?_, hvalue w' opened rest hw' hrest⟩
    have start : trimFront (w'' ++ (sym '"' :: s ++ [sym '"'] ++ w ++ sym ':' :: w' ++ value ++
        rest)) = sym '"' :: (s ++ sym '"' :: (w ++ sym ':' :: (w' ++ (value ++ rest)))) := by
      rw [trimFront_blanks hw'']
      simp only [List.append_assoc, List.cons_append, List.nil_append]
      exact trimFront_cons rfl _
    rw [Bracket.skipKey, start]
    simp only [if_true]
    rw [skipString_of_chars hs]
    exact colon_of_text hw _

theorem getElem?_of_forall₂ {α β : Type*} {R : α → β → Prop} {xs : List α} {ys : List β}
    (h : List.Forall₂ R xs ys) {n : Nat} {y : β} (hy : ys[n]? = some y) :
    ∃ x, xs[n]? = some x ∧ R x y := by
  induction h generalizing n with
  | nil => cases hy
  | cons first _ ih =>
    cases n with
    | zero =>
      cases hy
      exact ⟨_, rfl, first⟩
    | succ n => exact ih hy

theorem exists_of_forall₂_right {α β : Type*} {R : α → β → Prop} {xs : List α} {ys : List β}
    (h : List.Forall₂ R xs ys) {y : β} (hy : y ∈ ys) : ∃ x ∈ xs, R x y := by
  obtain ⟨n, hn⟩ := List.mem_iff_getElem?.mp hy
  obtain ⟨x, hx, hR⟩ := getElem?_of_forall₂ h hn
  exact ⟨x, List.mem_of_getElem? hx, hR⟩

/-- Skipping takes every value to its end. -/
theorem ValueText.skips (h : ValueText t) : Skips t := by
  induction h with
  | null => exact skips_of_skipScalar (by decide) rfl fun rest _ => rfl
  | true => exact skips_of_skipScalar (by decide) rfl fun rest _ => rfl
  | false => exact skips_of_skipScalar (by decide) rfl fun rest _ => rfl
  | number h => exact h.skips
  | string h => exact h.skips
  | list h hitems ih => exact h.skips (fun item hitem => (hitems item hitem).exists_cons) ih
  | @object members t h hkeys _ ih =>
    have each : ∀ {items : List Bytes}, List.Forall₂ MemberText members items →
        ∀ item ∈ items, SkipsItem .object item := by
      intro items hall item hitem
      obtain ⟨m, hm, hmember⟩ := exists_of_forall₂_right hall hitem
      exact hmember.skipsItem (hkeys m hm) (ih m hm)
    cases h with
    | object hall h => exact skip_items h (each hall)

theorem skipValue_of_text (h : ValueText t) {w : Bytes} (hw : Blanks w) (hrest : Ends rest) :
    skipValue (w ++ (t ++ rest)) = .ok rest := by
  rw [skipValue, h.skips w [] rest hw hrest, skip_done]

end CallTrace.Json
