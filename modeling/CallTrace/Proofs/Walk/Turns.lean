import CallTrace.Walk

/-!
# What a turn can do

A turn of a walk does one of nine things, told apart by the innermost listing, by the clients
to come and by what the reader answers.  All that holds of walks is shown turn by turn, by
these cases (`turns_turn`).
-/

namespace CallTrace.Walk

variable {σ : Type}

/-- From this state of a walk and its reader, a turn leads to that. -/
inductive Turns (r : Reader σ) (store : StoreId) :
    Pile σ → Listing σ Client → σ → Turn σ → σ → Prop where
  | ended {opened : Pile σ} {s : σ} (none_open : opened.listings = []) :
      Turns r store opened [] s (.stop none .over) s
  | unlisted {opened : Pile σ} {read : Read σ Client} {clients : Listing σ Client} {s s' : σ}
      {e : TraceError} (none_open : opened.listings = []) (failure : read s = (.error e, s')) :
      Turns r store opened (read :: clients) s (.stop (some (.error e)) .over) s'
  | unopened {opened : Pile σ} {read : Read σ Client} {clients : Listing σ Client}
      {s s' s'' : σ} (client : Client) {e : TraceError} (none_open : opened.listings = [])
      (next : read s = (.ok client, s'))
      (refused : r.stampedCalls store client s' = (.error e, s'')) :
      Turns r store opened (read :: clients) s (.stop (some (.error e)) .over) s''
  | opened {opened : Pile σ} {read : Read σ Client} {clients : Listing σ Client}
      {s s' s'' : σ} (client : Client) {calls : Listing σ Call}
      (none_open : opened.listings = []) (next : read s = (.ok client, s'))
      (granted : r.stampedCalls store client s' = (.ok calls, s'')) :
      Turns r store opened (read :: clients) s (.again (opened.push calls) clients) s''
  | used {opened : Pile σ} {clients : Listing σ Client} {outer : List (Listing σ Call)} {s : σ}
      (top : opened.listings = [] :: outer) :
      Turns r store opened clients s (.again opened.pop clients) s
  | unread {opened : Pile σ} {clients : Listing σ Client} {read : Read σ Call}
      {rest : Listing σ Call} {outer : List (Listing σ Call)} {s s' : σ} {e : TraceError}
      (top : opened.listings = (read :: rest) :: outer) (failure : read s = (.error e, s')) :
      Turns r store opened clients s (.stop (some (.error e)) .over) s'
  | synthetic {opened : Pile σ} {clients : Listing σ Client} {read : Read σ Call}
      {rest : Listing σ Call} {outer : List (Listing σ Call)} {s s' : σ} {call : Call}
      (top : opened.listings = (read :: rest) :: outer) (next : read s = (.ok call, s'))
      (entry : call.isSynthetic = true) :
      Turns r store opened clients s
        (.stop (some (.ok call)) (.reading (opened.pop.push rest) clients)) s'
  | childrenRefused {opened : Pile σ} {clients : Listing σ Client} {read : Read σ Call}
      {rest : Listing σ Call} {outer : List (Listing σ Call)} {s s' s'' : σ} {call : Call}
      {e : TraceError} (top : opened.listings = (read :: rest) :: outer)
      (next : read s = (.ok call, s')) (entry : call.isSynthetic = false)
      (refused : r.stampedChildren store call s' = (.error e, s'')) :
      Turns r store opened clients s
        (.stop (some (.ok call)) (.refused e (opened.pop.push rest).height)) s''
  | normal {opened : Pile σ} {clients : Listing σ Client} {read : Read σ Call}
      {rest : Listing σ Call} {outer : List (Listing σ Call)} {s s' s'' : σ} {call : Call}
      {children : Listing σ Call} (top : opened.listings = (read :: rest) :: outer)
      (next : read s = (.ok call, s')) (entry : call.isSynthetic = false)
      (granted : r.stampedChildren store call s' = (.ok children, s'')) :
      Turns r store opened clients s
        (.stop (some (.ok call)) (.reading ((opened.pop.push rest).push children) clients)) s''

variable {r : Reader σ} {store : StoreId} {opened : Pile σ} {clients : Listing σ Client}
  {s s' : σ} {t : Turn σ}

theorem Turns.eq (h : Turns r store opened clients s t s') :
    turn r store opened clients s = (t, s') := by
  cases h with
  | ended none_open => simp only [turn, none_open]
  | unlisted none_open failure => simp only [turn, none_open, failure]
  | unopened _ none_open next refused => simp only [turn, none_open, next, refused]
  | opened _ none_open next granted => simp only [turn, none_open, next, granted]
  | used top => simp only [turn, top]
  | unread top failure => simp only [turn, top, failure]
  | synthetic top next entry => simp only [turn, top, next, entry, if_true]
  | childrenRefused top next entry refused =>
    simp only [turn, top, next, entry, Bool.false_eq_true, if_false, refused]
  | normal top next entry granted =>
    simp only [turn, top, next, entry, Bool.false_eq_true, if_false, granted]

theorem turns_of_eq (h : turn r store opened clients s = (t, s')) :
    Turns r store opened clients s t s' := by
  unfold turn at h
  split at h
  · rename_i none_open
    cases h
    exact .ended none_open
  · rename_i read clients none_open
    split at h
    · rename_i failure
      cases h
      exact .unlisted none_open failure
    · rename_i client s₁ next
      split at h
      · rename_i refused
        cases h
        exact .unopened client none_open next refused
      · rename_i granted
        cases h
        exact .opened client none_open next granted
  · rename_i top
    cases h
    exact .used top
  · rename_i read rest outer top
    split at h
    · rename_i failure
      cases h
      exact .unread top failure
    · rename_i call s₁ next
      split at h
      · rename_i entry
        cases h
        exact .synthetic top next entry
      · rename_i entry
        split at h
        · rename_i refused
          cases h
          exact .childrenRefused top next (Bool.eq_false_iff.mpr entry) refused
        · rename_i granted
          cases h
          exact .normal top next (Bool.eq_false_iff.mpr entry) granted

end CallTrace.Walk
