import CallTrace.Json.Decoder

/-!
# Layouts of records

A layout lists the members of a record in order.  A record is written as an object,
with its members in any order, or as a list of its members in the order of the
layout.

In object form, a member may go by several names but may occur only once; members
that the layout does not know are skipped; a required member may not be missing.  In
list form, members may be missing at the end unless they are required.
-/

namespace CallTrace.Json

/-- A member of a record. -/
structure Member (α : Type) where
  name : String
  /-- Other names of the member.  Faults use its main name. -/
  aliases : List String := []
  isRequired : Bool
  /-- Decodes the value of the member, as the change that puts it into a record. -/
  store : Decoder (α → α)

namespace Member

/-- A member that must not be missing. -/
def required {α β : Type} (names : String × List String) (d : Decoder β) (put : β → α → α) :
    Member α :=
  ⟨names.1, names.2, true, d.map put⟩

/-- A member that keeps the value of the blank record if it is missing. -/
def optional {α β : Type} (names : String × List String) (d : Decoder β) (put : β → α → α) :
    Member α :=
  ⟨names.1, names.2, false, d.map put⟩

/-- Whether a member goes by a name. -/
def answersTo {α : Type} (m : Member α) (key : String) : Bool :=
  m.name == key || m.aliases.contains key

end Member

/-- How a record is laid out. -/
structure Layout (α : Type) where
  /-- How faults call the record. -/
  name : String
  /-- The record without any of its members. -/
  blank : α
  members : List (Member α)

namespace Layout

variable {α : Type}

/-- The member that goes by a name. -/
def find? (l : Layout α) (key : String) : Option (Member α) :=
  l.members.find? (·.answersTo key)

/-- The first required member that is not among those seen. -/
def missing? (l : Layout α) (seen : List String) : Option String :=
  (l.members.find? fun m => m.isRequired && !seen.contains m.name).map Member.name

/-! ### List form -/

/-- Reads members in order; the list may end before members that are not required. -/
def inOrder (l : Layout α) (first : Bool) (record : α) :
    List (Member α) → Bytes → Result α
  | [], text => .ok (record, text)
  | m :: rest, text =>
    match nextElement first text with
    | .error fault => .error fault
    | .ok (false, text) =>
      if m.isRequired then
        .error (.tooShort (l.members.length - (m :: rest).length) l.name l.members.length)
      else inOrder l first record rest text
    | .ok (true, text) =>
      match m.store.run text with
      | .error fault => .error fault
      | .ok (put, text) => inOrder l false (put record) rest text

theorem inOrder_length {l : Layout α} {first : Bool} {record value : α}
    {ms : List (Member α)} {text rest : Bytes}
    (h : l.inOrder first record ms text = .ok (value, rest)) : rest.length ≤ text.length := by
  fun_induction inOrder l first record ms text with
  | case1 => simp only [Except.ok.injEq, Prod.mk.injEq] at h; simp [h.2]
  | case4 =>
    rename_i next _ ih
    have := ih h
    have := nextElement_length next
    omega
  | case6 =>
    rename_i m _ _ _ next _ _ stored ih
    have := ih h
    have := nextElement_length next
    have := m.store.shortens stored
    omega
  | _ => simp at h

/-! ### Object form -/

/-- Looks for a member of an object.  The answer tells whether there is one; the text
    then goes on after the opening quote of its key, and after the closing brace
    otherwise. -/
def nextMember (first : Bool) (text : Bytes) : Result Bool :=
  match trimFront text with
  | [] => .error (.textEnds .object)
  | b :: rest =>
    if b = sym '}' then .ok (false, rest)
    else if first then
      if b = sym '"' then .ok (true, rest) else .error .keyExpected
    else if b = sym ',' then
      match trimFront rest with
      | [] => .error (.textEnds .value)
      | c :: after =>
        if c = sym '"' then .ok (true, after)
        else if c = sym '}' then .error .trailingComma
        else .error .keyExpected
    else .error .commaOrBraceExpected

theorem nextMember_length {first more : Bool} {text rest : Bytes}
    (h : nextMember first text = .ok (more, rest)) : rest.length < text.length := by
  unfold nextMember at h
  split at h
  · simp at h
  · rename_i ht
    have := trimFront_cons_length ht
    split at h
    · simp only [Except.ok.injEq, Prod.mk.injEq] at h; rw [← h.2]; exact this
    split at h
    · split at h
      · simp only [Except.ok.injEq, Prod.mk.injEq] at h; rw [← h.2]; exact this
      · simp at h
    split at h
    · split at h
      · simp at h
      · rename_i ha
        have := trimFront_cons_length ha
        split at h
        · simp only [Except.ok.injEq, Prod.mk.injEq] at h; rw [← h.2]; omega
        · split at h <;> simp at h
    · simp at h

/-- Reads the value of a member after its key: it is put into the record if the layout
    knows the key, and skipped otherwise.  Gives the members seen so far as well. -/
def member (l : Layout α) (key : String) (seen : List String) (record : α) (text : Bytes) :
    Result (List String × α) :=
  match l.find? key with
  | none => ((colon text).bind skipValue).map ((seen, record), ·)
  | some m =>
    if seen.contains m.name then .error (.memberRepeated m.name)
    else
      match (colon text).bind m.store.run with
      | .error fault => .error fault
      | .ok (put, rest) => .ok ((m.name :: seen, put record), rest)

theorem member_length {l : Layout α} {key : String} {seen : List String} {record : α}
    {value : List String × α} {text rest : Bytes}
    (h : l.member key seen record text = .ok (value, rest)) : rest.length < text.length := by
  unfold member at h
  split at h
  · obtain ⟨_, h, ends⟩ := map_eq_ok.1 h
    obtain ⟨_, separated, skipped⟩ := bind_eq_ok.1 h
    have := colon_length separated
    have := skipValue_length skipped
    rw [← (Prod.mk.inj ends).2]; omega
  · rename_i m _
    split at h
    · simp at h
    · split at h
      · simp at h
      · rename_i hm
        obtain ⟨_, separated, stored⟩ := bind_eq_ok.1 hm
        have := colon_length separated
        have := m.store.shortens stored
        simp only [Except.ok.injEq, Prod.mk.injEq] at h
        rw [← h.2]; omega

/-- Reads members until the closing brace. -/
def inObject (l : Layout α) (first : Bool) (seen : List String) (record : α)
    (text : Bytes) : Result α :=
  match _h : nextMember first text with
  | .error fault => .error fault
  | .ok (false, rest) =>
    match l.missing? seen with
    | some name => .error (.memberMissing name)
    | none => .ok (record, rest)
  | .ok (true, rest) =>
    match _hk : string rest with
    | .error fault => .error fault
    | .ok (key, rest) =>
      match _hm : l.member key seen record rest with
      | .error fault => .error fault
      | .ok ((seen, record), rest) => inObject l false seen record rest
termination_by text.length
decreasing_by
  have := nextMember_length _h
  have := string_length _hk
  have := member_length _hm
  omega

theorem inObject_length {l : Layout α} {first : Bool} {seen : List String}
    {record value : α} {text rest : Bytes}
    (h : l.inObject first seen record text = .ok (value, rest)) :
    rest.length < text.length := by
  fun_induction inObject l first seen record text with
  | case3 =>
    rename_i next _
    simp only [Except.ok.injEq, Prod.mk.injEq] at h
    rw [← h.2]; exact nextMember_length next
  | case6 =>
    rename_i next _ _ key _ _ _ stored ih
    have := ih h
    have := nextMember_length next
    have := string_length key
    have := member_length stored
    omega
  | _ => simp at h

/-! ### Records -/

/-- Reads a record in either form. -/
def readRecord (l : Layout α) (text : Bytes) : Result α :=
  match trimFront text with
  | [] => .error (.textEnds .value)
  | b :: rest =>
    if b = sym '[' then
      match l.inOrder true l.blank l.members rest with
      | .error fault => .error fault
      | .ok (record, rest) => (closeList rest).map (record, ·)
    else if b = sym '{' then l.inObject true [] l.blank rest
    else .error (mismatch l.name b rest)

theorem readRecord_length {l : Layout α} {value : α} {text rest : Bytes}
    (h : l.readRecord text = .ok (value, rest)) : rest.length < text.length := by
  unfold readRecord at h
  split at h
  · simp at h
  · rename_i ht
    have := trimFront_cons_length ht
    split at h
    · split at h
      · simp at h
      · rename_i ho
        obtain ⟨_, closed, ends⟩ := map_eq_ok.1 h
        have := inOrder_length ho
        have := closeList_length closed
        rw [← (Prod.mk.inj ends).2]; omega
    split at h
    · have := inObject_length h; omega
    · simp at h

/-- Decodes records. -/
def decoder (l : Layout α) : Decoder α :=
  ⟨l.readRecord, readRecord_length⟩

end Layout

end CallTrace.Json
