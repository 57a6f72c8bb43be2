import CallTrace.Proofs.Document.Fields
import CallTrace.Proofs.Json.Writing
import CallTrace.Recording.OfFile

/-!
# The spelling of documents

A document can be written in many ways: the members of an object may come in any order and under
any of their names, members with their default may be left out, others may be added, blanks may
stand between tokens, and characters may be written as escapes.  The recording is that of the
document all the same, and a text that gives a member of some object twice has none
(`Recording.ofText_spelling`).
-/

namespace CallTrace

open Json

namespace Document

/-- The document, or a module, a client or a call in it, gives a member twice. -/
inductive Repeating (t : Bytes) : Prop where
  | document (h : Repeats fields t)
  | module {m : Bytes} (hm : Holds fields "modules" m t) (h : Repeats Module.fields m)
  | client {c : Bytes} (hc : Holds fields "clients" c t) (h : Repeats ClientEntry.fields c)
  | call {c e : Bytes} (hc : Holds fields "clients" c t) (he : Holds ClientEntry.fields "calls" e c)
      (h : Repeats CallEntry.fields e)

theorem not_accepts_repeating (t : Bytes) (h : Repeating t) : ¬ layout.decoder.Accepts t := by
  intro accepts
  cases h with
  | document h => exact Layout.not_repeats layout_fits accepts h
  | module hm h =>
    exact Layout.not_repeats Module.layout_fits (accepts_module accepts hm) h
  | client hc h =>
    exact Layout.not_repeats ClientEntry.layout_fits (accepts_client accepts hc) h
  | call hc he h =>
    exact Layout.not_repeats CallEntry.layout_fits
      (ClientEntry.accepts_call (accepts_client accepts hc) he) h

end Document

/-! ### Members of plain strings -/

namespace Json

theorem looseMember_quoted {key value : String} (hkey : isPlain key = true)
    (hvalue : isPlain value = true) : LooseText (quoted key) ∧ ValueText (quoted value) :=
  ⟨(stringText_quoted hkey).loose, (stringText_quoted hvalue).valueText⟩

theorem valueText_objectOf {members : List (Bytes × Bytes)} (h : LooseMembers members) :
    ValueText (objectOf members) :=
  .object (membersText_objectOf members) (fun m hm => (h m hm).1) fun m hm => (h m hm).2

end Json

/-! ### A document in an unusual spelling -/

def CallEntry.shuffled : CallEntry where
  id := 18446744073709551615
  spec := { functionName := "f", moduleName := "m" }

/-- The last members come first, one of them under its other name. -/
def CallEntry.shuffledText : Bytes :=
  objectOf [(quoted "module", quoted "m"), (quoted "name", quoted "f"),
    (quoted "id", ascii "18446744073709551615"), (quoted "parent", ascii "null")]

theorem CallEntry.recordText_shuffled : RecordText fields shuffled shuffledText := by
  have function : StringText "f" (quoted "f") := stringText_quoted (by decide)
  have module : StringText "m" (quoted "m") := stringText_quoted (by decide)
  have id : Word64Text 18446744073709551615 (ascii "18446744073709551615") := by
    rw [Word64Text]
    decide +kernel
  refine ⟨[("module", quoted "m"), ("name", quoted "f"), ("id", ascii "18446744073709551615"),
    ("parent", ascii "null")], ⟨_, membersText_objectOf _, ?_⟩, ?_⟩
  · repeat apply List.Forall₂.cons ⟨stringText_quoted (by decide), rfl⟩
    exact .nil
  · constructor
    · simp [fields, Field.names, shuffled, function, module, id, NullableText.none]
    · simp [fields, Field.names]
    · simp [fields, Field.names]
    · simp [fields, Field.names, shuffled]

def ClientEntry.shuffled : ClientEntry where
  client := ⟨4, 4294967295⟩
  calls := [.shuffled]

def ClientEntry.shuffledText : Bytes :=
  objectOf [(quoted "tid", ascii "4294967295"), (quoted "calls", listOf [CallEntry.shuffledText]),
    (quoted "pid", ascii "4")]

theorem ClientEntry.recordText_shuffled : RecordText fields shuffled shuffledText := by
  have process : Word32Text 4 (ascii "4") := by
    rw [Word32Text]
    decide +kernel
  have thread : Word32Text 4294967295 (ascii "4294967295") := by
    rw [Word32Text]
    decide +kernel
  have calls : ItemTexts (RecordText CallEntry.fields) [.shuffled]
      (listOf [CallEntry.shuffledText]) :=
    ⟨_, listText_listOf _, .cons CallEntry.recordText_shuffled .nil⟩
  refine ⟨[("tid", ascii "4294967295"), ("calls", listOf [CallEntry.shuffledText]),
    ("pid", ascii "4")], ⟨_, membersText_objectOf _, ?_⟩, ?_⟩
  · repeat apply List.Forall₂.cons ⟨stringText_quoted (by decide), rfl⟩
    exact .nil
  · constructor
    · simp [fields, Field.names, shuffled, process, thread, calls]
    · simp [fields, Field.names]
    · simp [fields, Field.names]
    · simp [fields, Field.names]

theorem stringText_version : StringText "version" (quoted "\\u0076ersion") := by
  have unit : UnitText (((0 * 16 + 0) * 16 + 7) * 16 + 6) [sym '0', sym '0', sym '7', sym '6'] :=
    .digits (.inl ⟨by decide, by decide⟩) (.inl ⟨by decide, by decide⟩)
      (.inl ⟨by decide, by decide⟩) (.inl ⟨by decide, by decide⟩)
  have first : CharText 'v' (sym '\\' :: sym 'u' :: [sym '0', sym '0', sym '7', sym '6']) :=
    .unit unit
  have later : CharsText "ersion".toList (bytes "ersion") := charsText_bytes (by decide)
  exact ⟨_, .cons first later, by decide +kernel⟩

def Document.shuffled : Document where
  version := "1.0"
  clients := [.shuffled]

/-- There is a member that no document has, and the version is written with an escape. -/
def Document.shuffledText : Bytes :=
  objectOf [(quoted "clients", listOf [ClientEntry.shuffledText]),
    (quoted "note", listOf [ascii "null"]), (quoted "\\u0076ersion", quoted "1.0")]

theorem Document.recordText_shuffled : RecordText fields shuffled shuffledText := by
  have version : StringText "1.0" (quoted "1.0") := stringText_quoted (by decide)
  have clients : ItemTexts (RecordText ClientEntry.fields) [.shuffled]
      (listOf [ClientEntry.shuffledText]) :=
    ⟨_, listText_listOf _, .cons ClientEntry.recordText_shuffled .nil⟩
  have note : ValueText (listOf [ascii "null"]) := by
    apply ValueText.list (listText_listOf _)
    intro item hitem
    rw [List.mem_singleton.mp hitem]
    exact .null
  refine ⟨[("clients", listOf [ClientEntry.shuffledText]), ("note", listOf [ascii "null"]),
    ("version", quoted "1.0")], ⟨_, membersText_objectOf _, ?_⟩, ?_⟩
  · apply List.Forall₂.cons ⟨stringText_quoted (by decide), rfl⟩
    apply List.Forall₂.cons ⟨stringText_quoted (by decide), rfl⟩
    apply List.Forall₂.cons ⟨stringText_version, rfl⟩
    exact .nil
  · constructor
    · simp [fields, Field.names, shuffled, version, clients]
    · simp [fields, Field.names, note]
    · simp [fields, Field.names]
    · simp [fields, Field.names, shuffled]

/-! ### A document that gives a path twice -/

def Module.twoPaths : List (Bytes × Bytes) :=
  [(quoted "path", quoted "a"), (quoted "name", quoted "m"), (quoted "file_path", quoted "b")]

theorem Module.looseMembers_twoPaths : LooseMembers twoPaths := by
  simp only [LooseMembers, twoPaths, List.forall_mem_cons]
  refine ⟨looseMember_quoted (by decide) (by decide), looseMember_quoted (by decide) (by decide),
    looseMember_quoted (by decide) (by decide),
    List.forall_mem_nil _⟩

theorem Module.repeats_twoPaths : Repeats fields (objectOf twoPaths) := by
  refine ⟨_, membersText_objectOf _, looseMembers_twoPaths, _,
    List.mem_cons_of_mem _ List.mem_cons_self, (quoted "path", quoted "a"),
    (quoted "file_path", quoted "b"), ?_, ?_, ?_⟩
  · simp [twoPaths]
  · exact ⟨"path", List.mem_cons_self, stringText_quoted (by decide)⟩
  · exact ⟨"file_path", List.mem_cons_of_mem _ List.mem_cons_self, stringText_quoted (by decide)⟩

def Document.twoPaths : List (Bytes × Bytes) :=
  [(quoted "version", quoted "1.0"), (quoted "modules", listOf [objectOf Module.twoPaths])]

theorem Document.repeating_twoPaths : Repeating (objectOf twoPaths) := by
  have module : ∀ item ∈ [objectOf Module.twoPaths], ValueText item := by
    intro item hitem
    rw [List.mem_singleton.mp hitem]
    exact valueText_objectOf Module.looseMembers_twoPaths
  have members : LooseMembers twoPaths := by
    simp only [LooseMembers, twoPaths, List.forall_mem_cons]
    refine ⟨looseMember_quoted (by decide) (by decide),
      ⟨(stringText_quoted (by decide)).loose, .list (listText_listOf _) module⟩,
      List.forall_mem_nil _⟩
  have gives : Gives fields "modules" (listOf [objectOf Module.twoPaths])
      (objectOf twoPaths) := by
    apply Gives.member (membersText_objectOf _) members
      (List.mem_cons_of_mem _ List.mem_cons_self) (List.mem_cons_of_mem _ List.mem_cons_self) rfl
    exact ⟨"modules", List.mem_cons_self, stringText_quoted (by decide)⟩
  exact .module ⟨_, _, gives, listText_listOf _, module, List.mem_cons_self⟩
    Module.repeats_twoPaths

/-! ### Recordings -/

theorem Recording.ofText_eq {d : Document} {text : String}
    (h : Alone (RecordText Document.fields d) (bytes text)) :
    ofText text = (ofDocument d).mapError fun fault =>
      .cannotOpen "<inline>" (.document fault) := by
  have read : Document.ofJson (bytes text) = .ok d := Document.layout_fits.reads.decode h
  change (ofJson (bytes text)).mapError _ = _
  rw [ofJson, read]
  cases hr : ofDocument d with
  | error fault => simp only [hr, Except.mapError]
  | ok r => simp only [hr, Except.mapError]

/-- Every document has a text with its outcome. -/
theorem Recording.exists_ofText (d : Document) :
    ∃ text, ofText text = (ofDocument d).mapError fun fault =>
      .cannotOpen "<inline>" (.document fault) := by
  obtain ⟨_, ht, text, rfl⟩ := d.exists_text
  refine ⟨text, ofText_eq ⟨[], bytes text, [], blanks_nil, blanks_nil, ht, ?_⟩⟩
  rw [List.append_nil, List.nil_append]

/-- However a document is spelled, its text has the outcome of the document, and no text that gives
    a member of an object twice has a recording. -/
theorem Recording.ofText_spelling (text : String) :
    (∀ d : Document, Alone (RecordText Document.fields d) (bytes text) →
      ofText text = (ofDocument d).mapError fun fault =>
        .cannotOpen "<inline>" (.document fault)) ∧
    (Alone Document.Repeating (bytes text) →
      ∃ fault, ofText text = .error (.cannotOpen "<inline>" (.json fault))) := by
  constructor
  · intro d hd
    exact ofText_eq hd
  · intro h
    obtain ⟨fault, read⟩ := Decoder.decode_of_not_accepts Document.not_accepts_repeating h
    refine ⟨fault, ?_⟩
    change (ofJson (bytes text)).mapError _ = _
    rw [ofJson, Document.ofJson, read]
    rfl

/-- Out of order, with other names, an escape and a member that no document has; and a module with
    its path under both names. -/
theorem Recording.ofText_spelling_shuffled :
    ofText (" \x7b\"clients\":[\x7b\"tid\":4294967295,\"calls\":[\x7b\"module\":\"m\","
        ++ "\"name\":\"f\",\"id\":18446744073709551615,\"parent\":null\x7d],\"pid\":4\x7d],"
        ++ "\"note\":[null],\"\\u0076ersion\":\"1.0\"\x7d\n") =
      (ofDocument Document.shuffled).mapError
        (fun fault => .cannotOpen "<inline>" (.document fault)) ∧
    ∃ fault, ofText ("\x7b\"version\":\"1.0\",\"modules\":[\x7b\"path\":\"a\",\"name\":\"m\","
        ++ "\"file_path\":\"b\"\x7d]\x7d") = .error (.cannotOpen "<inline>" (.json fault)) := by
  constructor
  · apply (ofText_spelling _).1
    refine ⟨[0x20], _, [0x0A], ?_, ?_, Document.recordText_shuffled, ?_⟩
    · simp [Blanks]
    · simp [Blanks]
    · decide +kernel
  · apply (ofText_spelling _).2
    refine ⟨[], _, [], blanks_nil, blanks_nil, Document.repeating_twoPaths, ?_⟩
    decide +kernel

end CallTrace
