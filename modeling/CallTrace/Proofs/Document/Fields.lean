import CallTrace.Document.Layout
import CallTrace.Proofs.Json.Acceptance

/-!
# Fields of documents

What a document looks like in JSON: the fields of each kind of record, with their names, the texts
for their values and their defaults.  The layouts by which documents are decoded fit these fields,
so what is known of records in general holds of documents (`Layout.Fits.decoder`,
`Layout.accepts_of_holds`).
-/

namespace CallTrace

open Json

/-! ### Fields -/

def Module.fields : List (Json.Field Module) := [
  { Value := String, name := "name", get := name, put := fun v m => { m with name := v },
    IsText := StringText },
  { Value := String, name := "path", aliases := ["file_path"], get := path,
    put := fun v m => { m with path := v }, IsText := StringText, default? := some "" },
  { Value := UInt64, name := "load_address", get := loadAddress,
    put := fun v m => { m with loadAddress := v }, IsText := Word64Text, default? := some 0 },
  { Value := UInt32, name := "size", get := size, put := fun v m => { m with size := v },
    IsText := Word32Text, default? := some 0 }]

def CallEntry.fields : List (Json.Field CallEntry) := [
  { Value := UInt64, name := "id", get := id, put := fun v e => { e with id := v },
    IsText := Word64Text },
  { Value := Option UInt64, name := "parent", get := parent,
    put := fun v e => { e with parent := v }, IsText := NullableText Word64Text,
    default? := some none },
  { Value := String, name := "function", aliases := ["name"], get := (·.spec.functionName),
    put := describe fun v s => { s with functionName := v }, IsText := StringText },
  { Value := String, name := "module", get := (·.spec.moduleName),
    put := describe fun v s => { s with moduleName := v }, IsText := StringText },
  { Value := EntryType, name := "entry", get := (·.spec.entry),
    put := describe fun v s => { s with entry := v }, IsText := fun v => StringText v.text,
    default? := some .normal },
  { Value := ExitType, name := "exit", get := (·.spec.exit),
    put := describe fun v s => { s with exit := v }, IsText := fun v => StringText v.text,
    default? := some .normal },
  { Value := UInt64, name := "entry_timestamp", get := (·.spec.entryTimestamp),
    put := describe fun v s => { s with entryTimestamp := v }, IsText := Word64Text,
    default? := some 0 },
  { Value := UInt64, name := "exit_timestamp", get := (·.spec.exitTimestamp),
    put := describe fun v s => { s with exitTimestamp := v }, IsText := Word64Text,
    default? := some 0 },
  { Value := UInt64, name := "caller_ip", get := (·.spec.callerIp),
    put := describe fun v s => { s with callerIp := v }, IsText := Word64Text,
    default? := some 0 },
  { Value := UInt64, name := "return_value", get := (·.spec.returnValue),
    put := describe fun v s => { s with returnValue := v }, IsText := Word64Text,
    default? := some 0 }]

def ClientEntry.fields : List (Json.Field ClientEntry) := [
  { Value := UInt32, name := "process_id", aliases := ["pid"], get := (·.client.processId),
    put := fun v e => { e with client := { e.client with processId := v } },
    IsText := Word32Text },
  { Value := UInt32, name := "thread_id", aliases := ["tid"], get := (·.client.threadId),
    put := fun v e => { e with client := { e.client with threadId := v } },
    IsText := Word32Text },
  { Value := List CallEntry, name := "calls", get := calls,
    put := fun v e => { e with calls := v }, IsText := ItemTexts (RecordText CallEntry.fields),
    default? := some [] }]

def Document.fields : List (Json.Field Document) := [
  { Value := String, name := "version", get := version,
    put := fun v d => { d with version := v }, IsText := StringText },
  { Value := List Module, name := "modules", get := modules,
    put := fun v d => { d with modules := v }, IsText := ItemTexts (RecordText Module.fields),
    default? := some [] },
  { Value := List ClientEntry, name := "clients", get := clients,
    put := fun v d => { d with clients := v },
    IsText := ItemTexts (RecordText ClientEntry.fields), default? := some [] }]

/-! ### Layouts -/

theorem Module.layout_fits : layout.Fits fields where
  members :=
    .cons (Member.fits_required Decoder.fits_string _ _ _ _) <|
    .cons (Member.fits_optional Decoder.fits_string _ _ _ _ _) <|
    .cons (Member.fits_optional Decoder.fits_word64 _ _ _ _ _) <|
    .cons (Member.fits_optional Decoder.fits_word32 _ _ _ _ _) .nil
  distinct := by decide
  blank := by simp [fields, layout]
  get_put := by simp [fields]
  get_put_other := by simp [fields]
  ext := by
    rintro ⟨_, _, _, _⟩ ⟨_, _, _, _⟩ h
    simp_all [fields]

theorem CallEntry.parent_noNull (n : UInt64) (t : Bytes) (h : Word64Text n t) :
    t.head? ≠ some (sym 'n') := by
  subst h
  obtain ⟨b, t, heq, hdigit⟩ := starts_naturalText n.toNat
  rw [heq]
  rintro ⟨⟩
  exact absurd hdigit (by decide)

theorem EntryType.lookup_options (v : EntryType) : options.lookup v.text = some v := by
  cases v <;> decide

theorem ExitType.lookup_options (v : ExitType) : options.lookup v.text = some v := by
  cases v <;> decide

theorem CallEntry.layout_fits : layout.Fits fields where
  members :=
    .cons (Member.fits_required Decoder.fits_word64 _ _ _ _) <|
    .cons (Member.fits_optional (Decoder.fits_word64.nullable parent_noNull) _ _ _ _ _) <|
    .cons (Member.fits_required Decoder.fits_string _ _ _ _) <|
    .cons (Member.fits_required Decoder.fits_string _ _ _ _) <|
    .cons (Member.fits_optional (Decoder.fits_choice EntryType.lookup_options) _ _ _ _ _) <|
    .cons (Member.fits_optional (Decoder.fits_choice ExitType.lookup_options) _ _ _ _ _) <|
    .cons (Member.fits_optional Decoder.fits_word64 _ _ _ _ _) <|
    .cons (Member.fits_optional Decoder.fits_word64 _ _ _ _ _) <|
    .cons (Member.fits_optional Decoder.fits_word64 _ _ _ _ _) <|
    .cons (Member.fits_optional Decoder.fits_word64 _ _ _ _ _) .nil
  distinct := by decide
  blank := by simp [fields, layout]
  get_put := by simp [fields, describe]
  get_put_other := by simp [fields, describe]
  ext := by
    rintro ⟨_, _, spec⟩ ⟨_, _, spec'⟩ h
    cases spec
    cases spec'
    simp_all [fields]

theorem ClientEntry.layout_fits : layout.Fits fields where
  members :=
    .cons (Member.fits_required Decoder.fits_word32 _ _ _ _) <|
    .cons (Member.fits_required Decoder.fits_word32 _ _ _ _) <|
    .cons (Member.fits_optional CallEntry.layout_fits.decoder.list _ _ _ _ _) .nil
  distinct := by decide
  blank := by simp [fields, layout]
  get_put := by simp [fields]
  get_put_other := by simp [fields]
  ext := by
    rintro ⟨⟨_, _⟩, _⟩ ⟨⟨_, _⟩, _⟩ h
    simp_all [fields]

theorem Document.layout_fits : layout.Fits fields where
  members :=
    .cons (Member.fits_required Decoder.fits_string _ _ _ _) <|
    .cons (Member.fits_optional Module.layout_fits.decoder.list _ _ _ _ _) <|
    .cons (Member.fits_optional ClientEntry.layout_fits.decoder.list _ _ _ _ _) .nil
  distinct := by decide
  blank := by simp [fields, layout]
  get_put := by simp [fields]
  get_put_other := by simp [fields]
  ext := by
    rintro ⟨_, _, _⟩ ⟨_, _, _⟩ h
    simp_all [fields]

/-- What a document is written as is JSON. -/
theorem Document.valueText {d : Document} {t : Bytes} (h : RecordText fields d t) : ValueText t :=
  layout_fits.decoder.valueText d t h

/-- Every document can be written. -/
theorem Document.exists_text (d : Document) : ∃ t, RecordText fields d t ∧ Utf8 t :=
  layout_fits.decoder.writes d

/-! ### Items of lists -/

theorem ClientEntry.accepts_call {t e : Bytes} (h : layout.decoder.Accepts t)
    (he : Holds fields "calls" e t) : CallEntry.layout.decoder.Accepts e := by
  refine Layout.accepts_of_holds layout_fits CallEntry.layout_fits.decoder.skims h ?_ he
  intro m hm hname
  simp only [layout, List.mem_cons, List.not_mem_nil, or_false] at hm
  rcases hm with rfl | rfl | rfl
  · exact absurd hname (by decide)
  · exact absurd hname (by decide)
  · exact ⟨_, rfl⟩

theorem Document.accepts_module {t m : Bytes} (h : layout.decoder.Accepts t)
    (hm : Holds fields "modules" m t) : Module.layout.decoder.Accepts m := by
  refine Layout.accepts_of_holds layout_fits Module.layout_fits.decoder.skims h ?_ hm
  intro m hm hname
  simp only [layout, List.mem_cons, List.not_mem_nil, or_false] at hm
  rcases hm with rfl | rfl | rfl
  · exact absurd hname (by decide)
  · exact ⟨_, rfl⟩
  · exact absurd hname (by decide)

theorem Document.accepts_client {t c : Bytes} (h : layout.decoder.Accepts t)
    (hc : Holds fields "clients" c t) : ClientEntry.layout.decoder.Accepts c := by
  refine Layout.accepts_of_holds layout_fits ClientEntry.layout_fits.decoder.skims h ?_ hc
  intro m hm hname
  simp only [layout, List.mem_cons, List.not_mem_nil, or_false] at hm
  rcases hm with rfl | rfl | rfl
  · exact absurd hname (by decide)
  · exact absurd hname (by decide)
  · exact ⟨_, rfl⟩

end CallTrace
