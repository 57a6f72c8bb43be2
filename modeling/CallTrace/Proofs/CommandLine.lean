import CallTrace.CommandLine
import CallTrace.Proofs.Document.Analysis
import CallTrace.Proofs.FileTree
import CallTrace.Proofs.Printing

/-!
# The command line

The command line takes the steps of `AnalysisRequest.run` between the parts of its output, and
looks for the file by itself.  It comes to the same end (`run_reports_analysis`), and if its sink
takes only a part of the output, it is the beginning (`run_cut`).  Neither depends on how the
arguments are understood.
-/

namespace CallTrace

open Printing

namespace AnalysisRequest

variable {a : AnalysisRequest} {files : Files} {pool : StorePool Unit}

theorem run_unchecked {fault : RequestFault} (h : a.check = .error fault) :
    a.run files pool = .error (.request fault) := by
  rw [run, h]
  rfl

theorem run_unopened (h : a.check = .ok ()) {cause : TraceError}
    (refused : Recording.ofFile files a.path = .error cause) :
    a.run files pool = .error (.opening cause) := by
  rw [run, h, StorePool.openFile, refused]
  rfl

/-- A file that was opened can always be closed. -/
theorem run_opened (h : a.check = .ok ()) {r : Recording}
    (opened : Recording.ofFile files a.path = .ok r) :
    a.run files pool =
      Counted.ranking (r.reader.histogram pool.places.size a.grouping.key .empty ()).1
        a.count := by
  rw [run, h, StorePool.openFile, opened]
  exact bind_pure (m := Except AnalysisError) _

end AnalysisRequest

theorem Counted.ranking_cases (counted : Counted) (count : Nat) :
    (∃ ranking, counted.ranking count = .ok ranking) ∨
      ∃ cause, counted.ranking count = .error (.reading cause) := by
  obtain ⟨t, e | _⟩ := counted
  · exact .inr ⟨e, rfl⟩
  · exact .inl ⟨_, rfl⟩

theorem Recording.ofFile_error {files : Files} {path : String} {cause : TraceError}
    (h : Recording.ofFile files path = .error cause) :
    files path = .absent ∧ cause = .notFound path ∨
      files path ≠ .absent ∧ ∃ failure, cause = .cannotOpen path failure := by
  rw [ofFile] at h
  cases state : files path with
  | absent =>
    rw [state] at h
    cases h
    exact .inl ⟨rfl, rfl⟩
  | directory =>
    rw [state] at h
    cases h
    exact .inr ⟨by simp, _, rfl⟩
  | unreadable reason =>
    rw [state] at h
    cases h
    exact .inr ⟨by simp, _, rfl⟩
  | file contents =>
    simp only [state] at h
    refine .inr ⟨by simp, ?_⟩
    cases decoded : ofJson contents with
    | ok r =>
      rw [decoded] at h
      cases h
    | error failure =>
      rw [decoded] at h
      cases h
      exact ⟨failure, rfl⟩

theorem Recording.ofFile_ok {files : Files} {path : String} {r : Recording}
    (h : Recording.ofFile files path = .ok r) : files path ≠ .absent := by
  intro absent
  rw [ofFile, absent] at h
  cases h

namespace CommandLine

section Analyze

variable {a : AnalysisRequest} {files : Files} (pool : StorePool Unit)

theorem analyze_unchecked (files : Files) {fault : RequestFault} (h : a.check = .error fault) :
    Prints (analyze files a pool) "" (.error fault.message) := by
  rw [analyze, h]
  exact prints_error_bind fault.message

theorem analyze_absent (h : a.check = .ok ()) (absent : files a.path = .absent) :
    Prints (analyze files a pool) "" (.error ("File not found: " ++ a.path)) := by
  rw [analyze, h]
  refine prints_ok_bind ?_
  rw [if_pos absent]
  exact prints_error_bind _

theorem analyze_unopened (h : a.check = .ok ()) (present : files a.path ≠ .absent)
    {cause : TraceError} (refused : Recording.ofFile files a.path = .error cause) :
    Prints (analyze files a pool) "Loading file..." (.error cause.message) := by
  rw [analyze, h, StorePool.openFile, refused]
  refine prints_ok_bind ?_
  rw [if_neg present]
  refine prints_print_bind "" ?_ rfl
  exact prints_error_bind cause.message

theorem analyze_opened (h : a.check = .ok ()) {r : Recording}
    (opened : Recording.ofFile files a.path = .ok r) {outcome : Except AnalysisError Ranking}
    (counted : Counted.ranking (r.reader.histogram pool.places.size a.grouping.key .empty ()).1
      a.count = outcome) :
    match outcome with
    | .ok ranking =>
      Prints (analyze files a pool) ("Loading file...done.\n" ++ Report.format ranking) (.ok ())
    | .error e => Prints (analyze files a pool) "Loading file...done.\n" (.error e.message) := by
  rw [analyze, h, StorePool.openFile, opened, if_neg (Recording.ofFile_ok opened)]
  have analyzed : (pool.next r.reader ()).analyze a.grouping a.count =
      .ok (outcome, { pool.next r.reader () with
        state := (r.reader.histogram pool.places.size a.grouping.key .empty ()).2 }) := by
    rw [← counted]
    rfl
  cases outcome with
  | error e =>
    refine prints_ok_bind ?_
    refine prints_print_bind "done.\n" ?_ rfl
    refine prints_ok_bind ?_
    refine prints_print_bind "" ?_ rfl
    rw [analyzed]
    refine prints_ok_bind ?_
    exact prints_error_bind e.message
  | ok ranking =>
    refine prints_ok_bind ?_
    refine prints_print_bind ("done.\n" ++ Report.format ranking) ?_ ?_
    · refine prints_ok_bind ?_
      refine prints_print_bind (Report.format ranking) ?_ rfl
      rw [analyzed]
      refine prints_ok_bind ?_
      refine prints_ok_bind ?_
      refine prints_ok_bind ?_
      exact prints_print (Report.format ranking)
    · rw [← String.append_assoc]
      rfl

/-- Whatever stands at the path, all that is printed is one text. -/
theorem exists_prints (files : Files) (a : AnalysisRequest) :
    ∃ text result, Prints (analyze files a pool) text result := by
  cases checked : a.check with
  | error fault => exact ⟨_, _, analyze_unchecked pool files checked⟩
  | ok _ =>
    cases opening : Recording.ofFile files a.path with
    | error cause =>
      rcases Recording.ofFile_error opening with ⟨absent, -⟩ | ⟨present, -⟩
      · exact ⟨_, _, analyze_absent pool checked absent⟩
      · exact ⟨_, _, analyze_unopened pool checked present opening⟩
    | ok r =>
      rcases Counted.ranking_cases (r.reader.histogram pool.places.size a.grouping.key .empty ()).1
        a.count with ⟨ranking, outcome⟩ | ⟨cause, outcome⟩
      · exact ⟨_, _, analyze_opened pool checked opening outcome⟩
      · exact ⟨_, _, analyze_opened pool checked opening outcome⟩

end Analyze

/-- The line that reports how an analysis failed. -/
def lastLine : Except String Unit → String
  | .ok _ => ""
  | .error text => text ++ "\n"

variable {read : ArgumentReader} {files : Files} {words : List String} {arguments : Arguments}
  {pool : StorePool Unit} {text : String} {result : Except String Unit}

/-- The program offers the text of the analysis and the last line to its sink, and fails if
    the sink refuses a part of them. -/
theorem run_of_prints (h : read words = .ok arguments)
    (prints : Prints (analyze files arguments.request pool) text result) (sink : Sink) :
    runWith read files words sink pool =
      (if result.toBool && (sink.writeText (text ++ lastLine result)).1 then 0 else 1,
        (sink.writeText (text ++ lastLine result)).2) := by
  have full : (sink.writeText text).1 = false → ∀ more,
      ((sink.writeText text).2.writeText more).2 = (sink.writeText text).2 :=
    fun cut more => sink.write_full cut more.toUTF8.data.toList
  rw [runWith, h]
  dsimp only
  rw [prints sink, Sink.writeText_append]
  generalize sink.writeText text = outcome at full
  obtain ⟨_ | _, left⟩ := outcome
  · -- The refusal is offered to a sink that takes nothing more.
    have nothing := full rfl (left.refusal ++ "\n")
    dsimp only at nothing ⊢
    rw [nothing, Bool.and_false]
    rfl
  · cases result with
    | ok _ => simp [lastLine, Sink.writeText_empty, Except.toBool]
    | error e => rfl

end CommandLine

/-! ### Traces of three calls -/

/-- A routine calls another one, of this module, and is called again. -/
def threeCallsText (moduleName : String) : String :=
  "\x7b\"version\":\"1.0\",\"modules\":[\x7b\"name\":\"nt\"\x7d],"
    ++ "\"clients\":[\x7b\"pid\":4,\"tid\":8,"
    ++ "\"calls\":[\x7b\"id\":1,\"name\":\"NtOpen\",\"module\":\"nt\"\x7d,"
    ++ "\x7b\"id\":2,\"parent\":1,\"name\":\"NtRead\",\"module\":\"" ++ moduleName ++ "\"\x7d,"
    ++ "\x7b\"id\":3,\"name\":\"NtOpen\",\"module\":\"nt\"\x7d]\x7d]\x7d"

/-- The document of that text. -/
def threeCalls (moduleName : String) : Document where
  version := "1.0"
  modules := [{ name := "nt" }]
  clients := [
    { client := ⟨4, 8⟩
      calls := [{ id := 1, spec := { functionName := "NtOpen", moduleName := "nt" } },
        { id := 2, parent := some 1, spec := { functionName := "NtRead", moduleName } },
        { id := 3, spec := { functionName := "NtOpen", moduleName := "nt" } }] }]

/-- The recording of that document. -/
def threeNodes (moduleName : String) : Recording where
  modules := #[{ name := "nt" }]
  clients := #[{ client := ⟨4, 8⟩, roots := #[0, 2] }]
  nodes := #[
    { spec := { functionName := "NtOpen", moduleName := "nt" }, client := 0, children := #[1] },
    { spec := { functionName := "NtRead", moduleName }, client := 0 },
    { spec := { functionName := "NtOpen", moduleName := "nt" }, client := 0 }]

/-- The text stands in a file in a directory. -/
def threeCallsIn (moduleName : String) : Files :=
  ((FileTree.ofFiles [("logs", .directory)]).put "logs/trace.json"
    (.file (threeCallsText moduleName).toUTF8.data.toList)).look

theorem ofDocument_threeCalls (moduleName : String) :
    Recording.ofDocument (threeCalls moduleName) = .ok (threeNodes moduleName) := by
  cbv

theorem ofFile_threeCalls {moduleName : String}
    (decoded : (Document.ofJson (threeCallsText moduleName).toUTF8.data.toList).toOption =
      some (threeCalls moduleName)) :
    Recording.ofFile (threeCallsIn moduleName) "logs/trace.json" = .ok (threeNodes moduleName) := by
  have file : threeCallsIn moduleName "logs/trace.json" =
      .file (threeCallsText moduleName).toUTF8.data.toList :=
    (FileTree.look_put rfl (by decide) rfl rfl).1
  exact Recording.ofFile_eq_ok file decoded (ofDocument_threeCalls moduleName)

theorem ofFile_listed :
    Recording.ofFile (threeCallsIn "nt") "logs/trace.json" = .ok (threeNodes "nt") :=
  ofFile_threeCalls (by decide +kernel)

theorem ofFile_unlisted :
    Recording.ofFile (threeCallsIn "gone") "logs/trace.json" = .ok (threeNodes "gone") :=
  ofFile_threeCalls (by decide +kernel)

theorem read_topTrace : Arguments.read ["trcan", "top", "logs/trace.json"] =
    .ok { request := { path := "logs/trace.json" } } := by
  rfl

/-- The second call lies below the first, and the third comes after both. -/
theorem threeCalls_traversal (moduleName : String) :
    Traversal (threeCalls moduleName).placed
      (topPlaces (clientsOf (threeCalls moduleName).clients) (threeCalls moduleName).placed)
      [0, 1, 2] := by
  have second : Traversal (threeCalls moduleName).placed [1] ([1] ++ []) := .normal rfl .nil .nil
  have third : Traversal (threeCalls moduleName).placed [2] ([2] ++ []) := .normal rfl .nil .nil
  change Traversal _ [0, 2] (0 :: ([1] ++ [2]))
  exact .normal rfl second third

theorem histogram_threeCalls (moduleName : String) :
    ((threeNodes moduleName).reader.histogram 0 Call.qualifiedName .empty ()).1 =
      Tally.empty.fold Call.qualifiedName
        (Delivery.upTo 0 ([0, 1, 2].map (threeNodes moduleName).recordAt)).items :=
  (Recording.recorded_of_ok (ofDocument_threeCalls moduleName)).histogram_order 0 .qualifiedName ()
    (threeCalls_traversal moduleName)

theorem ranking_listed :
    Counted.ranking ((threeNodes "nt").reader.histogram 0 Call.qualifiedName .empty ()).1 100 =
      .ok ⟨[⟨"nt!NtOpen", 2⟩, ⟨"nt!NtRead", 1⟩], 3⟩ := by
  have names : (Delivery.upTo 0 ([0, 1, 2].map (threeNodes "nt").recordAt)).calls.map
      Call.qualifiedName = ["nt!NtOpen", "nt!NtRead", "nt!NtOpen"] := by
    decide +kernel
  have complete : (Delivery.upTo 0 ([0, 1, 2].map (threeNodes "nt").recordAt)).failure = none :=
    rfl
  have entries : (Tally.accumulateAll .empty ["nt!NtOpen", "nt!NtRead", "nt!NtOpen"]).entries =
      [("nt!NtOpen", 2), ("nt!NtRead", 1)] := by
    decide +kernel
  rw [histogram_threeCalls, Tally.fold_items, names, complete]
  simp only [Counted.ranking, Ranking.ofTally, entries]
  rw [List.mergeSort_of_pairwise (by decide)]
  rfl

theorem ranking_unlisted :
    Counted.ranking ((threeNodes "gone").reader.histogram 0 Call.qualifiedName .empty ()).1 100 =
      .error (.reading (.cannotRead (.unknownModule ⟨1⟩ "NtRead" "gone"))) := by
  rw [histogram_threeCalls]
  rfl

/-- What the program prints if the module is listed. -/
def listedOutput : String :=
  "Loading file...done.\n" ++ String.ofList (List.replicate 51 ' ') ++ "nt!NtOpen\t2\n"
    ++ String.ofList (List.replicate 51 ' ') ++ "nt!NtRead\t1\n\n3 events total\n"

theorem listedOutput_eq :
    "Loading file...done.\n" ++ Report.format ⟨[⟨"nt!NtOpen", 2⟩, ⟨"nt!NtRead", 1⟩], 3⟩ =
      listedOutput := by
  decide +kernel

/-! ### An unlimited sink -/

/-- A sink without a limit that has taken a text. -/
def Sink.holding (text : String) : Sink :=
  { taken := text.toUTF8.data.toList }

theorem Sink.writeText_unlimited (text : String) :
    Sink.writeText text {} = (true, .holding text) := by
  simp [writeText, write, holding]

namespace CommandLine

variable {read : ArgumentReader} {files : Files} {words : List String} {arguments : Arguments}
  {pool : StorePool Unit} {text : String} {result : Except String Unit}

theorem run_unlimited (h : read words = .ok arguments)
    (prints : Prints (analyze files arguments.request pool) text result) :
    runWith read files words {} pool =
      (if result.toBool then 0 else 1, Sink.holding (text ++ lastLine result)) := by
  rw [run_of_prints h prints, Sink.writeText_unlimited, Bool.and_true]

end CommandLine

/-- However the arguments are understood, the program succeeds exactly if the analysis of them
    does, and prints the ranking that the analysis has, or else the error with which it ends.
    The program itself understands them as `Arguments.read` does. -/
theorem run_reports_analysis (read : ArgumentReader) (files : Files) (words : List String)
    (pool : StorePool Unit) {arguments : Arguments} (h : read words = .ok arguments) :
    ((CommandLine.runWith read files words {} pool).1 = 0 ↔
      ∃ ranking, arguments.request.run files pool = .ok ranking) ∧
    match arguments.request.run files pool with
    | .ok ranking => CommandLine.runWith read files words {} pool =
        (0, .holding ("Loading file...done.\n" ++ Report.format ranking))
    | .error (.request fault) => CommandLine.runWith read files words {} pool =
        (1, .holding ((AnalysisError.request fault).message ++ "\n"))
    | .error (.opening (.notFound path)) =>
        path = arguments.request.path ∧ files path = .absent ∧
          CommandLine.runWith read files words {} pool =
            (1, .holding ("File not found: " ++ path ++ "\n"))
    | .error (.opening cause) =>
        files arguments.request.path ≠ .absent ∧ CommandLine.runWith read files words {} pool =
          (1, .holding ("Loading file..." ++ ((AnalysisError.opening cause).message ++ "\n")))
    | .error (.reading cause) => CommandLine.runWith read files words {} pool =
        (1, .holding ("Loading file...done.\n" ++ ((AnalysisError.reading cause).message ++ "\n")))
    | .error (.closing _) | .error (.misused _) => False := by
  cases checked : arguments.request.check with
  | error fault =>
    have printed :=
      CommandLine.run_unlimited h (CommandLine.analyze_unchecked pool files checked)
    rw [AnalysisRequest.run_unchecked checked, printed]
    exact ⟨by simp [Except.toBool], rfl⟩
  | ok _ =>
    cases opening : Recording.ofFile files arguments.request.path with
    | error cause =>
      rw [AnalysisRequest.run_unopened checked opening]
      rcases Recording.ofFile_error opening with ⟨absent, rfl⟩ | ⟨present, failure, rfl⟩
      · have printed :=
          CommandLine.run_unlimited h (CommandLine.analyze_absent pool checked absent)
        rw [printed]
        exact ⟨by simp [Except.toBool], rfl, absent, rfl⟩
      · have printed :=
          CommandLine.run_unlimited h (CommandLine.analyze_unopened pool checked present opening)
        rw [printed]
        exact ⟨by simp [Except.toBool], present, rfl⟩
    | ok r =>
      rw [AnalysisRequest.run_opened checked opening]
      rcases Counted.ranking_cases
        (r.reader.histogram pool.places.size arguments.request.grouping.key .empty ()).1
        arguments.request.count with ⟨ranking, outcome⟩ | ⟨cause, outcome⟩
      · have printed :=
          CommandLine.run_unlimited h (CommandLine.analyze_opened pool checked opening outcome)
        rw [CommandLine.lastLine, String.append_empty] at printed
        rw [outcome, printed]
        exact ⟨by simp [Except.toBool], rfl⟩
      · have printed :=
          CommandLine.run_unlimited h (CommandLine.analyze_opened pool checked opening outcome)
        rw [outcome, printed]
        exact ⟨by simp [Except.toBool], rfl⟩

/-- The routines of a trace are printed, then an error in its calls, then an error of the system. -/
theorem run_reports_analysis_threeCalls :
    Arguments.read ["trcan", "top", "logs/trace.json"] =
        .ok { request := { path := "logs/trace.json" } } ∧
      CommandLine.run (threeCallsIn "nt") ["trcan", "top", "logs/trace.json"] {} =
        (0, .holding listedOutput) ∧
      CommandLine.run (threeCallsIn "gone") ["trcan", "top", "logs/trace.json"] {} =
        (1, .holding ("Loading file...done.\nFailed to read call tree: Failed to read trace: " ++
          "call 1 (NtRead) references unknown module 'gone'\n")) ∧
      CommandLine.run (threeCallsIn "nt") ["trcan", "-c2", "prefix", "logs"] {} =
        (1, .holding ("Loading file...Failed to open trace file logs: " ++
          "Is a directory (os error 21)\n")) := by
  have ranked := (run_reports_analysis Arguments.read (threeCallsIn "nt") _ {} read_topTrace).2
  have failed := (run_reports_analysis Arguments.read (threeCallsIn "gone") _ {} read_topTrace).2
  have refused := (run_reports_analysis Arguments.read (threeCallsIn "nt")
    ["trcan", "-c2", "prefix", "logs"] {} rfl).2
  dsimp only at ranked failed
  rw [(AnalysisRequest.run_opened rfl ofFile_listed).trans ranking_listed] at ranked
  rw [(AnalysisRequest.run_opened rfl ofFile_unlisted).trans ranking_unlisted] at failed
  dsimp only at ranked
  rw [listedOutput_eq] at ranked
  exact ⟨read_topTrace, ranked, failed, refused.2⟩

/-! ### Arguments that are not understood -/

/-- The first argument is taken for a command, unless it is an option. -/
theorem Arguments.read_unknownCommand (program : String) {word : String} (later : List String)
    (plain : ∀ c rest, word.toList ≠ '-' :: c :: rest) (unknown : command? word = none) :
    read (program :: word :: later) = .error (.error (.unknownCommand word)) := by
  have positional : Draft.word {} word = .error (.error (.unknownCommand word)) := by
    unfold Draft.word
    split
    · rename_i name hword
      exact absurd hword (plain '-' name)
    · rename_i c rest _ hword
      exact absurd hword (plain c rest)
    · simp only [Draft.positional, unknown]
      rfl
  have notEnd : word ≠ "--" := by
    rintro rfl
    exact plain '-' [] rfl
  have stops : Draft.words {} (word :: later) = .error (.error (.unknownCommand word)) := by
    unfold Draft.words
    rw [if_neg notEnd, positional]
  rw [read, List.tail_cons, stops]
  rfl

theorem append_quoted (front left word right back : String) :
    front ++ (left ++ word ++ right) ++ back = front ++ left ++ word ++ (right ++ back) := by
  simp only [String.append_assoc]

/-- What is said of an unknown command quotes it. -/
theorem Usage.text_unknownCommand (word : String) :
    ∃ front back, (Usage.error (.unknownCommand word)).text = front ++ word ++ back :=
  ⟨_, _, append_quoted ..⟩

/-- An unknown command is quoted, and the program fails, whatever else it is given. -/
theorem run_unknownCommand (files : Files) (program : String) {word : String}
    (later : List String) (pool : StorePool Unit)
    (plain : ∀ c rest, word.toList ≠ '-' :: c :: rest)
    (unknown : Arguments.command? word = none) :
    ∃ front back, CommandLine.run files (program :: word :: later) {} pool =
      (1, .holding (front ++ word ++ back)) := by
  obtain ⟨front, back, quoted⟩ := Usage.text_unknownCommand word
  refine ⟨front, back ++ "\n", ?_⟩
  have read := Arguments.read_unknownCommand program later plain unknown
  simp only [CommandLine.run, CommandLine.runWith, read, quoted]
  rw [Sink.writeText_unlimited, String.append_assoc]
  rfl

/-! ### A limited sink -/

/-- What a limited sink takes is cut from what an unlimited one takes. -/
theorem Sink.writeText_limited (text : String) (limit : Nat) (refusal : String) :
    Sink.writeText text { room := some limit, refusal } =
      (decide (text.toUTF8.data.toList.length ≤ limit),
        { room := some (limit - text.toUTF8.data.toList.length)
          taken := text.toUTF8.data.toList.take limit
          refusal }) := by
  simp [writeText, write]

/-- Wherever the output is cut, a limited sink has taken its beginning, and the program succeeds
    exactly if it would have succeeded and nothing was cut.  A report is cut in the same way. -/
theorem run_cut (read : ArgumentReader) (files : Files) (words : List String)
    (pool : StorePool Unit) {arguments : Arguments} (h : read words = .ok arguments) (limit : Nat)
    (refusal : String) :
    let whole := CommandLine.runWith read files words {} pool
    CommandLine.runWith read files words { room := some limit, refusal } pool =
        (if whole.1 = 0 ∧ whole.2.taken.length ≤ limit then 0 else 1,
          { room := some (limit - whole.2.taken.length)
            taken := whole.2.taken.take limit
            refusal }) ∧
      ∀ ranking,
        let report := (Report.format ranking).toUTF8.data.toList
        Report.write ranking { room := some limit, refusal } =
          (decide (report.length ≤ limit),
            { room := some (limit - report.length), taken := report.take limit, refusal }) := by
  obtain ⟨text, result, prints⟩ := CommandLine.exists_prints pool files arguments.request
  intro whole
  refine ⟨?_, fun ranking => Sink.writeText_limited _ limit refusal⟩
  have uncut : whole = _ := CommandLine.run_unlimited h prints
  rw [uncut, CommandLine.run_of_prints h prints, Sink.writeText_limited]
  cases result with
  | error e => simp [Except.toBool, Sink.holding]
  | ok _ => simp [Except.toBool, Sink.holding]

/-- The sink is full in the middle of a ranked line, just large enough, and full in the middle of
    an error. -/
theorem run_cut_threeCalls :
    Arguments.read ["trcan", "top", "logs/trace.json"] =
        .ok { request := { path := "logs/trace.json" } } ∧
      CommandLine.run (threeCallsIn "nt") ["trcan", "top", "logs/trace.json"]
          { room := some 75 } =
        (1, { room := some 0
              taken := ("Loading file...done.\n" ++ String.ofList (List.replicate 51 ' ')
                ++ "nt!").toUTF8.data.toList }) ∧
      CommandLine.run (threeCallsIn "nt") ["trcan", "top", "logs/trace.json"]
          { room := some 163 } =
        (0, { Sink.holding listedOutput with room := some 0 }) ∧
      CommandLine.run (threeCallsIn "gone") ["trcan", "top", "logs/trace.json"]
          { room := some 33 } =
        (1, { room := some 0
              taken := "Loading file...done.\nFailed to re".toUTF8.data.toList }) := by
  have twice := CommandLine.analyze_opened (a := { path := "logs/trace.json" }) {} rfl
    ofFile_listed ranking_listed
  have lost := CommandLine.analyze_opened (a := { path := "logs/trace.json" }) {} rfl
    ofFile_unlisted ranking_unlisted
  dsimp only at twice
  rw [listedOutput_eq] at twice
  have whole := CommandLine.run_unlimited read_topTrace twice
  have failed := CommandLine.run_unlimited read_topTrace lost
  have inLine := (run_cut Arguments.read (threeCallsIn "nt") _ {} read_topTrace 75
    ({} : Sink).refusal).1
  have fits := (run_cut Arguments.read (threeCallsIn "nt") _ {} read_topTrace 163
    ({} : Sink).refusal).1
  have inError := (run_cut Arguments.read (threeCallsIn "gone") _ {} read_topTrace 33
    ({} : Sink).refusal).1
  rw [whole] at inLine fits
  rw [failed] at inError
  refine ⟨read_topTrace, inLine.trans ?_, fits.trans ?_, inError.trans ?_⟩ <;> decide +kernel

end CallTrace
