import CallTrace.Analysis
import CallTrace.Decimal.Natural

/-!
# Arguments

Arguments are read from left to right, and each is checked as it is read: the first one
that is wrong, or asks for help or for the version, decides.

There are two positional arguments, the command and the trace file.  Options may stand
before, between and after them, until `--`; everything after that is positional.  Short
options can share a dash, and the count may follow its option directly, after an equals
sign, or as the next argument.  An option may be given only once.
-/

namespace CallTrace

/-- What the arguments ask for. -/
structure Arguments where
  request : AnalysisRequest
  verbose : Bool := false
deriving DecidableEq, Repr

/-- What is wrong with arguments that cannot be understood. -/
inductive Complaint where
  | unknownCommand (word : String)
  | emptyPath
  /-- There is no place for an argument. -/
  | unexpected (word : String)
  | unreadCount (word : String)
  | missingCount
  | repeated (option : String)
  | missing (names : List String)
deriving DecidableEq, Repr

/-- Reasons to stop before anything is run. -/
inductive Usage where
  | help
  | version
  /-- The arguments cannot be understood. -/
  | error (complaint : Complaint)
deriving DecidableEq, Repr

/-- A way to understand arguments, the first of which is the name of the program. -/
abbrev ArgumentReader := List String → Except Usage Arguments

namespace Arguments

/-- What was understood so far. -/
structure Draft where
  grouping : Option Grouping := none
  path : Option String := none
  count : Option Nat := none
  verbose : Bool := false
deriving DecidableEq, Repr, Inhabited

/-- The grouping that a command stands for. -/
def command? (word : String) : Option Grouping :=
  if word = "top" then some .qualifiedName
  else if word = "prefix" then some .namePrefix
  else none

/-- Takes a positional argument: first the command, then the path. -/
def Draft.positional (d : Draft) (word : String) : Except Usage Draft :=
  match d.grouping, d.path with
  | none, _ =>
    match command? word with
    | some grouping => .ok { d with grouping }
    | none => .error (.error (.unknownCommand word))
  | some _, none =>
    if word.isEmpty then .error (.error .emptyPath) else .ok { d with path := word }
  | some _, some _ => .error (.error (.unexpected word))

/-- Takes the value of the count. -/
def Draft.setCount (d : Draft) (word : List Char) : Except Usage Draft :=
  match d.count, Decimal.natural? UInt64.size word with
  | some _, _ => .error (.error (.repeated "--count <COUNT>"))
  | none, some count => .ok { d with count }
  | none, none => .error (.error (.unreadCount (String.ofList word)))

def Draft.setVerbose (d : Draft) : Except Usage Draft :=
  if d.verbose then .error (.error (.repeated "--verbose")) else .ok { d with verbose := true }

/-- Takes options that share a dash.  The answer tells whether the value of the count is
    still to come. -/
def Draft.short (d : Draft) : List Char → Except Usage (Bool × Draft)
  | [] => .ok (false, d)
  | 'v' :: rest => d.setVerbose.bind fun d => d.short rest
  | 'h' :: _ => .error .help
  | 'V' :: _ => .error .version
  | ['c'] => .ok (true, d)
  | 'c' :: '=' :: value => (d.setCount value).map (false, ·)
  | 'c' :: value => (d.setCount value).map (false, ·)
  | c :: _ => .error (.error (.unexpected (String.ofList ['-', c])))

/-- Takes an option with a long name, without its dashes. -/
def Draft.long (d : Draft) (name : List Char) : Except Usage (Bool × Draft) :=
  if name = "verbose".toList then d.setVerbose.map (false, ·)
  else if name = "help".toList then .error .help
  else if name = "version".toList then .error .version
  else if name = "count".toList then .ok (true, d)
  else if "count=".toList.isPrefixOf name then (d.setCount (name.drop 6)).map (false, ·)
  else .error (.error (.unexpected ("--" ++ String.ofList name)))

/-- Takes one argument before `--`. -/
def Draft.word (d : Draft) (word : String) : Except Usage (Bool × Draft) :=
  match word.toList with
  | '-' :: '-' :: name => d.long name
  | '-' :: c :: rest => d.short (c :: rest)
  | _ => (d.positional word).map (false, ·)

/-- Whether an argument would be read as an option. -/
def isOption (word : String) : Bool :=
  word.startsWith "-" && word != "-"

/-- Takes all arguments after the name of the program. -/
def Draft.words (d : Draft) : List String → Except Usage Draft
  | [] => .ok d
  | word :: rest =>
    if word = "--" then rest.foldlM Draft.positional d
    else
      match d.word word, rest with
      | .error usage, _ => .error usage
      | .ok (false, d), rest => d.words rest
      | .ok (true, _), [] => .error (.error .missingCount)
      | .ok (true, d), value :: rest =>
        if isOption value then .error (.error (.unexpected value))
        else
          match d.setCount value.toList with
          | .error usage => .error usage
          | .ok d => d.words rest

/-- The arguments, provided that nothing is missing. -/
def Draft.complete (d : Draft) : Except Usage Arguments :=
  match d.grouping, d.path with
  | some grouping, some path =>
    .ok { request := { path, grouping, count := d.count.getD 100 }, verbose := d.verbose }
  | some _, none => .error (.error (.missing ["<FILE>"]))
  | none, _ => .error (.error (.missing ["<COMMAND>", "<FILE>"]))

/-- Reads the arguments of the program. -/
def read : ArgumentReader := fun words =>
  (Draft.words {} words.tail).bind Draft.complete

end Arguments

end CallTrace
