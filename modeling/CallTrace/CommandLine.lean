import CallTrace.CommandLine.Arguments
import CallTrace.Output
import CallTrace.Report

/-!
# The command line

The program reports its progress, then prints the report.  Progress, report and errors
go to the same sink.  The program fails if the analysis does, or if the sink refuses a
part of the output.
-/

namespace CallTrace

/-- How the program is called. -/
def usageLine : String :=
  "Usage: trcan [OPTIONS] <COMMAND> <FILE>"

/-- What is said of arguments that cannot be understood.  If a word is at fault, it is quoted. -/
def Complaint.text : Complaint → String
  | .unknownCommand word =>
    "invalid value '" ++ word ++ "' for '<COMMAND>'\n  [possible values: top, prefix]"
  | .emptyPath => "a value is required for '<FILE>' but none was supplied"
  | .unexpected word => "unexpected argument '" ++ word ++ "' found\n\n" ++ usageLine
  | .unreadCount word => "invalid value '" ++ word ++ "' for '--count <COUNT>'"
  | .missingCount => "a value is required for '--count <COUNT>' but none was supplied"
  | .repeated option =>
    "the argument '" ++ option ++ "' cannot be used multiple times\n\n" ++ usageLine
  | .missing names =>
    "the following required arguments were not provided:\n"
      ++ String.join (names.map fun name => "  " ++ name ++ "\n") ++ "\n" ++ usageLine

/-- What is printed instead of running an analysis.  A line break is added to it. -/
def Usage.text : Usage → String
  | .version => "trcan 0.1.0\n"
  | .error complaint =>
    "error: " ++ complaint.text ++ "\n\nFor more information, try '--help'.\n"
  | .help =>
    "Call tree reader and most-called routine analysis for function boundary traces\n\n"
      ++ usageLine
      ++ "\n\nArguments:\n"
      ++ "  <COMMAND>  Analysis to run [possible values: top, prefix]\n"
      ++ "  <FILE>     Trace file to analyze\n"
      ++ "\nOptions:\n"
      ++ "  -c, --count <COUNT>  Number of ranking entries to print [default: 100]\n"
      ++ "  -v, --verbose        Enable verbose logging\n"
      ++ "  -h, --help           Print help\n"
      ++ "  -V, --version        Print version\n"

/-- Whether the program ends well after such a text. -/
def Usage.succeeds : Usage → Bool
  | .error _ => false
  | .help | .version => true

namespace CommandLine

open Printing

/-- Runs an analysis and prints its progress and its report.  The stores of the pool were opened
    before. -/
def analyze (files : Files) (a : AnalysisRequest) (pool : StorePool Unit := {}) :
    Printing Unit := do
  ofExcept (a.check.mapError RequestFault.message)
  if files a.path = .absent then throw ("File not found: " ++ a.path)
  print "Loading file..."
  let (store, _) ← ofExcept ((pool.openFile files a.path ()).mapError TraceError.message)
  print "done.\n"
  let (outcome, store) ← ofExcept ((store.analyze a.grouping a.count).mapError Misuse.report)
  let ranking ← ofExcept (outcome.mapError AnalysisError.message)
  ofExcept (store.close.1.mapError TraceError.message)
  offer (Report.write ranking)

/-- Runs the program on arguments that are understood in this way.  Gives its exit code, which is
    0 or 1.  The text of an error is offered to the sink even if the sink has refused a part of the
    output. -/
def runWith (read : ArgumentReader) (files : Files) (words : List String) (sink : Sink)
    (pool : StorePool Unit := {}) : Nat × Sink :=
  match read words with
  | .error usage =>
    (if usage.succeeds then 0 else 1, (sink.writeText (usage.text ++ "\n")).2)
  | .ok arguments =>
    match (analyze files arguments.request pool).run.run sink with
    | (.ok (), sink) => (0, sink)
    | (.error text, sink) => (1, (sink.writeText (text ++ "\n")).2)

/-- Runs the program. -/
def run (files : Files) (words : List String) (sink : Sink) (pool : StorePool Unit := {}) :
    Nat × Sink :=
  runWith Arguments.read files words sink pool

end CommandLine

end CallTrace
