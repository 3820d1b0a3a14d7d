import PascalTree.Cli.Arguments
import PascalTree.Cli.Directory
import PascalTree.Cli.Log
import PascalTree.Report

/-!
# Run — commands on files

Commands are run given a way to read files, such as from a directory.
-/

namespace PascalTree
namespace Cli

/-- Why a command failed. -/
inductive Failure where
  | read (path : String) (fault : ReadFault)
  | report (error : ReportError)

namespace Failure

def message : Failure → String
  | read path fault => "cannot read " ++ path ++ ": " ++ fault.describe
  | report error => error.message

end Failure

/-- What a command goes through, and its text or why there is none. -/
structure Execution where
  events : List Event
  report : Except Failure String

/-- Goes through some events and then fails. -/
def Execution.failing (events : List Event) (error : ReportError) : Execution :=
  { events := events ++ Event.ofReportError error, report := .error (.report error) }

/-- What a run leaves: its exit status, what it printed, its error, if any, and what it logged. -/
structure Result where
  status : Nat
  stdout : String
  error : Option String
  log : List Event
  deriving DecidableEq

namespace Result

/-- The result of a refused command line. -/
def ofRefusal : Refusal → Result
  | .usage => { status := 2, stdout := "", error := none, log := [] }
  | .help => { status := 0, stdout := "", error := none, log := [] }

/-- The result of a command: its text on a line, or its error. The log shows the events up to a
level of detail. -/
def ofExecution (limit : Level) (execution : Execution) : Result :=
  let log := execution.events.filter (Event.shownAt limit)
  match execution.report with
  | .ok text => { status := 0, stdout := text ++ "\n", error := none, log := log }
  | .error failure => { status := 1, stdout := "", error := some failure.message, log := log }

end Result

/-- A report on the program stored in a file, of which `contents` is the text. -/
def onFile (report : Program → String) (path : String) (contents : Except ReadFault String) :
    Execution :=
  match contents with
  | .error fault => { events := [], report := .error (.read path fault) }
  | .ok source =>
    let read := Event.sourceRead path source.utf8ByteSize
    match Report.parseProgram source with
    | .error error => .failing [read] error
    | .ok program => { events := [read, .ofProgram program], report := .ok (report program) }

namespace Command

/-- The file a command reads. -/
def path? : Command → Option String
  | render path => some path
  | stats path => some path
  | idents path => some path
  | literal _ => none

/-- Runs a command, given a way to read files. -/
def run (readFile : String → Except ReadFault String) : Command → Execution
  | render path => onFile Report.render path (readFile path)
  | stats path => onFile Report.stats path (readFile path)
  | idents path => onFile Report.idents path (readFile path)
  | literal text =>
    match Report.literal text with
    | .error error => .failing [] error
    | .ok label => { events := [], report := .ok label }

end Command

namespace Invocation

/-- How detailed the log is where the environment does not say otherwise. -/
def limit (invocation : Invocation) : Level := if invocation.verbose then .debug else .warn

/-- Runs the command. -/
def run (readFile : String → Except ReadFault String) (invocation : Invocation) : Result :=
  .ofExecution invocation.limit (invocation.command.run readFile)

end Invocation

/-- Runs a command line, given a way to read files. -/
def runWith (readFile : String → Except ReadFault String) (args : List String) : Result :=
  match parse args with
  | .error refusal => .ofRefusal refusal
  | .ok invocation => invocation.run readFile

/-- Runs a command line in a directory. -/
def run (dir : Directory) (args : List String) : Result := runWith dir.read args

end Cli
end PascalTree
