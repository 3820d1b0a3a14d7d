import PascalTree.Report

/-!
# Log — what commands tell about their work

Commands go through events, of which a log shows those up to a level of detail. Without the verbose
flag it shows warnings only, and there are none. Events beyond the most detailed level, such as each
literal that resolves, are never shown and left out.
-/

namespace PascalTree
namespace Cli

/-- How detailed an event is. -/
inductive Level where
  | warn
  | info
  | debug
  deriving DecidableEq

namespace Level

def name : Level → String
  | warn => "WARN"
  | info => "INFO"
  | debug => "DEBUG"

/-- The place of a level, from the least detailed one on. -/
def detail : Level → Nat
  | warn => 0
  | info => 1
  | debug => 2

end Level

/-- What a command reports about its work. -/
inductive Event where
  | sourceRead (path : String) (bytes : Nat)
  | programLoaded (name : String) (nodes : Nat)
  /-- A literal or a routine was refused. -/
  | refused (error : BuildError)
  deriving DecidableEq

namespace Event

/-- A program has been loaded. -/
def ofProgram (p : Program) : Event := programLoaded p.name.name (Node.program p).count

/-- What is told where no report can be given: the construction that was refused, if one was, which
may be that of a literal within a stored program. -/
def ofReportError : ReportError → List Event
  | .load error =>
    match error.fault with
    | .refused error => [refused error]
    | _ => []
  | .build error => [refused error]

def level : Event → Level
  | sourceRead .. => .debug
  | programLoaded .. => .info
  | refused .. => .debug

/-- An event in words, followed by its data. -/
def message : Event → String
  | sourceRead path bytes => s!"read syntax tree path={path} bytes={bytes}"
  | programLoaded name nodes => s!"loaded syntax tree program={Text.quoted name} nodes={nodes}"
  | refused (.malformedLiteral text) =>
    let error := BuildError.malformedLiteral text
    s!"literal rejected text={Text.quoted text} err={error.message}"
  | refused error => s!"routine declaration rejected err={error.message}"

/-- A line of the log. -/
def line (e : Event) : String := s!"{e.level.name} {e.message}"

/-- Whether a log up to a level of detail shows the event. -/
def shownAt (limit : Level) (e : Event) : Bool := e.level.detail ≤ limit.detail

end Event

end Cli
end PascalTree
