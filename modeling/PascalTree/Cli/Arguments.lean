/-!
# Arguments — the command line

A command line names one of four commands and its only argument. A verbose flag may stand once
before and once behind the name of the command, and `--` makes plain arguments of all that follow
it.
-/

namespace PascalTree
namespace Cli

/-- A command with its argument. -/
inductive Command where
  | render (path : String)
  | stats (path : String)
  | idents (path : String)
  | literal (text : String)
  deriving DecidableEq

/-- What a command line asks for. -/
structure Invocation where
  /-- Whether a verbose flag was given. -/
  verbose : Bool
  command : Command
  deriving DecidableEq

/-- Why a command line gives no command. -/
inductive Refusal where
  /-- It is not of the required form. -/
  | usage
  /-- It asks for help. -/
  | help
  deriving DecidableEq

/-- The names of the commands. -/
inductive CommandName where
  | render
  | stats
  | idents
  | literal
  deriving DecidableEq

namespace CommandName

def ofString? : String → Option CommandName
  | "render" => some render
  | "stats" => some stats
  | "idents" => some idents
  | "literal" => some literal
  | _ => none

/-- The command of this name with an argument. -/
def command : CommandName → String → Command
  | render => .render
  | stats => .stats
  | idents => .idents
  | literal => .literal

/-- The command of this name with an argument; a path must not be empty. -/
def apply (name : CommandName) (argument : String) : Except Refusal Command :=
  if argument = "" ∧ name ≠ .literal then .error .usage else .ok (name.command argument)

end CommandName

/-- One flag of an argument. -/
inductive Flag where
  | verbose
  | help
  | unknown
  deriving DecidableEq

/-- An argument by its form. -/
inductive Argument where
  /-- The separator `--`. -/
  | separator
  /-- One long flag or any number of short ones. -/
  | flags (flags : List Flag)
  | plain (text : String)

namespace Argument

/-- The flag written by one letter. -/
def shortFlag (c : Char) : Flag :=
  if c = 'v' then .verbose else if c = 'h' then .help else .unknown

/-- The form of an argument; a lone `-` is plain. -/
def ofString (text : String) : Argument :=
  match text.toList with
  | ['-', '-'] => .separator
  | '-' :: '-' :: _ =>
    .flags [if text = "--verbose" then .verbose else if text = "--help" then .help else .unknown]
  | '-' :: c :: letters => .flags ((c :: letters).map shortFlag)
  | _ => .plain text

end Argument

/-- Goes through flags; `verbose` says that the verbose flag has been given, which may be done
once. -/
def takeFlags (verbose : Bool) : List Flag → Except Refusal Bool
  | [] => .ok verbose
  | .verbose :: flags => if verbose then .error .usage else takeFlags true flags
  | .help :: _ => .error .help
  | .unknown :: _ => .error .usage

/-- The command of a name from the arguments behind the separator and the argument given before
it. -/
def endPlain (name : CommandName) : (given : Option Command) → List String → Except Refusal Command
  | some command, [] => .ok command
  | none, [argument] => name.apply argument
  | _, _ => .error .usage

/-- Reads the arguments behind the name of a command. -/
def readArgument (name : CommandName) :
    (verbose : Bool) → (given : Option Command) → List String → Except Refusal Invocation
  | verbose, given, [] => do return ⟨verbose, ← endPlain name given []⟩
  | verbose, given, text :: rest =>
    match Argument.ofString text with
    | .separator => do return ⟨verbose, ← endPlain name given rest⟩
    | .flags flags => do readArgument name (← takeFlags verbose flags) given rest
    | .plain argument =>
      match given with
      | some _ => .error .usage
      | none => do readArgument name verbose (some (← name.apply argument)) rest

/-- Reads the arguments behind `help`: at most the name of one command. -/
def readHelp : List String → Refusal
  | [] => .help
  | [name] => if (CommandName.ofString? name).isSome || name == "help" then .help else .usage
  | _ => .usage

/-- Reads a command line. The flag is asked for before or behind the name of the command. -/
def readCommand : (verbose : Bool) → List String → Except Refusal Invocation
  | _, [] => .error .usage
  | verbose, text :: rest =>
    match Argument.ofString text with
    | .separator => .error .usage
    | .flags flags => do readCommand (← takeFlags verbose flags) rest
    | .plain name =>
      match CommandName.ofString? name with
      | some name => do
        let invocation ← readArgument name false none rest
        return { invocation with verbose := verbose || invocation.verbose }
      | none => .error (if name = "help" then readHelp rest else .usage)

/-- What a command line asks for. -/
def parse (args : List String) : Except Refusal Invocation := readCommand false args

end Cli
end PascalTree
