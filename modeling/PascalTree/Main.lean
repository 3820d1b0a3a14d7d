import PascalTree.Cli.Run

/-!
# Main — the program

Reads the file that the command line names, runs the command and prints its result and what it
logged.
-/

namespace PascalTree
namespace Cli

/-- The fault with a number of the system; some numbers are given as the negative in 32 bits. -/
def faultOfNumber (number : UInt32) (reason : String) : ReadFault :=
  match (if number < 0x80000000 then number else -number).toNat with
  | 2 => .notFound
  | 20 => .notDirectory
  | 21 => .isDirectory
  | 36 => .nameTooLong
  | n => .system reason.capitalize n

/-- The text of a file of the system. -/
def readSystemFile (path : String) : IO (Except ReadFault String) := do
  try
    return Directory.decode (← IO.FS.readBinFile path)
  catch e =>
    match e with
    | .noFileOrDirectory _ number reason
    | .inappropriateType _ number reason
    | .invalidArgument _ number reason
    | .permissionDenied _ number reason
    | .resourceExhausted _ number reason
    | .hardwareFault number reason
    | .otherError number reason => return .error (faultOfNumber number reason)
    | e => return .error (.system (toString e) 0)

/-- The result of a command line. -/
def runArguments (args : List String) : IO Result := do
  match parse args with
  | .error refusal => return .ofRefusal refusal
  | .ok invocation =>
    match invocation.command.path? with
    | none => return invocation.run fun _ => .error .notFound
    | some path =>
      let contents ← readSystemFile path
      return invocation.run fun _ => contents

end Cli
end PascalTree

def main (args : List String) : IO UInt32 := do
  let result ← PascalTree.Cli.runArguments args
  for event in result.log do
    IO.eprintln event.line
  IO.print result.stdout
  if let some error := result.error then
    IO.eprintln s!"Error: {error}"
  return result.status.toUInt32
