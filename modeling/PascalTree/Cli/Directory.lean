/-!
# Directory — the files a command can read

A directory is given by its entries, each under a path. Looking a path up goes through its
components: empty ones and `.` stay, `..` goes back, a name leads on, and only a directory can be
passed through. Around the directory there are others, of which nothing more is known.

* `Directory.read`: the text of the file under a path, or why there is none.
-/

namespace PascalTree
namespace Cli

/-- Why a file could not be read. -/
inductive ReadFault where
  | notFound
  | isDirectory
  | notDirectory
  | nameTooLong
  | notText
  /-- A fault outside the model of a directory, in the system's words and with its number. -/
  | system (reason : String) (number : Nat)
  deriving DecidableEq

namespace ReadFault

/-- A reason of the system with its number. -/
def numbered (reason : String) (number : Nat) : String :=
  reason ++ " (os error " ++ toString number ++ ")"

def describe : ReadFault → String
  | notFound => numbered "No such file or directory" 2
  | isDirectory => numbered "Is a directory" 21
  | notDirectory => numbered "Not a directory" 20
  | nameTooLong => numbered "File name too long" 36
  | notText => "stream did not contain valid UTF-8"
  | system reason number => numbered reason number

end ReadFault

/-! ## Paths -/

/-- What one component of a path asks for. -/
inductive Step where
  | stay
  | back
  | enter (name : String)
  deriving DecidableEq

/-- The step a component stands for. -/
def Step.ofComponent (component : String) : Step :=
  if component = "" ∨ component = "." then .stay
  else if component = ".." then .back
  else .enter component

/-- The steps of a path. -/
def steps (path : String) : List Step :=
  (path.toList.splitOn '/').map fun component => .ofComponent (String.ofList component)

/-- The names that lead to where a step goes, from the names that lead to where it starts. -/
def Step.names : List String → Step → List String
  | names, stay => names
  | names, back => names.dropLast
  | names, enter name => names ++ [name]

/-- The names that lead to the entry of a path. -/
def entryNames (path : String) : List String := (steps path).foldl Step.names []

/-- A directory that a path passes through. -/
inductive Place where
  /-- One below the given directory, or that itself, by the names that lead to it. -/
  | inside (names : List String)
  /-- One around it. -/
  | outside
  deriving DecidableEq

namespace Place

def parent : Place → Place
  | inside [] => outside
  | inside names => inside names.dropLast
  | outside => outside

/-- Where a path starts. -/
def start (path : String) : Place :=
  if path.toList.head? = some '/' then outside else inside []

end Place

/-- The most bytes of a name. -/
def nameLimit : Nat := 255

/-- The most bytes of a path. -/
def pathLimit : Nat := 4095

/-! ## Entries -/

/-- What stands under a path. -/
inductive Entry where
  | file (bytes : ByteArray)
  | directory

/-- A directory: its entries by their paths. -/
structure Directory where
  entries : List (String × Entry)

namespace Directory

/-- The entry that some names lead to. Of two entries in one place the later counts, and a
directory need not have an entry of its own. -/
def entryAt? (dir : Directory) (names : List String) : Option Entry :=
  match dir.entries.reverse.find? fun e => entryNames e.1 == names with
  | some e => some e.2
  | none =>
    if dir.entries.any fun e => names.isPrefixOf (entryNames e.1) then some .directory else none

/-- Goes some steps from a place. -/
def follow (dir : Directory) (place : Place) : List Step → Except ReadFault Entry
  | [] => .ok .directory
  | .stay :: rest => dir.follow place rest
  | .back :: rest => dir.follow place.parent rest
  | .enter name :: rest =>
    if nameLimit < name.utf8ByteSize then .error .nameTooLong
    else
      match place with
      | .outside => .error .notFound
      | .inside names =>
        match dir.entryAt? (names ++ [name]) with
        | none => .error .notFound
        | some .directory => dir.follow (.inside (names ++ [name])) rest
        | some (.file bytes) => if rest.isEmpty then .ok (.file bytes) else .error .notDirectory

/-- The text of some bytes. -/
def decode (bytes : ByteArray) : Except ReadFault String :=
  match String.fromUTF8? bytes with
  | some text => .ok text
  | none => .error .notText

/-- The text of the file under a path. -/
def read (dir : Directory) (path : String) : Except ReadFault String :=
  if pathLimit < path.utf8ByteSize then .error .nameTooLong
  else
    match dir.follow (.start path) (steps path) with
    | .error fault => .error fault
    | .ok .directory => .error .isDirectory
    | .ok (.file bytes) => decode bytes

end Directory

end Cli
end PascalTree
