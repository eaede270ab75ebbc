/-!
# Files

A path leads step by step from the top directory, or from the working directory, to a file or a
directory. A step can only be made out of a directory; one dot stays there and two go up. A file
can be read if it holds text, and made where its directory exists.

Key definitions: `FileFault`, `FileFault.message`, `Files`, `Files.place`, `Files.read`,
`Files.create`.
-/

namespace ByteMachine

/-- Why a file cannot be read or made. -/
inductive FileFault where
  | missing
  | denied
  | notDirectory
  | isDirectory
  | longName
  | notText
deriving DecidableEq, Repr, Inhabited

namespace FileFault

/-- A failure by its number, its kind and its wording. -/
def numbered (code : Nat) (kind wording : String) : String :=
  "Os \x7b code: " ++ toString code ++ ", kind: " ++ kind ++ ", message: \"" ++ wording ++ "\" \x7d"

def message : FileFault → String
  | missing => numbered 2 "NotFound" "No such file or directory"
  | denied => numbered 13 "PermissionDenied" "Permission denied"
  | notDirectory => numbered 20 "NotADirectory" "Not a directory"
  | isDirectory => numbered 21 "IsADirectory" "Is a directory"
  | longName => numbered 36 "InvalidFilename" "File name too long"
  | notText =>
    "Error \x7b kind: InvalidData, message: \"stream did not contain valid UTF-8\" \x7d"

end FileFault

/-- A place is the list of the names that lead to it from the top directory. -/
abbrev Place := List String

/-- What is at a place. Without a text, a file holds bytes that are none. -/
inductive Entry where
  | directory
  | file (text : Option String)
deriving DecidableEq, Repr, Inhabited

/-- The files and directories that there are, and the working directory. The top directory
always is one. -/
structure Files where
  entries : List (Place × Entry)
  working : Place
deriving DecidableEq, Repr, Inhabited

namespace Files

def get? (f : Files) (place : Place) : Option Entry :=
  if place.isEmpty then some .directory else f.entries.lookup place

/-- The names of a path, between its slashes. -/
def names : List Char → List (List Char)
  | [] => [[]]
  | c :: cs =>
    if c = '/' then [] :: names cs
    else
      match names cs with
      | [] => [[c]]
      | name :: rest => (c :: name) :: rest

/-- The place that a name leads to. -/
def step (f : Files) (place : Place) (name : String) : Except FileFault Place :=
  match f.get? place with
  | none => .error .missing
  | some (.file _) => .error .notDirectory
  | some .directory =>
    if name.isEmpty || name = "." then .ok place
    else if name = ".." then .ok place.dropLast
    else if 255 < name.utf8ByteSize then .error .longName
    else .ok (place ++ [name])

/-- The place that a path leads to. -/
def place (f : Files) (path : String) : Except FileFault Place :=
  if 4095 < path.utf8ByteSize then .error .longName
  else
    let start := if path.toList.head? = some '/' then [] else f.working
    ((names path.toList).map String.ofList).foldlM f.step start

/-- The text of the file that a path leads to. -/
def read (f : Files) (path : String) : Except FileFault String := do
  match f.get? (← f.place path) with
  | none => .error .missing
  | some .directory => .error .isDirectory
  | some (.file none) => .error .notText
  | some (.file (some text)) => .ok text

/-- The path without the slashes at its end. -/
def dropSlashes (path : String) : String :=
  String.ofList (path.toList.reverse.dropWhile (· = '/')).reverse

/-- Makes an empty file where a path leads to, or empties the one that is there. A path that ends
with a slash asks for a directory. -/
def create (f : Files) (path : String) : Except FileFault Files := do
  let place ← f.place (dropSlashes path)
  if f.get? place = some .directory || path.toList.getLast? = some '/' then .error .isDirectory
  else .ok { f with entries := (place, .file (some "")) :: f.entries }

end Files

end ByteMachine
