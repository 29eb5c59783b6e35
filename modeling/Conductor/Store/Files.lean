import Conductor.Keyed

/-!
# Files

A tree of directories and text files, by their paths. A path is a list of names.

* `Files.read`, `Files.write`, `Files.remove` : operations on one file;
* `Files.makeDirectory` : a directory with all those above it;
* `Files.ofTexts` : a tree of given files;
* `FileFault.message` : why an operation has failed.
-/

namespace Conductor

/-- What stands at a path. -/
inductive FileNode where
  | file (text : String)
  | directory
  deriving DecidableEq, Repr, Inhabited

/-- Why an operation on files has failed. -/
inductive FileFault where
  | notFound
  | exists_
  | notADirectory
  | isADirectory
  | nameTooLong
  deriving DecidableEq, Repr, Inhabited

/-- The wording of a fault. -/
def FileFault.message : FileFault → String
  | .notFound => "No such file or directory (os error 2)"
  | .exists_ => "File exists (os error 17)"
  | .notADirectory => "Not a directory (os error 20)"
  | .isADirectory => "Is a directory (os error 21)"
  | .nameTooLong => "File name too long (os error 36)"

/-- What stands below the current directory: the nodes by their paths. -/
abbrev Files := List (List String × FileNode)

namespace Files

/-- The names of a path. -/
def pathOf (s : String) : List String :=
  (s.splitOn "/").filter fun part => part ≠ "" ∧ part ≠ "."

/-- What stands at a path. -/
def get? (fs : Files) (path : List String) : Option FileNode :=
  if path.isEmpty then some .directory else fs.lookup path

/-- The tree with a node at a path, in place of what stood there. -/
def put (fs : Files) (path : List String) (node : FileNode) : Files :=
  (fs.filter fun e => e.1 ≠ path) ++ [(path, node)]

/-- The longest name in bytes. -/
def longestName : Nat := 255

/-- Why a path cannot be reached from a place in the tree, if it cannot. -/
def unreachable? (fs : Files) (above : List String) : List String → Option FileFault
  | [] => none
  | name :: rest =>
    match fs.get? above with
    | none => some .notFound
    | some (.file _) => some .notADirectory
    | some .directory =>
      if longestName < name.utf8ByteSize then some .nameTooLong
      else fs.unreachable? (above ++ [name]) rest

/-- The text of a file. -/
def read (fs : Files) (path : List String) : Except FileFault String :=
  match fs.unreachable? [] path with
  | some f => .error f
  | none => match fs.get? path with
    | none => .error .notFound
    | some .directory => .error .isADirectory
    | some (.file text) => .ok text

/-- A file with a text, new or in place of another text. -/
def write (fs : Files) (path : List String) (text : String) : Except FileFault Files :=
  match fs.unreachable? [] path with
  | some f => .error f
  | none => match fs.get? path with
    | some .directory => .error .isADirectory
    | _ => .ok (fs.put path (.file text))

/-- The tree without a file. -/
def remove (fs : Files) (path : List String) : Except FileFault Files :=
  match fs.unreachable? [] path with
  | some f => .error f
  | none => match fs.get? path with
    | none => .error .notFound
    | some .directory => .error .isADirectory
    | some (.file _) => .ok (fs.filter fun e => e.1 ≠ path)

/-- A directory below a place in the tree, with all directories on the way. -/
def makeBelow (fs : Files) (above : List String) : List String → Except FileFault Files
  | [] => .ok fs
  | name :: rest =>
    let here := above ++ [name]
    match fs.get? here with
    | some .directory => fs.makeBelow here rest
    | some (.file _) => .error (if rest.isEmpty then .exists_ else .notADirectory)
    | none =>
      if longestName < name.utf8ByteSize then .error .nameTooLong
      else (fs.put here .directory).makeBelow here rest

/-- A directory with all those above it. -/
def makeDirectory (fs : Files) (path : List String) : Except FileFault Files :=
  fs.makeBelow [] path

/-- The tree with a text file and all directories above it, as far as it can be made. -/
def provide (fs : Files) (path : List String) (text : String) : Files :=
  let made := (fs.makeDirectory path.dropLast).toOption.getD fs
  (made.write path text).toOption.getD made

/-- The tree of files, given by their paths and texts. -/
def ofTexts (l : List (String × String)) : Files :=
  l.foldl (fun fs p => fs.provide (pathOf p.1) p.2) []

/-- The first of some paths that leads to a file, with its text. -/
def readFirst? (fs : Files) (paths : List String) : Option String :=
  paths.findSome? fun p => (fs.read (pathOf p)).toOption

/-- The names in a directory, in order. -/
def names (fs : Files) (path : List String) : List String :=
  (Keyed.ofList (fs.filterMap fun e =>
    match e.1.getLast? with
    | some name => if e.1.dropLast = path then some (name, ()) else none
    | none => none)).keys

end Files

end Conductor
