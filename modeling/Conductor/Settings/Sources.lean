import Conductor.Json.Reader
import Conductor.Settings.Reading
import Conductor.Store.Files
import Conductor.Toml.Reader

/-!
# Sources of settings

Settings come from a file in a usual place, from a file that is named, and from the environment;
each source goes before the ones that were read earlier. A file that is not there, or is not of a
known kind, says nothing.

* `Sources.layer` : what all sources say together;
* `Sources.settings` : the settings.
-/

namespace Conductor

/-- Where settings come from. -/
structure Sources where
  files : Files
  /-- The file that is named. -/
  path : Option String
  /-- The variables of the environment. -/
  environment : List (String × String)

namespace Sources

open Settings (Fault)

/-- What a source says: values under dotted paths. -/
abbrev Sayings := List (String × Layer)

/-- The part of a name behind its last point, unless the point stands first. -/
def extension? (name : String) : Option String :=
  match (name.splitOn ".").reverse with
  | _ :: [""] => none
  | ending :: _ :: _ => some ending
  | _ => none

/-- The text without a byte order mark in front. -/
def withoutMark (s : String) : String := String.ofList (Toml.withoutMark s.toList)

/-- What a text in the notation of an extension says; nothing when the extension is not known. -/
def sayingsOf (source extension text : String) : Except Fault Sayings :=
  let read : Option Layer :=
    match extension with
    | "toml" => (Toml.parse? text).map (Layer.ofToml source)
    | "json" => (Json.parse text).toOption.map (Layer.ofJson source)
    | _ => some .empty
  match read.bind Layer.entries? with
  | some entries => .ok entries
  | none => .error (.unreadable source)

/-- What a file says. -/
def ofFile (files : Files) (path : List String) : Except Fault Sayings :=
  match files.read path, path.getLast?.bind extension? with
  | .ok text, some extension => sayingsOf ("/".intercalate path) extension (withoutMark text)
  | _, _ => .ok []

/-- The places where a file with settings is looked for, without the extension. -/
def usualPlaces : List String := ["config/default", "../config/default", "default"]

/-- What the file in the first of the usual places says. A file of the same name without the
extension is taken instead, and says nothing. -/
def ofUsualPlace (files : Files) : Except Fault Sayings :=
  let found := usualPlaces.find? fun place =>
    (files.get? (Files.pathOf (place ++ ".toml"))).isSome
  match found with
  | none => .ok []
  | some place =>
    if (files.read (Files.pathOf place)).toOption.isSome then .ok []
    else ofFile files (Files.pathOf (place ++ ".toml"))

/-- What the named file says. A path from the root of the file system leads out of the tree. -/
def ofNamedFile (s : Sources) : Except Fault Sayings :=
  match s.path with
  | some path => if path.startsWith "/" then .ok [] else ofFile s.files (Files.pathOf path)
  | none => .ok []

/-- What the environment says. -/
def ofEnvironment (s : Sources) : Sayings :=
  s.environment.filterMap fun v => Layer.ofVariable v.1 v.2

/-- What all sources say together. -/
def layer (s : Sources) : Except Fault Layer := do
  let usual ← ofUsualPlace s.files
  let named ← s.ofNamedFile
  return ((Layer.empty.overlay usual).overlay named).overlay s.ofEnvironment

/-- The settings that the sources say. -/
def settings (s : Sources) : Except Fault Settings := do Settings.ofLayer (← s.layer)

end Sources

end Conductor
