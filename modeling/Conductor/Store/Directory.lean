import Conductor.Json.Printer
import Conductor.Run.Session
import Conductor.Store.Files

/-!
# Stores in a directory

A store that keeps every state in a text file of its own. The name of the file is made of the id of
the run, letters, digits, `-` and `_` standing for themselves and every other character becoming
`_`.

* `StateStore.directory` : the store of a directory;
* `StateStore.fileName` : the name of the file for an id.
-/

namespace Conductor

namespace StateStore

/-- A character that may stand in the name of a file. -/
def isNameChar (c : Char) : Bool :=
  ('a' ≤ c && c ≤ 'z') || ('A' ≤ c && c ≤ 'Z') || ('0' ≤ c && c ≤ '9') || c == '-' || c == '_'

/-- The name of the file for the id of a run. -/
def fileName (runId : String) : String :=
  String.ofList (runId.toList.map fun c => if isNameChar c then c else '_') ++ ".json"

/-- The text of a file that holds a state. -/
def fileText (s : RunState) : String := (RunState.codec.encode s).pretty

/-- The state that a text holds. -/
def ofFileText (text : String) : Except String (Option RunState) :=
  match RunState.codec.ofText text with
  | .ok s => .ok (some s)
  | .error e => .error e.message

/-- The store that keeps states in the files of a directory. -/
def directory (dir : List String) : StateStore Files where
  load runId fs :=
    match fs.read (dir ++ [fileName runId]) with
    | .ok text => (ofFileText text, fs)
    | .error .notFound => (.ok none, fs)
    | .error f => (.error f.message, fs)
  save runId s fs :=
    match fs.makeDirectory dir with
    | .error f => (.error f.message, fs)
    | .ok fs => match fs.write (dir ++ [fileName runId]) (fileText s) with
      | .error f => (.error f.message, fs)
      | .ok fs => (.ok (), fs)
  clear runId fs :=
    match fs.remove (dir ++ [fileName runId]) with
    | .ok fs => (.ok (), fs)
    | .error .notFound => (.ok (), fs)
    | .error f => (.error f.message, fs)

end StateStore

end Conductor
