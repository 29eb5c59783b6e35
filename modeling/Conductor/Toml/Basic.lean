import Conductor.Keyed
import Conductor.Number.Binary

/-!
# TOML values

What a TOML document holds. A date, a time or both are kept as their text.

* `Toml` : a value;
* `Toml.get?` : the value under a key of a table.
-/

namespace Conductor

/-- A value of a TOML document; the entries of a table are in the order of their keys. -/
inductive Toml where
  | bool (b : Bool)
  | int (n : Int)
  | float (x : Binary.Extended)
  | text (s : String)
  | array (items : List Toml)
  | table (entries : List (String × Toml))
  deriving Repr, Inhabited

/-- The value under a key, of a table. -/
def Toml.get? (t : Toml) (k : String) : Option Toml :=
  match t with
  | .table es => es.lookup k
  | _ => none

end Conductor
