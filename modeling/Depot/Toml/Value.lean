/-! # TOML values

Tables remember how they were defined, because that decides who may add to them. Keys are in the
order of their definition.
-/

namespace Depot.Toml

inductive Definition where
  /-- By a header of its own, or as the document. -/
  | header
  /-- Only as the parent in the header of another table. -/
  | parent
  /-- By the front of a dotted key. -/
  | dotted
  /-- Between braces. -/
  | braces
  deriving DecidableEq, Repr

inductive Value where
  | string (text : String)
  | integer (n : Int)
  /-- A number with a fraction or an exponent, an infinity or no number. -/
  | float
  | boolean (value : Bool)
  /-- A date, a time of day or both. -/
  | moment
  | array (items : List Value)
  | table (definition : Definition) (entries : List (String × Value))
  /-- The tables that repeated headers define; there is at least one. -/
  | tables (elements : List (List (String × Value)))

abbrev Entries := List (String × Value)

namespace Entries

def find? (entries : Entries) (key : String) : Option Value :=
  (List.find? (fun entry => entry.1 = key) entries).map (·.2)

/-- Changes the value of a key, which may not be there yet; none if the change is refused. -/
def alter (key : String) (change : Option Value → Option Value) : Entries → Option Entries
  | [] => (change none).map fun value => [(key, value)]
  | (k, value) :: rest =>
    if k = key then (change (some value)).map fun value => (k, value) :: rest
    else (alter key change rest).map ((k, value) :: ·)

def alterLast (change : Entries → Option Entries) : List Entries → Option (List Entries)
  | [] => none
  | [entries] => (change entries).map ([·])
  | entries :: rest => (alterLast change rest).map (entries :: ·)

end Entries

end Depot.Toml
