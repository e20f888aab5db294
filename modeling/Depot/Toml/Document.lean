import Depot.Toml.Value

/-! # TOML documents

A document is a table whose parts come in lines: values under dotted keys, and headers that open
further tables. A table may be defined once. A header may define a table that others have named as
their parent; a dotted key may add only to tables that dotted keys have made.
-/

namespace Depot.Toml

structure Key where
  path : List String
  name : String
  deriving DecidableEq, Repr

namespace Entries

/-- A dotted key may step into the table; the last step before its name leads to the table it
adds to. -/
def admitsStep (definition : Definition) (isLast : Bool) : Bool :=
  match definition with
  | .dotted => true
  | .parent => ¬ isLast
  | .header | .braces => false

def insert (value : Value) (name : String) : List String → Entries → Option Entries
  | [], entries =>
    alter name (fun current => if current.isNone then some value else none) entries
  | step :: path, entries =>
    alter step (fun current =>
      match current with
      | none => (insert value name path []).map (.table .dotted)
      | some (.table definition inner) =>
        if admitsStep definition path.isEmpty then
          (insert value name path inner).map (.table definition)
        else none
      | some (.tables elements) =>
        if path.isEmpty then none
        else (alterLast (insert value name path) elements).map .tables
      | some _ => none) entries

def insertAll (entries : Entries) (lines : List (Key × Value)) : Option Entries :=
  lines.foldlM (fun entries (key, value) => entries.insert value key.name key.path) entries

end Entries

structure Section where
  key : Key
  /-- The header adds a table to those of the same name. -/
  repeats : Bool
  lines : List (Key × Value)

namespace Section

/-- The value of the header's name behind its lines. -/
def define (s : Section) (current : Option Value) : Option Value :=
  if s.repeats then
    match current with
    | none => (Entries.insertAll [] s.lines).map fun entries => .tables [entries]
    | some (.tables elements) =>
      (Entries.insertAll [] s.lines).map fun entries => .tables (elements ++ [entries])
    | some _ => none
  else
    match current with
    | none => (Entries.insertAll [] s.lines).map (.table .header)
    | some (.table .parent entries) => (Entries.insertAll entries s.lines).map (.table .header)
    | some _ => none

def insertAt (s : Section) : List String → Entries → Option Entries
  | [], entries => entries.alter s.key.name s.define
  | step :: path, entries =>
    entries.alter step fun current =>
      match current with
      | none => (insertAt s path []).map (.table .parent)
      | some (.table .braces _) => none
      | some (.table definition inner) => (insertAt s path inner).map (.table definition)
      | some (.tables elements) => (Entries.alterLast (insertAt s path) elements).map .tables
      | some _ => none

end Section

/-- The lines in front of the first header, and the sections. -/
structure Document where
  lines : List (Key × Value)
  sections : List Section

/-- The table that the document defines, if it defines every table once. -/
def Document.entries? (d : Document) : Option Entries := do
  let root ← Entries.insertAll [] d.lines
  d.sections.foldlM (fun entries s => s.insertAt s.key.path entries) root

end Depot.Toml
