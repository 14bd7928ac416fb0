/-!
# TOML values

The values of a TOML document, and the tables that its lines add up to. A line may put a value into
a table directly or by a dotted key; a header opens a table, or adds an element to an array of
tables. What may be extended later depends on how a table came about: one that was only implied by a
longer header may still get a header of its own, one that dotted keys made may get more dotted keys,
and a table that is written as a value is complete.
-/

namespace TouchIntent.Toml

inductive Value (R : Type) where
  | text (s : String)
  | integer (i : Int)
  | real (x : R)
  | boolean (b : Bool)
  /-- A date, a time, or both; no field of this library takes one. -/
  | moment
  | array (elements : List (Value R))
  | table (entries : List (String × Value R))

/-- How a table came about. -/
inductive Origin where
  /-- It has a header. -/
  | header
  /-- A longer header implies it. -/
  | implied
  /-- A dotted key implies it. -/
  | dotted
  deriving DecidableEq

/-- What a key of a document under construction stands for. -/
inductive Item (R : Type) where
  | value (v : Value R)
  | table (origin : Origin) (entries : List (String × Item R))
  /-- An array of tables, each with a header. -/
  | tables (elements : List (List (String × Item R)))

variable {R : Type}

/-- The entries with the item of a key replaced. -/
def replaceEntry (key : String) (item : Item R) (entries : List (String × Item R)) :
    List (String × Item R) :=
  entries.map fun e => if e.1 = key then (key, item) else e

/-- Puts an item under a dotted key; `path` are its parts before the last. -/
def insertDotted (key : String) (item : Item R) :
    (path : List String) → List (String × Item R) → Option (List (String × Item R))
  | [], entries => if (entries.lookup key).isSome then none else some (entries ++ [(key, item)])
  | part :: path, entries =>
    match entries.lookup part with
    | none =>
      (insertDotted key item path []).map fun inner => entries ++ [(part, .table .dotted inner)]
    | some (.table origin inner) =>
      if origin = .header ∨ (path.isEmpty ∧ origin ≠ .dotted) then none
      else (insertDotted key item path inner).map fun inner =>
        replaceEntry part (.table origin inner) entries
    | some _ => none

/-- Changes the table that a header's path leads to. In an array of tables it leads to the last
one. -/
def alterAt (change : List (String × Item R) → Option (List (String × Item R))) :
    (path : List String) → List (String × Item R) → Option (List (String × Item R))
  | [], entries => change entries
  | part :: path, entries =>
    match entries.lookup part with
    | none => (alterAt change path []).map fun inner => entries ++ [(part, .table .implied inner)]
    | some (.table origin inner) =>
      (alterAt change path inner).map fun inner =>
        replaceEntry part (.table origin inner) entries
    | some (.tables elements) =>
      elements.getLast?.bind fun last => (alterAt change path last).map fun last =>
        replaceEntry part (.tables (elements.dropLast ++ [last])) entries
    | some (.value _) => none

/-- A dotted key. -/
structure Key where
  path : List String
  last : String

/-- A header, and whether it is that of an element of an array of tables. -/
structure Header where
  key : Key
  isElement : Bool

/-- The lines from one header up to the next. -/
structure Section (R : Type) where
  header : Header
  lines : List (Key × Value R)

/-- Adds lines to a table. -/
def addLines (lines : List (Key × Value R)) (entries : List (String × Item R)) :
    Option (List (String × Item R)) :=
  lines.foldlM (fun entries (key, v) => insertDotted key.last (.value v) key.path entries) entries

/-- Opens the table of a section and adds its lines. -/
def addSection (s : Section R) (root : List (String × Item R)) :
    Option (List (String × Item R)) :=
  let name := s.header.key.last
  alterAt (fun entries =>
    if s.header.isElement then
      match entries.lookup name with
      | none => (addLines s.lines []).map fun e => entries ++ [(name, .tables [e])]
      | some (.tables elements) => (addLines s.lines []).map fun e =>
          replaceEntry name (.tables (elements ++ [e])) entries
      | some _ => none
    else
      match entries.lookup name with
      | none => (addLines s.lines []).map fun e => entries ++ [(name, .table .header e)]
      | some (.table .implied inner) => (addLines s.lines inner).map fun e =>
          entries.filter (·.1 != name) ++ [(name, .table .header e)]
      | some _ => none) s.header.key.path root

mutual

/-- The value that an item has come to. -/
def Item.seal : Item R → Value R
  | .value v => v
  | .table _ entries => .table (sealEntries entries)
  | .tables elements => .array (sealTables elements)

def sealEntries : List (String × Item R) → List (String × Value R)
  | [] => []
  | (key, item) :: rest => (key, item.seal) :: sealEntries rest

def sealTables : List (List (String × Item R)) → List (Value R)
  | [] => []
  | entries :: rest => .table (sealEntries entries) :: sealTables rest

end

end TouchIntent.Toml
