import TouchIntent.Numeric.Scalar
import TouchIntent.Toml.Value

/-!
# Records in TOML

A record of named fields may be written as a table of its fields, or as an array of them in the
order in which they are declared. A table must not have any other entries. Elements that an array
has after the last field are ignored.
-/

namespace TouchIntent.Toml

variable {R α : Type}

namespace Value

def text? : Value R → Option String
  | .text s => some s
  | _ => none

def natural? : Value R → Option Nat
  | .integer (.ofNat n) => some n
  | _ => none

/-- A real number; an integer stands for one as well. -/
def real? [Scalar R] : Value R → Option R
  | .real x => some x
  | .integer i =>
    let x : R := Scalar.ofDecimal i.natAbs 0
    some (if i < 0 then -x else x)
  | _ => none

/-- A list of values, each of which `read` takes. -/
def list? (read : Value R → Option α) : Value R → Option (List α)
  | .array elements => elements.mapM read
  | _ => none

/-- A table or an array that holds nothing. -/
def isEmpty : Value R → Bool
  | .table entries => entries.isEmpty
  | .array elements => elements.isEmpty
  | _ => false

/-- A name from a fixed choice. It may also be the only key of a table, with an empty value. -/
def choice? (read : String → Option α) : Value R → Option α
  | .text name => read name
  | .table [(name, v)] => if v.isEmpty then read name else none
  | _ => none

end Value

/-- What is known of the fields of a record. -/
abbrev Record (R : Type) := List (String × Value R)

/-- The fields of a record, of which `names` are the declared ones in order. -/
def Value.record? (names : List String) : Value R → Option (Record R)
  | .table entries => if entries.all fun e => names.contains e.1 then some entries else none
  | .array elements => some (names.zip elements)
  | _ => none

namespace Record

/-- A field that must be there. -/
def required (read : Value R → Option α) (name : String) (r : Record R) : Option α :=
  (r.lookup name).bind read

/-- A field that may be missing. If it is there, it must be as it should. -/
def optional (read : Value R → Option α) (name : String) (r : Record R) : Option (Option α) :=
  match r.lookup name with
  | none => some none
  | some v => (read v).map some

/-- A field that stands for `default` if it is missing. -/
def withDefault (read : Value R → Option α) (default : α) (name : String) (r : Record R) :
    Option α :=
  match r.lookup name with
  | none => some default
  | some v => read v

end Record

end TouchIntent.Toml
