import TouchIntent.Layout
import TouchIntent.Text.Number
import TouchIntent.Text.Split
import TouchIntent.Touch

/-!
# Traces

A trace is a text with one touch sample on a line, as comma separated columns of which the first is
`touch_trace`. Lines with another first column belong to something else and are left out, and so are
blank lines, comments and headings. Positions are given in pixels; the four columns that describe
the contact may be missing together.
-/

namespace TouchIntent

/-- A column that holds a number. -/
inductive TraceColumn where
  | time
  | pointer
  | x
  | y
  | pressure
  | minorAxis
  | majorAxis
  | orientation
  deriving DecidableEq

def TraceColumn.name : TraceColumn → String
  | time => "ms"
  | pointer => "pointer"
  | x => "x"
  | y => "y"
  | pressure => "pressure"
  | minorAxis => "minor"
  | majorAxis => "major"
  | orientation => "orientation"

/-- What is wrong with a line of a trace. -/
inductive TraceFault where
  | columnCount (count : Nat)
  | kind (text : String)
  | number (column : TraceColumn) (text : String)
  deriving DecidableEq

def TraceFault.message : TraceFault → String
  | columnCount count => s!"expected 6 or 10 columns, got {count}"
  | kind text => s!"invalid kind '{text}'"
  | number column text => s!"invalid {column.name} '{text}'"

/-- A line of a trace that cannot be read. Lines are counted from one. -/
structure TraceError where
  line : Nat
  fault : TraceFault
  deriving DecidableEq

def TraceError.message (e : TraceError) : String := s!"line {e.line}: {e.fault.message}"

/-- A sample of a trace. Lengths are in pixels. -/
structure TraceRow (R : Type) where
  time : Millis
  kind : EventKind
  pointer : PointerId
  position : Vec2 R
  pressure : R
  minorAxis : R
  majorAxis : R
  orientation : R

variable {R : Type} [Scalar R]

namespace TraceRow

/-- The sample of a row in units of the surface size; the axes are in units of its width. -/
def toSample (surface : Surface R) (row : TraceRow R) : Sample R where
  kind := row.kind
  pointer := row.pointer
  time := row.time
  position := surface.normalize row.position
  pressure := row.pressure
  minorAxis := row.minorAxis / surface.width
  majorAxis := row.majorAxis / surface.width
  orientation := row.orientation
  rawPosition := row.position

/-- Reads a column that `read` takes. -/
def column {α : Type} (read : List Char → Option α) (c : TraceColumn) (text : List Char) :
    Except TraceFault α :=
  match read text with
  | some a => .ok a
  | none => .error (.number c (String.ofList text))

/-- The columns from the second on of a row without contact. -/
def ofTouch (time kind pointer x y : List Char) : Except TraceFault (TraceRow R) :=
  match EventKind.ofLabel? kind with
  | none => .error (.kind (String.ofList kind))
  | some kind => do
    let time ← column (Text.natural? Millis.limit) .time time
    let pointer ← column (Text.natural? 255) .pointer pointer
    let x ← column Text.number? .x x
    let y ← column Text.number? .y y
    let none : R := Scalar.zero
    return ⟨time, kind, UInt8.ofNat pointer, ⟨x, y⟩, none, none, none, none⟩

/-- A row from its columns. -/
def ofColumns : List (List Char) → Except TraceFault (TraceRow R)
  | [_, time, kind, pointer, x, y] => ofTouch time kind pointer x y
  | [_, time, kind, pointer, x, y, pressure, minor, major, orientation] => do
    let row ← ofTouch time kind pointer x y
    return { row with
      pressure := ← column Text.number? .pressure pressure
      minorAxis := ← column Text.number? .minorAxis minor
      majorAxis := ← column Text.number? .majorAxis major
      orientation := ← column Text.number? .orientation orientation }
  | columns => .error (.columnCount columns.length)

/-- What the first column of a row holds. -/
def tag : List Char := "touch_trace".toList

/-- The headings of a trace. -/
def headings : List (List Char) := [
  "touch_trace,ms,kind,pointer,x,y".toList,
  "touch_trace,ms,kind,pointer,x,y,pressure,minor,major,orientation".toList]

/-- The row on a line, if there is one. -/
def ofLine (line : List Char) : Except TraceFault (Option (TraceRow R)) :=
  let content := Text.trim line
  let columns := (Text.pieces (· == ',') content).map Text.trim
  if content.isEmpty ∨ content.head? = some '#' ∨ content ∈ headings ∨ columns.head? ≠ some tag then
    .ok none
  else (ofColumns columns).map some

end TraceRow

/-- The rows of the lines of a text, of which the first has the number `first`. -/
def readRows (first : Nat) (lines : List (List Char)) : Except TraceError (List (TraceRow R)) := do
  let rows ← (lines.zipIdx first).mapM fun (line, number) =>
    (TraceRow.ofLine line).mapError fun fault => (⟨number, fault⟩ : TraceError)
  return rows.filterMap id

/-- The rows of a trace. -/
def readTrace (text : String) : Except TraceError (List (TraceRow R)) :=
  readRows 1 (Text.lines text.toList)

end TouchIntent
