import TouchIntent.Numeric.Plane
import TouchIntent.Text.Blank

/-!
# Touches

What the host reports: samples of single pointers, and frames of simultaneous touches. Positions
and contact axes are given in units of the surface size.
-/

namespace TouchIntent

/-- What a pointer does at a sample. -/
inductive EventKind where
  | down
  | move
  | up
  deriving DecidableEq

namespace EventKind

/-- All kinds, in the order of their codes. -/
def all : List EventKind := [down, move, up]

def label : EventKind → String
  | down => "down"
  | move => "move"
  | up => "up"

def code : EventKind → Nat
  | down => 0
  | move => 1
  | up => 2

def ofCode? (n : Nat) : Option EventKind := all.find? fun kind => kind.code == n

/-- Reads a label in any case of its ASCII letters; blanks around it are left out. -/
def ofLabel? (label : List Char) : Option EventKind :=
  let word := String.ofList ((Text.trim label).map Char.toLower)
  all.find? fun kind => kind.label == word

end EventKind

/-- The number by which the host tells pointers apart. -/
abbrev PointerId := UInt8

/-- A moment or a span of time, in milliseconds. -/
abbrev Millis := Nat

/-- The greatest moment that the host's clock can report. -/
def Millis.limit : Millis := 0xffffffffffffffff

/-- The moment `delay` after `now`; the clock stops at its greatest moment. -/
def Millis.later (now delay : Millis) : Millis := min (now + delay) Millis.limit

/-- One sample of one pointer. -/
structure Sample (R : Type) where
  kind : EventKind
  pointer : PointerId
  time : Millis
  position : Vec2 R
  pressure : R
  minorAxis : R
  majorAxis : R
  /-- The angle of the contact ellipse in radians. -/
  orientation : R
  /-- The position in pixels, as the host measured it. -/
  rawPosition : Vec2 R

/-- Simultaneous touches that are reported together. -/
structure Frame (R : Type) where
  time : Millis
  touches : List (Sample R)

/-- The kinds of observation. -/
inductive Modality where
  | touch
  | multiTouch
  deriving DecidableEq

def Modality.name : Modality → String
  | touch => "Touch"
  | multiTouch => "MultiTouch"

inductive Observation (R : Type) where
  | touch (sample : Sample R)
  | multiTouch (frame : Frame R)

namespace Observation

variable {R : Type}

def modality : Observation R → Modality
  | touch _ => .touch
  | multiTouch _ => .multiTouch

def time : Observation R → Millis
  | touch sample => sample.time
  | multiTouch frame => frame.time

end Observation

end TouchIntent
