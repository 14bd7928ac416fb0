import TouchIntent.Gesture.Model
import TouchIntent.Pattern.Basic

/-!
# Rejected gestures

Why a gesture text is rejected, and where. Offsets count UTF-8 bytes from the start of the text.
-/

namespace TouchIntent

/-- What is wrong with a gesture. -/
inductive GestureFault where
  | surfaceSize
  | elementSize
  | unexpected (c : Char)
  | malformedArrow
  | arrowWithoutSource
  | arrowWithoutTarget
  | noStates
  | noLocation
  | noArea
  | detailsWithoutLocation
  | unterminatedDetails
  | detailWithoutValue (entry : String)
  | unknownDetail (key : String)
  | detailNotANumber (value : String)
  | timesWithoutEvent (times : Repeat)
  | model (error : ModelError)
  deriving DecidableEq

/-- The sign by which a gesture says how often an event happens. -/
def Repeat.sign : Repeat → String
  | once => ""
  | oneOrMore => "+"
  | zeroOrMore => "*"

def GestureFault.message : GestureFault → String
  | surfaceSize => "surface must have a positive size"
  | elementSize => "element must have a positive size"
  | unexpected c => s!"unexpected character `{c}`"
  | malformedArrow => "malformed transition arrow"
  | arrowWithoutSource => "transition has no source state"
  | arrowWithoutTarget => "transition has no target state"
  | noStates => "gesture has no states"
  | noLocation => "state has no location"
  | noArea => "state has no area"
  | detailsWithoutLocation => "detail block without a state location"
  | unterminatedDetails => "unterminated detail block"
  | detailWithoutValue entry => s!"detail `{entry}` is missing `=`"
  | unknownDetail key => s!"unknown detail key `{key}`"
  | detailNotANumber value => s!"detail value `{value}` is not a number"
  | timesWithoutEvent times => s!"modifier `{times.sign}` has no event"
  | model error => error.message

/-- A fault and where in a text it was found. -/
structure LocatedFault where
  offset : Nat
  fault : GestureFault
  deriving DecidableEq

/-- The rejection of a gesture text. -/
structure GestureError where
  source : String
  offset : Nat
  fault : GestureFault
  deriving DecidableEq

def GestureError.message (e : GestureError) : String :=
  s!"gesture `{e.source}` rejected at offset {e.offset}: {e.fault.message}"

end TouchIntent
