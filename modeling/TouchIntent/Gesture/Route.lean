import TouchIntent.Gesture.Fault
import TouchIntent.Layout

/-!
# Routes

A gesture text describes a route: a chain of stops joined by arrows. Each stop is a region of the
surface, placed relative to the element that the gesture belongs to, with the events that have to
happen there.

A stop is placed by *headings*. They start from the box of the element and shift it by its own size,
cut it in half or enlarge it, one after another. *Details* then set or scale its size.
-/

namespace TouchIntent

open Scalar

/-- One step of placing a stop. -/
inductive Heading where
  | north | south | east | west
  | centre
  /-- The centre of the element, and the gesture may start anywhere. -/
  | origin
  | top | bottom | right | left
  | enlarge | widen | heighten
  | shrink | narrow | flatten
  deriving DecidableEq

/-- The letters of the headings. -/
def Heading.letters : List (Char × Heading) := [
  ('N', north), ('S', south), ('E', east), ('W', west), ('C', centre), ('O', origin),
  ('T', top), ('B', bottom), ('R', right), ('L', left),
  ('Z', enlarge), ('X', widen), ('Y', heighten), ('z', shrink), ('x', narrow), ('y', flatten)]

def Heading.ofChar? (c : Char) : Option Heading := letters.lookup c

/-- What a detail says about the size of a stop. -/
inductive DetailKey where
  | scale
  | scaleX
  | scaleY
  | width
  | height
  deriving DecidableEq

def DetailKey.names : List (String × DetailKey) :=
  [("s", scale), ("sx", scaleX), ("sy", scaleY), ("w", width), ("h", height)]

structure Detail (R : Type) where
  key : DetailKey
  value : R

/-- A region of the surface in pixels, by its centre and its size. -/
structure Region (R : Type) where
  centre : Vec2 R
  width : R
  height : R

/-- An event that a stop requires, and whether to notify about it. -/
structure RouteEvent where
  token : EventToken
  hasMarker : Bool
  deriving DecidableEq

structure Stop (R : Type) where
  region : Region R
  /-- Placed relative to where the gesture starts. -/
  isRelative : Bool
  isFinal : Bool
  hasMarker : Bool
  events : List RouteEvent

/-- How a gesture may go from one stop to the next. -/
inductive Arrow where
  | oneWay
  | twoWay
  deriving DecidableEq

/-- A chain of stops joined by arrows. -/
structure Route (R : Type) where
  first : Stop R
  rest : List (Arrow × Stop R)
  /-- The box of the element, as the text has resized it. -/
  element : Bounds R

variable {R : Type} [Scalar R]

/-- The region that the headings of a stop start from. -/
def Region.ofBounds (b : Bounds R) : Region R := ⟨b.centre, b.width, b.height⟩

/-- How far `enlarge` and its kin stretch a region. -/
def zoomFactor : R := ratio 3 2

namespace Region

/-- The region after one heading. -/
def move (r : Region R) : Heading → Region R
  | .north => { r with centre := { r.centre with y := r.centre.y - r.height } }
  | .south => { r with centre := { r.centre with y := r.centre.y + r.height } }
  | .east => { r with centre := { r.centre with x := r.centre.x + r.width } }
  | .west => { r with centre := { r.centre with x := r.centre.x - r.width } }
  | .centre | .origin => r
  | .top =>
    let height := r.height / ofNat 2
    { r with height, centre := { r.centre with y := r.centre.y - height } }
  | .bottom =>
    let height := r.height / ofNat 2
    { r with height, centre := { r.centre with y := r.centre.y + height } }
  | .right =>
    let width := r.width / ofNat 2
    { r with width, centre := { r.centre with x := r.centre.x + width } }
  | .left =>
    let width := r.width / ofNat 2
    { r with width, centre := { r.centre with x := r.centre.x - width } }
  | .enlarge => { r with width := r.width * zoomFactor, height := r.height * zoomFactor }
  | .widen => { r with width := r.width * zoomFactor }
  | .heighten => { r with height := r.height * zoomFactor }
  | .shrink => { r with width := r.width / ofNat 2, height := r.height / ofNat 2 }
  | .narrow => { r with width := r.width / ofNat 2 }
  | .flatten => { r with height := r.height / ofNat 2 }

/-- The region with a detail applied. Widths and heights are given in points, of which `density`
pixels make one. -/
def resize (density : R) (r : Region R) (d : Detail R) : Region R :=
  match d.key with
  | .scale => { r with width := r.width * d.value, height := r.height * d.value }
  | .scaleX => { r with width := r.width * d.value }
  | .scaleY => { r with height := r.height * d.value }
  | .width => { r with width := d.value * density }
  | .height => { r with height := d.value * density }

/-- The region that a stop occupies. -/
def place (element : Bounds R) (density : R) (headings : List Heading) (details : List (Detail R)) :
    Region R :=
  details.foldl (resize density) (headings.foldl move (ofBounds element))

end Region

/-- The box of an element with a detail applied; scales leave it as it is. -/
def Bounds.resize (density : R) (b : Bounds R) (d : Detail R) : Bounds R :=
  match d.key with
  | .width => { b with width := d.value * density }
  | .height => { b with height := d.value * density }
  | .scale | .scaleX | .scaleY => b

namespace Route

variable (r : Route R)

def stops : List (Stop R) := r.first :: r.rest.map Prod.snd

def arrows : List Arrow := r.rest.map Prod.fst

/-- The gesture may start anywhere on the surface. -/
def isRelative : Bool := r.stops.any Stop.isRelative

def isTwoWay : Bool := r.arrows.all (· == .twoWay)

/-- A gesture may stay at a stop, go on to the next, and go back where the arrow allows it. -/
def isStep (source target : Nat) : Bool :=
  target == source || target == source + 1 ||
    (source == target + 1 && r.arrows[target]? == some .twoWay)

end Route

end TouchIntent
