import TouchIntent.Numeric.Plane

/-!
# Layout

Where elements lie on the surface, in pixels.
-/

namespace TouchIntent

open Scalar

/-- The size of the touch surface. -/
structure Surface (R : Type) where
  width : R
  height : R

/-- The bounding box of an element; `x`, `y` is its top left corner. -/
structure Bounds (R : Type) where
  x : R
  y : R
  width : R
  height : R

variable {R : Type} [Scalar R]

/-- A pixel position in units of the surface size. -/
def Surface.normalize (s : Surface R) (p : Vec2 R) : Vec2 R := ⟨p.x / s.width, p.y / s.height⟩

namespace Bounds

def centre (b : Bounds R) : Vec2 R := ⟨b.x + b.width / ofNat 2, b.y + b.height / ofNat 2⟩

def translate (b : Bounds R) (d : Vec2 R) : Bounds R := { b with x := b.x + d.x, y := b.y + d.y }

end Bounds

end TouchIntent
