import TouchIntent.Numeric.Scalar

/-!
# The plane

Points and displacements of the touch surface, and the two-by-two matrices that serve as
covariances. A matrix is held by columns.
-/

namespace TouchIntent

open Scalar

/-- A point or a displacement. -/
structure Vec2 (R : Type) where
  x : R
  y : R

/-- A two-by-two matrix, by columns. -/
structure Mat2 (R : Type) where
  col0 : Vec2 R
  col1 : Vec2 R

variable {R : Type} [Scalar R]

namespace Vec2

def add (u v : Vec2 R) : Vec2 R := ⟨u.x + v.x, u.y + v.y⟩

def sub (u v : Vec2 R) : Vec2 R := ⟨u.x - v.x, u.y - v.y⟩

/-- Every coordinate multiplied by `k`. -/
def scale (u : Vec2 R) (k : R) : Vec2 R := ⟨u.x * k, u.y * k⟩

def dot (u v : Vec2 R) : R := u.x * v.x + u.y * v.y

/-- The Euclidean distance. -/
def distance (u v : Vec2 R) : R :=
  let d := u.sub v
  sqrt (d.x * d.x + d.y * d.y)

end Vec2

namespace Mat2

def zero : Mat2 R := ⟨⟨Scalar.zero, Scalar.zero⟩, ⟨Scalar.zero, Scalar.zero⟩⟩

def diagonal (a b : R) : Mat2 R := ⟨⟨a, Scalar.zero⟩, ⟨Scalar.zero, b⟩⟩

/-- The rotation by an angle in radians. -/
def rotation (angle : R) : Mat2 R := ⟨⟨cos angle, sin angle⟩, ⟨-sin angle, cos angle⟩⟩

def transpose (m : Mat2 R) : Mat2 R := ⟨⟨m.col0.x, m.col1.x⟩, ⟨m.col0.y, m.col1.y⟩⟩

def add (m n : Mat2 R) : Mat2 R := ⟨m.col0.add n.col0, m.col1.add n.col1⟩

def scale (m : Mat2 R) (k : R) : Mat2 R := ⟨m.col0.scale k, m.col1.scale k⟩

/-- The matrix applied to a vector. -/
def apply (m : Mat2 R) (v : Vec2 R) : Vec2 R :=
  ⟨m.col0.x * v.x + m.col1.x * v.y, m.col0.y * v.x + m.col1.y * v.y⟩

/-- The matrix product: `m` applied to each column of `n`. -/
def mul (m n : Mat2 R) : Mat2 R := ⟨m.apply n.col0, m.apply n.col1⟩

def det (m : Mat2 R) : R := m.col0.x * m.col1.y - m.col0.y * m.col1.x

/-- The inverse by Cramer's rule; it means something where the determinant is not zero. -/
def inverse (m : Mat2 R) : Mat2 R :=
  let k := Scalar.one / m.det
  ⟨⟨m.col1.y * k, m.col0.y * -k⟩, ⟨m.col1.x * -k, m.col0.x * k⟩⟩

/-- The inverse, where the determinant is finite and not zero. -/
def inverse? (m : Mat2 R) : Option (Mat2 R) :=
  let d := m.det
  if (d < Scalar.zero ∨ Scalar.zero < d) ∧ Scalar.isFinite d then some m.inverse else none

/-- The quadratic form `vᵀ m v`. -/
def quadratic (m : Mat2 R) (v : Vec2 R) : R := v.dot (m.apply v)

def isFinite (m : Mat2 R) : Bool :=
  Scalar.isFinite m.col0.x && Scalar.isFinite m.col0.y &&
    Scalar.isFinite m.col1.x && Scalar.isFinite m.col1.y

/-- How far the off-diagonal entries of a symmetric matrix may lie apart, relative to their size. -/
def symmetryTolerance : R := ratio 1 1000000000000

/-- Finite, symmetric within the tolerance, and positive definite by its leading minors. -/
def isCovariance (m : Mat2 R) : Bool :=
  let upper := m.col1.x
  let lower := m.col0.y
  m.isFinite &&
    decide (abs (upper - lower) ≤
      symmetryTolerance * (Scalar.one + maximum (abs upper) (abs lower))) &&
    decide (Scalar.zero < m.col0.x) &&
    decide (Scalar.zero < m.det)

end Mat2

end TouchIntent
