import TouchIntent.Touch

/-!
# States and how they score a sample

A state of a gesture is a normal distribution over the surface. It scores a sample either by its
density at the sample's position, or by the Bhattacharyya coefficient between itself and the normal
distribution that the contact ellipse of the sample describes. Scores are logarithms.
-/

namespace TouchIntent

open Scalar

/-- How a state scores a sample. -/
inductive Emission where
  | gaussian
  | bhattacharyya
  deriving DecidableEq

namespace Emission

def all : List Emission := [gaussian, bhattacharyya]

def name : Emission → String
  | gaussian => "gaussian"
  | bhattacharyya => "bhattacharyya"

def ofName? (name : String) : Option Emission := all.find? fun mode => mode.name == name

end Emission

/-- A normal distribution over the surface. -/
structure Gaussian (R : Type) where
  mean : Vec2 R
  covariance : Mat2 R

variable {R : Type} [Scalar R]

/-- The contact axes of a sample span this many standard deviations. -/
def contactAxisScale : R := ofNat 6

/-- The covariance of a contact ellipse: `t tᵀ` for the rotation `t` of the diagonal matrix of the
squared half-widths. -/
def contactCovariance (orientation minorAxis majorAxis : R) : Mat2 R :=
  let axes := Mat2.diagonal (square (minorAxis / contactAxisScale))
    (square (majorAxis / contactAxisScale))
  let t := (Mat2.rotation orientation).mul axes
  t.mul t.transpose

namespace Gaussian

/-- A distribution has a density if its covariance is one and can be inverted. -/
def hasDensity (g : Gaussian R) : Bool :=
  g.covariance.isCovariance && g.covariance.inverse?.isSome

/-- The distribution of the given mean and covariance, if it has a density. -/
def of? (mean : Vec2 R) (covariance : Mat2 R) : Option (Gaussian R) :=
  let g : Gaussian R := ⟨mean, covariance⟩
  if g.hasDensity then some g else none

/-- The logarithm of the density at a point. -/
def logDensity (g : Gaussian R) (point : Vec2 R) : R :=
  -ln (ofNat 2 * pi) - half * ln g.covariance.det -
    half * g.covariance.inverse.quadratic (point.sub g.mean)

/-- The logarithm of the Bhattacharyya coefficient with the contact ellipse of a sample; a sample
without a contact area has none in common with any state. -/
def logBhattacharyya (g : Gaussian R) (sample : Sample R) : R :=
  let touch := contactCovariance sample.orientation sample.minorAxis sample.majorAxis
  let touchDet := touch.det
  if touchDet ≤ zero ∨ ¬ Scalar.isFinite touchDet then negInfinity
  else
    let pooled := (g.covariance.add touch).scale half
    match pooled.inverse? with
    | none => negInfinity
    | some pooledInverse =>
      let distance := pooledInverse.quadratic (sample.position.sub g.mean)
      half * (half * ln (g.covariance.det * touchDet) - ln pooled.det) - distance / ofNat 8

def logEmission (g : Gaussian R) (mode : Emission) (sample : Sample R) : R :=
  match mode with
  | .gaussian => g.logDensity sample.position
  | .bhattacharyya => g.logBhattacharyya sample

def translate (g : Gaussian R) (d : Vec2 R) : Gaussian R := { g with mean := g.mean.add d }

def moveTo (g : Gaussian R) (p : Vec2 R) : Gaussian R := { g with mean := p }

end Gaussian

end TouchIntent
