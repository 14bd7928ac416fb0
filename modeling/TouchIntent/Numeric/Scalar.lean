/-!
# Scalars

Everything that computes with positions, probabilities and their logarithms is written once, over
a type of *scalars*. `Float` is the scalar the program runs on; a statement that holds in exact
arithmetic is a statement about another instance, with the same definitions.

A scalar needs the field operations, a decidable strict and a weak order, natural numbers, decimal
numbers, and the few functions the library applies: logarithm, exponential, square root, sine and
cosine. Constants are written as quotients of natural numbers, so an exact instance has them
exactly, and `Float` has the nearest double.
-/

namespace TouchIntent

/-- A type of numbers to measure and to score with. -/
class Scalar (R : Type) extends Add R, Sub R, Mul R, Div R, Neg R, LT R, LE R where
  ofNat : Nat → R
  /-- The number `digits · 10 ^ exponent`. -/
  ofDecimal : (digits : Nat) → (exponent : Int) → R
  infinity : R
  /-- The answer of an operation that has none; it is not finite. -/
  undefined : R
  pi : R
  ln : R → R
  exp : R → R
  sqrt : R → R
  sin : R → R
  cos : R → R
  isFinite : R → Bool
  decLt : DecidableLT R
  decLe : DecidableLE R

namespace Scalar

variable {R : Type} [Scalar R]

instance : DecidableLT R := decLt
instance : DecidableLE R := decLe

def zero : R := ofNat 0

def one : R := ofNat 1

/-- The logarithm of zero. -/
def negInfinity : R := -infinity

/-- The fraction `num / den`, by which all constants are written. -/
def ratio (num den : Nat) : R := ofNat num / ofNat den

def half : R := ratio 1 2

def abs (x : R) : R := if x < zero then -x else x

def square (x : R) : R := x * x

/-- The greater of two scalars; an operand that compares with nothing is passed over. -/
def maximum (x y : R) : R := if x < y then y else x

def isPositive (x : R) : Bool := isFinite x && decide (zero < x)

/-- The sum of a list, added up from the left. -/
def sum (xs : List R) : R := xs.foldl (· + ·) zero

end Scalar

/-- The double nearest to `digits · 10 ^ exponent`. An exponent that puts every number out of range
is settled without computing the power of ten. -/
def nearestDouble (digits : Nat) (exponent : Int) : Float :=
  if digits = 0 then 0.0
  else if 400 < exponent then 1.0 / 0.0
  else if exponent + digits.log2 < -400 then 0.0
  else match exponent with
    | .ofNat e => Float.ofScientific digits false e
    | .negSucc e => Float.ofScientific digits true (e + 1)

instance : Scalar Float where
  ofNat := Float.ofNat
  ofDecimal := nearestDouble
  infinity := 1.0 / 0.0
  undefined := 0.0 / 0.0
  pi := 3.141592653589793
  ln := Float.log
  exp := Float.exp
  sqrt := Float.sqrt
  sin := Float.sin
  cos := Float.cos
  isFinite := Float.isFinite
  decLt := Float.decLt
  decLe := Float.decLe

end TouchIntent
