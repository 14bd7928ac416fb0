import TouchIntent.Numeric.Scalar

/-!
# Numbers in texts

How a number is written in a trace, in a gesture and in a rule. A natural number is a run of ASCII
digits after an optional plus sign. A decimal number has an optional sign, digits with at most one
point among them, and an optional exponent; `inf`, `infinity` and `nan` are numbers too, in any
case. Nothing else may stand around or between them, no blank and no underscore.
-/

namespace TouchIntent.Text

/-- The value of a run of ASCII digits. -/
def digitsValue (s : List Char) : Nat :=
  s.foldl (fun value c => 10 * value + (c.toNat - '0'.toNat)) 0

/-- A non-empty run of ASCII digits. -/
def isDigits (s : List Char) : Bool := !s.isEmpty && s.all Char.isDigit

/-- A natural number of at most `limit`. -/
def natural? (limit : Nat) (s : List Char) : Option Nat :=
  let digits := match s with
    | '+' :: rest => rest
    | _ => s
  if isDigits digits && decide (digitsValue digits ≤ limit) then some (digitsValue digits) else none

/-- An optional sign, and whether it was a minus. -/
def sign (s : List Char) : Bool × List Char :=
  match s with
  | '-' :: rest => (true, rest)
  | '+' :: rest => (false, rest)
  | _ => (false, s)

/-- What may follow the digits of a decimal number: nothing, or an exponent. -/
def exponent? (s : List Char) : Option Int :=
  match s with
  | [] => some 0
  | mark :: rest =>
    if mark = 'e' ∨ mark = 'E' then
      let (negative, digits) := sign rest
      if isDigits digits then
        some (if negative then -(digitsValue digits : Int) else digitsValue digits)
      else none
    else none

/-- The digits and the exponent of an unsigned decimal number. -/
def decimal? (s : List Char) : Option (Nat × Int) :=
  let whole := s.takeWhile Char.isDigit
  let afterWhole := s.dropWhile Char.isDigit
  let afterPoint := match afterWhole with
    | '.' :: rest => rest
    | _ => []
  let fraction := afterPoint.takeWhile Char.isDigit
  let rest := match afterWhole with
    | '.' :: _ => afterPoint.dropWhile Char.isDigit
    | _ => afterWhole
  if whole.isEmpty && fraction.isEmpty then none
  else (exponent? rest).map fun e => (digitsValue (whole ++ fraction), e - fraction.length)

variable {R : Type} [Scalar R]

/-- An unsigned number: a decimal one, or one of the names of the numbers that are not finite. -/
def magnitude? (s : List Char) : Option R :=
  match decimal? s with
  | some (digits, exponent) => some (Scalar.ofDecimal digits exponent)
  | none =>
    let name := String.ofList (s.map Char.toLower)
    if name = "inf" ∨ name = "infinity" then some Scalar.infinity
    else if name = "nan" then some Scalar.undefined
    else none

/-- A number with an optional sign. -/
def number? (s : List Char) : Option R :=
  let (negative, unsigned) := sign s
  (magnitude? unsigned).map fun x => if negative then -x else x

end TouchIntent.Text
