import TouchIntent.Text.Number
import TouchIntent.Text.Split
import TouchIntent.Toml.Value

/-!
# TOML literals

Strings, numbers, truth values, dates and times as they are written in a TOML document. A reader
takes what it reads from the start of a text and answers with the rest. Where one reader calls
itself on what another one has left, it goes on only if the rest is shorter than the text was.
-/

namespace TouchIntent.Toml

/-- Takes something from the start of a text, or refuses it. -/
abbrev Reader (α : Type) := List Char → Option (α × List Char)

/-! ## Characters -/

def isSpace (c : Char) : Bool := c == ' ' || c == '\t'

/-- The text without the spaces and tabs that it starts with. -/
def skipSpaces (s : List Char) : List Char := s.dropWhile isSpace

/-- A character that may stand in a comment or a string: no control character but the tab. -/
def isPrintable (c : Char) : Bool :=
  c == '\t' || (0x20 ≤ c.toNat && c.toNat != 0x7f)

/-- A line break, which may have a carriage return. -/
def newline? : List Char → Option (List Char)
  | '\n' :: rest => some rest
  | '\r' :: '\n' :: rest => some rest
  | _ => none

/-- The text without the spaces, tabs and line breaks that it starts with. A carriage return alone
is no line break. -/
def skipLineBreaks : List Char → List Char
  | [] => []
  | '\n' :: rest => skipLineBreaks rest
  | '\r' :: '\n' :: rest => skipLineBreaks rest
  | c :: rest => if isSpace c then skipLineBreaks rest else c :: rest

/-! ## Strings -/

def isHexDigit (c : Char) : Bool :=
  c.isDigit || ('a' ≤ c && c ≤ 'f') || ('A' ≤ c && c ≤ 'F')

/-- The value of a digit of a radix up to sixteen. -/
def digitValue (c : Char) : Nat :=
  if c.isDigit then c.toNat - '0'.toNat
  else c.toLower.toNat - 'a'.toNat + 10

/-- The value of a run of digits. -/
def radixValue (radix : Nat) (digits : List Char) : Nat :=
  digits.foldl (fun value c => radix * value + digitValue c) 0

/-- A character given by its number in hexadecimal digits. -/
def codePoint (length : Nat) : Reader Char := fun s =>
  let digits := s.take length
  let n := radixValue 16 digits
  if digits.length = length ∧ digits.all isHexDigit ∧ n.isValidChar then
    some (Char.ofNat n, s.drop length)
  else none

/-- What stands after a backslash for one character. -/
def escape : Reader Char
  | 'b' :: rest => some ('\x08', rest)
  | 't' :: rest => some ('\t', rest)
  | 'n' :: rest => some ('\n', rest)
  | 'f' :: rest => some ('\x0c', rest)
  | 'r' :: rest => some ('\r', rest)
  | '"' :: rest => some ('"', rest)
  | '\\' :: rest => some ('\\', rest)
  | 'u' :: rest => codePoint 4 rest
  | 'U' :: rest => codePoint 8 rest
  | _ => none

/-- Adds a character in front of a string. -/
def consTo (c : Char) : Option (List Char × List Char) → Option (List Char × List Char) :=
  Option.map fun (s, rest) => (c :: s, rest)

/-- The rest of a string on one line, after its quote. Only between double quotes are there
escapes. -/
def lineString (quote : Char) : Reader (List Char)
  | [] => none
  | c :: rest =>
    if c = quote then some ([], rest)
    else if c = '\\' ∧ quote = '"' then
      match escape rest with
      | none => none
      | some (e, after) =>
        if after.length < rest.length + 1 then consTo e (lineString quote after) else none
    else if isPrintable c then consTo c (lineString quote rest)
    else none
  termination_by s => s.length

/-- What stands after a backslash at the end of a line, the line break and all spaces, tabs and line
breaks behind it, is left out. -/
def continuation? (s : List Char) : Option (List Char) :=
  (newline? (skipSpaces s)).map skipLineBreaks

/-- The rest of a string over several lines, after its three quotes. Up to two quotes in a row are
part of it, and three close it; a close may have up to two more quotes in front. -/
def multilineString (quote : Char) : Reader (List Char)
  | [] => none
  | c :: rest =>
    if c = quote then
      let more := (rest.takeWhile (· == quote)).length
      if more < 2 then consTo c (multilineString quote rest)
      else if more ≤ 4 then some (List.replicate (more - 2) quote, rest.drop more)
      else none
    else if c = '\\' ∧ quote = '"' then
      match continuation? rest with
      | some after =>
        if after.length < rest.length + 1 then multilineString quote after else none
      | none =>
        match escape rest with
        | none => none
        | some (e, after) =>
          if after.length < rest.length + 1 then consTo e (multilineString quote after) else none
    else if isPrintable c then consTo c (multilineString quote rest)
    else match newline? (c :: rest) with
      | some after =>
        if after.length < rest.length + 1 then consTo '\n' (multilineString quote after) else none
      | none => none
  termination_by s => s.length

/-- A string of any form. A line break right after three quotes is left out. -/
def string : Reader String := fun s =>
  match s with
  | quote :: rest =>
    if quote = '"' ∨ quote = '\'' then
      let body := match Text.dropStart? [quote, quote] rest with
        | some opened => multilineString quote ((newline? opened).getD opened)
        | none => lineString quote rest
      body.map fun (chars, rest) => (String.ofList chars, rest)
    else none
  | [] => none

/-! ## Numbers -/

/-- More digits of a number; single underscores may stand between digits. -/
def moreDigits (isDigit : Char → Bool) : List Char → List Char × List Char
  | '_' :: c :: rest =>
    if isDigit c then
      let (digits, rest) := moreDigits isDigit rest
      (c :: digits, rest)
    else ([], '_' :: c :: rest)
  | c :: rest =>
    if isDigit c then
      let (digits, rest) := moreDigits isDigit rest
      (c :: digits, rest)
    else ([], c :: rest)
  | [] => ([], [])

/-- The digits of a number. -/
def digits (isDigit : Char → Bool) : Reader (List Char)
  | c :: rest =>
    if isDigit c then
      let (digits, rest) := moreDigits isDigit rest
      some (c :: digits, rest)
    else none
  | [] => none

/-- The whole part of a decimal number: no zero stands before other digits. -/
def wholeDigits : Reader (List Char)
  | '0' :: rest => some (['0'], rest)
  | s => digits Char.isDigit s

/-- The exponent of a decimal number. -/
def exponent? : Reader Int
  | mark :: rest =>
    if mark = 'e' ∨ mark = 'E' then
      let (negative, unsigned) := Text.sign rest
      (digits Char.isDigit unsigned).map fun (ds, rest) =>
        (if negative then -(radixValue 10 ds : Int) else radixValue 10 ds, rest)
    else none
  | [] => none

/-- The least and the greatest integer are those of 64 bits. -/
def integerInRange (i : Int) : Bool := -0x8000000000000000 ≤ i && i ≤ 0x7fffffffffffffff

variable {R : Type} [Scalar R]

/-- An integer in another radix than ten, after its mark. -/
def radixInteger (radix : Nat) (isDigit : Char → Bool) : Reader (Value R) := fun s =>
  match digits isDigit s with
  | some (ds, rest) =>
    let i : Int := radixValue radix ds
    if integerInRange i then some (.integer i, rest) else none
  | none => none

/-- A real number. A positive one must be in the range of scalars. -/
def realValue (negative : Bool) (digits : List Char) (exponent : Int) (rest : List Char) :
    Option (Value R × List Char) :=
  let x : R := Scalar.ofDecimal (radixValue 10 digits) exponent
  if negative then some (.real (-x), rest)
  else if Scalar.isFinite x then some (.real x, rest)
  else none

/-- A decimal number after its sign: an integer, or a real number with a fraction or an exponent. -/
def decimal (negative : Bool) : Reader (Value R) := fun s =>
  match wholeDigits s with
  | none => none
  | some (whole, rest) =>
    match rest with
    | '.' :: afterPoint =>
      match digits Char.isDigit afterPoint with
      | none => none
      | some (fraction, rest) =>
        let (e, rest) := (exponent? rest).getD (0, rest)
        realValue negative (whole ++ fraction) (e - fraction.length) rest
    | _ =>
      match exponent? rest with
      | some (e, rest) => realValue negative whole e rest
      | none =>
        let i : Int := radixValue 10 whole
        let i := if negative then -i else i
        if integerInRange i then some (.integer i, rest) else none

/-- The real numbers that are not finite, after their sign. -/
def namedReal (negative : Bool) : Reader (Value R)
  | 'i' :: 'n' :: 'f' :: rest =>
    some (.real (if negative then Scalar.negInfinity else Scalar.infinity), rest)
  | 'n' :: 'a' :: 'n' :: rest => some (.real Scalar.undefined, rest)
  | _ => none

def number : Reader (Value R)
  | '0' :: 'x' :: rest => radixInteger 16 isHexDigit rest
  | '0' :: 'o' :: rest => radixInteger 8 (fun c => '0' ≤ c && c ≤ '7') rest
  | '0' :: 'b' :: rest => radixInteger 2 (fun c => c == '0' || c == '1') rest
  | s =>
    let (negative, unsigned) := Text.sign s
    match namedReal negative unsigned with
    | some result => some result
    | none => decimal negative unsigned

/-! ## Dates and times -/

/-- A number of a fixed count of digits, within bounds. -/
def field (length low high : Nat) : Reader Nat := fun s =>
  let ds := s.take length
  let n := radixValue 10 ds
  if ds.length = length ∧ ds.all Char.isDigit ∧ low ≤ n ∧ n ≤ high then some (n, s.drop length)
  else none

def mark (c : Char) : Reader Unit
  | d :: rest => if d = c then some ((), rest) else none
  | [] => none

def isLeapYear (year : Nat) : Bool := year % 4 == 0 && (year % 100 != 0 || year % 400 == 0)

def daysInMonth (year month : Nat) : Nat :=
  if month = 2 then (if isLeapYear year then 29 else 28)
  else if month = 4 ∨ month = 6 ∨ month = 9 ∨ month = 11 then 30
  else 31

def date : Reader Unit := fun s => do
  let (year, s) ← field 4 0 9999 s
  let (_, s) ← mark '-' s
  let (month, s) ← field 2 1 12 s
  let (_, s) ← mark '-' s
  let (_, s) ← field 2 1 (daysInMonth year month) s
  return ((), s)

def time : Reader Unit := fun s => do
  let (_, s) ← field 2 0 23 s
  let (_, s) ← mark ':' s
  let (_, s) ← field 2 0 59 s
  let (_, s) ← mark ':' s
  let (_, s) ← field 2 0 60 s
  match s with
  | '.' :: fraction =>
    let ds := fraction.takeWhile Char.isDigit
    if ds.isEmpty then none else return ((), fraction.drop ds.length)
  | _ => return ((), s)

/-- The distance from universal time. -/
def zone : Reader Unit := fun s =>
  match s with
  | c :: rest =>
    if c = 'Z' ∨ c = 'z' then some ((), rest)
    else if c = '+' ∨ c = '-' then do
      let (_, s) ← field 2 0 23 rest
      let (_, s) ← mark ':' s
      let (_, s) ← field 2 0 59 s
      return ((), s)
    else none
  | [] => none

/-- A date, a time, or a date and a time with or without a zone. -/
def moment : Reader Unit := fun s =>
  match date s with
  | none => time s
  | some (_, rest) =>
    match rest with
    | c :: afterDate =>
      if c = 'T' ∨ c = 't' ∨ c = ' ' then
        match time afterDate with
        | some (_, afterTime) => some ((zone afterTime).getD ((), afterTime))
        | none => some ((), rest)
      else some ((), rest)
    | [] => some ((), rest)

/-- Any value that is not an array, a table or a string. -/
def plain : Reader (Value R) := fun s =>
  match Text.dropStart? ['t', 'r', 'u', 'e'] s with
  | some rest => some (.boolean true, rest)
  | none =>
    match Text.dropStart? ['f', 'a', 'l', 's', 'e'] s with
    | some rest => some (.boolean false, rest)
    | none =>
      match moment s with
      | some (_, rest) => some (.moment, rest)
      | none => number s

end TouchIntent.Toml
