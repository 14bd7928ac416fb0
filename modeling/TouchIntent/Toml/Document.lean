import TouchIntent.Toml.Literal

/-!
# TOML documents

A document is a list of lines, each an assignment of a value to a key or a header. The lines before
the first header belong to the table of the whole document, and the lines after a header to the
table that it opens. A value may take up several lines of the text, so that "line" here means one of
the document and not one of the text.
-/

namespace TouchIntent.Toml

/-! ## Blanks -/

/-- The text without the comment that it starts with. -/
def skipComment : List Char → List Char
  | '#' :: rest => rest.dropWhile isPrintable
  | s => s

/-- The text without the spaces, line breaks and comments that it starts with. -/
def skipBlanks : List Char → List Char
  | [] => []
  | '\n' :: rest => skipBlanks rest
  | '\r' :: '\n' :: rest => skipBlanks rest
  | '#' :: rest => skipBlanks (rest.dropWhile isPrintable)
  | c :: rest => if isSpace c then skipBlanks rest else c :: rest
  termination_by s => s.length
  decreasing_by
    all_goals simp only [List.length_cons]
    all_goals first
      | omega
      | exact Nat.lt_succ_of_le (List.dropWhile_sublist _).length_le

/-- What follows a line: it ends after blanks and a comment at a line break or with the text. -/
def afterLine? (s : List Char) : Option (List Char) :=
  match skipComment (skipSpaces s) with
  | [] => some []
  | rest => newline? rest

/-! ## Keys -/

/-- A character that a key may have without quotes. -/
def isBare (c : Char) : Bool := c.isAlphanum || c == '_' || c == '-'

/-- One part of a key, with or without quotes. -/
def keyPart : Reader String := fun s =>
  match s with
  | [] => none
  | c :: rest =>
    if c = '"' ∨ c = '\'' then
      (lineString c rest).map fun (name, rest) => (String.ofList name, rest)
    else
      let name := s.takeWhile isBare
      if name.isEmpty then none else some (String.ofList name, s.dropWhile isBare)

/-- The parts of a key, with the spaces around it and around its dots. -/
def keyParts : Reader Key := fun s =>
  match keyPart (skipSpaces s) with
  | none => none
  | some (name, rest) =>
    match skipSpaces rest with
    | '.' :: after =>
      if after.length < s.length then
        (keyParts after).map fun (k, rest) => (⟨name :: k.path, k.last⟩, rest)
      else none
    | rest => some (⟨[], name⟩, rest)
  termination_by s => s.length

/-- How deep the values of a document may be nested. -/
def maxDepth : Nat := 79

/-- A key. Each part before the last stands for a table around the next one, so that a key has no
more parts than values may be nested. -/
def key : Reader Key := fun s =>
  (keyParts s).filter fun (k, _) => k.path.length < maxDepth

/-! ## Values -/

variable {R : Type}

/-- A key and the value assigned to it, which `value` reads. -/
def assignment (value : Reader (Value R)) : Reader (Key × Value R) := fun s =>
  match key s with
  | some (k, '=' :: rest) => (value (skipSpaces rest)).map fun (v, rest) => ((k, v), rest)
  | _ => none

/-- The elements of an array after its bracket. A comma may follow the last of them. -/
def elements (value : Reader (Value R)) : Reader (List (Value R)) := fun s =>
  match skipBlanks s with
  | ']' :: rest => some ([], rest)
  | start =>
    match value start with
    | none => none
    | some (v, rest) =>
      match skipBlanks rest with
      | ']' :: rest => some ([v], rest)
      | ',' :: after =>
        if after.length < s.length then
          (elements value after).map fun (vs, rest) => (v :: vs, rest)
        else none
      | _ => none
  termination_by s => s.length

/-- At least one assignment of a table in braces, and the brace that closes it. -/
def assignments (value : Reader (Value R)) : Reader (List (Key × Value R)) := fun s =>
  match assignment value s with
  | none => none
  | some (a, rest) =>
    match skipSpaces rest with
    | '}' :: rest => some ([a], rest)
    | ',' :: after =>
      if after.length < s.length then
        (assignments value after).map fun (as, rest) => (a :: as, rest)
      else none
    | _ => none
  termination_by s => s.length

/-- A table in braces after the first of them. -/
def inlineTable (value : Reader (Value R)) : Reader (Value R) := fun s =>
  let body := match skipSpaces s with
    | '}' :: rest => some ([], rest)
    | start => assignments value start
  body.bind fun (lines, rest) =>
    (addLines lines []).map fun entries => (.table (sealEntries entries), rest)

variable [Scalar R]

/-- A value that holds no others. -/
def atom : Reader (Value R) := fun s =>
  match string s with
  | some (text, rest) => some (.text text, rest)
  | none => plain s

/-- A value, with arrays and tables in braces nested up to `depth`. -/
def value : (depth : Nat) → Reader (Value R)
  | 0 => atom
  | depth + 1 => fun s =>
    match s with
    | '[' :: rest => (elements (value depth) rest).map fun (vs, rest) => (.array vs, rest)
    | '{' :: rest => inlineTable (value depth) rest
    | _ => atom s

/-! ## Lines -/

inductive Line (R : Type) where
  | header (h : Header)
  | assignment (key : Key) (v : Value R)

/-- A header after its brackets, up to those that close it. -/
def header (isElement : Bool) : Reader Header := fun s =>
  let close := if isElement then [']', ']'] else [']']
  (key s).bind fun (k, rest) =>
    (Text.dropStart? close rest).map fun rest => (⟨k, isElement⟩, rest)

def line : Reader (Line R) := fun s =>
  match s with
  | '[' :: '[' :: rest => (header true rest).map fun (h, rest) => (.header h, rest)
  | '[' :: rest => (header false rest).map fun (h, rest) => (.header h, rest)
  | _ => (assignment (value maxDepth) s).map fun ((k, v), rest) => (.assignment k v, rest)

/-- The lines of a whole text. -/
def lines (s : List Char) : Option (List (Line R)) :=
  match skipBlanks s with
  | [] => some []
  | start =>
    match line start with
    | none => none
    | some (l, rest) =>
      match afterLine? rest with
      | none => none
      | some after =>
        if after.length < s.length then (lines after).map fun ls => l :: ls else none
  termination_by s.length

/-! ## Documents -/

omit [Scalar R] in
/-- The lines before the first header, and the sections. -/
def sections : List (Line R) → List (Key × Value R) × List (Section R)
  | [] => ([], [])
  | .assignment k v :: rest =>
    let (first, others) := sections rest
    ((k, v) :: first, others)
  | .header h :: rest =>
    let (first, others) := sections rest
    ([], ⟨h, first⟩ :: others)

/-- The table of a whole document. The mark of the byte order may stand in front of it. -/
def document? (s : String) : Option (Value R) := do
  let text := match s.toList with
    | '\ufeff' :: rest => rest
    | text => text
  let (first, others) := sections (← lines text)
  let root ← addLines first []
  let root ← others.foldlM (fun root s => addSection s root) root
  return .table (sealEntries root)

end TouchIntent.Toml
