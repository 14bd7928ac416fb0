import TouchIntent.Text.Digit
import TouchIntent.Text.Split

/-!
# The words of a rule

A rule is a line of words. Brackets, a unit after a digit and the colon of a label may be written
without a blank beside them, so the text is first spaced out; then it is cut at its blanks and each
word is classified. Units are words of their own only after the value that they belong to, so that
`a` or `s` may name a rule elsewhere.
-/

namespace TouchIntent

inductive BinaryOp where
  | and
  | or
  deriving DecidableEq

namespace BinaryOp

def keyword : BinaryOp → String
  | and => "and"
  | or => "or"

/-- What the operator makes of its operands. -/
def apply : BinaryOp → Bool → Bool → Bool
  | and => Bool.and
  | or => Bool.or

end BinaryOp

/-- Whether a rule asks for a standing condition, or for the moment it comes about. -/
inductive Aspect where
  | is
  | on
  deriving DecidableEq

def Aspect.keyword : Aspect → String
  | is => "is"
  | on => "on"

/-- What a rule can ask about a behaviour. -/
inductive Progress where
  | complete
  | mostLikely
  deriving DecidableEq

def Progress.keyword : Progress → String
  | complete => "complete"
  | mostLikely => "most_likely"

/-- The words that start a qualifier. -/
inductive QualifierWord where
  /-- In a span of time. -/
  | duration
  /-- Using a number of fingers. -/
  | fingers
  /-- With a pressure or a contact size. -/
  | contact
  deriving DecidableEq

def QualifierWord.keyword : QualifierWord → String
  | duration => "in"
  | fingers => "using"
  | contact => "with"

inductive WordClass where
  | binary (op : BinaryOp)
  | not
  | aspect (aspect : Aspect)
  | progress (progress : Progress)
  | label
  | openBracket
  | closeBracket
  | qualifier (word : QualifierWord)
  | value
  | unit
  | identifier
  deriving DecidableEq

structure RuleToken where
  text : String
  kind : WordClass
  deriving DecidableEq

/-- The units, in the order in which they are spaced out: `ms` before the `s` that it ends with. -/
def ruleUnits : List String := ["ms", "s", "p", "a", "fingers"]

/-- The words that mean the same wherever they stand. -/
def ruleKeywords : List (String × WordClass) := [
  ("and", .binary .and), ("or", .binary .or), ("not", .not),
  ("is", .aspect .is), ("on", .aspect .on),
  ("complete", .progress .complete), ("most_likely", .progress .mostLikely),
  ("(", .openBracket), (")", .closeBracket),
  ("in", .qualifier .duration), ("using", .qualifier .fingers), ("with", .qualifier .contact)]

namespace RuleText

/-- Blanks around every bracket. -/
def spaceBrackets (s : List Char) : List Char :=
  s.flatMap fun c => if c = '(' ∨ c = ')' then [' ', c, ' '] else [c]

/-- Blanks around every occurrence of a unit that follows a digit. -/
def spaceUnit (unit : List Char) : List Char → List Char
  | [] => []
  | c :: rest =>
    if Text.isDecimalDigit c && unit.isPrefixOf rest then
      c :: ' ' :: (unit ++ ' ' :: spaceUnit unit ((rest.drop unit.length).dropWhile Text.isBlank))
    else c :: spaceUnit unit rest
  termination_by s => s.length
  decreasing_by
    · have := (List.dropWhile_sublist Text.isBlank (l := rest.drop unit.length)).length_le
      simp only [List.length_drop, List.length_cons] at *
      omega
    · simp

/-- No blank before a colon, and one blank after it. -/
def spaceColons : List Char → List Char
  | [] => []
  | c :: rest =>
    match _found : (c :: rest).dropWhile Text.isBlank with
    | ':' :: after => ':' :: ' ' :: spaceColons (after.dropWhile Text.isBlank)
    | _ => c :: spaceColons rest
  termination_by s => s.length
  decreasing_by
    · have whole := (List.dropWhile_sublist Text.isBlank (l := c :: rest)).length_le
      have tail := (List.dropWhile_sublist Text.isBlank (l := after)).length_le
      rw [_found] at whole
      simp only [List.length_cons] at *
      omega
    · simp

/-- The text with blanks wherever a word ends. -/
def spaceOut (s : List Char) : List Char :=
  spaceColons (ruleUnits.foldl (fun s unit => spaceUnit unit.toList s) (spaceBrackets s))

/-- The words of a rule. -/
def words (s : List Char) : List (List Char) := Text.words (spaceOut s)

/-- The rule with single blanks between its words. -/
def normalize (s : List Char) : List Char := [' '].intercalate (words s)

/-- The class of a word, given the class of the word before it. -/
def classify (previous : Option WordClass) (word : String) : WordClass :=
  match ruleKeywords.lookup word with
  | some kind => kind
  | none =>
    if word.toList.getLast? = some ':' then .label
    else match previous with
      | some (.qualifier _) => .value
      | some .value => if word ∈ ruleUnits then .unit else .identifier
      | _ => .identifier

/-- The words with their classes, `previous` being the class of the word before them. -/
def classifyFrom (previous : Option WordClass) : List (List Char) → List RuleToken
  | [] => []
  | word :: rest =>
    let text := String.ofList word
    let kind := classify previous text
    ⟨text, kind⟩ :: classifyFrom (some kind) rest

def tokenize (s : List Char) : List RuleToken := classifyFrom none (words s)

end RuleText

end TouchIntent
