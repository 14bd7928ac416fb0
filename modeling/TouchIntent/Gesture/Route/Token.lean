import TouchIntent.Gesture.Route
import TouchIntent.Text.Number
import TouchIntent.Text.Split

/-!
# The tokens of a gesture text

A gesture text is cut into tokens, each with the offset at which it starts. Blanks between tokens,
and within a block of details, are left out. Cutting ends at the first character that starts no
token; the fault is then the last token.
-/

namespace TouchIntent

/-- One token of a gesture text. A block of details holds its fault, if it has one. -/
inductive RouteToken (R : Type) where
  | heading (heading : Heading)
  | details (block : Except GestureFault (List (Detail R)))
  | final
  | event (kind : EventKind)
  | times (times : Repeat)
  | marker
  | arrow (arrow : Arrow)
  | fault (fault : GestureFault)

/-- A token and the offset at which it starts. -/
structure PlacedToken (R : Type) where
  offset : Nat
  token : RouteToken R

/-- The number of UTF-8 bytes of a text. -/
def Text.utf8Size : List Char → Nat
  | [] => 0
  | c :: rest => c.utf8Size + utf8Size rest

variable {R : Type} [Scalar R]

/-- One detail, written `key=value`. -/
def Detail.read (entry : List Char) : Except GestureFault (Detail R) :=
  let entry := Text.squeeze entry
  match Text.cut? '=' entry with
  | none => .error (.detailWithoutValue (String.ofList entry))
  | some (key, value) =>
    match DetailKey.names.lookup (String.ofList key) with
    | none => .error (.unknownDetail (String.ofList key))
    | some key =>
      match Text.number? value with
      | some (number : R) =>
        if Scalar.isFinite number then .ok ⟨key, number⟩
        else .error (.detailNotANumber (String.ofList value))
      | none => .error (.detailNotANumber (String.ofList value))

/-- The details between a pair of square brackets. -/
def Detail.readBlock (content : List Char) : Except GestureFault (List (Detail R)) :=
  (Text.pieces (· == ',') content).mapM Detail.read

/-- The tokens that consist of a single character. -/
def RouteToken.single? (c : Char) : Option (RouteToken R) :=
  match c with
  | '.' => some .final
  | 'd' => some (.event .down)
  | 'm' => some (.event .move)
  | 'u' => some (.event .up)
  | '+' => some (.times .oneOrMore)
  | '*' => some (.times .zeroOrMore)
  | '$' => some .marker
  | _ => (Heading.ofChar? c).map .heading

/-- The tokens of a text that starts at the given offset. -/
def RouteToken.scan (offset : Nat) : List Char → List (PlacedToken R)
  | [] => []
  | '-' :: '>' :: rest => ⟨offset, .arrow .oneWay⟩ :: scan (offset + 2) rest
  | '<' :: '-' :: '>' :: rest => ⟨offset, .arrow .twoWay⟩ :: scan (offset + 3) rest
  | '[' :: rest =>
    match _found : Text.cut? ']' rest with
    | none => [⟨offset, .details (.error .unterminatedDetails)⟩]
    | some (content, after) =>
      ⟨offset, .details (Detail.readBlock content)⟩ ::
        scan (offset + Text.utf8Size content + 2) after
  | c :: rest =>
    if Text.isBlank c then scan (offset + c.utf8Size) rest
    else if c = '-' ∨ c = '<' then [⟨offset, .fault .malformedArrow⟩]
    else
      match RouteToken.single? c with
      | some token => ⟨offset, token⟩ :: scan (offset + c.utf8Size) rest
      | none => [⟨offset, .fault (.unexpected c)⟩]
  termination_by text => text.length
  decreasing_by
    all_goals simp only [List.length_cons]
    · omega
    · omega
    · have := congrArg List.length (Text.eq_of_cut? _found)
      simp only [List.length_append, List.length_cons] at this
      omega
    · omega
    · omega

end TouchIntent
