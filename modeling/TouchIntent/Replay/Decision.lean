import TouchIntent.Arbiter
import TouchIntent.Text.Split

/-!
# Decisions

What a replay writes down whenever the arbiter decides something about an interactor, and files that
say which decisions are expected.
-/

namespace TouchIntent

inductive DecisionKind where
  | promote
  | exclude
  | determine
  deriving DecidableEq

namespace DecisionKind

def all : List DecisionKind := [promote, exclude, determine]

def name : DecisionKind → String
  | promote => "promote"
  | exclude => "exclude"
  | determine => "determine"

def ofName? (name : String) : Option DecisionKind := all.find? fun kind => kind.name == name

end DecisionKind

structure Decision where
  time : Millis
  kind : DecisionKind
  /-- The name of the interactor. -/
  interactor : String
  deriving DecidableEq

namespace Decision

/-- The heading of the lines that decisions are printed on. -/
def heading : String := "decision,ms,kind,interactor"

def row (d : Decision) : String := s!"decision,{d.time},{d.kind.name},{d.interactor}"

/-- What is expected of a decision: its kind and the interactor, not its time. -/
def key (d : Decision) : String := s!"{d.kind.name}:{d.interactor}"

end Decision

/-! ## Expectations -/

/-- What is wrong with a line of expectations. -/
inductive ExpectationFault where
  | noColon (text : String)
  | kind (text : String)
  deriving DecidableEq

def ExpectationFault.message : ExpectationFault → String
  | noColon text => s!"expected kind:interactor, got '{text}'"
  | kind text => s!"invalid decision kind '{text}'"

/-- A line of expectations that cannot be read. Lines are counted from one. -/
structure ExpectationError where
  line : Nat
  fault : ExpectationFault
  deriving DecidableEq

def ExpectationError.message (e : ExpectationError) : String := s!"line {e.line}: {e.fault.message}"

/-- The key on a line of expectations, if it is neither blank nor a comment. The kind may be written
in any case, and there may be blanks around both parts. -/
def expectedKey (line : List Char) : Except ExpectationFault (Option String) :=
  let content := Text.trim line
  if content.isEmpty ∨ content.head? = some '#' then .ok none
  else match Text.cut? ':' content with
    | none => .error (.noColon (String.ofList content))
    | some (kind, interactor) =>
      let kind := String.ofList ((Text.trim kind).map Char.toLower)
      if (DecisionKind.ofName? kind).isSome then
        .ok (some (kind ++ ":" ++ String.ofList (Text.trim interactor)))
      else .error (.kind kind)

/-- The keys that a file of expectations lists. -/
def readExpectations (text : String) : Except ExpectationError (List String) := do
  let keys ← ((Text.lines text.toList).zipIdx 1).mapM fun (line, number) =>
    (expectedKey line).mapError fun fault => (⟨number, fault⟩ : ExpectationError)
  return keys.filterMap id

end TouchIntent
