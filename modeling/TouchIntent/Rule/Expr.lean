import TouchIntent.Rule.Qualifier

/-!
# Rule expressions

What a rule says, before it is registered: questions about behaviours, references to registered
rules, and connectives. Every name in an expression has been resolved. An expression has a
*canonical label* that is put together from the labels of its parts.
-/

namespace TouchIntent

/-- What a rule asks about a behaviour. -/
structure Question where
  aspect : Aspect
  progress : Progress
  deriving DecidableEq

namespace Question

/-- The answer to a question, read off a completion check. -/
def answer (q : Question) (r : CheckResult) : Bool :=
  match q.aspect, q.progress with
  | .on, .complete => r.hasJustCompleted
  | .is, .complete => r.hasBeenCompleted || r.hasJustCompleted
  | .is, .mostLikely => r.isMostLikely
  | .on, .mostLikely => r.hasJustBecomeMostLikely

/-- The label of a question about a behaviour. -/
def label (q : Question) (behavior : String) : String :=
  behavior ++ "_" ++ q.aspect.keyword ++ "_" ++ q.progress.keyword

end Question

inductive RuleExpr (R : Type) where
  | ask (behavior : Nat) (name : String) (question : Question)
  /-- The registered rule with the given number. -/
  | ref (rule : Nat)
  | not (operand : RuleExpr R)
  | binary (op : BinaryOp) (left right : RuleExpr R)
  /-- A question with a qualifier, which was written as the given text. -/
  | qualified (operand : RuleExpr R) (word : QualifierWord) (text : String)
      (qualifier : Qualifier R)

/-- The label of a negation. -/
def negationLabel (operand : String) : String := "not_" ++ operand

def BinaryOp.label (op : BinaryOp) (left right : String) : String :=
  left ++ "_" ++ op.keyword ++ "_" ++ right

/-- The label of a qualified question. -/
def QualifierWord.label (word : QualifierWord) (operand text : String) : String :=
  operand ++ "_" ++ word.keyword ++ "_" ++ text

/-- The canonical label, given the labels of the registered rules. -/
def RuleExpr.label {R : Type} (labelOf : Nat → String) : RuleExpr R → String
  | ask _ name question => question.label name
  | ref rule => labelOf rule
  | not operand => negationLabel (operand.label labelOf)
  | binary op left right => op.label (left.label labelOf) (right.label labelOf)
  | qualified operand word text _ => word.label (operand.label labelOf) text

/-- Why a rule is rejected. -/
inductive RuleFault where
  | empty
  | unbalancedBrackets
  | emptyExpression
  | missingOperand (op : BinaryOp)
  | unknownBehavior (name : String)
  | unknownRule (label : String)
  | misplacedQualifier (word : QualifierWord)
  | badQualifier (word : QualifierWord) (value unit : String)
  | unreadable (text : String)
  | labelTaken (label holder : String)
  | noBehaviorAt (index : Nat)
  | nothingToClaimOn
  deriving DecidableEq

def RuleFault.message : RuleFault → String
  | empty => "empty rule"
  | unbalancedBrackets => "unbalanced brackets"
  | emptyExpression => "empty expression"
  | missingOperand op => s!"operator `{op.keyword}` is missing an operand"
  | unknownBehavior name => s!"unknown behavior `{name}`"
  | unknownRule label => s!"no rule labelled `{label}`"
  | misplacedQualifier word => s!"qualifier `{word.keyword}` must follow a behavior event"
  | badQualifier word value unit => s!"bad qualifier `{word.keyword} {value} {unit}`"
  | unreadable text => s!"cannot parse `{text}`"
  | labelTaken label holder => s!"label `{label}` already names `{holder}`"
  | noBehaviorAt index => s!"no behavior at index {index}"
  | nothingToClaimOn => "no rule with this label"

/-- The rejection of a rule. -/
structure RuleError where
  rule : String
  fault : RuleFault
  deriving DecidableEq

def RuleError.message (e : RuleError) : String := s!"rule `{e.rule}` rejected: {e.fault.message}"

end TouchIntent
