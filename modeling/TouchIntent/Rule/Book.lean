import TouchIntent.Rule.Parser

/-!
# Rulebooks

A rulebook holds the registered rules as a graph. Every subexpression of a rule is a node, and two
subexpressions of one canonical label share a node. A node refers only to nodes before it. The label
that a rule is given by its text is a second name of the rule's node and never replaces its
canonical label.

Listeners are values of a type of the host's choosing: registering one stores it, and evaluation
answers with the listeners to call.

What registers a rule hands the rulebook back beside its answer, on an error too: as far as it has
come by then.
-/

namespace TouchIntent

/-- What a node computes, from nodes before it. -/
inductive NodeKind (R : Type) where
  | ask (behavior : Nat) (question : Question)
  | not (operand : Nat)
  | binary (op : BinaryOp) (left right : Nat)
  | qualified (question : Nat) (qualifier : Qualifier R)

/-- A subexpression of the registered rules, and what evaluation has found out about it. `ν` is the
type of listeners. -/
structure RuleNode (R ν : Type) where
  label : String
  kind : NodeKind R
  /-- The node has been evaluated in this cycle. -/
  isChecked : Bool := false
  holds : Bool := false
  /-- How many cycles in a row the node has held before this one. -/
  streak : Nat := 0
  checkCount : Nat := 0
  /-- What the last completion check found, for a question. -/
  lastResult : Option CheckResult := none
  /-- The listeners, each with the label that it was registered under. -/
  listeners : List (String × ν) := []

structure Rulebook (R ν : Type) where
  /-- The labels of the behaviours that the rules are about. -/
  behaviors : List String
  nodes : List (RuleNode R ν)
  /-- The node of each canonical label. -/
  index : List (String × Nat)
  /-- The node of each label that was given to a rule. -/
  aliases : List (String × Nat)
  /-- For each behaviour, what the last completion check found. -/
  behaviorResults : List (Option CheckResult)
  behaviorListeners : List (Option ν)

variable {R ν : Type}

/-- The node asks a question about a behaviour. -/
def NodeKind.isQuestion : NodeKind R → Bool
  | ask .. => true
  | _ => false

namespace Rulebook

/-- The rulebook without rules. -/
def empty (behaviors : List String) : Rulebook R ν where
  behaviors
  nodes := []
  index := []
  aliases := []
  behaviorResults := behaviors.map fun _ => none
  behaviorListeners := behaviors.map fun _ => none

variable (book : Rulebook R ν)

/-- The node that a label names. -/
def node? (label : String) : Option Nat := book.aliases.lookup label <|> book.index.lookup label

/-- The canonical label of a node. -/
def labelOf (node : Nat) : String := ((book.nodes[node]?).map RuleNode.label).getD ""

def scope : RuleScope where
  behavior? name := book.behaviors.idxOf? name
  rule? := book.node?
  isQuestion node := book.nodes[node]?.any fun n => n.kind.isQuestion

/-- The node of a canonical label, which is added if there is none. -/
def node (label : String) (kind : NodeKind R) : Rulebook R ν × Nat :=
  match book.index.lookup label with
  | some found => (book, found)
  | none =>
    let added := book.nodes.length
    ({ book with
        nodes := book.nodes ++ [{ label, kind }]
        index := (label, added) :: book.index }, added)

/-- Adds the nodes of an expression, and answers with its own. -/
def intern (book : Rulebook R ν) : RuleExpr R → Rulebook R ν × Nat
  | .ask behavior name question => book.node (question.label name) (.ask behavior question)
  | .ref rule => (book, rule)
  | .not operand =>
    let (book, operand) := book.intern operand
    book.node (negationLabel (book.labelOf operand)) (.not operand)
  | .binary op left right =>
    let (book, left) := book.intern left
    let (book, right) := book.intern right
    book.node (op.label (book.labelOf left) (book.labelOf right)) (.binary op left right)
  | .qualified operand word text qualifier =>
    let (book, operand) := book.intern operand
    book.node (word.label (book.labelOf operand) text) (.qualified operand qualifier)

/-- The given label already names a node of another canonical label than that of the expression. -/
def conflict? (label : String) (expr : RuleExpr R) : Option RuleFault :=
  match book.node? label with
  | none => none
  | some bound =>
    if book.labelOf bound = expr.label book.labelOf then none
    else some (.labelTaken label (book.labelOf bound))

/-- Registers what a rule says under a label. Without a label of its own it goes by the canonical
one. -/
def register (rule : Rule R) : Rulebook R ν × String :=
  let (book, root) := book.intern rule.expr
  let canonical := book.labelOf root
  match rule.label with
  | none => (book, canonical)
  | some label =>
    (if label = canonical then book else { book with aliases := (label, root) :: book.aliases },
      label)

/-- Adds a rule, and answers with the label that it is registered under. -/
def addRule [Scalar R] (statement : String) : Rulebook R ν × Except RuleError String :=
  match Rule.read book.scope statement.toList with
  | .error fault => (book, .error ⟨statement, fault⟩)
  | .ok rule =>
    match rule.label.bind fun label => book.conflict? label rule.expr with
    | some fault => (book, .error ⟨statement, fault⟩)
    | none =>
      let (book, label) := book.register rule
      (book, .ok label)

/-- The rulebook with one node changed. -/
def modifyNode (node : Nat) (change : RuleNode R ν → RuleNode R ν) : Rulebook R ν :=
  { book with nodes := book.nodes.modify node change }

/-- Attaches a listener to the rule of a label, if there is one. -/
def addListener (label : String) (listener : ν) : Option (Rulebook R ν) :=
  (book.node? label).map fun node =>
    book.modifyNode node fun n => { n with listeners := n.listeners ++ [(label, listener)] }

/-- Adds a rule and a listener to it. -/
def addRuleWithListener [Scalar R] (statement : String) (listener : ν) :
    Rulebook R ν × Except RuleError String :=
  match book.addRule statement with
  | (book, .error error) => (book, .error error)
  | (book, .ok label) => ((book.addListener label listener).getD book, .ok label)

/-- The rule that has a behaviour evaluated in every cycle. -/
def watchRule (behavior : String) : String :=
  behavior ++ "_notification_dummy: " ++ behavior ++ " is complete"

/-- Attaches a listener to a behaviour. It is called whenever a question about the behaviour is
evaluated; a rule is added that asks one in every cycle. -/
def setBehaviorListener [Scalar R] (behavior : Nat) (listener : ν) :
    Rulebook R ν × Except RuleError Unit :=
  match book.behaviors[behavior]? with
  | none => (book, .error ⟨"", .noBehaviorAt behavior⟩)
  | some label =>
    match book.addRule (watchRule label) with
    | (book, .error error) => (book, .error error)
    | (book, .ok _) =>
      ({ book with behaviorListeners := book.behaviorListeners.set behavior (some listener) },
        .ok ())

/-- The labels of all rules: canonical ones and given ones. -/
def labels : List String := (book.index ++ book.aliases).map Prod.fst

def nodeCount : Nat := book.nodes.length

def isEmpty : Bool := book.nodes.isEmpty

/-- The node that a label names, as it was last evaluated. -/
def state? (label : String) : Option (RuleNode R ν) :=
  (book.node? label).bind fun node => book.nodes[node]?

/-- Whether a rule held when it was last evaluated. -/
def isSatisfied? (label : String) : Option Bool := (book.state? label).map RuleNode.holds

/-- What the last completion check for a question found. -/
def lastResult? (label : String) : Option CheckResult :=
  (book.state? label).bind RuleNode.lastResult

/-- What the last completion check for any question about a behaviour found. -/
def behaviorResult? (behavior : Nat) : Option CheckResult := (book.behaviorResults[behavior]?).join

/-- Forgets all completion checks, so that completion starts over. -/
def reset : Rulebook R ν :=
  { book with
    nodes := book.nodes.map fun n => { n with lastResult := none }
    behaviorResults := book.behaviorResults.map fun _ => none }

end Rulebook

end TouchIntent
