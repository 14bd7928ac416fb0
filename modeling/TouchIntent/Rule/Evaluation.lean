import TouchIntent.Rule.Book

/-!
# Evaluating rules

Rules are evaluated in cycles. In each cycle every node is evaluated once, after the nodes that it
refers to; who asks again is given the answer of this cycle. A question about a behaviour carries
the result of its completion check from one cycle to the next, so asking it twice would change the
answer.

A listener is called once in every cycle in which its rule holds, and is told how many cycles in a
row the rule has held before. The listener of a behaviour is called with every completion check of
it.
-/

namespace TouchIntent

/-- A call of a listener. -/
inductive Firing (ν : Type) where
  /-- The rule of the label holds, and has held for `streak` cycles in a row before. -/
  | rule (listener : ν) (label : String) (streak : Nat)
  | behavior (listener : ν) (label : String) (result : Option CheckResult)

/-- The rule did not hold in the cycle before. -/
def isRisingEdge (streak : Nat) : Bool := streak == 0

/-- A rulebook in the middle of a cycle, and the listeners called so far. -/
structure Cycle (R ν : Type) where
  book : Rulebook R ν
  firings : List (Firing ν)

variable {R ν : Type} [Scalar R]

/-- The result of a completion check with what is known about the behaviour's rank. -/
def CheckResult.withRank (r : CheckResult) (isMostLikely wasMostLikely : Bool) : CheckResult :=
  { r with
    isMostLikely
    hasJustBecomeMostLikely := isMostLikely && !wasMostLikely }

/-- The completion check for a question, given what the last one found. -/
def BehaviorView.ask (v : BehaviorView R) (previous : Option CheckResult) : Option CheckResult :=
  (v.check previous).map fun r =>
    r.withRank v.isMostLikely (previous.any CheckResult.isMostLikely)

/-- The node after an evaluation with the given outcome. -/
def RuleNode.settle (n : RuleNode R ν) (holds : Bool) : RuleNode R ν :=
  { n with
    isChecked := true
    holds
    streak := if holds && n.holds then n.streak + 1 else 0
    checkCount := n.checkCount + 1 }

namespace Cycle

variable (c : Cycle R ν)

/-- Whether a node holds, as far as this cycle has come. -/
def holds (node : Nat) : Bool := c.book.nodes[node]?.any RuleNode.holds

/-- Settles a node, and calls its listeners if it holds. -/
def settle (node : Nat) (holds : Bool) : Cycle R ν :=
  let book := c.book.modifyNode node fun n => n.settle holds
  let firings := match book.nodes[node]? with
    | some n => if holds then n.listeners.map fun (label, l) => .rule l label n.streak else []
    | none => []
  ⟨book, c.firings ++ firings⟩

/-- Asks a question about a behaviour. A behaviour that is not in view is not looked at. -/
def ask (views : List (BehaviorView R)) (node : Nat) (previous : Option CheckResult)
    (behavior : Nat) (question : Question) : Cycle R ν :=
  match views[behavior]? with
  | none => c.settle node false
  | some view =>
    let result := view.ask previous
    let firings := match (c.book.behaviorListeners[behavior]?).join with
      | some listener => [.behavior listener view.label result]
      | none => []
    let book := c.book.modifyNode node fun n => { n with lastResult := result }
    let book := { book with behaviorResults := book.behaviorResults.set behavior result }
    settle ⟨book, c.firings ++ firings⟩ node (result.any question.answer)

/-- The qualifier holds of the behaviour that the question is about. -/
def qualifies (views : List (BehaviorView R)) (question : Nat) (qualifier : Qualifier R) : Bool :=
  match c.book.nodes[question]?.map RuleNode.kind with
  | some (.ask behavior _) => views[behavior]?.any qualifier.holds
  | _ => false

/-- Evaluates a node, unless it has been evaluated in this cycle. -/
def check (views : List (BehaviorView R)) (c : Cycle R ν) (node : Nat) : Cycle R ν :=
  match c.book.nodes[node]? with
  | none => c
  | some n =>
    if n.isChecked then c
    else match n.kind with
      | .ask behavior question => c.ask views node n.lastResult behavior question
      | .not operand =>
        let c := if operand < node then check views c operand else c
        c.settle node (!c.holds operand)
      | .binary op left right =>
        let c := if left < node then check views c left else c
        let c := if right < node then check views c right else c
        c.settle node (op.apply (c.holds left) (c.holds right))
      | .qualified question qualifier =>
        let c := if question < node then check views c question else c
        c.settle node (c.holds question && c.qualifies views question qualifier)
  termination_by node

end Cycle

namespace Rulebook

variable (book : Rulebook R ν)

/-- The rulebook at the start of a cycle. -/
def startCycle : Rulebook R ν :=
  { book with nodes := book.nodes.map fun n => { n with isChecked := false } }

/-- One cycle: evaluates every rule against what the behaviours show. -/
def update (views : List (BehaviorView R)) : Cycle R ν :=
  (List.range book.nodes.length).foldl (Cycle.check views) ⟨book.startCycle, []⟩

/-- Evaluates the rule of a label within the current cycle. -/
def evaluate (label : String) (views : List (BehaviorView R)) : Option (Cycle R ν × Bool) :=
  (book.node? label).map fun node =>
    let c := Cycle.check views ⟨book, []⟩ node
    (c, c.holds node)

end Rulebook

end TouchIntent
