import Mathlib.Data.List.Basic
import Mathlib.Data.List.Induction
import TouchIntent.Proofs.Rule.Run

/-!
# The rules and listeners of a rulebook

`renewed` forgets everything that evaluation has found out, and keeps the rules and the listeners.
Evaluating and resetting changes nothing else, and registering a rule or a listener looks at nothing
else. So the rulebook of a run, renewed, is the new rulebook with which only the registrations of
the run have been performed.
-/

namespace TouchIntent

variable {R ν : Type}

/-- The operation registers a rule or a listener. -/
def RuleOp.registers : RuleOp R ν → Bool
  | addRule _ | addRuleWithListener _ _ | addListener _ _ | setBehaviorListener _ _ => true
  | update _ | evaluate _ _ | reset => false

/-- The node as it was added, with the listeners that it has now. -/
def RuleNode.renewed (n : RuleNode R ν) : RuleNode R ν :=
  { label := n.label, kind := n.kind, listeners := n.listeners }

namespace Rulebook

/-- The rulebook with the same rules and listeners that has not been evaluated. -/
def renewed (book : Rulebook R ν) : Rulebook R ν :=
  { book with
    nodes := book.nodes.map RuleNode.renewed
    behaviorResults := book.behaviorResults.map fun _ => none }

variable {book book' : Rulebook R ν}

section Fields

variable (book)

@[simp] theorem node?_renewed : book.renewed.node? = book.node? := rfl

@[simp] theorem labelOf_renewed : book.renewed.labelOf = book.labelOf := by
  funext i
  simp [labelOf, renewed, RuleNode.renewed, Function.comp_def]

theorem renewed_renewed : book.renewed.renewed = book.renewed := by
  simp [renewed, RuleNode.renewed, Function.comp_def]

theorem sameGraph_renewed : book.SameGraph book.renewed :=
  ⟨rfl, rfl, rfl, by simp [renewed, RuleNode.renewed]⟩

theorem scope_renewed : book.renewed.scope = book.scope := by
  have questions (i : Nat) : (book.renewed.nodes[i]?).any (fun n => n.kind.isQuestion) =
      (book.nodes[i]?).any fun n => n.kind.isQuestion := by
    rw [renewed, List.getElem?_map]
    cases book.nodes[i]? <;> rfl
  unfold scope
  simp only [questions, node?_renewed]
  rfl

end Fields

/-- Rulebooks of the same rules and listeners have the same graph. -/
theorem SameGraph.of_renewed (same : book'.renewed = book.renewed) : book.SameGraph book' where
  behaviors := congrArg (fun b => b.behaviors) same
  index := congrArg (fun b => b.index) same
  aliases := congrArg (fun b => b.aliases) same
  nodes := by
    have fields := congrArg (fun b => b.nodes.map fun n => (n.label, n.kind)) same
    simpa [renewed, RuleNode.renewed, Function.comp_def] using fields

theorem behaviorListeners_of_renewed (same : book'.renewed = book.renewed) :
    book'.behaviorListeners = book.behaviorListeners := by
  have listeners := congrArg (fun b => b.behaviorListeners) same
  exact listeners

/-- Each node was there before, with its listeners. -/
theorem getElem?_of_renewed (same : book'.renewed = book.renewed) {i : Nat} {n' : RuleNode R ν}
    (found : book'.nodes[i]? = some n') :
    ∃ n, book.nodes[i]? = some n ∧ n'.renewed = n.renewed := by
  have entry := congrArg (fun b => b.nodes[i]?) same
  simp only [renewed, List.getElem?_map, found, Option.map_some] at entry
  obtain ⟨n, original, fields⟩ := Option.map_eq_some_iff.1 entry.symm
  exact ⟨n, original, fields.symm⟩

theorem renewed_reset (book : Rulebook R ν) : book.reset.renewed = book.renewed := by
  simp [reset, renewed, RuleNode.renewed, Function.comp_def]

/-- A change of nodes that keeps their rules and listeners. -/
theorem renewed_mapNodes (book : Rulebook R ν) {change : RuleNode R ν → RuleNode R ν}
    (keeps : ∀ n, (change n).renewed = n.renewed) :
    Rulebook.renewed { book with nodes := book.nodes.map change } = book.renewed := by
  simp [renewed, Function.comp_def, keeps]

theorem renewed_modifyNode (book : Rulebook R ν) (i : Nat) {change : RuleNode R ν → RuleNode R ν}
    (keeps : ∀ n, (change n).renewed = n.renewed) :
    (book.modifyNode i change).renewed = book.renewed := by
  have nodes : (book.nodes.modify i change).map RuleNode.renewed =
      book.nodes.map RuleNode.renewed := by
    apply List.ext_getElem?
    intro j
    simp only [List.getElem?_map, List.getElem?_modify]
    cases book.nodes[j]? with
    | none => rfl
    | some n => by_cases chosen : i = j <;> simp [chosen, keeps n]
  simp [renewed, modifyNode, nodes]

theorem renewed_setBehaviorResult (book : Rulebook R ν) (behavior : Nat)
    (result : Option CheckResult) :
    Rulebook.renewed { book with behaviorResults := book.behaviorResults.set behavior result } =
      book.renewed := by
  simp [renewed, List.map_const']

end Rulebook

namespace Cycle

theorem renewed_settle (c : Cycle R ν) (node : Nat) (holds : Bool) :
    (c.settle node holds).book.renewed = c.book.renewed :=
  c.book.renewed_modifyNode node fun _ => rfl

theorem renewed_ask (c : Cycle R ν) (views : List (BehaviorView R)) (node : Nat)
    (previous : Option CheckResult) (behavior : Nat) (question : Question) :
    (c.ask views node previous behavior question).book.renewed = c.book.renewed := by
  unfold ask
  cases views[behavior]? with
  | none => exact renewed_settle c node false
  | some view =>
    refine (renewed_settle _ node _).trans ?_
    refine (Rulebook.renewed_setBehaviorResult _ behavior _).trans ?_
    exact c.book.renewed_modifyNode node fun _ => rfl

variable [Scalar R]

/-- Evaluating a node touches no rule and no listener. -/
theorem renewed_check (views : List (BehaviorView R)) (node : Nat) :
    ∀ c : Cycle R ν, (c.check views node).book.renewed = c.book.renewed := by
  induction node using Nat.strongRecOn with
  | ind node ih =>
    intro c
    have visit (o : Nat) (c : Cycle R ν) :
        (if o < node then c.check views o else c).book.renewed = c.book.renewed := by
      split
      · next earlier => exact ih o earlier c
      · rfl
    rw [check]
    split
    · rfl
    · next n found =>
      split
      · rfl
      · cases n.kind with
        | ask behavior question => exact renewed_ask c views node _ behavior question
        | not operand => exact (renewed_settle _ _ _).trans (visit operand c)
        | binary op left right =>
          exact (renewed_settle _ _ _).trans ((visit right _).trans (visit left c))
        | qualified question qualifier => exact (renewed_settle _ _ _).trans (visit question c)

theorem renewed_foldl_check (views : List (BehaviorView R)) (nodes : List Nat) (c : Cycle R ν) :
    (nodes.foldl (Cycle.check views) c).book.renewed = c.book.renewed := by
  induction nodes generalizing c with
  | nil => rfl
  | cons node rest ih => exact (ih _).trans (c.renewed_check views node)

end Cycle

namespace Rulebook

section Registration

variable (book : Rulebook R ν)

theorem node_renewed (label : String) (kind : NodeKind R) :
    book.renewed.node label kind =
      ((book.node label kind).1.renewed, (book.node label kind).2) := by
  unfold node
  rw [show book.renewed.index = book.index from rfl]
  cases book.index.lookup label with
  | some found => rfl
  | none => simp [renewed, RuleNode.renewed]

theorem intern_renewed (expr : RuleExpr R) :
    book.renewed.intern expr = ((book.intern expr).1.renewed, (book.intern expr).2) := by
  induction expr generalizing book with
  | ask behavior name question => exact book.node_renewed _ _
  | ref rule => rfl
  | not operand ih => simp only [intern, ih book, labelOf_renewed, node_renewed]
  | binary op left right ihl ihr =>
    simp only [intern, ihl book, ihr (book.intern left).1, labelOf_renewed, node_renewed]
  | qualified operand word text qualifier ih =>
    simp only [intern, ih book, labelOf_renewed, node_renewed]

theorem register_renewed (rule : Rule R) :
    book.renewed.register rule = ((book.register rule).1.renewed, (book.register rule).2) := by
  unfold register
  simp only [intern_renewed, labelOf_renewed]
  cases rule.label with
  | none => rfl
  | some label =>
    simp only
    split <;> rfl

theorem conflict?_renewed (label : String) (expr : RuleExpr R) :
    book.renewed.conflict? label expr = book.conflict? label expr := by
  simp only [conflict?, node?_renewed, labelOf_renewed]

theorem addListener_renewed (label : String) (listener : ν) :
    book.renewed.addListener label listener =
      (book.addListener label listener).map renewed := by
  let attach (n : RuleNode R ν) := { n with listeners := n.listeners ++ [(label, listener)] }
  have attached (node : Nat) :
      book.renewed.modifyNode node attach = (book.modifyNode node attach).renewed := by
    simp only [renewed, modifyNode, Rulebook.mk.injEq, true_and, and_true]
    apply List.ext_getElem?
    intro j
    simp only [List.getElem?_modify, List.getElem?_map]
    cases book.nodes[j]? with
    | none => rfl
    | some n => by_cases chosen : node = j <;> simp [chosen, RuleNode.renewed, attach]
  simp only [addListener, node?_renewed, Option.map_map, Function.comp_def]
  exact congrArg (fun at' => (book.node? label).map at') (funext attached)

variable [Scalar R]

theorem addRule_renewed (statement : String) :
    book.renewed.addRule statement =
      ((book.addRule statement).1.renewed, (book.addRule statement).2) := by
  unfold addRule
  simp only [scope_renewed, conflict?_renewed]
  cases Rule.read (R := R) book.scope statement.toList with
  | error fault => rfl
  | ok rule =>
    simp only
    cases rule.label.bind fun label => book.conflict? label rule.expr with
    | some fault => rfl
    | none => simp only [register_renewed]

theorem addRuleWithListener_renewed (statement : String) (listener : ν) :
    book.renewed.addRuleWithListener statement listener =
      ((book.addRuleWithListener statement listener).1.renewed,
        (book.addRuleWithListener statement listener).2) := by
  unfold addRuleWithListener
  rw [addRule_renewed]
  rcases book.addRule statement with ⟨added, error | label⟩
  · rfl
  · simp only [addListener_renewed, Prod.mk.injEq, and_true]
    cases added.addListener label listener <;> rfl

theorem setBehaviorListener_renewed (behavior : Nat) (listener : ν) :
    book.renewed.setBehaviorListener behavior listener =
      ((book.setBehaviorListener behavior listener).1.renewed,
        (book.setBehaviorListener behavior listener).2) := by
  unfold setBehaviorListener
  rw [show book.renewed.behaviors = book.behaviors from rfl]
  cases book.behaviors[behavior]? with
  | none => rfl
  | some label =>
    simp only [addRule_renewed]
    rcases book.addRule (watchRule label) with ⟨added, error | given⟩ <;> rfl

end Registration

variable [Scalar R]

/-- What is registered does not depend on what evaluation has found out, and nothing but a
registration changes the rules and listeners. -/
theorem renewed_perform (book : Rulebook R ν) (op : RuleOp R ν) :
    (book.perform op).book.renewed =
      if op.registers then (book.renewed.perform op).book else book.renewed := by
  cases op with
  | addRule statement =>
    simp only [RuleOp.registers, if_true, perform, addRule_renewed]
  | addRuleWithListener statement listener =>
    simp only [RuleOp.registers, if_true, perform, addRuleWithListener_renewed]
  | addListener label listener =>
    simp only [RuleOp.registers, if_true, perform, addListener_renewed]
    cases book.addListener label listener <;> rfl
  | setBehaviorListener behavior listener =>
    simp only [RuleOp.registers, if_true, perform, setBehaviorListener_renewed]
  | update views =>
    refine (Cycle.renewed_foldl_check views _ _).trans ?_
    exact book.renewed_mapNodes fun _ => rfl
  | evaluate label views =>
    simp only [perform, evaluate, RuleOp.registers, Bool.false_eq_true, if_false]
    cases book.node? label with
    | none => rfl
    | some node => exact Cycle.renewed_check views node ⟨book, []⟩
  | reset => exact book.renewed_reset

/-- The rules and listeners of a run are those of its registrations. -/
theorem renewed_performAll (behaviors : List String) (ops : List (RuleOp R ν)) :
    ((empty behaviors : Rulebook R ν).performAll ops).renewed =
      (empty behaviors).performAll (ops.filter RuleOp.registers) := by
  induction ops using List.reverseRecOn with
  | nil => simp [performAll, empty, renewed]
  | append_singleton past op ih =>
    rw [performAll_concat, renewed_perform, ih, List.filter_append]
    cases registers : op.registers with
    | false => simp [registers]
    | true => simp [registers, performAll_concat]

end Rulebook

end TouchIntent
