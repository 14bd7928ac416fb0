import Mathlib.Data.List.Induction
import TouchIntent.Proofs.Rule.Graph

/-!
# Runs of a rulebook

What a host can do with a rulebook, and what each operation does to its graph. An operation adds a
rule, or it leaves the graph as it is: nodes of the same labels and the same operands, with the same
names. So the graph of a rulebook is well formed after every run, in which rules may be added
between cycles and in the middle of one.
-/

namespace TouchIntent

variable {R ν : Type}

/-- An operation of the host. What is rejected does nothing. -/
inductive RuleOp (R ν : Type) where
  | addRule (statement : String)
  | addRuleWithListener (statement : String) (listener : ν)
  | addListener (label : String) (listener : ν)
  | setBehaviorListener (behavior : Nat) (listener : ν)
  | update (views : List (BehaviorView R))
  | evaluate (label : String) (views : List (BehaviorView R))
  | reset

namespace Rulebook

/-- Two rulebooks of one graph: they differ in what evaluation has found out, and in listeners. -/
structure SameGraph (book book' : Rulebook R ν) : Prop where
  behaviors : book'.behaviors = book.behaviors
  index : book'.index = book.index
  aliases : book'.aliases = book.aliases
  nodes : book'.nodes.map (fun n => (n.label, n.kind)) =
    book.nodes.map fun n => (n.label, n.kind)

namespace SameGraph

variable {book book' book'' : Rulebook R ν}

theorem refl (book : Rulebook R ν) : book.SameGraph book := ⟨rfl, rfl, rfl, rfl⟩

theorem trans (first : book.SameGraph book') (second : book'.SameGraph book'') :
    book.SameGraph book'' where
  behaviors := second.behaviors.trans first.behaviors
  index := second.index.trans first.index
  aliases := second.aliases.trans first.aliases
  nodes := second.nodes.trans first.nodes

theorem symm (same : book.SameGraph book') : book'.SameGraph book :=
  ⟨same.behaviors.symm, same.index.symm, same.aliases.symm, same.nodes.symm⟩

theorem length_eq (same : book.SameGraph book') : book'.nodes.length = book.nodes.length := by
  simpa using congrArg List.length same.nodes

/-- Each node was there before, under its label and with its operands. -/
theorem getElem? (same : book.SameGraph book') {i : Nat} {n' : RuleNode R ν}
    (found : book'.nodes[i]? = some n') :
    ∃ n, book.nodes[i]? = some n ∧ n.label = n'.label ∧ n.kind = n'.kind := by
  have entry := congrArg (fun entries => entries[i]?) same.nodes
  simp only [List.getElem?_map, found, Option.map_some] at entry
  obtain ⟨n, original, fields⟩ := Option.map_eq_some_iff.1 entry.symm
  rw [Prod.mk.injEq] at fields
  exact ⟨n, original, fields⟩

theorem operandsBefore (same : book.SameGraph book') (before : book.OperandsBefore) :
    book'.OperandsBefore := by
  intro i n' found o member
  obtain ⟨n, original, -, kind⟩ := same.getElem? found
  exact before i n original o (kind ▸ member)

theorem labelOf (same : book.SameGraph book') : book'.labelOf = book.labelOf := by
  funext i
  have entry := congrArg (fun entries => (entries[i]?).map Prod.fst) same.nodes
  simp only [List.getElem?_map, Option.map_map, Function.comp_def] at entry
  exact congrArg (fun label => label.getD "") entry

theorem node? (same : book.SameGraph book') (label : String) :
    book'.node? label = book.node? label := by
  rw [Rulebook.node?, Rulebook.node?, same.aliases, same.index]

theorem labelFits (same : book.SameGraph book') {label : String} {kind : NodeKind R}
    (fits : book.LabelFits label kind) : book'.LabelFits label kind := by
  cases kind <;> simpa only [LabelFits, same.behaviors, same.labelOf] using fits

theorem wellFormed (same : book.SameGraph book') (wf : book.WellFormed) : book'.WellFormed where
  before := same.operandsBefore wf.before
  index_iff := by
    intro label i
    rw [same.index, wf.index_iff]
    have entry := congrArg (fun entries => (entries[i]?).map Prod.fst) same.nodes
    simp only [List.getElem?_map, Option.map_map, Function.comp_def] at entry
    rw [← Option.map_eq_some_iff, ← Option.map_eq_some_iff]
    exact iff_of_eq (congrArg (· = some label) entry.symm)
  labels := by
    intro i n' found
    obtain ⟨n, original, label, kind⟩ := same.getElem? found
    rw [← label, ← kind]
    exact same.labelFits (wf.labels i n original)
  aliases_lt := by
    intro label i given
    rw [same.aliases] at given
    rw [same.length_eq]
    exact wf.aliases_lt label i given

/-- A change of a node that leaves its label and its operands. -/
theorem modifyNode (book : Rulebook R ν) (i : Nat) (change : RuleNode R ν → RuleNode R ν)
    (keeps : ∀ n, (change n).label = n.label ∧ (change n).kind = n.kind) :
    book.SameGraph (book.modifyNode i change) where
  behaviors := rfl
  index := rfl
  aliases := rfl
  nodes := by
    apply List.ext_getElem?
    intro j
    simp only [Rulebook.modifyNode, List.getElem?_map, List.getElem?_modify]
    cases book.nodes[j]? with
    | none => rfl
    | some n => by_cases chosen : i = j <;> simp [chosen, keeps n]

end SameGraph

end Rulebook

variable [Scalar R]

namespace Cycle

open Rulebook

omit [Scalar R] in
theorem sameGraph_settle (c : Cycle R ν) (node : Nat) (holds : Bool) :
    c.book.SameGraph (c.settle node holds).book :=
  .modifyNode c.book node _ fun _ => ⟨rfl, rfl⟩

/-- Evaluating a node does not touch the graph. -/
theorem sameGraph_check (views : List (BehaviorView R)) (node : Nat) :
    ∀ c : Cycle R ν, c.book.SameGraph (c.check views node).book := by
  induction node using Nat.strongRecOn with
  | ind node ih =>
    intro c
    have visit (o : Nat) (c : Cycle R ν) :
        c.book.SameGraph (if o < node then c.check views o else c).book := by
      split
      · next earlier => exact ih o earlier c
      · exact .refl c.book
    rw [check]
    split
    · exact .refl c.book
    · next n found =>
      split
      · exact .refl c.book
      · cases n.kind with
        | ask behavior question =>
          simp only [Cycle.ask]
          split
          · exact sameGraph_settle c node false
          · next view inView =>
            refine SameGraph.trans ?_ (sameGraph_settle _ node _)
            have remembered := SameGraph.modifyNode c.book node
              (fun m => { m with lastResult := view.ask n.lastResult }) fun _ => ⟨rfl, rfl⟩
            exact ⟨rfl, rfl, rfl, remembered.nodes⟩
        | not operand => exact (visit operand c).trans (sameGraph_settle _ node _)
        | binary op left right =>
          exact ((visit left c).trans (visit right _)).trans (sameGraph_settle _ node _)
        | qualified question qualifier =>
          exact (visit question c).trans (sameGraph_settle _ node _)

theorem sameGraph_foldl_check (views : List (BehaviorView R)) (nodes : List Nat) (c : Cycle R ν) :
    c.book.SameGraph (nodes.foldl (Cycle.check views) c).book := by
  induction nodes generalizing c with
  | nil => exact .refl c.book
  | cons node rest ih => exact (c.sameGraph_check views node).trans (ih _)

end Cycle

namespace Rulebook

/-- The rulebook after an operation, and the listeners that it called. -/
def perform (book : Rulebook R ν) : RuleOp R ν → Cycle R ν
  | .addRule statement => ⟨(book.addRule statement).1, []⟩
  | .addRuleWithListener statement listener =>
    ⟨(book.addRuleWithListener statement listener).1, []⟩
  | .addListener label listener => ⟨(book.addListener label listener).getD book, []⟩
  | .setBehaviorListener behavior listener =>
    ⟨(book.setBehaviorListener behavior listener).1, []⟩
  | .update views => book.update views
  | .evaluate label views => ((book.evaluate label views).map Prod.fst).getD ⟨book, []⟩
  | .reset => ⟨book.reset, []⟩

/-- The rulebook after operations, one after the other. -/
def performAll (book : Rulebook R ν) (ops : List (RuleOp R ν)) : Rulebook R ν :=
  ops.foldl (fun book op => (book.perform op).book) book

theorem performAll_append (book : Rulebook R ν) (past later : List (RuleOp R ν)) :
    book.performAll (past ++ later) = (book.performAll past).performAll later :=
  List.foldl_append

theorem performAll_concat (book : Rulebook R ν) (past : List (RuleOp R ν)) (op : RuleOp R ν) :
    book.performAll (past ++ [op]) = ((book.performAll past).perform op).book := by
  simp [performAll]

/-- What is noted of the operations of a run, each with the rulebook that it is performed on. -/
def chronicle {α : Type} (note : Rulebook R ν → RuleOp R ν → List α) (book : Rulebook R ν) :
    List (RuleOp R ν) → List α
  | [] => []
  | op :: rest => note book op ++ chronicle note (book.perform op).book rest

theorem chronicle_concat {α : Type} (note : Rulebook R ν → RuleOp R ν → List α)
    (book : Rulebook R ν) (past : List (RuleOp R ν)) (op : RuleOp R ν) :
    book.chronicle note (past ++ [op]) =
      book.chronicle note past ++ note (book.performAll past) op := by
  induction past generalizing book with
  | nil => simp [chronicle, performAll]
  | cons first rest ih => simp [chronicle, ih, performAll]

/-- The statement that an operation adds as a rule. -/
def statement? (book : Rulebook R ν) : RuleOp R ν → Option String
  | .addRule statement | .addRuleWithListener statement _ => some statement
  | .setBehaviorListener behavior _ => (book.behaviors[behavior]?).map watchRule
  | _ => none

/-- The rule that an operation adds, if it adds one. -/
def addedRule? (book : Rulebook R ν) (op : RuleOp R ν) : Option (Rule R) :=
  (book.statement? op).bind fun statement =>
    if (book.addRule statement).2.isOk then (Rule.read book.scope statement.toList).toOption
    else none

/-- The rulebook with the rule that an operation adds, before it does anything else. -/
def withAdded (book : Rulebook R ν) (op : RuleOp R ν) : Rulebook R ν :=
  match book.addedRule? op with
  | some rule => (book.register rule).1
  | none => book

variable {book : Rulebook R ν} {op : RuleOp R ν}

/-- The rulebook after a statement was added as a rule, or rejected. -/
theorem withAdded_eq {statement : String} (adds : book.statement? op = some statement) :
    book.withAdded op = (book.addRule statement).1 := by
  rcases outcome : book.addRule statement with ⟨left, error | label⟩
  · have refused : book.addedRule? op = none := by
      simp [addedRule?, adds, outcome, Except.isOk, Except.toBool]
    rw [withAdded, refused, addRule_eq_error outcome]
  · obtain ⟨rule, read, registered, -⟩ := addRule_eq_ok outcome
    have accepted : book.addedRule? op = some rule := by
      simp [addedRule?, adds, outcome, read, Except.isOk, Except.toBool, Except.toOption]
    rw [withAdded, accepted, registered]

theorem withAdded_of_none (adds : book.statement? op = none) : book.withAdded op = book := by
  have nothing : book.addedRule? op = none := by simp [addedRule?, adds]
  rw [withAdded, nothing]

omit [Scalar R] in
theorem sameGraph_addListener (book : Rulebook R ν) (label : String) (listener : ν) :
    book.SameGraph ((book.addListener label listener).getD book) := by
  rw [addListener]
  cases book.node? label with
  | none => exact .refl book
  | some node => exact .modifyNode book node _ fun _ => ⟨rfl, rfl⟩

theorem perform_addRule (book : Rulebook R ν) (statement : String) :
    (book.perform (.addRule statement)).book = book.withAdded (.addRule statement) :=
  (withAdded_eq rfl).symm

theorem perform_addRuleWithListener_of_rejected {statement : String} {left : Rulebook R ν}
    {error : RuleError} (rejected : book.addRule statement = (left, .error error))
    (listener : ν) :
    (book.perform (.addRuleWithListener statement listener)).book = book := by
  simp only [perform, addRuleWithListener, rejected]
  exact addRule_eq_error rejected

theorem perform_addRuleWithListener_of_ok {statement label : String} {added : Rulebook R ν}
    (ok : book.addRule statement = (added, .ok label)) (listener : ν) :
    (book.perform (.addRuleWithListener statement listener)).book =
      (added.addListener label listener).getD added := by
  simp only [perform, addRuleWithListener, ok]

theorem perform_setBehaviorListener (book : Rulebook R ν) (behavior : Nat) (listener : ν) :
    ∃ behaviorListeners, (book.perform (.setBehaviorListener behavior listener)).book =
      { book.withAdded (.setBehaviorListener behavior listener) with behaviorListeners } := by
  cases known : book.behaviors[behavior]? with
  | none =>
    refine ⟨book.behaviorListeners, ?_⟩
    rw [withAdded_of_none (by simp [statement?, known])]
    simp only [perform, setBehaviorListener, known]
  | some label =>
    have adds : book.statement? (.setBehaviorListener behavior listener) =
        some (watchRule label) := by
      simp [statement?, known]
    rw [withAdded_eq adds]
    rcases outcome : book.addRule (watchRule label) with ⟨added, error | given⟩
    · exact ⟨added.behaviorListeners, by simp only [perform, setBehaviorListener, known, outcome]⟩
    · exact ⟨added.behaviorListeners.set behavior (some listener),
        by simp only [perform, setBehaviorListener, known, outcome]⟩

/-- All that an operation does to the graph is to add a rule. -/
theorem sameGraph_perform (book : Rulebook R ν) (op : RuleOp R ν) :
    (book.withAdded op).SameGraph (book.perform op).book := by
  cases op with
  | addRule statement =>
    rw [perform_addRule]
    exact .refl _
  | addRuleWithListener statement listener =>
    rw [withAdded_eq rfl]
    rcases outcome : book.addRule statement with ⟨added, error | label⟩
    · rw [perform_addRuleWithListener_of_rejected outcome, addRule_eq_error outcome]
      exact .refl book
    · rw [perform_addRuleWithListener_of_ok outcome]
      exact added.sameGraph_addListener label listener
  | addListener label listener =>
    rw [withAdded_of_none rfl]
    exact book.sameGraph_addListener label listener
  | setBehaviorListener behavior listener =>
    obtain ⟨listeners, same⟩ := book.perform_setBehaviorListener behavior listener
    rw [same]
    exact ⟨rfl, rfl, rfl, rfl⟩
  | update views =>
    rw [withAdded_of_none rfl]
    have start : book.SameGraph book.startCycle := ⟨rfl, rfl, rfl, by simp [startCycle]⟩
    exact start.trans (Cycle.sameGraph_foldl_check views _ ⟨book.startCycle, []⟩)
  | evaluate label views =>
    rw [withAdded_of_none rfl, perform, evaluate]
    cases book.node? label with
    | none => exact .refl book
    | some node => exact Cycle.sameGraph_check views node ⟨book, []⟩
  | reset =>
    rw [withAdded_of_none rfl]
    exact ⟨rfl, rfl, rfl, by simp [perform, reset]⟩

/-- The rule that an operation adds is that of a statement that is accepted. -/
theorem exists_of_addedRule? {rule : Rule R} (added : book.addedRule? op = some rule) :
    ∃ statement book' label, book.addRule statement = (book', .ok label) ∧
      Rule.read book.scope statement.toList = .ok rule := by
  rw [addedRule?, Option.bind_eq_some_iff] at added
  obtain ⟨statement, -, accepted⟩ := added
  obtain ⟨isOk, read⟩ := Option.ite_none_right_eq_some.1 accepted
  rcases outcome : book.addRule statement with ⟨book', error | label⟩
  · rw [outcome] at isOk
    cases isOk
  · cases reading : Rule.read (R := R) book.scope statement.toList with
    | error fault =>
      rw [reading] at read
      cases read
    | ok rule' =>
      rw [reading] at read
      exact ⟨statement, book', label, outcome,
        reading.trans (congrArg Except.ok (Option.some.inj read))⟩

theorem scoped_of_addedRule? (wf : book.WellFormed) {rule : Rule R}
    (added : book.addedRule? op = some rule) : rule.expr.Scoped book := by
  obtain ⟨statement, -, -, -, read⟩ := exists_of_addedRule? added
  exact scoped_of_read wf read

theorem wellFormed_withAdded (wf : book.WellFormed) (op : RuleOp R ν) :
    (book.withAdded op).WellFormed := by
  rw [withAdded]
  cases added : book.addedRule? op with
  | none => exact wf
  | some rule => exact (register_spec wf (scoped_of_addedRule? wf added)).1

theorem wellFormed_perform (wf : book.WellFormed) (op : RuleOp R ν) :
    (book.perform op).book.WellFormed :=
  (book.sameGraph_perform op).wellFormed (wellFormed_withAdded wf op)

/-- The graph is well formed after every run. -/
theorem wellFormed_performAll (wf : book.WellFormed) (ops : List (RuleOp R ν)) :
    (book.performAll ops).WellFormed := by
  induction ops using List.reverseRecOn with
  | nil => exact wf
  | append_singleton past op ih =>
    rw [performAll_concat]
    exact wellFormed_perform ih op

end Rulebook

end TouchIntent
