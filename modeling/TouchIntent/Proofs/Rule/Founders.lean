import Mathlib.Data.List.Find
import TouchIntent.Proofs.Rule.Run

/-!
# Who founds a node

Expressions of one canonical label share a node. It computes what the first of them says: that
expression is the founder of the node. This module follows the expressions that are interned in a
run, and shows that the kind of every node is the one that its founder asks for, with operands that
go by the labels of the founder's operands.
-/

namespace TouchIntent

variable {R ν : Type}

/-- The parts of an expression that are given nodes, in the order in which they are interned. -/
def RuleExpr.parts : RuleExpr R → List (RuleExpr R)
  | ask behavior name question => [ask behavior name question]
  | ref _ => []
  | not operand => operand.parts ++ [not operand]
  | binary op left right => left.parts ++ right.parts ++ [binary op left right]
  | qualified operand word text qualifier =>
    operand.parts ++ [qualified operand word text qualifier]

/-- A node of this kind computes the expression, from nodes that go by the labels of its
operands. -/
inductive NodeKind.Computes (labelOf : Nat → String) : NodeKind R → RuleExpr R → Prop where
  | ask (behavior : Nat) (name : String) (question : Question) :
    Computes labelOf (.ask behavior question) (.ask behavior name question)
  | not {o : Nat} {operand : RuleExpr R} (same : labelOf o = operand.label labelOf) :
    Computes labelOf (.not o) (.not operand)
  | binary (op : BinaryOp) {l r : Nat} {left right : RuleExpr R}
    (same_left : labelOf l = left.label labelOf) (same_right : labelOf r = right.label labelOf) :
    Computes labelOf (.binary op l r) (.binary op left right)
  | qualified {o : Nat} {operand : RuleExpr R} (word : QualifierWord) (text : String)
    (qualifier : Qualifier R) (same : labelOf o = operand.label labelOf) :
    Computes labelOf (.qualified o qualifier) (.qualified operand word text qualifier)

namespace Rulebook

/-- The first of some expressions that has a label. -/
def founder? (book : Rulebook R ν) (entered : List (RuleExpr R)) (label : String) :
    Option (RuleExpr R) :=
  entered.find? fun expr => expr.label book.labelOf == label

/-- The nodes of the rulebook are those that the expressions have been entered into, and each is
what its founder asks for. -/
structure FoundedOn (book : Rulebook R ν) (entered : List (RuleExpr R)) : Prop where
  known : ∀ expr ∈ entered, expr.Scoped book
  indexed : ∀ expr ∈ entered, ∃ i, book.index.lookup (expr.label book.labelOf) = some i
  founder : ∀ (i : Nat) (n : RuleNode R ν), book.nodes[i]? = some n →
    ∃ expr, book.founder? entered n.label = some expr ∧ n.kind.Computes book.labelOf expr

variable {book book' : Rulebook R ν} {entered : List (RuleExpr R)} {expr : RuleExpr R}
  {label : String} {kind : NodeKind R}

theorem mem_of_founder? (first : book.founder? entered label = some expr) :
    expr ∈ entered ∧ expr.label book.labelOf = label :=
  ⟨List.mem_of_find?_eq_some first, by simpa using List.find?_some first⟩

theorem founder?_concat_of_some {first : RuleExpr R}
    (before : book.founder? entered label = some first) (expr : RuleExpr R) :
    book.founder? (entered ++ [expr]) label = some first := by
  rw [founder?] at before ⊢
  rw [List.find?_append, before]
  rfl

theorem founder?_concat_self (fresh : ∀ e ∈ entered, e.label book.labelOf ≠ label)
    (named : expr.label book.labelOf = label) :
    book.founder? (entered ++ [expr]) label = some expr := by
  have before : entered.find? (fun e => e.label book.labelOf == label) = none := by
    simpa [List.find?_eq_none] using fresh
  rw [founder?, List.find?_append, before]
  simp [named]

theorem Extends.founder?_eq (extends' : book.Extends book')
    (known : ∀ expr ∈ entered, expr.Scoped book) (label : String) :
    book'.founder? entered label = book.founder? entered label := by
  apply List.find?_congr
  intro expr member
  rw [extends'.label_eq (known expr member)]

/-- What a node computes does not change when others are added. -/
theorem Extends.computes (extends' : book.Extends book') (known : expr.Scoped book)
    (within : ∀ o ∈ kind.operands, o < book.nodes.length)
    (computes : kind.Computes book.labelOf expr) : kind.Computes book'.labelOf expr := by
  cases computes with
  | ask behavior name question => exact .ask behavior name question
  | @not o operand same =>
    have operand_known : operand.Scoped book := known
    apply NodeKind.Computes.not
    rw [extends'.labelOf (within _ (by simp [NodeKind.operands])), same,
      extends'.label_eq operand_known]
  | binary op same_left same_right =>
    apply NodeKind.Computes.binary op
    · rw [extends'.labelOf (within _ (by simp [NodeKind.operands])), same_left,
        extends'.label_eq known.1]
    · rw [extends'.labelOf (within _ (by simp [NodeKind.operands])), same_right,
        extends'.label_eq known.2]
  | qualified word text qualifier same =>
    apply NodeKind.Computes.qualified word text qualifier
    rw [extends'.labelOf (within _ (by simp [NodeKind.operands])), same,
      extends'.label_eq known.1]

/-- One more expression is entered: it shares a node, or it founds one. -/
theorem FoundedOn.node (founded : book.FoundedOn entered) (wf : book.WellFormed)
    (known : expr.Scoped book) (named : expr.label book.labelOf = label)
    (within : ∀ o ∈ kind.operands, o < book.nodes.length)
    (computes : kind.Computes book.labelOf expr) :
    (book.node label kind).1.FoundedOn (entered ++ [expr]) := by
  cases indexed : book.index.lookup label with
  | some i =>
    have shared : (book.node label kind).1 = book := by simp [Rulebook.node, indexed]
    rw [shared]
    refine ⟨?_, ?_, ?_⟩
    · intro e member
      rcases List.mem_append.1 member with member | member
      · exact founded.known e member
      · exact List.mem_singleton.1 member ▸ known
    · intro e member
      rcases List.mem_append.1 member with member | member
      · exact founded.indexed e member
      · exact ⟨i, by rw [List.mem_singleton.1 member, named, indexed]⟩
    · intro j n found
      obtain ⟨first, before, computes⟩ := founded.founder j n found
      exact ⟨first, founder?_concat_of_some before expr, computes⟩
  | none =>
    have grown : (book.node label kind).1 = book.push label kind := by
      simp [Rulebook.node, indexed, Rulebook.push]
    have extends' : book.Extends (book.push label kind) := extends_push book label kind
    have fresh : ∀ e ∈ entered, e.label book.labelOf ≠ label := by
      intro e member same
      obtain ⟨i, taken⟩ := founded.indexed e member
      rw [same, indexed] at taken
      cases taken
    have all_known : ∀ e ∈ entered ++ [expr], e.Scoped book := by
      intro e member
      rcases List.mem_append.1 member with member | member
      · exact founded.known e member
      · exact List.mem_singleton.1 member ▸ known
    rw [grown]
    refine ⟨fun e member => extends'.stays_scoped (all_known e member), ?_, ?_⟩
    · intro e member
      rw [extends'.label_eq (all_known e member)]
      rcases List.mem_append.1 member with member | member
      · obtain ⟨i, taken⟩ := founded.indexed e member
        refine ⟨i, ?_⟩
        have other : (e.label book.labelOf == label) = false := by simpa using fresh e member
        rw [Rulebook.push, List.lookup_cons, other]
        exact taken
      · rw [List.mem_singleton.1 member, named]
        exact ⟨book.nodes.length, by simp [Rulebook.push]⟩
    · intro j n found
      rw [extends'.founder?_eq all_known]
      rcases getElem?_push.1 found with found | ⟨rfl, rfl⟩
      · obtain ⟨first, before, old⟩ := founded.founder j n found
        have operands_lt : ∀ o ∈ n.kind.operands, o < book.nodes.length := fun o member =>
          Nat.lt_trans (wf.before j n found o member) (List.getElem?_eq_some_iff.1 found).1
        exact ⟨first, founder?_concat_of_some before expr,
          extends'.computes (founded.known first (mem_of_founder? before).1) operands_lt old⟩
      · exact ⟨expr, founder?_concat_self fresh named, extends'.computes known within computes⟩

/-- Interning an expression enters its parts. -/
theorem FoundedOn.intern (founded : book.FoundedOn entered) (wf : book.WellFormed)
    (known : expr.Scoped book) : (book.intern expr).1.FoundedOn (entered ++ expr.parts) := by
  induction expr generalizing book entered with
  | ask behavior name question =>
    exact founded.node wf known rfl (by simp [NodeKind.operands]) (.ask behavior name question)
  | ref rule => simpa [RuleExpr.parts, Rulebook.intern] using founded
  | not operand ih =>
    have operand_known : operand.Scoped book := known
    have inner := intern_spec wf operand_known
    have label := inner.label.trans (inner.extends_book.label_eq operand_known).symm
    rw [RuleExpr.parts, ← List.append_assoc]
    apply (ih founded wf operand_known).node inner.wellFormed
    · exact inner.extends_book.stays_scoped known
    · rw [RuleExpr.label, label]
    · simpa [NodeKind.operands] using inner.within
    · exact .not label
  | binary op left right ihl ihr =>
    have first := intern_spec wf known.1
    have known_right := first.extends_book.stays_scoped known.2
    have second := intern_spec first.wellFormed known_right
    have extends' := first.extends_book.trans second.extends_book
    have label_left : ((book.intern left).1.intern right).1.labelOf (book.intern left).2 =
        left.label ((book.intern left).1.intern right).1.labelOf := by
      rw [second.extends_book.labelOf first.within, first.label, extends'.label_eq known.1]
    have label_right := second.label.trans (second.extends_book.label_eq known_right).symm
    have operands := ihr (ihl founded wf known.1) first.wellFormed known_right
    rw [RuleExpr.parts, ← List.append_assoc, ← List.append_assoc]
    apply operands.node second.wellFormed
    · exact extends'.stays_scoped known
    · rw [RuleExpr.label, label_left, label_right]
    · have left_lt := Nat.lt_of_lt_of_le first.within second.extends_book.length_le
      simpa [NodeKind.operands] using ⟨left_lt, second.within⟩
    · exact .binary op label_left label_right
  | qualified operand word text qualifier ih =>
    have inner := intern_spec wf known.1
    have label := inner.label.trans (inner.extends_book.label_eq known.1).symm
    rw [RuleExpr.parts, ← List.append_assoc]
    apply (ih founded wf known.1).node inner.wellFormed
    · exact inner.extends_book.stays_scoped known
    · rw [RuleExpr.label, label]
    · simpa [NodeKind.operands] using inner.within
    · exact .qualified word text qualifier label

namespace SameGraph

theorem isQuestion_eq (same : book.SameGraph book') (expr : RuleExpr R) :
    expr.isQuestion book'.scope = expr.isQuestion book.scope := by
  cases expr with
  | ref rule =>
    have entry := congrArg (fun entries => (entries[rule]?).map Prod.snd) same.nodes
    simp only [List.getElem?_map, Option.map_map, Function.comp_def] at entry
    have kinds := congrArg (fun kind => kind.any NodeKind.isQuestion) entry
    simpa [RuleExpr.isQuestion, scope, Option.any_map] using kinds
  | _ => rfl

theorem stays_scoped (same : book.SameGraph book') (known : expr.Scoped book) :
    expr.Scoped book' := by
  induction expr with
  | ask behavior name question => simpa only [RuleExpr.Scoped, same.behaviors] using known
  | ref rule => simpa only [RuleExpr.Scoped, same.length_eq] using known
  | not operand ih => exact ih known
  | binary op left right ihl ihr => exact ⟨ihl known.1, ihr known.2⟩
  | qualified operand word text qualifier ih =>
    exact ⟨ih known.1, (same.isQuestion_eq operand).trans known.2⟩

theorem foundedOn (same : book.SameGraph book') (founded : book.FoundedOn entered) :
    book'.FoundedOn entered where
  known := by
    intro expr member
    exact same.stays_scoped (founded.known expr member)
  indexed := by
    intro expr member
    rw [same.index, same.labelOf]
    exact founded.indexed expr member
  founder := by
    intro i n' found
    obtain ⟨n, original, label, kind⟩ := same.getElem? found
    rw [founder?, same.labelOf, ← label, ← kind]
    exact founded.founder i n original

end SameGraph

theorem foundedOn_empty (behaviors : List String) :
    (empty behaviors : Rulebook R ν).FoundedOn [] where
  known := by simp
  indexed := by simp
  founder := by
    intro i n found
    simp [empty] at found

/-- Registering a rule enters the parts of what it says. -/
theorem FoundedOn.register (founded : book.FoundedOn entered) (wf : book.WellFormed)
    {rule : Rule R} (known : rule.expr.Scoped book) :
    (book.register rule).1.FoundedOn (entered ++ rule.expr.parts) := by
  have interned := founded.intern wf known
  have renamed (aliases : List (String × Nat)) :
      { (book.intern rule.expr).1 with aliases }.FoundedOn (entered ++ rule.expr.parts) := by
    have extends' : (book.intern rule.expr).1.Extends { (book.intern rule.expr).1 with aliases } :=
      ⟨List.prefix_refl _, rfl⟩
    refine ⟨?_, interned.indexed, interned.founder⟩
    intro e member
    exact extends'.stays_scoped (interned.known e member)
  rw [Rulebook.register]
  cases rule.label with
  | none => exact interned
  | some label =>
    simp only
    split
    · exact interned
    · exact renamed _

variable [Scalar R]

/-- The expressions that an operation enters. -/
def enteredBy (book : Rulebook R ν) (op : RuleOp R ν) : List (RuleExpr R) :=
  (book.addedRule? op).toList.flatMap fun rule => rule.expr.parts

/-- The nodes after a run are founded on the expressions that were entered in it. -/
theorem foundedOn_performAll (behaviors : List String) (ops : List (RuleOp R ν)) :
    ((empty behaviors).performAll ops).FoundedOn
      ((empty behaviors : Rulebook R ν).chronicle enteredBy ops) := by
  induction ops using List.reverseRecOn with
  | nil => exact foundedOn_empty behaviors
  | append_singleton past op ih =>
    have wf : ((empty behaviors).performAll past).WellFormed :=
      wellFormed_performAll (wellFormed_empty behaviors) past
    rw [performAll_concat, chronicle_concat]
    apply (sameGraph_perform _ op).foundedOn
    rw [withAdded, enteredBy]
    cases added : ((empty behaviors).performAll past).addedRule? op with
    | none => simpa using ih
    | some rule => simpa using ih.register wf (scoped_of_addedRule? wf added)

end Rulebook

end TouchIntent
