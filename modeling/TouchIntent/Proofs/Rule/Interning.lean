import Mathlib.Data.List.Nodup
import TouchIntent.Proofs.Rule.Registration
import TouchIntent.Proofs.Rule.Rendering

/-!
# The label of an expression is the label of its node

The canonical label of an expression is found in two ways. It is put together from the expression
alone, before anything is added, to see whether the label that a rule is given is free; and it is
put together from the labels of nodes while the expression is interned, where some of the nodes may
be there already. The main statement of this module is that in every run both ways lead to the same
label, and that no two nodes share one. So an expression whose nodes are there is found, and nothing
is added for it, whatever has been done since.
-/

namespace TouchIntent

variable {R ν : Type}

namespace Rulebook

/-- The canonical labels, in the order of the nodes. -/
def nodeLabels (book : Rulebook R ν) : List String := book.nodes.map RuleNode.label

/-- Every node has a label of its own, and the index names exactly the nodes by these. -/
structure IndexesLabels (book : Rulebook R ν) : Prop where
  distinct : book.nodeLabels.Nodup
  names_iff : ∀ (label : String) (i : Nat),
    book.index.lookup label = some i ↔ book.nodeLabels[i]? = some label

variable {book book' : Rulebook R ν} {expr : RuleExpr R}

theorem labelOf_eq_getD (book : Rulebook R ν) (i : Nat) :
    book.labelOf i = (book.nodeLabels[i]?).getD "" := by
  rw [labelOf, nodeLabels, List.getElem?_map]

theorem nodeLabels_getElem? {i : Nat} (within : i < book.nodes.length) :
    book.nodeLabels[i]? = some (book.labelOf i) := by
  simp [nodeLabels, labelOf, List.getElem?_eq_getElem within]

theorem WellFormed.indexesLabels (wf : book.WellFormed) : book.IndexesLabels := by
  have names : ∀ (label : String) (i : Nat),
      book.index.lookup label = some i ↔ book.nodeLabels[i]? = some label := by
    intro label i
    rw [wf.index_iff, nodeLabels, List.getElem?_map, Option.map_eq_some_iff]
  refine ⟨List.nodup_iff_getElem?_ne_getElem?.2 ?_, names⟩
  intro i j earlier within same
  -- The index has one node for the label that they share.
  have later : book.nodeLabels[j]? = some book.nodeLabels[j] := List.getElem?_eq_getElem within
  have first := (names _ i).2 (same.trans later)
  rw [(names _ j).2 later] at first
  have equal : j = i := Option.some.inj first
  omega

/-! ## Labels are only added -/

theorem Extends.nodeLabels (extends' : book.Extends book') :
    book.nodeLabels <+: book'.nodeLabels := extends'.nodes.map RuleNode.label

theorem SameGraph.nodeLabels (same : book.SameGraph book') :
    book'.nodeLabels = book.nodeLabels := by
  have labels := congrArg (List.map Prod.fst) same.nodes
  simpa [Rulebook.nodeLabels, Function.comp_def] using labels

theorem nodeLabels_register (book : Rulebook R ν) (rule : Rule R) :
    (book.register rule).1.nodeLabels = (book.intern rule.expr).1.nodeLabels := by
  rw [nodeLabels, register_nodes, nodeLabels]

section Runs

variable [Scalar R]

theorem nodeLabels_withAdded (book : Rulebook R ν) (op : RuleOp R ν) :
    book.nodeLabels <+: (book.withAdded op).nodeLabels := by
  rw [withAdded]
  cases book.addedRule? op with
  | none => exact List.prefix_refl _
  | some rule =>
    rw [nodeLabels_register]
    exact (extends_intern book rule.expr).nodeLabels

/-- Whatever is done, every node keeps its place and its label. -/
theorem nodeLabels_performAll (book : Rulebook R ν) (ops : List (RuleOp R ν)) :
    book.nodeLabels <+: (book.performAll ops).nodeLabels := by
  induction ops using List.reverseRecOn with
  | nil => exact List.prefix_refl _
  | append_singleton past op ih =>
    rw [performAll_concat, (sameGraph_perform _ op).nodeLabels]
    exact ih.trans (nodeLabels_withAdded _ op)

end Runs

/-! ## Interning an expression that is there -/

section Later

variable {result : Rulebook R ν × Nat} (interned : book.Interned expr result)
  (kept : result.1.nodeLabels <+: book'.nodeLabels)
include interned kept

/-- The node of an expression goes by the label that was predicted, also later. -/
theorem Interned.later_getElem? :
    book'.nodeLabels[result.2]? = some (expr.label book.labelOf) := by
  obtain ⟨added, whole⟩ := kept
  have found := nodeLabels_getElem? interned.within
  have within := (List.getElem?_eq_some_iff.1 found).1
  rw [← whole, List.getElem?_append_left within, found, interned.label]

theorem Interned.later_label : book'.labelOf result.2 = expr.label book.labelOf := by
  rw [labelOf_eq_getD, interned.later_getElem? kept, Option.getD_some]

/-- Asking for a node of the label of an expression finds the one of the expression. -/
theorem Interned.later_node (wf' : book'.WellFormed) (kind : NodeKind R) :
    book'.node (expr.label book.labelOf) kind = (book', result.2) := by
  have indexed := (wf'.indexesLabels.names_iff _ _).2 (interned.later_getElem? kept)
  rw [Rulebook.node, indexed]

end Later

/-- An expression whose nodes are there is interned to them, and nothing is added. -/
theorem intern_of_kept (wf : book.WellFormed) (wf' : book'.WellFormed) (known : expr.Scoped book)
    (kept : (book.intern expr).1.nodeLabels <+: book'.nodeLabels) :
    book'.intern expr = (book', (book.intern expr).2) := by
  induction expr generalizing book with
  | ask behavior name question =>
    exact (intern_spec wf known).later_node kept wf' _
  | ref rule => rfl
  | not operand ih =>
    have whole := (intern_spec wf known).later_node kept wf'
    have operand_known : operand.Scoped book := known
    have inner := intern_spec wf operand_known
    have inner_kept : (book.intern operand).1.nodeLabels <+: book'.nodeLabels :=
      (extends_node _ _ _).nodeLabels.trans kept
    rw [Rulebook.intern, ih wf operand_known inner_kept]
    simp only [inner.later_label inner_kept]
    exact whole _
  | binary op left right ihl ihr =>
    have whole := (intern_spec wf known).later_node kept wf'
    have first := intern_spec wf known.1
    have right_known := first.extends_book.stays_scoped known.2
    have second := intern_spec first.wellFormed right_known
    have right_kept : ((book.intern left).1.intern right).1.nodeLabels <+: book'.nodeLabels :=
      (extends_node _ _ _).nodeLabels.trans kept
    have left_kept : (book.intern left).1.nodeLabels <+: book'.nodeLabels :=
      second.extends_book.nodeLabels.trans right_kept
    -- The right operand was interned behind the left one, which does not change its label.
    rw [Rulebook.intern, ihl wf known.1 left_kept]
    simp only [ihr first.wellFormed right_known right_kept, first.later_label left_kept,
      second.later_label right_kept, first.extends_book.label_eq known.2]
    exact whole _
  | qualified operand word text qualifier ih =>
    have whole := (intern_spec wf known).later_node kept wf'
    have inner := intern_spec wf known.1
    have inner_kept : (book.intern operand).1.nodeLabels <+: book'.nodeLabels :=
      (extends_node _ _ _).nodeLabels.trans kept
    rw [Rulebook.intern, ih wf known.1 inner_kept]
    simp only [inner.later_label inner_kept]
    exact whole _

/-- A given label is free for an expression exactly if it names nothing, or the node that the
expression is going to have. -/
theorem conflict?_eq_none_iff (wf : book.WellFormed) (known : expr.Scoped book) (label : String) :
    book.conflict? label expr = none ↔
      ∀ bound, book.node? label = some bound → bound = (book.intern expr).2 := by
  constructor
  · intro free bound named
    let rule : Rule R := ⟨none, expr⟩
    have rule_known : rule.expr.Scoped book := known
    exact eq_of_conflict? wf rule_known named free
  · intro only
    rw [conflict?]
    cases named : book.node? label with
    | none => rfl
    | some bound =>
      have interned := intern_spec wf known
      have within := wf.node?_lt named
      obtain rfl := only bound named
      have same : book.labelOf (book.intern expr).2 = expr.label book.labelOf := by
        rw [← interned.label, interned.extends_book.labelOf within]
      simp [same]

variable [Scalar R]

/-- In every run, an expression that is read in the scope of the rulebook refers to what is there,
and the node that it is interned to goes by the label that is predicted for it, so that a label is
refused for it exactly if it names another node. Before and after, no two nodes share a label and
the index names each node by its label. Interning the expression again, at once or at any time after
it has been registered with a label or without, finds the same node and changes nothing. -/
theorem interned_under_predicted_label (behaviors : List String) (past : List (RuleOp R ν))
    {words : List RuleToken} {expr : RuleExpr R}
    (read : RuleExpr.read ((empty behaviors : Rulebook R ν).performAll past).scope words =
      .ok expr) :
    let book : Rulebook R ν := (empty behaviors).performAll past
    let root := (book.intern expr).2
    expr.Scoped book ∧
      (∃ n, (book.intern expr).1.nodes[root]? = some n ∧ n.label = expr.label book.labelOf) ∧
      (∀ label, book.conflict? label expr = none ↔
        ∀ bound, book.node? label = some bound → bound = root) ∧
      book.IndexesLabels ∧ (book.intern expr).1.IndexesLabels ∧
      (book.intern expr).1.intern expr = book.intern expr ∧
      ∀ (label : Option String) (later : List (RuleOp R ν)),
        let after := (book.register ⟨label, expr⟩).1.performAll later
        after.intern expr = (after, root) := by
  intro book root
  have wf : book.WellFormed := wellFormed_performAll (wellFormed_empty behaviors) past
  have known : expr.Scoped book := (RuleExpr.reads_of_read read).scoped wf
  have interned := intern_spec wf known
  refine ⟨known, ?_, conflict?_eq_none_iff wf known, wf.indexesLabels,
    interned.wellFormed.indexesLabels, ?_, ?_⟩
  · have found := List.getElem?_eq_getElem interned.within
    exact ⟨_, found, (labelOf_eq found).symm.trans interned.label⟩
  · exact intern_of_kept wf interned.wellFormed known (List.prefix_refl _)
  · intro label later after
    let rule : Rule R := ⟨label, expr⟩
    have rule_known : rule.expr.Scoped book := known
    have registered : (book.register rule).1.WellFormed := (register_spec wf rule_known).1
    refine intern_of_kept wf (wellFormed_performAll registered later) known ?_
    rw [← nodeLabels_register book rule]
    exact nodeLabels_performAll _ later

/-- An operand that refers to a rule by its given label, and one that spells the rule out. The node
that is added for the first one is found for the second one. -/
theorem interned_under_predicted_label_spelled_out :
    let past : List (RuleOp Float Unit) := [.addRule "go: a is complete", .update []]
    let book : Rulebook Float Unit := (empty ["a"]).performAll past
    let words := bracketed
      (RuleTerm.binary .and (.not (.ref "go")) (.not (.ask "a" ⟨.is, .complete⟩))).inner
    let expr : RuleExpr Float := .binary .and (.not (.ref 0)) (.not (.ask 0 "a" ⟨.is, .complete⟩))
    RuleExpr.read book.scope words = .ok expr ∧
      book.nodeLabels = ["a_is_complete"] ∧
      (book.intern expr).1.nodeLabels = ["a_is_complete", "not_a_is_complete",
        "not_a_is_complete_and_not_a_is_complete"] ∧
      (book.intern expr).2 = 2 ∧
      expr.label book.labelOf = "not_a_is_complete_and_not_a_is_complete" ∧
      (book.intern expr).1.intern expr = book.intern expr := by
  intro past book words expr
  have names : book.scope.rule? "go" = some 0 ∧ book.scope.behavior? "a" = some 0 := by
    decide +kernel
  have read : RuleExpr.read book.scope words = .ok expr := by
    apply RuleTerm.read_term
    simp [RuleTerm.resolve?, names, expr]
  obtain ⟨-, -, -, -, -, again, -⟩ := interned_under_predicted_label ["a"] past read
  exact ⟨read, by decide +kernel, by decide +kernel, by decide +kernel, by decide +kernel, again⟩

end Rulebook

end TouchIntent
