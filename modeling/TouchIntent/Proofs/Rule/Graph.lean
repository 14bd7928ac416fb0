import Mathlib.Data.List.Basic
import TouchIntent.Proofs.Fallible
import TouchIntent.Proofs.Rule.Cycle
import TouchIntent.Proofs.Rule.Text

/-!
# The graph of a rulebook

What holds of the nodes of every rulebook that is made by adding rules: a node refers to nodes
before it, its label is put together from theirs, and the index finds exactly the node of a label.
Interning an expression keeps all this, leaves the nodes that are there as they are, and answers
with the node of the expression's label.
-/

namespace TouchIntent

variable {R ν : Type}

namespace Question

/-- What the label of a question adds to the name of the behaviour. -/
def suffix (q : Question) : List Char :=
  ("_" ++ q.aspect.keyword ++ "_" ++ q.progress.keyword).toList

theorem toList_label (q : Question) (name : String) :
    (q.label name).toList = name.toList ++ q.suffix := by
  simp [label, suffix]

theorem length_suffix (q : Question) :
    q.suffix.length = if q.progress = .complete then 12 else 15 := by
  rcases q with ⟨_ | _, _ | _⟩ <;> rfl

theorem getLast?_suffix (q : Question) :
    q.suffix.getLast? = some (if q.progress = .complete then 'e' else 'y') := by
  rcases q with ⟨_ | _, _ | _⟩ <;> decide +kernel

theorem suffix_inj {q q' : Question} (same : q.suffix = q'.suffix) : q = q' := by
  revert same
  rcases q with ⟨_ | _, _ | _⟩ <;> rcases q' with ⟨_ | _, _ | _⟩ <;> decide +kernel

/-- The label of a question names the behaviour and the question. -/
theorem label_inj {q q' : Question} {name name' : String} (same : q.label name = q'.label name') :
    q = q' ∧ name = name' := by
  have texts : name.toList ++ q.suffix = name'.toList ++ q'.suffix := by
    rw [← toList_label, ← toList_label, same]
  have progress : q.progress = q'.progress := by
    have ends := congrArg List.getLast? texts
    simp only [List.getLast?_append, getLast?_suffix, Option.some_or, Option.some.injEq] at ends
    cases h : q.progress <;> cases h' : q'.progress <;> simp [h, h'] at ends ⊢
  obtain ⟨names, suffixes⟩ :=
    List.append_inj' texts (by rw [length_suffix, length_suffix, progress])
  exact ⟨suffix_inj suffixes, String.toList_inj.1 names⟩

theorem length_label (q : Question) (name : String) :
    (q.label name).length = name.length + q.suffix.length := by
  rw [← String.length_toList, toList_label, List.length_append, String.length_toList]
end Question

namespace Rulebook

/-- The label of a node is put together from the labels of its operands. -/
def LabelFits (book : Rulebook R ν) (label : String) : NodeKind R → Prop
  | .ask behavior question =>
    ∃ name, book.behaviors.idxOf? name = some behavior ∧ label = question.label name
  | .not operand => label = negationLabel (book.labelOf operand)
  | .binary op left right => label = op.label (book.labelOf left) (book.labelOf right)
  | .qualified question _ =>
    ∃ word text, label = QualifierWord.label word (book.labelOf question) text

/-- The invariant of the graph. -/
structure WellFormed (book : Rulebook R ν) : Prop where
  before : book.OperandsBefore
  /-- The index names the node of every label, and nothing else. -/
  index_iff : ∀ (label : String) (i : Nat), book.index.lookup label = some i ↔
    ∃ n, book.nodes[i]? = some n ∧ n.label = label
  labels : ∀ (i : Nat) (n : RuleNode R ν), book.nodes[i]? = some n →
    book.LabelFits n.label n.kind
  aliases_lt : ∀ (label : String) (i : Nat), book.aliases.lookup label = some i →
    i < book.nodes.length

/-- All nodes of the one rulebook are nodes of the other. -/
structure Extends (book book' : Rulebook R ν) : Prop where
  nodes : book.nodes <+: book'.nodes
  behaviors : book'.behaviors = book.behaviors

theorem Extends.refl (book : Rulebook R ν) : book.Extends book := ⟨List.prefix_refl _, rfl⟩

theorem Extends.trans {book₁ book₂ book₃ : Rulebook R ν} (first : book₁.Extends book₂)
    (second : book₂.Extends book₃) : book₁.Extends book₃ :=
  ⟨first.nodes.trans second.nodes, second.behaviors.trans first.behaviors⟩

variable {book book' : Rulebook R ν}

theorem Extends.length_le (extends' : book.Extends book') :
    book.nodes.length ≤ book'.nodes.length := extends'.nodes.length_le

theorem Extends.getElem? (extends' : book.Extends book') {i : Nat}
    (within : i < book.nodes.length) :
    book'.nodes[i]? = book.nodes[i]? := by
  obtain ⟨added, whole⟩ := extends'.nodes
  rw [← whole, List.getElem?_append_left within]

theorem Extends.labelOf (extends' : book.Extends book') {i : Nat}
    (within : i < book.nodes.length) : book'.labelOf i = book.labelOf i := by
  rw [Rulebook.labelOf, Rulebook.labelOf, extends'.getElem? within]

theorem labelOf_eq {i : Nat} {n : RuleNode R ν} (found : book.nodes[i]? = some n) :
    book.labelOf i = n.label := by
  simp [labelOf, found]

theorem WellFormed.index_labelOf (wf : book.WellFormed) {i : Nat}
    (within : i < book.nodes.length) : book.index.lookup (book.labelOf i) = some i :=
  (wf.index_iff _ _).2
    ⟨_, List.getElem?_eq_getElem within, (labelOf_eq (List.getElem?_eq_getElem within)).symm⟩

/-- No two nodes share a label. -/
theorem WellFormed.labelOf_inj (wf : book.WellFormed) {i j : Nat} (hi : i < book.nodes.length)
    (hj : j < book.nodes.length) (same : book.labelOf i = book.labelOf j) : i = j := by
  have index := wf.index_labelOf hi
  rw [same, wf.index_labelOf hj] at index
  exact (Option.some.inj index).symm

theorem WellFormed.node?_lt (wf : book.WellFormed) {label : String} {i : Nat}
    (named : book.node? label = some i) : i < book.nodes.length := by
  cases given : book.aliases.lookup label with
  | some j =>
    have same : j = i := by simpa [node?, given] using named
    exact wf.aliases_lt label i (same ▸ given)
  | none =>
    have indexed : book.index.lookup label = some i := by simpa [node?, given] using named
    obtain ⟨n, found, -⟩ := (wf.index_iff label i).1 indexed
    exact (List.getElem?_eq_some_iff.1 found).1

/-- A label is longer than those that it is put together from. -/
theorem LabelFits.operand_shorter {label : String} {kind : NodeKind R}
    (fits : book.LabelFits label kind) :
    ∀ o ∈ kind.operands, (book.labelOf o).length + 4 ≤ label.length := by
  intro o member
  cases kind with
  | ask behavior question => cases member
  | not operand =>
    obtain rfl := List.mem_singleton.1 member
    have prefixed : "not_".length = 4 := by decide +kernel
    rw [show label = _ from fits, negationLabel, String.length_append]
    omega
  | binary op left right =>
    have joint : 4 ≤ ("_" ++ op.keyword ++ "_").length := by cases op <;> decide +kernel
    have whole : label.length = (book.labelOf left).length +
        (("_" ++ op.keyword ++ "_").length + (book.labelOf right).length) := by
      rw [show label = _ from fits, BinaryOp.label]
      simp only [String.length_append]
      omega
    have either : o = left ∨ o = right := by simpa [NodeKind.operands] using member
    rcases either with rfl | rfl <;> omega
  | qualified question qualifier =>
    obtain ⟨word, text, same⟩ := fits
    obtain rfl := List.mem_singleton.1 member
    have joint : 4 ≤ ("_" ++ word.keyword ++ "_").length := by cases word <;> decide +kernel
    simp only [String.length_append] at joint
    rw [same, QualifierWord.label]
    simp only [String.length_append]
    omega

theorem LabelFits.extend (extends' : book.Extends book') {label : String} {kind : NodeKind R}
    (operands : ∀ o ∈ kind.operands, o < book.nodes.length) (fits : book.LabelFits label kind) :
    book'.LabelFits label kind := by
  cases kind with
  | ask behavior question =>
    obtain ⟨name, named, same⟩ := fits
    exact ⟨name, by rw [extends'.behaviors, named], same⟩
  | not operand =>
    have within := operands operand (by simp [NodeKind.operands])
    simpa only [LabelFits, extends'.labelOf within] using fits
  | binary op left right =>
    have left_lt := operands left (by simp [NodeKind.operands])
    have right_lt := operands right (by simp [NodeKind.operands])
    simpa only [LabelFits, extends'.labelOf left_lt, extends'.labelOf right_lt] using fits
  | qualified question qualifier =>
    have within := operands question (by simp [NodeKind.operands])
    simpa only [LabelFits, extends'.labelOf within] using fits

theorem wellFormed_empty (behaviors : List String) :
    (empty behaviors : Rulebook R ν).WellFormed where
  before := by intro i n found; simp [empty] at found
  index_iff := by simp [empty]
  labels := by intro i n found; simp [empty] at found
  aliases_lt := by simp [empty]

/-- The rulebook with one more node. -/
def push (book : Rulebook R ν) (label : String) (kind : NodeKind R) : Rulebook R ν :=
  { book with
    nodes := book.nodes ++ [{ label, kind }]
    index := (label, book.nodes.length) :: book.index }

theorem extends_push (book : Rulebook R ν) (label : String) (kind : NodeKind R) :
    book.Extends (book.push label kind) := ⟨List.prefix_append _ _, rfl⟩

/-- A node of the longer rulebook is one from before, or the new one. -/
theorem getElem?_push {label : String} {kind : NodeKind R} {i : Nat} {n : RuleNode R ν} :
    (book.push label kind).nodes[i]? = some n ↔
      book.nodes[i]? = some n ∨ i = book.nodes.length ∧ n = { label, kind } := by
  rw [Rulebook.push, List.getElem?_append]
  split
  · next within =>
    refine ⟨.inl, ?_⟩
    rintro (found | ⟨last, -⟩)
    · exact found
    · omega
  · next beyond =>
    have absent : book.nodes[i]? = none := List.getElem?_eq_none (by omega)
    rw [absent, List.getElem?_singleton]
    split
    · next zero =>
      have last : i = book.nodes.length := by omega
      simp [last, eq_comm]
    · next other =>
      have beyond' : i ≠ book.nodes.length := by omega
      simp [beyond']

theorem WellFormed.push (wf : book.WellFormed) {label : String} {kind : NodeKind R}
    (operands : ∀ o ∈ kind.operands, o < book.nodes.length) (fits : book.LabelFits label kind)
    (fresh : book.index.lookup label = none) : (book.push label kind).WellFormed where
  before := by
    intro i n found o member
    rcases getElem?_push.1 found with found | ⟨rfl, rfl⟩
    · exact wf.before i n found o member
    · exact operands o member
  index_iff := by
    intro l i
    have unused : ∀ (j : Nat) (n : RuleNode R ν), book.nodes[j]? = some n → n.label ≠ label := by
      intro j n found same
      have := (wf.index_iff label j).2 ⟨n, found, same⟩
      simp [fresh] at this
    simp only [getElem?_push]
    rw [Rulebook.push, List.lookup_cons]
    by_cases same : l = label
    · subst same
      simp only [beq_self_eq_true]
      constructor
      · intro added
        exact ⟨{ label := l, kind }, .inr ⟨(Option.some.inj added).symm, rfl⟩, rfl⟩
      · rintro ⟨n, found | ⟨rfl, -⟩, named⟩
        · exact absurd named (unused i n found)
        · rfl
    · have other : (l == label) = false := by simpa using same
      simp only [other, wf.index_iff l i]
      constructor
      · rintro ⟨n, found, named⟩
        exact ⟨n, .inl found, named⟩
      · rintro ⟨n, found | ⟨-, rfl⟩, named⟩
        · exact ⟨n, found, named⟩
        · exact absurd named.symm same
  labels := by
    intro i n found
    rcases getElem?_push.1 found with found | ⟨rfl, rfl⟩
    · exact (wf.labels i n found).extend (extends_push book label kind) fun o member =>
        Nat.lt_trans (wf.before i n found o member) (List.getElem?_eq_some_iff.1 found).1
    · exact fits.extend (extends_push book label kind) operands
  aliases_lt := by
    intro l i given
    have := wf.aliases_lt l i given
    simp only [Rulebook.push, List.length_append]
    omega

/-- What asking for the node of a label does, whether or not there is one. -/
theorem WellFormed.node (wf : book.WellFormed) (label : String) (kind : NodeKind R)
    (operands : ∀ o ∈ kind.operands, o < book.nodes.length) (fits : book.LabelFits label kind) :
    (book.node label kind).1.WellFormed ∧ book.Extends (book.node label kind).1 ∧
      (book.node label kind).2 < (book.node label kind).1.nodes.length ∧
      (book.node label kind).1.labelOf (book.node label kind).2 = label := by
  unfold Rulebook.node
  cases indexed : book.index.lookup label with
  | some i =>
    obtain ⟨n, found, named⟩ := (wf.index_iff label i).1 indexed
    exact ⟨wf, .refl book, (List.getElem?_eq_some_iff.1 found).1, (labelOf_eq found).trans named⟩
  | none =>
    refine ⟨wf.push operands fits indexed, extends_push book label kind, by simp, ?_⟩
    simp [labelOf]

/-- Asking for the node of a label leaves the nodes that are there as they are. -/
theorem extends_node (book : Rulebook R ν) (label : String) (kind : NodeKind R) :
    book.Extends (book.node label kind).1 := by
  unfold Rulebook.node
  cases book.index.lookup label with
  | some i => exact .refl book
  | none => exact extends_push book label kind

/-- A node that was not there before is of the kind that was asked for. -/
theorem added_by_node {label : String} {kind : NodeKind R} {i : Nat} {n : RuleNode R ν}
    (found : (book.node label kind).1.nodes[i]? = some n) (added : book.nodes.length ≤ i) :
    i = (book.node label kind).2 ∧ n.kind = kind ∧ n.lastResult = none := by
  unfold Rulebook.node at found ⊢
  cases indexed : book.index.lookup label with
  | some j =>
    simp only [indexed] at found
    have := (List.getElem?_eq_some_iff.1 found).1
    omega
  | none =>
    simp only [indexed, List.getElem?_append_right added, List.getElem?_singleton] at found ⊢
    split at found
    · cases found
      exact ⟨by omega, rfl, rfl⟩
    · cases found

end Rulebook

/-- Every name in the expression stands for something in the rulebook, and only questions are
qualified. -/
def RuleExpr.Scoped (book : Rulebook R ν) : RuleExpr R → Prop
  | ask behavior name _ => book.behaviors.idxOf? name = some behavior
  | ref rule => rule < book.nodes.length
  | not operand => operand.Scoped book
  | binary _ left right => left.Scoped book ∧ right.Scoped book
  | qualified operand _ _ _ => operand.Scoped book ∧ operand.isQuestion book.scope = true

/-- Reading resolves every name. -/
theorem RuleExpr.Reads.scoped [Scalar R] {book : Rulebook R ν} (wf : book.WellFormed)
    {words : List RuleToken} {expr : RuleExpr R} (reads : Reads book.scope words expr) :
    expr.Scoped book := by
  induction reads with
  | ask _ known => exact known
  | ref _ known => exact wf.node?_lt known
  | not _ _ _ ih => exact ih
  | qualified _ _ asks _ ih => exact ⟨ih, asks⟩
  | binary _ _ _ ihl ihr => exact ⟨ihl, ihr⟩

/-- Reading a rule comes to reading its words, apart from its label. -/
theorem Rule.read_eq_ok_iff [Scalar R] {scope : RuleScope} {statement : List Char} {rule : Rule R} :
    Rule.read scope statement = .ok rule ↔
      (splitLabel (RuleText.tokenize statement)).1 = rule.label ∧
      (splitLabel (RuleText.tokenize statement)).2 ≠ [] ∧
      areBalanced 0 (splitLabel (RuleText.tokenize statement)).2 = true ∧
      RuleExpr.read scope (splitLabel (RuleText.tokenize statement)).2 = .ok rule.expr := by
  obtain ⟨label, expr⟩ := rule
  rw [Rule.read]
  generalize splitLabel (RuleText.tokenize statement) = parts
  obtain ⟨given, words⟩ := parts
  by_cases empty : words = []
  · simp [empty]
  · by_cases balanced : areBalanced 0 words = true
    · cases outcome : RuleExpr.read (R := R) scope words with
      | error fault => simp [empty, balanced, outcome, Except.map]
      | ok expr' => simp [empty, balanced, outcome, Except.map]
    · simp [empty, balanced]

namespace Rulebook

variable {book book' : Rulebook R ν}

theorem Extends.isQuestion_eq (extends' : book.Extends book') {expr : RuleExpr R}
    (known : expr.Scoped book) :
    expr.isQuestion book'.scope = expr.isQuestion book.scope := by
  cases expr with
  | ref rule => simp only [RuleExpr.isQuestion, scope, extends'.getElem? known]
  | _ => rfl

theorem Extends.stays_scoped (extends' : book.Extends book') {expr : RuleExpr R}
    (known : expr.Scoped book) : expr.Scoped book' := by
  induction expr with
  | ask behavior name question =>
    simpa only [RuleExpr.Scoped, extends'.behaviors] using known
  | ref rule => exact Nat.lt_of_lt_of_le known extends'.length_le
  | not operand ih => exact ih known
  | binary op left right ihl ihr => exact ⟨ihl known.1, ihr known.2⟩
  | qualified operand word text qualifier ih =>
    exact ⟨ih known.1, (extends'.isQuestion_eq known.1).trans known.2⟩

theorem Extends.label_eq (extends' : book.Extends book') {expr : RuleExpr R}
    (known : expr.Scoped book) : expr.label book'.labelOf = expr.label book.labelOf := by
  induction expr with
  | ask behavior name question => rfl
  | ref rule => exact extends'.labelOf known
  | not operand ih => simp only [RuleExpr.label, ih known]
  | binary op left right ihl ihr => simp only [RuleExpr.label, ihl known.1, ihr known.2]
  | qualified operand word text qualifier ih => simp only [RuleExpr.label, ih known.1]

/-- What interning an expression guarantees. -/
structure Interned (book : Rulebook R ν) (expr : RuleExpr R) (r : Rulebook R ν × Nat) : Prop where
  wellFormed : r.1.WellFormed
  extends_book : book.Extends r.1
  within : r.2 < r.1.nodes.length
  /-- The node goes by the canonical label of the expression. -/
  label : r.1.labelOf r.2 = expr.label book.labelOf

theorem intern_spec {expr : RuleExpr R} {book : Rulebook R ν} (wf : book.WellFormed)
    (known : expr.Scoped book) : book.Interned expr (book.intern expr) := by
  induction expr generalizing book with
  | ask behavior name question =>
    obtain ⟨wf', ext, within, label⟩ := wf.node _ (.ask behavior question)
      (by simp [NodeKind.operands]) ⟨name, known, rfl⟩
    exact ⟨wf', ext, within, label⟩
  | ref rule => exact ⟨wf, .refl book, known, rfl⟩
  | not operand ih =>
    have inner := ih wf known
    obtain ⟨wf', ext, within, label⟩ := inner.wellFormed.node _
      (.not (book.intern operand).2)
      (by simpa [NodeKind.operands] using inner.within) rfl
    exact ⟨wf', inner.extends_book.trans ext, within,
      label.trans (by rw [inner.label, RuleExpr.label])⟩
  | binary op left right ihl ihr =>
    have first := ihl wf known.1
    have second := ihr first.wellFormed (first.extends_book.stays_scoped known.2)
    have left_lt : (book.intern left).2 < ((book.intern left).1.intern right).1.nodes.length :=
      Nat.lt_of_lt_of_le first.within second.extends_book.length_le
    obtain ⟨wf', ext, within, label⟩ := second.wellFormed.node _
      (.binary op (book.intern left).2 ((book.intern left).1.intern right).2)
      (by simpa [NodeKind.operands] using ⟨left_lt, second.within⟩) rfl
    refine ⟨wf', (first.extends_book.trans second.extends_book).trans ext, within, ?_⟩
    refine label.trans ?_
    rw [second.label, second.extends_book.labelOf first.within, first.label,
      first.extends_book.label_eq known.2, RuleExpr.label]
  | qualified operand word text qualifier ih =>
    have inner := ih wf known.1
    obtain ⟨wf', ext, within, label⟩ := inner.wellFormed.node _
      (.qualified (book.intern operand).2 qualifier)
      (by simpa [NodeKind.operands] using inner.within) ⟨word, text, rfl⟩
    exact ⟨wf', inner.extends_book.trans ext, within,
      label.trans (by rw [inner.label, RuleExpr.label])⟩

/-- What asking for a node does to a rulebook, interning an expression does, if it can be done any
number of times. -/
theorem intern_of_node {does : Rulebook R ν → Rulebook R ν → Prop} (refl : ∀ book, does book book)
    (trans : ∀ {book₁ book₂ book₃}, does book₁ book₂ → does book₂ book₃ → does book₁ book₃)
    (node : ∀ book label kind, does book (book.node label kind).1) (book : Rulebook R ν)
    (expr : RuleExpr R) : does book (book.intern expr).1 := by
  induction expr generalizing book with
  | ask behavior name question => exact node _ _ _
  | ref rule => exact refl book
  | not operand ih => exact trans (ih book) (node _ _ _)
  | binary op left right ihl ihr => exact trans (trans (ihl book) (ihr _)) (node _ _ _)
  | qualified operand word text qualifier ih => exact trans (ih book) (node _ _ _)

theorem extends_intern (book : Rulebook R ν) (expr : RuleExpr R) :
    book.Extends (book.intern expr).1 :=
  intern_of_node Extends.refl Extends.trans extends_node book expr

theorem WellFormed.alias (wf : book.WellFormed) {label : String} {i : Nat}
    (within : i < book.nodes.length) :
    Rulebook.WellFormed { book with aliases := (label, i) :: book.aliases } where
  before := wf.before
  index_iff := wf.index_iff
  labels := wf.labels
  aliases_lt := by
    intro l j given
    rw [List.lookup_cons] at given
    split at given
    · obtain rfl := Option.some.inj given
      exact within
    · exact wf.aliases_lt l j given

theorem register_nodes (book : Rulebook R ν) (rule : Rule R) :
    (book.register rule).1.nodes = (book.intern rule.expr).1.nodes := by
  unfold register
  cases rule.label with
  | none => rfl
  | some label =>
    simp only
    split <;> rfl

/-- Registering a rule interns its expression, and does nothing else to the graph. -/
theorem register_spec (wf : book.WellFormed) {rule : Rule R} (known : rule.expr.Scoped book) :
    (book.register rule).1.WellFormed ∧
      (book.intern rule.expr).1.Extends (book.register rule).1 ∧
      (book.register rule).1.nodes = (book.intern rule.expr).1.nodes := by
  have interned := intern_spec wf known
  unfold register
  cases rule.label with
  | none => exact ⟨interned.wellFormed, .refl _, rfl⟩
  | some label =>
    simp only
    split
    · exact ⟨interned.wellFormed, .refl _, rfl⟩
    · exact ⟨interned.wellFormed.alias interned.within, ⟨List.prefix_refl _, rfl⟩, rfl⟩

variable [Scalar R]

/-- A statement that is accepted is registered as it is read. -/
theorem addRule_eq_ok {statement label : String} {added : Rulebook R ν}
    (ok : book.addRule statement = (added, .ok label)) :
    ∃ rule, Rule.read book.scope statement.toList = .ok rule ∧
      added = (book.register rule).1 ∧ label = (book.register rule).2 := by
  unfold addRule at ok
  split at ok
  · cases ok
  · next rule read =>
    split at ok
    · cases ok
    · obtain ⟨rfl, same⟩ := Prod.mk.inj ok
      exact ⟨rule, read, rfl, (Except.ok.inj same).symm⟩

/-- All that can be wrong with a statement is found out before its first node is added. -/
theorem addRule_eq_error {statement : String} {left : Rulebook R ν} {error : RuleError}
    (rejected : book.addRule statement = (left, .error error)) : left = book := by
  unfold addRule at rejected
  split at rejected
  · exact (Prod.mk.inj rejected).1.symm
  · split at rejected
    · exact (Prod.mk.inj rejected).1.symm
    · cases (Prod.mk.inj rejected).2

theorem scoped_of_read (wf : book.WellFormed) {statement : List Char} {rule : Rule R}
    (read : Rule.read book.scope statement = .ok rule) : rule.expr.Scoped book :=
  (RuleExpr.reads_of_read (Rule.read_eq_ok_iff.1 read).2.2.2).scoped wf

end Rulebook

end TouchIntent
