import TouchIntent.Proofs.Rule.Run

/-!
# What a label names

A rule is registered under a label: the one that its text gives to it, or its canonical one.
Canonical labels and given ones are looked up in two tables, the given ones first. The main
statement of this module says for every rule that is added in a run whether the label that it is
registered under names it: a given label always does, for it is refused when it is taken; but a
canonical label does only if no other rule has been given it before.
-/

namespace TouchIntent

variable {R ν : Type}

namespace Rulebook

/-- The second names of a rulebook: the labels that were given to rules, each to a rule that has
another canonical label. -/
structure NamedBy (book : Rulebook R ν) (given : List String) : Prop where
  given_iff : ∀ label, book.aliases.lookup label = none ↔ label ∉ given
  renamed : ∀ label i, book.aliases.lookup label = some i → book.labelOf i ≠ label

/-- The label that a rule is given besides its canonical one. -/
def secondName (book : Rulebook R ν) (rule : Rule R) : Option String :=
  rule.label.filter (· ≠ rule.expr.label book.labelOf)

variable {book book' : Rulebook R ν} {given : List String}

theorem namedBy_empty (behaviors : List String) :
    (empty behaviors : Rulebook R ν).NamedBy [] where
  given_iff := by simp [empty]
  renamed := by simp [empty]

theorem SameGraph.namedBy (same : book.SameGraph book') (named : book.NamedBy given) :
    book'.NamedBy given where
  given_iff := by
    rw [same.aliases]
    exact named.given_iff
  renamed := by
    rw [same.aliases, same.labelOf]
    exact named.renamed

theorem aliases_node (book : Rulebook R ν) (label : String) (kind : NodeKind R) :
    (book.node label kind).1.aliases = book.aliases := by
  unfold Rulebook.node
  cases book.index.lookup label <;> rfl

/-- Interning gives no second names. -/
theorem aliases_intern (book : Rulebook R ν) (expr : RuleExpr R) :
    (book.intern expr).1.aliases = book.aliases :=
  @intern_of_node R ν (fun before after => after.aliases = before.aliases) (fun _ => rfl)
    (fun first second => second.trans first) aliases_node book expr

theorem NamedBy.intern (named : book.NamedBy given) (wf : book.WellFormed) (expr : RuleExpr R) :
    (book.intern expr).1.NamedBy given where
  given_iff := by
    rw [aliases_intern]
    exact named.given_iff
  renamed := by
    intro label i lookup
    rw [aliases_intern] at lookup
    rw [(extends_intern book expr).labelOf (wf.aliases_lt label i lookup)]
    exact named.renamed label i lookup

/-- One more second name. -/
theorem NamedBy.alias (named : book.NamedBy given) {label : String} {i : Nat}
    (other : label ≠ book.labelOf i) :
    { book with aliases := (label, i) :: book.aliases }.NamedBy (given ++ [label]) where
  given_iff := by
    intro l
    rw [List.lookup_cons]
    by_cases same : l = label
    · simp [same]
    · have differ : (l == label) = false := by simpa using same
      simpa [differ, same] using named.given_iff l
  renamed := by
    intro l j lookup
    rw [List.lookup_cons] at lookup
    by_cases same : l = label
    · subst same
      simp only [beq_self_eq_true, Option.some.injEq] at lookup
      exact lookup ▸ other.symm
    · have differ : (l == label) = false := by simpa using same
      rw [differ] at lookup
      exact named.renamed l j lookup

/-- The cases of registering a rule: it is given a second name, or none. -/
theorem register_cases (wf : book.WellFormed) {rule : Rule R} (known : rule.expr.Scoped book) :
    (book.secondName rule = none ∧
      book.register rule = ((book.intern rule.expr).1, rule.expr.label book.labelOf)) ∨
    ∃ label, rule.label = some label ∧ label ≠ rule.expr.label book.labelOf ∧
      book.secondName rule = some label ∧
      book.register rule = ({ (book.intern rule.expr).1 with
        aliases := (label, (book.intern rule.expr).2) :: (book.intern rule.expr).1.aliases },
        label) := by
  have canonical := (intern_spec wf known).label
  cases labelled : rule.label with
  | none =>
    left
    simp [secondName, Rulebook.register, labelled, canonical]
  | some label =>
    by_cases same : label = rule.expr.label book.labelOf
    · left
      simp [secondName, Rulebook.register, labelled, canonical, same]
    · right
      exact ⟨label, rfl, same, by simp [secondName, labelled, same],
        by simp [Rulebook.register, labelled, canonical, same]⟩

theorem NamedBy.register (named : book.NamedBy given) (wf : book.WellFormed) {rule : Rule R}
    (known : rule.expr.Scoped book) :
    (book.register rule).1.NamedBy (given ++ (book.secondName rule).toList) := by
  have interned := named.intern wf rule.expr
  rcases register_cases wf known with ⟨no_name, same⟩ | ⟨label, -, other, name, same⟩
  · rw [same, no_name]
    simpa using interned
  · rw [same, name]
    apply interned.alias
    rw [(intern_spec wf known).label]
    exact other

/-- The label that a rule is registered under names it, unless it is its canonical label and was
given to another rule before. -/
theorem NamedBy.node?_register_iff (named : book.NamedBy given) (wf : book.WellFormed)
    {rule : Rule R} (known : rule.expr.Scoped book)
    (free : ∀ label, rule.label = some label → book.conflict? label rule.expr = none) :
    (book.register rule).1.node? (book.register rule).2 = some (book.intern rule.expr).2 ↔
      (rule.label = none → (book.register rule).2 ∉ given) := by
  have interned := intern_spec wf known
  have names := named.intern wf rule.expr
  have indexed := interned.wellFormed.index_labelOf interned.within
  rw [interned.label] at indexed
  rcases register_cases wf known with ⟨no_name, same⟩ | ⟨label, labelled, -, -, same⟩
  · rw [same]
    simp only
    rw [node?, aliases_intern, indexed, ← named.given_iff]
    cases lookup : book.aliases.lookup (rule.expr.label book.labelOf) with
    | none => simp
    | some j =>
      -- The label stands for another rule, and so the text of this one has not asked for it.
      have taken : book.node? (rule.expr.label book.labelOf) = some j := by simp [node?, lookup]
      have other : book.labelOf j ≠ rule.expr.label book.labelOf := named.renamed _ _ lookup
      have differ : j ≠ (book.intern rule.expr).2 := by
        rintro rfl
        have within := wf.aliases_lt _ _ lookup
        rw [← interned.extends_book.labelOf within, interned.label] at other
        exact other rfl
      have unlabelled : rule.label = none := by
        cases labelled : rule.label with
        | none => rfl
        | some label =>
          have canonical : label = rule.expr.label book.labelOf := by
            simpa [secondName, labelled] using no_name
          have accepted := free label labelled
          rw [conflict?, canonical, taken] at accepted
          simp [other] at accepted
      simp [unlabelled, differ]
  · rw [same]
    simp [node?, labelled]

variable [Scalar R]

theorem conflict?_of_addRule {statement given : String} {added : Rulebook R ν}
    (ok : book.addRule statement = (added, .ok given)) {rule : Rule R}
    (read : Rule.read book.scope statement.toList = .ok rule) :
    ∀ label, rule.label = some label → book.conflict? label rule.expr = none := by
  intro label labelled
  rw [addRule, read] at ok
  simp only [labelled, Option.bind_some] at ok
  cases conflict : book.conflict? label rule.expr with
  | none => rfl
  | some fault =>
    rw [conflict] at ok
    cases ok

/-- The second name that an operation gives. -/
def nameGiven (book : Rulebook R ν) (op : RuleOp R ν) : List String :=
  ((book.addedRule? op).bind book.secondName).toList

/-- The second names after a run are those that were given in it. -/
theorem namedBy_performAll (behaviors : List String) (ops : List (RuleOp R ν)) :
    ((empty behaviors).performAll ops).NamedBy
      ((empty behaviors : Rulebook R ν).chronicle nameGiven ops) := by
  induction ops using List.reverseRecOn with
  | nil => exact namedBy_empty behaviors
  | append_singleton past op ih =>
    have wf : ((empty behaviors).performAll past).WellFormed :=
      wellFormed_performAll (wellFormed_empty behaviors) past
    rw [performAll_concat, chronicle_concat]
    apply (sameGraph_perform _ op).namedBy
    rw [withAdded, nameGiven]
    cases added : ((empty behaviors).performAll past).addedRule? op with
    | none => simpa using ih
    | some rule => exact ih.register wf (scoped_of_addedRule? wf added)

/-- A rule that is added after any run is registered under a label that names the node of the rule,
if and only if the label was given by the rule's own text or has not been given to another rule in
the run. Then all that is asked about the label is answered from this node, and a listener that is
added with the rule is attached to it. -/
theorem label_names_rule_iff (behaviors : List String) (past : List (RuleOp R ν))
    (statement : String) {added : Rulebook R ν} {label : String}
    (ok : ((empty behaviors).performAll past).addRule statement = (added, .ok label)) :
    let book : Rulebook R ν := (empty behaviors).performAll past
    ∃ rule, Rule.read book.scope statement.toList = .ok rule ∧
      let root := (book.intern rule.expr).2
      added.labelOf root = rule.expr.label book.labelOf ∧
      (added.node? label = some root ↔
        (rule.label = none → label ∉ (empty behaviors).chronicle nameGiven past)) ∧
      (added.node? label = some root →
        added.state? label = added.nodes[root]? ∧
        ∀ listener, book.addRuleWithListener statement listener =
          (added.modifyNode root fun n =>
            { n with listeners := n.listeners ++ [(label, listener)] }, .ok label)) := by
  intro book
  have wf : book.WellFormed := wellFormed_performAll (wellFormed_empty behaviors) past
  have named : book.NamedBy _ := namedBy_performAll behaviors past
  obtain ⟨rule, read, rfl, rfl⟩ := addRule_eq_ok ok
  have known := scoped_of_read wf read
  have interned := intern_spec wf known
  refine ⟨rule, read, ?_, ?_, ?_⟩
  · have registered := (register_spec wf known).2.1
    rw [registered.labelOf interned.within, interned.label]
  · exact named.node?_register_iff wf known (conflict?_of_addRule ok read)
  · intro names
    refine ⟨?_, ?_⟩
    · rw [state?, names, Option.bind_some]
    · intro listener
      simp [addRuleWithListener, book, ok, addListener, names]

/-- A rule without a label of its own, after one that has one. -/
theorem label_names_rule_iff_negation :
    let book : Rulebook Float Unit := (empty ["a", "b"]).performAll [.addRule "go: a is complete"]
    ∃ added label rule, book.addRule "not b is complete" = (added, .ok label) ∧
      Rule.read book.scope "not b is complete".toList = .ok rule ∧
      added.node? label = some (book.intern rule.expr).2 := by
  intro book
  have answer : (book.addRule "not b is complete").2.toOption = some "not_b_is_complete" := by
    decide +kernel
  have given : (empty ["a", "b"] : Rulebook Float Unit).chronicle nameGiven
      [.addRule "go: a is complete"] = ["go"] := by decide +kernel
  rcases ok : book.addRule "not b is complete" with ⟨added, error | label⟩
  · rw [ok] at answer
    cases answer
  · rw [ok] at answer
    have named : label = "not_b_is_complete" := Option.some.inj answer
    obtain ⟨rule, read, -, names, -⟩ :=
      label_names_rule_iff ["a", "b"] [.addRule "go: a is complete"] _ ok
    refine ⟨added, label, rule, rfl, read, names.2 fun _ => ?_⟩
    rw [given, named]
    decide

/-- The label of the first rule is the canonical label of the second one, which goes by this label
as well. The label names the first rule, and a listener added with the second one is attached to the
first. -/
theorem canonical_label_taken :
    let book : Rulebook Float Unit :=
      (empty ["a", "b"]).performAll [.addRule "b_is_complete: a is complete"]
    ((Rule.read (R := Float) book.scope "b is complete".toList).toOption.map fun rule =>
      (rule.label, (book.intern rule.expr).2)) = some (none, 1) ∧
    ((book.addRule "b is complete").2.toOption.map fun label =>
      (label, (book.addRule "b is complete").1.node? label)) = some ("b_is_complete", some 0) ∧
    ((book.addRuleWithListener "b is complete" ()).2.toOption.map fun _ =>
      (book.addRuleWithListener "b is complete" ()).1.nodes.map fun n => (n.label, n.listeners)) =
        some [("a_is_complete", [("b_is_complete", ())]), ("b_is_complete", [])] := by
  decide +kernel

end Rulebook

end TouchIntent
