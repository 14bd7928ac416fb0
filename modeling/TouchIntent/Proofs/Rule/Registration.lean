import TouchIntent.Proofs.Rule.Labels

/-!
# Registering rules

A rulebook only grows. A rule that is rejected leaves it as it is, since everything that can be
wrong with a rule is found out before its first node is added. A rule that is accepted adds nodes
behind those that are there, and names that name nothing yet: a label that is in use is accepted
only for the rule that it names already. So no node loses what evaluation has found out about it,
and a label that has come to name a node names it for good.
-/

namespace TouchIntent

variable {R ν : Type}

/-- The operation registers a rule. -/
def RuleOp.registersRule : RuleOp R ν → Bool
  | addRule _ | addRuleWithListener .. | setBehaviorListener .. => true
  | addListener .. | update _ | evaluate .. | reset => false

namespace Rulebook

/-- All that the one rulebook holds is in the other as well. Every node is in its place, with all
that is known about it and with its listeners, to which others may have been attached, and every
label names what it named. -/
structure Keeps (book book' : Rulebook R ν) : Prop where
  nodes : ∀ (i : Nat) (n : RuleNode R ν), book.nodes[i]? = some n →
    ∃ attached, book'.nodes[i]? = some { n with listeners := n.listeners ++ attached }
  names : ∀ (label : String) (i : Nat), book.node? label = some i → book'.node? label = some i
  behaviors : book'.behaviors = book.behaviors
  behaviorResults : book'.behaviorResults = book.behaviorResults

theorem Keeps.refl (book : Rulebook R ν) : book.Keeps book where
  nodes _ _ found := ⟨[], by rw [found, List.append_nil]⟩
  names _ _ named := named
  behaviors := rfl
  behaviorResults := rfl

theorem Keeps.trans {book₁ book₂ book₃ : Rulebook R ν} (first : book₁.Keeps book₂)
    (second : book₂.Keeps book₃) : book₁.Keeps book₃ where
  nodes i n found := by
    obtain ⟨attached, found⟩ := first.nodes i n found
    obtain ⟨others, found⟩ := second.nodes i _ found
    exact ⟨attached ++ others, by rw [found, List.append_assoc]⟩
  names label i named := second.names label i (first.names label i named)
  behaviors := second.behaviors.trans first.behaviors
  behaviorResults := second.behaviorResults.trans first.behaviorResults

variable {book : Rulebook R ν} {rule : Rule R}

/-! ## Names -/

/-- The index goes on naming the node of a label that has one. -/
theorem index_intern {label : String} {i : Nat} (indexed : book.index.lookup label = some i)
    (expr : RuleExpr R) : (book.intern expr).1.index.lookup label = some i := by
  refine @intern_of_node R ν
    (fun before after => before.index.lookup label = some i → after.index.lookup label = some i)
    (fun _ => id) (fun first second before => second (first before)) ?_ book expr indexed
  intro book canonical kind indexed
  unfold Rulebook.node
  cases found : book.index.lookup canonical with
  | some j => exact indexed
  | none =>
    -- The label of the new node is not the given one, which has a node.
    have other : (label == canonical) = false := by
      rw [beq_eq_false_iff_ne]
      rintro rfl
      rw [found] at indexed
      cases indexed
    simp only [List.lookup_cons, other, indexed]

theorem node?_intern {label : String} {i : Nat} (named : book.node? label = some i)
    (expr : RuleExpr R) : (book.intern expr).1.node? label = some i := by
  rw [node?, aliases_intern]
  rw [node?] at named
  cases given : book.aliases.lookup label with
  | some j => rwa [given] at named
  | none =>
    rw [given] at named
    exact index_intern named expr

/-- A label in use is accepted for a rule only if it names the node of the rule. -/
theorem eq_of_conflict? (wf : book.WellFormed) (known : rule.expr.Scoped book) {label : String}
    {i : Nat} (named : book.node? label = some i) (free : book.conflict? label rule.expr = none) :
    i = (book.intern rule.expr).2 := by
  have interned := intern_spec wf known
  have within := wf.node?_lt named
  have same : book.labelOf i = rule.expr.label book.labelOf := by
    rw [conflict?, named] at free
    simpa using free
  refine interned.wellFormed.labelOf_inj
    (Nat.lt_of_lt_of_le within interned.extends_book.length_le) interned.within ?_
  rw [interned.extends_book.labelOf within, interned.label, same]

/-- No label is taken away from the node that it names. -/
theorem node?_register (wf : book.WellFormed) (known : rule.expr.Scoped book)
    (free : ∀ label, rule.label = some label → book.conflict? label rule.expr = none)
    {label : String} {i : Nat} (named : book.node? label = some i) :
    (book.register rule).1.node? label = some i := by
  have still := node?_intern named rule.expr
  rcases register_cases wf known with ⟨-, same⟩ | ⟨given, labelled, -, -, same⟩
  · rwa [same]
  · rw [same, node?, List.lookup_cons]
    by_cases again : label = given
    · subst again
      obtain rfl := eq_of_conflict? wf known named (free label labelled)
      simp
    · have other : (label == given) = false := beq_eq_false_iff_ne.2 again
      rw [other]
      exact still

/-! ## One registration -/

theorem index_register (book : Rulebook R ν) (rule : Rule R) :
    (book.register rule).1.index = (book.intern rule.expr).1.index := by
  unfold Rulebook.register
  cases rule.label with
  | none => rfl
  | some label =>
    simp only
    split <;> rfl

/-- Registering a rule leaves alone what neither a new node nor a new name touches. -/
theorem register_of_node {α : Type} (part : Rulebook R ν → α)
    (node : ∀ book label kind, part (book.node label kind).1 = part book)
    (name : ∀ book aliases, part { book with aliases } = part book) (book : Rulebook R ν)
    (rule : Rule R) : part (book.register rule).1 = part book := by
  have interned : part (book.intern rule.expr).1 = part book :=
    @intern_of_node R ν (fun before after => part after = part before) (fun _ => rfl)
      (fun first second => second.trans first) node book rule.expr
  rw [← interned]
  unfold Rulebook.register
  cases rule.label with
  | none => rfl
  | some label =>
    simp only
    split
    · rfl
    · exact name _ _

theorem behaviorResults_register (book : Rulebook R ν) (rule : Rule R) :
    (book.register rule).1.behaviorResults = book.behaviorResults := by
  refine register_of_node (fun book => book.behaviorResults) (fun book label kind => ?_)
    (fun _ _ => rfl) book rule
  unfold Rulebook.node
  cases book.index.lookup label <;> rfl

theorem behaviorListeners_register (book : Rulebook R ν) (rule : Rule R) :
    (book.register rule).1.behaviorListeners = book.behaviorListeners := by
  refine register_of_node (fun book => book.behaviorListeners) (fun book label kind => ?_)
    (fun _ _ => rfl) book rule
  unfold Rulebook.node
  cases book.index.lookup label <;> rfl

theorem keeps_register (wf : book.WellFormed) (known : rule.expr.Scoped book)
    (free : ∀ label, rule.label = some label → book.conflict? label rule.expr = none) :
    book.Keeps (book.register rule).1 where
  nodes i n found := by
    have within := (List.getElem?_eq_some_iff.1 found).1
    refine ⟨[], ?_⟩
    rw [register_nodes, (extends_intern book rule.expr).getElem? within, found, List.append_nil]
  names _ _ := node?_register wf known free
  behaviors := (register_spec wf known).2.1.behaviors.trans
    (extends_intern book rule.expr).behaviors
  behaviorResults := behaviorResults_register book rule

/-- Attaching a listener to a rule leaves everything else as it is. -/
theorem keeps_addListener (book : Rulebook R ν) (label : String) (listener : ν) :
    book.Keeps ((book.addListener label listener).getD book) := by
  have graph := book.sameGraph_addListener label listener
  refine ⟨fun i n found => ?_, fun other i named => (graph.node? other).trans named,
    graph.behaviors, ?_⟩
  · rw [addListener]
    cases book.node? label with
    | none => exact ⟨[], by simp [found]⟩
    | some node =>
      by_cases chosen : node = i
      · exact ⟨[(label, listener)], by simp [modifyNode, found, chosen]⟩
      · exact ⟨[], by simp [modifyNode, found, chosen]⟩
  · rw [addListener]
    cases book.node? label <;> rfl

variable [Scalar R] {op : RuleOp R ν}

theorem keeps_withAdded (wf : book.WellFormed) (op : RuleOp R ν) :
    book.Keeps (book.withAdded op) := by
  rw [withAdded]
  cases added : book.addedRule? op with
  | none => exact .refl book
  | some rule =>
    refine keeps_register wf (scoped_of_addedRule? wf added) ?_
    obtain ⟨statement, _, _, outcome, read⟩ := exists_of_addedRule? added
    exact conflict?_of_addRule outcome read

/-- Registering a rule takes nothing away. -/
theorem keeps_perform (wf : book.WellFormed) (registers : op.registersRule = true) :
    book.Keeps (book.perform op).book := by
  have added := keeps_withAdded wf op
  cases op with
  | addRule statement => rwa [perform_addRule]
  | addRuleWithListener statement listener =>
    rw [withAdded_eq rfl] at added
    rcases outcome : book.addRule statement with ⟨left, error | label⟩
    · rw [perform_addRuleWithListener_of_rejected outcome]
      exact .refl book
    · rw [outcome] at added
      rw [perform_addRuleWithListener_of_ok outcome]
      exact added.trans (keeps_addListener _ _ _)
  | setBehaviorListener behavior listener =>
    obtain ⟨listeners, same⟩ := book.perform_setBehaviorListener behavior listener
    rw [same]
    exact ⟨added.nodes, added.names, added.behaviors, added.behaviorResults⟩
  | addListener _ _ | update _ | evaluate _ _ | reset => cases registers

/-- A label that names a node goes on naming it, whatever is done next. -/
theorem node?_perform (wf : book.WellFormed) (op : RuleOp R ν) {label : String} {i : Nat}
    (named : book.node? label = some i) : (book.perform op).book.node? label = some i := by
  rw [(book.sameGraph_perform op).node?]
  exact (keeps_withAdded wf op).names label i named

/-- In every run, a label that has come to name a node names it for good. -/
theorem node?_performAll (wf : book.WellFormed) (later : List (RuleOp R ν)) {label : String}
    {i : Nat} (named : book.node? label = some i) :
    (book.performAll later).node? label = some i := by
  induction later using List.reverseRecOn with
  | nil => exact named
  | append_singleton past op ih =>
    rw [performAll_concat]
    exact node?_perform (wellFormed_performAll wf past) op ih

/-! ## Rejections -/

/-- Why a rule is not registered, if it is not. -/
def rejection? (book : Rulebook R ν) : RuleOp R ν → Option RuleError
  | .addRule statement => reason (book.addRule statement).2
  | .addRuleWithListener statement listener =>
    reason (book.addRuleWithListener statement listener).2
  | .setBehaviorListener behavior listener => reason (book.setBehaviorListener behavior listener).2
  | .addListener .. | .update _ | .evaluate .. | .reset => none
where
  reason {α : Type} : Except RuleError α → Option RuleError
    | .error error => some error
    | .ok _ => none

theorem rejection?_reason {α : Type} {outcome : Except RuleError α} {error : RuleError} :
    rejection?.reason outcome = some error ↔ outcome = .error error := by
  cases outcome <;> simp [rejection?.reason]

theorem rejection?_reason_eq_none {α : Type} {outcome : Except RuleError α} :
    rejection?.reason outcome = none ↔ ∃ result, outcome = .ok result := by
  cases outcome <;> simp [rejection?.reason]

/-- A listener is attached only after its rule has been accepted, and that cannot fail. -/
theorem addRuleWithListener_snd (book : Rulebook R ν) (statement : String) (listener : ν) :
    (book.addRuleWithListener statement listener).2 = (book.addRule statement).2 := by
  rcases outcome : book.addRule statement with ⟨left, error | label⟩ <;>
    simp only [addRuleWithListener, outcome]

theorem setBehaviorListener_snd {behavior : Nat} {label : String}
    (known : book.behaviors[behavior]? = some label) (listener : ν) :
    (book.setBehaviorListener behavior listener).2 =
      (book.addRule (watchRule label)).2.map fun _ => () := by
  rcases outcome : book.addRule (watchRule label) with ⟨left, error | given⟩ <;>
    simp only [setBehaviorListener, known, outcome] <;> rfl

/-- What is rejected does nothing: the error comes before the first write. -/
theorem perform_of_rejection? {error : RuleError} (rejected : book.rejection? op = some error) :
    book.perform op = ⟨book, []⟩ := by
  have unchanged {statement : String} {e : RuleError}
      (refused : (book.addRule statement).2 = .error e) : (book.addRule statement).1 = book :=
    addRule_eq_error (Prod.ext rfl refused)
  cases op with
  | addRule statement =>
    have refused : (book.addRule statement).2 = .error error := rejection?_reason.1 rejected
    rw [perform, unchanged refused]
  | addRuleWithListener statement listener =>
    have refused : (book.addRuleWithListener statement listener).2 = .error error :=
      rejection?_reason.1 rejected
    rw [addRuleWithListener_snd] at refused
    have outcome : book.addRule statement = (book, .error error) :=
      Prod.ext (unchanged refused) refused
    simp only [perform, addRuleWithListener, outcome]
  | setBehaviorListener behavior listener =>
    have refused : (book.setBehaviorListener behavior listener).2 = .error error :=
      rejection?_reason.1 rejected
    cases known : book.behaviors[behavior]? with
    | none => simp only [perform, setBehaviorListener, known]
    | some label =>
      rw [setBehaviorListener_snd known] at refused
      obtain ⟨e, outcome⟩ : ∃ e, (book.addRule (watchRule label)).2 = .error e := by
        cases added : (book.addRule (watchRule label)).2 with
        | error e => exact ⟨e, rfl⟩
        | ok given =>
          rw [added] at refused
          cases refused
      have outcome : book.addRule (watchRule label) = (book, .error e) :=
        Prod.ext (unchanged outcome) outcome
      simp only [perform, setBehaviorListener, known, outcome]
  | addListener _ _ | update _ | evaluate _ _ | reset => cases rejected

/-- A registration is accepted if its statement is. -/
theorem rejection?_eq_none_iff (registers : op.registersRule = true) :
    book.rejection? op = none ↔
      ∃ statement, book.statement? op = some statement ∧
        ∃ label, (book.addRule statement).2 = .ok label := by
  have only {statement : String} (adds : book.statement? op = some statement) :
      (∃ label, (book.addRule statement).2 = .ok label) ↔
        ∃ other, book.statement? op = some other ∧
          ∃ label, (book.addRule other).2 = .ok label := by
    constructor
    · exact fun accepted => ⟨statement, adds, accepted⟩
    · rintro ⟨other, adds', accepted⟩
      obtain rfl := Option.some.inj (adds.symm.trans adds')
      exact accepted
  cases op with
  | addRule statement => exact rejection?_reason_eq_none.trans (only rfl)
  | addRuleWithListener statement listener =>
    rw [rejection?, addRuleWithListener_snd]
    exact rejection?_reason_eq_none.trans (only rfl)
  | setBehaviorListener behavior listener =>
    cases known : book.behaviors[behavior]? with
    | none => simp [rejection?, rejection?.reason, statement?, setBehaviorListener, known]
    | some label =>
      rw [← only (show book.statement? (.setBehaviorListener behavior listener) =
        some (watchRule label) by simp [statement?, known]), rejection?,
        setBehaviorListener_snd known, rejection?_reason_eq_none]
      cases (book.addRule (watchRule label)).2 <;> simp [Except.map]
  | addListener _ _ | update _ | evaluate _ _ | reset => cases registers

/-- A rule that is not rejected is read, and added. -/
theorem exists_addedRule? (registers : op.registersRule = true)
    (accepted : book.rejection? op = none) : ∃ rule, book.addedRule? op = some rule := by
  obtain ⟨statement, adds, label, ok⟩ := (rejection?_eq_none_iff registers).1 accepted
  obtain ⟨rule, read, -⟩ := addRule_eq_ok (Prod.ext rfl ok)
  refine ⟨rule, ?_⟩
  simp [addedRule?, adds, ok, read, Except.isOk, Except.toBool, Except.toOption]

/-- Registering a rule, with a listener or without, or the listener of a behaviour, is all or
nothing: what is rejected leaves the rulebook as it is, whatever the rulebook has been through; and
what is accepted keeps every node with all that is known about it, and every name, and has added a
node of the canonical label of the rule. -/
theorem registration_atomic (behaviors : List String) (past : List (RuleOp R ν))
    {op : RuleOp R ν} (registers : op.registersRule = true) :
    let book : Rulebook R ν := (empty behaviors).performAll past
    (∀ error, book.rejection? op = some error → book.perform op = ⟨book, []⟩) ∧
      (book.rejection? op = none → book.Keeps (book.perform op).book ∧
        ∃ rule i, book.addedRule? op = some rule ∧
          (book.perform op).book.index.lookup (rule.expr.label book.labelOf) = some i) := by
  intro book
  have wf : book.WellFormed := wellFormed_performAll (wellFormed_empty behaviors) past
  refine ⟨fun error => perform_of_rejection?, fun accepted => ⟨keeps_perform wf registers, ?_⟩⟩
  obtain ⟨rule, added⟩ := exists_addedRule? registers accepted
  have interned := intern_spec wf (scoped_of_addedRule? wf added)
  refine ⟨rule, (book.intern rule.expr).2, added, ?_⟩
  have index := interned.wellFormed.index_labelOf interned.within
  rw [interned.label] at index
  rw [(book.sameGraph_perform op).index, withAdded, added]
  exact (congrArg (List.lookup _) (index_register book rule)).trans index

/-- A rule under a label that is taken, and then one that refers to the rule of that label. -/
theorem registration_atomic_go :
    let past : List (RuleOp Float Unit) := [.addRuleWithListener "go: a is complete" (), .update []]
    let book : Rulebook Float Unit := (empty ["a", "b"]).performAll past
    let taken : RuleOp Float Unit := .addRule "go: b is complete"
    let fresh : RuleOp Float Unit := .addRuleWithListener "not go" ()
    (taken.registersRule = true ∧ (book.rejection? taken).isSome = true ∧
      book.perform taken = ⟨book, []⟩) ∧
    (fresh.registersRule = true ∧ (book.rejection? fresh).isNone = true ∧
      book.Keeps (book.perform fresh).book) := by
  intro past book taken fresh
  have rejected : (book.rejection? taken).isSome = true := by decide +kernel
  have accepted : (book.rejection? fresh).isNone = true := by decide +kernel
  obtain ⟨error, reason⟩ := Option.isSome_iff_exists.1 rejected
  exact ⟨⟨rfl, rejected, (registration_atomic ["a", "b"] past rfl).1 error reason⟩,
    ⟨rfl, accepted,
      ((registration_atomic ["a", "b"] past rfl).2 (Option.isNone_iff_eq_none.1 accepted)).1⟩⟩

end Rulebook

end TouchIntent
