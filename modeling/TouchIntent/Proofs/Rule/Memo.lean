import TouchIntent.Proofs.Rule.Founders

/-!
# Evaluation remembers

After a cycle every node has been evaluated, so whoever asks again is given the answer of the cycle,
and nothing changes. The main statement of this module is about every run of a rulebook: a cycle
evaluates every node exactly once, to what the recursion over the graph says, and evaluating after
it only reads. Of the graph it says that operands come first; that a qualifier is about a question
holds exactly as far as the labels of questions are not founded by anything else.
-/

namespace TouchIntent

variable {R ν : Type}

namespace RuleNode

/-- What a node remembers of completion checks after a cycle over the views. -/
def recalled [Scalar R] (n : RuleNode R ν) (views : List (BehaviorView R)) : Option CheckResult :=
  match n.kind with
  | .ask behavior _ => checkAfter views behavior n.lastResult
  | _ => n.lastResult

theorem conclude_recalled [Scalar R] (n : RuleNode R ν) (views : List (BehaviorView R))
    (holds : Bool) : (n.conclude views holds).lastResult = n.recalled views := by
  unfold conclude recalled
  split <;> simp_all [settle]

theorem conclude_checkCount [Scalar R] (n : RuleNode R ν) (views : List (BehaviorView R))
    (holds : Bool) : (n.conclude views holds).checkCount = n.checkCount + 1 := by
  unfold conclude
  split <;> rfl

end RuleNode

namespace Rulebook

/-- The node that a node puts a qualifier on. -/
def narrowed? (book : Rulebook R ν) (node : Nat) : Option Nat :=
  (book.nodes[node]?).bind fun n =>
    match n.kind with
    | .qualified question _ => some question
    | _ => none

/-- Only questions are qualified. -/
def QualifiesQuestions (book : Rulebook R ν) : Prop :=
  ∀ i o, book.narrowed? i = some o → (book.subject? o).isSome

/-- Where a qualified question founds a node, its operand goes by a label that a question founds. -/
def FoundsOnQuestions (book : Rulebook R ν) (entered : List (RuleExpr R)) : Prop :=
  ∀ operand word text qualifier,
    book.founder? entered (word.label (operand.label book.labelOf) text) =
      some (.qualified operand word text qualifier) →
    ∃ behavior name question,
      book.founder? entered (operand.label book.labelOf) = some (.ask behavior name question)

/-- A cycle has evaluated every node once: to what the recursion over the graph says, with every
question answered from what it remembered before the cycle. -/
structure EvaluatedOnce [Scalar R] (book : Rulebook R ν) (views : List (BehaviorView R))
    (after : Rulebook R ν) : Prop where
  length_eq : after.nodes.length = book.nodes.length
  node : ∀ (i : Nat) (n : RuleNode R ν), book.nodes[i]? = some n →
    ∃ n', after.nodes[i]? = some n' ∧ n'.label = n.label ∧ n'.kind = n.kind ∧
      n'.checkCount = n.checkCount + 1 ∧ n'.holds = book.verdictNow views i ∧
      n'.lastResult = n.recalled views

variable {book : Rulebook R ν} {entered : List (RuleExpr R)}

theorem node_of_narrowed? {i o : Nat} (narrows : book.narrowed? i = some o) :
    ∃ n qualifier, book.nodes[i]? = some n ∧ n.kind = .qualified o qualifier := by
  obtain ⟨n, found, kind⟩ := Option.bind_eq_some_iff.1 narrows
  split at kind
  · next question qualifier same =>
    obtain rfl := Option.some.inj kind
    exact ⟨n, qualifier, found, same⟩
  · cases kind

theorem subject?_isSome {i : Nat} {n : RuleNode R ν} (found : book.nodes[i]? = some n) :
    (book.subject? i).isSome ↔ n.kind.isQuestion = true := by
  rw [subject?, found]
  cases kind : n.kind <;> simp [kind, NodeKind.isQuestion]

/-- The operands of a node are there. -/
theorem exists_operand (before : book.OperandsBefore) {i o : Nat} {n : RuleNode R ν}
    (found : book.nodes[i]? = some n) (member : o ∈ n.kind.operands) :
    ∃ m, book.nodes[o]? = some m := by
  have earlier := before i n found o member
  have within := (List.getElem?_eq_some_iff.1 found).1
  exact ⟨_, List.getElem?_eq_getElem (Nat.lt_trans earlier within)⟩

/-- A node asks a question exactly if its founder is one. -/
theorem FoundedOn.asks_iff (founded : book.FoundedOn entered) {i : Nat} {n : RuleNode R ν}
    (found : book.nodes[i]? = some n) :
    (book.subject? i).isSome ↔
      ∃ behavior name question,
        book.founder? entered n.label = some (.ask behavior name question) := by
  obtain ⟨expr, first, computes⟩ := founded.founder i n found
  rw [subject?_isSome found, first]
  constructor
  · intro asks
    cases kind : n.kind with
    | ask behavior question =>
      rw [kind] at computes
      cases computes
      exact ⟨_, _, _, rfl⟩
    | not | binary | qualified =>
      rw [kind] at asks
      cases asks
  · rintro ⟨behavior, name, question, same⟩
    obtain rfl := Option.some.inj same
    cases kind : n.kind with
    | ask behavior question => rfl
    | not | binary | qualified =>
      rw [kind] at computes
      cases computes

/-- Only questions are qualified, exactly as far as the labels of the operands are founded by
questions. -/
theorem FoundedOn.qualifiesQuestions_iff (founded : book.FoundedOn entered)
    (wf : book.WellFormed) : book.QualifiesQuestions ↔ book.FoundsOnQuestions entered := by
  constructor
  · intro proper operand word text qualifier first
    obtain ⟨member, named⟩ := mem_of_founder? first
    obtain ⟨i, indexed⟩ := founded.indexed _ member
    obtain ⟨n, found, label⟩ := (wf.index_iff _ i).1 indexed
    obtain ⟨expr, first', computes⟩ := founded.founder i n found
    rw [label, named, first] at first'
    obtain rfl := Option.some.inj first'
    cases kind : n.kind with
    | qualified o qualifier' =>
      rw [kind] at computes
      cases computes with
      | qualified word text qualifier same =>
        have narrows : book.narrowed? i = some o := by simp [narrowed?, found, kind]
        obtain ⟨m, operand_found⟩ :=
          exists_operand wf.before found (o := o) (by simp [kind, NodeKind.operands])
        rw [← same, labelOf_eq operand_found]
        exact (founded.asks_iff operand_found).1 (proper i o narrows)
    | ask | not | binary =>
      rw [kind] at computes
      cases computes
  · intro questions i o narrows
    obtain ⟨n, qualifier, found, kind⟩ := node_of_narrowed? narrows
    obtain ⟨m, operand_found⟩ :=
      exists_operand wf.before found (o := o) (by simp [kind, NodeKind.operands])
    obtain ⟨expr, first, computes⟩ := founded.founder i n found
    rw [kind] at computes
    cases computes with
    | @qualified _ operand word text qualifier same =>
      have label : n.label = word.label (operand.label book.labelOf) text :=
        (mem_of_founder? first).2.symm
      have asked := questions operand word text qualifier (label ▸ first)
      rw [← same, labelOf_eq operand_found] at asked
      exact (founded.asks_iff operand_found).2 asked

end Rulebook

variable [Scalar R]

/-- A node that has been evaluated in this cycle is not evaluated again. -/
theorem Cycle.check_of_isChecked {views : List (BehaviorView R)} {c : Cycle R ν} {i : Nat}
    {n : RuleNode R ν} (found : c.book.nodes[i]? = some n) (checked : n.isChecked = true) :
    c.check views i = c := by
  rw [Cycle.check, found]
  simp [checked]

namespace Rulebook

variable {book : Rulebook R ν}

theorem evaluatedOnce_update (before : book.OperandsBefore) (views : List (BehaviorView R)) :
    book.EvaluatedOnce views (book.update views).book where
  length_eq := by rw [update_nodes before, List.length_mapIdx]
  node := by
    intro i n found
    refine ⟨n.conclude views (book.verdictNow views i), ?_, ?_⟩
    · rw [update_nodes before, List.getElem?_mapIdx, found]
      rfl
    · exact ⟨n.conclude_label .., n.conclude_kind .., n.conclude_checkCount ..,
        n.conclude_holds .., n.conclude_recalled ..⟩

/-- After a cycle, evaluating a rule reads the verdict of the cycle. -/
theorem evaluate_update (wf : book.WellFormed) (views : List (BehaviorView R)) (label : String)
    (now : List (BehaviorView R)) :
    (book.update views).book.evaluate label now =
      (book.node? label).map fun i =>
        (⟨(book.update views).book, []⟩, book.verdictNow views i) := by
  rw [evaluate, update_node?]
  cases named : book.node? label with
  | none => rfl
  | some i =>
    have within := wf.node?_lt named
    have found : (book.update views).book.nodes[i]? =
        some ((book.nodes[i]).conclude views (book.verdictNow views i)) := by
      rw [update_nodes wf.before, List.getElem?_mapIdx, List.getElem?_eq_getElem within]
      rfl
    have unchanged : Cycle.check now ⟨(book.update views).book, []⟩ i =
        ⟨(book.update views).book, []⟩ :=
      Cycle.check_of_isChecked found (by simp)
    simp [unchanged, Cycle.holds, found]

/-- However often rules are evaluated after a cycle, the rulebook stays as the cycle left it. -/
theorem performAll_evaluate (wf : book.WellFormed) (views : List (BehaviorView R))
    (calls : List (String × List (BehaviorView R))) :
    (book.update views).book.performAll (calls.map fun call => .evaluate call.1 call.2) =
      (book.update views).book := by
  induction calls with
  | nil => rfl
  | cons call rest ih =>
    have once : ((book.update views).book.perform (.evaluate call.1 call.2)).book =
        (book.update views).book := by
      rw [perform, evaluate_update wf]
      cases book.node? call.1 <;> rfl
    rw [List.map_cons, performAll, List.foldl_cons, once]
    exact ih

/-- In every run of a rulebook nodes refer to nodes before them, a cycle over any views evaluates
every node exactly once, to what the naive recursion over the graph says, and evaluating any rules
after it answers with these verdicts, changes nothing and calls no listener. Every qualifier is
about a question if and only if no operand of a qualified question goes by a label that something
else than a question has founded. -/
theorem memoized_evaluation_iff (behaviors : List String) (ops : List (RuleOp R ν)) :
    let book : Rulebook R ν := (empty behaviors).performAll ops
    let entered := (empty behaviors : Rulebook R ν).chronicle enteredBy ops
    book.OperandsBefore ∧
    (∀ views, book.EvaluatedOnce views (book.update views).book) ∧
    (∀ views (calls : List (String × List (BehaviorView R))) label now,
      let after := (book.update views).book
      let later := after.performAll (calls.map fun call => .evaluate call.1 call.2)
      later = after ∧ later.evaluate label now =
        (book.node? label).map fun i => (⟨after, []⟩, book.verdictNow views i)) ∧
    (book.QualifiesQuestions ↔ book.FoundsOnQuestions entered) := by
  intro book entered
  have wf : book.WellFormed := wellFormed_performAll (wellFormed_empty behaviors) ops
  have founded : book.FoundedOn entered := foundedOn_performAll behaviors ops
  refine ⟨wf.before, evaluatedOnce_update wf.before, ?_, founded.qualifiesQuestions_iff wf⟩
  intro views calls label now after later
  have same : later = after := performAll_evaluate wf views calls
  refine ⟨same, ?_⟩
  rw [same]
  exact evaluate_update wf views label now

/-- A behaviour whose name begins like a negation. The rule about it is qualified through the node
of the negation, which is no question, so the qualified rule never holds. -/
theorem negation_qualified :
    let book : Rulebook Float Unit := (empty ["a", "not_a"]).performAll
      [.addRule "not a is complete", .addRule "not_a is complete using 1 fingers"]
    book.node? "not_a_is_complete_using_1fingers" = some 2 ∧ book.narrowed? 2 = some 1 ∧
      book.subject? 1 = none ∧ ¬ book.QualifiesQuestions := by
  intro book
  have rule : book.node? "not_a_is_complete_using_1fingers" = some 2 := by decide +kernel
  have narrows : book.narrowed? 2 = some 1 := by decide +kernel
  have no_question : book.subject? 1 = none := by decide +kernel
  refine ⟨rule, narrows, no_question, ?_⟩
  intro proper
  have asks := proper 2 1 narrows
  rw [no_question] at asks
  cases asks

end Rulebook

end TouchIntent
