import TouchIntent.Proofs.Rule.Firings
import TouchIntent.Proofs.Rule.Labels
import TouchIntent.Proofs.Rule.Memo
import TouchIntent.Proofs.Rule.Registration
import TouchIntent.Proofs.Rule.Sharing

/-!
# Questions about one behaviour

Every question keeps the completion check that it made last, and so does the rulebook for every
behaviour. A cycle comes by the questions in the order in which they were added, and a behaviour may
be out of view; all the same the checks of one behaviour never part, as long as the rules have been
registered before the first cycle. `Recalls` says so of a rulebook, `Recalls.update` and
`Recalls.reset` carry it over. So the questions of one behaviour are answered from one result, and
what is just the case is the case.

A rule that asks a question stands for it unless its label was taken by something else before.
-/

namespace TouchIntent

variable {R ν : Type}

/-- What a host does with a rulebook when all rules have been registered. -/
inductive RuleTurn (R : Type) where
  | update (views : List (BehaviorView R))
  | reset

def RuleTurn.op : RuleTurn R → RuleOp R ν
  | update views => .update views
  | reset => .reset

/-- What is remembered of the completion checks for all behaviours after a turn. -/
def RuleTurn.memoryAfter (memory : Nat → Option CheckResult) :
    RuleTurn R → Nat → Option CheckResult
  | update views => fun behavior => checkAfter views behavior (memory behavior)
  | reset => fun _ => none

/-- What is just the case is the case. -/
theorem Question.answer_is_of_on {progress : Progress} {view : BehaviorView R}
    {previous : Option CheckResult} {r : CheckResult} (found : r ∈ view.ask previous)
    (on : (⟨.on, progress⟩ : Question).answer r = true) :
    (⟨.is, progress⟩ : Question).answer r = true := by
  obtain ⟨checked, -, rfl⟩ := Option.map_eq_some_iff.1 found
  cases progress with
  | complete =>
    simp only [answer] at on ⊢
    rw [on, Bool.or_true]
  | mostLikely =>
    simp only [answer, CheckResult.withRank, Bool.and_eq_true] at on ⊢
    exact on.1

/-! ## What a cycle notes for the behaviours -/

/-- The completion checks kept for the behaviours, after a node has been evaluated. -/
def RuleNode.note (views : List (BehaviorView R)) (results : List (Option CheckResult))
    (n : RuleNode R ν) : List (Option CheckResult) :=
  match n.kind with
  | .ask behavior _ =>
    if behavior < views.length then results.set behavior (checkAfter views behavior n.lastResult)
    else results
  | _ => results

namespace RuleNode

variable {views : List (BehaviorView R)} {results : List (Option CheckResult)} {n : RuleNode R ν}
  {behavior : Nat} {question : Question} {memory : Option CheckResult}

theorem note_of_ask (kind : n.kind = .ask behavior question) (recalls : n.lastResult = memory)
    (noted : results[behavior]? = some memory ∨
      results[behavior]? = some (checkAfter views behavior memory)) :
    (n.note views results)[behavior]? = some (checkAfter views behavior memory) := by
  simp only [note, kind, recalls]
  split
  · have within : behavior < results.length := by
      rcases noted with same | same <;> exact (List.getElem?_eq_some_iff.1 same).1
    rw [List.getElem?_set_self within]
  · next unseen =>
    have same : checkAfter views behavior memory = memory := by
      rw [checkAfter, List.getElem?_eq_none (Nat.le_of_not_lt unseen)]
    rw [same, or_self] at noted
    rw [noted, same]

theorem note_of_other (other : ∀ question, n.kind ≠ .ask behavior question) :
    (n.note views results)[behavior]? = results[behavior]? := by
  rw [note]
  split
  · next asked question kind =>
    have differ : asked ≠ behavior := fun same => other question (same ▸ kind)
    split
    · exact List.getElem?_set_ne differ
    · rfl
  · rfl

/-- Nodes that remember the same of a behaviour note one result for it, if any of them asks. -/
theorem foldl_note {nodes : List (RuleNode R ν)}
    (recalls : ∀ n ∈ nodes, ∀ question, n.kind = .ask behavior question → n.lastResult = memory)
    (start : results[behavior]? = some memory) :
    (nodes.foldl (fun results n => n.note views results) results)[behavior]? =
        some (checkAfter views behavior memory) ∨
      (nodes.foldl (fun results n => n.note views results) results)[behavior]? = some memory ∧
        ∀ n ∈ nodes, ∀ question, n.kind ≠ .ask behavior question := by
  induction nodes using List.reverseRecOn with
  | nil => exact .inr ⟨start, by simp⟩
  | append_singleton nodes n ih =>
    obtain ⟨earlier, last⟩ := List.forall_mem_append.1 recalls
    have noted := ih earlier
    rw [List.foldl_concat]
    by_cases asks : ∃ question, n.kind = .ask behavior question
    · obtain ⟨question, kind⟩ := asks
      refine .inl (note_of_ask kind (last n (List.mem_singleton.2 rfl) question kind) ?_)
      exact noted.symm.imp_left And.left
    · have other : ∀ question, n.kind ≠ .ask behavior question := fun question kind =>
        asks ⟨question, kind⟩
      rw [note_of_other other]
      refine noted.imp_right fun ⟨kept, others⟩ => ⟨kept, ?_⟩
      exact List.forall_mem_append.2 ⟨others, List.forall_mem_singleton.2 other⟩

end RuleNode

namespace Cycle

variable {book : Rulebook R ν} {views : List (BehaviorView R)} {c : Cycle R ν}

theorem ask_behaviorResults {i : Nat} {n : RuleNode R ν} {behavior : Nat} {question : Question}
    (kind : n.kind = .ask behavior question) :
    (c.ask views i n.lastResult behavior question).book.behaviorResults =
      n.note views c.book.behaviorResults := by
  simp only [ask, RuleNode.note, kind, checkAfter]
  by_cases seen : behavior < views.length
  · rw [List.getElem?_eq_getElem seen, if_pos seen]
    rfl
  · rw [List.getElem?_eq_none (Nat.le_of_not_lt seen), if_neg seen]
    rfl

variable [Scalar R]

/-- When a cycle comes to a node, the node notes its result. -/
theorem Reached.check_behaviorResults (before : book.OperandsBefore) {i : Nat} {n : RuleNode R ν}
    (found : book.nodes[i]? = some n) (reached : c.Reached book views (below i)) :
    (c.check views i).book.behaviorResults = n.note views c.book.behaviorResults := by
  have within := (List.getElem?_eq_some_iff.1 found).1
  have current : c.book.nodes[i]? = some { n with isChecked := false } := by
    rw [reached.getElem? i, found]
    simp [below]
  have operands := before i n found
  rw [Cycle.check, current]
  simp only [Bool.false_eq_true, if_false]
  cases kind : n.kind with
  | ask behavior question => exact ask_behaviorResults kind
  | not operand =>
    have earlier : operand < i := operands operand (by simp [kind, NodeKind.operands])
    simp only [earlier, if_true, reached.check_operand within earlier, RuleNode.note, kind]
    rfl
  | binary op left right =>
    have earlier₁ : left < i := operands left (by simp [kind, NodeKind.operands])
    have earlier₂ : right < i := operands right (by simp [kind, NodeKind.operands])
    simp only [earlier₁, earlier₂, if_true, reached.check_operand within earlier₁,
      reached.check_operand within earlier₂, RuleNode.note, kind]
    rfl
  | qualified question qualifier =>
    have earlier : question < i := operands question (by simp [kind, NodeKind.operands])
    simp only [earlier, if_true, reached.check_operand within earlier, RuleNode.note, kind]
    rfl

end Cycle

namespace Rulebook

variable [Scalar R]

/-- A cycle has the nodes note their results one after the other. -/
theorem update_behaviorResults {book : Rulebook R ν} (before : book.OperandsBefore)
    (views : List (BehaviorView R)) :
    (book.update views).book.behaviorResults =
      book.nodes.foldl (fun results n => n.note views results) book.behaviorResults := by
  have upTo (k : Nat) (within : k ≤ book.nodes.length) :
      ((List.range k).foldl (Cycle.check views) ⟨book.startCycle, []⟩).book.behaviorResults =
        (book.nodes.take k).foldl (fun results n => n.note views results)
          book.behaviorResults := by
    induction k with
    | zero => rfl
    | succ k ih =>
      have found := List.getElem?_eq_getElem (Nat.lt_of_succ_le within)
      have reached : ((List.range k).foldl (Cycle.check views) ⟨book.startCycle, []⟩).Reached
          book views (Cycle.below k) :=
        (Cycle.reached_foldl_range before (Nat.le_of_succ_le within)).1
      rw [List.range_succ, List.foldl_concat, reached.check_behaviorResults before found,
        ih (Nat.le_of_succ_le within), List.take_add_one, found, Option.toList_some,
        List.foldl_concat]
  rw [update, upTo book.nodes.length (Nat.le_refl _), List.take_length]

/-! ## One memory for each behaviour -/

/-- All questions about a behaviour remember the same completion check, and it is the one that the
rulebook keeps for the behaviour. -/
def Recalls (book : Rulebook R ν) (memory : Nat → Option CheckResult) : Prop :=
  ∀ (i : Nat) (n : RuleNode R ν), book.nodes[i]? = some n →
    ∀ behavior question, n.kind = .ask behavior question →
      n.lastResult = memory behavior ∧
        book.behaviorResults[behavior]? = some (memory behavior)

variable {book : Rulebook R ν} {memory : Nat → Option CheckResult}

theorem Recalls.update (recalls : book.Recalls memory) (before : book.OperandsBefore)
    (views : List (BehaviorView R)) :
    (book.update views).book.Recalls ((RuleTurn.update views).memoryAfter memory) := by
  intro i n' found' behavior question kind'
  rw [update_nodes before, List.getElem?_mapIdx] at found'
  obtain ⟨n, found, rfl⟩ := Option.map_eq_some_iff.1 found'
  have kind : n.kind = .ask behavior question := (n.conclude_kind ..).symm.trans kind'
  obtain ⟨last, noted⟩ := recalls i n found behavior question kind
  refine ⟨?_, ?_⟩
  · rw [n.conclude_lastResult views _ kind, last]
    rfl
  · rw [update_behaviorResults before]
    refine (RuleNode.foldl_note (fun m member question kind => ?_) noted).resolve_right ?_
    · obtain ⟨j, there⟩ := List.mem_iff_getElem?.1 member
      exact (recalls j m there behavior question kind).1
    · rintro ⟨-, others⟩
      exact others n (List.mem_of_getElem? found) question kind

omit [Scalar R] in
theorem Recalls.reset (recalls : book.Recalls memory) : book.reset.Recalls fun _ => none := by
  intro i n' found' behavior question kind'
  rw [Rulebook.reset, List.getElem?_map] at found'
  obtain ⟨n, found, rfl⟩ := Option.map_eq_some_iff.1 found'
  obtain ⟨-, noted⟩ := recalls i n found behavior question kind'
  refine ⟨rfl, ?_⟩
  rw [Rulebook.reset, List.getElem?_map, noted, Option.map_some]

/-- Turns leave the rules as they are. -/
theorem sameGraph_turns (book : Rulebook R ν) (turns : List (RuleTurn R)) :
    book.SameGraph (book.performAll (turns.map RuleTurn.op)) := by
  induction turns using List.reverseRecOn with
  | nil => exact .refl book
  | append_singleton past turn ih =>
    rw [List.map_append, List.map_singleton, performAll_concat]
    refine ih.trans (.of_renewed ?_)
    rw [renewed_perform]
    cases turn <;> rfl

theorem Recalls.performAll (recalls : book.Recalls memory) (wf : book.WellFormed)
    (turns : List (RuleTurn R)) :
    (book.performAll (turns.map RuleTurn.op)).Recalls
      (turns.foldl RuleTurn.memoryAfter memory) := by
  induction turns using List.reverseRecOn with
  | nil => exact recalls
  | append_singleton past turn ih =>
    have wf' := wellFormed_performAll wf (past.map RuleTurn.op)
    rw [List.map_append, List.foldl_concat]
    exact performAll_concat book _ turn.op ▸ match turn with
      | .update views => ih.update wf'.before views
      | .reset => ih.reset

/-- Registering rules and listeners takes nothing away. -/
theorem keeps_registered (wf : book.WellFormed) (ops : List (RuleOp R ν)) :
    book.Keeps (book.performAll (ops.filter RuleOp.registers)) := by
  induction ops using List.reverseRecOn with
  | nil => exact .refl book
  | append_singleton past op ih =>
    rw [List.filter_append]
    cases registers : op.registers with
    | false => simpa [registers] using ih
    | true =>
      have wf' : (book.performAll (past.filter RuleOp.registers)).WellFormed :=
        wellFormed_performAll wf _
      rw [List.filter_singleton, registers, cond_true, performAll_concat]
      refine ih.trans ?_
      cases op with
      | addListener label listener => exact keeps_addListener _ label listener
      | addRule _ | addRuleWithListener _ _ | setBehaviorListener _ _ => exact keeps_perform wf' rfl
      | update _ | evaluate _ _ | reset => cases registers

/-- A rulebook that rules and listeners have been registered with recalls nothing. -/
theorem recalls_registered (behaviors : List String) (ops : List (RuleOp R ν)) :
    ((empty behaviors : Rulebook R ν).performAll (ops.filter RuleOp.registers)).Recalls
      fun _ => none := by
  intro i n found behavior question kind
  have wf := wellFormed_performAll (wellFormed_empty (R := R) (ν := ν) behaviors)
    (ops.filter RuleOp.registers)
  have kept := keeps_registered (wellFormed_empty (R := R) (ν := ν) behaviors) ops
  refine ⟨?_, ?_⟩
  · rw [← renewed_performAll, renewed, List.getElem?_map] at found
    obtain ⟨m, -, rfl⟩ := Option.map_eq_some_iff.1 found
    rfl
  · have fits := wf.labels i n found
    rw [kind] at fits
    obtain ⟨name, index, -⟩ := fits
    rw [kept.behaviors] at index
    obtain ⟨within, -⟩ := List.idxOf?_eq_some_iff.1 index
    have known : behaviors[behavior]? = some behaviors[behavior] := List.getElem?_eq_getElem within
    rw [kept.behaviorResults, empty, List.getElem?_map, known, Option.map_some]

/-! ## Rules that ask a question -/

/-- The label of a question about a behaviour names a node that asks it. -/
def Stands (book : Rulebook R ν) (question : Question) (name : String) : Prop :=
  ∃ i n behavior, book.node? (question.label name) = some i ∧ book.nodes[i]? = some n ∧
    book.behaviors.idxOf? name = some behavior ∧ n.kind = .ask behavior question

omit [Scalar R] in
/-- A node that asks goes by the label of its question, and of no other. -/
theorem WellFormed.ask_of_label (wf : book.WellFormed) {i : Nat} {n : RuleNode R ν}
    (found : book.nodes[i]? = some n) (asks : (book.subject? i).isSome = true)
    {question : Question} {name : String} (label : n.label = question.label name) :
    ∃ behavior, book.behaviors.idxOf? name = some behavior ∧ n.kind = .ask behavior question := by
  obtain ⟨behavior, asked, kind⟩ := NodeKind.eq_ask (Bool.not_eq_false _ ▸
    (subject?_isSome found).1 asks)
  have fits := wf.labels i n found
  rw [kind] at fits
  obtain ⟨other, index, same⟩ := fits
  obtain ⟨rfl, rfl⟩ := Question.label_inj (label.symm.trans same)
  exact ⟨behavior, index, kind⟩

omit [Scalar R] in
theorem WellFormed.label_of_ask (wf : book.WellFormed) {i : Nat} {n : RuleNode R ν}
    (found : book.nodes[i]? = some n) {behavior : Nat} {question : Question}
    (kind : n.kind = .ask behavior question) {name : String}
    (index : book.behaviors.idxOf? name = some behavior) : n.label = question.label name := by
  have fits := wf.labels i n found
  rw [kind] at fits
  obtain ⟨other, index', label⟩ := fits
  obtain ⟨_, same, -⟩ := List.idxOf?_eq_some_iff.1 index
  obtain ⟨_, same', -⟩ := List.idxOf?_eq_some_iff.1 index'
  rw [label, ← same', same]

omit [Scalar R] in
/-- The label of a question stands for it, unless it was given to another rule, or another
expression of that label came first. -/
theorem stands_iff {given : List String} {entered : List (RuleExpr R)} (wf : book.WellFormed)
    (named : book.NamedBy given) (founded : book.FoundedOn entered) {question : Question}
    {name : String} :
    book.Stands question name ↔ question.label name ∉ given ∧
      ∃ behavior, book.founder? entered (question.label name) =
        some (.ask behavior name question) := by
  rw [← named.given_iff]
  constructor
  · rintro ⟨i, n, behavior, names, found, index, kind⟩
    have label := wf.label_of_ask found kind index
    have ungiven : book.aliases.lookup (question.label name) = none := by
      cases lookup : book.aliases.lookup (question.label name) with
      | none => rfl
      | some j =>
        rw [node?, lookup] at names
        obtain rfl := Option.some.inj names
        exact absurd ((labelOf_eq found).trans label) (named.renamed _ j lookup)
    refine ⟨ungiven, ?_⟩
    have asks : (book.subject? i).isSome = true := by
      rw [subject?_isSome found, kind]
      rfl
    obtain ⟨founding, other, asked, first⟩ := (founded.asks_iff found).1 asks
    rw [label] at first
    obtain ⟨rfl, rfl⟩ := Question.label_inj (mem_of_founder? first).2
    exact ⟨founding, first⟩
  · rintro ⟨ungiven, behavior, first⟩
    obtain ⟨member, -⟩ := mem_of_founder? first
    obtain ⟨i, indexed⟩ := founded.indexed _ member
    obtain ⟨n, found, label⟩ := (wf.index_iff _ i).1 indexed
    have label : n.label = question.label name := label
    have asks := (founded.asks_iff found).2 ⟨behavior, name, question, label ▸ first⟩
    obtain ⟨behavior, index, kind⟩ := wf.ask_of_label found asks label
    refine ⟨i, n, behavior, ?_, found, index, kind⟩
    rw [node?, ungiven]
    exact indexed

/-! ## The questions about one behaviour together -/

omit [Scalar R] in
theorem Recalls.behaviorResult?_eq (recalls : book.Recalls memory) {n : RuleNode R ν}
    (member : n ∈ book.nodes) {behavior : Nat} {question : Question}
    (kind : n.kind = .ask behavior question) :
    book.behaviorResult? behavior = memory behavior := by
  obtain ⟨i, found⟩ := List.mem_iff_getElem?.1 member
  rw [behaviorResult?, (recalls i n found behavior question kind).2, Option.join_some]

/-- After a cycle, a question remembers what the rulebook does of its behaviour, and holds if the
behaviour is in view and this is what was asked for. -/
theorem Recalls.update_question (recalls : book.Recalls memory) (before : book.OperandsBefore)
    {views : List (BehaviorView R)} {n : RuleNode R ν} (member : n ∈ (book.update views).book.nodes)
    {behavior : Nat} {question : Question} (kind : n.kind = .ask behavior question) :
    (book.update views).book.behaviorResult? behavior =
        checkAfter views behavior (memory behavior) ∧
      n.lastResult = (book.update views).book.behaviorResult? behavior ∧
      (n.holds = true ↔ behavior < views.length ∧
        ((book.update views).book.behaviorResult? behavior).any question.answer) := by
  have after := recalls.update before views
  obtain ⟨i, found⟩ := List.mem_iff_getElem?.1 member
  have result := after.behaviorResult?_eq member kind
  refine ⟨result, (after i n found behavior question kind).1.trans result.symm, ?_⟩
  rw [result]
  rw [update_nodes before, List.getElem?_mapIdx] at found
  obtain ⟨m, original, rfl⟩ := Option.map_eq_some_iff.1 found
  rw [m.conclude_kind] at kind
  have verdict : book.verdictNow views i = question.verdict views behavior (memory behavior) := by
    rw [← (recalls i m original behavior question kind).1]
    exact verdict_ask original kind
  rw [m.conclude_holds, verdict, Question.verdict]
  simp only [RuleTurn.memoryAfter, checkAfter]
  by_cases seen : behavior < views.length
  · rw [List.getElem?_eq_getElem seen, Option.any_some]
    simp only [seen, true_and]
  · rw [List.getElem?_eq_none (Nat.le_of_not_lt seen)]
    simp [seen]

/-- In a cycle, what is just the case is the case. -/
theorem Recalls.is_of_on (recalls : book.Recalls memory) (before : book.OperandsBefore)
    {views : List (BehaviorView R)} {on is : RuleNode R ν}
    (on_member : on ∈ (book.update views).book.nodes)
    (is_member : is ∈ (book.update views).book.nodes) {behavior : Nat} {progress : Progress}
    (on_kind : on.kind = .ask behavior ⟨.on, progress⟩)
    (is_kind : is.kind = .ask behavior ⟨.is, progress⟩) (holds : on.holds = true) :
    is.holds = true := by
  obtain ⟨result, -, on_holds⟩ := recalls.update_question before on_member on_kind
  obtain ⟨-, -, is_holds⟩ := recalls.update_question before is_member is_kind
  obtain ⟨seen, answered⟩ := on_holds.1 holds
  refine is_holds.2 ⟨seen, ?_⟩
  rw [result, checkAfter, List.getElem?_eq_getElem seen] at answered ⊢
  obtain ⟨r, found, yes⟩ := (Option.any_eq_true _ _).1 answered
  exact (Option.any_eq_true _ _).2 ⟨r, found, Question.answer_is_of_on found yes⟩

omit [Scalar R] in
theorem Stands.exists_node {book' : Rulebook R ν} {question : Question} {name : String}
    (stands : book.Stands question name) (same : book.SameGraph book') :
    ∃ n ∈ book'.nodes, ∃ behavior, book.behaviors.idxOf? name = some behavior ∧
      n.kind = .ask behavior question ∧
      book'.isSatisfied? (question.label name) = some n.holds := by
  obtain ⟨i, m, behavior, names, original, index, kind⟩ := stands
  have within : i < book'.nodes.length := by
    rw [same.length_eq]
    exact (List.getElem?_eq_some_iff.1 original).1
  have found := List.getElem?_eq_getElem within
  obtain ⟨m', original', -, kind'⟩ := same.getElem? found
  obtain rfl := Option.some.inj (original.symm.trans original')
  refine ⟨_, List.mem_of_getElem? found, behavior, index, kind'.symm.trans kind, ?_⟩
  rw [isSatisfied?, state?, same.node?, names, Option.bind_some, found, Option.map_some]

/-- When all rules are registered before the first cycle, all questions about a behaviour are
answered from the completion check that the rulebook keeps for it, and what is just the case is the
case. So it is for the rules `on` and `is` about a behaviour, where both labels stand for what they
ask: they must not have been given to other rules, nor may another expression of the same label have
come first. -/
theorem questions_agree (behaviors : List String) (ops : List (RuleOp R ν)) :
    let registered := ops.filter RuleOp.registers
    let book : Rulebook R ν := (empty behaviors).performAll registered
    let given := (empty behaviors : Rulebook R ν).chronicle nameGiven registered
    let entered := (empty behaviors : Rulebook R ν).chronicle enteredBy registered
    (∀ (turns : List (RuleTurn R)) (views : List (BehaviorView R)),
      let after := ((book.performAll (turns.map RuleTurn.op)).update views).book
      (∀ n ∈ after.nodes, ∀ behavior question, n.kind = .ask behavior question →
        n.lastResult = after.behaviorResult? behavior ∧
          (n.holds = true ↔ behavior < views.length ∧
            (after.behaviorResult? behavior).any question.answer)) ∧
      (∀ on ∈ after.nodes, ∀ is ∈ after.nodes, ∀ behavior progress,
        on.kind = .ask behavior ⟨.on, progress⟩ → is.kind = .ask behavior ⟨.is, progress⟩ →
          on.holds = true → is.holds = true) ∧
      (∀ name progress, book.Stands ⟨.on, progress⟩ name → book.Stands ⟨.is, progress⟩ name →
        after.isSatisfied? ((⟨.on, progress⟩ : Question).label name) = some true →
          after.isSatisfied? ((⟨.is, progress⟩ : Question).label name) = some true)) ∧
    ∀ question name, book.Stands question name ↔ question.label name ∉ given ∧
      ∃ behavior, book.founder? entered (question.label name) =
        some (.ask behavior name question) := by
  intro registered book given entered
  have wf : book.WellFormed := wellFormed_performAll (wellFormed_empty behaviors) registered
  have named : book.NamedBy given := namedBy_performAll behaviors registered
  have founded : book.FoundedOn entered := foundedOn_performAll behaviors registered
  refine ⟨fun turns views => ?_, fun question name => stands_iff wf named founded⟩
  have recalls := (recalls_registered behaviors ops).performAll wf turns
  have before := (wellFormed_performAll wf (turns.map RuleTurn.op)).before
  refine ⟨?_, ?_, ?_⟩
  · intro n member behavior question kind
    exact (recalls.update_question before member kind).2
  · intro on on_member is is_member behavior progress
    exact recalls.is_of_on before on_member is_member
  · intro name progress on_stands is_stands satisfied
    have same : book.SameGraph ((book.performAll (turns.map RuleTurn.op)).update views).book :=
      (book.sameGraph_turns turns).trans (sameGraph_turns _ [.update views])
    obtain ⟨on, on_member, behavior, index, on_kind, on_holds⟩ := on_stands.exists_node same
    obtain ⟨is, is_member, behavior', index', is_kind, is_holds⟩ := is_stands.exists_node same
    obtain rfl := Option.some.inj (index.symm.trans index')
    rw [on_holds, Option.some.injEq] at satisfied
    rw [is_holds, recalls.is_of_on before on_member is_member on_kind is_kind satisfied]

open Registry in
/-- Rules about a behaviour whose name begins like a negation. The label of its completion was taken
by the negation before, so the behaviour is just completed while the rule that it is complete does
not hold. -/
theorem on_without_is :
    let book : Rulebook Float Unit := (empty ["a", "not_a"]).performAll
      [.addRule "not a is complete", .addRule "not_a is complete", .addRule "not_a on complete"]
    let after := (book.update [doneView, doneView]).book
    after.isSatisfied? ((⟨.on, .complete⟩ : Question).label "not_a") = some true ∧
      after.isSatisfied? ((⟨.is, .complete⟩ : Question).label "not_a") = some false := by
  decide +kernel

end Rulebook

end TouchIntent
