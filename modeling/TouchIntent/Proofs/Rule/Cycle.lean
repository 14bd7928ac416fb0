import Mathlib.Data.List.Basic
import TouchIntent.Rule.Evaluation

/-!
# One cycle of the rules

What a cycle does to a rulebook, said without the order in which the nodes are visited. `verdict` is
the naive recursion over the graph, which asks every question anew at each of its occurrences; the
main statement of this module, `update_nodes`, says that a cycle leaves every node with the verdict
of that recursion, and changes nothing in a node that the evaluation of that node alone would not
change.
-/

namespace TouchIntent

variable {R ν : Type}

/-- The nodes that a node is computed from. -/
def NodeKind.operands : NodeKind R → List Nat
  | ask _ _ => []
  | not operand => [operand]
  | binary _ left right => [left, right]
  | qualified question _ => [question]

theorem NodeKind.eq_ask {kind : NodeKind R} (asks : ¬ kind.isQuestion = false) :
    ∃ behavior question, kind = .ask behavior question := by
  cases kind with
  | ask behavior question => exact ⟨behavior, question, rfl⟩
  | not | binary | qualified => exact absurd rfl asks

/-- The behaviour that a node asks about, if it is a question. -/
def Rulebook.subject? (book : Rulebook R ν) (node : Nat) : Option Nat :=
  (book.nodes[node]?).bind fun n =>
    match n.kind with
    | .ask behavior _ => some behavior
    | _ => none

theorem Rulebook.node_of_subject? {book : Rulebook R ν} {node behavior : Nat}
    (asks : book.subject? node = some behavior) :
    ∃ n question, book.nodes[node]? = some n ∧ n.kind = .ask behavior question := by
  obtain ⟨n, found, kind⟩ := Option.bind_eq_some_iff.1 asks
  split at kind
  · next b question same =>
    obtain rfl := Option.some.inj kind
    exact ⟨n, question, found, same⟩
  · cases kind

/-- Every node refers to nodes before it only. -/
def Rulebook.OperandsBefore (book : Rulebook R ν) : Prop :=
  ∀ (i : Nat) (n : RuleNode R ν), book.nodes[i]? = some n → ∀ o ∈ n.kind.operands, o < i

/-- The last completion check for a behaviour after a cycle over the given views, `previous` being
the one before. A behaviour that is not in view is not checked. -/
def checkAfter (views : List (BehaviorView R)) (behavior : Nat) (previous : Option CheckResult) :
    Option CheckResult :=
  match views[behavior]? with
  | none => previous
  | some view => view.ask previous

/-- The answer to a question about a behaviour, given the completion check before. -/
def Question.verdict (q : Question) (views : List (BehaviorView R)) (behavior : Nat)
    (previous : Option CheckResult) : Bool :=
  (views[behavior]?).any fun view => (view.ask previous).any q.answer

/-- The node after a cycle in which it was evaluated to `holds`. -/
def RuleNode.conclude (n : RuleNode R ν) (views : List (BehaviorView R)) (holds : Bool) :
    RuleNode R ν :=
  match n.kind with
  | .ask behavior _ =>
    { n with lastResult := checkAfter views behavior n.lastResult }.settle holds
  | _ => n.settle holds

namespace RuleNode

variable (n : RuleNode R ν) (views : List (BehaviorView R)) (holds : Bool)

@[simp] theorem conclude_holds : (n.conclude views holds).holds = holds := by
  unfold conclude
  split <;> rfl

@[simp] theorem conclude_isChecked : (n.conclude views holds).isChecked = true := by
  unfold conclude
  split <;> rfl

@[simp] theorem conclude_kind : (n.conclude views holds).kind = n.kind := by
  unfold conclude
  split <;> rfl

@[simp] theorem conclude_label : (n.conclude views holds).label = n.label := by
  unfold conclude
  split <;> rfl

theorem conclude_lastResult {behavior : Nat} {question : Question}
    (asks : n.kind = .ask behavior question) :
    (n.conclude views holds).lastResult = checkAfter views behavior n.lastResult := by
  simp only [conclude, asks]
  rfl

/-- A node that is no question remembers nothing. -/
theorem conclude_eq_settle (noQuestion : n.kind.isQuestion = false) :
    n.conclude views holds = { n with isChecked := false }.settle holds := by
  unfold conclude
  split
  · next asks => simp [asks, NodeKind.isQuestion] at noQuestion
  · rfl

end RuleNode

variable [Scalar R]

namespace Rulebook

/-- Whether a node holds, by recursion over the graph. `memory` says what is remembered of the last
completion check for the behaviour that a node asks about. -/
def verdict (book : Rulebook R ν) (memory : RuleNode R ν → Nat → Option CheckResult)
    (views : List (BehaviorView R)) (node : Nat) : Bool :=
  match book.nodes[node]? with
  | none => false
  | some n =>
    match n.kind with
    | .ask behavior question => question.verdict views behavior (memory n behavior)
    | .not operand => if operand < node then !verdict book memory views operand else false
    | .binary op left right =>
      if left < node ∧ right < node then
        op.apply (verdict book memory views left) (verdict book memory views right)
      else false
    | .qualified question qualifier =>
      if question < node then
        verdict book memory views question &&
          (book.subject? question).any fun behavior => (views[behavior]?).any qualifier.holds
      else false
  termination_by node

/-- What a node holds in a cycle: every question is answered from the node's own last check. -/
def verdictNow (book : Rulebook R ν) (views : List (BehaviorView R)) (node : Nat) : Bool :=
  book.verdict (fun n _ => n.lastResult) views node

section Equations

variable {book : Rulebook R ν} {memory : RuleNode R ν → Nat → Option CheckResult}
  {views : List (BehaviorView R)} {node : Nat} {n : RuleNode R ν}

/-- A question is answered from the views of its behaviour. -/
theorem verdict_ask (found : book.nodes[node]? = some n) {behavior : Nat} {question : Question}
    (kind : n.kind = .ask behavior question) :
    book.verdict memory views node = question.verdict views behavior (memory n behavior) := by
  rw [verdict, found]
  simp only [kind]

variable (before : book.OperandsBefore) (found : book.nodes[node]? = some n)
include before found

theorem verdict_not {operand : Nat} (kind : n.kind = .not operand) :
    book.verdict memory views node = !book.verdict memory views operand := by
  have earlier : operand < node := before node n found operand (by simp [kind, NodeKind.operands])
  rw [verdict, found]
  simp only [kind, earlier, if_true]

theorem verdict_binary {op : BinaryOp} {left right : Nat} (kind : n.kind = .binary op left right) :
    book.verdict memory views node =
      op.apply (book.verdict memory views left) (book.verdict memory views right) := by
  have left_lt : left < node := before node n found left (by simp [kind, NodeKind.operands])
  have right_lt : right < node := before node n found right (by simp [kind, NodeKind.operands])
  rw [verdict, found]
  simp only [kind, left_lt, right_lt, and_self, if_true]

theorem verdict_qualified {question : Nat} {qualifier : Qualifier R}
    (kind : n.kind = .qualified question qualifier) :
    book.verdict memory views node = (book.verdict memory views question &&
      (book.subject? question).any fun behavior => (views[behavior]?).any qualifier.holds) := by
  have earlier : question < node :=
    before node n found question (by simp [kind, NodeKind.operands])
  rw [verdict, found]
  simp only [kind, earlier, if_true]

end Equations

/-- Two rulebooks of one graph that answer their questions alike have the same verdicts. -/
theorem verdict_congr_of_answers {book book' : Rulebook R ν}
    {memory memory' : RuleNode R ν → Nat → Option CheckResult}
    {views views' : List (BehaviorView R)}
    (kinds : ∀ i : Nat, (book.nodes[i]?).map RuleNode.kind = (book'.nodes[i]?).map RuleNode.kind)
    (answers : ∀ (i : Nat) (n n' : RuleNode R ν), book.nodes[i]? = some n →
      book'.nodes[i]? = some n' → ∀ behavior question, n.kind = .ask behavior question →
        question.verdict views behavior (memory n behavior) =
          question.verdict views' behavior (memory' n' behavior))
    (qualified : ∀ (behavior : Nat) (qualifier : Qualifier R),
      (views[behavior]?).any qualifier.holds = (views'[behavior]?).any qualifier.holds)
    (node : Nat) : book.verdict memory views node = book'.verdict memory' views' node := by
  have subjects : ∀ i : Nat, book.subject? i = book'.subject? i := by
    intro i
    have same := kinds i
    unfold subject?
    cases h : book.nodes[i]? <;> cases h' : book'.nodes[i]? <;> simp_all
  induction node using Nat.strongRecOn with
  | ind node ih =>
    rw [verdict, verdict]
    have same := kinds node
    cases h : book.nodes[node]? with
    | none =>
      rw [h] at same
      rw [Option.map_eq_none_iff.1 same.symm]
    | some n =>
      rw [h] at same
      obtain ⟨n', h', kind⟩ := Option.map_eq_some_iff.1 same.symm
      rw [h']
      simp only [kind]
      cases hk : n.kind with
      | ask behavior question => exact answers node n n' h h' behavior question hk
      | not operand =>
        by_cases before : operand < node
        · simp only [before, if_true, ih operand before]
        · simp only [before, if_false]
      | binary op left right =>
        by_cases before : left < node ∧ right < node
        · simp only [before, and_self, if_true, ih left before.1, ih right before.2]
        · simp only [before, if_false]
      | qualified question qualifier =>
        by_cases before : question < node
        · simp only [before, if_true, ih question before, subjects question, qualified]
        · simp only [before, if_false]

/-- Two rulebooks of one graph that remember the same have the same verdicts. -/
theorem verdict_congr {book book' : Rulebook R ν}
    {memory memory' : RuleNode R ν → Nat → Option CheckResult} {views : List (BehaviorView R)}
    (kinds : ∀ i : Nat, (book.nodes[i]?).map RuleNode.kind = (book'.nodes[i]?).map RuleNode.kind)
    (recalls : ∀ (i : Nat) (n n' : RuleNode R ν), book.nodes[i]? = some n →
      book'.nodes[i]? = some n' → ∀ behavior question, n.kind = .ask behavior question →
        memory n behavior = memory' n' behavior)
    (node : Nat) : book.verdict memory views node = book'.verdict memory' views node := by
  refine verdict_congr_of_answers kinds ?_ (fun _ _ => rfl) node
  intro i n n' found found' behavior question kind
  rw [recalls i n n' found found' behavior question kind]

end Rulebook

namespace Cycle

/-- How far a cycle over `book` has come: the nodes in `done` have been evaluated, all others are as
they were. -/
def Reached (book : Rulebook R ν) (views : List (BehaviorView R)) (done : Nat → Bool)
    (c : Cycle R ν) : Prop :=
  c.book.nodes = book.nodes.mapIdx fun i n =>
    if done i then n.conclude views (book.verdictNow views i) else { n with isChecked := false }

variable {book : Rulebook R ν} {views : List (BehaviorView R)} {done : Nat → Bool} {c : Cycle R ν}

theorem Reached.getElem? (reached : c.Reached book views done) (i : Nat) :
    c.book.nodes[i]? = (book.nodes[i]?).map fun n =>
      if done i then n.conclude views (book.verdictNow views i)
      else { n with isChecked := false } := by
  rw [reached, List.getElem?_mapIdx]

theorem Reached.length_eq (reached : c.Reached book views done) :
    c.book.nodes.length = book.nodes.length := by
  rw [reached, List.length_mapIdx]

theorem Reached.holds_eq (reached : c.Reached book views done) {i : Nat}
    (within : i < book.nodes.length) (isDone : done i = true) :
    c.holds i = book.verdictNow views i := by
  simp [Cycle.holds, reached.getElem? i, List.getElem?_eq_getElem within, isDone]

theorem Reached.subject?_eq (reached : c.Reached book views done) (i : Nat) :
    c.book.subject? i = book.subject? i := by
  unfold Rulebook.subject?
  rw [reached.getElem? i]
  cases book.nodes[i]? with
  | none => rfl
  | some n => by_cases isDone : done i = true <;> simp [isDone]

theorem qualifies_eq (c : Cycle R ν) (views : List (BehaviorView R)) (question : Nat)
    (qualifier : Qualifier R) :
    c.qualifies views question qualifier =
      (c.book.subject? question).any fun behavior => (views[behavior]?).any qualifier.holds := by
  unfold qualifies Rulebook.subject?
  cases c.book.nodes[question]? with
  | none => rfl
  | some n => cases h : n.kind <;> simp [h]

omit [Scalar R] in
theorem settle_nodes {node : Nat} {n : RuleNode R ν} (found : c.book.nodes[node]? = some n)
    (holds : Bool) :
    (c.settle node holds).book.nodes = c.book.nodes.set node (n.settle holds) := by
  simp [settle, Rulebook.modifyNode, List.modify_eq_set_getElem?, found]

omit [Scalar R] in
theorem ask_nodes {node : Nat} {n : RuleNode R ν} (found : c.book.nodes[node]? = some n)
    (views : List (BehaviorView R)) (behavior : Nat) (question : Question) :
    (c.ask views node n.lastResult behavior question).book.nodes =
      c.book.nodes.set node
        ({ n with lastResult := checkAfter views behavior n.lastResult }.settle
          (question.verdict views behavior n.lastResult)) := by
  unfold ask checkAfter Question.verdict
  cases views[behavior]? with
  | none => exact settle_nodes found false
  | some view =>
    have within := (List.getElem?_eq_some_iff.1 found).1
    simp only
    rw [settle_nodes (n := { n with lastResult := view.ask n.lastResult })]
    · simp [Rulebook.modifyNode, List.modify_eq_set_getElem?, found]
    · simp [Rulebook.modifyNode, found]

/-- One node more: the rest of the cycle stays as it is. -/
theorem Reached.finish (reached : c.Reached book views done) {node : Nat} {n : RuleNode R ν}
    (found : book.nodes[node]? = some n) {c' : Cycle R ν}
    (changed : c'.book.nodes =
      c.book.nodes.set node (n.conclude views (book.verdictNow views node))) :
    c'.Reached book views fun i => done i || i == node := by
  unfold Reached
  rw [changed]
  apply List.ext_getElem?
  intro i
  rw [List.getElem?_set, reached.getElem? i, List.getElem?_mapIdx]
  by_cases same : node = i
  · subst same
    have within : node < c.book.nodes.length := by
      rw [reached.length_eq]
      exact (List.getElem?_eq_some_iff.1 found).1
    simp only [if_true, within, found, Option.map_some, beq_self_eq_true, Bool.or_true]
  · have other : (i == node) = false := by simpa using Ne.symm same
    simp [same, other]

/-- A node that is no question is evaluated by settling it. -/
theorem Reached.settle (reached : c.Reached book views done) {node : Nat} {n : RuleNode R ν}
    (found : book.nodes[node]? = some n) (undone : done node = false)
    (noQuestion : n.kind.isQuestion = false) {holds : Bool}
    (value : book.verdictNow views node = holds) :
    (c.settle node holds).Reached book views fun i => done i || i == node := by
  apply reached.finish found
  rw [n.conclude_eq_settle views _ noQuestion, value]
  apply settle_nodes
  simp [reached.getElem? node, found, undone]

/-- The nodes evaluated meanwhile lie below a bound. -/
structure Advance (done done' : Nat → Bool) (bound : Nat) : Prop where
  keeps : ∀ i, done i = true → done' i = true
  below : ∀ i, done' i = true → done i = true ∨ i < bound

theorem Advance.refl (done : Nat → Bool) (bound : Nat) : Advance done done bound :=
  ⟨fun _ h => h, fun _ h => .inl h⟩

theorem Advance.trans {done₁ done₂ : Nat → Bool} {b b₁ b₂ : Nat} (first : Advance done done₁ b₁)
    (second : Advance done₁ done₂ b₂) (h₁ : b₁ ≤ b) (h₂ : b₂ ≤ b) : Advance done done₂ b := by
  refine ⟨fun i h => second.keeps i (first.keeps i h), fun i h => ?_⟩
  rcases second.below i h with h | h
  · rcases first.below i h with h | h
    · exact .inl h
    · exact .inr (by omega)
  · exact .inr (by omega)

theorem Advance.undone {done' : Nat → Bool} {node : Nat} (advance : Advance done done' node)
    (undone : done node = false) : done' node = false := by
  cases visited : done' node with
  | false => rfl
  | true =>
    rcases advance.below node visited with h | h
    · simp [undone] at h
    · omega

theorem Advance.insert {done' : Nat → Bool} {node : Nat} (advance : Advance done done' node) :
    Advance done (fun i => done' i || i == node) (node + 1) := by
  refine ⟨fun i h => by simp [advance.keeps i h], fun i h => ?_⟩
  simp only [Bool.or_eq_true, beq_iff_eq] at h
  rcases h with h | h
  · rcases advance.below i h with h | h
    · exact .inl h
    · exact .inr (by omega)
  · exact .inr (by omega)

/-- Checking a node evaluates it, and nothing but nodes before it. -/
theorem Reached.check (before : book.OperandsBefore) (node : Nat) :
    ∀ {done : Nat → Bool} {c : Cycle R ν}, c.Reached book views done →
      ∃ done' : Nat → Bool, (c.check views node).Reached book views done' ∧
        Advance done done' (node + 1) ∧ (node < book.nodes.length → done' node = true) := by
  induction node using Nat.strongRecOn with
  | ind node ih =>
    intro done c reached
    have current := reached.getElem? node
    rw [Cycle.check]
    cases found : book.nodes[node]? with
    | none =>
      rw [found] at current
      refine ⟨done, ?_, .refl _ _, fun within => ?_⟩
      · simpa [current] using reached
      · simp at found
        omega
    | some n =>
      rw [found] at current
      cases undone : done node with
      | true =>
        refine ⟨done, ?_, .refl _ _, fun _ => undone⟩
        simpa [current, undone] using reached
      | false =>
        simp only [undone, Option.map_some, Bool.false_eq_true, if_false] at current
        simp only [current, Bool.false_eq_true, if_false]
        have operands := before node n found
        have within : node < book.nodes.length := (List.getElem?_eq_some_iff.1 found).1
        -- An operand is evaluated first; it lies before the node, which stays untouched.
        have visit : ∀ {o : Nat} {done : Nat → Bool} {c : Cycle R ν}, o < node →
            c.Reached book views done → ∃ done' : Nat → Bool,
              (c.check views o).Reached book views done' ∧ Advance done done' node ∧
              done' o = true := by
          intro o done c earlier reached
          obtain ⟨done', reached', advance, visited⟩ := ih o earlier reached
          exact ⟨done', reached', advance.trans (.refl _ node) (by omega) (by omega),
            visited (by omega)⟩
        cases kind : n.kind with
        | ask behavior question =>
          have value : book.verdictNow views node = _ := Rulebook.verdict_ask found kind
          refine ⟨_, reached.finish found ?_, (Advance.refl done node).insert, by simp⟩
          rw [value]
          simpa [RuleNode.conclude, kind, RuleNode.settle] using
            ask_nodes current views behavior question
        | not operand =>
          have earlier : operand < node := operands operand (by simp [kind, NodeKind.operands])
          obtain ⟨done₁, reached₁, advance, visited⟩ := visit earlier reached
          have value : book.verdictNow views node = !book.verdictNow views operand :=
            Rulebook.verdict_not before found kind
          simp only [earlier, if_true, reached₁.holds_eq (Nat.lt_trans earlier within) visited]
          exact ⟨_, reached₁.settle found (advance.undone undone) (by simp [kind]; rfl) value,
            advance.insert, by simp⟩
        | binary op left right =>
          have earlier₁ : left < node := operands left (by simp [kind, NodeKind.operands])
          have earlier₂ : right < node := operands right (by simp [kind, NodeKind.operands])
          obtain ⟨done₁, reached₁, advance₁, visited₁⟩ := visit earlier₁ reached
          obtain ⟨done₂, reached₂, advance₂, visited₂⟩ := visit earlier₂ reached₁
          have value : book.verdictNow views node =
              op.apply (book.verdictNow views left) (book.verdictNow views right) :=
            Rulebook.verdict_binary before found kind
          have leftHolds := reached₂.holds_eq (Nat.lt_trans earlier₁ within)
            (advance₂.keeps left visited₁)
          have rightHolds := reached₂.holds_eq (Nat.lt_trans earlier₂ within) visited₂
          have advance := advance₁.trans advance₂ (Nat.le_refl _) (Nat.le_refl _)
          simp only [earlier₁, earlier₂, if_true, leftHolds, rightHolds]
          exact ⟨_, reached₂.settle found (advance.undone undone) (by simp [kind]; rfl) value,
            advance.insert, by simp⟩
        | qualified question qualifier =>
          have earlier : question < node := operands question (by simp [kind, NodeKind.operands])
          obtain ⟨done₁, reached₁, advance, visited⟩ := visit earlier reached
          have value : book.verdictNow views node = (book.verdictNow views question &&
              (book.subject? question).any fun behavior =>
                (views[behavior]?).any qualifier.holds) :=
            Rulebook.verdict_qualified before found kind
          simp only [earlier, if_true, reached₁.holds_eq (Nat.lt_trans earlier within) visited,
            qualifies_eq, reached₁.subject?_eq]
          exact ⟨_, reached₁.settle found (advance.undone undone) (by simp [kind]; rfl) value,
            advance.insert, by simp⟩

/-- Checking nodes one after the other evaluates all of them. -/
theorem Reached.foldl_check (before : book.OperandsBefore) (nodes : List Nat) :
    ∀ {done : Nat → Bool} {c : Cycle R ν}, c.Reached book views done →
      ∃ done' : Nat → Bool, (nodes.foldl (Cycle.check views) c).Reached book views done' ∧
        (∀ i, done i = true → done' i = true) ∧
        ∀ i ∈ nodes, i < book.nodes.length → done' i = true := by
  induction nodes with
  | nil => exact fun reached => ⟨_, reached, fun _ h => h, by simp⟩
  | cons node rest ih =>
    intro done c reached
    obtain ⟨done₁, reached₁, advance, visited⟩ := reached.check before node
    obtain ⟨done₂, reached₂, keeps, all⟩ := ih reached₁
    refine ⟨done₂, reached₂, fun i h => keeps i (advance.keeps i h), ?_⟩
    intro i member within
    rcases List.mem_cons.1 member with same | member
    · subst same
      exact keeps i (visited within)
    · exact all i member within

end Cycle

/-- A cycle leaves every node with the verdict of the naive recursion over the graph. -/
theorem Rulebook.update_nodes {book : Rulebook R ν} (before : book.OperandsBefore)
    (views : List (BehaviorView R)) :
    (book.update views).book.nodes =
      book.nodes.mapIdx fun i n => n.conclude views (book.verdictNow views i) := by
  have start : Cycle.Reached book views (fun _ => false) ⟨book.startCycle, []⟩ := by
    apply List.ext_getElem?
    intro i
    simp [startCycle]
  obtain ⟨done, reached, -, all⟩ := start.foldl_check before (List.range book.nodes.length)
  apply List.ext_getElem?
  intro i
  rw [update, reached.getElem? i, List.getElem?_mapIdx]
  cases found : book.nodes[i]? with
  | none => rfl
  | some n =>
    have within : i < book.nodes.length := (List.getElem?_eq_some_iff.1 found).1
    simp [all i (List.mem_range.2 within) within]

/-- Evaluating a node does not touch the names of rules. -/
theorem Cycle.check_node? (views : List (BehaviorView R)) (label : String) (node : Nat) :
    ∀ c : Cycle R ν, (c.check views node).book.node? label = c.book.node? label := by
  induction node using Nat.strongRecOn with
  | ind node ih =>
    intro c
    have settles (c : Cycle R ν) (holds : Bool) :
        (c.settle node holds).book.node? label = c.book.node? label := rfl
    have visit (o : Nat) (c : Cycle R ν) :
        (if o < node then c.check views o else c).book.node? label = c.book.node? label := by
      split
      · next earlier => exact ih o earlier c
      · rfl
    rw [Cycle.check]
    split
    · rfl
    · next n found =>
      split
      · rfl
      · cases n.kind with
        | ask behavior question =>
          simp only [Cycle.ask]
          split
          · rfl
          · rfl
        | not operand => exact (settles _ _).trans (visit operand c)
        | binary op left right =>
          exact (settles _ _).trans ((visit right _).trans (visit left c))
        | qualified question qualifier => exact (settles _ _).trans (visit question c)

/-- A cycle does not touch the names of rules. -/
theorem Rulebook.update_node? (book : Rulebook R ν) (views : List (BehaviorView R))
    (label : String) : (book.update views).book.node? label = book.node? label := by
  have kept (nodes : List Nat) (c : Cycle R ν) :
      (nodes.foldl (Cycle.check views) c).book.node? label = c.book.node? label := by
    induction nodes generalizing c with
    | nil => rfl
    | cons node rest ih =>
      rw [List.foldl_cons, ih, Cycle.check_node?]
  exact kept _ _

end TouchIntent
