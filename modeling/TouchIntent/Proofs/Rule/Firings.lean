import Mathlib.Data.List.Basic
import TouchIntent.Proofs.Rule.Memo
import TouchIntent.Proofs.Rule.Renewal
import TouchIntent.Proofs.Rule.Checks

/-!
# What a cycle calls

A cycle visits the nodes in the order in which they were added, and operands come before the nodes
that refer to them. So a node finds its operands evaluated, and the listeners are called node by
node: the one of the behaviour that the node asks about, if it asks, then those of the node itself.
-/

namespace TouchIntent

variable {R ν : Type}

namespace Rulebook

/-- The call of the listener of the behaviour that a node asks about, if the behaviour is in
view. -/
def behaviorCalls (book : Rulebook R ν) (views : List (BehaviorView R)) (n : RuleNode R ν) :
    List (Firing ν) :=
  match n.kind with
  | .ask behavior _ =>
    match views[behavior]?, (book.behaviorListeners[behavior]?).join with
    | some view, some listener => [.behavior listener view.label (view.ask n.lastResult)]
    | _, _ => []
  | _ => []

/-- Only a question is about a behaviour. -/
theorem behaviorCalls_eq_nil {book : Rulebook R ν} {n : RuleNode R ν}
    (noQuestion : n.kind.isQuestion = false) (views : List (BehaviorView R)) :
    book.behaviorCalls views n = [] := by
  unfold behaviorCalls
  split
  · next asks => simp [asks, NodeKind.isQuestion] at noQuestion
  · rfl

end Rulebook

namespace Cycle

/-- A question calls the listener of its behaviour before those of its node. -/
theorem ask_firings {c : Cycle R ν} {i behavior : Nat} {question : Question} {n : RuleNode R ν}
    (found : c.book.nodes[i]? = some n) (asks : n.kind = .ask behavior question)
    (views : List (BehaviorView R)) :
    (c.ask views i n.lastResult behavior question).firings =
      c.firings ++ (c.book.behaviorCalls views n ++
        (n.conclude views (question.verdict views behavior n.lastResult)).calls) := by
  unfold ask Rulebook.behaviorCalls RuleNode.conclude Question.verdict checkAfter
  simp only [asks]
  cases views[behavior]? with
  | none =>
    rw [settle_firings found]
    rfl
  | some view =>
    simp only
    rw [settle_firings (n := { n with lastResult := view.ask n.lastResult })
      (by simp [Rulebook.modifyNode, found]), List.append_assoc]
    cases (c.book.behaviorListeners[behavior]?).join <;> rfl

/-- The nodes before this one have been evaluated. -/
def below (i j : Nat) : Bool := decide (j < i)

end Cycle

variable [Scalar R]

/-- The calls that a cycle makes when it comes to a node. -/
def Rulebook.callsOf (book : Rulebook R ν) (views : List (BehaviorView R)) (i : Nat)
    (n : RuleNode R ν) : List (Firing ν) :=
  book.behaviorCalls views n ++ (n.conclude views (book.verdictNow views i)).calls

namespace Cycle

variable {book : Rulebook R ν} {views : List (BehaviorView R)} {c : Cycle R ν}

/-- A cycle that comes to a node has only this one left to evaluate. -/
theorem Reached.check_below (before : book.OperandsBefore) {i : Nat}
    (within : i < book.nodes.length) (reached : c.Reached book views (below i)) :
    (c.check views i).Reached book views (below (i + 1)) := by
  obtain ⟨done, reached', advance, visited⟩ := reached.check before i
  have same : done = below (i + 1) := by
    funext j
    apply Bool.eq_iff_iff.2
    simp only [below, decide_eq_true_eq]
    constructor
    · intro isDone
      rcases advance.below j isDone with earlier | bound
      · simp only [below, decide_eq_true_eq] at earlier
        omega
      · exact bound
    · intro bound
      rcases Nat.lt_succ_iff_lt_or_eq.1 bound with earlier | rfl
      · exact advance.keeps j (by simpa [below] using earlier)
      · exact visited within
  exact same ▸ reached'

/-- An operand has been evaluated before. -/
theorem Reached.check_operand {i o : Nat} (reached : c.Reached book views (below i))
    (within : i < book.nodes.length) (earlier : o < i) : c.check views o = c := by
  have there := List.getElem?_eq_getElem (Nat.lt_trans earlier within)
  have found := reached.getElem? o
  rw [there, Option.map_some, if_pos (by simpa [below] using earlier)] at found
  exact check_of_isChecked found (by simp)

/-- When a cycle comes to a node, it calls the listeners of the behaviour and of the node. -/
theorem Reached.check_firings (before : book.OperandsBefore) {i : Nat} {n : RuleNode R ν}
    (found : book.nodes[i]? = some n) (reached : c.Reached book views (below i))
    (listeners : c.book.behaviorListeners = book.behaviorListeners) :
    (c.check views i).firings = c.firings ++ book.callsOf views i n := by
  have within := (List.getElem?_eq_some_iff.1 found).1
  have current : c.book.nodes[i]? = some { n with isChecked := false } := by
    rw [reached.getElem? i, found]
    simp [below]
  have operands := before i n found
  have settled (noQuestion : n.kind.isQuestion = false) {holds : Bool}
      (value : book.verdictNow views i = holds) :
      (c.settle i holds).firings = c.firings ++ book.callsOf views i n := by
    rw [settle_firings current, Rulebook.callsOf, Rulebook.behaviorCalls_eq_nil noQuestion,
      n.conclude_eq_settle views _ noQuestion, value, List.nil_append]
  have operand_holds {o : Nat} (earlier : o < i) : c.holds o = book.verdictNow views o :=
    reached.holds_eq (Nat.lt_trans earlier within) (by simpa [below] using earlier)
  rw [Cycle.check, current]
  simp only [Bool.false_eq_true, if_false]
  cases kind : n.kind with
  | ask behavior question =>
    have value : book.verdictNow views i = _ := Rulebook.verdict_ask found kind
    rw [Rulebook.callsOf, value]
    refine (ask_firings current kind views).trans ?_
    simp [Rulebook.behaviorCalls, RuleNode.conclude, kind, listeners, RuleNode.settle,
      RuleNode.calls]
  | not operand =>
    have earlier : operand < i := operands operand (by simp [kind, NodeKind.operands])
    simp only [earlier, if_true, reached.check_operand within earlier, operand_holds earlier]
    exact settled (by simp [kind]; rfl) (Rulebook.verdict_not before found kind)
  | binary op left right =>
    have earlier₁ : left < i := operands left (by simp [kind, NodeKind.operands])
    have earlier₂ : right < i := operands right (by simp [kind, NodeKind.operands])
    simp only [earlier₁, earlier₂, if_true, reached.check_operand within earlier₁,
      reached.check_operand within earlier₂, operand_holds earlier₁, operand_holds earlier₂]
    exact settled (by simp [kind]; rfl) (Rulebook.verdict_binary before found kind)
  | qualified question qualifier =>
    have earlier : question < i := operands question (by simp [kind, NodeKind.operands])
    simp only [earlier, if_true, reached.check_operand within earlier, operand_holds earlier,
      qualifies_eq, reached.subject?_eq]
    exact settled (by simp [kind]; rfl) (Rulebook.verdict_qualified before found kind)

/-- The first nodes of a rulebook in a cycle: they are evaluated, and their listeners called. -/
theorem reached_foldl_range (before : book.OperandsBefore) {k : Nat}
    (within : k ≤ book.nodes.length) :
    let c := (List.range k).foldl (Cycle.check views) ⟨book.startCycle, []⟩
    c.Reached book views (below k) ∧
      c.firings = ((book.nodes.mapIdx (book.callsOf views)).take k).flatten := by
  induction k with
  | zero =>
    refine ⟨?_, rfl⟩
    apply List.ext_getElem?
    intro i
    simp [Rulebook.startCycle, below]
  | succ k ih =>
    obtain ⟨reached, fired⟩ := ih (by omega)
    have found := List.getElem?_eq_getElem (Nat.lt_of_succ_le within)
    have listeners := Rulebook.behaviorListeners_of_renewed
      (renewed_foldl_check views (List.range k) ⟨book.startCycle, []⟩)
    simp only [List.range_succ, List.foldl_concat]
    refine ⟨reached.check_below before (Nat.lt_of_succ_le within), ?_⟩
    rw [reached.check_firings before found listeners, fired, List.take_add_one,
      List.flatten_append, List.getElem?_mapIdx, found]
    simp

end Cycle

/-- A cycle calls the listeners node by node, in the order in which the nodes were added. -/
theorem Rulebook.update_firings {book : Rulebook R ν} (before : book.OperandsBefore)
    (views : List (BehaviorView R)) :
    (book.update views).firings = (book.nodes.mapIdx (book.callsOf views)).flatten := by
  obtain ⟨-, fired⟩ :=
    Cycle.reached_foldl_range before (Nat.le_refl book.nodes.length)
  rw [update, fired, ← List.length_mapIdx (f := book.callsOf views), List.take_length]

end TouchIntent
