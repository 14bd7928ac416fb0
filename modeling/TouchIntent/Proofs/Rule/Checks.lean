import Mathlib.Data.List.Basic
import TouchIntent.Rule.Evaluation

/-!
# Checks of nodes

An operation that evaluates rules checks some nodes, each of them at most once, and calls the
listeners of those that hold. This module relates the rulebook before such an operation to the one
after it, whichever nodes are checked and in whatever order.
-/

namespace TouchIntent

variable {R ν : Type}

/-- The call is one of a listener of a rule. -/
def Firing.isOfRule : Firing ν → Bool
  | rule .. => true
  | behavior .. => false

namespace RuleNode

/-- The calls of the listeners of a node that has just been checked. -/
def calls (n : RuleNode R ν) : List (Firing ν) :=
  if n.holds then n.listeners.map fun entry => .rule entry.2 entry.1 n.streak else []

theorem filter_calls (n : RuleNode R ν) : n.calls.filter Firing.isOfRule = n.calls := by
  apply List.filter_eq_self.2
  intro call member
  rw [calls] at member
  split at member
  · obtain ⟨entry, -, rfl⟩ := List.mem_map.1 member
    rfl
  · cases member

end RuleNode

namespace Cycle

/-- The calls of the listeners of a node. -/
def callsAt (c : Cycle R ν) (i : Nat) : List (Firing ν) :=
  ((c.book.nodes[i]?).map RuleNode.calls).getD []

/-- The one cycle comes from the other by checking these nodes, in this order. -/
structure Checks (c c' : Cycle R ν) (checked : List Nat) : Prop where
  nodup : checked.Nodup
  kept : ∀ i, i ∉ checked → c'.book.nodes[i]? = c.book.nodes[i]?
  settled : ∀ i ∈ checked, ∃ n, c.book.nodes[i]? = some n ∧ n.isChecked = false ∧
    ∃ result holds, c'.book.nodes[i]? = some ({ n with lastResult := result }.settle holds)
  calls : c'.firings.filter Firing.isOfRule =
    c.firings.filter Firing.isOfRule ++ checked.flatMap c'.callsAt

variable {c c' c'' : Cycle R ν} {checked checked' : List Nat}

theorem Checks.refl (c : Cycle R ν) : c.Checks c [] where
  nodup := .nil
  kept := by simp
  settled := by simp
  calls := by simp

/-- A node that has been checked is not checked again. -/
theorem Checks.disjoint (first : c.Checks c' checked) (second : c'.Checks c'' checked') {i : Nat}
    (member : i ∈ checked) : i ∉ checked' := by
  intro again
  obtain ⟨n, -, -, result, holds, after⟩ := first.settled i member
  obtain ⟨m, found, unchecked, -⟩ := second.settled i again
  rw [after] at found
  obtain rfl := Option.some.inj found
  cases unchecked

theorem Checks.trans (first : c.Checks c' checked) (second : c'.Checks c'' checked') :
    c.Checks c'' (checked ++ checked') where
  nodup := by
    refine List.nodup_append.2 ⟨first.nodup, second.nodup, ?_⟩
    intro i earlier j later same
    exact first.disjoint second earlier (same ▸ later)
  kept := by
    intro i absent
    rw [List.mem_append, not_or] at absent
    rw [second.kept i absent.2, first.kept i absent.1]
  settled := by
    intro i member
    rcases List.mem_append.1 member with member | member
    · obtain ⟨n, found, unchecked, result, holds, after⟩ := first.settled i member
      refine ⟨n, found, unchecked, result, holds, ?_⟩
      rw [second.kept i (first.disjoint second member), after]
    · obtain ⟨n, found, rest⟩ := second.settled i member
      have absent : i ∉ checked := fun earlier => first.disjoint second earlier member
      rw [first.kept i absent] at found
      exact ⟨n, found, rest⟩
  calls := by
    have same : checked.flatMap c'.callsAt = checked.flatMap c''.callsAt := by
      apply List.flatMap_congr
      intro i member
      rw [callsAt, callsAt, second.kept i (first.disjoint second member)]
    rw [second.calls, first.calls, same, List.flatMap_append, List.append_assoc]

/-- Settling a node calls its listeners. -/
theorem settle_firings {i : Nat} {n : RuleNode R ν} (found : c.book.nodes[i]? = some n)
    (holds : Bool) : (c.settle i holds).firings = c.firings ++ (n.settle holds).calls := by
  simp only [settle, Rulebook.modifyNode, List.getElem?_modify_eq, found]
  rfl

/-- Settling a node is a check of it. -/
theorem checks_settle {i : Nat} {n : RuleNode R ν} (found : c.book.nodes[i]? = some n)
    (unchecked : n.isChecked = false) (holds : Bool) : c.Checks (c.settle i holds) [i] := by
  have after : (c.settle i holds).book.nodes[i]? = some (n.settle holds) := by
    simp [settle, Rulebook.modifyNode, found]
  refine ⟨by simp, ?_, ?_, ?_⟩
  · intro j other
    have differ : i ≠ j := by simpa [eq_comm] using other
    simp [settle, Rulebook.modifyNode, differ]
  · intro j member
    obtain rfl := List.mem_singleton.1 member
    exact ⟨n, found, unchecked, n.lastResult, holds, after⟩
  · have calls : (c.settle i holds).callsAt i = (n.settle holds).calls := by
      rw [callsAt, after]
      rfl
    rw [settle_firings found, List.filter_append, RuleNode.filter_calls, List.flatMap_cons, calls]
    simp

/-- Settling a node is a check of it also when a completion check has been remembered before, and
calls of other listeners have been made. -/
theorem checks_remember {i : Nat} {n : RuleNode R ν} (found : c.book.nodes[i]? = some n)
    (unchecked : n.isChecked = false) (result : Option CheckResult) {book : Rulebook R ν}
    (remembered : book.nodes = c.book.nodes.modify i fun m => { m with lastResult := result })
    {others : List (Firing ν)} (of_no_rule : others.filter Firing.isOfRule = []) (holds : Bool) :
    c.Checks (settle ⟨book, c.firings ++ others⟩ i holds) [i] := by
  let asked : Cycle R ν := ⟨book, c.firings ++ others⟩
  have current : asked.book.nodes[i]? = some { n with lastResult := result } := by
    simp [asked, remembered, found]
  have checks := checks_settle current unchecked holds
  have fired : asked.firings.filter Firing.isOfRule = c.firings.filter Firing.isOfRule := by
    rw [List.filter_append, of_no_rule, List.append_nil]
  refine ⟨checks.nodup, ?_, ?_, fired ▸ checks.calls⟩
  · intro j other
    have differ : i ≠ j := by simpa [eq_comm] using other
    refine (checks.kept j other).trans ?_
    simp [asked, remembered, differ]
  · intro j member
    obtain rfl := List.mem_singleton.1 member
    obtain ⟨m, same, -, forgotten, holds, after⟩ := checks.settled j member
    rw [current] at same
    obtain rfl := Option.some.inj same
    exact ⟨n, found, unchecked, forgotten, holds, after⟩

/-- Asking a question is a check of its node. -/
theorem checks_ask {i : Nat} {n : RuleNode R ν} (found : c.book.nodes[i]? = some n)
    (unchecked : n.isChecked = false) (views : List (BehaviorView R)) (behavior : Nat)
    (question : Question) : c.Checks (c.ask views i n.lastResult behavior question) [i] := by
  unfold ask
  cases views[behavior]? with
  | none => exact checks_settle found unchecked false
  | some view =>
    refine checks_remember found unchecked (view.ask n.lastResult) rfl ?_ _
    split <;> rfl

variable [Scalar R]

/-- Checking a node checks the nodes that it needs and that have not been checked in this
cycle. -/
theorem checks_check (views : List (BehaviorView R)) (node : Nat) :
    ∀ c : Cycle R ν, ∃ checked, c.Checks (c.check views node) checked ∧
      ∀ i ∈ checked, i ≤ node := by
  induction node using Nat.strongRecOn with
  | ind node ih =>
    intro c
    -- An operand comes first; it lies before the node, which is not checked on the way.
    have visit (o : Nat) (c : Cycle R ν) :
        ∃ checked, c.Checks (if o < node then c.check views o else c) checked ∧
          ∀ i ∈ checked, i < node := by
      split
      · next earlier =>
        obtain ⟨checked, checks, upTo⟩ := ih o earlier c
        exact ⟨checked, checks, fun i member => Nat.lt_of_le_of_lt (upTo i member) earlier⟩
      · exact ⟨[], .refl c, by simp⟩
    have close {c c' : Cycle R ν} {n : RuleNode R ν} {checked : List Nat}
        (found : c.book.nodes[node]? = some n) (unchecked : n.isChecked = false)
        (checks : c.Checks c' checked) (below : ∀ i ∈ checked, i < node) (holds : Bool) :
        ∃ checked, c.Checks (c'.settle node holds) checked ∧ ∀ i ∈ checked, i ≤ node := by
      have untouched : c'.book.nodes[node]? = some n := by
        rw [checks.kept node fun member => Nat.lt_irrefl node (below node member), found]
      refine ⟨checked ++ [node], checks.trans (checks_settle untouched unchecked holds), ?_⟩
      intro i member
      rcases List.mem_append.1 member with member | member
      · exact Nat.le_of_lt (below i member)
      · exact Nat.le_of_eq (List.mem_singleton.1 member)
    rw [check]
    cases found : c.book.nodes[node]? with
    | none => exact ⟨[], .refl c, by simp⟩
    | some n =>
      cases unchecked : n.isChecked with
      | true =>
        simp only [unchecked, if_true]
        exact ⟨[], .refl c, by simp⟩
      | false =>
        simp only [unchecked, Bool.false_eq_true, if_false]
        cases n.kind with
        | ask behavior question =>
          exact ⟨[node], checks_ask found unchecked views behavior question, by simp⟩
        | not operand =>
          obtain ⟨checked, checks, below⟩ := visit operand c
          exact close found unchecked checks below _
        | binary op left right =>
          obtain ⟨checked₁, checks₁, below₁⟩ := visit left c
          obtain ⟨checked₂, checks₂, below₂⟩ := visit right _
          refine close found unchecked (checks₁.trans checks₂) ?_ _
          intro i member
          exact (List.mem_append.1 member).elim (below₁ i) (below₂ i)
        | qualified question qualifier =>
          obtain ⟨checked, checks, below⟩ := visit question c
          exact close found unchecked checks below _

theorem checks_foldl_check (views : List (BehaviorView R)) (nodes : List Nat) (c : Cycle R ν) :
    ∃ checked, c.Checks (nodes.foldl (Cycle.check views) c) checked := by
  induction nodes generalizing c with
  | nil => exact ⟨[], .refl c⟩
  | cons node rest ih =>
    obtain ⟨checked₁, checks₁, -⟩ := checks_check views node c
    obtain ⟨checked₂, checks₂⟩ := ih (c.check views node)
    exact ⟨checked₁ ++ checked₂, checks₁.trans checks₂⟩

end Cycle

end TouchIntent
