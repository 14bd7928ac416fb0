import Mathlib.Data.List.Induction
import TouchIntent.Proofs.Rule.Graph

/-!
# What an expression says

The reading of an expression follows its syntax tree: a question is answered from the views of the
behaviour and from the completion checks of the cycles before, and the connectives are those of the
expression itself, whatever the graph makes of them. This module relates the nodes of a rulebook to
such readings over whole runs of cycles.
-/

namespace TouchIntent

variable {R ν : Type}

/-- The last completion check for a behaviour after cycles over the views in `past`. -/
def lastCheck (behavior : Nat) (past : List (List (BehaviorView R))) : Option CheckResult :=
  past.foldl (fun previous views => checkAfter views behavior previous) none

theorem lastCheck_concat (behavior : Nat) (past : List (List (BehaviorView R)))
    (now : List (BehaviorView R)) :
    lastCheck behavior (past ++ [now]) = checkAfter now behavior (lastCheck behavior past) := by
  simp only [lastCheck, List.foldl_append, List.foldl_cons, List.foldl_nil]

/-- The behaviour that an expression asks about, if it is a question or refers to one. -/
def RuleExpr.subject? (book : Rulebook R ν) : RuleExpr R → Option Nat
  | ask behavior _ _ => some behavior
  | ref rule => book.subject? rule
  | _ => none

variable [Scalar R]

namespace Rulebook

/-- The rulebook after cycles over the given views, one after the other. -/
def run (book : Rulebook R ν) (cycles : List (List (BehaviorView R))) : Rulebook R ν :=
  cycles.foldl (fun book views => (book.update views).book) book

/-- What the cycle over `now` finds for a node, after cycles over `past`. -/
def resultAfter (book : Rulebook R ν) (past : List (List (BehaviorView R)))
    (now : List (BehaviorView R)) (node : Nat) : Bool :=
  ((book.run (past ++ [now])).nodes[node]?).any RuleNode.holds

end Rulebook

/-- What an expression says in the cycle over `now`, after cycles over `past`. A registered rule
says what its node is found to be. -/
def RuleExpr.reading (book : Rulebook R ν) (past : List (List (BehaviorView R)))
    (now : List (BehaviorView R)) : RuleExpr R → Bool
  | ask behavior _ question => question.verdict now behavior (lastCheck behavior past)
  | ref rule => book.resultAfter past now rule
  | not operand => !operand.reading book past now
  | binary op left right =>
    op.apply (left.reading book past now) (right.reading book past now)
  | qualified operand _ _ qualifier =>
    operand.reading book past now &&
      (operand.subject? book).any fun behavior => (now[behavior]?).any qualifier.holds

namespace Rulebook

/-- No completion check has been made. -/
def IsFresh (book : Rulebook R ν) : Prop := ∀ n ∈ book.nodes, n.lastResult = none

variable {book : Rulebook R ν}

theorem run_concat (book : Rulebook R ν) (past : List (List (BehaviorView R)))
    (now : List (BehaviorView R)) :
    book.run (past ++ [now]) = ((book.run past).update now).book := by
  simp only [run, List.foldl_append, List.foldl_cons, List.foldl_nil]

/-- A run of cycles keeps the graph, and each question remembers the checks for its behaviour. -/
structure Follows (book : Rulebook R ν) (past : List (List (BehaviorView R)))
    (later : Rulebook R ν) : Prop where
  kinds : ∀ i : Nat, (later.nodes[i]?).map RuleNode.kind = (book.nodes[i]?).map RuleNode.kind
  recalls : ∀ (i : Nat) (n : RuleNode R ν), later.nodes[i]? = some n →
    ∀ behavior question, n.kind = .ask behavior question →
      n.lastResult = lastCheck behavior past

omit [Scalar R] in
theorem Follows.before {past : List (List (BehaviorView R))} {later : Rulebook R ν}
    (follows : book.Follows past later) (before : book.OperandsBefore) : later.OperandsBefore := by
  intro i n found o member
  have same := follows.kinds i
  rw [found, Option.map_some] at same
  obtain ⟨m, original, kind⟩ := Option.map_eq_some_iff.1 same.symm
  exact before i m original o (kind ▸ member)

theorem Follows.update {past : List (List (BehaviorView R))} {later : Rulebook R ν}
    (follows : book.Follows past later) (before : book.OperandsBefore)
    (now : List (BehaviorView R)) :
    book.Follows (past ++ [now]) (later.update now).book := by
  have nodes := later.update_nodes (follows.before before) now
  refine ⟨fun i => ?_, fun i n found behavior question asks => ?_⟩
  · rw [nodes, List.getElem?_mapIdx, ← follows.kinds i]
    cases later.nodes[i]? with
    | none => rfl
    | some n => simp
  · rw [nodes, List.getElem?_mapIdx] at found
    obtain ⟨m, original, rfl⟩ := Option.map_eq_some_iff.1 found
    rw [RuleNode.conclude_kind] at asks
    rw [m.conclude_lastResult now _ asks, follows.recalls i m original behavior question asks,
      lastCheck_concat]

theorem follows_run (before : book.OperandsBefore) (fresh : book.IsFresh)
    (past : List (List (BehaviorView R))) : book.Follows past (book.run past) := by
  induction past using List.reverseRecOn with
  | nil =>
    refine ⟨fun i => rfl, fun i n found behavior question asks => ?_⟩
    exact fresh n (List.mem_of_getElem? found)
  | append_singleton past now ih =>
    rw [run_concat]
    exact ih.update before now

/-- What a cycle finds for a node, said without a run: the recursion over the graph, every question
being answered from the completion checks of the cycles before. -/
theorem resultAfter_eq (before : book.OperandsBefore) (fresh : book.IsFresh)
    (past : List (List (BehaviorView R))) (now : List (BehaviorView R)) (node : Nat) :
    book.resultAfter past now node =
      book.verdict (fun _ behavior => lastCheck behavior past) now node := by
  have follows := follows_run before fresh past
  have nodes := (book.run past).update_nodes (follows.before before) now
  have value : (book.run past).verdictNow now node =
      book.verdict (fun _ behavior => lastCheck behavior past) now node := by
    apply verdict_congr follows.kinds
    intro i n m found _ behavior question asks
    exact follows.recalls i n found behavior question asks
  rw [resultAfter, run_concat, nodes, List.getElem?_mapIdx, ← value]
  cases found : (book.run past).nodes[node]? with
  | none =>
    rw [verdictNow, verdict, found]
    rfl
  | some n => simp

section Results

variable (before : book.OperandsBefore) (fresh : book.IsFresh)
  (past : List (List (BehaviorView R))) (now : List (BehaviorView R))
  {node : Nat} {n : RuleNode R ν} (found : book.nodes[node]? = some n)
include before fresh found

theorem resultAfter_ask {behavior : Nat} {question : Question}
    (kind : n.kind = .ask behavior question) :
    book.resultAfter past now node = question.verdict now behavior (lastCheck behavior past) := by
  rw [resultAfter_eq before fresh]
  exact verdict_ask found kind

theorem resultAfter_not {operand : Nat} (kind : n.kind = .not operand) :
    book.resultAfter past now node = !book.resultAfter past now operand := by
  rw [resultAfter_eq before fresh, resultAfter_eq before fresh]
  exact verdict_not before found kind

theorem resultAfter_binary {op : BinaryOp} {left right : Nat}
    (kind : n.kind = .binary op left right) :
    book.resultAfter past now node =
      op.apply (book.resultAfter past now left) (book.resultAfter past now right) := by
  rw [resultAfter_eq before fresh, resultAfter_eq before fresh, resultAfter_eq before fresh]
  exact verdict_binary before found kind

theorem resultAfter_qualified {question : Nat} {qualifier : Qualifier R}
    (kind : n.kind = .qualified question qualifier) :
    book.resultAfter past now node = (book.resultAfter past now question &&
      (book.subject? question).any fun behavior => (now[behavior]?).any qualifier.holds) := by
  rw [resultAfter_eq before fresh, resultAfter_eq before fresh]
  exact verdict_qualified before found kind

end Results

end Rulebook

end TouchIntent
