import TouchIntent.Proofs.Rule.Firings
import TouchIntent.Proofs.Rule.Sharing

/-!
# Resetting a rulebook

A reset forgets the completion checks, and nothing else: whether a node held in the last cycle, for
how many cycles in a row, and that it has been evaluated, it leaves. The main statement of this
module compares a rulebook that has been reset with a new one of the same rules and listeners. From
the first cycle on they report the same, exactly if no node that held before the reset holds in
that cycle. `update_alike` carries one cycle over from the one to the other, and `reports_alike` all
evaluations after it.
-/

namespace TouchIntent

variable {R ν : Type}

/-- An evaluation that a host asks for. -/
inductive RuleCall (R : Type) where
  | update (views : List (BehaviorView R))
  | evaluate (label : String) (views : List (BehaviorView R))

def RuleCall.op : RuleCall R → RuleOp R ν
  | update views => .update views
  | evaluate label views => .evaluate label views

/-- What a host can see of an evaluation. -/
structure RuleReport (ν : Type) where
  /-- The answer, if a rule was asked for. -/
  answer : Option Bool
  firings : List (Firing ν)
  /-- For each node whether it holds, how many cycles in a row it held before, and its last
  completion check. -/
  states : List (Bool × Nat × Option CheckResult)

namespace RuleNode

/-- The node without the number of its evaluations. -/
def uncounted (n : RuleNode R ν) : RuleNode R ν := { n with checkCount := 0 }

def state (n : RuleNode R ν) : Bool × Nat × Option CheckResult := (n.holds, n.streak, n.lastResult)

variable {n n' : RuleNode R ν}

theorem kind_of_renewed (rule : n'.renewed = n.renewed) : n'.kind = n.kind := by
  have fields := congrArg kind rule
  exact fields

theorem state_of_uncounted (same : n'.uncounted = n.uncounted) : n'.state = n.state := by
  have fields := congrArg state same
  exact fields

theorem calls_of_uncounted (same : n'.uncounted = n.uncounted) : n'.calls = n.calls := by
  have fields := congrArg calls same
  exact fields

theorem isChecked_of_uncounted (same : n'.uncounted = n.uncounted) :
    n'.isChecked = n.isChecked := by
  have fields := congrArg isChecked same
  exact fields

theorem conclude_streak (n : RuleNode R ν) (views : List (BehaviorView R)) (holds : Bool) :
    (n.conclude views holds).streak = (n.settle holds).streak := by
  unfold conclude
  split <;> rfl

/-- A node remembers of a cycle what it is told, what it remembered before and for how long it has
held. -/
theorem conclude_uncounted (views : List (BehaviorView R)) {holds : Bool}
    (rule : n'.renewed = n.renewed) (result : n'.lastResult = n.lastResult)
    (streak : (n'.settle holds).streak = (n.settle holds).streak) :
    (n'.conclude views holds).uncounted = (n.conclude views holds).uncounted := by
  simp only [renewed, RuleNode.mk.injEq, true_and] at rule
  obtain ⟨label, kind, listeners⟩ := rule
  simp only [settle, Bool.and_eq_true] at streak
  unfold conclude
  rw [kind]
  cases n.kind <;> simp [uncounted, settle, label, kind, listeners, result, streak]

end RuleNode

namespace Rulebook

/-- The rulebooks differ at most in how often nodes have been evaluated, and in the completion
checks that are kept for whole behaviours. -/
structure Alike (book book' : Rulebook R ν) : Prop where
  rules : book'.renewed = book.renewed
  nodes : book'.nodes.map RuleNode.uncounted = book.nodes.map RuleNode.uncounted

def states (book : Rulebook R ν) : List (Bool × Nat × Option CheckResult) :=
  book.nodes.map RuleNode.state

variable {book book' : Rulebook R ν}

/-- The nodes of rulebooks of the same rules and listeners, one by one. -/
theorem nodes_of_renewed (rules : book'.renewed = book.renewed) (i : Nat) :
    (book.nodes[i]? = none ∧ book'.nodes[i]? = none) ∨
      ∃ n n', book.nodes[i]? = some n ∧ book'.nodes[i]? = some n' ∧ n'.renewed = n.renewed := by
  cases found' : book'.nodes[i]? with
  | none =>
    have same := (SameGraph.of_renewed rules).length_eq
    have beyond := List.getElem?_eq_none_iff.1 found'
    exact .inl ⟨List.getElem?_eq_none (by omega), rfl⟩
  | some n' =>
    obtain ⟨n, found, rule⟩ := getElem?_of_renewed rules found'
    exact .inr ⟨n, n', found, rfl, rule⟩

theorem Alike.getElem? (alike : book.Alike book') {i : Nat} {n n' : RuleNode R ν}
    (found : book.nodes[i]? = some n) (found' : book'.nodes[i]? = some n') :
    n'.uncounted = n.uncounted := by
  have entry := congrArg (fun nodes => nodes[i]?) alike.nodes
  simpa [found, found'] using entry

theorem Alike.states (alike : book.Alike book') : book'.states = book.states := by
  apply List.ext_getElem?
  intro i
  rw [Rulebook.states, Rulebook.states, List.getElem?_map, List.getElem?_map]
  rcases nodes_of_renewed alike.rules i with ⟨absent, absent'⟩ | ⟨n, n', found, found', -⟩
  · rw [absent, absent']
  · rw [found, found', Option.map_some, Option.map_some,
      RuleNode.state_of_uncounted (alike.getElem? found found')]

variable [Scalar R]

/-- What an evaluation reports. -/
def report (book : Rulebook R ν) (call : RuleCall R) : RuleReport ν where
  answer := match call with
    | .update _ => none
    | .evaluate label views => (book.evaluate label views).map Prod.snd
  firings := (book.perform call.op).firings
  states := (book.perform call.op).book.states

/-- What evaluations report, one after the other. -/
def reports (book : Rulebook R ν) : List (RuleCall R) → List (RuleReport ν)
  | [] => []
  | call :: rest => book.report call :: reports (book.perform call.op).book rest

/-- Rulebooks of the same rules that remember the same completion checks have the same verdicts. -/
theorem verdictNow_of_renewed (rules : book'.renewed = book.renewed)
    (results : ∀ (i : Nat) (n n' : RuleNode R ν), book.nodes[i]? = some n →
      book'.nodes[i]? = some n' → n'.lastResult = n.lastResult)
    (views : List (BehaviorView R)) (i : Nat) :
    book'.verdictNow views i = book.verdictNow views i := by
  refine (verdict_congr ?_ ?_ i).symm
  · intro j
    rcases nodes_of_renewed rules j with ⟨absent, absent'⟩ | ⟨n, n', found, found', rule⟩
    · rw [absent, absent']
    · rw [found, found', Option.map_some, Option.map_some, RuleNode.kind_of_renewed rule]
  · intro j n n' found found' behavior question kind
    exact (results j n n' found found').symm

/-- A cycle of rulebooks of the same rules and listeners, whose nodes remember the same completion
checks and will have held for equally long. -/
theorem update_alike (before : book.OperandsBefore) (rules : book'.renewed = book.renewed)
    (views : List (BehaviorView R))
    (results : ∀ (i : Nat) (n n' : RuleNode R ν), book.nodes[i]? = some n →
      book'.nodes[i]? = some n' → n'.lastResult = n.lastResult)
    (streaks : ∀ (i : Nat) (n n' : RuleNode R ν), book.nodes[i]? = some n →
      book'.nodes[i]? = some n' → (n'.settle (book.verdictNow views i)).streak =
        (n.settle (book.verdictNow views i)).streak) :
    (book.update views).book.Alike (book'.update views).book ∧
      (book'.update views).firings = (book.update views).firings := by
  have before' := (SameGraph.of_renewed rules).operandsBefore before
  have verdicts := verdictNow_of_renewed rules results views
  have concluded {i : Nat} {n n' : RuleNode R ν} (found : book.nodes[i]? = some n)
      (found' : book'.nodes[i]? = some n') (rule : n'.renewed = n.renewed) :=
    RuleNode.conclude_uncounted views rule (results i n n' found found')
      (streaks i n n' found found')
  have renewed (book : Rulebook R ν) : (book.update views).book.renewed = book.renewed :=
    book.renewed_perform (.update views)
  refine ⟨⟨(renewed book').trans (rules.trans (renewed book).symm), ?_⟩, ?_⟩
  · apply List.ext_getElem?
    intro i
    rw [update_nodes before, update_nodes before']
    simp only [List.getElem?_map, List.getElem?_mapIdx]
    rcases nodes_of_renewed rules i with ⟨absent, absent'⟩ | ⟨n, n', found, found', rule⟩
    · simp only [absent, absent', Option.map_none]
    · simp only [found, found', Option.map_some, verdicts, concluded found found' rule]
  · rw [update_firings before, update_firings before']
    refine congrArg List.flatten (List.ext_getElem? fun i => ?_)
    rw [List.getElem?_mapIdx, List.getElem?_mapIdx]
    rcases nodes_of_renewed rules i with ⟨absent, absent'⟩ | ⟨n, n', found, found', rule⟩
    · simp only [absent, absent', Option.map_none]
    · simp only [found, found', Option.map_some, callsOf, behaviorCalls,
        RuleNode.kind_of_renewed rule,
        behaviorListeners_of_renewed rules, results i n n' found found', verdicts,
        RuleNode.calls_of_uncounted (concluded found found' rule)]

/-- After a cycle all nodes have been evaluated. -/
theorem isChecked_update (before : book.OperandsBefore) (views : List (BehaviorView R)) :
    ∀ n ∈ (book.update views).book.nodes, n.isChecked = true := by
  intro n member
  rw [update_nodes before, List.mem_mapIdx] at member
  obtain ⟨i, within, rfl⟩ := member
  exact RuleNode.conclude_isChecked ..

/-- Where all nodes have been evaluated, evaluating a rule only reads. -/
theorem evaluate_of_checked (wf : book.WellFormed)
    (checked : ∀ n ∈ book.nodes, n.isChecked = true) (label : String)
    (views : List (BehaviorView R)) :
    book.evaluate label views = (book.node? label).map fun i =>
      (⟨book, []⟩, (book.nodes[i]?).any RuleNode.holds) := by
  rw [evaluate]
  cases named : book.node? label with
  | none => rfl
  | some i =>
    have found := List.getElem?_eq_getElem (wf.node?_lt named)
    have settled := checked _ (List.getElem_mem (wf.node?_lt named))
    have unchanged : Cycle.check views ⟨book, []⟩ i = ⟨book, []⟩ :=
      Cycle.check_of_isChecked found settled
    simp only [Option.map_some, unchanged]
    rfl

theorem perform_evaluate_of_checked (wf : book.WellFormed)
    (checked : ∀ n ∈ book.nodes, n.isChecked = true) (label : String)
    (views : List (BehaviorView R)) :
    book.perform (.evaluate label views) = ⟨book, []⟩ := by
  rw [perform, evaluate_of_checked wf checked]
  cases book.node? label <;> rfl

omit [Scalar R] in
theorem Alike.isChecked (alike : book.Alike book')
    (checked : ∀ n ∈ book.nodes, n.isChecked = true) :
    ∀ n' ∈ book'.nodes, n'.isChecked = true := by
  intro n' member
  obtain ⟨i, found'⟩ := List.getElem?_of_mem member
  obtain ⟨n, found, -⟩ := getElem?_of_renewed alike.rules found'
  rw [RuleNode.isChecked_of_uncounted (alike.getElem? found found')]
  exact checked n (List.mem_of_getElem? found)

theorem Alike.report_evaluate (alike : book.Alike book') (wf : book.WellFormed)
    (checked : ∀ n ∈ book.nodes, n.isChecked = true) (label : String)
    (views : List (BehaviorView R)) :
    book'.report (.evaluate label views) = book.report (.evaluate label views) := by
  have graph := SameGraph.of_renewed alike.rules
  have wf' := graph.wellFormed wf
  have checked' := alike.isChecked checked
  have holds (i : Nat) :
      (book'.nodes[i]?).any RuleNode.holds = (book.nodes[i]?).any RuleNode.holds := by
    rcases nodes_of_renewed alike.rules i with ⟨absent, absent'⟩ | ⟨n, n', found, found', -⟩
    · rw [absent, absent']
    · have states := RuleNode.state_of_uncounted (alike.getElem? found found')
      rw [found, found']
      exact congrArg Prod.fst states
  simp only [report, RuleCall.op, perform_evaluate_of_checked wf checked,
    perform_evaluate_of_checked wf' checked', evaluate_of_checked wf checked,
    evaluate_of_checked wf' checked', alike.states, graph.node?, holds, Option.map_map,
    Function.comp_def]

/-- After a cycle, alike rulebooks report the same forever. -/
theorem reports_alike (alike : book.Alike book') (wf : book.WellFormed)
    (checked : ∀ n ∈ book.nodes, n.isChecked = true) (calls : List (RuleCall R)) :
    book'.reports calls = book.reports calls := by
  induction calls generalizing book book' with
  | nil => rfl
  | cons call rest ih =>
    have wf' := (SameGraph.of_renewed alike.rules).wellFormed wf
    cases call with
    | update views =>
      obtain ⟨after, fired⟩ := update_alike wf.before alike.rules views
        (fun i n n' found found' => congrArg (fun s => s.2.2)
          (RuleNode.state_of_uncounted (alike.getElem? found found')))
        (fun i n n' found found' => by
          have states := RuleNode.state_of_uncounted (alike.getElem? found found')
          simp only [RuleNode.state, Prod.mk.injEq] at states
          simp [RuleNode.settle, states])
      have head : book'.report (.update views) = book.report (.update views) := by
        simp only [report, RuleCall.op, perform, after.states, fired]
      exact congrArg₂ List.cons head (ih after (wellFormed_perform wf (.update views))
        (isChecked_update wf.before views))
    | evaluate label views =>
      have tail := ih alike wf checked
      simp only [reports, RuleCall.op, perform_evaluate_of_checked wf checked,
        perform_evaluate_of_checked wf' (alike.isChecked checked),
        alike.report_evaluate wf checked, tail]

/-- The state of a node after a cycle. -/
theorem states_update (before : book.OperandsBefore) (views : List (BehaviorView R)) :
    (book.update views).book.states = book.nodes.mapIdx fun i n =>
      (book.verdictNow views i, (n.settle (book.verdictNow views i)).streak, n.recalled views) := by
  rw [states, update_nodes before]
  apply List.ext_getElem?
  intro i
  simp only [List.getElem?_map, List.getElem?_mapIdx, Option.map_map, Function.comp_def,
    RuleNode.state, RuleNode.conclude_holds, RuleNode.conclude_recalled, RuleNode.conclude_streak]

/-- In a rulebook that has not been evaluated, a rule is evaluated to the verdict of the recursion
over the graph. -/
theorem evaluate_renewed (wf : book.WellFormed) (label : String) (views : List (BehaviorView R)) :
    (book.renewed.evaluate label views).map Prod.snd =
      (book.node? label).map (book.renewed.verdictNow views) := by
  have graph := book.sameGraph_renewed
  rw [evaluate, node?_renewed]
  cases named : book.node? label with
  | none => rfl
  | some i =>
    have within : i < book.renewed.nodes.length := by
      rw [graph.length_eq]
      exact wf.node?_lt named
    have start : Cycle.Reached book.renewed views (fun _ => false) ⟨book.renewed, []⟩ := by
      apply List.ext_getElem?
      intro j
      simp only [renewed, List.getElem?_map, List.getElem?_mapIdx]
      cases book.nodes[j]? <;> rfl
    obtain ⟨done, reached, -, visited⟩ := start.check (graph.operandsBefore wf.before) i
    simp only [Option.map_some, reached.holds_eq within (visited within)]

omit [Scalar R] in
/-- Neither the rulebook that has been reset nor the new one remembers a completion check. -/
theorem lastResult_reset {i : Nat} {n n' : RuleNode R ν} (found : book.reset.nodes[i]? = some n)
    (found' : book.renewed.nodes[i]? = some n') : n'.lastResult = n.lastResult := by
  rw [reset, List.getElem?_map, Option.map_eq_some_iff] at found
  rw [renewed, List.getElem?_map, Option.map_eq_some_iff] at found'
  obtain ⟨m, -, rfl⟩ := found
  obtain ⟨m', -, rfl⟩ := found'
  rfl

theorem verdictNow_reset (book : Rulebook R ν) (views : List (BehaviorView R)) (i : Nat) :
    book.renewed.verdictNow views i = book.reset.verdictNow views i :=
  verdictNow_of_renewed (book.renewed_renewed.trans book.renewed_reset.symm)
    (fun _ _ _ => lastResult_reset) views i

omit [Scalar R] in
/-- A node that does not go on to hold begins to hold, or it does not hold at all. -/
theorem streak_reset {i : Nat} {verdict : Bool}
    (fresh : (book.nodes[i]?).any RuleNode.holds = true → verdict = false) {n n' : RuleNode R ν}
    (found : book.reset.nodes[i]? = some n) (found' : book.renewed.nodes[i]? = some n') :
    (n'.settle verdict).streak = (n.settle verdict).streak := by
  rw [reset, List.getElem?_map, Option.map_eq_some_iff] at found
  rw [renewed, List.getElem?_map, Option.map_eq_some_iff] at found'
  obtain ⟨m, original, rfl⟩ := found
  obtain ⟨m', original', rfl⟩ := found'
  rw [original] at original' fresh
  cases verdict with
  | false => rfl
  | true =>
    have negative : m.holds = false := by simpa using fresh
    simp [RuleNode.settle, RuleNode.renewed, negative]

/-- A node that holds before a reset and in the first cycle after it tells the one rulebook from the
other. -/
theorem reset_reports_iff (wf : book.WellFormed) (views : List (BehaviorView R))
    (later : List (RuleCall R)) :
    book.reset.reports (.update views :: later) = book.renewed.reports (.update views :: later) ↔
      ∀ i, (book.nodes[i]?).any RuleNode.holds = true →
        book.renewed.verdictNow views i = false := by
  have wf_reset : book.reset.WellFormed := wellFormed_perform wf .reset
  have wf_new : book.renewed.WellFormed := book.sameGraph_renewed.wellFormed wf
  constructor
  · intro same i held
    -- The reports of the first cycle say for how long the node has held.
    have states : (book.reset.update views).book.states =
        (book.renewed.update views).book.states :=
      congrArg RuleReport.states (List.cons.inj same).1
    rw [states_update wf_reset.before, states_update wf_new.before] at states
    obtain ⟨n, found, positive⟩ := (Option.any_eq_true ..).1 held
    have found_reset : book.reset.nodes[i]? = some { n with lastResult := none } := by
      simp [reset, found]
    have found_new : book.renewed.nodes[i]? = some n.renewed := by simp [renewed, found]
    have entry := congrArg (fun states => (states[i]?).map fun s => s.2.1) states
    simp only [List.getElem?_mapIdx, found_reset, found_new, Option.map_some, Option.some.injEq,
      ← verdictNow_reset] at entry
    cases verdict : book.renewed.verdictNow views i with
    | false => rfl
    | true => simp [verdict, RuleNode.settle, RuleNode.renewed, positive] at entry
  · intro fresh
    have rules := book.renewed_renewed.trans book.renewed_reset.symm
    obtain ⟨alike, fired⟩ := update_alike wf_reset.before rules views
      (fun _ _ _ => lastResult_reset) fun i n n' found found' => by
        rw [← verdictNow_reset]
        exact streak_reset (fresh i) found found'
    have tail := reports_alike alike (wellFormed_perform wf_reset (.update views))
      (isChecked_update wf_reset.before views) later
    have head : book.reset.report (.update views) = book.renewed.report (.update views) := by
      simp only [report, RuleCall.op, perform, alike.states, fired]
    exact congrArg₂ List.cons head tail.symm

/-- After a cycle and a reset, a rule is still evaluated to the verdict of the cycle. -/
theorem evaluate_reset (wf : book.WellFormed) (before : List (BehaviorView R)) (label : String)
    (views : List (BehaviorView R)) :
    ((book.update before).book.reset.evaluate label views).map
        (fun evaluated => (evaluated.1.firings, evaluated.2)) =
      (book.node? label).map fun i => ([], book.verdictNow before i) := by
  have wf_after : (book.update before).book.reset.WellFormed :=
    wellFormed_perform (wellFormed_perform wf (.update before)) .reset
  have checked : ∀ n ∈ (book.update before).book.reset.nodes, n.isChecked = true := by
    intro n member
    obtain ⟨m, earlier, rfl⟩ := List.mem_map.1 member
    exact isChecked_update wf.before before m earlier
  have named : (book.update before).book.reset.node? label = book.node? label :=
    book.update_node? before label
  rw [evaluate_of_checked wf_after checked, named, Option.map_map]
  cases found : book.node? label with
  | none => rfl
  | some i =>
    have within := wf.node?_lt found
    simp [reset, update_nodes wf.before, within]

/-- After every run and a reset, a rulebook is compared with a new one of the same rules and
listeners. If a cycle is what comes first, then both report the same, and so they do in all
evaluations after it, exactly if no node that held before the reset holds in this cycle: such a node
is told to have held before, and the new one is not. If a rule is evaluated before the first cycle,
then the answer is the verdict of the last cycle before the reset, and no listener is called; in
the new rulebook it is the verdict over the views that are given. -/
theorem reset_starts_over_iff (behaviors : List String) (ops : List (RuleOp R ν))
    (views : List (BehaviorView R)) (later : List (RuleCall R)) :
    let book : Rulebook R ν := (empty behaviors).performAll ops
    let new : Rulebook R ν := (empty behaviors).performAll (ops.filter RuleOp.registers)
    (book.reset.reports (.update views :: later) = new.reports (.update views :: later) ↔
      ∀ i, (book.nodes[i]?).any RuleNode.holds = true → new.verdictNow views i = false) ∧
    ∀ before label,
      ((book.update before).book.reset.evaluate label views).map
          (fun evaluated => (evaluated.1.firings, evaluated.2)) =
        (book.node? label).map (fun i => ([], book.verdictNow before i)) ∧
      (new.evaluate label views).map Prod.snd =
        (book.node? label).map (new.verdictNow views) := by
  intro book new
  have wf : book.WellFormed := wellFormed_performAll (wellFormed_empty behaviors) ops
  have start : new = book.renewed := (renewed_performAll behaviors ops).symm
  refine ⟨?_, ?_⟩
  · rw [start]
    exact reset_reports_iff wf views later
  · intro before label
    rw [start]
    exact ⟨evaluate_reset wf before label views, evaluate_renewed wf label views⟩

open Registry in
/-- A rule holds in the cycle before a reset, and again in the cycle after it. The listener is told
that the rule has held before, which is no rising edge; the listener of a new rulebook is told the
opposite. -/
theorem held_rule_remembered :
    let ops : List (RuleOp Float Unit) :=
      [.addRuleWithListener "C is complete" (), .update [doneView]]
    let used : Rulebook Float Unit := ((empty ["C"]).performAll ops).reset
    let new : Rulebook Float Unit := (empty ["C"]).performAll (ops.filter RuleOp.registers)
    (used.update [doneView]).firings = [.rule () "C_is_complete" 1] ∧
      (new.update [doneView]).firings = [.rule () "C_is_complete" 0] ∧
      used.reports [.update [doneView]] ≠ new.reports [.update [doneView]] := by
  intro ops used new
  let n : RuleNode Float Unit :=
    { label := "C_is_complete", kind := .ask 0 ⟨.is, .complete⟩,
      listeners := [("C_is_complete", ())] }
  have nodes : new.nodes = [n] := by
    simp only [new, ops, List.filter, RuleOp.registers, performAll, List.foldl_cons, List.foldl_nil,
      perform, addRuleWithListener, addRule_tap]
    rfl
  have unheard : new.behaviorListeners = [none] := by
    simp only [new, ops, List.filter, RuleOp.registers, performAll, List.foldl_cons, List.foldl_nil,
      perform, addRuleWithListener, addRule_tap]
    rfl
  have wf : new.WellFormed := wellFormed_performAll (wellFormed_empty ["C"]) _
  have answer : Question.verdict ⟨.is, .complete⟩ [(doneView : BehaviorView Float)] 0 none = true :=
    verdict_spotlight_self _ 0
  have verdict : new.verdictNow [doneView] 0 = true :=
    (verdict_ask (n := n) (by rw [nodes]; rfl) rfl).trans answer
  have fired : (new.update [doneView]).firings = [.rule () "C_is_complete" 0] := by
    rw [update_firings wf.before, nodes, List.mapIdx_singleton, callsOf, verdict, behaviorCalls,
      unheard]
    rfl
  have same : used = (new.update [doneView]).book.reset :=
    congrArg reset (performAll_concat _ [.addRuleWithListener "C is complete" ()] _)
  have nodes_used : used.nodes = [{ n.settle true with lastResult := none }] := by
    rw [same, reset, update_nodes wf.before, nodes, List.mapIdx_singleton, verdict]
    rfl
  have rules : used.renewed = new.renewed := by
    rw [same, renewed_reset]
    exact new.renewed_perform (.update [doneView])
  have wf_used : used.WellFormed := (SameGraph.of_renewed rules).wellFormed wf
  have verdict_used : used.verdictNow [doneView] 0 = true :=
    (verdict_ask (n := { n.settle true with lastResult := none })
      (by rw [nodes_used]; rfl) rfl).trans answer
  have fired_used : (used.update [doneView]).firings = [.rule () "C_is_complete" 1] := by
    rw [update_firings wf_used.before, nodes_used, List.mapIdx_singleton, callsOf, verdict_used,
      behaviorCalls, behaviorListeners_of_renewed rules, unheard]
    rfl
  refine ⟨fired_used, fired, ?_⟩
  intro equal
  have reported : (used.update [doneView]).firings = (new.update [doneView]).firings :=
    congrArg RuleReport.firings (List.cons.inj equal).1
  rw [fired_used, fired] at reported
  simp at reported

end Rulebook

end TouchIntent
