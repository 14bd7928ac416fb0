import TouchIntent.Proofs.Rule.Checks
import TouchIntent.Proofs.Rule.Run

/-!
# When listeners are called

Whenever a node is checked and holds, its listeners are called: each of them once, in the order in
which they were attached and under the labels that they were registered with, and each is told for
how many checks in a row the node has held before. The main statement of this module says so of
every operation of every run. It is about the history of a node, that is, what the checks of the
node have found in the run so far, and not about the counter that the node keeps.
-/

namespace TouchIntent

variable {R ν : Type}

/-- The operation begins a cycle. -/
def RuleOp.isCycle : RuleOp R ν → Bool
  | update _ => true
  | _ => false

/-- How many of the last outcomes in a row are positive. -/
def streakOf (history : List Bool) : Nat := (history.reverse.takeWhile id).length

theorem streakOf_nil : streakOf [] = 0 := rfl

theorem streakOf_concat (history : List Bool) (outcome : Bool) :
    streakOf (history ++ [outcome]) = if outcome then streakOf history + 1 else 0 := by
  cases outcome <;> simp [streakOf]

theorem streakOf_le_length (history : List Bool) : streakOf history ≤ history.length := by
  have prefixed := (List.takeWhile_prefix (l := history.reverse) id).length_le
  simpa [streakOf] using prefixed

/-- A streak begins where the last outcome, if there is one, is negative. -/
theorem streakOf_eq_zero_iff (history : List Bool) :
    streakOf history = 0 ↔ history.getLast? ≠ some true := by
  induction history using List.reverseRecOn with
  | nil => simp [streakOf_nil]
  | append_singleton past outcome ih =>
    rw [streakOf_concat, List.getLast?_concat]
    cases outcome <;> simp

namespace RuleNode

/-- What a node keeps, given what its checks have found, the listeners that were attached to it and
how many cycles have begun: a node is checked once in a cycle, and may be checked before the
first one. -/
structure Records (n : RuleNode R ν) (history : List Bool) (attached : List (String × ν))
    (cycles : Nat) : Prop where
  listeners : n.listeners = attached
  checkCount : n.checkCount = history.length
  streak : streakOf history = if n.holds then n.streak + 1 else 0
  bound : history.length + (if n.isChecked then 0 else 1) ≤ cycles + 1

/-- The node has been added and nothing has been done with it. -/
def IsNew (n : RuleNode R ν) : Prop := n = { label := n.label, kind := n.kind }

variable {n : RuleNode R ν} {history : List Bool} {attached : List (String × ν)} {cycles : Nat}

theorem IsNew.records (new : n.IsNew) (cycles : Nat) : n.Records [] [] cycles := by
  rw [new]
  constructor <;> simp [streakOf_nil]

namespace Records

theorem attach (records : n.Records history attached cycles) (entry : String × ν) :
    { n with listeners := n.listeners ++ [entry] }.Records history (attached ++ [entry])
      cycles where
  listeners := by rw [records.listeners]
  checkCount := records.checkCount
  streak := records.streak
  bound := records.bound

theorem remember (records : n.Records history attached cycles) (result : Option CheckResult) :
    { n with lastResult := result }.Records history attached cycles where
  listeners := records.listeners
  checkCount := records.checkCount
  streak := records.streak
  bound := records.bound

/-- A cycle begins. -/
theorem start (records : n.Records history attached cycles) :
    { n with isChecked := false }.Records history attached (cycles + 1) where
  listeners := records.listeners
  checkCount := records.checkCount
  streak := records.streak
  bound := by
    have before := records.bound
    simp only [Bool.false_eq_true, if_false]
    omega

/-- A node that has not been checked in this cycle is checked. -/
theorem settle (records : n.Records history attached cycles) (unchecked : n.isChecked = false)
    (holds : Bool) : (n.settle holds).Records (history ++ [holds]) attached cycles where
  listeners := records.listeners
  checkCount := by simp [RuleNode.settle, records.checkCount]
  streak := by
    rw [streakOf_concat, records.streak]
    cases positive : n.holds <;> cases holds <;> simp [RuleNode.settle, positive]
  bound := by
    have before := records.bound
    simp only [unchecked, Bool.false_eq_true, if_false] at before
    simpa [RuleNode.settle] using before

/-- A node that holds tells its listeners how often in a row it held before the last check. -/
theorem calls_eq {outcome : Bool} (records : n.Records (history ++ [outcome]) attached cycles) :
    n.calls = if n.holds then
      attached.map fun entry => .rule entry.2 entry.1 (streakOf history) else [] := by
  have streak := records.streak
  rw [streakOf_concat] at streak
  rw [calls, records.listeners]
  cases positive : n.holds with
  | false => rfl
  | true =>
    cases outcome with
    | false => simp [positive] at streak
    | true =>
      have same : streakOf history = n.streak := by simpa [positive] using streak
      rw [same]

end Records

end RuleNode

namespace Rulebook

/-- A node that was not there before is new. -/
def AddsNew (book book' : Rulebook R ν) : Prop :=
  ∀ (i : Nat) (n : RuleNode R ν), book'.nodes[i]? = some n → book.nodes[i]? = some n ∨ n.IsNew

theorem AddsNew.refl (book : Rulebook R ν) : book.AddsNew book := fun _ _ found => .inl found

theorem AddsNew.trans {book₁ book₂ book₃ : Rulebook R ν} (first : book₁.AddsNew book₂)
    (second : book₂.AddsNew book₃) : book₁.AddsNew book₃ := by
  intro i n found
  rcases second i n found with before | new
  · exact first i n before
  · exact .inr new

theorem addsNew_node (book : Rulebook R ν) (label : String) (kind : NodeKind R) :
    book.AddsNew (book.node label kind).1 := by
  intro i n found
  unfold Rulebook.node at found
  cases indexed : book.index.lookup label with
  | some j =>
    simp only [indexed] at found
    exact .inl found
  | none =>
    simp only [indexed] at found
    rcases getElem?_push.1 found with found | ⟨-, rfl⟩
    · exact .inl found
    · exact .inr rfl

/-- Interning adds new nodes only. -/
theorem addsNew_intern (book : Rulebook R ν) (expr : RuleExpr R) :
    book.AddsNew (book.intern expr).1 :=
  intern_of_node AddsNew.refl AddsNew.trans addsNew_node book expr

/-- What the nodes of a rulebook keep, given the history of each node, the listeners that were
attached to it and how many cycles have begun. -/
structure Journal (book : Rulebook R ν) (history : Nat → List Bool)
    (attached : Nat → List (String × ν)) (cycles : Nat) : Prop where
  absent : ∀ i : Nat, book.nodes[i]? = none → history i = [] ∧ attached i = []
  present : ∀ (i : Nat) (n : RuleNode R ν), book.nodes[i]? = some n →
    n.Records (history i) (attached i) cycles

theorem journal_empty (behaviors : List String) :
    (empty behaviors : Rulebook R ν).Journal (fun _ => []) (fun _ => []) 0 where
  absent := fun _ _ => ⟨rfl, rfl⟩
  present := by
    intro i n found
    simp [empty] at found

namespace Journal

variable {book : Rulebook R ν} {history : Nat → List Bool} {attached : Nat → List (String × ν)}
  {cycles : Nat}

theorem register (journal : book.Journal history attached cycles) (rule : Rule R) :
    (book.register rule).1.Journal history attached cycles where
  absent := by
    intro i absent
    apply journal.absent
    rw [register_nodes, List.getElem?_eq_none_iff] at absent
    exact List.getElem?_eq_none (Nat.le_trans (extends_intern book rule.expr).length_le absent)
  present := by
    intro i n found
    rw [register_nodes] at found
    cases before : book.nodes[i]? with
    | none =>
      obtain ⟨no_history, no_listeners⟩ := journal.absent i before
      rcases addsNew_intern book rule.expr i n found with known | new
      · rw [before] at known
        cases known
      · rw [no_history, no_listeners]
        exact new.records cycles
    | some m =>
      have within := (List.getElem?_eq_some_iff.1 before).1
      rw [(extends_intern book rule.expr).getElem? within] at found
      exact journal.present i n found

/-- A change that keeps the number of nodes and all that is recorded of them. -/
theorem of_nodes_eq (journal : book.Journal history attached cycles) {book' : Rulebook R ν}
    (same : book'.nodes = book.nodes) : book'.Journal history attached cycles where
  absent := fun i absent => journal.absent i (same ▸ absent)
  present := fun i n found => journal.present i n (same ▸ found)

/-- A change of all nodes alike. -/
theorem map (journal : book.Journal history attached cycles) {cycles' : Nat}
    {change : RuleNode R ν → RuleNode R ν}
    (keeps : ∀ (n : RuleNode R ν) {h a}, n.Records h a cycles → (change n).Records h a cycles') :
    { book with nodes := book.nodes.map change }.Journal history attached cycles' where
  absent := by
    intro i absent
    exact journal.absent i (by simpa using absent)
  present := by
    intro i n' found
    rw [List.getElem?_map, Option.map_eq_some_iff] at found
    obtain ⟨n, original, rfl⟩ := found
    exact keeps n (journal.present i n original)

theorem startCycle (journal : book.Journal history attached cycles) :
    book.startCycle.Journal history attached (cycles + 1) :=
  journal.map fun _ _ _ records => records.start

theorem reset (journal : book.Journal history attached cycles) :
    book.reset.Journal history attached cycles :=
  (journal.map fun _ _ _ records => records.remember none).of_nodes_eq rfl

theorem addListener (journal : book.Journal history attached cycles) (wf : book.WellFormed)
    (label : String) (listener : ν) : ((book.addListener label listener).getD book).Journal history
      (fun i => attached i ++ if book.node? label = some i then [(label, listener)] else [])
      cycles := by
  rw [Rulebook.addListener]
  cases named : book.node? label with
  | none => simpa using journal
  | some node =>
    have within := wf.node?_lt named
    refine ⟨?_, ?_⟩
    · intro i absent
      have beyond : book.nodes[i]? = none := by simpa [modifyNode] using absent
      have other : node ≠ i := by
        rintro rfl
        simp [within] at beyond
      simpa [other] using journal.absent i beyond
    · intro i n' found
      simp only [Option.map_some, Option.getD_some, modifyNode, List.getElem?_modify,
        Option.map_eq_map, Option.map_eq_some_iff] at found
      obtain ⟨n, original, rfl⟩ := found
      have records := journal.present i n original
      by_cases chosen : node = i
      · simpa [chosen] using records.attach (label, listener)
      · simpa [chosen] using records

/-- Checking nodes prolongs their histories. -/
theorem checks {c c' : Cycle R ν} {checked : List Nat}
    (journal : c.book.Journal history attached cycles) (checks : c.Checks c' checked) :
    c'.book.Journal (fun i => history i ++ if i ∈ checked then [c'.holds i] else []) attached
      cycles where
  absent := by
    intro i absent
    by_cases member : i ∈ checked
    · obtain ⟨n, -, -, result, holds, after⟩ := checks.settled i member
      rw [after] at absent
      cases absent
    · rw [checks.kept i member] at absent
      simpa [member] using journal.absent i absent
  present := by
    intro i n' found
    by_cases member : i ∈ checked
    · obtain ⟨n, original, unchecked, result, holds, after⟩ := checks.settled i member
      rw [after] at found
      obtain rfl := Option.some.inj found
      have outcome : c'.holds i = holds := by
        simp [Cycle.holds, after, RuleNode.settle]
      rw [if_pos member, outcome]
      exact ((journal.present i n original).remember result).settle unchecked holds
    · rw [checks.kept i member] at found
      rw [if_neg member, List.append_nil]
      exact journal.present i n' found

end Journal

variable [Scalar R]

/-- How often a node has been checked. -/
def checkCountOf (book : Rulebook R ν) (i : Nat) : Nat :=
  ((book.nodes[i]?).map RuleNode.checkCount).getD 0

/-- What an operation finds when it checks a node, if it does. -/
def outcome (i : Nat) (book : Rulebook R ν) (op : RuleOp R ν) : List Bool :=
  if (book.perform op).book.checkCountOf i = book.checkCountOf i then []
  else [(book.perform op).holds i]

/-- The listeners that an operation attaches to a node, with the labels that they are registered
with. -/
def attachment (i : Nat) (book : Rulebook R ν) : RuleOp R ν → List (String × ν)
  | .addListener label listener =>
    if book.node? label = some i then [(label, listener)] else []
  | .addRuleWithListener statement listener =>
    match book.addRule statement with
    | (added, .ok label) => if added.node? label = some i then [(label, listener)] else []
    | (_, .error _) => []
  | _ => []

/-- The rulebook as an operation has it when it begins to check nodes. -/
def prepared (book : Rulebook R ν) : RuleOp R ν → Rulebook R ν
  | .update _ => book.startCycle
  | .evaluate _ _ => book
  | op => (book.perform op).book

/-- An operation checks nodes, or it attaches a listener. -/
theorem checks_perform (book : Rulebook R ν) (op : RuleOp R ν) :
    ∃ checked, Cycle.Checks ⟨book.prepared op, []⟩ (book.perform op) checked ∧
      ∀ i ∈ checked, attachment i book op = [] := by
  cases op with
  | update views =>
    obtain ⟨checked, checks⟩ :=
      Cycle.checks_foldl_check views (List.range book.nodes.length) ⟨book.startCycle, []⟩
    exact ⟨checked, checks, fun _ _ => rfl⟩
  | evaluate label views =>
    rw [perform, evaluate]
    cases book.node? label with
    | none => exact ⟨[], .refl _, by simp⟩
    | some node =>
      obtain ⟨checked, checks, -⟩ := Cycle.checks_check views node ⟨book, []⟩
      exact ⟨checked, checks, fun _ _ => rfl⟩
  | addRule | addRuleWithListener | addListener | setBehaviorListener | reset =>
    exact ⟨[], .refl _, by simp⟩

namespace Journal

variable {book : Rulebook R ν} {history : Nat → List Bool} {attached : Nat → List (String × ν)}
  {cycles : Nat}

omit [Scalar R] in
theorem checkCountOf (journal : book.Journal history attached cycles) (i : Nat) :
    book.checkCountOf i = (history i).length := by
  rw [Rulebook.checkCountOf]
  cases found : book.nodes[i]? with
  | none => simp [journal.absent i found]
  | some n => simp [(journal.present i n found).checkCount]

theorem withAdded (journal : book.Journal history attached cycles) (op : RuleOp R ν) :
    (book.withAdded op).Journal history attached cycles := by
  rw [Rulebook.withAdded]
  cases book.addedRule? op with
  | none => exact journal
  | some rule => exact journal.register rule

/-- An operation attaches a listener and begins a cycle, before it checks nodes. -/
theorem prepared (journal : book.Journal history attached cycles) (wf : book.WellFormed)
    (op : RuleOp R ν) :
    (book.prepared op).Journal history (fun i => attached i ++ attachment i book op)
      (cycles + if op.isCycle then 1 else 0) := by
  have nothing (i : Nat) : attached i ++ [] = attached i := List.append_nil _
  cases op with
  | addRule statement =>
    simp only [Rulebook.prepared, attachment, nothing, perform_addRule]
    exact journal.withAdded _
  | addRuleWithListener statement listener =>
    have registered := journal.withAdded (.addRuleWithListener statement listener)
    have wf' := wellFormed_withAdded wf (.addRuleWithListener statement listener)
    rw [withAdded_eq rfl] at registered wf'
    simp only [Rulebook.prepared, attachment]
    rcases outcome : book.addRule statement with ⟨added, error | label⟩
    · rw [perform_addRuleWithListener_of_rejected outcome]
      simpa [RuleOp.isCycle] using journal
    · rw [outcome] at registered wf'
      rw [perform_addRuleWithListener_of_ok outcome]
      simpa [RuleOp.isCycle] using registered.addListener wf' label listener
  | addListener label listener => exact journal.addListener wf label listener
  | setBehaviorListener behavior listener =>
    obtain ⟨listeners, same⟩ := book.perform_setBehaviorListener behavior listener
    simp only [Rulebook.prepared, attachment, nothing, same]
    exact (journal.withAdded _).of_nodes_eq rfl
  | update views =>
    simp only [Rulebook.prepared, attachment, nothing]
    exact journal.startCycle
  | evaluate label views =>
    simp only [Rulebook.prepared, attachment, nothing]
    exact journal
  | reset =>
    simp only [Rulebook.prepared, attachment, nothing]
    exact journal.reset

/-- The nodes that an operation checks are those that it counts a check of. -/
theorem checkCountOf_perform (journal : book.Journal history attached cycles) (wf : book.WellFormed)
    {op : RuleOp R ν} {checked : List Nat}
    (checks : Cycle.Checks ⟨book.prepared op, []⟩ (book.perform op) checked) (i : Nat) :
    (book.perform op).book.checkCountOf i =
      book.checkCountOf i + if i ∈ checked then 1 else 0 := by
  rw [((journal.prepared wf op).checks checks).checkCountOf, journal.checkCountOf]
  by_cases member : i ∈ checked <;> simp [member]

theorem outcome_eq (journal : book.Journal history attached cycles) (wf : book.WellFormed)
    {op : RuleOp R ν} {checked : List Nat}
    (checks : Cycle.Checks ⟨book.prepared op, []⟩ (book.perform op) checked) (i : Nat) :
    outcome i book op = if i ∈ checked then [(book.perform op).holds i] else [] := by
  rw [outcome, journal.checkCountOf_perform wf checks]
  by_cases member : i ∈ checked <;> simp [member]

/-- What an operation does is recorded. -/
theorem perform (journal : book.Journal history attached cycles) (wf : book.WellFormed)
    (op : RuleOp R ν) :
    (book.perform op).book.Journal (fun i => history i ++ outcome i book op)
      (fun i => attached i ++ attachment i book op) (cycles + if op.isCycle then 1 else 0) := by
  obtain ⟨checked, checks, -⟩ := checks_perform book op
  simp only [journal.outcome_eq wf checks]
  exact (journal.prepared wf op).checks checks

end Journal

/-- What the checks of a node have found in a run, from the first to the last. -/
def outcomes (behaviors : List String) (ops : List (RuleOp R ν)) (i : Nat) : List Bool :=
  (empty behaviors : Rulebook R ν).chronicle (outcome i) ops

/-- The listeners that were attached to a node in a run, from the first to the last. -/
def attachments (behaviors : List String) (ops : List (RuleOp R ν)) (i : Nat) :
    List (String × ν) :=
  (empty behaviors : Rulebook R ν).chronicle (attachment i) ops

/-- After every run the nodes keep what the run has recorded of them. -/
theorem journal_performAll (behaviors : List String) (ops : List (RuleOp R ν)) :
    ((empty behaviors).performAll ops).Journal (outcomes behaviors ops) (attachments behaviors ops)
      (ops.countP RuleOp.isCycle) := by
  induction ops using List.reverseRecOn with
  | nil => exact journal_empty behaviors
  | append_singleton past op ih =>
    have wf : ((empty behaviors).performAll past).WellFormed :=
      wellFormed_performAll (wellFormed_empty behaviors) past
    have recorded := ih.perform wf op
    have history (i : Nat) : outcomes behaviors (past ++ [op]) i =
        outcomes behaviors past i ++ outcome i ((empty behaviors).performAll past) op :=
      chronicle_concat _ _ _ _
    have attached (i : Nat) : attachments behaviors (past ++ [op]) i =
        attachments behaviors past i ++ attachment i ((empty behaviors).performAll past) op :=
      chronicle_concat _ _ _ _
    rw [performAll_concat, funext history, funext attached, List.countP_append,
      List.countP_singleton]
    exact recorded

/-- In every run, an operation calls the listeners of the nodes that it checks, and of no others.
They are called node by node, in the order of the checks. If the node holds, every listener that has
been attached to it is called once, in the order of attachment and under its own label, and is told
for how many checks in a row the node has held before; if not, none is. So a rising edge is told
exactly if the check before this one found that the node does not hold, or if there was none. The
number told never exceeds the number of cycles. -/
theorem listeners_called (behaviors : List String) (past : List (RuleOp R ν)) (op : RuleOp R ν) :
    let book : Rulebook R ν := (empty behaviors).performAll past
    let after := book.perform op
    ∃ checked : List Nat, checked.Nodup ∧
      (∀ i, after.book.checkCountOf i = book.checkCountOf i + if i ∈ checked then 1 else 0) ∧
      after.firings.filter Firing.isOfRule = checked.flatMap (fun i =>
        if after.holds i then (attachments behaviors past i).map fun entry =>
          .rule entry.2 entry.1 (streakOf (outcomes behaviors past i))
        else []) ∧
      ∀ i ∈ checked,
        (isRisingEdge (streakOf (outcomes behaviors past i)) = true ↔
          (outcomes behaviors past i).getLast? ≠ some true) ∧
        streakOf (outcomes behaviors past i) ≤ (past ++ [op]).countP RuleOp.isCycle := by
  intro book after
  have wf : book.WellFormed := wellFormed_performAll (wellFormed_empty behaviors) past
  have journal : book.Journal _ _ _ := journal_performAll behaviors past
  obtain ⟨checked, checks, attachedNow⟩ := checks_perform book op
  have checkedJournal := (journal.prepared wf op).checks checks
  refine ⟨checked, checks.nodup, journal.checkCountOf_perform wf checks, ?_, ?_⟩
  · rw [checks.calls]
    simp only [List.filter_nil, List.nil_append]
    apply List.flatMap_congr
    intro i member
    obtain ⟨n, -, -, result, holds, found⟩ := checks.settled i member
    have records := checkedJournal.present i _ found
    rw [if_pos member, attachedNow i member, List.append_nil] at records
    rw [Cycle.callsAt, found, Option.map_some, Option.getD_some, records.calls_eq]
    simp [after, Cycle.holds, found]
  · intro i member
    refine ⟨?_, ?_⟩
    · rw [isRisingEdge, beq_iff_eq]
      exact streakOf_eq_zero_iff _
    · obtain ⟨n, -, -, result, holds, found⟩ := checks.settled i member
      have bound := (checkedJournal.present i _ found).bound
      have short := streakOf_le_length (outcomes behaviors past i)
      have settled : (({ n with lastResult := result } : RuleNode R ν).settle holds).isChecked =
        true := rfl
      rw [if_pos member, settled, if_pos rfl, List.length_append, List.length_singleton] at bound
      rw [List.countP_append, List.countP_singleton]
      omega

end Rulebook

end TouchIntent
