import Mathlib
import TouchIntent.Proofs.Rule.Meaning
import TouchIntent.Proofs.Rule.Text

/-!
# Shared nodes

Subexpressions of one canonical label share a node. A canonical label has no brackets, so two
expressions that say different things may have the same one; the node then says what the expression
says that came first. The main statement of this module is that this is all that can go wrong: the
nodes of a rulebook say what the expressions say that were interned to them, exactly if no two
expressions of one label say different things.
-/

namespace TouchIntent

variable {R ν : Type}

namespace Rulebook

/-- Every part of an expression, with the node that it is interned to. -/
def internings (book : Rulebook R ν) : RuleExpr R → List (RuleExpr R × Nat)
  | .ask behavior name question =>
    [(.ask behavior name question, (book.intern (.ask behavior name question)).2)]
  | .ref rule => [(.ref rule, rule)]
  | .not operand => (.not operand, (book.intern (.not operand)).2) :: book.internings operand
  | .binary op left right =>
    (.binary op left right, (book.intern (.binary op left right)).2) ::
      (book.internings left ++ (book.intern left).1.internings right)
  | .qualified operand word text qualifier =>
    (.qualified operand word text qualifier,
      (book.intern (.qualified operand word text qualifier)).2) :: book.internings operand

theorem mem_internings_self (book : Rulebook R ν) (expr : RuleExpr R) :
    (expr, (book.intern expr).2) ∈ book.internings expr := by
  cases expr <;> simp [internings, intern]

/-- An expression that has been interned, and its node. -/
structure Entered (book : Rulebook R ν) (p : RuleExpr R × Nat) : Prop where
  known : p.1.Scoped book
  within : p.2 < book.nodes.length
  label : book.labelOf p.2 = p.1.label book.labelOf

variable {book book' : Rulebook R ν}

theorem Entered.extend {p : RuleExpr R × Nat} (entered : book.Entered p)
    (extends' : book.Extends book') : book'.Entered p where
  known := extends'.stays_scoped entered.known
  within := Nat.lt_of_lt_of_le entered.within extends'.length_le
  label := by
    rw [extends'.labelOf entered.within, entered.label, extends'.label_eq entered.known]

theorem entered_intern (wf : book.WellFormed) {expr : RuleExpr R} (known : expr.Scoped book) :
    (book.intern expr).1.Entered (expr, (book.intern expr).2) := by
  have interned := intern_spec wf known
  exact ⟨interned.extends_book.stays_scoped known, interned.within,
    interned.label.trans (interned.extends_book.label_eq known).symm⟩

/-- All parts of an expression are entered with it. -/
theorem entered_internings (wf : book.WellFormed) {expr : RuleExpr R} (known : expr.Scoped book) :
    ∀ p ∈ book.internings expr, (book.intern expr).1.Entered p := by
  have whole := entered_intern wf known
  induction expr generalizing book with
  | ask behavior name question =>
    intro p member
    rw [internings, List.mem_singleton] at member
    exact member ▸ whole
  | ref rule =>
    intro p member
    rw [internings, List.mem_singleton] at member
    exact member ▸ whole
  | not operand ih =>
    intro p member
    rcases List.mem_cons.1 member with rfl | member
    · exact whole
    · exact (ih wf known (entered_intern wf known) p member).extend (extends_node _ _ _)
  | binary op left right ihl ihr =>
    have first := intern_spec wf known.1
    have right_known := first.extends_book.stays_scoped known.2
    have second := intern_spec first.wellFormed right_known
    intro p member
    rcases List.mem_cons.1 member with rfl | member
    · exact whole
    · rcases List.mem_append.1 member with member | member
      · exact (ihl wf known.1 (entered_intern wf known.1) p member).extend
          (second.extends_book.trans (extends_node _ _ _))
      · exact (ihr first.wellFormed right_known (entered_intern first.wellFormed right_known) p
          member).extend (extends_node _ _ _)
  | qualified operand word text qualifier ih =>
    intro p member
    rcases List.mem_cons.1 member with rfl | member
    · exact whole
    · exact (ih wf known.1 (entered_intern wf known.1) p member).extend (extends_node _ _ _)

/-- A node of this kind is what the expression is computed by, its operands having been interned to
the nodes that are listed for them. -/
inductive Explains (interned : List (RuleExpr R × Nat)) : RuleExpr R → NodeKind R → Prop where
  | ask (behavior : Nat) (name : String) (question : Question) :
    Explains interned (.ask behavior name question) (.ask behavior question)
  | not {operand : RuleExpr R} {o : Nat} (member : (operand, o) ∈ interned) :
    Explains interned (.not operand) (.not o)
  | binary (op : BinaryOp) {left right : RuleExpr R} {l r : Nat}
    (left_member : (left, l) ∈ interned) (right_member : (right, r) ∈ interned) :
    Explains interned (.binary op left right) (.binary op l r)
  | qualified {operand : RuleExpr R} {o : Nat} (word : QualifierWord) (text : String)
    (qualifier : Qualifier R) (member : (operand, o) ∈ interned) :
    Explains interned (.qualified operand word text qualifier) (.qualified o qualifier)

theorem Explains.mono {interned interned' : List (RuleExpr R × Nat)} {expr : RuleExpr R}
    {kind : NodeKind R} (explains : Explains interned expr kind)
    (more : ∀ p ∈ interned, p ∈ interned') : Explains interned' expr kind := by
  cases explains with
  | ask behavior name question => exact .ask behavior name question
  | not member => exact .not (more _ member)
  | binary op left_member right_member =>
    exact .binary op (more _ left_member) (more _ right_member)
  | qualified word text qualifier member => exact .qualified word text qualifier (more _ member)

/-- The node is as it was added, for one of the listed expressions. -/
structure Founded (interned : List (RuleExpr R × Nat)) (i : Nat) (n : RuleNode R ν) : Prop where
  fresh : n.lastResult = none
  founder : ∃ expr, (expr, i) ∈ interned ∧ Explains interned expr n.kind

theorem Founded.mono {interned interned' : List (RuleExpr R × Nat)} {i : Nat} {n : RuleNode R ν}
    (founded : Founded interned i n) (more : ∀ p ∈ interned, p ∈ interned') :
    Founded interned' i n := by
  obtain ⟨expr, member, explains⟩ := founded.founder
  exact ⟨founded.fresh, expr, more _ member, explains.mono more⟩

/-- One node more, on top of those that the operands needed. -/
theorem founded_node {interned : List (RuleExpr R × Nat)} {label : String} {kind : NodeKind R}
    {expr : RuleExpr R} (explains : Explains interned expr kind)
    (member : (expr, (book.node label kind).2) ∈ interned) {i : Nat}
    (inner : ∀ n, book.nodes[i]? = some n → Founded interned i n) :
    ∀ n, (book.node label kind).1.nodes[i]? = some n → Founded interned i n := by
  intro n found
  by_cases within : i < book.nodes.length
  · rw [(extends_node book label kind).getElem? within] at found
    exact inner n found
  · obtain ⟨rfl, rfl, fresh⟩ := added_by_node found (by omega)
    exact ⟨fresh, expr, member, explains⟩

/-- Every node that interning adds has been added for a part of the expression. -/
theorem founded_intern (book : Rulebook R ν) (expr : RuleExpr R) {i : Nat}
    (added : book.nodes.length ≤ i) :
    ∀ n, (book.intern expr).1.nodes[i]? = some n → Founded (book.internings expr) i n := by
  have none_before : ∀ {book : Rulebook R ν} {interned : List (RuleExpr R × Nat)},
      book.nodes.length ≤ i → ∀ n, book.nodes[i]? = some n → Founded interned i n := by
    intro book interned beyond n found
    have := (List.getElem?_eq_some_iff.1 found).1
    omega
  have self := mem_internings_self book expr
  induction expr generalizing book with
  | ask behavior name question =>
    exact founded_node (.ask behavior name question) self (none_before added)
  | ref rule => exact none_before added
  | not operand ih =>
    have inner := mem_internings_self book operand
    refine founded_node (.not (List.mem_cons_of_mem _ inner)) self ?_
    intro n found
    exact (ih book added inner n found).mono fun p member => List.mem_cons_of_mem _ member
  | binary op left right ihl ihr =>
    have first := mem_internings_self book left
    have second := mem_internings_self (book.intern left).1 right
    refine founded_node (.binary op (List.mem_cons_of_mem _ (List.mem_append_left _ first))
      (List.mem_cons_of_mem _ (List.mem_append_right _ second))) self ?_
    intro n found
    by_cases within : i < (book.intern left).1.nodes.length
    · rw [(extends_intern _ right).getElem? within] at found
      exact (ihl book added first n found).mono fun p member =>
        List.mem_cons_of_mem _ (List.mem_append_left _ member)
    · exact (ihr _ (by omega) second n found).mono fun p member =>
        List.mem_cons_of_mem _ (List.mem_append_right _ member)
  | qualified operand word text qualifier ih =>
    have inner := mem_internings_self book operand
    refine founded_node (.qualified word text qualifier (List.mem_cons_of_mem _ inner)) self ?_
    intro n found
    exact (ih book added inner n found).mono fun p member => List.mem_cons_of_mem _ member

end Rulebook

/-- A rulebook, with every expression that was interned when its rules were added. -/
structure Registry (R ν : Type) where
  book : Rulebook R ν
  interned : List (RuleExpr R × Nat)

namespace Registry

open Rulebook

variable [Scalar R]

/-- Adds a rule. The expressions of a rule that is rejected are not kept. -/
def add (g : Registry R ν) (statement : String) : Registry R ν :=
  match g.book.addRule statement, Rule.read g.book.scope statement.toList with
  | (book, .ok _), .ok rule => ⟨book, g.interned ++ g.book.internings rule.expr⟩
  | (book, _), _ => { g with book }

/-- The rulebook about the given behaviours to which rules were added one after the other. -/
def ofStatements (behaviors statements : List String) : Registry R ν :=
  statements.foldl add ⟨Rulebook.empty behaviors, []⟩

structure Sound (g : Registry R ν) : Prop where
  wellFormed : g.book.WellFormed
  entered : ∀ p ∈ g.interned, g.book.Entered p
  founded : ∀ (i : Nat) (n : RuleNode R ν), g.book.nodes[i]? = some n → Founded g.interned i n

theorem add_of_read {g : Registry R ν} {statement : String} {expr : RuleExpr R}
    (read : Rule.read g.book.scope statement.toList = .ok ⟨none, expr⟩) :
    g.add statement = ⟨(g.book.intern expr).1, g.interned ++ g.book.internings expr⟩ := by
  simp only [add, addRule, read, Option.bind_none, register]

theorem Sound.add {g : Registry R ν} (sound : g.Sound) (statement : String) :
    (g.add statement).Sound := by
  rcases outcome : g.book.addRule statement with ⟨book, error | label⟩
  · have rejected : g.add statement = g := by
      simp only [Registry.add, outcome, addRule_eq_error outcome]
    rw [rejected]
    exact sound
  · obtain ⟨rule, read, rfl, -⟩ := addRule_eq_ok outcome
    have accepted : g.add statement =
        ⟨(g.book.register rule).1, g.interned ++ g.book.internings rule.expr⟩ := by
      simp only [Registry.add, outcome, read]
    rw [accepted]
    have known := scoped_of_read sound.wellFormed read
    obtain ⟨wf, extends', nodes⟩ := register_spec sound.wellFormed known
    refine ⟨wf, fun p member => ?_, fun i n found => ?_⟩
    · rcases List.mem_append.1 member with member | member
      · exact (sound.entered p member).extend ((extends_intern _ _).trans extends')
      · exact (entered_internings sound.wellFormed known p member).extend extends'
    · rw [nodes] at found
      by_cases within : i < g.book.nodes.length
      · rw [(extends_intern _ _).getElem? within] at found
        exact (sound.founded i n found).mono fun p member => List.mem_append_left _ member
      · exact (founded_intern g.book rule.expr (by omega) n found).mono
          fun p member => List.mem_append_right _ member

theorem sound_ofStatements (behaviors statements : List String) :
    (ofStatements behaviors statements : Registry R ν).Sound := by
  have start : Sound (⟨Rulebook.empty behaviors, []⟩ : Registry R ν) :=
    ⟨wellFormed_empty behaviors, by simp, by simp [Rulebook.empty]⟩
  unfold ofStatements
  generalize (⟨Rulebook.empty behaviors, []⟩ : Registry R ν) = g at start
  induction statements generalizing g with
  | nil => exact start
  | cons statement rest ih => exact ih _ (start.add statement)

omit [Scalar R] in
theorem Sound.isFresh {g : Registry R ν} (sound : g.Sound) : g.book.IsFresh := by
  intro n member
  obtain ⟨i, found⟩ := List.mem_iff_getElem?.1 member
  exact (sound.founded i n found).fresh

/-- A view of a behaviour that nothing is known about. -/
def quietView : BehaviorView R :=
  ⟨"", Scalar.zero, [], [], false, 0, Scalar.zero, Scalar.zero, 0, ⟨[], [], []⟩⟩

/-- A view of a behaviour that is just completed and has just become most likely. -/
def doneView : BehaviorView R :=
  ⟨"", Scalar.zero, [0], [.up], true, 0, Scalar.zero, Scalar.zero, 1,
    ⟨[⟨true, true, []⟩], [[true]], []⟩⟩

/-- Views in which every question about one behaviour is answered with yes, and every other one
with no. -/
def spotlight (behavior : Nat) : List (BehaviorView R) :=
  List.replicate behavior quietView ++ [doneView]

theorem verdict_spotlight_self (q : Question) (behavior : Nat) :
    q.verdict (spotlight (R := R) behavior) behavior none = true := by
  have view : (spotlight (R := R) behavior)[behavior]? = some doneView := by
    simp [spotlight]
  rw [Question.verdict, view]
  rcases q with ⟨_ | _, _ | _⟩ <;> rfl

theorem verdict_spotlight_other (q : Question) {behavior other : Nat} (differ : other ≠ behavior) :
    q.verdict (spotlight (R := R) behavior) other none = false := by
  rw [Question.verdict]
  rcases Nat.lt_or_gt_of_ne differ with less | greater
  · have view : (spotlight (R := R) behavior)[other]? = some quietView := by
      simp [spotlight, List.getElem?_append_left, less]
    rw [view]
    rfl
  · have view : (spotlight (R := R) behavior)[other]? = none := by
      simp [spotlight]
      omega
    rw [view]
    rfl

variable {g : Registry R ν} (sound : g.Sound)
include sound

/-- A node that is no question looks at a behaviour only if one of its operands does. -/
theorem Sound.blind_of_operands {behavior i : Nat} {n : RuleNode R ν}
    (found : g.book.nodes[i]? = some n) (noQuestion : n.kind.isQuestion = false)
    (operands : ∀ o ∈ n.kind.operands,
      g.book.resultAfter [] (spotlight behavior) o = g.book.resultAfter [] [] o) :
    g.book.resultAfter [] (spotlight behavior) i = g.book.resultAfter [] [] i := by
  have before := sound.wellFormed.before
  have fresh := sound.isFresh
  cases kind : n.kind with
  | ask asked question =>
    rw [kind] at noQuestion
    cases noQuestion
  | not o =>
    rw [resultAfter_not before fresh _ _ found kind, resultAfter_not before fresh _ _ found kind,
      operands o (by simp [kind, NodeKind.operands])]
  | binary op l r =>
    rw [resultAfter_binary before fresh _ _ found kind,
      resultAfter_binary before fresh _ _ found kind,
      operands l (by simp [kind, NodeKind.operands]),
      operands r (by simp [kind, NodeKind.operands])]
  | qualified o qualifier =>
    rw [resultAfter_qualified before fresh _ _ found kind,
      resultAfter_qualified before fresh _ _ found kind,
      operands o (by simp [kind, NodeKind.operands])]
    -- With nothing in view, a question that could be qualified is answered with no.
    cases subject : g.book.subject? o with
    | none => rfl
    | some asked =>
      obtain ⟨m, question, foundm, kindm⟩ := node_of_subject? subject
      rw [resultAfter_ask before fresh _ _ foundm kindm]
      rfl

/-- A node whose label is too short to mention a behaviour does not look at it. -/
theorem Sound.blind {behavior : Nat} {name : String}
    (named : g.book.behaviors.idxOf? name = some behavior) (i : Nat)
    (within : i < g.book.nodes.length)
    (short : (g.book.labelOf i).length < name.length + 12) :
    g.book.resultAfter [] (spotlight behavior) i = g.book.resultAfter [] [] i := by
  have before := sound.wellFormed.before
  have fresh := sound.isFresh
  induction i using Nat.strongRecOn with
  | ind i ih =>
    obtain ⟨n, found⟩ : ∃ n, g.book.nodes[i]? = some n := ⟨_, List.getElem?_eq_getElem within⟩
    have fits := sound.wellFormed.labels i n found
    rw [labelOf_eq found] at short
    by_cases noQuestion : n.kind.isQuestion = false
    · refine sound.blind_of_operands found noQuestion fun o member => ?_
      have earlier := before i n found o member
      have shorter := fits.operand_shorter o member
      exact ih o earlier (by omega) (by omega)
    · obtain ⟨asked, question, kind⟩ := NodeKind.eq_ask noQuestion
      rw [kind] at fits
      obtain ⟨other, known, label⟩ := fits
      have differ : asked ≠ behavior := by
        rintro rfl
        obtain ⟨_, same, -⟩ := List.idxOf?_eq_some_iff.1 named
        obtain ⟨_, same', -⟩ := List.idxOf?_eq_some_iff.1 known
        rw [label, question.length_label, question.length_suffix, ← same', same] at short
        split at short <;> omega
      rw [resultAfter_ask before fresh _ _ found kind, resultAfter_ask before fresh _ _ found kind]
      exact verdict_spotlight_other question differ

/-- If the node of a question always says what the question says, it asks it: any other node of
that label could not see the behaviour. -/
theorem Sound.subject?_eq {operand : RuleExpr R} {o : Nat}
    (entered : g.book.Entered (operand, o)) (asks : operand.isQuestion g.book.scope = true)
    (meant : ∀ past now, g.book.resultAfter past now o = operand.reading g.book past now) :
    g.book.subject? o = operand.subject? g.book := by
  have within : o < g.book.nodes.length := entered.within
  cases operand with
  | ref rule =>
    have same : o = rule := sound.wellFormed.labelOf_inj within entered.known entered.label
    rw [same]
    rfl
  | ask behavior name question =>
    have named : g.book.behaviors.idxOf? name = some behavior := entered.known
    obtain ⟨n, found⟩ : ∃ n, g.book.nodes[o]? = some n := ⟨_, List.getElem?_eq_getElem within⟩
    have fits := sound.wellFormed.labels o n found
    have label : n.label = question.label name := (labelOf_eq found).symm.trans entered.label
    by_cases noQuestion : n.kind.isQuestion = false
    · have long : n.label.length ≤ name.length + 15 := by
        rw [label, question.length_label, question.length_suffix]
        split <;> omega
      have unseen : g.book.resultAfter [] (spotlight behavior) o = g.book.resultAfter [] [] o := by
        refine sound.blind_of_operands found noQuestion fun p member => ?_
        have earlier := sound.wellFormed.before o n found p member
        have shorter := fits.operand_shorter p member
        exact sound.blind named p (by omega) (by omega)
      have lit : g.book.resultAfter [] (spotlight behavior) o = true := by
        rw [meant]
        exact verdict_spotlight_self question behavior
      have dark : g.book.resultAfter [] [] o = false := by
        rw [meant]
        rfl
      rw [unseen, dark] at lit
      cases lit
    · obtain ⟨asked, q, kind⟩ := NodeKind.eq_ask noQuestion
      rw [kind] at fits
      obtain ⟨other, known, label'⟩ := fits
      obtain ⟨rfl, rfl⟩ := Question.label_inj (label.symm.trans label')
      obtain rfl : behavior = asked := Option.some.inj (named.symm.trans known)
      simp [subject?, found, kind, RuleExpr.subject?]
  | not _ | binary _ _ _ | qualified _ _ _ _ => cases asks

/-- If expressions of one label say the same, every node says what the expressions say that were
interned to it. -/
theorem Sound.meaning_of_agreement
    (agree : ∀ p ∈ g.interned, ∀ q ∈ g.interned,
      p.1.label g.book.labelOf = q.1.label g.book.labelOf →
        ∀ past now, p.1.reading g.book past now = q.1.reading g.book past now)
    (i : Nat) {expr : RuleExpr R} (member : (expr, i) ∈ g.interned)
    (past : List (List (BehaviorView R))) (now : List (BehaviorView R)) :
    g.book.resultAfter past now i = expr.reading g.book past now := by
  have before := sound.wellFormed.before
  have fresh := sound.isFresh
  induction i using Nat.strongRecOn generalizing expr past now with
  | ind i ih =>
    have entered := sound.entered (expr, i) member
    obtain ⟨n, found⟩ : ∃ n, g.book.nodes[i]? = some n :=
      ⟨_, List.getElem?_eq_getElem entered.within⟩
    obtain ⟨founder, known, explains⟩ := (sound.founded i n found).founder
    have label := (sound.entered (founder, i) known).label.symm.trans entered.label
    rw [← agree (founder, i) known (expr, i) member label past now]
    have operands := before i n found
    generalize kind : n.kind = k at explains operands
    cases explains with
    | ask behavior name question => exact resultAfter_ask before fresh past now found kind
    | not operand =>
      rw [resultAfter_not before fresh past now found kind,
        ih _ (operands _ (by simp [NodeKind.operands])) operand past now, RuleExpr.reading]
    | binary op left right =>
      rw [resultAfter_binary before fresh past now found kind,
        ih _ (operands _ (by simp [NodeKind.operands])) left past now,
        ih _ (operands _ (by simp [NodeKind.operands])) right past now, RuleExpr.reading]
    | qualified word text qualifier operand =>
      have meant := ih _ (operands _ (by simp [NodeKind.operands])) operand
      have asks := (sound.entered _ known).known.2
      rw [resultAfter_qualified before fresh past now found kind, meant past now,
        sound.subject?_eq (sound.entered _ operand) asks meant, RuleExpr.reading]

end Registry

/-- Adding rules preserves their meaning exactly as far as canonical labels do. Every expression
that was interned, at any depth of any rule, has a node that in every cycle of every run says what
the expression itself says, if and only if no two of these expressions have one label and say
different things in some cycle. -/
theorem intern_preserves_meaning_iff [Scalar R] (behaviors statements : List String) :
    let g : Registry R ν := .ofStatements behaviors statements
    (∀ p ∈ g.interned, ∀ past now,
      g.book.resultAfter past now p.2 = p.1.reading g.book past now) ↔
    ∀ p ∈ g.interned, ∀ q ∈ g.interned, p.1.label g.book.labelOf = q.1.label g.book.labelOf →
      ∀ past now, p.1.reading g.book past now = q.1.reading g.book past now := by
  intro g
  have sound : g.Sound := Registry.sound_ofStatements behaviors statements
  constructor
  · intro meant p memp q memq label past now
    have first := sound.entered p memp
    have second := sound.entered q memq
    have shared : p.2 = q.2 := by
      apply sound.wellFormed.labelOf_inj first.within second.within
      rw [first.label, label, second.label]
    rw [← meant p memp, ← meant q memq, shared]
  · intro agree p member past now
    exact sound.meaning_of_agreement agree p.2 member past now

namespace Bracketed

def inBrackets (words : List RuleToken) : List RuleToken :=
  ⟨"(", .openBracket⟩ :: words ++ [⟨")", .closeBracket⟩]

def asksA : RuleExpr R := .ask 0 "a" ⟨.is, .complete⟩

def asksB : RuleExpr R := .ask 1 "b" ⟨.is, .complete⟩

variable [Scalar R]

section Reading

variable {scope : RuleScope} (knowsA : scope.behavior? "a" = some 0)
  (knowsB : scope.behavior? "b" = some 1)
include knowsA knowsB

theorem read_negated_conjunction :
    Rule.read scope "not (a is complete and b is complete)".toList =
      .ok ⟨none, (.not (.binary .and asksA asksB) : RuleExpr R)⟩ := by
  let conjunction := isComplete "a" ++ ⟨"and", .binary .and⟩ :: isComplete "b"
  have tokens : RuleText.classifyFrom none (Text.words (RuleText.spaceBrackets
      "not (a is complete and b is complete)".toList)) =
        ⟨"not", .not⟩ :: inBrackets conjunction := by decide +kernel
  refine Rule.read_of_plain (by decide +kernel) (by decide +kernel) tokens (by decide)
    (by decide) ?_
  have whole : enclosed? (⟨"not", .not⟩ :: inBrackets conjunction) = none := by decide +kernel
  refine RuleExpr.read_not (stripBrackets_of_unenclosed whole) rfl rfl rfl ?_
  have brackets : enclosed? (inBrackets conjunction) = some conjunction := by decide +kernel
  have bare : enclosed? conjunction = none := by decide +kernel
  have cut : splitAtOperator 0 conjunction = some (isComplete "a", .and, isComplete "b") := by
    decide +kernel
  exact RuleExpr.read_binary
    ((stripBrackets_of_enclosed brackets).trans (stripBrackets_of_unenclosed bare)) rfl rfl
    (by decide) rfl cut (by decide) (RuleExpr.read_isComplete knowsA)
    (RuleExpr.read_isComplete knowsB)

theorem read_negated_conjunct :
    Rule.read scope "(not a is complete) and b is complete".toList =
      .ok ⟨none, (.binary .and (.not asksA) asksB : RuleExpr R)⟩ := by
  let negation := ⟨"not", .not⟩ :: isComplete "a"
  let words := inBrackets negation ++ ⟨"and", .binary .and⟩ :: isComplete "b"
  have tokens : RuleText.classifyFrom none (Text.words (RuleText.spaceBrackets
      "(not a is complete) and b is complete".toList)) = words := by decide +kernel
  refine Rule.read_of_plain (by decide +kernel) (by decide +kernel) tokens (by decide)
    (by decide) ?_
  have whole : enclosed? words = none := by decide +kernel
  have cut : splitAtOperator 0 words = some (inBrackets negation, .and, isComplete "b") := by
    decide +kernel
  refine RuleExpr.read_binary (stripBrackets_of_unenclosed whole) rfl rfl (by decide) rfl cut
    (by decide) ?_ (RuleExpr.read_isComplete knowsB)
  have brackets : enclosed? (inBrackets negation) = some negation := by decide +kernel
  have bare : enclosed? negation = none := by decide +kernel
  exact RuleExpr.read_not
    ((stripBrackets_of_enclosed brackets).trans (stripBrackets_of_unenclosed bare)) rfl rfl rfl
    (RuleExpr.read_isComplete knowsA)

end Reading

/-- The rulebook after the first rule. -/
def firstBook : Rulebook R ν :=
  ((Rulebook.empty ["a", "b"]).intern (.not (.binary .and asksA asksB))).1

theorem ofStatements_eq :
    (.ofStatements ["a", "b"]
      ["not (a is complete and b is complete)", "(not a is complete) and b is complete"] :
      Registry R ν) =
    ⟨(firstBook.intern (.binary .and (.not asksA) asksB)).1,
      (Rulebook.empty ["a", "b"] : Rulebook R ν).internings (.not (.binary .and asksA asksB)) ++
        (firstBook : Rulebook R ν).internings (.binary .and (.not asksA) asksB)⟩ := by
  have first : Rule.read (Rulebook.empty ["a", "b"] : Rulebook R ν).scope
      "not (a is complete and b is complete)".toList =
        .ok ⟨none, (.not (.binary .and asksA asksB) : RuleExpr R)⟩ :=
    read_negated_conjunction (by cbv) (by cbv)
  have second : Rule.read (firstBook : Rulebook R ν).scope
      "(not a is complete) and b is complete".toList =
        .ok ⟨none, (.binary .and (.not asksA) asksB : RuleExpr R)⟩ :=
    read_negated_conjunct (by cbv) (by cbv)
  rw [Registry.ofStatements, List.foldl_cons, Registry.add_of_read first, List.foldl_cons]
  exact Registry.add_of_read second

end Bracketed

open Bracketed Registry Rulebook in
/-- Two rules that differ in their brackets only. While neither behaviour is complete the second one
does not hold; but it shares the node of the first one, which does. -/
theorem negated_conjunct_misread :
    let g : Registry Float Unit := .ofStatements ["a", "b"]
      ["not (a is complete and b is complete)", "(not a is complete) and b is complete"]
    let expr : RuleExpr Float := .binary .and (.not asksA) asksB
    ∃ node, (expr, node) ∈ g.interned ∧
      g.book.resultAfter [] [quietView, quietView] node = true ∧
      expr.reading g.book [] [quietView, quietView] = false := by
  intro g expr
  have whole : g = _ := ofStatements_eq
  have nodes : g.book.nodes = [
      ⟨"a_is_complete", .ask 0 ⟨.is, .complete⟩, false, false, 0, 0, none, []⟩,
      ⟨"b_is_complete", .ask 1 ⟨.is, .complete⟩, false, false, 0, 0, none, []⟩,
      ⟨"a_is_complete_and_b_is_complete", .binary .and 0 1, false, false, 0, 0, none, []⟩,
      ⟨"not_a_is_complete_and_b_is_complete", .not 2, false, false, 0, 0, none, []⟩,
      ⟨"not_a_is_complete", .not 0, false, false, 0, 0, none, []⟩] := by
    rw [whole]
    cbv
  have sound : g.Sound := sound_ofStatements _ _
  have before := sound.wellFormed.before
  have fresh := sound.isFresh
  refine ⟨3, ?_, ?_, rfl⟩
  · have node : ((firstBook : Rulebook Float Unit).intern expr).2 = 3 := by cbv
    rw [whole, ← node]
    exact List.mem_append_right _ (mem_internings_self _ _)
  · rw [resultAfter_not before fresh _ _ (by rw [nodes]; rfl) rfl,
      resultAfter_binary before fresh _ _ (by rw [nodes]; rfl) rfl,
      resultAfter_ask before fresh _ _ (by rw [nodes]; rfl) rfl,
      resultAfter_ask before fresh _ _ (by rw [nodes]; rfl) rfl]
    rfl

end TouchIntent
