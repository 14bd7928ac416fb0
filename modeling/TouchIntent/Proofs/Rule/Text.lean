import Mathlib.Data.List.Chain
import TouchIntent.Proofs.Fallible
import TouchIntent.Rule.Book

/-!
# Reading rules step by step

Equations for the reader of rules: how a text without numbers and labels is cut into words, and
what the words of a question, of a negation and of two operands are read as.
-/

namespace TouchIntent

namespace RuleText

/-- One of the units starts with the character. -/
def startsUnit (c : Char) : Bool := ruleUnits.any fun unit => unit.toList.head? == some c

/-- No digit is followed at once by what could be a unit. -/
def UnitFree (s : List Char) : Prop :=
  s.IsChain fun c d => Text.isDecimalDigit c = true → startsUnit d = false

theorem unitFree_of_noDigit {s : List Char} (noDigit : s.all fun c => !Text.isDecimalDigit c) :
    UnitFree s := by
  induction s with
  | nil => exact .nil
  | cons c rest ih =>
    obtain ⟨first, others⟩ := Bool.and_eq_true_iff.1 noDigit
    refine List.isChain_cons.2 ⟨fun d _ digit => ?_, ih others⟩
    simp only [digit, Bool.not_true, Bool.false_eq_true] at first

/-- No digit is followed at once by the unit. -/
def Detached (unit s : List Char) : Prop :=
  ∀ c, Text.isDecimalDigit c = true → ¬ (c :: unit) <:+: s

/-- No digit is followed at once by any unit. -/
def UnitsApart (s : List Char) : Prop := ∀ unit ∈ ruleUnits, Detached unit.toList s

theorem detached_cons {unit rest : List Char} {c : Char} : Detached unit (c :: rest) ↔
    (Text.isDecimalDigit c = true → ¬ unit <+: rest) ∧ Detached unit rest := by
  constructor
  · intro detached
    exact ⟨fun digit start => detached c digit ((List.cons_prefix_cons.2 ⟨rfl, start⟩).isInfix),
      fun d digit inside => detached d digit (List.infix_cons inside)⟩
  · rintro ⟨first, later⟩ d digit inside
    rcases List.infix_cons_iff.1 inside with whole | inside
    · obtain ⟨rfl, start⟩ := List.cons_prefix_cons.1 whole
      exact first digit start
    · exact later d digit inside

theorem UnitsApart.within {s t : List Char} (apart : UnitsApart s) (inside : t <:+: s) :
    UnitsApart t :=
  fun unit listed c digit found => apart unit listed c digit (found.trans inside)

/-- Where no unit can start, no digit is followed by one. -/
theorem UnitFree.unitsApart {s : List Char} (free : UnitFree s) : UnitsApart s := by
  intro unit listed c digit inside
  have nonempty : ∀ unit ∈ ruleUnits, unit.toList ≠ [] := by decide
  obtain ⟨d, others, spelled⟩ := List.exists_cons_of_ne_nil (nonempty unit listed)
  have starts : startsUnit d = true :=
    List.any_eq_true.2 ⟨unit, listed, by simp [spelled]⟩
  rw [spelled] at inside
  have begun : UnitFree (c :: d :: others) := List.IsChain.infix free inside
  have bare := (List.isChain_cons_cons.1 begun).1 digit
  rw [starts] at bare
  cases bare

/-- A character that is not in the unit keeps what stands around it apart. -/
theorem Detached.append {unit a b : List Char} {c : Char} (noDigit : Text.isDecimalDigit c = false)
    (noUnit : c ∉ unit) (first : Detached unit a) (second : Detached unit b) :
    Detached unit (a ++ c :: b) := by
  induction a with
  | nil =>
    refine detached_cons.2 ⟨fun digit => ?_, second⟩
    rw [noDigit] at digit
    cases digit
  | cons d rest ih =>
    obtain ⟨here, later⟩ := detached_cons.1 first
    refine detached_cons.2 ⟨fun digit start => here digit ?_, ih later⟩
    -- The unit is used up before the character, which is not in it.
    have upTo : rest ++ [c] <+: rest ++ c :: b := ⟨b, by simp⟩
    rcases List.prefix_or_prefix_of_prefix start upTo with short | long
    · rcases List.prefix_concat_iff.1 short with whole | short
      · exact absurd (by rw [whole]; simp) noUnit
      · exact short
    · exact absurd (long.subset (by simp)) noUnit

theorem UnitsApart.append {a b : List Char} {c : Char} (noDigit : Text.isDecimalDigit c = false)
    (noUnit : ∀ unit ∈ ruleUnits, c ∉ unit.toList) (first : UnitsApart a) (second : UnitsApart b) :
    UnitsApart (a ++ c :: b) :=
  fun unit listed => (first unit listed).append noDigit (noUnit unit listed) (second unit listed)

/-- A unit that no digit is followed by is found nowhere. -/
theorem spaceUnit_eq_self {unit s : List Char} (detached : Detached unit s) :
    spaceUnit unit s = s := by
  fun_induction spaceUnit unit s with
  | case1 => rfl
  | case2 c rest found ih =>
    obtain ⟨digit, begins⟩ := Bool.and_eq_true_iff.1 found
    exact absurd (List.isPrefixOf_iff_prefix.1 begins) ((detached_cons.1 detached).1 digit)
  | case3 c rest _ ih => rw [ih (detached_cons.1 detached).2]

theorem spaceColons_nil : spaceColons [] = [] := by
  rw [spaceColons.eq_def]

/-- A colon that stands behind blanks only moves up to the start, and is parted from the rest. -/
theorem spaceColons_of_opens {s after : List Char}
    (opens : s.dropWhile Text.isBlank = ':' :: after) :
    spaceColons s = ':' :: ' ' :: spaceColons (after.dropWhile Text.isBlank) := by
  cases s with
  | nil => cases opens
  | cons c rest =>
    rw [spaceColons.eq_def]
    dsimp only
    split
    · next after' found =>
      obtain ⟨-, rfl⟩ := List.cons.inj (opens.symm.trans found)
      rfl
    · next noColon => exact absurd opens (noColon after)

/-- A character that no colon is drawn to stays as it is. -/
theorem spaceColons_of_unopened {c : Char} {rest : List Char}
    (unopened : ∀ after, (c :: rest).dropWhile Text.isBlank ≠ ':' :: after) :
    spaceColons (c :: rest) = c :: spaceColons rest := by
  rw [spaceColons.eq_def]
  dsimp only
  split
  · next after found => exact absurd found (unopened after)
  · rfl

theorem spaceColons_eq_self {s : List Char} (noColon : s.all fun c => c != ':') :
    spaceColons s = s := by
  fun_induction spaceColons s with
  | case1 => rfl
  | case2 c rest after found ih =>
    have member : ':' ∈ (c :: rest).dropWhile Text.isBlank := by simp [found]
    have noneThere := List.all_eq_true.1 noColon ':' ((List.dropWhile_sublist _).subset member)
    simp at noneThere
  | case3 c rest noColonNext ih => simp_all

/-- Blanks around every unit that follows a digit. -/
def spaceUnits (s : List Char) : List Char :=
  ruleUnits.foldl (fun s unit => spaceUnit unit.toList s) s

theorem spaceOut_eq (s : List Char) :
    spaceOut s = spaceColons (spaceUnits (spaceBrackets s)) := rfl

/-- Where no digit is followed by a unit there is nothing to do for the units. -/
theorem spaceUnits_eq_self {s : List Char} (apart : UnitsApart s) : spaceUnits s = s := by
  have units : ∀ units : List String, (∀ unit ∈ units, unit ∈ ruleUnits) →
      units.foldl (fun s unit => spaceUnit unit.toList s) s = s := by
    intro units
    induction units with
    | nil => exact fun _ => rfl
    | cons unit rest ih =>
      intro listed
      rw [List.foldl_cons, spaceUnit_eq_self (apart unit (listed unit List.mem_cons_self))]
      exact ih fun other member => listed other (List.mem_cons_of_mem _ member)
  exact units ruleUnits fun _ member => member

/-- A text without units and colons is spaced out at its brackets only. -/
theorem tokenize_of_unitsApart {s : List Char} (apart : UnitsApart (spaceBrackets s))
    (noColon : (spaceBrackets s).all fun c => c != ':') :
    tokenize s = classifyFrom none (Text.words (spaceBrackets s)) := by
  rw [tokenize, words, spaceOut_eq, spaceUnits_eq_self apart, spaceColons_eq_self noColon]

end RuleText

theorem stripBrackets_of_unenclosed {tokens : List RuleToken} (bare : enclosed? tokens = none) :
    stripBrackets tokens = tokens := by
  rw [stripBrackets]
  split
  · next inner found => cases bare.symm.trans found
  · rfl

theorem stripBrackets_of_enclosed {tokens inner : List RuleToken}
    (found : enclosed? tokens = some inner) : stripBrackets tokens = stripBrackets inner := by
  rw [stripBrackets]
  split
  · next inner' found' => cases found.symm.trans found'; rfl
  · next bare => cases found.symm.trans bare

variable {R : Type} [Scalar R] {scope : RuleScope} {words : List RuleToken} {first : RuleToken}
  {rest : List RuleToken}

theorem RuleExpr.read_ask {name : String} {question : Question} {behavior : Nat}
    (stripped : stripBrackets words = first :: rest)
    (asks : questionWords? (first :: rest) = some (name, question))
    (known : scope.behavior? name = some behavior) :
    RuleExpr.read scope words = .ok (.ask behavior name question : RuleExpr R) := by
  rw [RuleExpr.read]
  split
  · next empty => cases stripped.symm.trans empty
  · next f r same =>
    cases stripped.symm.trans same
    simp only [asks, known]

/-- The words of a question whether the behaviour of a name is complete. -/
def isComplete (name : String) : List RuleToken :=
  [⟨name, .identifier⟩, ⟨"is", .aspect .is⟩, ⟨"complete", .progress .complete⟩]

theorem RuleExpr.read_isComplete {name : String} {behavior : Nat}
    (known : scope.behavior? name = some behavior) :
    RuleExpr.read scope (isComplete name) =
      .ok (.ask behavior name ⟨.is, .complete⟩ : RuleExpr R) :=
  RuleExpr.read_ask (stripBrackets_of_unenclosed rfl) rfl known

theorem RuleExpr.read_ref {label : String} {rule : Nat}
    (stripped : stripBrackets words = [⟨label, .identifier⟩])
    (known : scope.rule? label = some rule) :
    RuleExpr.read scope words = .ok (.ref rule : RuleExpr R) := by
  rw [RuleExpr.read]
  split
  · next empty => cases stripped.symm.trans empty
  · next f r same =>
    cases stripped.symm.trans same
    simp only [questionWords?, referenceWord?, if_true, known]

theorem RuleExpr.read_not (stripped : stripBrackets words = first :: rest)
    (noQuestion : questionWords? (first :: rest) = none)
    (noReference : referenceWord? (first :: rest) = none) (negates : first.kind = .not)
    {operand : RuleExpr R} (inner : RuleExpr.read scope rest = .ok operand) :
    RuleExpr.read scope words = .ok (.not operand) := by
  rw [RuleExpr.read]
  split
  · next empty => cases stripped.symm.trans empty
  · next f r same =>
    cases stripped.symm.trans same
    simp only [noQuestion, noReference, negates, if_true, inner]
    rfl

theorem RuleExpr.read_binary (stripped : stripBrackets words = first :: rest)
    (noQuestion : questionWords? (first :: rest) = none)
    (noReference : referenceWord? (first :: rest) = none) (noNegation : first.kind ≠ .not)
    (noQualifier : splitQualifier? (first :: rest) = none) {left right : List RuleToken}
    {op : BinaryOp} (cut : splitAtOperator 0 (first :: rest) = some (left, op, right))
    (complete : ¬ (left.isEmpty ∨ right.isEmpty)) {l r : RuleExpr R}
    (onLeft : RuleExpr.read scope left = .ok l) (onRight : RuleExpr.read scope right = .ok r) :
    RuleExpr.read scope words = .ok (.binary op l r) := by
  rw [RuleExpr.read]
  split
  · next empty => cases stripped.symm.trans empty
  · next f r same =>
    cases stripped.symm.trans same
    simp only [noQuestion, noReference, noNegation, if_false]
    split
    · next q qualified => cases noQualifier.symm.trans qualified
    · split
      · next l' op' r' cut' =>
        cases cut.symm.trans cut'
        simp only [complete, if_false, onLeft, onRight]
        rfl
      · next uncut => cases cut.symm.trans uncut

theorem RuleExpr.read_qualified (stripped : stripBrackets words = first :: rest)
    (noQuestion : questionWords? (first :: rest) = none)
    (noReference : referenceWord? (first :: rest) = none) (noNegation : first.kind ≠ .not)
    {q : QualifiedWords} (ends : splitQualifier? (first :: rest) = some q) {operand : RuleExpr R}
    (inner : RuleExpr.read scope q.operand = .ok operand)
    (asks : operand.isQuestion scope = true) {qualifier : Qualifier R}
    (accepted : Qualifier.read? q.word q.value q.unit = some qualifier) :
    RuleExpr.read scope words = .ok (.qualified operand q.word (q.value ++ q.unit) qualifier) := by
  rw [RuleExpr.read]
  split
  · next empty => cases stripped.symm.trans empty
  · next f r same =>
    cases stripped.symm.trans same
    simp only [noQuestion, noReference, noNegation, if_false]
    split
    · next q' ends' =>
      cases ends.symm.trans ends'
      rw [inner]
      simp only [bind, Except.bind, asks, not_true_eq_false, if_false, accepted]
      rfl
    · next bare => cases ends.symm.trans bare

/-- What a reading of words comes to: one step of the descent for each form of expression. -/
inductive RuleExpr.Reads (scope : RuleScope) : List RuleToken → RuleExpr R → Prop
  | ask {words : List RuleToken} {name : String} {question : Question} {behavior : Nat}
      (asks : questionWords? (stripBrackets words) = some (name, question))
      (known : scope.behavior? name = some behavior) :
      Reads scope words (.ask behavior name question)
  | ref {words : List RuleToken} {label : String} {rule : Nat}
      (refers : referenceWord? (stripBrackets words) = some label)
      (known : scope.rule? label = some rule) : Reads scope words (.ref rule)
  | not {words : List RuleToken} {first : RuleToken} {rest : List RuleToken} {operand : RuleExpr R}
      (stripped : stripBrackets words = first :: rest) (negates : first.kind = .not)
      (inside : Reads scope rest operand) : Reads scope words (.not operand)
  | qualified {words : List RuleToken} {q : QualifiedWords} {operand : RuleExpr R}
      {qualifier : Qualifier R} (ends : splitQualifier? (stripBrackets words) = some q)
      (inside : Reads scope q.operand operand) (asks : operand.isQuestion scope = true)
      (accepted : Qualifier.read? q.word q.value q.unit = some qualifier) :
      Reads scope words (.qualified operand q.word (q.value ++ q.unit) qualifier)
  | binary {words left right : List RuleToken} {op : BinaryOp} {l r : RuleExpr R}
      (cut : splitAtOperator 0 (stripBrackets words) = some (left, op, right))
      (onLeft : Reads scope left l) (onRight : Reads scope right r) :
      Reads scope words (.binary op l r)

theorem RuleExpr.reads_of_read {expr : RuleExpr R} (read : RuleExpr.read scope words = .ok expr) :
    Reads scope words expr := by
  fun_induction RuleExpr.read (R := R) scope words generalizing expr with
  | case1 | case3 | case5 | case8 | case10 => cases read
  | case2 words first rest stripped name question asks behavior known =>
    cases read
    exact .ask (stripped ▸ asks) known
  | case4 words first rest stripped _ label refers rule known =>
    cases read
    exact .ref (stripped ▸ refers) known
  | case6 words first rest stripped _ _ negates ih =>
    obtain ⟨operand, found, same⟩ := exists_of_bind_eq_ok read
    cases same
    exact .not stripped negates (ih found)
  | case7 words first rest stripped _ _ _ q ends ih =>
    obtain ⟨operand, found, same⟩ := exists_of_bind_eq_ok read
    by_cases asks : operand.isQuestion scope = true
    · simp only [asks, not_true_eq_false, if_false] at same
      split at same
      · next accepted =>
        cases same
        exact .qualified (stripped ▸ ends) (ih found) asks accepted
      · cases same
    · simp only [asks] at same
      cases same
  | case9 words first rest stripped _ _ _ _ left op right cut _ _ ihl =>
    rename_i ihr
    obtain ⟨l, onLeft, same⟩ := exists_of_bind_eq_ok read
    obtain ⟨r, onRight, same⟩ := exists_of_bind_eq_ok same
    cases same
    exact .binary (stripped ▸ cut) (ihl onLeft) (ihr onRight)

/-- A rule without a label, of a text without digits and colons. -/
theorem Rule.read_of_plain {s : List Char}
    (noDigit : (RuleText.spaceBrackets s).all fun c => !Text.isDecimalDigit c)
    (noColon : (RuleText.spaceBrackets s).all fun c => c != ':')
    (tokens : RuleText.classifyFrom none (Text.words (RuleText.spaceBrackets s)) = first :: rest)
    (unlabelled : first.kind ≠ .label) (balanced : areBalanced 0 (first :: rest) = true)
    {expr : RuleExpr R} (read : RuleExpr.read scope (first :: rest) = .ok expr) :
    Rule.read scope s = .ok ⟨none, expr⟩ := by
  rw [Rule.read, RuleText.tokenize_of_unitsApart
    (RuleText.unitFree_of_noDigit noDigit).unitsApart noColon, tokens]
  simp only [splitLabel, unlabelled, if_false, List.isEmpty_cons, balanced, read]
  rfl

/-- A rule about one behaviour, added to a new rulebook. -/
theorem Rulebook.addRule_tap {ν : Type} :
    (Rulebook.empty ["C"] : Rulebook R ν).addRule "C is complete" = (⟨["C"],
      [{ label := "C_is_complete", kind := .ask 0 ⟨.is, .complete⟩ }], [("C_is_complete", 0)], [],
      [none], [none]⟩, .ok "C_is_complete") := by
  have tokens : RuleText.classifyFrom none (Text.words (RuleText.spaceBrackets
      "C is complete".toList)) = isComplete "C" := by decide +kernel
  have read : Rule.read (Rulebook.empty ["C"] : Rulebook R ν).scope "C is complete".toList =
      .ok ⟨none, (.ask 0 "C" ⟨.is, .complete⟩ : RuleExpr R)⟩ :=
    Rule.read_of_plain (by decide +kernel) (by decide +kernel) tokens (by decide) (by decide)
      (RuleExpr.read_isComplete rfl)
  rw [Rulebook.addRule, read]
  rfl

end TouchIntent
