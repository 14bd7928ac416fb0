import TouchIntent.Proofs.Rule.Brackets
import TouchIntent.Proofs.Rule.Values

/-!
# Rules in full brackets

A rule can be written without ambiguity: every part of it in brackets, and every word between
blanks. Reading undoes such a rendering. Its words are found again by cutting it at the blanks, and
none of them is taken for another kind of word, since names follow an opening bracket and values a
qualifier. The reader then finds each part in its brackets: closed words hide the operators that
they hold.
-/

namespace TouchIntent

open RuleText

/-! ## Terms -/

/-- A rule as it is written: behaviours and rules by their names, values as texts. -/
inductive RuleTerm where
  | ask (name : String) (question : Question)
  | ref (label : String)
  | not (operand : RuleTerm)
  | binary (op : BinaryOp) (left right : RuleTerm)
  | qualified (operand : RuleTerm) (word : QualifierWord) (value unit : String)

namespace RuleTerm

/-- The term in full brackets. -/
def render : RuleTerm → String
  | ask name question =>
    "( " ++ name ++ " " ++ question.aspect.keyword ++ " " ++ question.progress.keyword ++ " )"
  | ref label => "( " ++ label ++ " )"
  | not operand => "( not " ++ operand.render ++ " )"
  | binary op left right => "( " ++ left.render ++ " " ++ op.keyword ++ " " ++ right.render ++ " )"
  | qualified operand word value unit =>
    "( " ++ operand.render ++ " " ++ word.keyword ++ " " ++ value ++ " " ++ unit ++ " )"

/-- The term in full brackets, as a rule of the given label. -/
def statement (term : RuleTerm) : Option String → String
  | none => term.render
  | some label => label ++ ":" ++ term.render

/-- The names of behaviours and rules in the term. -/
def names : RuleTerm → List String
  | ask name _ => [name]
  | ref label => [label]
  | not operand => operand.names
  | binary _ left right => left.names ++ right.names
  | qualified operand _ _ _ => operand.names

/-- What the term says: its names are those of behaviours and rules, only questions are qualified,
and the values are accepted. -/
def resolve? {R : Type} [Scalar R] (scope : RuleScope) : RuleTerm → Option (RuleExpr R)
  | ask name question => (scope.behavior? name).map fun behavior => .ask behavior name question
  | ref label => (scope.rule? label).map .ref
  | not operand => (operand.resolve? scope).map .not
  | binary op left right => do
    let left ← left.resolve? scope
    let right ← right.resolve? scope
    return .binary op left right
  | qualified operand word value unit => do
    let operand ← operand.resolve? scope
    let qualifier ← Qualifier.read? word value unit
    if operand.isQuestion scope then some (.qualified operand word (value ++ unit) qualifier)
    else none

/-- The words between the outermost brackets. -/
def inner : RuleTerm → List RuleToken
  | ask name question =>
    [⟨name, .identifier⟩, ⟨question.aspect.keyword, .aspect question.aspect⟩,
      ⟨question.progress.keyword, .progress question.progress⟩]
  | ref label => [⟨label, .identifier⟩]
  | not operand => ⟨"not", .not⟩ :: bracketed operand.inner
  | binary op left right =>
    bracketed left.inner ++ ([⟨op.keyword, .binary op⟩] ++ bracketed right.inner)
  | qualified operand word value unit =>
    bracketed operand.inner ++
      [⟨word.keyword, .qualifier word⟩, ⟨value, .value⟩, ⟨unit, .unit⟩]

/-! ## Spelling -/

/-- The texts in the term are single words, and of the kind that they are meant to be. -/
def IsLegible : RuleTerm → Prop
  | ask name _ => IsReferable name
  | ref label => IsReferable label
  | not operand => operand.IsLegible
  | binary _ left right => left.IsLegible ∧ right.IsLegible
  | qualified operand _ value unit =>
    operand.IsLegible ∧ IsWord value.toList ∧ ruleKeywords.lookup value = none ∧ unit ∈ ruleUnits

variable {R : Type} [Scalar R] {scope : RuleScope} {term : RuleTerm} {expr : RuleExpr R}

theorem isLegible_of_referable (named : ∀ name ∈ term.names, IsReferable name)
    (resolves : term.resolve? scope = some expr) : term.IsLegible := by
  induction term generalizing expr with
  | ask name question => exact named name List.mem_cons_self
  | ref label => exact named label List.mem_cons_self
  | not operand ih =>
    obtain ⟨e, inside, -⟩ := Option.map_eq_some_iff.1 resolves
    exact ih named inside
  | binary op left right ihl ihr =>
    obtain ⟨l, onLeft, resolves⟩ := Option.bind_eq_some_iff.1 resolves
    obtain ⟨r, onRight, -⟩ := Option.bind_eq_some_iff.1 resolves
    exact ⟨ihl (fun name member => named name (List.mem_append_left _ member)) onLeft,
      ihr (fun name member => named name (List.mem_append_right _ member)) onRight⟩
  | qualified operand word value unit ih =>
    obtain ⟨e, inside, resolves⟩ := Option.bind_eq_some_iff.1 resolves
    obtain ⟨q, accepted, -⟩ := Option.bind_eq_some_iff.1 resolves
    exact ⟨ih named inside, Qualifier.isWord_of_read? accepted,
      Qualifier.noKeyword_of_read? accepted, (Qualifier.read?_cases accepted).1⟩

theorem isLegible_of_resolve? (named : ∀ name ∈ term.names, IsName name)
    (resolves : term.resolve? scope = some expr) : term.IsLegible :=
  isLegible_of_referable (fun name member => (named name member).isReferable) resolves

/-- The texts of words. -/
def texts (ts : List RuleToken) : List (List Char) := ts.map fun t => t.text.toList

theorem texts_append (ts us : List RuleToken) : texts (ts ++ us) = texts ts ++ texts us :=
  List.map_append

/-- A text between brackets. -/
theorem spells_bracketed {s : List Char} {ts : List RuleToken} (spells : Spells s (texts ts)) :
    Spells ('(' :: ' ' :: (s ++ [' ', ')'])) (texts (bracketed ts)) := by
  have opening : Spells ['('] (texts [⟨"(", .openBracket⟩]) := spells_bracket (.inl rfl)
  have closing : Spells [')'] (texts [⟨")", .closeBracket⟩]) := spells_bracket (.inr rfl)
  have whole := opening.append (spells.append closing)
  rw [← texts_append, ← texts_append] at whole
  exact whole

/-- A word of the language. -/
theorem spells_keyword {keyword : String} (listed : keyword ∈ ["and", "or", "not", "is", "on",
    "complete", "most_likely", "in", "using", "with"] ++ ruleUnits) :
    Spells keyword.toList [keyword.toList] := by
  have letters : ∀ keyword ∈ ["and", "or", "not", "is", "on", "complete", "most_likely", "in",
      "using", "with"] ++ ruleUnits,
      keyword.toList ≠ [] ∧ keyword.toList.all isNameChar = true := by decide +kernel
  obtain ⟨nonempty, chars⟩ := letters keyword listed
  exact (isWord_of_chars nonempty (List.all_eq_true.1 chars)).spells

/-- What follows a question that is qualified. -/
theorem spells_qualifier (word : QualifierWord) {value unit : String}
    (ofValue : IsWord value.toList) (listed : unit ∈ ruleUnits) :
    Spells (word.keyword.toList ++ ' ' :: (value.toList ++ ' ' :: unit.toList))
      (texts [⟨word.keyword, .qualifier word⟩, ⟨value, .value⟩, ⟨unit, .unit⟩]) := by
  have qualifies : Spells word.keyword.toList [word.keyword.toList] :=
    spells_keyword (by cases word <;> decide)
  have measured : Spells unit.toList [unit.toList] :=
    spells_keyword (List.mem_append_right _ listed)
  exact qualifies.append (ofValue.spells.append measured)

/-- A legible term spells its words. -/
theorem spells_render (legible : term.IsLegible) :
    Spells term.render.toList (texts (bracketed term.inner)) := by
  induction term with
  | ask name question =>
    have aspect : Spells question.aspect.keyword.toList [question.aspect.keyword.toList] :=
      spells_keyword (by cases question.aspect <;> decide)
    have progress : Spells question.progress.keyword.toList [question.progress.keyword.toList] :=
      spells_keyword (by cases question.progress <;> decide)
    have whole : Spells _ (texts (inner (ask name question))) :=
      (IsReferable.spells legible).append (aspect.append progress)
    have spelled := spells_bracketed whole
    simpa [render] using spelled
  | ref label =>
    have whole : Spells _ (texts (inner (ref label))) := IsReferable.spells legible
    have spelled := spells_bracketed whole
    simpa [render] using spelled
  | not operand ih =>
    have whole : Spells _ (texts (inner (not operand))) :=
      (spells_keyword (by decide : "not" ∈ _)).append (ih legible)
    have spelled := spells_bracketed whole
    simpa [render] using spelled
  | binary op left right ihl ihr =>
    have operator : Spells op.keyword.toList (texts [⟨op.keyword, .binary op⟩]) :=
      spells_keyword (by cases op <;> decide)
    have whole := (ihl legible.1).append (operator.append (ihr legible.2))
    rw [← texts_append, ← texts_append] at whole
    have spelled : Spells _ (texts (bracketed (inner (binary op left right)))) :=
      spells_bracketed whole
    simpa [render] using spelled
  | qualified operand word value unit ih =>
    obtain ⟨legible, ofValue, -, listed⟩ := legible
    have whole := (ih legible).append (spells_qualifier word ofValue listed)
    rw [← texts_append] at whole
    have spelled : Spells _ (texts (bracketed (inner (qualified operand word value unit)))) :=
      spells_bracketed whole
    simpa [render] using spelled

/-! ## Kinds of words -/

/-- Behind a word of the kind `previous` the words are taken for what they are meant to be, and what
follows them finds a word of the kind `last` in front. -/
def Classed (previous : Option WordClass) (ts : List RuleToken) (last : Option WordClass) : Prop :=
  ∀ after, classifyFrom previous (texts ts ++ after) = ts ++ classifyFrom last after

theorem Classed.append {previous between last : Option WordClass} {ts us : List RuleToken}
    (first : Classed previous ts between) (second : Classed between us last) :
    Classed previous (ts ++ us) last := by
  intro after
  rw [texts_append, List.append_assoc, first, second, List.append_assoc]

theorem classed_single {previous : Option WordClass} {text : String} {kind : WordClass}
    (taken : classify previous text = kind) : Classed previous [⟨text, kind⟩] (some kind) := by
  intro after
  have same : String.ofList text.toList = text := String.ofList_toList
  show (⟨String.ofList text.toList, classify previous (String.ofList text.toList)⟩ : RuleToken) ::
    classifyFrom (some (classify previous (String.ofList text.toList))) after = _
  rw [same, taken]
  rfl

/-- A word of the language is taken for one wherever it stands. -/
theorem classed_keyword (previous : Option WordClass) {text : String} {kind : WordClass}
    (listed : ruleKeywords.lookup text = some kind) :
    Classed previous [⟨text, kind⟩] (some kind) :=
  classed_single (by rw [classify.eq_def, listed])

/-- What is no word of the language and does not end in a colon is taken for what the word in front
makes of it. -/
theorem classify_plain {previous : Option WordClass} {text : String}
    (noKeyword : ruleKeywords.lookup text = none)
    (chars : ∀ c ∈ text.toList, isWordChar c = true) :
    classify previous text = match previous with
      | some (.qualifier _) => .value
      | some .value => if text ∈ ruleUnits then .unit else .identifier
      | _ => .identifier := by
  have noColon : text.toList.getLast? ≠ some ':' := by
    intro ends
    exact (isWordChar_iff.1 (chars ':' (List.mem_of_getLast? ends))).2.2.2 rfl
  rw [classify.eq_def, noKeyword]
  exact if_neg noColon

theorem classed_bracketed (previous : Option WordClass) {ts : List RuleToken}
    {last : Option WordClass} (inside : Classed (some .openBracket) ts last) :
    Classed previous (bracketed ts) (some .closeBracket) :=
  (classed_keyword previous rfl).append (inside.append (classed_keyword last rfl))

/-- A name behind an opening bracket. -/
theorem classed_name {name : String} (referable : IsReferable name) :
    Classed (some .openBracket) [⟨name, .identifier⟩] (some .identifier) :=
  classed_single (classify_plain referable.noKeyword referable.chars)

theorem classed_qualifier (previous : Option WordClass) (word : QualifierWord)
    {value unit : String} (ofValue : IsWord value.toList)
    (noKeyword : ruleKeywords.lookup value = none) (listed : unit ∈ ruleUnits) :
    Classed previous [⟨word.keyword, .qualifier word⟩, ⟨value, .value⟩, ⟨unit, .unit⟩]
      (some .unit) := by
  have qualifies : Classed previous [⟨word.keyword, .qualifier word⟩] (some (.qualifier word)) :=
    classed_keyword _ (by cases word <;> rfl)
  have measure : Classed (some (.qualifier word)) [⟨value, .value⟩] (some .value) :=
    classed_single (classify_plain noKeyword ofValue.chars)
  have units : ∀ unit ∈ ruleUnits, classify (some .value) unit = .unit := by decide +kernel
  have measured : Classed (some .value) [⟨unit, .unit⟩] (some .unit) :=
    classed_single (units unit listed)
  exact qualifies.append (measure.append measured)

/-- A text is read as the words that it spells, if they are taken for what they are meant to be. -/
theorem Classed.tokenize {s : List Char} {ts : List RuleToken} {last : Option WordClass}
    (classed : Classed none ts last) (spells : Spells s (texts ts)) : RuleText.tokenize s = ts := by
  have taken := classed []
  rw [List.append_nil] at taken
  rw [spells.tokenize, taken]
  exact List.append_nil ts

/-- The words of a legible term are taken for what they are meant to be, whatever stands in
front. -/
theorem classed_term (legible : term.IsLegible) (previous : Option WordClass) :
    Classed previous (bracketed term.inner) (some .closeBracket) := by
  induction term generalizing previous with
  | ask name question =>
    have aspect : Classed (some .identifier) [⟨question.aspect.keyword, .aspect question.aspect⟩]
        (some (.aspect question.aspect)) :=
      classed_keyword _ (by cases question.aspect <;> rfl)
    have progress : Classed (some (.aspect question.aspect))
        [⟨question.progress.keyword, .progress question.progress⟩]
        (some (.progress question.progress)) :=
      classed_keyword _ (by cases question.progress <;> rfl)
    exact classed_bracketed previous ((classed_name legible).append (aspect.append progress))
  | ref label => exact classed_bracketed previous (classed_name legible)
  | not operand ih =>
    have negates : Classed (some .openBracket) [⟨"not", .not⟩] (some .not) :=
      classed_keyword _ rfl
    exact classed_bracketed previous (negates.append (ih legible _))
  | binary op left right ihl ihr =>
    have operator : Classed (some .closeBracket) [⟨op.keyword, .binary op⟩] (some (.binary op)) :=
      classed_keyword _ (by cases op <;> rfl)
    exact classed_bracketed previous
      ((ihl legible.1 _).append (operator.append (ihr legible.2 _)))
  | qualified operand word value unit ih =>
    obtain ⟨legible, ofValue, noKeyword, listed⟩ := legible
    exact classed_bracketed previous
      ((ih legible _).append (classed_qualifier _ word ofValue noKeyword listed))

/-! ## Reading -/

theorem closed_inner (term : RuleTerm) : Closed term.inner := by
  have plain {t : RuleToken} (notOpen : t.kind ≠ .openBracket) (notClose : t.kind ≠ .closeBracket) :
      Closed [t] := .word notOpen notClose .nil
  induction term with
  | ask name question =>
    exact .word (by simp) (by simp) (.word (by simp) (by simp) (plain (by simp) (by simp)))
  | ref label => exact plain (by simp) (by simp)
  | not operand ih => exact .word (by simp) (by simp) ih.inBrackets
  | binary op left right ihl ihr =>
    exact ihl.inBrackets.append ((plain (by simp) (by simp)).append ihr.inBrackets)
  | qualified operand word value unit ih =>
    exact ih.inBrackets.append
      (.word (by simp) (by simp) (.word (by simp) (by simp) (plain (by simp) (by simp))))

/-- The brackets around a term are the outermost ones, and there is one pair of them. -/
theorem enclosed?_inner (term : RuleTerm) : enclosed? term.inner = none := by
  cases term with
  | ask name question => exact enclosed?_of_first (by simp) _
  | ref label => exact enclosed?_of_first (by simp) _
  | not operand => exact enclosed?_of_first (by simp) _
  | binary op left right => exact left.closed_inner.enclosed?_between _ _
  | qualified operand word value unit =>
    have last := enclosed?_of_last (t := ⟨unit, .unit⟩) (by simp)
      (bracketed operand.inner ++ [⟨word.keyword, .qualifier word⟩, ⟨value, .value⟩])
    rwa [List.append_assoc] at last

theorem stripBrackets_term (term : RuleTerm) : stripBrackets (bracketed term.inner) = term.inner :=
  term.closed_inner.stripBrackets_bracketed term.enclosed?_inner

/-- What starts with anything but a name is neither a question nor a reference. -/
theorem noName_of_first {t : RuleToken} (unnamed : t.kind ≠ .identifier) (rest : List RuleToken) :
    questionWords? (t :: rest) = none ∧ referenceWord? (t :: rest) = none := by
  obtain ⟨text, kind⟩ := t
  constructor
  · unfold questionWords?
    split
    · next name aspect progress same =>
      obtain ⟨rfl, -⟩ := List.cons.inj same
      split
      · next named _ _ => exact absurd named unnamed
      · rfl
    · rfl
  · unfold referenceWord?
    split
    · next word same =>
      obtain ⟨rfl, -⟩ := List.cons.inj same
      exact if_neg unnamed
    · rfl

/-- What does not end in a unit does not end in a qualifier. -/
theorem splitQualifier?_of_last {t : RuleToken} (noUnit : t.kind ≠ .unit) (ts : List RuleToken) :
    splitQualifier? (ts ++ [t]) = none := by
  unfold splitQualifier?
  rw [List.reverse_concat]
  split
  · next unit value word before same =>
    obtain ⟨rfl, -⟩ := List.cons.inj same
    split
    · next measured => exact absurd measured noUnit
    · rfl
  · rfl

/-- Reading a term in full brackets leads to what it says. -/
theorem read_term (resolves : term.resolve? scope = some expr) :
    RuleExpr.read scope (bracketed term.inner) = .ok expr := by
  have stripped := term.stripBrackets_term
  induction term generalizing expr with
  | ask name question =>
    obtain ⟨behavior, known, rfl⟩ := Option.map_eq_some_iff.1 resolves
    exact RuleExpr.read_ask stripped rfl known
  | ref label =>
    obtain ⟨rule, known, rfl⟩ := Option.map_eq_some_iff.1 resolves
    exact RuleExpr.read_ref stripped known
  | not operand ih =>
    obtain ⟨e, inside, rfl⟩ := Option.map_eq_some_iff.1 resolves
    obtain ⟨noQuestion, noReference⟩ :=
      noName_of_first (t := ⟨"not", .not⟩) (by simp) (bracketed operand.inner)
    exact RuleExpr.read_not stripped noQuestion noReference rfl
      (ih inside operand.stripBrackets_term)
  | binary op left right ihl ihr =>
    obtain ⟨l, onLeft, resolves⟩ := Option.bind_eq_some_iff.1 resolves
    obtain ⟨r, onRight, rest⟩ := Option.bind_eq_some_iff.1 resolves
    obtain rfl := Option.some.inj rest
    obtain ⟨noQuestion, noReference⟩ := noName_of_first (t := ⟨"(", .openBracket⟩) (by simp)
      ((left.inner ++ [⟨")", .closeBracket⟩]) ++
        ([⟨op.keyword, .binary op⟩] ++ bracketed right.inner))
    have noQualifier : splitQualifier? (inner (binary op left right)) = none := by
      have last := splitQualifier?_of_last (t := ⟨")", .closeBracket⟩) (by simp)
        (bracketed left.inner ++ (⟨op.keyword, .binary op⟩ :: ⟨"(", .openBracket⟩ :: right.inner))
      rwa [List.append_assoc] at last
    have cut := left.closed_inner.splitAtOperator_bracketed
      (t := ⟨op.keyword, .binary op⟩) rfl (bracketed right.inner)
    exact RuleExpr.read_binary stripped noQuestion noReference (by simp) noQualifier cut
      (by simp [bracketed]) (ihl onLeft left.stripBrackets_term)
      (ihr onRight right.stripBrackets_term)
  | qualified operand word value unit ih =>
    obtain ⟨e, inside, resolves⟩ := Option.bind_eq_some_iff.1 resolves
    obtain ⟨q, accepted, resolves⟩ := Option.bind_eq_some_iff.1 resolves
    obtain ⟨asks, rest⟩ := Option.ite_none_right_eq_some.1 resolves
    obtain rfl := Option.some.inj rest
    obtain ⟨noQuestion, noReference⟩ := noName_of_first (t := ⟨"(", .openBracket⟩) (by simp)
      ((operand.inner ++ [⟨")", .closeBracket⟩]) ++
        [⟨word.keyword, .qualifier word⟩, ⟨value, .value⟩, ⟨unit, .unit⟩])
    have ends : splitQualifier? (inner (qualified operand word value unit)) =
        some ⟨bracketed operand.inner, word, value, unit⟩ := by
      simp [splitQualifier?, inner]
    exact RuleExpr.read_qualified stripped noQuestion noReference (by simp) ends
      (ih inside operand.stripBrackets_term) asks accepted

/-! ## Labels -/

/-- A word that ends in a colon is a label. -/
theorem classify_label (label : String) :
    classify none (String.ofList (label.toList ++ [':'])) = .label := by
  have noKeyword : ruleKeywords.lookup (String.ofList (label.toList ++ [':'])) = none := by
    have others : ∀ entry ∈ ruleKeywords, entry.1.toList.getLast? ≠ some ':' := by decide +kernel
    rw [List.lookup_eq_none_iff]
    intro entry listed
    rw [bne_iff_ne]
    intro same
    refine others entry listed ?_
    rw [← same]
    simp
  rw [classify.eq_def, noKeyword]
  simp

theorem splitLabel_label {label : String} (noColon : ':' ∉ label.toList)
    (rest : List RuleToken) :
    splitLabel (⟨String.ofList (label.toList ++ [':']), .label⟩ :: rest) = (some label, rest) := by
  simp only [splitLabel, if_true, String.toList_ofList, dropColons_append noColon,
    String.ofList_toList]

/-! ## Statements -/

/-- The words of a legible term in full brackets. -/
theorem tokenize_render (legible : term.IsLegible) :
    tokenize term.render.toList = bracketed term.inner :=
  (classed_term legible none).tokenize (spells_render legible)

/-- The words of a statement are those of its term, with its label in front. -/
theorem splitLabel_statement (legible : term.IsLegible) {label : Option String}
    (chars : ∀ given ∈ label, ∀ c ∈ given.toList, isNameChar c = true) :
    splitLabel (tokenize (term.statement label).toList) = (label, bracketed term.inner) := by
  cases label with
  | none =>
    rw [statement, tokenize_render legible]
    rfl
  | some given =>
    have chars := chars given rfl
    have text : (term.statement (some given)).toList =
        given.toList ++ ':' :: term.render.toList := by simp [statement]
    have taken := classed_term legible (some .label) []
    rw [List.append_nil] at taken
    have ofWords : ∀ c ∈ given.toList, isWordChar c = true :=
      fun c member => (isNameChar_iff.1 (chars c member)).1
    have noColon : ':' ∉ given.toList :=
      fun member => (isWordChar_iff.1 (ofWords ':' member)).2.2.2 rfl
    rw [text, (spells_render legible).tokenize_label ofWords (unitFree_of_chars chars).unitsApart,
      classifyFrom, classify_label, taken, splitLabel_label noColon, classifyFrom,
      List.append_nil]

end RuleTerm

/-- Reading undoes rendering in full brackets: from the rendering of a term, with or without a label
in front, the reader gets back the label and what the term says. -/
theorem reading_undoes_rendering {R : Type} [Scalar R] {scope : RuleScope} {term : RuleTerm}
    {expr : RuleExpr R} {label : Option String} (named : ∀ name ∈ term.names, IsName name)
    (labelled : ∀ given ∈ label, ∀ c ∈ given.toList, isNameChar c = true)
    (resolves : term.resolve? scope = some expr) :
    Rule.read scope (term.statement label).toList = .ok ⟨label, expr⟩ := by
  have legible := RuleTerm.isLegible_of_resolve? named resolves
  have balanced := term.closed_inner.inBrackets.isBalanced
  rw [Rule.read, RuleTerm.splitLabel_statement legible labelled]
  simp only [balanced, RuleTerm.read_term resolves]
  rfl

/-- A behaviour that is performed with two fingers while a rule does not hold. -/
theorem reading_undoes_rendering_both :
    let scope : RuleScope :=
      ⟨fun name => if name = "tap" then some 0 else none,
        fun label => if label = "held" then some 3 else none, fun _ => false⟩
    let tap : RuleTerm := .ask "tap" ⟨.is, .complete⟩
    let both : RuleTerm := .binary .and (.qualified tap .fingers "2" "fingers") (.not (.ref "held"))
    both.statement (some "both") =
        "both:( ( ( tap is complete ) using 2 fingers ) and ( not ( held ) ) )" ∧
      Rule.read scope (both.statement (some "both")).toList = .ok (⟨some "both", .binary .and
        (.qualified (.ask 0 "tap" ⟨.is, .complete⟩) .fingers "2fingers" (.fingers 2))
        (.not (.ref 3))⟩ : Rule Float) := by
  intro scope tap both
  have word {name : String} (letters : name.toList ≠ [] ∧
      name.toList.all isNameChar = true ∧ ruleKeywords.lookup name = none) : IsName name :=
    ⟨letters.1, List.all_eq_true.1 letters.2.1, letters.2.2⟩
  have named : ∀ name ∈ both.names, IsName name := by
    intro name member
    have listed : name = "tap" ∨ name = "held" := by
      simpa [both, tap, RuleTerm.names] using member
    rcases listed with rfl | rfl <;> exact word (by decide +kernel)
  have labelled : ∀ given ∈ some "both", ∀ c ∈ given.toList, isNameChar c = true := by
    rintro given ⟨⟩
    exact List.all_eq_true.1 (by decide +kernel)
  exact ⟨by decide +kernel, reading_undoes_rendering named labelled rfl⟩

end TouchIntent
