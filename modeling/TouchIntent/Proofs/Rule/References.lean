import TouchIntent.Proofs.Rule.Registration
import TouchIntent.Proofs.Rule.Rendering
import TouchIntent.Proofs.Rule.Spacing

/-!
# Referring to a rule by its label

A later rule refers to a registered one by its label, as a word. Whether it can is decided by how
the label reads: all labels of a rulebook are free of blanks, brackets and colons, except that a
bracket may be given as a label; but a label is not read as one name when a digit in it is followed
by a unit, as at the end of the canonical label of a qualified question, nor when it is a word of
the language. The main statement says for every rule that is added in a run when its label refers
to it in all later rules.
-/

namespace TouchIntent

open RuleText

/-! ## What is read is written with the words given -/

section Words

variable {tokens inner left right : List RuleToken}

theorem eq_of_enclosed? (found : enclosed? tokens = some inner) :
    ∃ o c, o.kind = .openBracket ∧ c.kind = .closeBracket ∧ tokens = o :: (inner ++ [c]) := by
  unfold enclosed? at found
  split at found
  · next first rest =>
    split at found
    · next last ends =>
      obtain ⟨⟨opens, closes, -⟩, same⟩ := Option.ite_none_right_eq_some.1 found
      obtain ⟨before, rfl⟩ := List.getLast?_eq_some_iff.1 ends
      rw [List.dropLast_concat] at same
      obtain rfl := Option.some.inj same
      exact ⟨first, last, opens, closes, rfl⟩
    · cases found
  · cases found

theorem stripBrackets_subset (tokens : List RuleToken) : stripBrackets tokens ⊆ tokens := by
  fun_induction stripBrackets tokens with
  | case1 tokens inner found ih =>
    obtain ⟨o, c, -, -, rfl⟩ := eq_of_enclosed? found
    exact fun t member => List.mem_cons_of_mem o (List.mem_append_left _ (ih member))
  | case2 => exact List.Subset.refl _

theorem eq_of_splitAtOperator {depth : Nat} {op : BinaryOp}
    (found : splitAtOperator depth tokens = some (left, op, right)) :
    ∃ t, t.kind = .binary op ∧ tokens = left ++ t :: right := by
  induction tokens generalizing depth left with
  | nil => cases found
  | cons first rest ih =>
    have goOn {d : Nat}
        (found : (splitAtOperator d rest).map (addLeft [first]) = some (left, op, right)) :
        ∃ t, t.kind = .binary op ∧ first :: rest = left ++ t :: right := by
      obtain ⟨⟨l, o, r⟩, later, same⟩ := Option.map_eq_some_iff.1 found
      simp only [addLeft, Prod.mk.injEq] at same
      obtain ⟨rfl, rfl, rfl⟩ := same
      obtain ⟨t, operator, rfl⟩ := ih later
      exact ⟨t, operator, rfl⟩
    rw [splitAtOperator] at found
    simp only at found
    split at found
    · next op' operator =>
      split at found
      · cases found
        exact ⟨first, operator, rfl⟩
      · exact goOn found
    · exact goOn found
    · exact goOn found
    · exact goOn found

theorem eq_of_splitQualifier? {q : QualifiedWords} (found : splitQualifier? tokens = some q) :
    ∃ w, w.kind = .qualifier q.word ∧
      tokens = q.operand ++ [w, ⟨q.value, .value⟩, ⟨q.unit, .unit⟩] := by
  unfold splitQualifier? at found
  split at found
  · next unit value word before reversed =>
    have whole := congrArg List.reverse reversed
    rw [List.reverse_reverse] at whole
    split at found
    · next kind qualifies measures units =>
      obtain rfl := Option.some.inj found
      refine ⟨word, qualifies, ?_⟩
      rw [whole]
      simp [← measures, ← units]
    · cases found
  · cases found

theorem mem_of_questionWords? {name : String} {question : Question}
    (found : questionWords? tokens = some (name, question)) :
    (⟨name, .identifier⟩ : RuleToken) ∈ tokens := by
  unfold questionWords? at found
  split at found
  · next first aspect progress =>
    split at found
    · next named _ _ =>
      cases found
      exact named ▸ List.mem_cons_self
    · cases found
  · cases found

/-- All words of the author's choice could be words by themselves. -/
def ArePlain (tokens : List RuleToken) : Prop :=
  ∀ t ∈ tokens, t.kind.isChosen = true → RuleText.IsPlain t.text

theorem ArePlain.subset {others : List RuleToken} (plain : ArePlain tokens)
    (among : others ⊆ tokens) : ArePlain others :=
  fun t member => plain t (among member)

theorem ArePlain.stripped (plain : ArePlain tokens) : ArePlain (stripBrackets tokens) :=
  plain.subset (stripBrackets_subset tokens)

end Words

/-- The names and texts in an expression could be words. -/
def RuleExpr.IsPlain {R : Type} : RuleExpr R → Prop
  | ask _ name _ => RuleText.IsPlain name
  | ref _ => True
  | not operand => operand.IsPlain
  | binary _ left right => left.IsPlain ∧ right.IsPlain
  | qualified operand _ text _ => operand.IsPlain ∧ RuleText.IsPlain text

variable {R ν : Type} [Scalar R] {scope : RuleScope}

/-- What is read is written with the names and texts of its words. -/
theorem RuleExpr.Reads.isPlain {words : List RuleToken} {expr : RuleExpr R}
    (reads : Reads scope words expr) (plain : ArePlain words) : expr.IsPlain := by
  induction reads with
  | ask asks _ =>
    exact plain.stripped _ (mem_of_questionWords? asks) rfl
  | ref _ _ => trivial
  | not stripped _ _ ih =>
    have inside := stripped ▸ plain.stripped
    exact ih (inside.subset (List.subset_cons_self _ _))
  | qualified ends _ _ _ ih =>
    obtain ⟨w, -, whole⟩ := eq_of_splitQualifier? ends
    have plain := whole ▸ plain.stripped
    refine ⟨ih (plain.subset (List.subset_append_left _ _)), isPlain_append ?_ ?_⟩
    · exact plain ⟨_, .value⟩ (by simp) rfl
    · exact plain ⟨_, .unit⟩ (by simp) rfl
  | binary cut _ _ ihl ihr =>
    obtain ⟨t, -, whole⟩ := eq_of_splitAtOperator cut
    have plain := whole ▸ plain.stripped
    refine ⟨ihl (plain.subset (List.subset_append_left _ _)), ihr (plain.subset ?_)⟩
    exact fun t member => List.mem_append_right _ (List.mem_cons_of_mem _ member)

theorem splitLabel_subset (tokens : List RuleToken) : (splitLabel tokens).2 ⊆ tokens := by
  unfold splitLabel
  split
  · next first rest =>
    split
    · exact List.subset_cons_self first rest
    · exact List.Subset.refl _
  · exact List.Subset.refl _

theorem arePlain_tokenize (s : List Char) : ArePlain (tokenize s) :=
  fun _ => isPlain_of_isChosen

theorem Rule.isPlain_of_read {s : List Char} {rule : Rule R} (read : Rule.read scope s = .ok rule) :
    rule.expr.IsPlain ∧ ∀ label, rule.label = some label → IsAtom label.toList := by
  obtain ⟨given, -, -, inside⟩ := Rule.read_eq_ok_iff.1 read
  have plain := (arePlain_tokenize s).subset (splitLabel_subset _)
  refine ⟨(RuleExpr.reads_of_read inside).isPlain plain, ?_⟩
  intro label labelled
  exact isAtom_of_splitLabel (given.trans labelled)

/-! ## The labels of a rulebook -/

namespace Rulebook

omit [Scalar R]

variable {book : Rulebook R ν} {rule : Rule R}

/-- All canonical labels could be words. -/
def IsPlain (book : Rulebook R ν) : Prop := ∀ i, RuleText.IsPlain (book.labelOf i)

theorem isPlain_empty (behaviors : List String) : (empty behaviors : Rulebook R ν).IsPlain :=
  fun _ _ member => by cases member

/-- Two texts with a word of the language between them. -/
theorem isPlain_join {a keyword b : String} (first : RuleText.IsPlain a)
    (between : RuleText.IsPlain ("_" ++ keyword ++ "_")) (second : RuleText.IsPlain b) :
    RuleText.IsPlain (a ++ "_" ++ keyword ++ "_" ++ b) := by
  have joined := isPlain_append first (isPlain_append between second)
  simpa only [String.append_assoc] using joined

theorem IsPlain.push (plain : book.IsPlain) {label : String} (word : RuleText.IsPlain label)
    (kind : NodeKind R) : (book.push label kind).IsPlain := by
  intro i
  cases found : (book.push label kind).nodes[i]? with
  | none =>
    rw [labelOf, found]
    exact fun _ member => by cases member
  | some n =>
    rw [labelOf_eq found]
    rcases getElem?_push.1 found with before | ⟨-, rfl⟩
    · exact labelOf_eq before ▸ plain i
    · exact word

theorem IsPlain.node (plain : book.IsPlain) {label : String} (word : RuleText.IsPlain label)
    (kind : NodeKind R) : (book.node label kind).1.IsPlain := by
  unfold Rulebook.node
  cases book.index.lookup label with
  | some found => exact plain
  | none => exact plain.push word kind

theorem IsPlain.intern (plain : book.IsPlain) {expr : RuleExpr R} (written : expr.IsPlain) :
    (book.intern expr).1.IsPlain := by
  induction expr generalizing book with
  | ask behavior name question =>
    obtain ⟨aspect, progress⟩ := question
    have ending : RuleText.IsPlain progress.keyword := by cases progress <;> decide +kernel
    have between : RuleText.IsPlain ("_" ++ aspect.keyword ++ "_") := by
      cases aspect <;> decide +kernel
    exact plain.node (isPlain_join written between ending) _
  | ref rule => exact plain
  | not operand ih =>
    have inner := ih plain written
    exact inner.node (isPlain_append (by decide +kernel) (inner _)) _
  | binary op left right ihl ihr =>
    have both := ihr (ihl plain written.1) written.2
    have between : RuleText.IsPlain ("_" ++ op.keyword ++ "_") := by cases op <;> decide +kernel
    exact both.node (isPlain_join (both _) between (both _)) _
  | qualified operand word text qualifier ih =>
    have inner := ih plain written.1
    have between : RuleText.IsPlain ("_" ++ word.keyword ++ "_") := by cases word <;> decide +kernel
    exact inner.node (isPlain_join (inner _) between written.2) _

theorem IsPlain.register (plain : book.IsPlain) (written : rule.expr.IsPlain) :
    (book.register rule).1.IsPlain := by
  intro i
  rw [labelOf, register_nodes]
  exact plain.intern written i

/-- The label that a rule is registered under. -/
theorem IsPlain.isAtom_register (plain : book.IsPlain) (written : rule.expr.IsPlain)
    (given : ∀ label, rule.label = some label → IsAtom label.toList) :
    IsAtom (book.register rule).2.toList := by
  cases labelled : rule.label with
  | none =>
    have canonical : (book.register rule).2 =
        (book.intern rule.expr).1.labelOf (book.intern rule.expr).2 := by
      simp [Rulebook.register, labelled]
    rw [canonical]
    exact .inr (.inr (plain.intern written _))
  | some label =>
    have same : (book.register rule).2 = label := by simp [Rulebook.register, labelled]
    rw [same]
    exact given label labelled

variable [Scalar R]

/-- In every run the canonical labels could be words. -/
theorem isPlain_performAll (behaviors : List String) (ops : List (RuleOp R ν)) :
    ((empty behaviors).performAll ops).IsPlain := by
  induction ops using List.reverseRecOn with
  | nil => exact isPlain_empty behaviors
  | append_singleton past op ih =>
    intro i
    rw [performAll_concat, (sameGraph_perform _ op).labelOf, withAdded]
    cases added : ((empty behaviors).performAll past).addedRule? op with
    | none => exact ih i
    | some rule =>
      obtain ⟨statement, -, -, -, read⟩ := exists_of_addedRule? added
      exact ih.register (Rule.isPlain_of_read read).1 i

end Rulebook

/-! ## Reading a label -/

theorem eq_of_referenceWord? {tokens : List RuleToken} {label : String}
    (found : referenceWord? tokens = some label) : tokens = [⟨label, .identifier⟩] := by
  unfold referenceWord? at found
  split at found
  · next word =>
    obtain ⟨named, same⟩ := Option.ite_none_right_eq_some.1 found
    obtain rfl := Option.some.inj same
    rw [← named]
  · cases found

/-- A reference is read from a name by itself, in any number of brackets. -/
theorem RuleExpr.read_eq_ref_iff {words : List RuleToken} {i : Nat} :
    RuleExpr.read scope words = .ok (.ref i : RuleExpr R) ↔
      ∃ label, stripBrackets words = [⟨label, .identifier⟩] ∧ scope.rule? label = some i := by
  constructor
  · intro read
    cases RuleExpr.reads_of_read read with
    | ref refers known => exact ⟨_, eq_of_referenceWord? refers, known⟩
  · rintro ⟨label, stripped, known⟩
    exact RuleExpr.read_ref stripped known

namespace RuleText

theorem texts_classifyFrom (previous : Option WordClass) (ws : List (List Char)) :
    (classifyFrom previous ws).map (fun t => t.text.toList) = ws := by
  induction ws generalizing previous with
  | nil => rfl
  | cons w rest ih =>
    rw [classifyFrom, List.map_cons, ih, String.toList_ofList]

/-- A text without blanks, brackets and colons is spaced out for its units only. -/
theorem spaceOut_of_chars {s : List Char} (chars : ∀ c ∈ s, isWordChar c = true) :
    spaceOut s = spaceUnits s := by
  have noColon : ':' ∉ spaceUnits s := by
    intro member
    have kept : ':' ∈ Text.squeeze (spaceUnits s) := List.mem_filter.2 ⟨member, by decide⟩
    rw [squeeze_spaceUnits] at kept
    exact (isWordChar_iff.1 (chars ':' (List.mem_filter.1 kept).1)).2.2.2 rfl
  rw [spaceOut_eq, spaceBrackets_eq_self chars]
  exact spaceColons_eq_self (all_ne_colon noColon)

/-- A text without brackets is not enclosed in brackets. -/
theorem enclosed?_of_chars {s : List Char} (chars : ∀ c ∈ s, isWordChar c = true) :
    enclosed? (RuleText.tokenize s) = none := by
  refine Option.eq_none_iff_forall_not_mem.2 fun inner found => ?_
  obtain ⟨o, c, opens, -, whole⟩ := eq_of_enclosed? found
  have listed : o ∈ RuleText.tokenize s := whole ▸ List.mem_cons_self
  have member := (word_of_mem listed).1
  rw [text_of_opens listed opens] at member
  cases chars '(' (subset_of_mem_words member (by decide))

/-- An atom that holds a character of words has no others. -/
theorem IsAtom.chars {v : List Char} (atom : IsAtom v) {c : Char} (member : c ∈ v)
    (ofWord : isWordChar c = true) : ∀ c ∈ v, isWordChar c = true := by
  rcases atom with rfl | rfl | chars
  · obtain rfl := List.mem_singleton.1 member
    cases ofWord
  · obtain rfl := List.mem_singleton.1 member
    cases ofWord
  · exact chars

/-- An atom that a name is read from is this name. -/
theorem isReferable_of_stripBrackets {label name : String} (atom : IsAtom label.toList)
    (stripped : stripBrackets (RuleText.tokenize label.toList) = [⟨name, .identifier⟩]) :
    name = label ∧ IsReferable label := by
  have listed : (⟨name, .identifier⟩ : RuleToken) ∈ RuleText.tokenize label.toList :=
    stripBrackets_subset _ (stripped ▸ List.mem_cons_self)
  have plain : IsPlain name := isPlain_of_isChosen listed rfl
  have member : name.toList ∈ words label.toList := (word_of_mem listed).1
  have nonempty : name.toList ≠ [] := (exists_atom_of_mem_words member).1
  have chars : ∀ c ∈ label.toList, isWordChar c = true := by
    obtain ⟨c, others, spelled⟩ := List.exists_cons_of_ne_nil nonempty
    have first : c ∈ name.toList := spelled ▸ List.mem_cons_self
    exact atom.chars (subset_of_mem_words member first) (plain c first)
  -- So there are no brackets to be stripped, and the name is the only word of the label.
  rw [stripBrackets_of_unenclosed (enclosed?_of_chars chars)] at stripped
  have whole : words label.toList = [name.toList] := by
    rw [← texts_classifyFrom none (words label.toList), ← RuleText.tokenize, stripped]
    rfl
  have same : name.toList = label.toList := by
    have kept := flatten_words label.toList
    rw [whole, Text.squeeze_eq_self fun c member => (isWordChar_iff.1 (chars c member)).1] at kept
    simpa using kept
  have apart : UnitsApart label.toList := by
    have inside : name.toList ∈ Text.words (spaceOut label.toList) := member
    rw [spaceOut_of_chars chars, same] at inside
    exact (unitsApart_spaceUnits _).within (Text.infix_of_mem_words inside).1
  obtain rfl := String.toList_inj.1 same
  exact ⟨rfl, nonempty, chars, apart, noKeyword_of_isChosen listed rfl⟩

end RuleText

theorem splitLabel_of_none {tokens : List RuleToken} (unlabelled : (splitLabel tokens).1 = none) :
    (splitLabel tokens).2 = tokens := by
  unfold splitLabel at unlabelled ⊢
  split at unlabelled
  · next first rest =>
    split at unlabelled
    · cases unlabelled
    · next plain => simp only [plain, if_false]
  · rfl

/-- The words of a rule without a label. -/
theorem Rule.read_of_tokenize {s : List Char} {first : RuleToken} {rest : List RuleToken}
    (tokens : RuleText.tokenize s = first :: rest) (unlabelled : first.kind ≠ .label)
    (balanced : areBalanced 0 (first :: rest) = true) {expr : RuleExpr R}
    (read : RuleExpr.read scope (first :: rest) = .ok expr) :
    Rule.read scope s = .ok ⟨none, expr⟩ := by
  refine Rule.read_eq_ok_iff.2 ?_
  have split : splitLabel (first :: rest) = (none, first :: rest) := by
    simp only [splitLabel, unlabelled, if_false]
  rw [tokens, split]
  exact ⟨rfl, List.cons_ne_nil _ _, balanced, read⟩

namespace RuleText

open RuleTerm

variable {name other : String}

/-- A referable name that no qualifier stands in front of is taken for a name. -/
theorem IsReferable.classed (referable : IsReferable name) {previous : Option WordClass}
    (plain : ∀ word, previous ≠ some (.qualifier word)) (noValue : previous ≠ some .value) :
    Classed previous [⟨name, .identifier⟩] (some .identifier) := by
  refine classed_single ((classify_plain referable.noKeyword referable.chars).trans ?_)
  split
  · next word => exact absurd rfl (plain word)
  · exact absurd rfl noValue
  · rfl

theorem IsReferable.tokenize (referable : IsReferable name) :
    tokenize name.toList = [⟨name, .identifier⟩] :=
  (referable.classed (by simp) (by simp)).tokenize referable.spells

theorem IsReferable.tokenize_not (referable : IsReferable name) :
    RuleText.tokenize ("not " ++ name).toList = [⟨"not", .not⟩, ⟨name, .identifier⟩] := by
  have negates : Classed none [⟨"not", .not⟩] (some .not) := classed_keyword none rfl
  have classed := negates.append (referable.classed (by simp) (by simp))
  have spells := (spells_keyword (by decide : "not" ∈ _)).append referable.spells
  have text : ("not " ++ name).toList = "not".toList ++ ' ' :: name.toList := by simp
  rw [text]
  exact classed.tokenize spells

theorem IsReferable.tokenize_binary (first : IsReferable name) (second : IsReferable other)
    (op : BinaryOp) : RuleText.tokenize (name ++ " " ++ op.keyword ++ " " ++ other).toList =
      [⟨name, .identifier⟩, ⟨op.keyword, .binary op⟩, ⟨other, .identifier⟩] := by
  have operator : Classed (some .identifier) [⟨op.keyword, .binary op⟩] (some (.binary op)) :=
    classed_keyword _ (by cases op <;> rfl)
  have front : Classed none [⟨name, .identifier⟩] (some .identifier) :=
    first.classed (by simp) (by simp)
  have classed := front.append (operator.append (second.classed (by simp) (by simp)))
  have keyword : Spells op.keyword.toList [op.keyword.toList] :=
    spells_keyword (by cases op <;> decide)
  have spells := first.spells.append (keyword.append second.spells)
  have text : (name ++ " " ++ op.keyword ++ " " ++ other).toList =
      name.toList ++ ' ' :: (op.keyword.toList ++ ' ' :: other.toList) := by simp
  rw [text]
  exact classed.tokenize spells

theorem IsReferable.tokenize_qualified (referable : IsReferable name) (word : QualifierWord)
    {value unit : String} (ofValue : IsWord value.toList)
    (noKeyword : ruleKeywords.lookup value = none) (listed : unit ∈ ruleUnits) :
    RuleText.tokenize
        (name ++ " " ++ word.keyword ++ " " ++ value ++ " " ++ unit).toList =
      [⟨name, .identifier⟩, ⟨word.keyword, .qualifier word⟩, ⟨value, .value⟩, ⟨unit, .unit⟩] := by
  have front : Classed none [⟨name, .identifier⟩] (some .identifier) :=
    referable.classed (by simp) (by simp)
  have classed := front.append (classed_qualifier _ word ofValue noKeyword listed)
  have spells := referable.spells.append (spells_qualifier word ofValue listed)
  have text : (name ++ " " ++ word.keyword ++ " " ++ value ++ " " ++ unit).toList = name.toList ++
      ' ' :: (word.keyword.toList ++ ' ' :: (value.toList ++ ' ' :: unit.toList)) := by simp
  rw [text]
  exact classed.tokenize spells

end RuleText

/-- A label is read as a reference if it is a referable name, and to the rule that it names. -/
theorem Rule.read_label_iff {label : String} (atom : IsAtom label.toList) {i : Nat} :
    Rule.read scope label.toList = .ok (⟨none, .ref i⟩ : Rule R) ↔
      IsReferable label ∧ scope.rule? label = some i := by
  constructor
  · intro read
    obtain ⟨unlabelled, -, -, inside⟩ := Rule.read_eq_ok_iff.1 read
    rw [splitLabel_of_none unlabelled] at inside
    obtain ⟨name, stripped, known⟩ := RuleExpr.read_eq_ref_iff.1 inside
    obtain ⟨rfl, referable⟩ := isReferable_of_stripBrackets atom stripped
    exact ⟨referable, known⟩
  · rintro ⟨referable, known⟩
    exact Rule.read_of_tokenize referable.tokenize (by simp) rfl
      (RuleExpr.read_ref (stripBrackets_of_unenclosed rfl) known)

/-- A label refers to a rule: by itself, and as an operand of every form of larger rules, be they
written without brackets or with all of them. -/
structure RefersTo (R : Type) [Scalar R] (scope : RuleScope) (label : String) (rule : Nat) :
    Prop where
  alone : Rule.read scope label.toList = .ok (⟨none, .ref rule⟩ : Rule R)
  negated : Rule.read scope ("not " ++ label).toList = .ok (⟨none, .not (.ref rule)⟩ : Rule R)
  joined : ∀ op other otherRule, IsReferable other → scope.rule? other = some otherRule →
    Rule.read scope (label ++ " " ++ op.keyword ++ " " ++ other).toList =
      .ok (⟨none, .binary op (.ref rule) (.ref otherRule)⟩ : Rule R)
  qualified : ∀ word value unit (qualifier : Qualifier R), scope.isQuestion rule = true →
    Qualifier.read? word value unit = some qualifier →
    Rule.read scope (label ++ " " ++ word.keyword ++ " " ++ value ++ " " ++ unit).toList =
      .ok ⟨none, .qualified (.ref rule) word (value ++ unit) qualifier⟩
  named : (RuleTerm.ref label).resolve? scope = some (.ref rule : RuleExpr R)
  bracketed : ∀ (term : RuleTerm) (expr : RuleExpr R),
    (∀ name ∈ term.names, name = label ∨ IsReferable name) → term.resolve? scope = some expr →
    Rule.read scope (term.statement none).toList = .ok ⟨none, expr⟩

theorem refersTo_of_isReferable {label : String} (referable : IsReferable label) {rule : Nat}
    (known : scope.rule? label = some rule) : RefersTo R scope label rule where
  alone := (Rule.read_label_iff (.inr (.inr referable.chars))).2 ⟨referable, known⟩
  negated := by
    refine Rule.read_of_tokenize referable.tokenize_not (by simp) rfl ?_
    exact RuleExpr.read_not (stripBrackets_of_unenclosed rfl) rfl rfl rfl
      (RuleExpr.read_ref (stripBrackets_of_unenclosed rfl) known)
  joined op other otherRule second knownOther := by
    refine Rule.read_of_tokenize (referable.tokenize_binary second op) (by simp) rfl ?_
    have cut : splitAtOperator 0
        [⟨label, .identifier⟩, ⟨op.keyword, .binary op⟩, ⟨other, .identifier⟩] =
          some ([⟨label, .identifier⟩], op, [⟨other, .identifier⟩]) := rfl
    exact RuleExpr.read_binary (stripBrackets_of_unenclosed rfl) rfl rfl (by simp) rfl cut (by simp)
      (RuleExpr.read_ref (stripBrackets_of_unenclosed rfl) known)
      (RuleExpr.read_ref (stripBrackets_of_unenclosed rfl) knownOther)
  qualified word value unit qualifier asks accepted := by
    refine Rule.read_of_tokenize (referable.tokenize_qualified word
      (Qualifier.isWord_of_read? accepted) (Qualifier.noKeyword_of_read? accepted)
      (Qualifier.read?_cases accepted).1) (by simp) rfl ?_
    have ends : splitQualifier? [⟨label, .identifier⟩, ⟨word.keyword, .qualifier word⟩,
        ⟨value, .value⟩, ⟨unit, .unit⟩] = some ⟨[⟨label, .identifier⟩], word, value, unit⟩ := rfl
    exact RuleExpr.read_qualified (stripBrackets_of_unenclosed rfl) rfl rfl (by simp) ends
      (RuleExpr.read_ref (stripBrackets_of_unenclosed rfl) known) asks accepted
  named := by rw [RuleTerm.resolve?, known]; rfl
  bracketed term expr names resolves := by
    have legible := RuleTerm.isLegible_of_referable
      (fun name member => (names name member).elim (fun same => same ▸ referable) id) resolves
    refine Rule.read_of_tokenize (RuleTerm.tokenize_render legible) (by simp) ?_
      (RuleTerm.read_term resolves)
    exact term.closed_inner.inBrackets.isBalanced

/-! ## Labels of registered rules -/

namespace Rulebook

omit [Scalar R] in
/-- The label that a rule is registered under names a node. -/
theorem exists_node?_register {book : Rulebook R ν} (wf : book.WellFormed) {rule : Rule R}
    (known : rule.expr.Scoped book) :
    ∃ i, (book.register rule).1.node? (book.register rule).2 = some i := by
  have interned := intern_spec wf known
  have indexed := interned.wellFormed.index_labelOf interned.within
  rw [interned.label] at indexed
  rcases register_cases wf known with ⟨-, same⟩ | ⟨label, -, -, -, same⟩
  · rw [same]
    simp only [node?, indexed]
    cases (book.intern rule.expr).1.aliases.lookup (rule.expr.label book.labelOf) with
    | none => exact ⟨_, rfl⟩
    | some j => exact ⟨j, rfl⟩
  · rw [same]
    exact ⟨(book.intern rule.expr).2, by simp [node?]⟩

/-- A rule that is added after any run can be referred to by its label for good, whatever is done
later, if and only if the label is a referable name, and was given by the rule's own text or has not
been given to another rule in the run. -/
theorem label_referable_iff (behaviors : List String) (past : List (RuleOp R ν))
    (statement : String) {added : Rulebook R ν} {label : String}
    (ok : ((empty behaviors).performAll past).addRule statement = (added, .ok label)) :
    let book : Rulebook R ν := (empty behaviors).performAll past
    ∃ rule, Rule.read book.scope statement.toList = .ok rule ∧
      let root := (book.intern rule.expr).2
      ∀ later : List (RuleOp R ν),
        let scope := (added.performAll later).scope
        (Rule.read scope label.toList = .ok (⟨none, .ref root⟩ : Rule R) ↔
          IsReferable label ∧
            (rule.label = none → label ∉ (empty behaviors).chronicle nameGiven past)) ∧
        (Rule.read scope label.toList = .ok (⟨none, .ref root⟩ : Rule R) →
          RefersTo R scope label root) := by
  intro book
  have wf : book.WellFormed := wellFormed_performAll (wellFormed_empty behaviors) past
  have names : book.NamedBy _ := namedBy_performAll behaviors past
  obtain ⟨rule, read, rfl, rfl⟩ := addRule_eq_ok ok
  have known := scoped_of_read wf read
  obtain ⟨written, given⟩ := Rule.isPlain_of_read read
  have atom := (isPlain_performAll behaviors past).isAtom_register written given
  refine ⟨rule, read, ?_⟩
  intro root later scope
  -- What the label names when the rule is added it names later.
  obtain ⟨i, named⟩ := exists_node?_register wf known
  have still := node?_performAll (register_spec wf known).1 later named
  have names_root : scope.rule? (book.register rule).2 = some root ↔
      (rule.label = none →
        (book.register rule).2 ∉ (empty behaviors).chronicle nameGiven past) := by
    rw [← names.node?_register_iff wf known (conflict?_of_addRule ok read), named]
    exact iff_of_eq (congrArg (· = some root) still)
  refine ⟨?_, fun refers => ?_⟩
  · rw [Rule.read_label_iff atom, names_root]
  · obtain ⟨referable, resolved⟩ := (Rule.read_label_iff atom).1 refers
    exact refersTo_of_isReferable referable resolved

/-- A negation without a label of its own, in a rulebook that more is done with. -/
theorem label_referable_iff_negation :
    let book : Rulebook Float Unit := (empty ["a", "b"]).performAll [.addRule "go: a is complete"]
    let later : List (RuleOp Float Unit) := [.update [], .addRule "b is complete"]
    ∃ added label rule, book.addRule "not go" = (added, .ok label) ∧
      label = "not_a_is_complete" ∧ Rule.read book.scope "not go".toList = .ok rule ∧
      RefersTo Float (added.performAll later).scope label (book.intern rule.expr).2 := by
  intro book later
  have answer : (book.addRule "not go").2.toOption = some "not_a_is_complete" := by decide +kernel
  have given : (empty ["a", "b"] : Rulebook Float Unit).chronicle nameGiven
      [.addRule "go: a is complete"] = ["go"] := by decide +kernel
  have letters : "not_a_is_complete".toList.all isNameChar = true := by decide +kernel
  have name : IsName "not_a_is_complete" :=
    ⟨by decide, List.all_eq_true.1 letters, by decide +kernel⟩
  rcases ok : book.addRule "not go" with ⟨added, error | label⟩
  · rw [ok] at answer
    cases answer
  · rw [ok] at answer
    have named : label = "not_a_is_complete" := Option.some.inj answer
    obtain ⟨rule, read, refers⟩ :=
      label_referable_iff ["a", "b"] [.addRule "go: a is complete"] _ ok
    obtain ⟨iff, operand⟩ := refers later
    refine ⟨added, label, rule, rfl, named, read, operand (iff.2 ?_)⟩
    rw [given, named]
    exact ⟨name.isReferable, fun _ => by decide⟩

/-- The canonical label of a question that is qualified by a number of fingers. It names the
question, but cannot be read as a name. -/
theorem qualified_label_not_referable :
    let label := "tap_is_complete_using_2fingers"
    let book : Rulebook Float Unit :=
      (empty ["tap"]).performAll [.addRule "tap is complete using 2 fingers"]
    ((empty ["tap"] : Rulebook Float Unit).addRule
      "tap is complete using 2 fingers").2.toOption = some label ∧
    book.node? label = some 1 ∧
    book.rejection? (.addRule label) =
      some ⟨label, .unreadable "tap_is_complete_using_2 fingers"⟩ := by
  decide +kernel

end Rulebook

end TouchIntent
