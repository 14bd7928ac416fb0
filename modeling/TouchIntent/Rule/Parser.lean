import TouchIntent.Rule.Expr

/-!
# Reading rules

A rule is read by recursive descent over its words. Brackets around the whole are stripped. Then the
words are, in this order: a question about a behaviour, the label of a rule, a negation, a qualified
question, or two operands of the first operator outside brackets.
-/

namespace TouchIntent

/-- What the names in a rule may refer to. -/
structure RuleScope where
  behavior? : String → Option Nat
  rule? : String → Option Nat
  /-- The registered rule is a question about a behaviour. -/
  isQuestion : Nat → Bool

/-- Every bracket is closed, and none before it is opened; `depth` brackets are open already. -/
def areBalanced (depth : Nat) : List RuleToken → Bool
  | [] => depth == 0
  | t :: rest =>
    match t.kind, depth with
    | .openBracket, _ => areBalanced (depth + 1) rest
    | .closeBracket, 0 => false
    | .closeBracket, d + 1 => areBalanced d rest
    | _, _ => areBalanced depth rest

/-- What one pair of brackets encloses, if it encloses all of the words. -/
def enclosed? (tokens : List RuleToken) : Option (List RuleToken) :=
  match tokens with
  | first :: rest =>
    match rest.getLast? with
    | some last =>
      if first.kind = .openBracket ∧ last.kind = .closeBracket ∧ areBalanced 0 rest.dropLast then
        some rest.dropLast
      else none
    | none => none
  | [] => none

theorem length_of_enclosed? {tokens inner : List RuleToken} (h : enclosed? tokens = some inner) :
    inner.length < tokens.length := by
  unfold enclosed? at h
  split at h
  · split at h
    · split at h
      · cases h
        simp only [List.length_dropLast, List.length_cons]
        omega
      · cases h
    · cases h
  · cases h

/-- The words without the brackets that enclose them all. -/
def stripBrackets (tokens : List RuleToken) : List RuleToken :=
  match _found : enclosed? tokens with
  | some inner => stripBrackets inner
  | none => tokens
  termination_by tokens.length
  decreasing_by exact length_of_enclosed? _found

theorem length_stripBrackets (tokens : List RuleToken) :
    (stripBrackets tokens).length ≤ tokens.length := by
  fun_induction stripBrackets tokens with
  | case1 tokens inner found ih =>
    have := length_of_enclosed? found
    omega
  | case2 => exact Nat.le_refl _

/-- The first operator outside brackets, with what stands to its left and to its right. -/
def splitAtOperator (depth : Nat) :
    List RuleToken → Option (List RuleToken × BinaryOp × List RuleToken)
  | [] => none
  | t :: rest =>
    let continueAt (depth : Nat) :=
      (splitAtOperator depth rest).map fun (left, op, right) => (t :: left, op, right)
    match t.kind with
    | .binary op => if depth = 0 then some ([], op, rest) else continueAt depth
    | .openBracket => continueAt (depth + 1)
    | .closeBracket => continueAt (depth - 1)
    | _ => continueAt depth

theorem length_of_splitAtOperator {depth : Nat} {tokens left right : List RuleToken} {op : BinaryOp}
    (h : splitAtOperator depth tokens = some (left, op, right)) :
    left.length + right.length < tokens.length := by
  induction tokens generalizing depth left with
  | nil => simp [splitAtOperator] at h
  | cons t rest ih =>
    have goOn : ∀ d, (splitAtOperator d rest).map
        (fun (left, op, right) => (t :: left, op, right)) = some (left, op, right) →
        left.length + right.length < (t :: rest).length := by
      intro d hd
      obtain ⟨⟨l, o, r⟩, found, same⟩ := Option.map_eq_some_iff.1 hd
      simp only [Prod.mk.injEq] at same
      obtain ⟨rfl, rfl, rfl⟩ := same
      have := ih found
      simp only [List.length_cons]
      omega
    simp only [splitAtOperator] at h
    split at h
    · split at h
      · cases h
        simp
      · exact goOn _ h
    · exact goOn _ h
    · exact goOn _ h
    · exact goOn _ h

/-- The parts of words that end in a qualifier: what is qualified, and the qualifier. -/
structure QualifiedWords where
  operand : List RuleToken
  word : QualifierWord
  value : String
  unit : String

/-- Splits off a qualifier at the end. -/
def splitQualifier? (tokens : List RuleToken) : Option QualifiedWords :=
  match tokens.reverse with
  | unit :: value :: word :: before =>
    match word.kind, value.kind, unit.kind with
    | .qualifier kind, .value, .unit => some ⟨before.reverse, kind, value.text, unit.text⟩
    | _, _, _ => none
  | _ => none

theorem length_of_splitQualifier? {tokens : List RuleToken} {q : QualifiedWords}
    (h : splitQualifier? tokens = some q) : q.operand.length < tokens.length := by
  unfold splitQualifier? at h
  split at h
  · next unit value word before reversed =>
    have := congrArg List.length reversed
    split at h
    · cases h
      simp only [List.length_reverse, List.length_cons] at *
      omega
    · cases h
  · cases h

variable {R : Type} [Scalar R]

/-- Whether an expression is a question, or refers to one; only those take a qualifier. -/
def RuleExpr.isQuestion (scope : RuleScope) : RuleExpr R → Bool
  | ask .. => true
  | ref rule => scope.isQuestion rule
  | _ => false

/-- The words of a question about a behaviour. -/
def questionWords? (tokens : List RuleToken) : Option (String × Question) :=
  match tokens with
  | [name, aspect, progress] =>
    match name.kind, aspect.kind, progress.kind with
    | .identifier, .aspect a, .progress p => some (name.text, ⟨a, p⟩)
    | _, _, _ => none
  | _ => none

/-- The word that may be the label of a rule. -/
def referenceWord? (tokens : List RuleToken) : Option String :=
  match tokens with
  | [word] => if word.kind = .identifier then some word.text else none
  | _ => none

/-- Reads an expression. -/
def RuleExpr.read (scope : RuleScope) (words : List RuleToken) : Except RuleFault (RuleExpr R) :=
  match _stripped : stripBrackets words with
  | [] => .error .emptyExpression
  | first :: rest =>
    match questionWords? (first :: rest) with
    | some (name, question) =>
      match scope.behavior? name with
      | some behavior => .ok (.ask behavior name question)
      | none => .error (.unknownBehavior name)
    | none =>
      match referenceWord? (first :: rest) with
      | some label =>
        match scope.rule? label with
        | some rule => .ok (.ref rule)
        | none => .error (.unknownRule label)
      | none =>
        if first.kind = .not then do
          let operand ← read scope rest
          return .not operand
        else
          match _qualified : splitQualifier? (first :: rest) with
          | some q => do
            let operand ← read scope q.operand
            if ¬ operand.isQuestion scope then throw (.misplacedQualifier q.word)
            match Qualifier.read? q.word q.value q.unit with
            | some qualifier => return .qualified operand q.word (q.value ++ q.unit) qualifier
            | none => throw (.badQualifier q.word q.value q.unit)
          | none =>
            match _split : splitAtOperator 0 (first :: rest) with
            | some (left, op, right) => do
              if left.isEmpty ∨ right.isEmpty then throw (.missingOperand op)
              let left ← read scope left
              let right ← read scope right
              return .binary op left right
            | none => .error (.unreadable (" ".intercalate ((first :: rest).map RuleToken.text)))
  termination_by words.length
  decreasing_by
    all_goals
      have stripped := length_stripBrackets words
      rw [_stripped] at stripped
    · simp only [List.length_cons] at stripped
      omega
    · have := length_of_splitQualifier? _qualified
      omega
    · have := length_of_splitAtOperator _split
      omega
    · have := length_of_splitAtOperator _split
      omega

/-- A rule: the label that it is to have, if it has one, and what it says. -/
structure Rule (R : Type) where
  label : Option String
  expr : RuleExpr R

/-- The words of a rule without its label, and the label. -/
def splitLabel (tokens : List RuleToken) : Option String × List RuleToken :=
  match tokens with
  | first :: rest =>
    if first.kind = .label then
      (some (String.ofList ((first.text.toList.reverse.dropWhile (· == ':')).reverse)), rest)
    else (none, tokens)
  | [] => (none, [])

/-- Reads a rule. -/
def Rule.read (scope : RuleScope) (statement : List Char) : Except RuleFault (Rule R) :=
  let (label, words) := splitLabel (RuleText.tokenize statement)
  if words.isEmpty then .error .empty
  else if !areBalanced 0 words then .error .unbalancedBrackets
  else (RuleExpr.read scope words).map fun expr => ⟨label, expr⟩

end TouchIntent
