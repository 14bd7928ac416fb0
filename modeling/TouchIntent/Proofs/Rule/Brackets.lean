import TouchIntent.Proofs.Rule.Text

/-!
# Brackets

Words whose brackets match each other are passed over as a whole: they neither open nor close
anything for the words around them, and an operator between their brackets is not found from
outside.
-/

namespace TouchIntent

/-- Words whose brackets match each other. -/
inductive Closed : List RuleToken → Prop
  | nil : Closed []
  | word {t : RuleToken} {rest : List RuleToken} (notOpen : t.kind ≠ .openBracket)
      (notClose : t.kind ≠ .closeBracket) (after : Closed rest) : Closed (t :: rest)
  | enclose {o c : RuleToken} {inner rest : List RuleToken} (opens : o.kind = .openBracket)
      (closes : c.kind = .closeBracket) (inside : Closed inner) (after : Closed rest) :
      Closed (o :: (inner ++ c :: rest))

/-- The words in a pair of brackets. -/
def bracketed (inner : List RuleToken) : List RuleToken :=
  ⟨"(", .openBracket⟩ :: (inner ++ [⟨")", .closeBracket⟩])

/-! ## One word -/

section Word

variable {t : RuleToken} (depth : Nat) (rest : List RuleToken)

theorem areBalanced_word (notOpen : t.kind ≠ .openBracket) (notClose : t.kind ≠ .closeBracket) :
    areBalanced depth (t :: rest) = areBalanced depth rest := by
  obtain ⟨text, kind⟩ := t
  cases kind with
  | openBracket => exact absurd rfl notOpen
  | closeBracket => exact absurd rfl notClose
  | _ => rfl

theorem areBalanced_open (opens : t.kind = .openBracket) :
    areBalanced depth (t :: rest) = areBalanced (depth + 1) rest := by
  rw [areBalanced.eq_def]
  simp only [opens]

theorem areBalanced_close (closes : t.kind = .closeBracket) :
    areBalanced (depth + 1) (t :: rest) = areBalanced depth rest := by
  rw [areBalanced.eq_def]
  simp only [closes]

/-- The word in front of what stands to the left of the operator. -/
def addLeft (ts : List RuleToken) : List RuleToken × BinaryOp × List RuleToken →
    List RuleToken × BinaryOp × List RuleToken
  | (left, op, right) => (ts ++ left, op, right)

theorem splitAtOperator_word (notOpen : t.kind ≠ .openBracket)
    (notClose : t.kind ≠ .closeBracket) :
    splitAtOperator (depth + 1) (t :: rest) =
      (splitAtOperator (depth + 1) rest).map (addLeft [t]) := by
  obtain ⟨text, kind⟩ := t
  cases kind with
  | openBracket => exact absurd rfl notOpen
  | closeBracket => exact absurd rfl notClose
  | _ => rfl

theorem splitAtOperator_open (opens : t.kind = .openBracket) :
    splitAtOperator depth (t :: rest) =
      (splitAtOperator (depth + 1) rest).map (addLeft [t]) := by
  rw [splitAtOperator.eq_def]
  simp only [opens]
  rfl

theorem splitAtOperator_close (closes : t.kind = .closeBracket) :
    splitAtOperator (depth + 1) (t :: rest) =
      (splitAtOperator depth rest).map (addLeft [t]) := by
  rw [splitAtOperator.eq_def]
  simp only [closes]
  rfl

theorem splitAtOperator_here {op : BinaryOp} (operator : t.kind = .binary op) :
    splitAtOperator 0 (t :: rest) = some ([], op, rest) := by
  rw [splitAtOperator.eq_def]
  simp only [operator, if_true]

end Word

theorem map_addLeft (ts us : List RuleToken)
    (found : Option (List RuleToken × BinaryOp × List RuleToken)) :
    (found.map (addLeft us)).map (addLeft ts) = found.map (addLeft (ts ++ us)) := by
  cases found with
  | none => rfl
  | some cut => simp [addLeft]

/-! ## Closed words -/

namespace Closed

variable {ts us inner : List RuleToken}

theorem append (first : Closed ts) (second : Closed us) : Closed (ts ++ us) := by
  induction first with
  | nil => exact second
  | word notOpen notClose _ ih => exact .word notOpen notClose ih
  | enclose opens closes inside _ _ ih =>
    rw [List.cons_append, List.append_assoc, List.cons_append]
    exact .enclose opens closes inside ih

theorem inBrackets (inside : Closed inner) : Closed (bracketed inner) :=
  .enclose rfl rfl inside .nil

/-- Closed words leave the brackets that are open as they are. -/
theorem areBalanced_append (closed : Closed ts) (depth : Nat) (us : List RuleToken) :
    areBalanced depth (ts ++ us) = areBalanced depth us := by
  induction closed generalizing depth us with
  | nil => rfl
  | word notOpen notClose _ ih =>
    rw [List.cons_append, areBalanced_word _ _ notOpen notClose]
    exact ih depth us
  | enclose opens closes _ _ ihIn ihAfter =>
    rw [List.cons_append, areBalanced_open _ _ opens, List.append_assoc, List.cons_append, ihIn,
      areBalanced_close _ _ closes]
    exact ihAfter depth us

theorem isBalanced (closed : Closed ts) : areBalanced 0 ts = true := by
  have passed := closed.areBalanced_append 0 []
  rwa [List.append_nil] at passed

/-- No operator is found in closed words while a bracket around them is open. -/
theorem splitAtOperator_append (closed : Closed ts) (depth : Nat) (us : List RuleToken) :
    splitAtOperator (depth + 1) (ts ++ us) =
      (splitAtOperator (depth + 1) us).map (addLeft ts) := by
  induction closed generalizing depth us with
  | nil =>
    cases found : splitAtOperator (depth + 1) us with
    | none => rw [List.nil_append, found]; rfl
    | some cut => rw [List.nil_append, found]; rfl
  | word notOpen notClose _ ih =>
    rw [List.cons_append, splitAtOperator_word _ _ notOpen notClose, ih, map_addLeft]
    rfl
  | enclose opens closes _ _ ihIn ihAfter =>
    rw [List.cons_append, splitAtOperator_open _ _ opens, List.append_assoc, List.cons_append,
      ihIn, splitAtOperator_close _ _ closes, ihAfter, map_addLeft, map_addLeft, map_addLeft]
    simp

/-! ## Words in brackets -/

/-- The brackets around closed words enclose them. -/
theorem enclosed?_bracketed (inside : Closed inner) : enclosed? (bracketed inner) = some inner := by
  simp [enclosed?, bracketed, inside.isBalanced]

theorem stripBrackets_bracketed (inside : Closed inner) (bare : enclosed? inner = none) :
    stripBrackets (bracketed inner) = inner := by
  rw [stripBrackets_of_enclosed inside.enclosed?_bracketed, stripBrackets_of_unenclosed bare]

/-- The operator behind closed words in brackets is the first one outside brackets. -/
theorem splitAtOperator_bracketed (inside : Closed inner) {t : RuleToken} {op : BinaryOp}
    (operator : t.kind = .binary op) (right : List RuleToken) :
    splitAtOperator 0 (bracketed inner ++ t :: right) = some (bracketed inner, op, right) := by
  rw [bracketed, List.cons_append, splitAtOperator_open _ _ rfl, List.append_assoc,
    inside.splitAtOperator_append, List.singleton_append, splitAtOperator_close _ _ rfl,
    splitAtOperator_here _ operator]
  simp [addLeft]

/-- Two pairs of brackets side by side do not enclose what is between them. -/
theorem enclosed?_between (inside : Closed inner) (between us : List RuleToken) :
    enclosed? (bracketed inner ++ (between ++ bracketed us)) = none := by
  obtain ⟨middle, named⟩ : ∃ middle, middle = inner ++ (⟨")", .closeBracket⟩ : RuleToken) ::
      (between ++ (⟨"(", .openBracket⟩ : RuleToken) :: us) := ⟨_, rfl⟩
  have shape : bracketed inner ++ (between ++ bracketed us) =
      ⟨"(", .openBracket⟩ :: (middle ++ [⟨")", .closeBracket⟩]) := by
    simp [bracketed, named]
  have unbalanced : areBalanced 0 middle = false := by
    rw [named, inside.areBalanced_append]
    rfl
  rw [shape, enclosed?, List.getLast?_concat]
  simp only [List.dropLast_concat, unbalanced, Bool.false_eq_true, and_false, if_false]

end Closed

/-- Words that do not start with a bracket are not enclosed. -/
theorem enclosed?_of_first {t : RuleToken} (notOpen : t.kind ≠ .openBracket)
    (rest : List RuleToken) : enclosed? (t :: rest) = none := by
  rw [enclosed?.eq_def]
  simp only [notOpen, false_and, if_false]
  split <;> rfl

/-- Words that do not end with a bracket are not enclosed. -/
theorem enclosed?_of_last {t : RuleToken} (notClose : t.kind ≠ .closeBracket)
    (ts : List RuleToken) : enclosed? (ts ++ [t]) = none := by
  cases ts with
  | nil => rfl
  | cons first rest =>
    rw [List.cons_append, enclosed?, List.getLast?_concat]
    simp only [notClose, false_and, and_false, if_false]

end TouchIntent
