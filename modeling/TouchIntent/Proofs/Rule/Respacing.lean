import TouchIntent.Proofs.Rule.References

/-!
# Spacing out once more

The words of a rule, with single blanks between them, are a rule of the same words: spacing such a
text out finds nothing left to do. It parts no unit from a digit, since none is left behind one; it
adds blanks around brackets that stand by themselves; and it takes a blank in front of a colon away
only if the colon is to be part of the word before. That cannot happen, since the words of a rule
are *settled*: a word that begins with a colon comes first or after one that ends with a colon.
-/

namespace TouchIntent

namespace Text

theorem words_cons_of_blank {c : Char} (blank : isBlank c = true) (s : List Char) :
    words (c :: s) = words s :=
  words_append [] s blank

/-- A text that begins with a word is cut behind it. -/
theorem words_cons_of_unblank {c : Char} (unblank : isBlank c = false) (s : List Char) :
    words (c :: s) =
      (c :: s.takeWhile fun d => !isBlank d) :: words (s.dropWhile fun d => !isBlank d) := by
  have whole : c :: s = (c :: s.takeWhile fun d => !isBlank d) ++ s.dropWhile fun d => !isBlank d :=
    congrArg (c :: ·) List.takeWhile_append_dropWhile.symm
  have first : words (c :: s.takeWhile fun d => !isBlank d) =
      [c :: s.takeWhile fun d => !isBlank d] := by
    refine words_eq_singleton (List.cons_ne_nil _ _) (List.forall_mem_cons.2 ⟨unblank, ?_⟩)
    intro d member
    simpa using List.mem_takeWhile_imp member
  cases later : s.dropWhile fun d => !isBlank d with
  | nil =>
    rw [later, List.append_nil] at whole
    rw [whole, first]
    rfl
  | cons d rest =>
    have blank : isBlank d = true := by
      have stops := List.head?_dropWhile_not (fun d => !isBlank d) s
      simpa [later] using stops
    rw [later] at whole
    rw [whole, words_append _ _ blank, first, words_cons_of_blank blank]
    rfl

/-- The first word begins where the text does, but for blanks. -/
theorem head?_of_head?_words {s w : List Char} (first : w ∈ (words s).head?) :
    w.head? = (s.dropWhile isBlank).head? := by
  induction s with
  | nil => cases first
  | cons c rest ih =>
    by_cases blank : isBlank c = true
    · rw [words_cons_of_blank blank] at first
      rw [List.dropWhile_cons_of_pos blank, ih first]
    · rw [words_cons_of_unblank (Bool.not_eq_true _ ▸ blank)] at first
      obtain rfl := Option.some.inj first
      rw [List.dropWhile_cons_of_neg blank]
      rfl

end Text

namespace RuleText

/-! ## No unit is found again -/

/-- Spacing brackets out puts no unit in front of a text. -/
theorem prefix_of_prefix_spaceBrackets {unit s : List Char}
    (plain : ∀ c ∈ unit, isWordChar c = true) (start : unit <+: spaceBrackets s) : unit <+: s := by
  induction s generalizing unit with
  | nil => exact start
  | cons c rest ih =>
    cases unit with
    | nil => exact List.nil_prefix
    | cons d others =>
      rw [spaceBrackets, List.flatMap_cons] at start
      split at start
      · obtain ⟨rfl, -⟩ := List.cons_prefix_cons.1 start
        exact absurd (plain ' ' List.mem_cons_self) (by decide)
      · obtain ⟨rfl, later⟩ := List.cons_prefix_cons.1 start
        exact List.cons_prefix_cons.2
          ⟨rfl, ih (fun e member => plain e (List.mem_cons_of_mem _ member)) later⟩

theorem unitsApart_spaceBrackets {s : List Char} (apart : UnitsApart s) :
    UnitsApart (spaceBrackets s) := by
  intro unit listed
  obtain ⟨-, chars⟩ := plain_of_unit listed
  have plain : ∀ c ∈ unit.toList, isWordChar c = true :=
    fun c member => (isNameChar_iff.1 (chars c member)).1
  have detached := apart unit listed
  clear apart
  induction s with
  | nil => exact detached
  | cons c rest ih =>
    obtain ⟨here, others⟩ := detached_cons.1 detached
    rw [spaceBrackets, List.flatMap_cons]
    split
    · next bracket =>
      have noDigit : Text.isDecimalDigit c = false := by
        rcases bracket with rfl | rfl <;> decide
      have never (d : Char) (other : isWordChar d = false) : d ∉ unit.toList := by
        intro member
        rw [plain d member] at other
        cases other
      have noBracket : c ∉ unit.toList := by
        rcases bracket with rfl | rfl <;> exact never _ (by decide)
      have bare : Detached unit.toList ([] : List Char) := fun d _ inside => by simp at inside
      have blank := never ' ' (by decide)
      exact bare.append (by decide) blank
        (bare.append noDigit noBracket (bare.append (by decide) blank (ih others)))
    · refine detached_cons.2 ⟨fun digit start => here digit ?_, ih others⟩
      exact prefix_of_prefix_spaceBrackets plain start

/-- Spacing colons out puts no unit in front of a text. -/
theorem prefix_of_prefix_spaceColons {unit s : List Char} (plain : ':' ∉ unit)
    (start : unit <+: spaceColons s) : unit <+: s := by
  fun_induction spaceColons s generalizing unit with
  | case1 => exact start
  | case2 c rest after found ih =>
    cases unit with
    | nil => exact List.nil_prefix
    | cons d others =>
      obtain ⟨rfl, -⟩ := List.cons_prefix_cons.1 start
      exact absurd List.mem_cons_self plain
  | case3 c rest noColon ih =>
    cases unit with
    | nil => exact List.nil_prefix
    | cons d others =>
      obtain ⟨rfl, later⟩ := List.cons_prefix_cons.1 start
      exact List.cons_prefix_cons.2
        ⟨rfl, ih (fun member => plain (List.mem_cons_of_mem _ member)) later⟩

theorem unitsApart_spaceColons {s : List Char} (apart : UnitsApart s) :
    UnitsApart (spaceColons s) := by
  intro unit listed
  have noColon : ':' ∉ unit.toList := fun member =>
    absurd ((plain_of_unit listed).2 ':' member) (by decide)
  have noBlank : ' ' ∉ unit.toList := fun member =>
    absurd ((plain_of_unit listed).2 ' ' member) (by decide)
  have bare : Detached unit.toList ([] : List Char) := fun d _ inside => by simp at inside
  have detached := apart unit listed
  clear apart
  fun_induction spaceColons s with
  | case1 => exact detached
  | case2 c rest after found ih =>
    have tail : after.dropWhile Text.isBlank <:+ c :: rest := by
      refine (List.dropWhile_suffix _).trans ((List.suffix_cons ':' after).trans ?_)
      rw [← found]
      exact List.dropWhile_suffix _
    have later := ih fun d digit inside => detached d digit (inside.trans tail.isInfix)
    exact bare.append (by decide) noColon (bare.append (by decide) noBlank later)
  | case3 c rest _ ih =>
    obtain ⟨here, others⟩ := detached_cons.1 detached
    exact detached_cons.2
      ⟨fun digit start => here digit (prefix_of_prefix_spaceColons noColon start), ih others⟩

theorem unitsApart_spaceOut (s : List Char) : UnitsApart (spaceOut s) :=
  unitsApart_spaceColons (unitsApart_spaceUnits (spaceBrackets s))

/-! ## Colons that have moved up -/

/-- The first character of a text that is not blank is a colon. -/
def OpensWithColon (s : List Char) : Prop := (s.dropWhile Text.isBlank).head? = some ':'

theorem opensWithColon_iff {s : List Char} :
    OpensWithColon s ↔ ∃ after, s.dropWhile Text.isBlank = ':' :: after :=
  List.head?_eq_some_iff

/-- A colon moves up to the start of a text that has only blanks before it. -/
theorem head?_spaceColons {s : List Char} (opens : OpensWithColon s) :
    (spaceColons s).head? = some ':' := by
  obtain ⟨after, found⟩ := opensWithColon_iff.1 opens
  rw [spaceColons_of_opens found]
  rfl

theorem opensWithColon_of_spaceColons {s : List Char} (opens : OpensWithColon (spaceColons s)) :
    OpensWithColon s := by
  fun_induction spaceColons s with
  | case1 => exact opens
  | case2 c rest after found ih => exact opensWithColon_iff.2 ⟨after, found⟩
  | case3 c rest noColon ih =>
    by_cases blank : Text.isBlank c = true
    · rw [OpensWithColon, List.dropWhile_cons_of_pos blank] at opens ⊢
      exact ih opens
    · rw [OpensWithColon, List.dropWhile_cons_of_neg blank] at opens ⊢
      exact opens

theorem opensWithColon_spaceBrackets {s : List Char} :
    OpensWithColon (spaceBrackets s) ↔ OpensWithColon s := by
  induction s with
  | nil => exact Iff.rfl
  | cons c rest ih =>
    rw [spaceBrackets, List.flatMap_cons]
    split
    · next bracket => rcases bracket with rfl | rfl <;> exact Iff.rfl
    · by_cases blank : Text.isBlank c = true
      · rw [OpensWithColon, OpensWithColon, List.singleton_append, List.dropWhile_cons_of_pos blank,
          List.dropWhile_cons_of_pos blank]
        exact ih
      · rw [OpensWithColon, OpensWithColon, List.singleton_append, List.dropWhile_cons_of_neg blank,
          List.dropWhile_cons_of_neg blank]
        rfl

/-- A word that begins with a colon stands behind one that ends with a colon. -/
def ColonAfterColon (w w' : List Char) : Prop := w'.head? = some ':' → w.getLast? = some ':'

/-- Every other colon has moved up to the word in front of it. -/
theorem isChain_words_spaceColons (s : List Char) :
    (Text.words (spaceColons s)).IsChain ColonAfterColon := by
  fun_induction spaceColons s with
  | case1 => exact .nil
  | case2 c rest after found ih =>
    have cut : Text.words (':' :: ' ' :: spaceColons (after.dropWhile Text.isBlank)) =
        [[':']] ++ Text.words (spaceColons (after.dropWhile Text.isBlank)) :=
      Text.words_append [':'] _ (by decide)
    rw [cut]
    exact List.isChain_cons.2 ⟨fun w _ _ => rfl, ih⟩
  | case3 c rest noColon ih =>
    by_cases blank : Text.isBlank c = true
    · rwa [Text.words_cons_of_blank blank]
    · have unblank : Text.isBlank c = false := Bool.not_eq_true _ ▸ blank
      cases shown : spaceColons rest with
      | nil =>
        rw [Text.words_eq_singleton (List.cons_ne_nil c []) (by simpa using unblank)]
        exact .singleton [c]
      | cons d later =>
        rw [shown] at ih
        by_cases space : Text.isBlank d = true
        · have cut : Text.words (c :: d :: later) = [[c]] ++ Text.words later := by
            have first := Text.words_eq_singleton (List.cons_ne_nil c []) (by simpa using unblank)
            rw [← first]
            exact Text.words_append [c] later space
          rw [Text.words_cons_of_blank space] at ih
          rw [cut]
          refine List.isChain_cons.2 ⟨fun w next colon => ?_, ih⟩
          -- The colon would have moved up to the character before the blank.
          have opens : OpensWithColon (spaceColons rest) := by
            rw [shown, OpensWithColon, List.dropWhile_cons_of_pos space]
            exact (Text.head?_of_head?_words next).symm.trans colon
          have moved := head?_spaceColons (opensWithColon_of_spaceColons opens)
          rw [shown] at moved
          obtain rfl := Option.some.inj moved
          cases space
        · have kept : Text.isBlank d = false := Bool.not_eq_true _ ▸ space
          rw [Text.words_cons_of_unblank kept] at ih
          rw [Text.words_cons_of_unblank unblank, List.takeWhile_cons_of_pos (by simp [kept]),
            List.dropWhile_cons_of_pos (by simp [kept])]
          obtain ⟨next, others⟩ := List.isChain_cons.1 ih
          refine List.isChain_cons.2 ⟨fun w listed colon => ?_, others⟩
          rw [List.getLast?_cons_cons]
          exact next w listed colon

/-! ## Settled words -/

/-- Words that stay as they are when they are put together with blanks between them. -/
structure AreSettled (ws : List (List Char)) : Prop where
  nonempty : ∀ w ∈ ws, w ≠ []
  unblank : ∀ w ∈ ws, ∀ c ∈ w, Text.isBlank c = false
  apart : ∀ w ∈ ws, UnitsApart w
  atoms : ∀ w ∈ ws, ∃ v, IsAtom v ∧ (w = v ∨ w = v ++ [':'])
  colons : ws.IsChain ColonAfterColon

theorem areSettled_words (s : List Char) : AreSettled (words s) where
  nonempty _ listed := (exists_atom_of_mem_words listed).1
  unblank _ listed := (Text.infix_of_mem_words listed).2.2
  apart _ listed := (unitsApart_spaceOut s).within (Text.infix_of_mem_words listed).1
  atoms _ listed := (exists_atom_of_mem_words listed).2
  colons := isChain_words_spaceColons _

/-! ## Spacing settled words out -/

theorem spaceColons_cons {c : Char} {s : List Char} (other : ¬ OpensWithColon (c :: s)) :
    spaceColons (c :: s) = c :: spaceColons s := by
  apply spaceColons_of_unopened
  intro after found
  exact other (opensWithColon_iff.2 ⟨after, found⟩)

theorem opensWithColon_cons_of_blank {c : Char} (blank : Text.isBlank c = true) {s : List Char} :
    OpensWithColon (c :: s) ↔ OpensWithColon s := by
  rw [OpensWithColon, List.dropWhile_cons_of_pos blank, OpensWithColon]

theorem opensWithColon_cons_of_unblank {c : Char} (unblank : Text.isBlank c = false)
    {s : List Char} : OpensWithColon (c :: s) ↔ c = ':' := by
  rw [OpensWithColon, List.dropWhile_cons_of_neg (by simp [unblank]), List.head?_cons,
    Option.some.injEq]

theorem not_opensWithColon_append {x y : List Char} (noColon : ':' ∉ x)
    (other : ¬ OpensWithColon y) : ¬ OpensWithColon (x ++ y) := by
  induction x with
  | nil => exact other
  | cons c rest ih =>
    obtain ⟨notColon, later⟩ := List.ne_and_not_mem_of_not_mem_cons noColon
    cases blank : Text.isBlank c with
    | true => exact mt (opensWithColon_cons_of_blank blank).1 (ih later)
    | false => exact mt (opensWithColon_cons_of_unblank blank).1 notColon.symm

/-- A text without colons stays, if no colon comes next. -/
theorem spaceColons_append {x y : List Char} (noColon : ':' ∉ x) (other : ¬ OpensWithColon y) :
    spaceColons (x ++ y) = x ++ spaceColons y := by
  induction x with
  | nil => rfl
  | cons c rest ih =>
    have plain : ¬ OpensWithColon (c :: (rest ++ y)) := not_opensWithColon_append noColon other
    rw [List.cons_append, spaceColons_cons plain, ih fun member =>
      noColon (List.mem_cons_of_mem c member)]
    rfl

/-- Blanks in front of a text change none of its words. -/
theorem words_spaceColons_dropWhile (s : List Char) :
    Text.words (spaceColons (s.dropWhile Text.isBlank)) = Text.words (spaceColons s) := by
  induction s with
  | nil => rfl
  | cons c rest ih =>
    cases blank : Text.isBlank c with
    | false => rw [List.dropWhile_cons_of_neg (by simp [blank])]
    | true =>
      rw [List.dropWhile_cons_of_pos blank, ih]
      by_cases opens : OpensWithColon rest
      · obtain ⟨after, found⟩ := opensWithColon_iff.1 opens
        have same := (List.dropWhile_cons_of_pos blank).trans found
        rw [spaceColons_of_opens found, spaceColons_of_opens same]
      · rw [spaceColons_cons (mt (opensWithColon_cons_of_blank blank).1 opens),
          Text.words_cons_of_blank blank]

/-- An atom is one word when its brackets are spaced out. -/
theorem IsAtom.words_spaceBrackets {v : List Char} (atom : IsAtom v) (nonempty : v ≠ []) :
    Text.words (spaceBrackets v) = [v] := by
  rcases atom with rfl | rfl | chars
  · decide
  · decide
  · rw [spaceBrackets_eq_self chars]
    exact Text.words_eq_singleton nonempty fun c member => (isWordChar_iff.1 (chars c member)).1

theorem IsAtom.noColon_spaceBrackets {v : List Char} (atom : IsAtom v) :
    ':' ∉ spaceBrackets v := by
  rcases atom with rfl | rfl | chars
  · decide
  · decide
  · rw [spaceBrackets_eq_self chars]
    exact (show IsAtom v from .inr (.inr chars)).noColon

/-- A colon makes one word with what stands right in front of it, and ends it. -/
theorem words_colon {w : List Char} (unblank : ∀ c ∈ w, Text.isBlank c = false) (s : List Char) :
    Text.words (w ++ ':' :: ' ' :: spaceColons (s.dropWhile Text.isBlank)) =
      (w ++ [':']) :: Text.words (spaceColons s) := by
  have whole : w ++ ':' :: ' ' :: spaceColons (s.dropWhile Text.isBlank) =
      (w ++ [':']) ++ ' ' :: spaceColons (s.dropWhile Text.isBlank) := by simp
  have first : Text.words (w ++ [':']) = [w ++ [':']] := by
    refine Text.words_eq_singleton (by simp) (List.forall_mem_append.2 ⟨unblank, ?_⟩)
    exact List.forall_mem_singleton.2 (by decide)
  rw [whole, Text.words_append _ _ (by decide), first, words_spaceColons_dropWhile]
  rfl

/-- The colon takes the blank away that stands between it and a bracket. -/
theorem spaceColons_bracket {c : Char} (unblank : Text.isBlank c = false) (notColon : c ≠ ':')
    (s : List Char) : spaceColons (' ' :: c :: ' ' :: ':' :: s) =
      ' ' :: c :: ':' :: ' ' :: spaceColons (s.dropWhile Text.isBlank) := by
  have plain : ¬ OpensWithColon (c :: ' ' :: ':' :: s) :=
    mt (opensWithColon_cons_of_unblank unblank).1 notColon
  have opens : (' ' :: ':' :: s).dropWhile Text.isBlank = ':' :: s := rfl
  rw [spaceColons_cons (mt (opensWithColon_cons_of_blank (by decide)).1 plain),
    spaceColons_cons plain, spaceColons_of_opens opens]

/-- An atom with a colon behind it stays one word, also if it is a bracket. -/
theorem IsAtom.words_spaceColons {v : List Char} (atom : IsAtom v) (s : List Char) :
    Text.words (spaceColons (spaceBrackets v ++ ':' :: s)) =
      (v ++ [':']) :: Text.words (spaceColons s) := by
  have bracket (c : Char) (unblank : Text.isBlank c = false) (notColon : c ≠ ':') :
      Text.words (spaceColons (' ' :: c :: ' ' :: ':' :: s)) =
        ([c] ++ [':']) :: Text.words (spaceColons s) := by
    rw [spaceColons_bracket unblank notColon, Text.words_cons_of_blank (by decide)]
    exact words_colon (List.forall_mem_singleton.2 unblank) s
  rcases atom with rfl | rfl | chars
  · exact bracket '(' (by decide) (by decide)
  · exact bracket ')' (by decide) (by decide)
  · rw [spaceBrackets_eq_self chars, spaceColons_label chars]
    exact words_colon (fun c member => (isWordChar_iff.1 (chars c member)).1) s

namespace AreSettled

variable {w w' : List Char} {ws : List (List Char)}

theorem tail (settled : AreSettled (w :: ws)) : AreSettled ws where
  nonempty v listed := settled.nonempty v (List.mem_cons_of_mem w listed)
  unblank v listed := settled.unblank v (List.mem_cons_of_mem w listed)
  apart v listed := settled.apart v (List.mem_cons_of_mem w listed)
  atoms v listed := settled.atoms v (List.mem_cons_of_mem w listed)
  colons := (List.isChain_cons.1 settled.colons).2

theorem unitsApart_intercalate (settled : AreSettled ws) : UnitsApart ([' '].intercalate ws) := by
  induction ws with
  | nil => exact (unitFree_of_noDigit (s := []) rfl).unitsApart
  | cons w rest ih =>
    have first := settled.apart w List.mem_cons_self
    cases rest with
    | nil => rwa [List.intercalate_singleton]
    | cons w' others =>
      rw [List.intercalate_cons_cons, List.append_assoc]
      exact first.append (by decide) (by decide) (ih settled.tail)

/-- What is put together of settled words begins with a colon only if the first word does. -/
theorem not_opensWithColon_intercalate (settled : AreSettled (w :: ws))
    (other : w.head? ≠ some ':') : ¬ OpensWithColon ([' '].intercalate (w :: ws)) := by
  obtain ⟨c, later, rfl⟩ := List.exists_cons_of_ne_nil (settled.nonempty w List.mem_cons_self)
  have unblank := settled.unblank _ List.mem_cons_self c List.mem_cons_self
  have begins : ∃ t, [' '].intercalate ((c :: later) :: ws) = c :: t := by
    cases ws with
    | nil => exact ⟨later, List.intercalate_singleton⟩
    | cons w' others => exact ⟨_, List.intercalate_cons_cons⟩
  obtain ⟨t, begins⟩ := begins
  rw [begins, opensWithColon_cons_of_unblank unblank]
  rintro rfl
  exact other rfl

theorem words_spaceColons (settled : AreSettled ws) :
    Text.words (spaceColons (spaceBrackets ([' '].intercalate ws))) = ws := by
  induction ws with
  | nil =>
    show Text.words (spaceColons []) = []
    rw [spaceColons_nil]
    rfl
  | cons w rest ih =>
    obtain ⟨v, atom, spelled⟩ := settled.atoms w List.mem_cons_self
    have nonempty := settled.nonempty w List.mem_cons_self
    cases rest with
    | nil =>
      rw [List.intercalate_singleton]
      rcases spelled with rfl | rfl
      · rw [spaceColons_eq_self (all_ne_colon atom.noColon_spaceBrackets),
          atom.words_spaceBrackets nonempty]
      · have alone := atom.words_spaceColons []
        rw [spaceColons_nil] at alone
        rw [spaceBrackets_append]
        exact alone
    | cons w' others =>
      have later := ih settled.tail
      rw [List.intercalate_cons_cons, List.append_assoc]
      rcases spelled with rfl | rfl
      · -- The next word does not begin with a colon, since this one does not end with one.
        have other : w'.head? ≠ some ':' := fun colon =>
          atom.noColon (List.mem_of_getLast? ((List.isChain_cons_cons.1 settled.colons).1 colon))
        have next := mt opensWithColon_spaceBrackets.1
          (settled.tail.not_opensWithColon_intercalate other)
        have noColon : ':' ∉ spaceBrackets w ++ [' '] := by
          simp [atom.noColon_spaceBrackets]
        have whole : spaceBrackets (w ++ ([' '] ++ [' '].intercalate (w' :: others))) =
            (spaceBrackets w ++ [' ']) ++ spaceBrackets ([' '].intercalate (w' :: others)) := by
          rw [spaceBrackets_append, spaceBrackets_append, List.append_assoc]
          rfl
        rw [whole, spaceColons_append noColon next, List.append_assoc, List.singleton_append,
          Text.words_append _ _ (by decide), atom.words_spaceBrackets nonempty, later]
        rfl
      · have whole : spaceBrackets ((v ++ [':']) ++ ([' '] ++ [' '].intercalate (w' :: others))) =
            spaceBrackets v ++ ':' :: ' ' :: spaceBrackets ([' '].intercalate (w' :: others)) := by
          rw [spaceBrackets_append, spaceBrackets_append, spaceBrackets_append, List.append_assoc]
          rfl
        have blanks := words_spaceColons_dropWhile
          (' ' :: spaceBrackets ([' '].intercalate (w' :: others)))
        rw [List.dropWhile_cons_of_pos (by decide), words_spaceColons_dropWhile, later] at blanks
        rw [whole, atom.words_spaceColons, ← blanks]

/-- Settled words are read back from what is put together of them. -/
theorem words_intercalate (settled : AreSettled ws) : words ([' '].intercalate ws) = ws := by
  have apart := unitsApart_spaceBrackets settled.unitsApart_intercalate
  rw [words, spaceOut_eq, spaceUnits_eq_self apart, settled.words_spaceColons]

end AreSettled

/-- Putting a rule in normal form twice is putting it in normal form once; and what is put together
of the words of a rule, with single blanks between them, is cut into the same words of the same
classes. -/
theorem normalize_stable (s : List Char) :
    normalize (normalize s) = normalize s ∧
      tokenize ([' '].intercalate ((tokenize s).map fun t => t.text.toList)) = tokenize s := by
  have back : words (normalize s) = words s := (areSettled_words s).words_intercalate
  have texts : (tokenize s).map (fun t => t.text.toList) = words s :=
    texts_classifyFrom none (words s)
  refine ⟨?_, ?_⟩
  · rw [normalize, back]
    rfl
  · rw [texts]
    exact congrArg (classifyFrom none) back

/-- A colon that a bracket or another colon stands in front of. -/
example : normalize "tap : :(:2s:)".toList = "tap: : (: 2 s: )".toList := by decide +kernel

end RuleText

end TouchIntent
