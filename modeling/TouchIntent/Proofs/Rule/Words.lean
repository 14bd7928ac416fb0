import Mathlib
import TouchIntent.Proofs.Rule.Text

/-!
# The words that a text spells

A text that has a blank between any two words, brackets included, is cut into just these words.
Spacing it out adds blanks around the brackets, which does not matter, and none elsewhere, as long
as no digit is followed by what could be a unit and the only colon is that of a label.
-/

namespace TouchIntent

namespace Text

/-- A separator cuts a text in two. -/
theorem pieces_append {isSeparator : Char → Bool} (a b : List Char) {c : Char}
    (separates : isSeparator c = true) :
    pieces isSeparator (a ++ c :: b) = pieces isSeparator a ++ pieces isSeparator b := by
  induction a with
  | nil =>
    show pieces isSeparator (c :: b) = [] :: pieces isSeparator b
    rw [pieces, if_pos separates]
  | cons d rest ih =>
    rw [List.cons_append, pieces, pieces, ih]
    split
    · rfl
    · cases shown : pieces isSeparator rest with
      | nil => exact absurd shown (pieces_ne_nil isSeparator rest)
      | cons piece others => rfl

/-- A text without separators is a piece by itself. -/
theorem pieces_eq_singleton {isSeparator : Char → Bool} {s : List Char}
    (whole : ∀ c ∈ s, isSeparator c = false) : pieces isSeparator s = [s] := by
  induction s with
  | nil => rfl
  | cons c rest ih =>
    rw [pieces, whole c List.mem_cons_self,
      ih fun d member => whole d (List.mem_cons_of_mem _ member)]
    rfl

/-- No piece has a separator in it. -/
theorem isSeparator_of_mem_pieces {isSeparator : Char → Bool} {s piece : List Char}
    (listed : piece ∈ pieces isSeparator s) {c : Char} (member : c ∈ piece) :
    isSeparator c = false := by
  fun_induction pieces isSeparator s generalizing piece with
  | case1 =>
    obtain rfl := List.mem_singleton.1 listed
    cases member
  | case2 d rest separates ih =>
    rcases List.mem_cons.1 listed with rfl | listed
    · cases member
    · exact ih listed member
  | case3 d rest other none ih => exact absurd none (pieces_ne_nil isSeparator rest)
  | case4 d rest other first others shown ih =>
    rcases List.mem_cons.1 listed with rfl | listed
    · rcases List.mem_cons.1 member with rfl | member
      · exact Bool.not_eq_true _ ▸ other
      · exact ih (by rw [shown]; exact List.mem_cons_self) member
    · exact ih (by rw [shown]; exact List.mem_cons_of_mem _ listed) member

theorem words_append (a b : List Char) {c : Char} (blank : isBlank c = true) :
    words (a ++ c :: b) = words a ++ words b := by
  rw [words, pieces_append a b blank, List.filter_append]
  rfl

theorem words_eq_singleton {w : List Char} (nonempty : w ≠ [])
    (unblank : ∀ c ∈ w, isBlank c = false) : words w = [w] := by
  rw [words, pieces_eq_singleton unblank]
  simp [nonempty]

/-- Blanks in front spell nothing. -/
theorem words_dropWhile (s : List Char) : words (s.dropWhile isBlank) = words s := by
  induction s with
  | nil => rfl
  | cons c rest ih =>
    by_cases blank : isBlank c = true
    · rw [List.dropWhile_cons_of_pos blank, ih]
      exact (words_append [] rest blank).symm
    · rw [List.dropWhile_cons_of_neg blank]

end Text

namespace RuleText

/-! ## Characters of words -/

/-- The characters that end no word. -/
def isWordChar (c : Char) : Bool := !Text.isBlank c && c != '(' && c != ')' && c != ':'

/-- The characters of names: of words, and not a digit. -/
def isNameChar (c : Char) : Bool := isWordChar c && !Text.isDecimalDigit c

theorem isWordChar_iff {c : Char} :
    isWordChar c = true ↔ Text.isBlank c = false ∧ c ≠ '(' ∧ c ≠ ')' ∧ c ≠ ':' := by
  simp [isWordChar, and_assoc]

theorem isNameChar_iff {c : Char} :
    isNameChar c = true ↔ isWordChar c = true ∧ Text.isDecimalDigit c = false := by
  simp [isNameChar]

/-- The only decimal digits of ASCII are its own. -/
theorem isDecimalDigit_of_ascii {c : Char} (ascii : c.toNat < 128) :
    Text.isDecimalDigit c = true ↔ 48 ≤ c.toNat ∧ c.toNat < 58 := by
  have later : ∀ z ∈ Text.zeroDigits, z = 48 ∨ 128 ≤ z := by decide
  rw [Text.isDecimalDigit, List.any_eq_true]
  constructor
  · rintro ⟨z, listed, within⟩
    simp only [Bool.and_eq_true, decide_eq_true_eq] at within
    rcases later z listed with rfl | beyond <;> omega
  · intro within
    exact ⟨48, by decide, by simpa using within⟩

/-- In ASCII, what comes after the brackets is in words, but for the colon. -/
theorem isWordChar_of_ascii {c : Char} (low : 41 < c.toNat) (high : c.toNat < 128)
    (noColon : c.toNat ≠ 58) : isWordChar c = true := by
  have blank : Text.isBlank c = false := by
    simp only [Text.isBlank, Bool.or_eq_false_iff, Bool.and_eq_false_iff, decide_eq_false_iff_not,
      beq_eq_false_iff_ne]
    omega
  refine isWordChar_iff.2 ⟨blank, ?_, ?_, ?_⟩
  · rintro rfl
    exact absurd low (by decide)
  · rintro rfl
    exact absurd low (by decide)
  · rintro rfl
    exact noColon rfl

/-- Letters and underscores are characters of names. -/
theorem isNameChar_of_letter {c : Char} (letter : c.isAlpha = true ∨ c = '_') :
    isNameChar c = true := by
  have range : (65 ≤ c.toNat ∧ c.toNat ≤ 90) ∨ (97 ≤ c.toNat ∧ c.toNat ≤ 122) ∨ c.toNat = 95 := by
    rcases letter with alpha | rfl
    · simp only [Char.isAlpha, Char.isUpper, Char.isLower, Bool.or_eq_true, Bool.and_eq_true,
        decide_eq_true_eq, ge_iff_le, UInt32.le_iff_toNat_le] at alpha
      rcases alpha with ⟨low, high⟩ | ⟨low, high⟩
      · exact .inl ⟨low, high⟩
      · exact .inr (.inl ⟨low, high⟩)
    · exact .inr (.inr rfl)
  have digit : Text.isDecimalDigit c = false := by
    rw [← Bool.not_eq_true, isDecimalDigit_of_ascii (by omega)]
    omega
  exact isNameChar_iff.2 ⟨isWordChar_of_ascii (by omega) (by omega) (by omega), digit⟩

/-! ## Words -/

/-- A text that stays one word, wherever it stands between blanks. -/
structure IsWord (w : List Char) : Prop where
  nonempty : w ≠ []
  chars : ∀ c ∈ w, isWordChar c = true
  free : UnitFree w

/-- A name of a behaviour or of a rule, which is not to be taken for a word of the language. -/
structure IsName (name : String) : Prop where
  nonempty : name.toList ≠ []
  chars : ∀ c ∈ name.toList, isNameChar c = true
  noKeyword : ruleKeywords.lookup name = none

/-- A name that is read as one word, and as a name. -/
structure IsReferable (name : String) : Prop where
  nonempty : name.toList ≠ []
  chars : ∀ c ∈ name.toList, isWordChar c = true
  apart : UnitsApart name.toList
  noKeyword : ruleKeywords.lookup name = none

/-- A character that neither ends a number nor starts a unit keeps what stands around it apart. -/
theorem unitFree_append {a b : List Char} {c : Char} (noDigit : Text.isDecimalDigit c = false)
    (noUnit : startsUnit c = false) (first : UnitFree a) (second : UnitFree b) :
    UnitFree (a ++ c :: b) := by
  refine List.isChain_append.2 ⟨first, List.isChain_cons.2 ⟨fun d _ digit => ?_, second⟩, ?_⟩
  · rw [noDigit] at digit
    cases digit
  · intro x _ y next _
    obtain rfl := Option.some.inj next
    exact noUnit

theorem unitFree_of_chars {w : List Char} (chars : ∀ c ∈ w, isNameChar c = true) : UnitFree w := by
  refine unitFree_of_noDigit (List.all_eq_true.2 fun c member => ?_)
  rw [(isNameChar_iff.1 (chars c member)).2]
  rfl

theorem isWord_of_chars {w : List Char} (nonempty : w ≠ []) (chars : ∀ c ∈ w, isNameChar c = true) :
    IsWord w :=
  ⟨nonempty, fun c member => (isNameChar_iff.1 (chars c member)).1, unitFree_of_chars chars⟩

theorem IsName.isWord {name : String} (named : IsName name) : IsWord name.toList :=
  isWord_of_chars named.nonempty named.chars

theorem IsName.isReferable {name : String} (named : IsName name) : IsReferable name :=
  ⟨named.nonempty, named.isWord.chars, named.isWord.free.unitsApart, named.noKeyword⟩

/-! ## Spelling -/

/-- The text spells the words, and has nothing in it that would be taken for more. -/
structure Spells (s : List Char) (words : List (List Char)) : Prop where
  cut : Text.words (spaceBrackets s) = words
  apart : UnitsApart (spaceBrackets s)
  noColon : ':' ∉ spaceBrackets s

theorem spaceBrackets_append (a b : List Char) :
    spaceBrackets (a ++ b) = spaceBrackets a ++ spaceBrackets b := List.flatMap_append

theorem spaceBrackets_eq_self {w : List Char} (chars : ∀ c ∈ w, isWordChar c = true) :
    spaceBrackets w = w := by
  induction w with
  | nil => rfl
  | cons c rest ih =>
    obtain ⟨-, notOpen, notClose, -⟩ := isWordChar_iff.1 (chars c List.mem_cons_self)
    have others := ih fun d member => chars d (List.mem_cons_of_mem _ member)
    rw [spaceBrackets, List.flatMap_cons, if_neg (by simp [notOpen, notClose])]
    exact congrArg (c :: ·) others

/-- A word spells itself. -/
theorem spells_word {w : List Char} (nonempty : w ≠ []) (chars : ∀ c ∈ w, isWordChar c = true)
    (apart : UnitsApart w) : Spells w [w] := by
  have same := spaceBrackets_eq_self chars
  constructor
  · rw [same]
    exact Text.words_eq_singleton nonempty fun c member => (isWordChar_iff.1 (chars c member)).1
  · rw [same]
    exact apart
  · rw [same]
    intro member
    exact (isWordChar_iff.1 (chars ':' member)).2.2.2 rfl

theorem IsWord.spells {w : List Char} (word : IsWord w) : Spells w [w] :=
  spells_word word.nonempty word.chars word.free.unitsApart

theorem IsReferable.spells {name : String} (referable : IsReferable name) :
    Spells name.toList [name.toList] :=
  spells_word referable.nonempty referable.chars referable.apart

/-- A bracket is a word of its own. -/
theorem spells_bracket {c : Char} (bracket : c = '(' ∨ c = ')') : Spells [c] [[c]] := by
  rcases bracket with rfl | rfl
  · exact ⟨by decide, (unitFree_of_noDigit (by decide)).unitsApart, by decide⟩
  · exact ⟨by decide, (unitFree_of_noDigit (by decide)).unitsApart, by decide⟩

/-- A blank between two texts. -/
theorem Spells.append {a b : List Char} {ws vs : List (List Char)} (first : Spells a ws)
    (second : Spells b vs) : Spells (a ++ ' ' :: b) (ws ++ vs) := by
  have spaced : spaceBrackets (a ++ ' ' :: b) = spaceBrackets a ++ ' ' :: spaceBrackets b :=
    spaceBrackets_append a (' ' :: b)
  constructor
  · rw [spaced, Text.words_append _ _ (by decide), first.cut, second.cut]
  · rw [spaced]
    exact first.apart.append (by decide) (by decide) second.apart
  · rw [spaced]
    simp [first.noColon, second.noColon]

theorem all_ne_colon {s : List Char} (noColon : ':' ∉ s) : (s.all fun c => c != ':') = true := by
  rw [List.all_eq_true]
  intro c member
  rw [bne_iff_ne]
  rintro rfl
  exact noColon member

theorem Spells.tokenize {s : List Char} {ws : List (List Char)} (spells : Spells s ws) :
    RuleText.tokenize s = classifyFrom none ws := by
  rw [tokenize_of_unitsApart spells.apart (all_ne_colon spells.noColon), spells.cut]

/-- A colon takes the word in front of it along, and parts it from the rest. -/
theorem spaceColons_label {label : List Char} (chars : ∀ c ∈ label, isWordChar c = true)
    (s : List Char) : spaceColons (label ++ ':' :: s) =
      label ++ ':' :: ' ' :: spaceColons (s.dropWhile Text.isBlank) := by
  induction label with
  | nil =>
    rw [List.nil_append, spaceColons_of_opens (List.dropWhile_cons_of_neg (by decide))]
    rfl
  | cons c rest ih =>
    obtain ⟨unblank, -, -, notColon⟩ := isWordChar_iff.1 (chars c List.mem_cons_self)
    have kept : (c :: (rest ++ ':' :: s)).dropWhile Text.isBlank = c :: (rest ++ ':' :: s) :=
      List.dropWhile_cons_of_neg (by simp [unblank])
    have others := ih fun d member => chars d (List.mem_cons_of_mem _ member)
    have unopened : ∀ after,
        (c :: (rest ++ ':' :: s)).dropWhile Text.isBlank ≠ ':' :: after := by
      intro after found
      rw [kept] at found
      exact notColon (List.cons.inj found).1
    rw [List.cons_append, spaceColons_of_unopened unopened, others]
    rfl

/-- A label is what stands before its colon. -/
theorem dropColons_append {label : List Char} (noColon : ':' ∉ label) :
    ((label ++ [':']).reverse.dropWhile (· == ':')).reverse = label := by
  have last : label.reverse.dropWhile (· == ':') = label.reverse := by
    refine List.dropWhile_eq_self_iff.2 fun nonempty => ?_
    have inside := List.mem_reverse.1 (List.getElem_mem nonempty)
    rw [beq_iff_eq]
    intro colon
    exact noColon (colon ▸ inside)
  rw [List.reverse_concat, List.dropWhile_cons_of_pos (by decide), last, List.reverse_reverse]

/-- A label in front of a text is its first word. -/
theorem Spells.tokenize_label {label s : List Char} {ws : List (List Char)} (spells : Spells s ws)
    (ofWords : ∀ c ∈ label, isWordChar c = true) (labelApart : UnitsApart label) :
    RuleText.tokenize (label ++ ':' :: s) = classifyFrom none ((label ++ [':']) :: ws) := by
  have spaced : spaceBrackets (label ++ ':' :: s) = label ++ ':' :: spaceBrackets s := by
    rw [spaceBrackets_append, spaceBrackets_eq_self ofWords]
    rfl
  have apart : UnitsApart (label ++ ':' :: spaceBrackets s) :=
    labelApart.append (by decide) (by decide) spells.apart
  have plain : ':' ∉ (spaceBrackets s).dropWhile Text.isBlank :=
    fun member => spells.noColon ((List.dropWhile_sublist _).subset member)
  have first : Text.words (label ++ [':']) = [label ++ [':']] := by
    refine Text.words_eq_singleton (by simp) fun c member => ?_
    rcases List.mem_append.1 member with inLabel | colon
    · exact (isWordChar_iff.1 (ofWords c inLabel)).1
    · obtain rfl := List.mem_singleton.1 colon
      decide
  have cut : (label ++ ':' :: ' ' :: (spaceBrackets s).dropWhile Text.isBlank) =
      (label ++ [':']) ++ ' ' :: (spaceBrackets s).dropWhile Text.isBlank := by simp
  rw [RuleText.tokenize, words, spaceOut_eq, spaced, spaceUnits_eq_self apart,
    spaceColons_label ofWords, spaceColons_eq_self (all_ne_colon plain), cut,
    Text.words_append _ _ (by decide), first, Text.words_dropWhile, spells.cut]
  rfl

end RuleText

end TouchIntent
