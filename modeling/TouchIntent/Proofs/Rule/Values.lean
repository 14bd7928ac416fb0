import TouchIntent.Proofs.Rule.Words

/-!
# The values of qualifiers

A value that a qualifier accepts is a single word, and not one of the language: it is put together
from numbers, and no number has a digit in front of what could be a unit. In `inf` and `nan`, which
may be numbers too, there is no digit at all.
-/

namespace TouchIntent

open RuleText

/-! ## Words of numbers -/

namespace RuleText

theorem unitFree_of_noStart {s : List Char} (noStart : ∀ c ∈ s, startsUnit c = false) :
    UnitFree s := by
  induction s with
  | nil => exact .nil
  | cons c rest ih =>
    have others : ∀ d ∈ rest, startsUnit d = false :=
      fun d member => noStart d (List.mem_cons_of_mem _ member)
    refine List.isChain_cons.2 ⟨fun d next _ => ?_, ih others⟩
    exact others d (List.mem_of_mem_head? next)

/-- The characters that decimal numbers are written with. -/
def isNumeric (c : Char) : Bool := c.isDigit || ['.', 'e', 'E', '+', '-'].contains c

theorem isNumeric_of_isDigit {c : Char} (digit : c.isDigit = true) : isNumeric c = true := by
  rw [isNumeric, digit, Bool.true_or]

theorem isWordChar_of_isNumeric {c : Char} (numeric : isNumeric c = true) :
    isWordChar c = true ∧ startsUnit c = false := by
  rcases Bool.or_eq_true_iff.1 numeric with digit | listed
  · have range : 48 ≤ c.toNat ∧ c.toNat ≤ 57 := by
      simp only [Char.isDigit, Bool.and_eq_true, decide_eq_true_eq, ge_iff_le,
        UInt32.le_iff_toNat_le] at digit
      exact digit
    refine ⟨isWordChar_of_ascii (by omega) (by omega) (by omega), ?_⟩
    rw [← Bool.not_eq_true, startsUnit, List.any_eq_true]
    rintro ⟨unit, listed, starts⟩
    have letters : ∀ unit ∈ ruleUnits, unit.toList.head?.all (fun d => !d.isDigit) = true := by
      decide
    have letter := letters unit listed
    rw [beq_iff_eq.1 starts, Option.all_some, digit] at letter
    cases letter
  · have others : ['.', 'e', 'E', '+', '-'].all (fun c => isWordChar c && !startsUnit c) =
        true := by
      decide
    simpa using List.all_eq_true.1 others c (List.contains_iff_mem.1 listed)

theorem isWord_of_numeric {w : List Char} (nonempty : w ≠ [])
    (numeric : ∀ c ∈ w, isNumeric c = true) : IsWord w :=
  ⟨nonempty, fun c member => (isWordChar_of_isNumeric (numeric c member)).1,
    unitFree_of_noStart fun c member => (isWordChar_of_isNumeric (numeric c member)).2⟩

/-- The characters between numbers, and in front of them. -/
def isMark (c : Char) : Bool := isNameChar c && !startsUnit c

theorem isMark_iff {c : Char} : isMark c = true ↔
    isWordChar c = true ∧ Text.isDecimalDigit c = false ∧ startsUnit c = false := by
  simp [isMark, isNameChar_iff, and_assoc]

theorem IsWord.mark {w : List Char} (word : IsWord w) {c : Char} (mark : isMark c = true) :
    IsWord (c :: w) := by
  obtain ⟨ofWords, noDigit, noUnit⟩ := isMark_iff.1 mark
  refine ⟨List.cons_ne_nil c w, fun d member => ?_, unitFree_append noDigit noUnit .nil word.free⟩
  rcases List.mem_cons.1 member with rfl | member
  · exact ofWords
  · exact word.chars d member

theorem IsWord.join {a b : List Char} (first : IsWord a) (second : IsWord b) {c : Char}
    (mark : isMark c = true) : IsWord (a ++ c :: b) := by
  obtain ⟨-, noDigit, noUnit⟩ := isMark_iff.1 mark
  refine ⟨by simp, fun d member => ?_, unitFree_append noDigit noUnit first.free second.free⟩
  rcases List.mem_append.1 member with member | member
  · exact first.chars d member
  · exact (second.mark mark).chars d member

end RuleText

namespace Text

/-! ## Numbers -/

theorem all_isDigit {s : List Char} (digits : isDigits s = true) :
    s ≠ [] ∧ ∀ c ∈ s, isNumeric c = true := by
  obtain ⟨nonempty, all⟩ := Bool.and_eq_true_iff.1 digits
  refine ⟨by simpa using nonempty, fun c member => ?_⟩
  exact isNumeric_of_isDigit (List.all_eq_true.1 all c member)

theorem sign_cases (s : List Char) :
    (sign s).2 = s ∨ ∃ c, (c = '-' ∨ c = '+') ∧ s = c :: (sign s).2 := by
  unfold sign
  split
  · exact .inr ⟨'-', .inl rfl, rfl⟩
  · exact .inr ⟨'+', .inr rfl, rfl⟩
  · exact .inl rfl

theorem isWord_of_natural? {limit n : Nat} {s : List Char} (ok : natural? limit s = some n) :
    IsWord s := by
  have word {digits : List Char} (digits' : isDigits digits = true) : IsWord digits :=
    isWord_of_numeric (all_isDigit digits').1 (all_isDigit digits').2
  unfold natural? at ok
  simp only [Option.ite_none_right_eq_some, Bool.and_eq_true] at ok
  obtain ⟨⟨digits, -⟩, -⟩ := ok
  split at digits
  · exact (word digits).mark (by decide)
  · exact word digits

theorem numeric_of_exponent? {s : List Char} {e : Int} (ok : exponent? s = some e) :
    ∀ c ∈ s, isNumeric c = true := by
  cases s with
  | nil => exact fun _ member => by cases member
  | cons mark rest =>
    simp only [exponent?, Option.ite_none_right_eq_some] at ok
    obtain ⟨marks, digits, -⟩ := ok
    have all := (all_isDigit digits).2
    have marked : isNumeric mark = true := by rcases marks with rfl | rfl <;> decide
    intro c member
    rcases List.mem_cons.1 member with rfl | member
    · exact marked
    · rcases sign_cases rest with same | ⟨d, signs, same⟩
      · rw [same] at all
        exact all c member
      · rw [same] at member
        rcases List.mem_cons.1 member with rfl | member
        · rcases signs with rfl | rfl <;> decide
        · exact all c member

theorem numeric_of_decimal? {s : List Char} {d : Nat × Int} (ok : decimal? s = some d) :
    s ≠ [] ∧ ∀ c ∈ s, isNumeric c = true := by
  have digits (t : List Char) : ∀ c ∈ t.takeWhile Char.isDigit, isNumeric c = true :=
    fun c member => isNumeric_of_isDigit (List.all_eq_true.1 List.all_takeWhile c member)
  have nonempty : s ≠ [] := by
    rintro rfl
    cases ok
  refine ⟨nonempty, ?_⟩
  unfold decimal? at ok
  simp only [Option.ite_none_left_eq_some] at ok
  obtain ⟨-, ok⟩ := ok
  obtain ⟨e, exponent, -⟩ := Option.map_eq_some_iff.1 ok
  have after : ∀ c ∈ s.dropWhile Char.isDigit, isNumeric c = true := by
    split at exponent
    · next rest point =>
      simp only at exponent
      rw [point]
      intro c member
      rcases List.mem_cons.1 member with rfl | member
      · decide
      · rw [← List.takeWhile_append_dropWhile (p := Char.isDigit) (l := rest)] at member
        rcases List.mem_append.1 member with member | member
        · exact digits rest c member
        · exact numeric_of_exponent? exponent c member
    · exact numeric_of_exponent? exponent
  intro c member
  rw [← List.takeWhile_append_dropWhile (p := Char.isDigit) (l := s)] at member
  rcases List.mem_append.1 member with member | member
  · exact digits s c member
  · exact after c member

/-- A letter of either case. -/
theorem isAlpha_of_toLower {c : Char} (lower : c.toLower.isAlpha = true) : c.isAlpha = true := by
  by_cases upper : c.val ≥ 'A'.val ∧ c.val ≤ 'Z'.val
  · have isUpper : c.isUpper = true := by simpa [Char.isUpper] using upper
    rw [Char.isAlpha, isUpper, Bool.true_or]
  · rwa [Char.toLower, dif_neg upper] at lower

variable {R : Type} [Scalar R]

theorem isWord_of_magnitude? {s : List Char} {x : R} (ok : magnitude? s = some x) : IsWord s := by
  unfold magnitude? at ok
  split at ok
  · next decimal =>
    obtain ⟨nonempty, numeric⟩ := numeric_of_decimal? decimal
    exact isWord_of_numeric nonempty numeric
  · -- Not a decimal number, so a name of letters.
    have spelled : ∀ name ∈ ["inf", "infinity", "nan"], String.ofList (s.map Char.toLower) = name →
        IsWord s := by
      intro name listed same
      have letters : ∀ name ∈ ["inf", "infinity", "nan"],
          name.toList ≠ [] ∧ name.toList.all Char.isAlpha = true := by decide
      obtain ⟨nonempty, alpha⟩ := letters name listed
      have lower : s.map Char.toLower = name.toList := by rw [← same, String.toList_ofList]
      refine isWord_of_chars ?_ fun c member => isNameChar_of_letter (.inl ?_)
      · rintro rfl
        exact nonempty lower.symm
      · exact isAlpha_of_toLower
          (List.all_eq_true.1 alpha _ (lower ▸ List.mem_map_of_mem member))
    simp only at ok
    split at ok
    · next named => rcases named with same | same <;> exact spelled _ (by simp) same
    · split at ok
      · next same => exact spelled "nan" (by simp) same
      · cases ok

theorem isWord_of_number? {s : List Char} {x : R} (ok : number? s = some x) : IsWord s := by
  obtain ⟨magnitude, read, -⟩ : ∃ m, magnitude? (sign s).2 = some m ∧ _ :=
    Option.map_eq_some_iff.1 ok
  have word := isWord_of_magnitude? read
  rcases sign_cases s with same | ⟨c, signs, same⟩
  · rwa [same] at word
  · rw [same]
    exact word.mark (by rcases signs with rfl | rfl <;> decide)

/-- What is neither a decimal number nor one of the names is no number. -/
theorem number?_eq_none {s : List Char} (noDecimal : decimal? (sign s).2 = none)
    (noName : ∀ name ∈ ["inf", "infinity", "nan"],
      String.ofList ((sign s).2.map Char.toLower) ≠ name) : (number? s : Option R) = none := by
  have unread : (magnitude? (sign s).2 : Option R) = none := by
    have inf := noName "inf" (by simp)
    have infinity := noName "infinity" (by simp)
    have nan := noName "nan" (by simp)
    rw [magnitude?, noDecimal]
    simp only [inf, infinity, nan, or_self, if_false]
  show Option.map _ (magnitude? (sign s).2 : Option R) = none
  rw [unread]
  rfl

theorem eq_of_dropStart? {c : Char} {s rest : List Char} (dropped : dropStart? [c] s = some rest) :
    s = c :: rest := by
  unfold dropStart? at dropped
  split at dropped
  · next starts =>
    obtain ⟨after, rfl⟩ := List.isPrefixOf_iff_prefix.1 starts
    obtain rfl := Option.some.inj dropped
    rfl
  · cases dropped

/-- A mark in front of a word, or none. -/
theorem isWord_of_getD {c : Char} {s : List Char} (mark : isMark c = true)
    (word : IsWord ((dropStart? [c] s).getD s)) : IsWord s := by
  cases dropped : dropStart? [c] s with
  | none => rwa [dropped] at word
  | some rest =>
    rw [dropped] at word
    rw [eq_of_dropStart? dropped]
    exact word.mark mark

end Text

namespace Qualifier

variable {R : Type} [Scalar R]

theorem isWord_of_bound? {s : List Char} {x : R} (ok : bound? s = some x) : IsWord s :=
  Text.isWord_of_number? (Option.filter_eq_some_iff.1 ok).1

theorem isWord_of_timeSpan? {scale : R} {value : List Char} {q : Qualifier R}
    (ok : timeSpan? scale value = some q) : IsWord value := by
  unfold timeSpan? at ok
  split at ok
  · next low high cut =>
    obtain ⟨l, below, ok⟩ := Option.bind_eq_some_iff.1 ok
    obtain ⟨h, above, -⟩ := Option.bind_eq_some_iff.1 ok
    rw [Text.eq_of_cut? cut]
    exact (isWord_of_bound? below).join (isWord_of_bound? above) (by decide)
  · split at ok
    · next low more =>
      obtain ⟨l, below, -⟩ := Option.bind_eq_some_iff.1 ok
      rw [Text.eq_of_dropStart? more]
      exact (isWord_of_bound? below).mark (by decide)
    · obtain ⟨h, above, -⟩ := Option.bind_eq_some_iff.1 ok
      exact Text.isWord_of_getD (by decide) (isWord_of_bound? above)

theorem isWord_of_bounds? {value : List Char} {bounds : Option R × Option R}
    (ok : bounds? value = some bounds) : IsWord value := by
  unfold bounds? at ok
  split at ok
  · next high less =>
    obtain ⟨h, above, -⟩ := Option.bind_eq_some_iff.1 ok
    rw [Text.eq_of_dropStart? less]
    exact (isWord_of_bound? above).mark (by decide)
  · obtain ⟨l, below, -⟩ := Option.bind_eq_some_iff.1 ok
    exact Text.isWord_of_getD (by decide) (isWord_of_bound? below)

variable {word : QualifierWord} {value unit : String} {q : Qualifier R}

/-- How a qualifier is read: its unit says what its value is read as. -/
theorem read?_cases (ok : read? word value unit = some q) : unit ∈ ruleUnits ∧
    ((∃ scale, timeSpan? scale value.toList = some q) ∨
      (∃ n, Text.natural? fingerLimit value.toList = some n) ∨
      ∃ bounds : Option R × Option R, bounds? value.toList = some bounds) := by
  cases word with
  | duration =>
    simp only [read?] at ok
    split at ok
    · next same => exact ⟨same ▸ by decide, .inl ⟨_, ok⟩⟩
    · split at ok
      · next same => exact ⟨same ▸ by decide, .inl ⟨_, ok⟩⟩
      · cases ok
  | fingers =>
    simp only [read?] at ok
    split at ok
    · next same =>
      obtain ⟨n, read, -⟩ := Option.map_eq_some_iff.1 ok
      exact ⟨same ▸ by decide, .inr (.inl ⟨n, read⟩)⟩
    · cases ok
  | contact =>
    simp only [read?] at ok
    split at ok
    · next same =>
      obtain ⟨bounds, read, -⟩ := Option.map_eq_some_iff.1 ok
      exact ⟨same ▸ by decide, .inr (.inr ⟨bounds, read⟩)⟩
    · split at ok
      · next same =>
        obtain ⟨bounds, read, -⟩ := Option.map_eq_some_iff.1 ok
        exact ⟨same ▸ by decide, .inr (.inr ⟨bounds, read⟩)⟩
      · cases ok

theorem isWord_of_read? (ok : read? word value unit = some q) : IsWord value.toList := by
  rcases (read?_cases ok).2 with ⟨scale, read⟩ | ⟨n, read⟩ | ⟨bounds, read⟩
  · exact isWord_of_timeSpan? read
  · exact Text.isWord_of_natural? read
  · exact isWord_of_bounds? read

/-- A value without any mark is a number, or it is not accepted. -/
theorem unread_of_bare {value : List Char} (cut : Text.cut? '-' value = none)
    (more : Text.dropStart? ['>'] value = none) (less : Text.dropStart? ['<'] value = none)
    (noNumber : (Text.number? value : Option R) = none) :
    (∀ scale : R, timeSpan? scale value = none) ∧
      (bounds? value : Option (Option R × Option R)) = none := by
  have unbounded : (bound? value : Option R) = none := by
    rw [bound?, noNumber]
    rfl
  constructor
  · intro scale
    rw [timeSpan?, cut]
    simp only [more, less, Option.getD_none, unbounded]
    rfl
  · rw [bounds?, less]
    simp only [more, Option.getD_none, unbounded]
    rfl

/-- No value is a word of the language. -/
theorem noKeyword_of_read? (ok : read? word value unit = some q) :
    ruleKeywords.lookup value = none := by
  have bare : ∀ keyword ∈ ruleKeywords.map Prod.fst,
      Text.cut? '-' keyword.toList = none ∧ Text.dropStart? ['>'] keyword.toList = none ∧
        Text.dropStart? ['<'] keyword.toList = none ∧
        Text.natural? fingerLimit keyword.toList = none ∧
        Text.decimal? (Text.sign keyword.toList).2 = none ∧
        ∀ name ∈ ["inf", "infinity", "nan"],
          String.ofList ((Text.sign keyword.toList).2.map Char.toLower) ≠ name := by
    decide +kernel
  rw [List.lookup_eq_none_iff]
  intro entry listed
  rw [bne_iff_ne]
  rintro rfl
  obtain ⟨cut, more, less, noCount, noDecimal, noName⟩ :=
    bare entry.1 (List.mem_map_of_mem listed)
  obtain ⟨noSpan, noBounds⟩ :=
    unread_of_bare (R := R) cut more less (Text.number?_eq_none noDecimal noName)
  rcases (read?_cases ok).2 with ⟨scale, read⟩ | ⟨n, read⟩ | ⟨bounds, read⟩
  · rw [noSpan] at read
    cases read
  · rw [noCount] at read
    cases read
  · rw [noBounds] at read
    cases read

end Qualifier

end TouchIntent
