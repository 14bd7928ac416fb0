import TouchIntent.Proofs.Rule.Words

/-!
# What a rule is cut into

Spacing a text out parts every digit from the unit behind it, every bracket from what stands beside
it, and every colon from what comes behind it; it adds and takes away nothing but blanks. So the
words of a rule are all of it but its blanks, and each of them is a bracket, or a text without
brackets and colons, or one of these with a colon behind it. What stands in a rule for names, values
and units has neither.
-/

namespace TouchIntent

namespace Text

/-- The pieces of a text are all of it but the separators. -/
theorem flatten_pieces (isSeparator : Char → Bool) (s : List Char) :
    (pieces isSeparator s).flatten = s.filter fun c => !isSeparator c := by
  fun_induction pieces isSeparator s with
  | case1 => rfl
  | case2 c rest separates ih =>
    rw [List.flatten_cons, ih, List.filter_cons_of_neg (by simp [separates])]
    rfl
  | case3 c rest other none ih => exact absurd none (pieces_ne_nil isSeparator rest)
  | case4 c rest other first others shown ih =>
    rw [List.filter_cons_of_pos (by simpa using other), ← ih, shown]
    rfl

/-- The words of a text are all of it but the blanks. -/
theorem flatten_words (s : List Char) : (words s).flatten = squeeze s := by
  rw [words, List.flatten_filter_not_isEmpty, flatten_pieces]
  rfl

theorem infix_of_pieces_eq {isSeparator : Char → Bool} {s first : List Char}
    {others : List (List Char)} (shown : pieces isSeparator s = first :: others) :
    first <+: s ∧ ∀ piece ∈ others, piece <:+: s := by
  fun_induction pieces isSeparator s generalizing first others with
  | case1 =>
    obtain ⟨rfl, rfl⟩ := List.cons.inj shown
    exact ⟨List.prefix_refl [], List.forall_mem_nil _⟩
  | case2 c rest separates ih =>
    obtain ⟨rfl, rfl⟩ := List.cons.inj shown
    refine ⟨List.nil_prefix, fun piece listed => ?_⟩
    obtain ⟨next, later, split⟩ := List.exists_cons_of_ne_nil (pieces_ne_nil isSeparator rest)
    obtain ⟨start, inside⟩ := ih split
    rw [split] at listed
    rcases List.mem_cons.1 listed with rfl | listed
    · exact List.infix_cons start.isInfix
    · exact List.infix_cons (inside piece listed)
  | case3 c rest other none ih => exact absurd none (pieces_ne_nil isSeparator rest)
  | case4 c rest other next later split ih =>
    obtain ⟨rfl, rfl⟩ := List.cons.inj shown
    obtain ⟨start, inside⟩ := ih split
    exact ⟨List.cons_prefix_cons.2 ⟨rfl, start⟩,
      fun piece listed => List.infix_cons (inside piece listed)⟩

/-- A word is a stretch of the text without blanks. -/
theorem infix_of_mem_words {s w : List Char} (listed : w ∈ words s) :
    w <:+: s ∧ w ≠ [] ∧ ∀ c ∈ w, isBlank c = false := by
  obtain ⟨piece, nonempty⟩ := List.mem_filter.1 listed
  refine ⟨?_, by simpa using nonempty, fun c => isSeparator_of_mem_pieces piece⟩
  obtain ⟨first, others, shown⟩ := List.exists_cons_of_ne_nil (pieces_ne_nil isBlank s)
  obtain ⟨start, inside⟩ := infix_of_pieces_eq shown
  rw [shown] at piece
  rcases List.mem_cons.1 piece with rfl | piece
  · exact start.isInfix
  · exact inside w piece

theorem squeeze_dropWhile (s : List Char) : squeeze (s.dropWhile isBlank) = squeeze s := by
  rw [← flatten_words, words_dropWhile, flatten_words]

theorem squeeze_append (a b : List Char) : squeeze (a ++ b) = squeeze a ++ squeeze b :=
  List.filter_append a b

theorem squeeze_space (s : List Char) : squeeze (' ' :: s) = squeeze s :=
  List.filter_cons_of_neg (by decide)

theorem squeeze_cons_congr (c : Char) {s t : List Char} (same : squeeze s = squeeze t) :
    squeeze (c :: s) = squeeze (c :: t) := by
  calc squeeze ([c] ++ s) = squeeze [c] ++ squeeze t := by rw [squeeze_append, same]
    _ = squeeze ([c] ++ t) := (squeeze_append [c] t).symm

theorem squeeze_eq_self {s : List Char} (unblank : ∀ c ∈ s, isBlank c = false) : squeeze s = s :=
  List.filter_eq_self.2 fun c member => by simp [unblank c member]

end Text

namespace RuleText

/-! ## Units behind digits -/

/-- What a unit is written with. -/
theorem plain_of_unit {unit : String} (listed : unit ∈ ruleUnits) :
    unit.toList ≠ [] ∧ ∀ c ∈ unit.toList, isNameChar c = true := by
  have all : ∀ unit ∈ ruleUnits, unit.toList ≠ [] ∧ unit.toList.all isNameChar = true := by
    decide +kernel
  exact ⟨(all unit listed).1, List.all_eq_true.1 (all unit listed).2⟩

/-- Spacing a unit out puts nothing in front of a text but what has a blank in it. -/
theorem prefix_of_prefix_spaceUnit {w : List Char} (unit : List Char) {s : List Char}
    (noBlank : ' ' ∉ w) (start : w <+: spaceUnit unit s) : w <+: s := by
  induction s generalizing w with
  | nil => rwa [spaceUnit] at start
  | cons c rest ih =>
    cases w with
    | nil => exact List.nil_prefix
    | cons d others =>
      rw [spaceUnit] at start
      split at start
      · obtain ⟨rfl, later⟩ := List.cons_prefix_cons.1 start
        cases others with
        | nil => exact List.cons_prefix_cons.2 ⟨rfl, List.nil_prefix⟩
        | cons e _ =>
          obtain ⟨rfl, -⟩ := List.cons_prefix_cons.1 later
          exact absurd (List.mem_cons_of_mem d List.mem_cons_self) noBlank
      · obtain ⟨rfl, later⟩ := List.cons_prefix_cons.1 start
        exact List.cons_prefix_cons.2
          ⟨rfl, ih (fun member => noBlank (List.mem_cons_of_mem d member)) later⟩

/-- Spacing a unit out parts it from every digit, and leaves apart what was. -/
theorem detached_spaceUnit {unit v : String} (listed : unit ∈ ruleUnits) (spaced : v ∈ ruleUnits)
    {s : List Char} (apart : unit = v ∨ Detached unit.toList s) :
    Detached unit.toList (spaceUnit v.toList s) := by
  obtain ⟨nonempty, chars⟩ := plain_of_unit listed
  have noBlank : ' ' ∉ unit.toList := fun member => absurd (chars ' ' member) (by decide)
  fun_induction spaceUnit v.toList s with
  | case1 => exact fun c digit inside => by simp at inside
  | case2 c rest found ih =>
    have single : Detached unit.toList [c] := by
      refine detached_cons.2 ⟨fun _ start => nonempty (List.prefix_nil.1 start), ?_⟩
      exact fun d digit inside => by simp at inside
    have within : Detached unit.toList v.toList :=
      (unitFree_of_chars (plain_of_unit spaced).2).unitsApart unit listed
    have after : Detached unit.toList
        (spaceUnit v.toList ((rest.drop v.toList.length).dropWhile Text.isBlank)) := by
      refine ih (apart.imp_right fun all d digit inside => all d digit ?_)
      have tail : (rest.drop v.toList.length).dropWhile Text.isBlank <:+ c :: rest :=
        ((List.dropWhile_suffix _).trans (List.drop_suffix _ _)).trans (List.suffix_cons c rest)
      exact inside.trans tail.isInfix
    exact single.append (by decide) noBlank (within.append (by decide) noBlank after)
  | case3 c rest unfound ih =>
    have later : unit = v ∨ Detached unit.toList rest :=
      apart.imp_right fun all => (detached_cons.1 all).2
    refine detached_cons.2 ⟨fun digit start => ?_, ih later⟩
    have begins := prefix_of_prefix_spaceUnit v.toList noBlank start
    rcases apart with rfl | all
    · exact unfound (Bool.and_eq_true_iff.2 ⟨digit, List.isPrefixOf_iff_prefix.2 begins⟩)
    · exact (detached_cons.1 all).1 digit begins

/-- What is spaced out for its units has no unit behind a digit. -/
theorem unitsApart_spaceUnits (s : List Char) : UnitsApart (spaceUnits s) := by
  have fold : ∀ units : List String, (∀ unit ∈ units, unit ∈ ruleUnits) → ∀ s,
      ∀ unit ∈ ruleUnits, unit ∈ units ∨ Detached unit.toList s →
      Detached unit.toList (units.foldl (fun s unit => spaceUnit unit.toList s) s) := by
    intro units
    induction units with
    | nil => exact fun _ s unit _ apart => apart.resolve_left (List.not_mem_nil)
    | cons v rest ih =>
      intro known s unit listed apart
      refine ih (fun u member => known u (List.mem_cons_of_mem _ member)) _ unit listed ?_
      by_cases later : unit ∈ rest
      · exact .inl later
      · refine .inr (detached_spaceUnit listed (known v List.mem_cons_self) ?_)
        exact apart.imp_left fun member => (List.mem_cons.1 member).resolve_right later
  exact fun unit listed => fold ruleUnits (fun _ => id) s unit listed (.inl listed)

theorem squeeze_spaceUnit (unit s : List Char) :
    Text.squeeze (spaceUnit unit s) = Text.squeeze s := by
  fun_induction spaceUnit unit s with
  | case1 => rfl
  | case2 c rest found ih =>
    obtain ⟨after, rfl⟩ := List.isPrefixOf_iff_prefix.1 (Bool.and_eq_true_iff.1 found).2
    rw [List.drop_left] at ih ⊢
    refine Text.squeeze_cons_congr c ?_
    rw [Text.squeeze_space, Text.squeeze_append, Text.squeeze_space, ih, Text.squeeze_dropWhile,
      Text.squeeze_append]
  | case3 c rest _ ih => exact Text.squeeze_cons_congr c ih

theorem squeeze_spaceUnits (s : List Char) : Text.squeeze (spaceUnits s) = Text.squeeze s :=
  List.foldlRecOn (motive := fun t => Text.squeeze t = Text.squeeze s) ruleUnits _ rfl
    fun t same unit _ => (squeeze_spaceUnit unit.toList t).trans same

/-! ## Nothing but blanks -/

theorem squeeze_spaceBrackets (s : List Char) :
    Text.squeeze (spaceBrackets s) = Text.squeeze s := by
  induction s with
  | nil => rfl
  | cons c rest ih =>
    rw [spaceBrackets, List.flatMap_cons]
    split
    · show Text.squeeze (' ' :: c :: ' ' :: spaceBrackets rest) = Text.squeeze (c :: rest)
      rw [Text.squeeze_space]
      exact Text.squeeze_cons_congr c ((Text.squeeze_space _).trans ih)
    · exact Text.squeeze_cons_congr c ih

theorem squeeze_spaceColons (s : List Char) : Text.squeeze (spaceColons s) = Text.squeeze s := by
  fun_induction spaceColons s with
  | case1 => rfl
  | case2 c rest after found ih =>
    rw [← Text.squeeze_dropWhile (c :: rest), found]
    refine Text.squeeze_cons_congr ':' ?_
    rw [Text.squeeze_space, ih, Text.squeeze_dropWhile]
  | case3 c rest _ ih => exact Text.squeeze_cons_congr c ih

/-- The words of a rule are all of it but its blanks. -/
theorem flatten_words (s : List Char) : (words s).flatten = Text.squeeze s := by
  rw [words, Text.flatten_words]
  exact (squeeze_spaceColons _).trans ((squeeze_spaceUnits _).trans (squeeze_spaceBrackets s))

theorem subset_of_mem_words {s w : List Char} (listed : w ∈ words s) : w ⊆ s := by
  intro c inside
  have kept : c ∈ (words s).flatten := List.mem_flatten.2 ⟨w, listed, inside⟩
  rw [flatten_words] at kept
  exact (List.mem_filter.1 kept).1

/-! ## Brackets and colons -/

/-- A bracket. -/
def isBracket (c : Char) : Bool := c == '(' || c == ')'

/-- Two characters that stand side by side once the brackets are spaced out: beside a bracket there
is a blank. -/
structure Beside (c d : Char) : Prop where
  behind : isBracket c = true → Text.isBlank d = true
  ahead : isBracket d = true → Text.isBlank c = true

/-- Two characters that stand side by side once the colons are spaced out as well, which takes the
blank away between a bracket and a colon. -/
structure Parted (c d : Char) : Prop where
  colon : c ≠ ':' ∨ Text.isBlank d = true
  behind : isBracket c = true → Text.isBlank d = true ∨ d = ':'
  ahead : isBracket d = true → Text.isBlank c = true

theorem not_isBracket_of_isWordChar {c : Char} (ofWord : isWordChar c = true) :
    isBracket c = false := by
  obtain ⟨-, notOpen, notClose, -⟩ := isWordChar_iff.1 ofWord
  simp [isBracket, notOpen, notClose]

theorem beside_blank (c : Char) : Beside c ' ' where
  behind _ := by decide
  ahead bracket := absurd bracket (by decide)

theorem blank_beside (d : Char) : Beside ' ' d where
  behind bracket := absurd bracket (by decide)
  ahead _ := by decide

/-- A blank may stand between any two texts. -/
theorem isChain_append_blank {a b : List Char} (first : a.IsChain Beside)
    (second : b.IsChain Beside) : (a ++ ' ' :: b).IsChain Beside := by
  refine List.isChain_append.2
    ⟨first, List.isChain_cons.2 ⟨fun d _ => blank_beside d, second⟩, fun c _ d next => ?_⟩
  obtain rfl := Option.some.inj next
  exact beside_blank c

theorem isChain_of_chars {w : List Char} (chars : ∀ c ∈ w, isWordChar c = true) :
    w.IsChain Beside := by
  refine List.Pairwise.isChain (List.pairwise_of_forall_mem_list fun c hc d hd => ?_)
  constructor
  · intro bracket
    cases (not_isBracket_of_isWordChar (chars c hc)).symm.trans bracket
  · intro bracket
    cases (not_isBracket_of_isWordChar (chars d hd)).symm.trans bracket

/-- What is spaced out for its brackets does not begin with one. -/
theorem not_isBracket_of_head {s : List Char} {d : Char} (first : d ∈ (spaceBrackets s).head?) :
    isBracket d = false := by
  cases s with
  | nil => cases first
  | cons c rest =>
    rw [spaceBrackets, List.flatMap_cons] at first
    split at first
    · obtain rfl := Option.some.inj first
      rfl
    · next plain =>
      obtain rfl := Option.some.inj first
      simpa [isBracket] using plain

theorem isChain_spaceBrackets (s : List Char) : (spaceBrackets s).IsChain Beside := by
  induction s with
  | nil => exact .nil
  | cons c rest ih =>
    rw [spaceBrackets, List.flatMap_cons]
    split
    · exact isChain_append_blank (a := [' ', c]) (isChain_append_blank .nil (.singleton c)) ih
    · next plain =>
      have notBracket : isBracket c = false := by simpa [isBracket] using plain
      refine List.isChain_cons.2 ⟨fun d first => ⟨fun bracket => ?_, fun bracket => ?_⟩, ih⟩
      · cases notBracket.symm.trans bracket
      · cases (not_isBracket_of_head first).symm.trans bracket

theorem head?_spaceUnit (unit s : List Char) : (spaceUnit unit s).head? = s.head? := by
  cases s with
  | nil => rw [spaceUnit]
  | cons c rest =>
    rw [spaceUnit]
    split <;> rfl

theorem isChain_spaceUnit {unit : String} (listed : unit ∈ ruleUnits) {s : List Char}
    (chain : s.IsChain Beside) : (spaceUnit unit.toList s).IsChain Beside := by
  fun_induction spaceUnit unit.toList s with
  | case1 => exact chain
  | case2 c rest _ ih =>
    have word : unit.toList.IsChain Beside :=
      isChain_of_chars fun d member => (isNameChar_iff.1 ((plain_of_unit listed).2 d member)).1
    have after := ih (((List.isChain_cons.1 chain).2.drop _).suffix (List.dropWhile_suffix _))
    exact isChain_append_blank (.singleton c) (isChain_append_blank word after)
  | case3 c rest _ ih =>
    obtain ⟨first, others⟩ := List.isChain_cons.1 chain
    refine List.isChain_cons.2 ⟨?_, ih others⟩
    rwa [head?_spaceUnit]

theorem colon_parted : Parted ':' ' ' where
  colon := .inr (by decide)
  behind bracket := absurd bracket (by decide)
  ahead bracket := absurd bracket (by decide)

theorem blank_parted (d : Char) : Parted ' ' d where
  colon := .inl (by decide)
  behind bracket := absurd bracket (by decide)
  ahead _ := by decide

theorem parted_colon {c : Char} (notColon : c ≠ ':') : Parted c ':' where
  colon := .inl notColon
  behind _ := .inr rfl
  ahead bracket := absurd bracket (by decide)

theorem Beside.parted {c d : Char} (beside : Beside c d) (notColon : c ≠ ':') : Parted c d where
  colon := .inl notColon
  behind bracket := .inl (beside.behind bracket)
  ahead := beside.ahead

/-- What is spaced out for its colons begins as it did, or with a colon that has moved up. -/
theorem head_of_spaceColons {s : List Char} {d : Char} (first : d ∈ (spaceColons s).head?) :
    d = ':' ∨ d ∈ s.head? := by
  fun_induction spaceColons s with
  | case1 => exact .inr first
  | case2 c rest after found ih => exact .inl (Option.some.inj first).symm
  | case3 c rest noColon ih => exact .inr first

/-- The colons are parted from what follows them, and the brackets from all but the colons. -/
theorem isChain_spaceColons {s : List Char} (chain : s.IsChain Beside) :
    (spaceColons s).IsChain Parted := by
  fun_induction spaceColons s with
  | case1 => exact .nil
  | case2 c rest after found ih =>
    have tail : after.dropWhile Text.isBlank <:+ c :: rest := by
      refine (List.dropWhile_suffix _).trans ((List.suffix_cons ':' after).trans ?_)
      rw [← found]
      exact List.dropWhile_suffix _
    refine List.isChain_cons.2 ⟨fun d first => ?_, List.isChain_cons.2 ⟨fun d _ => ?_, ?_⟩⟩
    · obtain rfl := Option.some.inj first
      exact colon_parted
    · exact blank_parted d
    · exact ih (chain.suffix tail)
  | case3 c rest noColon ih =>
    obtain ⟨first, others⟩ := List.isChain_cons.1 chain
    have notColon : c ≠ ':' := by
      rintro rfl
      exact noColon rest (List.dropWhile_cons_of_neg (by decide))
    refine List.isChain_cons.2 ⟨fun d next => ?_, ih others⟩
    rcases head_of_spaceColons next with rfl | beside
    · exact parted_colon notColon
    · exact (first d beside).parted notColon

theorem isChain_spaceOut (s : List Char) : (spaceOut s).IsChain Parted :=
  isChain_spaceColons <| List.foldlRecOn (motive := List.IsChain Beside) ruleUnits _
    (isChain_spaceBrackets s) fun _ chain _ listed => isChain_spaceUnit listed chain

/-- A text that is a bracket, or holds neither brackets nor colons nor blanks. -/
def IsAtom (v : List Char) : Prop :=
  v = ['('] ∨ v = [')'] ∨ ∀ c ∈ v, isWordChar c = true

theorem IsAtom.noColon {v : List Char} (atom : IsAtom v) : ':' ∉ v := by
  rcases atom with rfl | rfl | chars
  · decide
  · decide
  · exact fun member => (isWordChar_iff.1 (chars ':' member)).2.2.2 rfl

theorem isAtom_singleton {c : Char} (unblank : Text.isBlank c = false) (notColon : c ≠ ':') :
    IsAtom [c] := by
  by_cases opens : c = '('
  · exact .inl (by rw [opens])
  · by_cases closes : c = ')'
    · exact .inr (.inl (by rw [closes]))
    · exact .inr (.inr fun d member =>
        List.mem_singleton.1 member ▸ isWordChar_iff.2 ⟨unblank, opens, closes, notColon⟩)

theorem Parted.noColon {c d : Char} (parted : Parted c d) (next : Text.isBlank d = false) :
    c ≠ ':' :=
  parted.colon.resolve_right (by simp [next])

/-- One more character in front of an atom, which is no bracket then. -/
theorem IsAtom.cons {c d : Char} {v : List Char} (atom : IsAtom (d :: v)) (parted : Parted c d)
    (here : Text.isBlank c = false) (next : Text.isBlank d = false) : IsAtom (c :: d :: v) := by
  have notBracket : isBracket d = false := by
    rw [← Bool.not_eq_true]
    intro bracket
    cases here.symm.trans (parted.ahead bracket)
  have chars : ∀ e ∈ d :: v, isWordChar e = true := by
    rcases atom with same | same | chars
    · obtain rfl := (List.cons.inj same).1
      cases notBracket
    · obtain rfl := (List.cons.inj same).1
      cases notBracket
    · exact chars
  -- A bracket has only a colon behind it.
  have plain : isBracket c = false := by
    rw [← Bool.not_eq_true]
    intro bracket
    rcases parted.behind bracket with blank | rfl
    · cases next.symm.trans blank
    · exact atom.noColon List.mem_cons_self
  simp only [isBracket, Bool.or_eq_false_iff, beq_eq_false_iff_ne] at plain
  have ofWord := isWordChar_iff.2 ⟨here, plain.1, plain.2, parted.noColon next⟩
  exact .inr (.inr (List.forall_mem_cons.2 ⟨ofWord, chars⟩))

/-- What has no blank and is parted everywhere is an atom, with a colon behind it or without. -/
theorem exists_atom {w : List Char} (chain : w.IsChain Parted)
    (unblank : ∀ c ∈ w, Text.isBlank c = false) : ∃ v, IsAtom v ∧ (w = v ∨ w = v ++ [':']) := by
  induction w with
  | nil => exact ⟨[], .inr (.inr (List.forall_mem_nil _)), .inl rfl⟩
  | cons c rest ih =>
    have here := unblank c List.mem_cons_self
    cases rest with
    | nil =>
      by_cases colon : c = ':'
      · exact ⟨[], .inr (.inr (List.forall_mem_nil _)), .inr (by rw [colon]; rfl)⟩
      · exact ⟨[c], isAtom_singleton here colon, .inl rfl⟩
    | cons d later =>
      obtain ⟨parted, others⟩ := List.isChain_cons_cons.1 chain
      have next := unblank d (List.mem_cons_of_mem c List.mem_cons_self)
      obtain ⟨v, atom, spelled⟩ :=
        ih others fun e member => unblank e (List.mem_cons_of_mem c member)
      cases v with
      | nil =>
        rcases spelled with spelled | spelled
        · cases spelled
        · exact ⟨[c], isAtom_singleton here (parted.noColon next), .inr (by rw [spelled]; rfl)⟩
      | cons e v =>
        obtain rfl : d = e := by
          rcases spelled with spelled | spelled
          · exact (List.cons.inj spelled).1
          · exact (List.cons.inj spelled).1
        exact ⟨c :: d :: v, atom.cons parted here next,
          spelled.imp (congrArg (c :: ·)) (congrArg (c :: ·))⟩

/-- Every word of a rule is an atom, with a colon behind it or without. -/
theorem exists_atom_of_mem_words {s w : List Char} (listed : w ∈ words s) :
    w ≠ [] ∧ ∃ v, IsAtom v ∧ (w = v ∨ w = v ++ [':']) := by
  obtain ⟨inside, nonempty, unblank⟩ := Text.infix_of_mem_words listed
  have chain : w.IsChain Parted := List.IsChain.infix (isChain_spaceOut s) inside
  exact ⟨nonempty, exists_atom chain unblank⟩

end RuleText

/-! ## Words of the author's choice -/

/-- The author of a rule chooses its names, values and units. -/
def WordClass.isChosen : WordClass → Bool
  | .identifier | .value | .unit => true
  | _ => false

namespace RuleText

/-- The text has no blanks, brackets and colons. -/
def IsPlain (text : String) : Prop := ∀ c ∈ text.toList, isWordChar c = true

instance (text : String) : Decidable (IsPlain text) :=
  decidable_of_iff (text.toList.all isWordChar = true) List.all_eq_true

theorem isPlain_append {a b : String} (first : IsPlain a) (second : IsPlain b) :
    IsPlain (a ++ b) := by
  intro c member
  rw [String.toList_append] at member
  exact (List.mem_append.1 member).elim (first c) (second c)

theorem word_of_mem {previous : Option WordClass} {ws : List (List Char)} {t : RuleToken}
    (listed : t ∈ classifyFrom previous ws) :
    t.text.toList ∈ ws ∧ ∃ before, t.kind = classify before t.text := by
  induction ws generalizing previous with
  | nil => cases listed
  | cons w rest ih =>
    rcases List.mem_cons.1 listed with rfl | listed
    · rw [String.toList_ofList]
      exact ⟨List.mem_cons_self, previous, rfl⟩
    · obtain ⟨member, known⟩ := ih listed
      exact ⟨List.mem_cons_of_mem w member, known⟩

/-- A word is one of the language, or the label of a rule, which ends in a colon, or of the author's
choice. -/
theorem classify_cases (previous : Option WordClass) (text : String) :
    (text, classify previous text) ∈ ruleKeywords ∨
    ruleKeywords.lookup text = none ∧
      (text.toList.getLast? = some ':' ∧ classify previous text = .label ∨
        text.toList.getLast? ≠ some ':' ∧ (classify previous text).isChosen = true) := by
  rw [classify.eq_def]
  cases found : ruleKeywords.lookup text with
  | some kind =>
    left
    obtain ⟨before, after, whole, -⟩ := List.lookup_eq_some_iff.1 found
    rw [whole]
    exact List.mem_append_right _ List.mem_cons_self
  | none =>
    refine .inr ⟨rfl, ?_⟩
    by_cases ends : text.toList.getLast? = some ':'
    · exact .inl ⟨ends, if_pos ends⟩
    · refine .inr ⟨ends, ?_⟩
      simp only [if_neg ends]
      split
      · rfl
      · split <;> rfl
      · rfl

/-- An opening bracket is known by its text. -/
theorem text_of_opens {s : List Char} {t : RuleToken} (listed : t ∈ tokenize s)
    (opens : t.kind = .openBracket) : t.text = "(" := by
  have keywords : ∀ entry ∈ ruleKeywords, entry.2 = .openBracket → entry.1 = "(" := by
    decide +kernel
  obtain ⟨-, before, kind⟩ := word_of_mem listed
  rcases classify_cases before t.text with keyword | ⟨-, ⟨-, other⟩ | ⟨-, other⟩⟩
  · exact keywords _ keyword (kind.symm.trans opens)
  · cases opens.symm.trans (kind.trans other)
  · rw [← kind, opens] at other
    cases other

/-- What is chosen by the author is no word of the language. -/
theorem noKeyword_of_isChosen {s : List Char} {t : RuleToken} (listed : t ∈ tokenize s)
    (chosen : t.kind.isChosen = true) : ruleKeywords.lookup t.text = none := by
  have keywords : ∀ entry ∈ ruleKeywords, entry.2.isChosen = false := by decide +kernel
  obtain ⟨-, before, kind⟩ := word_of_mem listed
  rw [kind] at chosen
  rcases classify_cases before t.text with keyword | ⟨noKeyword, -⟩
  · cases (keywords _ keyword).symm.trans chosen
  · exact noKeyword

/-- What is chosen by the author has no blanks, brackets and colons. -/
theorem isPlain_of_isChosen {s : List Char} {t : RuleToken} (listed : t ∈ tokenize s)
    (chosen : t.kind.isChosen = true) : IsPlain t.text := by
  have noKeyword := noKeyword_of_isChosen listed chosen
  obtain ⟨member, before, kind⟩ := word_of_mem listed
  obtain ⟨-, v, atom, spelled⟩ := exists_atom_of_mem_words member
  have noColon : t.text.toList.getLast? ≠ some ':' := by
    rcases classify_cases before t.text with keyword | ⟨-, ⟨-, label⟩ | ⟨noColon, -⟩⟩
    · have unknown := (List.lookup_eq_none_iff.1 noKeyword) _ keyword
      simp at unknown
    · rw [kind, label] at chosen
      cases chosen
    · exact noColon
  obtain rfl : t.text.toList = v := spelled.resolve_right fun ends => noColon (by simp [ends])
  rcases atom with opens | closes | chars
  · rw [← String.ofList_toList (s := t.text), opens] at noKeyword
    cases noKeyword
  · rw [← String.ofList_toList (s := t.text), closes] at noKeyword
    cases noKeyword
  · exact chars

/-- The label that a rule is given is an atom. -/
theorem isAtom_of_splitLabel {s : List Char} {label : String}
    (given : (splitLabel (tokenize s)).1 = some label) : IsAtom label.toList := by
  cases shown : tokenize s with
  | nil =>
    rw [shown] at given
    cases given
  | cons first rest =>
    obtain ⟨member, before, kind⟩ :=
      word_of_mem (show first ∈ tokenize s from shown ▸ List.mem_cons_self)
    obtain ⟨-, v, atom, spelled⟩ := exists_atom_of_mem_words member
    rw [shown, splitLabel] at given
    split at given
    · next labels =>
      have keywords : ∀ entry ∈ ruleKeywords, entry.2 ≠ .label := by decide +kernel
      have ends : first.text.toList.getLast? = some ':' := by
        rcases classify_cases before first.text with keyword | ⟨-, ⟨ends, -⟩ | ⟨-, chosen⟩⟩
        · exact absurd (kind.symm.trans labels) (keywords _ keyword)
        · exact ends
        · rw [← kind, labels] at chosen
          cases chosen
      have whole : first.text.toList = v ++ [':'] :=
        spelled.resolve_left fun same => atom.noColon (same ▸ List.mem_of_getLast? ends)
      obtain rfl := Option.some.inj given
      simp only [whole, String.toList_ofList, dropColons_append atom.noColon]
      exact atom
    · cases given

end RuleText

end TouchIntent
