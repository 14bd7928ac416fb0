import TouchIntent.Proofs.Rule.Questions
import TouchIntent.Proofs.Rule.References
import TouchIntent.Proofs.Rule.Respacing

/-!
# Watching a behaviour

The listener of a behaviour is served by a rule that asks about the behaviour in every cycle. This
rule is put together as a text from the label of the behaviour, and read like any other. A gesture
may be labelled by any text, so it is decided by the label whether the rule can be read: it can if
and only if the label is a referable name. In front, because no other word of the text can be the
label of the rule; and behind, because the behaviour has to be asked for by one word.
-/

namespace TouchIntent

open RuleText RuleTerm

/-! ## Words that can be read -/

section Words

/-- Only brackets are stripped. -/
theorem mem_stripBrackets {tokens : List RuleToken} {t : RuleToken} (listed : t ∈ tokens)
    (opens : t.kind ≠ .openBracket) (closes : t.kind ≠ .closeBracket) :
    t ∈ stripBrackets tokens := by
  fun_induction stripBrackets tokens with
  | case1 tokens inner found ih =>
    obtain ⟨o, c, opening, closing, rfl⟩ := eq_of_enclosed? found
    refine ih ?_
    rcases List.mem_cons.1 listed with rfl | listed
    · exact absurd opening opens
    · rcases List.mem_append.1 listed with inside | last
      · exact inside
      · exact absurd (List.mem_singleton.1 last ▸ closing) closes
  | case2 => exact listed

variable {R : Type} [Scalar R] {scope : RuleScope} {words : List RuleToken} {expr : RuleExpr R}

/-- No word of an expression is a label. -/
theorem RuleExpr.Reads.noLabel (reads : Reads scope words expr) :
    ∀ t ∈ words, t.kind ≠ .label := by
  have stripped {words : List RuleToken} (inside : ∀ t ∈ stripBrackets words, t.kind ≠ .label) :
      ∀ t ∈ words, t.kind ≠ .label := by
    intro t listed labels
    exact inside t (mem_stripBrackets listed (by simp [labels]) (by simp [labels])) labels
  induction reads with
  | ask asks _ =>
    refine stripped ?_
    unfold questionWords? at asks
    split at asks
    · next whole =>
      split at asks
      · next named asked progressing =>
        rw [whole]
        simp [named, asked, progressing]
      · cases asks
    · cases asks
  | ref refers _ =>
    refine stripped ?_
    rw [eq_of_referenceWord? refers]
    simp
  | not front negates _ ih =>
    refine stripped ?_
    rw [front]
    exact List.forall_mem_cons.2 ⟨by simp [negates], ih⟩
  | qualified ends _ _ _ ih =>
    refine stripped ?_
    obtain ⟨w, qualifies, whole⟩ := eq_of_splitQualifier? ends
    rw [whole]
    exact List.forall_mem_append.2 ⟨ih, by simp [qualifies]⟩
  | binary cut _ _ ihl ihr =>
    refine stripped ?_
    obtain ⟨t, operator, whole⟩ := eq_of_splitAtOperator cut
    rw [whole]
    exact List.forall_mem_append.2 ⟨ihl, List.forall_mem_cons.2 ⟨by simp [operator], ihr⟩⟩

/-- An expression is about something that it names. -/
theorem RuleExpr.Reads.exists_name (reads : Reads scope words expr) :
    ∃ t ∈ words, t.kind = .identifier := by
  have stripped {words : List RuleToken}
      (inside : ∃ t ∈ stripBrackets words, t.kind = .identifier) :
      ∃ t ∈ words, t.kind = .identifier := by
    obtain ⟨t, listed, named⟩ := inside
    exact ⟨t, stripBrackets_subset _ listed, named⟩
  induction reads with
  | ask asks _ => exact stripped ⟨_, mem_of_questionWords? asks, rfl⟩
  | ref refers _ =>
    refine stripped ?_
    rw [eq_of_referenceWord? refers]
    exact ⟨_, List.mem_cons_self, rfl⟩
  | not front _ _ ih =>
    obtain ⟨t, listed, named⟩ := ih
    exact stripped ⟨t, front ▸ List.mem_cons_of_mem _ listed, named⟩
  | qualified ends _ _ _ ih =>
    obtain ⟨t, listed, named⟩ := ih
    obtain ⟨w, -, whole⟩ := eq_of_splitQualifier? ends
    exact stripped ⟨t, whole ▸ List.mem_append_left _ listed, named⟩
  | binary cut _ _ ihl _ =>
    obtain ⟨t, listed, named⟩ := ihl
    obtain ⟨o, -, whole⟩ := eq_of_splitAtOperator cut
    exact stripped ⟨t, whole ▸ List.mem_append_left _ listed, named⟩

end Words

namespace RuleText

/-- A word with a colon in it is a label. -/
theorem label_of_colon {s : List Char} {t : RuleToken} (listed : t ∈ tokenize s)
    (colon : ':' ∈ t.text.toList) : t.kind = .label := by
  have keywords : ∀ entry ∈ ruleKeywords, ':' ∉ entry.1.toList := by decide +kernel
  obtain ⟨-, before, kind⟩ := word_of_mem listed
  rcases classify_cases before t.text with keyword | ⟨-, ⟨-, label⟩ | ⟨-, chosen⟩⟩
  · exact absurd colon (keywords _ keyword)
  · exact kind.trans label
  · have plain := isPlain_of_isChosen listed (kind ▸ chosen)
    exact absurd rfl (isWordChar_iff.1 (plain ':' colon)).2.2.2

/-- A text that begins with a character of words still does so when it is spaced out. -/
theorem spaceOut_cons {c : Char} (ofWord : isWordChar c = true) (s : List Char) :
    ∃ rest, spaceOut (c :: s) = c :: rest := by
  obtain ⟨unblank, notOpen, notClose, notColon⟩ := isWordChar_iff.1 ofWord
  have brackets : spaceBrackets (c :: s) = c :: spaceBrackets s := by
    rw [spaceBrackets, List.flatMap_cons, if_neg (by simp [notOpen, notClose])]
    rfl
  have units : ∀ units : List String,
      (units.foldl (fun s unit => spaceUnit unit.toList s) (spaceBrackets (c :: s))).head? =
        some c := by
    intro units
    induction units using List.reverseRecOn with
    | nil => rw [List.foldl_nil, brackets, List.head?_cons]
    | append_singleton units unit ih => rw [List.foldl_concat, head?_spaceUnit, ih]
  obtain ⟨rest, whole⟩ := List.head?_eq_some_iff.1 (units ruleUnits)
  refine ⟨spaceColons rest, ?_⟩
  rw [spaceOut, whole, spaceColons_cons]
  rw [opensWithColon_cons_of_unblank unblank]
  exact notColon

/-- The first word of a text that begins with one stands in front when the text is spaced out. -/
theorem prefix_spaceOut_of_words {c : Char} {s w : List Char} {others : List (List Char)}
    (ofWord : isWordChar c = true) (cut : words (c :: s) = w :: others) :
    w <+: spaceOut (c :: s) := by
  obtain ⟨spaced, whole⟩ := spaceOut_cons ofWord s
  rw [words, whole, Text.words_cons_of_unblank (isWordChar_iff.1 ofWord).1] at cut
  rw [whole, ← (List.cons.inj cut).1]
  exact List.cons_prefix_cons.2 ⟨rfl, List.takeWhile_prefix _⟩

/-- The first word of a text, up to its colon, is written in the text as it stands. -/
theorem prefix_of_prefix_spaceOut {s w : List Char} (chars : ∀ c ∈ w, isWordChar c = true)
    (start : w <+: spaceOut s) : w <+: s := by
  have noBlank : ' ' ∉ w := fun member => absurd (chars ' ' member) (by decide)
  have noColon : ':' ∉ w := fun member => absurd (chars ':' member) (by decide)
  have units : ∀ (units : List String) (t : List Char),
      w <+: units.foldl (fun s unit => spaceUnit unit.toList s) t → w <+: t := by
    intro units
    induction units with
    | nil => exact fun _ => id
    | cons unit rest ih => exact fun t start => prefix_of_prefix_spaceUnit _ noBlank (ih _ start)
  exact prefix_of_prefix_spaceBrackets chars
    (units ruleUnits _ (prefix_of_prefix_spaceColons noColon start))

end RuleText

/-! ## Reading the rule -/

/-- The label of the rule that watches a behaviour. -/
def watchLabel (behavior : String) : String := behavior ++ "_notification_dummy"

/-- What the rule that watches a behaviour is meant to say. -/
def Rule.watching {R : Type} (behavior : Nat) (name : String) : Rule R :=
  ⟨some (watchLabel name), .ask behavior name ⟨.is, .complete⟩⟩

theorem toList_watchRule (behavior : String) : (Rulebook.watchRule behavior).toList =
    (watchLabel behavior).toList ++ ':' :: ' ' ::
      (behavior.toList ++ ' ' :: ("is".toList ++ ' ' :: "complete".toList)) := by
  simp [Rulebook.watchRule, watchLabel]

namespace RuleText

variable {name : String}

/-- The words of the rule that watches a behaviour, if the label of the behaviour is one word. -/
theorem tokenize_watchRule (nonempty : name.toList ≠ [])
    (chars : ∀ c ∈ name.toList, isWordChar c = true) (apart : UnitsApart name.toList) :
    tokenize (Rulebook.watchRule name).toList =
      [⟨String.ofList ((watchLabel name).toList ++ [':']), .label⟩,
        ⟨name, classify (some .label) name⟩, ⟨"is", .aspect .is⟩,
        ⟨"complete", .progress .complete⟩] := by
  have labelChars : ∀ c ∈ (watchLabel name).toList, isWordChar c = true := by
    rw [watchLabel, String.toList_append]
    have others : "_notification_dummy".toList.all isWordChar = true := by decide +kernel
    exact List.forall_mem_append.2 ⟨chars, List.all_eq_true.1 others⟩
  have labelApart : UnitsApart (watchLabel name).toList := by
    have tail : UnitsApart "notification_dummy".toList :=
      (unitFree_of_noDigit (by decide)).unitsApart
    have whole : (watchLabel name).toList = name.toList ++ '_' :: "notification_dummy".toList := by
      simp [watchLabel]
    rw [whole]
    exact apart.append (by decide) (by decide) tail
  have question := (spells_word nonempty chars apart).append
    ((spells_keyword (by decide : "is" ∈ _)).append (spells_keyword (by decide : "complete" ∈ _)))
  have blank : Spells [] [] := ⟨by decide, (unitFree_of_noDigit rfl).unitsApart, by decide⟩
  have words := (blank.append question).tokenize_label labelChars labelApart
  rw [toList_watchRule]
  refine words.trans ?_
  simp only [classifyFrom, classify_label, List.nil_append, List.cons_append, String.ofList_toList]
  rfl

end RuleText

variable {R : Type} [Scalar R] {scope : RuleScope} {name : String} {rule : Rule R}

/-- The rule that watches a behaviour is read if the label of the behaviour is a referable name. -/
theorem Rule.read_watchRule (referable : IsReferable name) {behavior : Nat}
    (known : scope.behavior? name = some behavior) :
    Rule.read scope (Rulebook.watchRule name).toList =
      .ok (.watching behavior name : Rule R) := by
  have named : classify (some .label) name = .identifier :=
    classify_plain referable.noKeyword referable.chars
  have noColon : ':' ∉ (watchLabel name).toList := by
    rw [watchLabel, String.toList_append, List.mem_append, not_or]
    exact ⟨fun member => (isWordChar_iff.1 (referable.chars ':' member)).2.2.2 rfl, by decide⟩
  refine Rule.read_eq_ok_iff.2 ?_
  rw [tokenize_watchRule referable.nonempty referable.chars referable.apart, named,
    splitLabel_label noColon]
  exact ⟨rfl, List.cons_ne_nil _ _, rfl, RuleExpr.read_isComplete known⟩

theorem squeeze_watchRule (name : String) :
    Text.squeeze (Rulebook.watchRule name).toList =
      (Text.squeeze name.toList ++ "_notification_dummy".toList) ++
        ':' :: (Text.squeeze name.toList ++ "iscomplete".toList) := by
  have label : Text.squeeze "_notification_dummy".toList = "_notification_dummy".toList := by
    decide +kernel
  have question : Text.squeeze (' ' :: ("is".toList ++ ' ' :: "complete".toList)) =
      "iscomplete".toList := by decide +kernel
  have colon (s : List Char) : Text.squeeze (':' :: ' ' :: s) = ':' :: Text.squeeze s := rfl
  rw [toList_watchRule, watchLabel, String.toList_append, Text.squeeze_append, Text.squeeze_append,
    label, colon, Text.squeeze_append, question]

namespace RuleText

/-- In a rule that can be read, no word but the first has a colon in it. -/
theorem noColon_of_read {s : List Char} {first : RuleToken} {rest : List RuleToken}
    (read : Rule.read scope s = .ok rule) (shown : tokenize s = first :: rest) :
    ':' ∉ (rest.map fun t => t.text.toList).flatten := by
  obtain ⟨-, -, -, inside⟩ := Rule.read_eq_ok_iff.1 read
  have noLabel := (RuleExpr.reads_of_read inside).noLabel
  rw [shown] at noLabel
  have free : ∀ t ∈ rest, t.kind ≠ .label := by
    by_cases leads : first.kind = .label
    · simpa only [splitLabel, leads, if_true] using noLabel
    · simp only [splitLabel, leads, if_false] at noLabel
      exact (List.forall_mem_cons.1 noLabel).2
  intro member
  obtain ⟨w, listed, member⟩ := List.mem_flatten.1 member
  obtain ⟨t, source, rfl⟩ := List.mem_map.1 listed
  exact free t source (label_of_colon (shown ▸ List.mem_cons_of_mem first source) member)

/-- In a rule that watches a behaviour and can be read, the label comes first and takes all of the
label of the behaviour along, but for its blanks. -/
theorem exists_words_watchRule
    (read : Rule.read scope (Rulebook.watchRule name).toList = .ok rule) :
    ∃ others, words (Rulebook.watchRule name).toList =
        ((Text.squeeze name.toList ++ "_notification_dummy".toList) ++ [':']) :: others ∧
      ∀ c ∈ Text.squeeze name.toList ++ "_notification_dummy".toList, isWordChar c = true := by
  have texts := texts_classifyFrom none (words (Rulebook.watchRule name).toList)
  have kept := flatten_words (Rulebook.watchRule name).toList
  rw [squeeze_watchRule, ← texts, ← tokenize] at kept
  cases shown : tokenize (Rulebook.watchRule name).toList with
  | nil =>
    rw [shown] at kept
    simp at kept
  | cons first rest =>
    rw [shown, List.map_cons, List.flatten_cons] at kept
    have elsewhere := noColon_of_read read shown
    have colon : ':' ∈ first.text.toList ++ (rest.map fun t => t.text.toList).flatten := by
      rw [kept]
      simp
    have member := (List.mem_append.1 colon).resolve_right elsewhere
    have listed : first ∈ tokenize (Rulebook.watchRule name).toList := shown ▸ List.mem_cons_self
    obtain ⟨-, v, atom, spelled⟩ := exists_atom_of_mem_words (word_of_mem listed).1
    have whole := spelled.resolve_left fun same => atom.noColon (same ▸ member)
    -- What stands in front of the only colon is the same either way.
    rw [whole, List.append_assoc, List.singleton_append,
      List.append_cons_inj_of_notMem atom.noColon elsewhere] at kept
    obtain ⟨rfl, -, -⟩ := kept
    refine ⟨rest.map fun t => t.text.toList, ?_, ?_⟩
    · rw [← texts, ← tokenize, shown, List.map_cons, whole]
    · exact atom.chars (List.mem_append_right _ (by decide : '_' ∈ _)) (by decide)

/-- A text with a blank in it is no longer in front when its words are run together and more words
follow. -/
theorem prefix_squeeze_append {s t whole : List Char} (more : t ≠ [])
    (unblank : ∀ c ∈ Text.squeeze s ++ t, Text.isBlank c = false) (stands : s <+: whole)
    (together : Text.squeeze s ++ t <+: whole) : s <+: Text.squeeze s ++ t := by
  refine (List.prefix_or_prefix_of_prefix stands together).resolve_right fun short => ?_
  have fewer : (Text.squeeze (Text.squeeze s ++ t)).length ≤ (Text.squeeze s).length :=
    (short.sublist.filter fun c => !Text.isBlank c).length_le
  rw [Text.squeeze_eq_self unblank, List.length_append] at fewer
  have some := List.length_pos_of_ne_nil more
  omega

/-- The label of a behaviour stands as one word in front of a rule that watches it and can be read,
if it does not begin with a blank. -/
theorem chars_of_read_watchRule (trimmed : ∀ c ∈ name.toList.head?, Text.isBlank c = false)
    (read : Rule.read scope (Rulebook.watchRule name).toList = .ok rule) :
    (∀ c ∈ name.toList, isWordChar c = true) ∧ UnitsApart name.toList := by
  obtain ⟨others, cut, chars⟩ := exists_words_watchRule read
  obtain ⟨c, rest, begins, ofWord⟩ : ∃ c rest,
      (Rulebook.watchRule name).toList = c :: rest ∧ isWordChar c = true := by
    rw [toList_watchRule, watchLabel, String.toList_append]
    cases spelled : name.toList with
    | nil => exact ⟨'_', _, rfl, by decide⟩
    | cons c rest =>
      refine ⟨c, _, rfl, chars c (List.mem_append_left _ (List.mem_filter.2 ?_))⟩
      exact ⟨spelled ▸ List.mem_cons_self, by simp [trimmed c (by simp [spelled])]⟩
  have start : Text.squeeze name.toList ++ "_notification_dummy".toList <+:
      spaceOut (Rulebook.watchRule name).toList := by
    rw [begins] at cut ⊢
    exact (List.prefix_append _ [':']).trans (prefix_spaceOut_of_words ofWord cut)
  have stands : name.toList <+: (Rulebook.watchRule name).toList := by
    rw [toList_watchRule, watchLabel, String.toList_append, List.append_assoc]
    exact List.prefix_append _ _
  have whole : name.toList <+: Text.squeeze name.toList ++ "_notification_dummy".toList :=
    prefix_squeeze_append (by decide) (fun c member => (isWordChar_iff.1 (chars c member)).1) stands
      (prefix_of_prefix_spaceOut chars start)
  exact ⟨fun c member => chars c (whole.subset member),
    (unitsApart_spaceOut _).within (whole.trans start).isInfix⟩

/-- The label of a behaviour can be read where the behaviour is asked for only if it is no word of
the language. -/
theorem isReferable_of_read_watchRule (trimmed : ∀ c ∈ name.toList.head?, Text.isBlank c = false)
    (read : Rule.read scope (Rulebook.watchRule name).toList = .ok rule) : IsReferable name := by
  obtain ⟨chars, apart⟩ := chars_of_read_watchRule trimmed read
  obtain ⟨-, -, -, inside⟩ := Rule.read_eq_ok_iff.1 read
  obtain ⟨t, listed, named⟩ := (RuleExpr.reads_of_read inside).exists_name
  have nonempty : name.toList ≠ [] := by
    intro empty
    have nameless : ∀ t ∈ (splitLabel (tokenize (Rulebook.watchRule "").toList)).2,
        t.kind ≠ .identifier := by decide +kernel
    rw [← String.ofList_toList (s := name), empty] at listed
    exact nameless t listed named
  refine ⟨nonempty, chars, apart, ?_⟩
  rw [tokenize_watchRule nonempty chars apart] at listed
  simp only [splitLabel, if_true, List.mem_cons, List.not_mem_nil, or_false] at listed
  rcases listed with rfl | rfl | rfl
  · have keywords : ∀ entry ∈ ruleKeywords, entry.2.isChosen = false := by decide +kernel
    rcases classify_cases (some .label) name with keyword | ⟨noKeyword, -⟩
    · have chosen := keywords _ keyword
      simp only at named
      rw [named] at chosen
      cases chosen
    · exact noKeyword
  · cases named
  · cases named

end RuleText

/-- The rule that watches a behaviour can be read if and only if the label of the behaviour is a
referable name, and then it is what it is meant to be. -/
theorem Rule.read_watchRule_iff (trimmed : ∀ c ∈ name.toList.head?, Text.isBlank c = false)
    {behavior : Nat} (known : scope.behavior? name = some behavior) :
    Rule.read scope (Rulebook.watchRule name).toList = .ok rule ↔
      IsReferable name ∧ rule = .watching behavior name := by
  constructor
  · intro read
    have referable := isReferable_of_read_watchRule trimmed read
    have same := read.symm.trans (Rule.read_watchRule referable known)
    exact ⟨referable, Except.ok.inj same⟩
  · rintro ⟨referable, rfl⟩
    exact Rule.read_watchRule referable known

end TouchIntent
