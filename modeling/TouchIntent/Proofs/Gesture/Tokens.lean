import Mathlib.Data.List.Basic
import TouchIntent.Gesture.Route.Parser

/-!
# Arrows in a gesture text

Which tokens a text has does not depend on where it stands. An arrow that stands outside the details
of a text cuts its tokens in two: those of what stands before it, and those of what stands after it.
This holds if what stands before can be cut into tokens by itself, and also if the whole text can,
provided that the arrow is not the end of another one.
-/

namespace TouchIntent

namespace Arrow

/-- How an arrow is written. -/
def text : Arrow → List Char
  | oneWay => ['-', '>']
  | twoWay => ['<', '-', '>']

end Arrow

/-- Whether a text ends inside a block of details, given whether it starts inside one. -/
def endsInDetails (inside : Bool) : List Char → Bool
  | [] => inside
  | c :: rest => endsInDetails (if inside then c != ']' else c == '[') rest

/-- An arrow that comes after this text stands outside details, and is whole: a one-way arrow after
`<` is the end of a two-way arrow. -/
structure Arrow.Follows (arrow : Arrow) (before : List Char) : Prop where
  outside : endsInDetails false before = false
  whole : arrow = .oneWay → before.getLast? ≠ some '<'

namespace Text

/-- What stands after the first separator does not matter to what stands before it. -/
theorem cut?_of_cut? {sep : Char} {s before after : List Char}
    (found : cut? sep s = some (before, after)) (other : List Char) :
    cut? sep (before ++ sep :: other) = some (before, other) := by
  induction s generalizing before with
  | nil => cases found
  | cons c rest ih =>
    rw [cut?] at found
    split at found
    · cases found
      rw [List.nil_append, cut?, if_pos rfl]
    · next differs =>
      obtain ⟨⟨before', after'⟩, cut, same⟩ := Option.map_eq_some_iff.1 found
      cases same
      rw [List.cons_append, cut?, if_neg differs, ih cut]
      rfl

/-- A text that can be cut is cut in the same place when more text follows. -/
theorem cut?_append {sep : Char} {s before after : List Char} (more : List Char)
    (found : cut? sep s = some (before, after)) :
    cut? sep (s ++ more) = some (before, after ++ more) := by
  rw [eq_of_cut? found, List.append_assoc, List.cons_append]
  exact cut?_of_cut? found _

end Text

/-- Where a block of details is closed, the text goes on outside details. -/
theorem endsInDetails_cut {rest content after : List Char}
    (found : Text.cut? ']' rest = some (content, after)) :
    endsInDetails true rest = endsInDetails false after := by
  induction rest generalizing content with
  | nil => cases found
  | cons c rest ih =>
    rw [Text.cut?] at found
    rw [endsInDetails]
    split at found
    · next same =>
      cases found
      simp [same]
    · next differs =>
      obtain ⟨⟨content', after'⟩, cut, same⟩ := Option.map_eq_some_iff.1 found
      cases same
      rw [if_pos rfl, bne_iff_ne.2 differs]
      exact ih cut

/-- A block of details that is not closed does not end. -/
theorem endsInDetails_unterminated {rest : List Char} (open' : Text.cut? ']' rest = none) :
    endsInDetails true rest = true := by
  induction rest with
  | nil => rfl
  | cons c rest ih =>
    rw [Text.cut?] at open'
    rw [endsInDetails]
    split at open'
    · cases open'
    · next differs =>
      rw [if_pos rfl, bne_iff_ne.2 differs]
      exact ih (Option.map_eq_none_iff.1 open')

namespace Arrow.Follows

variable {arrow : Arrow} {rest : List Char}

/-- What follows a text follows the end of it. -/
theorem suffix (start : List Char) (follows : arrow.Follows (start ++ rest))
    (outside : endsInDetails false (start ++ rest) = endsInDetails false rest) :
    arrow.Follows rest := by
  refine ⟨outside.symm.trans follows.outside, fun oneWay last => follows.whole oneWay ?_⟩
  rw [List.getLast?_append, last]
  rfl

theorem tail {c : Char} (follows : arrow.Follows (c :: rest)) (plain : c ≠ '[') :
    arrow.Follows rest := by
  refine follows.suffix [c] ?_
  rw [List.singleton_append, endsInDetails, if_neg Bool.false_ne_true, beq_false_of_ne plain]

theorem after_details {content after : List Char} (follows : arrow.Follows ('[' :: rest))
    (found : Text.cut? ']' rest = some (content, after)) : arrow.Follows after := by
  have written : '[' :: rest = ('[' :: content ++ [']']) ++ after := by
    rw [Text.eq_of_cut? found]
    simp
  have outside : endsInDetails false ('[' :: rest) = endsInDetails false after :=
    endsInDetails_cut found
  rw [written] at follows outside
  exact follows.suffix _ outside

/-- No arrow follows a block of details that is not closed. -/
theorem cut?_ne_none (follows : arrow.Follows ('[' :: rest)) : Text.cut? ']' rest ≠ none := by
  intro unterminated
  have inside : endsInDetails false ('[' :: rest) = true := endsInDetails_unterminated unterminated
  rw [follows.outside] at inside
  cases inside

theorem nil : arrow.Follows [] := ⟨rfl, fun _ last => by cases last⟩

theorem prepend (start : List Char) (follows : arrow.Follows rest)
    (outside : endsInDetails false (start ++ rest) = endsInDetails false rest)
    (ended : start.getLast? ≠ some '<') : arrow.Follows (start ++ rest) := by
  refine ⟨outside.trans follows.outside, fun oneWay last => ?_⟩
  rw [List.getLast?_append] at last
  cases same : rest.getLast? with
  | none =>
    rw [same] at last
    exact ended last
  | some c =>
    rw [same] at last
    exact follows.whole oneWay (same.trans last)

theorem cons {c : Char} (follows : arrow.Follows rest) (plain : c ≠ '[') (angle : c ≠ '<') :
    arrow.Follows (c :: rest) := by
  refine follows.prepend [c] ?_ (by simpa using angle)
  rw [List.singleton_append, endsInDetails, if_neg Bool.false_ne_true, beq_false_of_ne plain]

end Arrow.Follows

namespace RouteToken

variable {R : Type} [Scalar R]

/-- A token that can be read. -/
def isSound : RouteToken R → Bool
  | .fault _ | .details (.error _) => false
  | _ => true

section Scan

variable {offset : Nat} {c : Char} {rest content after : List Char}

@[simp] theorem scan_nil : (scan offset [] : List (PlacedToken R)) = [] := by rw [scan.eq_def]

theorem scan_oneWay : (scan offset ('-' :: '>' :: rest) : List (PlacedToken R)) =
    ⟨offset, .arrow .oneWay⟩ :: scan (offset + 2) rest := by
  rw [scan.eq_def]
  rfl

theorem scan_twoWay : (scan offset ('<' :: '-' :: '>' :: rest) : List (PlacedToken R)) =
    ⟨offset, .arrow .twoWay⟩ :: scan (offset + 3) rest := by
  rw [scan.eq_def]
  rfl

theorem scan_unterminated (unterminated : Text.cut? ']' rest = none) :
    (scan offset ('[' :: rest) : List (PlacedToken R)) =
      [⟨offset, .details (.error .unterminatedDetails)⟩] := by
  rw [scan.eq_def]
  simp only
  split
  · rfl
  · next found => rw [unterminated] at found; cases found

theorem scan_details (found : Text.cut? ']' rest = some (content, after)) :
    (scan offset ('[' :: rest) : List (PlacedToken R)) =
      ⟨offset, .details (Detail.readBlock content)⟩ ::
        scan (offset + Text.utf8Size content + 2) after := by
  rw [scan.eq_def]
  simp only
  split
  · next unterminated => rw [found] at unterminated; cases unterminated
  · next found' => rw [found] at found'; cases found'; rfl

/-- A character that starts neither an arrow nor details is read by itself. -/
theorem scan_other (oneWay : ∀ after, c = '-' → rest ≠ '>' :: after)
    (twoWay : ∀ after, c = '<' → rest ≠ '-' :: '>' :: after) (bracket : c ≠ '[') :
    (scan offset (c :: rest) : List (PlacedToken R)) =
      if Text.isBlank c then scan (offset + c.utf8Size) rest
      else if c = '-' ∨ c = '<' then [⟨offset, .fault .malformedArrow⟩]
      else (single? c).elim [⟨offset, .fault (.unexpected c)⟩]
        fun token => ⟨offset, token⟩ :: scan (offset + c.utf8Size) rest := by
  rw [scan.eq_def]
  split
  · next empty => cases empty
  · next same => cases same; exact absurd rfl (oneWay _ rfl)
  · next same => cases same; exact absurd rfl (twoWay _ rfl)
  · next same => cases same; exact absurd rfl bracket
  · next same =>
    cases same
    cases single? c <;> rfl

theorem scan_plain (dash : c ≠ '-') (angle : c ≠ '<') (bracket : c ≠ '[') :
    (scan offset (c :: rest) : List (PlacedToken R)) =
      if Text.isBlank c then scan (offset + c.utf8Size) rest
      else (single? c).elim [⟨offset, .fault (.unexpected c)⟩]
        fun token => ⟨offset, token⟩ :: scan (offset + c.utf8Size) rest := by
  rw [scan_other (fun _ same => absurd same dash) (fun _ same => absurd same angle) bracket,
    if_neg (not_or.2 ⟨dash, angle⟩)]

theorem scan_malformed (start : c = '-' ∨ c = '<') (oneWay : ∀ after, c = '-' → rest ≠ '>' :: after)
    (twoWay : ∀ after, c = '<' → rest ≠ '-' :: '>' :: after) :
    (scan offset (c :: rest) : List (PlacedToken R)) = [⟨offset, .fault .malformedArrow⟩] := by
  have noBracket : c ≠ '[' := by rcases start with rfl | rfl <;> decide
  have noBlank : ¬ Text.isBlank c = true := by rcases start with rfl | rfl <;> decide
  rw [scan_other oneWay twoWay noBracket, if_neg noBlank, if_pos start]

end Scan

/-- The tokens of a text, wherever it stands. -/
def ofText (text : List Char) : List (RouteToken R) := (scan 0 text).map PlacedToken.token

/-- Where a text stands does not matter to its tokens. -/
theorem map_token_scan (offset : Nat) (text : List Char) :
    (scan offset text).map PlacedToken.token = (ofText text : List (RouteToken R)) := by
  rw [ofText]
  generalize 0 = start
  induction offset, text using scan.induct (R := R) generalizing start with
  | case1 => rw [scan_nil, scan_nil]
  | case2 offset rest ih => rw [scan_oneWay, scan_oneWay, List.map_cons, List.map_cons, ih]
  | case3 offset rest ih => rw [scan_twoWay, scan_twoWay, List.map_cons, List.map_cons, ih]
  | case4 offset rest unterminated =>
    rw [scan_unterminated unterminated, scan_unterminated unterminated]
    rfl
  | case5 offset rest content after found ih =>
    rw [scan_details found, scan_details found, List.map_cons, List.map_cons, ih]
  | case6 offset c rest oneWay twoWay bracket blank ih =>
    rw [scan_other oneWay twoWay bracket, scan_other oneWay twoWay bracket, if_pos blank,
      if_pos blank, ih]
  | case7 offset c rest oneWay twoWay bracket blank malformed =>
    rw [scan_malformed malformed oneWay twoWay, scan_malformed malformed oneWay twoWay]
    rfl
  | case8 offset c rest oneWay twoWay bracket blank other token found ih =>
    obtain ⟨dash, angle⟩ := not_or.1 other
    rw [scan_plain dash angle bracket, scan_plain dash angle bracket, if_neg blank, if_neg blank,
      found, Option.elim_some, Option.elim_some, List.map_cons, List.map_cons, ih]
  | case9 offset c rest oneWay twoWay bracket blank other found =>
    obtain ⟨dash, angle⟩ := not_or.1 other
    rw [scan_plain dash angle bracket, scan_plain dash angle bracket, if_neg blank, if_neg blank,
      found]
    rfl

section OfText

variable {c : Char} {rest content after : List Char}

@[simp] theorem ofText_nil : (ofText [] : List (RouteToken R)) = [] := by
  rw [ofText, scan_nil, List.map_nil]

theorem ofText_oneWay :
    (ofText ('-' :: '>' :: rest) : List (RouteToken R)) = .arrow .oneWay :: ofText rest := by
  rw [ofText, scan_oneWay, List.map_cons, map_token_scan]

theorem ofText_twoWay :
    (ofText ('<' :: '-' :: '>' :: rest) : List (RouteToken R)) = .arrow .twoWay :: ofText rest := by
  rw [ofText, scan_twoWay, List.map_cons, map_token_scan]

theorem ofText_arrow (arrow : Arrow) :
    (ofText (arrow.text ++ rest) : List (RouteToken R)) = .arrow arrow :: ofText rest := by
  cases arrow with
  | oneWay => exact ofText_oneWay
  | twoWay => exact ofText_twoWay

theorem ofText_unterminated (unterminated : Text.cut? ']' rest = none) :
    (ofText ('[' :: rest) : List (RouteToken R)) = [.details (.error .unterminatedDetails)] := by
  rw [ofText, scan_unterminated unterminated]
  rfl

theorem ofText_details (found : Text.cut? ']' rest = some (content, after)) :
    (ofText ('[' :: rest) : List (RouteToken R)) =
      .details (Detail.readBlock content) :: ofText after := by
  rw [ofText, scan_details found, List.map_cons, map_token_scan]

theorem ofText_malformed (start : c = '-' ∨ c = '<')
    (oneWay : ∀ after, c = '-' → rest ≠ '>' :: after)
    (twoWay : ∀ after, c = '<' → rest ≠ '-' :: '>' :: after) :
    (ofText (c :: rest) : List (RouteToken R)) = [.fault .malformedArrow] := by
  rw [ofText, scan_malformed start oneWay twoWay]
  rfl

theorem ofText_blank (blank : Text.isBlank c = true) :
    (ofText (c :: rest) : List (RouteToken R)) = ofText rest := by
  have plain : c ≠ '-' ∧ c ≠ '<' ∧ c ≠ '[' := by
    refine ⟨?_, ?_, ?_⟩ <;> rintro rfl <;> exact absurd blank (by decide)
  rw [ofText, scan_plain plain.1 plain.2.1 plain.2.2, if_pos blank, map_token_scan]

theorem ofText_single (blank : ¬ Text.isBlank c = true) {token : RouteToken R}
    (found : single? c = some token) :
    (ofText (c :: rest) : List (RouteToken R)) = token :: ofText rest := by
  have plain : c ≠ '-' ∧ c ≠ '<' ∧ c ≠ '[' := by
    refine ⟨?_, ?_, ?_⟩ <;> rintro rfl <;> cases found
  rw [ofText, scan_plain plain.1 plain.2.1 plain.2.2, if_neg blank, found, Option.elim_some,
    List.map_cons, map_token_scan]

theorem ofText_unexpected (dash : c ≠ '-') (angle : c ≠ '<') (bracket : c ≠ '[')
    (blank : ¬ Text.isBlank c = true) (unknown : (single? c : Option (RouteToken R)) = none) :
    (ofText (c :: rest) : List (RouteToken R)) = [.fault (.unexpected c)] := by
  rw [ofText, scan_plain dash angle bracket, if_neg blank, unknown]
  rfl

end OfText

/-- Every token of the text can be read. -/
def AllSound (tokens : List (RouteToken R)) : Prop := ∀ t ∈ tokens, t.isSound = true

omit [Scalar R] in
theorem AllSound.head {t : RouteToken R} {tokens : List (RouteToken R)}
    (sound : AllSound (t :: tokens)) : t.isSound = true := sound t List.mem_cons_self

omit [Scalar R] in
theorem AllSound.tail {t : RouteToken R} {tokens : List (RouteToken R)}
    (sound : AllSound (t :: tokens)) : AllSound tokens :=
  fun u member => sound u (List.mem_cons_of_mem t member)

omit [Scalar R] in
theorem AllSound.cons {t : RouteToken R} {tokens : List (RouteToken R)} (head : t.isSound = true)
    (tail : AllSound tokens) : AllSound (t :: tokens) := by
  intro u member
  rcases List.mem_cons.1 member with rfl | member
  · exact head
  · exact tail u member

/-- An arrow after a text whose tokens can all be read cuts the tokens in two. -/
theorem ofText_append_arrow {before : List Char}
    (sound : AllSound (ofText before : List (RouteToken R))) (arrow : Arrow) (after : List Char) :
    (ofText (before ++ (arrow.text ++ after)) : List (RouteToken R)) =
      ofText before ++ .arrow arrow :: ofText after := by
  generalize start : (0 : Nat) = offset
  clear start
  induction offset, before using scan.induct (R := R) with
  | case1 => rw [List.nil_append, ofText_arrow, ofText_nil, List.nil_append]
  | case2 offset rest ih =>
    rw [ofText_oneWay] at sound ⊢
    rw [List.cons_append, List.cons_append, ofText_oneWay, ih sound.tail, List.cons_append]
  | case3 offset rest ih =>
    rw [ofText_twoWay] at sound ⊢
    rw [List.cons_append, List.cons_append, List.cons_append, ofText_twoWay, ih sound.tail,
      List.cons_append]
  | case4 offset rest unterminated =>
    rw [ofText_unterminated unterminated] at sound
    cases sound.head
  | case5 offset rest content rest' found ih =>
    rw [ofText_details found] at sound ⊢
    rw [List.cons_append, ofText_details (Text.cut?_append _ found), ih sound.tail,
      List.cons_append]
  | case6 offset c rest oneWay twoWay bracket blank ih =>
    rw [ofText_blank blank] at sound ⊢
    rw [List.cons_append, ofText_blank blank, ih sound]
  | case7 offset c rest oneWay twoWay bracket blank malformed =>
    rw [ofText_malformed malformed oneWay twoWay] at sound
    cases sound.head
  | case8 offset c rest oneWay twoWay bracket blank other token found ih =>
    rw [ofText_single blank found] at sound ⊢
    rw [List.cons_append, ofText_single blank found, ih sound.tail, List.cons_append]
  | case9 offset c rest oneWay twoWay bracket blank other found =>
    obtain ⟨dash, angle⟩ := not_or.1 other
    rw [ofText_unexpected dash angle bracket blank found] at sound
    cases sound.head

/-- No arrow ends a one-way arrow that a text has begun. -/
theorem noOneWay_append {arrow : Arrow} {c : Char} {rest after more : List Char}
    (none : ∀ more, c = '-' → rest = '>' :: more → False) (begun : c = '-') :
    rest ++ (arrow.text ++ after) ≠ '>' :: more := by
  intro ended
  cases rest with
  | nil => cases arrow <;> cases ended
  | cons x others =>
    cases ended
    exact none others begun rfl

/-- A whole arrow does not end a two-way arrow that a text has begun. -/
theorem noTwoWay_append {arrow : Arrow} {c : Char} {rest after more : List Char}
    (follows : arrow.Follows (c :: rest))
    (none : ∀ more, c = '<' → rest = '-' :: '>' :: more → False) (begun : c = '<') :
    rest ++ (arrow.text ++ after) ≠ '-' :: '>' :: more := by
  intro ended
  match rest with
  | [] =>
    cases arrow with
    | oneWay => exact follows.whole rfl (by rw [begun]; rfl)
    | twoWay => cases ended
  | [x] => cases arrow <;> cases ended
  | x :: y :: others =>
    cases ended
    exact none others begun rfl

/-- If the tokens of a text can all be read, so can those that stand before a whole arrow. -/
theorem allSound_of_follows {before : List Char} {arrow : Arrow} (follows : arrow.Follows before)
    {after : List Char}
    (sound : AllSound (ofText (before ++ (arrow.text ++ after)) : List (RouteToken R))) :
    AllSound (ofText before : List (RouteToken R)) := by
  generalize start : (0 : Nat) = offset
  clear start
  induction offset, before using scan.induct (R := R) with
  | case1 =>
    rw [ofText_nil]
    exact fun t member => absurd member List.not_mem_nil
  | case2 offset rest ih =>
    rw [List.cons_append, List.cons_append, ofText_oneWay] at sound
    rw [ofText_oneWay]
    exact .cons rfl (ih ((follows.tail (by decide)).tail (by decide)) sound.tail)
  | case3 offset rest ih =>
    rw [List.cons_append, List.cons_append, List.cons_append, ofText_twoWay] at sound
    rw [ofText_twoWay]
    exact .cons rfl (ih (((follows.tail (by decide)).tail (by decide)).tail (by decide)) sound.tail)
  | case4 offset rest unterminated => exact absurd unterminated follows.cut?_ne_none
  | case5 offset rest content rest' found ih =>
    rw [List.cons_append, ofText_details (Text.cut?_append _ found)] at sound
    rw [ofText_details found]
    exact .cons sound.head (ih (follows.after_details found) sound.tail)
  | case6 offset c rest oneWay twoWay bracket blank ih =>
    rw [List.cons_append, ofText_blank blank] at sound
    rw [ofText_blank blank]
    exact ih (follows.tail bracket) sound
  | case7 offset c rest oneWay twoWay bracket blank malformed =>
    -- What the text begins and does not end, the arrow does not end either.
    rw [List.cons_append, ofText_malformed malformed
      (fun _ same => noOneWay_append oneWay same)
      (fun _ same => noTwoWay_append follows twoWay same)] at sound
    cases sound.head
  | case8 offset c rest oneWay twoWay bracket blank other token found ih =>
    rw [List.cons_append, ofText_single blank found] at sound
    rw [ofText_single blank found]
    exact .cons sound.head (ih (follows.tail bracket) sound.tail)
  | case9 offset c rest oneWay twoWay bracket blank other found =>
    obtain ⟨dash, angle⟩ := not_or.1 other
    rw [List.cons_append, ofText_unexpected dash angle bracket blank found] at sound
    cases sound.head

omit [Scalar R] in
/-- No single character is an arrow. -/
theorem single?_ne_arrow (c : Char) (arrow : Arrow) :
    (single? c : Option (RouteToken R)) ≠ some (.arrow arrow) := by
  intro found
  unfold single? at found
  split at found
  case h_8 =>
    obtain ⟨heading, -, same⟩ := Option.map_eq_some_iff.1 found
    cases same
  all_goals cases found

/-- Every arrow among the tokens of a text stands somewhere in it. -/
theorem exists_follows {text : List Char} {arrow : Arrow}
    (found : .arrow arrow ∈ (ofText text : List (RouteToken R))) :
    ∃ before after, text = before ++ (arrow.text ++ after) ∧ arrow.Follows before := by
  generalize start : (0 : Nat) = offset
  clear start
  induction offset, text using scan.induct (R := R) with
  | case1 =>
    rw [ofText_nil] at found
    cases found
  | case2 offset rest ih =>
    rw [ofText_oneWay] at found
    rcases List.mem_cons.1 found with same | later
    · cases same
      exact ⟨[], rest, rfl, .nil⟩
    · obtain ⟨before, after, rfl, follows⟩ := ih later
      exact ⟨'-' :: '>' :: before, after, rfl,
        (follows.cons (by decide) (by decide)).cons (by decide) (by decide)⟩
  | case3 offset rest ih =>
    rw [ofText_twoWay] at found
    rcases List.mem_cons.1 found with same | later
    · cases same
      exact ⟨[], rest, rfl, .nil⟩
    · obtain ⟨before, after, rfl, follows⟩ := ih later
      exact ⟨'<' :: '-' :: '>' :: before, after, rfl,
        follows.prepend ['<', '-', '>'] rfl (by decide)⟩
  | case4 offset rest unterminated =>
    rw [ofText_unterminated unterminated] at found
    cases List.mem_singleton.1 found
  | case5 offset rest content rest' cut ih =>
    rw [ofText_details cut] at found
    rcases List.mem_cons.1 found with same | later
    · cases same
    · obtain ⟨before, after, same, follows⟩ := ih later
      have outside : endsInDetails false ('[' :: (content ++ ']' :: before)) =
          endsInDetails false before := endsInDetails_cut (Text.cut?_of_cut? cut before)
      refine ⟨('[' :: content ++ [']']) ++ before, after, ?_, follows.prepend _ ?_ ?_⟩
      · rw [Text.eq_of_cut? cut, same]
        simp
      · rw [← outside]
        simp
      · rw [List.getLast?_append]
        exact fun last => by cases last
  | case6 offset c rest oneWay twoWay bracket blank ih =>
    rw [ofText_blank blank] at found
    obtain ⟨before, after, rfl, follows⟩ := ih found
    exact ⟨c :: before, after, rfl, follows.cons bracket (by rintro rfl; cases blank)⟩
  | case7 offset c rest oneWay twoWay bracket blank malformed =>
    rw [ofText_malformed malformed oneWay twoWay] at found
    cases List.mem_singleton.1 found
  | case8 offset c rest oneWay twoWay bracket blank other token single ih =>
    rw [ofText_single blank single] at found
    rcases List.mem_cons.1 found with same | later
    · exact absurd single (same ▸ single?_ne_arrow c arrow)
    · obtain ⟨before, after, rfl, follows⟩ := ih later
      exact ⟨c :: before, after, rfl, follows.cons bracket (not_or.1 other).2⟩
  | case9 offset c rest oneWay twoWay bracket blank other unknown =>
    obtain ⟨dash, angle⟩ := not_or.1 other
    rw [ofText_unexpected dash angle bracket blank unknown] at found
    cases List.mem_singleton.1 found

end RouteToken

end TouchIntent
