import Mathlib
import TouchIntent.Proofs.Gesture.Demands
import TouchIntent.Proofs.Text.Trim

/-!
# Blanks in gesture texts

Blanks are left out of a gesture text in three places: between its tokens, within the entries of its
details, and in the name that a gesture without a label is given. Taking them out of the text
beforehand comes to the same, except that what stands apart may become an arrow. A text that
compiles has no arrow that is torn apart, so without its blanks it compiles to the same behaviour.
-/

namespace TouchIntent

open Scalar

namespace Text

theorem squeeze_cons_of_blank {c : Char} (blank : isBlank c = true) (rest : List Char) :
    squeeze (c :: rest) = squeeze rest :=
  List.filter_cons_of_neg (by simp [blank])

theorem squeeze_cons_of_not_blank {c : Char} (shown : ¬ isBlank c = true) (rest : List Char) :
    squeeze (c :: rest) = c :: squeeze rest :=
  List.filter_cons_of_pos (by simp [shown])

@[simp] theorem squeeze_squeeze (s : List Char) : squeeze (squeeze s) = squeeze s := by
  simp [squeeze, List.filter_filter]

/-- A text is cut in the same place with and without its blanks. -/
theorem cut?_squeeze {sep : Char} (shown : isBlank sep = false) (s : List Char) :
    cut? sep (squeeze s) = (cut? sep s).map (Prod.map squeeze squeeze) := by
  induction s with
  | nil => rfl
  | cons c rest ih =>
    by_cases blank : isBlank c = true
    · have other : c ≠ sep := by
        rintro rfl
        rw [shown] at blank
        cases blank
      rw [squeeze_cons_of_blank blank, ih, cut?, if_neg other, Option.map_map]
      refine congrArg (Option.map · (cut? sep rest)) (funext fun cut => ?_)
      exact Prod.ext (squeeze_cons_of_blank blank cut.1).symm rfl
    · rw [squeeze_cons_of_not_blank blank, cut?, cut?]
      split
      · rfl
      · rw [ih, Option.map_map, Option.map_map]
        refine congrArg (Option.map · (cut? sep rest)) (funext fun cut => ?_)
        exact Prod.ext (squeeze_cons_of_not_blank blank cut.1).symm rfl

/-- The pieces of a text without its blanks are its pieces without theirs. -/
theorem pieces_squeeze {isSeparator : Char → Bool}
    (shown : ∀ c, isSeparator c = true → isBlank c = false) (s : List Char) :
    pieces isSeparator (squeeze s) = (pieces isSeparator s).map squeeze := by
  fun_induction pieces isSeparator s with
  | case1 => rfl
  | case2 c rest separates ih =>
    rw [squeeze_cons_of_not_blank (by simp [shown c separates]), pieces, if_pos separates, ih]
    rfl
  | case3 c rest other none ih => exact absurd none (pieces_ne_nil isSeparator rest)
  | case4 c rest other piece others found ih =>
    rw [found, List.map_cons] at ih
    by_cases blank : isBlank c = true
    · rw [squeeze_cons_of_blank blank, ih, List.map_cons, squeeze_cons_of_blank blank]
    · rw [squeeze_cons_of_not_blank blank, pieces, if_neg other, ih, List.map_cons,
        squeeze_cons_of_not_blank blank]

end Text

/-! ## Tokens -/

section Tokens

variable {R : Type} [Scalar R]

/-- Blanks in a detail do not matter. -/
theorem Detail.read_squeeze (entry : List Char) :
    (Detail.read (Text.squeeze entry) : Except GestureFault (Detail R)) = Detail.read entry := by
  rw [Detail.read, Detail.read, Text.squeeze_squeeze]

/-- Blanks in a block of details do not matter. -/
theorem Detail.readBlock_squeeze (content : List Char) :
    (Detail.readBlock (Text.squeeze content) : Except GestureFault (List (Detail R))) =
      Detail.readBlock content := by
  have shown (c : Char) (comma : (c == ',') = true) : Text.isBlank c = false := by
    rw [beq_iff_eq.1 comma]
    decide
  rw [Detail.readBlock, Detail.readBlock, Text.pieces_squeeze shown, List.mapM_map]
  congr 1
  funext entry
  exact Detail.read_squeeze entry

/-- A text without its blanks has the same tokens, unless an arrow is not whole. -/
theorem RouteToken.ofText_squeeze {text : List Char}
    (whole : .fault .malformedArrow ∉ (ofText text : List (RouteToken R))) :
    (ofText (Text.squeeze text) : List (RouteToken R)) = ofText text := by
  generalize start : (0 : Nat) = offset
  clear start
  induction offset, text using scan.induct (R := R) with
  | case1 => rfl
  | case2 offset rest ih =>
    rw [ofText_oneWay] at whole
    rw [Text.squeeze_cons_of_not_blank (by decide), Text.squeeze_cons_of_not_blank (by decide),
      ofText_oneWay, ofText_oneWay, ih (mt (List.mem_cons_of_mem _) whole)]
  | case3 offset rest ih =>
    rw [ofText_twoWay] at whole
    rw [Text.squeeze_cons_of_not_blank (by decide), Text.squeeze_cons_of_not_blank (by decide),
      Text.squeeze_cons_of_not_blank (by decide), ofText_twoWay, ofText_twoWay,
      ih (mt (List.mem_cons_of_mem _) whole)]
  | case4 offset rest unterminated =>
    have unterminated' : Text.cut? ']' (Text.squeeze rest) = none := by
      rw [Text.cut?_squeeze (by decide), unterminated]
      rfl
    rw [Text.squeeze_cons_of_not_blank (by decide), ofText_unterminated unterminated',
      ofText_unterminated unterminated]
  | case5 offset rest content after found ih =>
    rw [ofText_details found] at whole
    have found' : Text.cut? ']' (Text.squeeze rest) =
        some (Text.squeeze content, Text.squeeze after) := by
      rw [Text.cut?_squeeze (by decide), found]
      rfl
    rw [Text.squeeze_cons_of_not_blank (by decide), ofText_details found', ofText_details found,
      Detail.readBlock_squeeze, ih (mt (List.mem_cons_of_mem _) whole)]
  | case6 offset c rest oneWay twoWay bracket blank ih =>
    rw [ofText_blank blank] at whole
    rw [Text.squeeze_cons_of_blank blank, ofText_blank blank, ih whole]
  | case7 offset c rest oneWay twoWay bracket blank malformed =>
    rw [ofText_malformed malformed oneWay twoWay] at whole
    exact absurd (List.mem_singleton.2 rfl) whole
  | case8 offset c rest oneWay twoWay bracket blank other token found ih =>
    rw [ofText_single blank found] at whole
    rw [Text.squeeze_cons_of_not_blank blank, ofText_single blank found, ofText_single blank found,
      ih (mt (List.mem_cons_of_mem _) whole)]
  | case9 offset c rest oneWay twoWay bracket blank other found =>
    obtain ⟨dash, angle⟩ := not_or.1 other
    rw [Text.squeeze_cons_of_not_blank blank, ofText_unexpected dash angle bracket blank found,
      ofText_unexpected dash angle bracket blank found]

omit [Scalar R] in
theorem RouteToken.AllSound.whole {tokens : List (RouteToken R)} (sound : AllSound tokens) :
    .fault .malformedArrow ∉ tokens := by
  intro member
  cases sound _ member

end Tokens

/-! ## Texts -/

namespace GestureText

/-- A gesture text without the blanks of its body. -/
def squeezeBody (source : List Char) : List Char :=
  match Text.cut? ':' source with
  | none => Text.squeeze source
  | some (before, body) => before ++ ':' :: Text.squeeze body

/-- The label and where the body starts stay. -/
theorem ofChars_squeezeBody (source : List Char) :
    ofChars (squeezeBody source) =
      { ofChars source with body := Text.squeeze (ofChars source).body } := by
  rw [squeezeBody]
  cases cut : Text.cut? ':' source with
  | none =>
    have uncut : Text.cut? ':' (Text.squeeze source) = none := by
      rw [Text.cut?_squeeze (by decide), cut]
      rfl
    simp only [ofChars, cut, uncut]
  | some parts =>
    obtain ⟨before, body⟩ := parts
    simp only [ofChars, cut, Text.cut?_of_cut? cut]

variable {R : Type} [Scalar R] {density : R} {element : Bounds R}

/-- All arrows of a text are whole. -/
def HasWholeArrows (R : Type) [Scalar R] (source : List Char) : Prop :=
  .fault .malformedArrow ∉ (RouteToken.ofText (ofChars source).body : List (RouteToken R))

theorem hasWholeArrows_of_route {source : List Char} {r : Route R}
    (read : route density element source = .ok r) : HasWholeArrows R source :=
  (Route.allSound_of_read read).whole

/-- Where all arrows are whole, a text is read as the same route without its blanks. -/
theorem route_squeezeBody {source : List Char} (whole : HasWholeArrows R source) (r : Route R) :
    route density element (squeezeBody source) = .ok r ↔ route density element source = .ok r := by
  let fault : LocatedFault := ⟨0, .noStates⟩
  let ts : List (PlacedToken R) := RouteToken.scan 0 (ofChars source).body
  have tokens : ts.map PlacedToken.token = RouteToken.ofText (ofChars source).body := rfl
  have tokens' : ts.map PlacedToken.token =
      RouteToken.ofText (Text.squeeze (ofChars source).body) :=
    (RouteToken.ofText_squeeze whole).symm
  rw [route, route, ofChars_squeezeBody]
  exact (Route.read_eq_ok tokens' _ fault fault).trans (Route.read_eq_ok tokens _ fault fault).symm

end GestureText

namespace Compiler

variable {R : Type} [Scalar R] {c : Compiler R} {source : String} {element : Bounds R}
  {b : Behavior R}

/-- Where all arrows are whole, the blanks in the body of a text do not matter to whether and what
it compiles to. -/
theorem compile_squeezeBody_iff (whole : GestureText.HasWholeArrows R source.toList) :
    c.compile (String.ofList (GestureText.squeezeBody source.toList)) element = .ok b ↔
      c.compile source element = .ok b := by
  have read (r : Route R) :
      GestureText.route c.density element (GestureText.squeezeBody source.toList) = .ok r ↔
        GestureText.route c.density element source.toList = .ok r :=
    GestureText.route_squeezeBody whole r
  simp only [compile_eq_ok_iff, String.toList_ofList, read, GestureText.ofChars_squeezeBody,
    Text.squeeze_squeeze]

/-- A gesture text that compiles also compiles without any blank in its body, to the same
behaviour. -/
theorem compile_squeezeBody (ok : c.compile source element = .ok b) :
    c.compile (String.ofList (GestureText.squeezeBody source.toList)) element = .ok b := by
  obtain ⟨route, read, -, -⟩ := compile_eq_ok ok
  exact (compile_squeezeBody_iff (GestureText.hasWholeArrows_of_route read)).2 ok

/-- The label of a behaviour is trimmed: one that is given is, and the one that stands in for it has
no blanks. -/
theorem isTrimmed_label (ok : c.compile source element = .ok b) :
    Text.IsTrimmed b.label.toList := by
  obtain ⟨route, m, -, -, rfl⟩ := exists_route_of_compile ok
  have squeezed (s : List Char) : Text.IsTrimmed (Text.squeeze s) := by
    have unblank : ∀ c ∈ Text.squeeze s, Text.isBlank c = false := by
      intro c member
      simpa using (List.mem_filter.1 member).2
    exact ⟨fun c first => unblank c (List.mem_of_mem_head? first),
      fun c last => unblank c (List.mem_of_mem_getLast? last)⟩
  rw [GestureText.ofChars]
  cases Text.cut? ':' source.toList with
  | none => simpa using squeezed source.toList
  | some parts =>
    obtain ⟨before, body⟩ := parts
    by_cases empty : (Text.trim before).isEmpty = true
    · simpa [empty] using squeezed body
    · simpa [empty] using Text.isTrimmed_trim before

/-- The text `C <-> C`. -/
theorem compile_squeezeBody_apart :
    let c : Compiler EReal := ⟨⟨1, 1⟩, 1, .gaussian⟩
    ∃ b, c.compile "C <-> C" ⟨0, 0, 1, 1⟩ = .ok b ∧ c.compile "C<->C" ⟨0, 0, 1, 1⟩ = .ok b := by
  intro c
  have dense : String.ofList (GestureText.squeezeBody "C <-> C".toList) = "C<->C" := by
    decide +kernel
  have tokens : (RouteToken.ofText ['C', ' ', '<', '-', '>', ' ', 'C'] : List (RouteToken EReal)) =
      [.heading .centre, .arrow .twoWay, .heading .centre] := by
    rw [RouteToken.ofText_single (by decide) rfl, RouteToken.ofText_blank (by decide),
      RouteToken.ofText_twoWay, RouteToken.ofText_blank (by decide),
      RouteToken.ofText_single (by decide) rfl, RouteToken.ofText_nil]
  have whole : GestureText.HasWholeArrows EReal "C <-> C".toList := by
    have plain : GestureText.ofChars "C <-> C".toList = ⟨none, 0, "C <-> C".toList⟩ :=
      GestureText.ofChars_of_plain (by decide +kernel)
    have text : "C <-> C".toList = ['C', ' ', '<', '-', '>', ' ', 'C'] := by decide +kernel
    rw [GestureText.HasWholeArrows, plain, text, tokens]
    simp
  obtain ⟨b, ok, -⟩ := exists_compile_chain [] [(.twoWay, [])]
  have written : String.ofList (chainText [] [(.twoWay, [])]) = "C<->C" := by decide +kernel
  rw [written] at ok
  have apart : c.compile "C <-> C" ⟨0, 0, 1, 1⟩ = .ok b :=
    (compile_squeezeBody_iff whole).1 (dense.symm ▸ ok)
  exact ⟨b, apart, dense ▸ compile_squeezeBody apart⟩

end Compiler

end TouchIntent
