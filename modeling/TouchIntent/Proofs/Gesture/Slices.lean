import Mathlib
import TouchIntent.Proofs.Gesture.Offsets

/-!
# Reading gesture texts by positions

A text in memory is read by positions that count bytes: the reader keeps one, and wherever it looks
it takes a slice of the text. There is no slice that begins or ends within a character, so such a
reader could fail. Here it is defined with partial slices, and shown to read every text as it is
read character by character. So all its slices begin and end at boundaries.
-/

namespace TouchIntent

open Scalar

namespace Text

/-- What stands before and after a position. There is none within a character, nor after the end. -/
def splitAt? : List Char → Nat → Option (List Char × List Char)
  | s, 0 => some ([], s)
  | [], _ + 1 => none
  | c :: rest, position + 1 =>
    if c.utf8Size ≤ position + 1 then
      (splitAt? rest (position + 1 - c.utf8Size)).map fun (before, after) => (c :: before, after)
    else none

/-- The slice from a position on. -/
def sliceFrom? (s : List Char) (start : Nat) : Option (List Char) :=
  (splitAt? s start).map Prod.snd

/-- The slice between two positions. -/
def slice? (s : List Char) (start stop : Nat) : Option (List Char) :=
  (splitAt? s stop).bind fun (before, _) => sliceFrom? before start

/-- The position of the first occurrence of a character. -/
def find? (sep : Char) (s : List Char) : Option Nat :=
  (cut? sep s).map fun (before, _) => utf8Size before

variable {s start rest before after : List Char} {position : Nat}

theorem splitAt?_utf8Size (before after : List Char) :
    splitAt? (before ++ after) (utf8Size before) = some (before, after) := by
  induction before with
  | nil => cases after <;> rfl
  | cons c before ih =>
    have positive := c.utf8Size_pos
    obtain ⟨size, same⟩ : ∃ size, c.utf8Size + utf8Size before = size + 1 :=
      ⟨c.utf8Size + utf8Size before - 1, by omega⟩
    have remaining : size + 1 - c.utf8Size = utf8Size before := by omega
    rw [List.cons_append, utf8Size, same, splitAt?, if_pos (by omega), remaining, ih,
      Option.map_some]

/-- A text can be split at its boundaries, and nowhere else. -/
theorem splitAt?_eq_some_iff :
    splitAt? s position = some (before, after) ↔
      s = before ++ after ∧ position = utf8Size before := by
  constructor
  · intro split
    fun_induction splitAt? s position generalizing before after with
    | case1 s =>
      cases split
      exact ⟨rfl, rfl⟩
    | case2 position => cases split
    | case3 c rest position fits ih =>
      obtain ⟨⟨before', after'⟩, split', same⟩ := Option.map_eq_some_iff.1 split
      cases same
      obtain ⟨rfl, remaining⟩ := ih split'
      refine ⟨rfl, ?_⟩
      rw [utf8Size]
      omega
    | case4 c rest position => cases split
  · rintro ⟨rfl, rfl⟩
    exact splitAt?_utf8Size before after

theorem sliceFrom?_eq_some_iff : sliceFrom? s position = some rest ↔ StandsAt s position rest := by
  simp [sliceFrom?, StandsAt, splitAt?_eq_some_iff]

theorem slice?_of_standsAt (stands : StandsAt s position (start ++ rest)) :
    slice? s position (position + utf8Size start) = some start := by
  obtain ⟨before, rfl, rfl⟩ := stands
  rw [← List.append_assoc, ← utf8Size_append, slice?, splitAt?_utf8Size]
  exact sliceFrom?_eq_some_iff.2 ⟨before, rfl, rfl⟩

theorem find?_eq_some {sep : Char} (found : cut? sep s = some (before, after)) :
    find? sep s = some (utf8Size before) := by
  rw [find?, found, Option.map_some]

theorem find?_eq_none {sep : Char} (none' : cut? sep s = none) : find? sep s = none := by
  rw [find?, none', Option.map_none]

end Text

/-! ## Tokens -/

/-- What a reader finds at a position of a text, and where it goes on if it does. -/
inductive Sight (R : Type) where
  | ended
  | blank (next : Nat)
  | token (token : RouteToken R) (next : Nat)
  /-- A fault that the reader does not get over. -/
  | last (token : RouteToken R)

section Tokens

variable {R : Type} [Scalar R]

namespace RouteToken

/-- Where the reader goes on if the wanted character stands at a position. -/
def expect? (body : List Char) (wanted : Char) (position : Nat) : Option (Option Nat) :=
  (Text.sliceFrom? body position).map fun rest =>
    if rest.head? = some wanted then some (position + wanted.utf8Size) else none

/-- What stands at a position. -/
def look? (body : List Char) (position : Nat) : Option (Sight R) :=
  (Text.sliceFrom? body position).bind fun
    | [] => some .ended
    | c :: _ =>
      let next := position + c.utf8Size
      if Text.isBlank c then some (.blank next)
      else match c with
        | '-' => (expect? body '>' next).map fun
          | some next => .token (.arrow .oneWay) next
          | none => .last (.fault .malformedArrow)
        | '<' => (expect? body '-' next).bind fun
          | some next => (expect? body '>' next).map fun
            | some next => .token (.arrow .twoWay) next
            | none => .last (.fault .malformedArrow)
          | none => some (.last (.fault .malformedArrow))
        | '[' => (Text.sliceFrom? body next).bind fun rest =>
          match Text.find? ']' rest with
          | none => some (.last (.details (.error .unterminatedDetails)))
          | some close => (Text.slice? body next (next + close)).map fun content =>
            .token (.details (Detail.readBlock content)) (next + close + 1)
        | c => some (match single? c with
          | some token => .token token next
          | none => .last (.fault (.unexpected c)))

/-- The tokens of a body from a position on, as they are found by looking a number of times. -/
def lookAll? (body : List Char) (offset : Nat) : Nat → Nat → Option (List (PlacedToken R))
  | 0, _ => some []
  | looks + 1, position => (look? body position).bind fun
    | .ended => some []
    | .blank next => lookAll? body offset looks next
    | .token token next =>
      (lookAll? body offset looks next).map (⟨offset + position, token⟩ :: ·)
    | .last token => some [⟨offset + position, token⟩]

variable {body rest : List Char} {position : Nat} {c : Char}

theorem expect?_eq (stands : Text.StandsAt body position rest) (wanted : Char) :
    expect? body wanted position =
      some (if rest.head? = some wanted then some (position + wanted.utf8Size) else none) := by
  rw [expect?, Text.sliceFrom?_eq_some_iff.2 stands, Option.map_some]

theorem look?_nil (stands : Text.StandsAt body position []) :
    look? body position = some (.ended : Sight R) := by
  rw [look?, Text.sliceFrom?_eq_some_iff.2 stands]
  rfl

theorem look?_blank (stands : Text.StandsAt body position (c :: rest))
    (blank : Text.isBlank c = true) :
    look? body position = some (.blank (position + c.utf8Size) : Sight R) := by
  rw [look?, Text.sliceFrom?_eq_some_iff.2 stands, Option.bind_some]
  simp only [blank, if_true]

theorem look?_oneWay (stands : Text.StandsAt body position ('-' :: '>' :: rest)) :
    look? body position = some (.token (.arrow .oneWay) (position + 2) : Sight R) := by
  rw [look?, Text.sliceFrom?_eq_some_iff.2 stands, Option.bind_some]
  simp only [show Text.isBlank '-' = false by decide, Bool.false_eq_true, if_false]
  rw [expect?_eq stands.tail]
  rfl

theorem look?_twoWay (stands : Text.StandsAt body position ('<' :: '-' :: '>' :: rest)) :
    look? body position = some (.token (.arrow .twoWay) (position + 3) : Sight R) := by
  rw [look?, Text.sliceFrom?_eq_some_iff.2 stands, Option.bind_some]
  simp only [show Text.isBlank '<' = false by decide, Bool.false_eq_true, if_false]
  rw [expect?_eq stands.tail]
  simp only [List.head?_cons, if_true, Option.bind_some]
  rw [expect?_eq stands.tail.tail]
  rfl

theorem look?_malformed (stands : Text.StandsAt body position (c :: rest))
    (start : c = '-' ∨ c = '<') (oneWay : ∀ after, c = '-' → rest ≠ '>' :: after)
    (twoWay : ∀ after, c = '<' → rest ≠ '-' :: '>' :: after) :
    look? body position = some (.last (.fault .malformedArrow) : Sight R) := by
  rw [look?, Text.sliceFrom?_eq_some_iff.2 stands, Option.bind_some]
  rcases start with rfl | rfl
  · have other : rest.head? ≠ some '>' := fun head => by
      obtain ⟨after, same⟩ := List.head?_eq_some_iff.1 head
      exact oneWay after rfl same
    simp only [show Text.isBlank '-' = false by decide, Bool.false_eq_true, if_false]
    rw [expect?_eq stands.tail, if_neg other]
    rfl
  · simp only [show Text.isBlank '<' = false by decide, Bool.false_eq_true, if_false]
    rw [expect?_eq stands.tail]
    by_cases dash : rest.head? = some '-'
    · obtain ⟨rest, rfl⟩ := List.head?_eq_some_iff.1 dash
      have other : rest.head? ≠ some '>' := fun head => by
        obtain ⟨after, same⟩ := List.head?_eq_some_iff.1 head
        exact twoWay after rfl (congrArg _ same)
      simp only [if_pos dash, Option.bind_some]
      rw [expect?_eq stands.tail.tail, if_neg other]
      rfl
    · rw [if_neg dash]
      rfl

theorem look?_unterminated (stands : Text.StandsAt body position ('[' :: rest))
    (unterminated : Text.cut? ']' rest = none) :
    look? body position = some (.last (.details (.error .unterminatedDetails)) : Sight R) := by
  rw [look?, Text.sliceFrom?_eq_some_iff.2 stands, Option.bind_some]
  simp only [show Text.isBlank '[' = false by decide, Bool.false_eq_true, if_false]
  rw [Text.sliceFrom?_eq_some_iff.2 stands.tail, Option.bind_some, Text.find?_eq_none unterminated]

theorem look?_details {content after : List Char}
    (stands : Text.StandsAt body position ('[' :: rest))
    (found : Text.cut? ']' rest = some (content, after)) :
    look? body position = some (.token (.details (Detail.readBlock content))
      (position + Text.utf8Size content + 2) : Sight R) := by
  have inside := stands.tail
  rw [Text.eq_of_cut? found] at inside
  have one : '['.utf8Size = 1 := rfl
  have next : position + '['.utf8Size + Text.utf8Size content + 1 =
      position + Text.utf8Size content + 2 := by omega
  rw [look?, Text.sliceFrom?_eq_some_iff.2 stands, Option.bind_some]
  simp only [show Text.isBlank '[' = false by decide, Bool.false_eq_true, if_false]
  rw [Text.sliceFrom?_eq_some_iff.2 stands.tail, Option.bind_some, Text.find?_eq_some found]
  simp only
  rw [Text.slice?_of_standsAt inside, Option.map_some, next]

theorem look?_other (stands : Text.StandsAt body position (c :: rest))
    (dash : c ≠ '-') (angle : c ≠ '<') (bracket : c ≠ '[') (blank : ¬ Text.isBlank c = true) :
    look? body position = some ((single? c : Option (RouteToken R)).elim
      (.last (.fault (.unexpected c))) fun token => .token token (position + c.utf8Size)) := by
  rw [look?, Text.sliceFrom?_eq_some_iff.2 stands, Option.bind_some]
  simp only [blank, Bool.false_eq_true, if_false]
  cases single? c <;> rfl

section LookAll

variable {offset looks next : Nat} {token : RouteToken R}

theorem lookAll?_token (seen : look? body position = some (.token token next)) :
    lookAll? body offset (looks + 1) position =
      (lookAll? body offset looks next).map (⟨offset + position, token⟩ :: ·) := by
  rw [lookAll?, seen, Option.bind_some]

theorem lookAll?_last (seen : look? body position = some (.last token)) :
    lookAll? body offset (looks + 1) position = some [⟨offset + position, token⟩] := by
  rw [lookAll?, seen, Option.bind_some]

/-- Looking once for every character, and once at the end, finds all tokens from a position on. -/
theorem lookAll?_eq (stands : Text.StandsAt body position rest) (enough : rest.length < looks) :
    lookAll? body offset looks position =
      some (scan (offset + position) rest : List (PlacedToken R)) := by
  generalize placed : offset + position = start
  induction start, rest using scan.induct (R := R) generalizing looks position with
  | case1 =>
    obtain ⟨looks, rfl⟩ : ∃ fewer, looks = fewer + 1 := ⟨looks - 1, by omega⟩
    rw [lookAll?, look?_nil stands, Option.bind_some, scan_nil]
  | case2 start rest ih =>
    simp only [List.length_cons] at enough
    obtain ⟨looks, rfl⟩ : ∃ fewer, looks = fewer + 1 := ⟨looks - 1, by omega⟩
    have later : Text.StandsAt body (position + 2) rest := stands.tail.tail
    rw [lookAll?_token (look?_oneWay stands), ih later (by omega) (by omega), scan_oneWay, placed,
      Option.map_some]
  | case3 start rest ih =>
    simp only [List.length_cons] at enough
    obtain ⟨looks, rfl⟩ : ∃ fewer, looks = fewer + 1 := ⟨looks - 1, by omega⟩
    have later : Text.StandsAt body (position + 3) rest := stands.tail.tail.tail
    rw [lookAll?_token (look?_twoWay stands), ih later (by omega) (by omega), scan_twoWay, placed,
      Option.map_some]
  | case4 start rest unterminated =>
    obtain ⟨looks, rfl⟩ : ∃ fewer, looks = fewer + 1 := ⟨looks - 1, by omega⟩
    rw [lookAll?_last (look?_unterminated stands unterminated), scan_unterminated unterminated,
      placed]
  | case5 start rest content after found ih =>
    have length := congrArg List.length (Text.eq_of_cut? found)
    simp only [List.length_cons, List.length_append] at enough length
    obtain ⟨looks, rfl⟩ : ∃ fewer, looks = fewer + 1 := ⟨looks - 1, by omega⟩
    rw [lookAll?_token (look?_details stands found),
      ih (stands.after_block found) (by omega) (by omega), scan_details found, placed,
      Option.map_some]
  | case6 start c rest oneWay twoWay bracket blank ih =>
    simp only [List.length_cons] at enough
    obtain ⟨looks, rfl⟩ : ∃ fewer, looks = fewer + 1 := ⟨looks - 1, by omega⟩
    rw [lookAll?, look?_blank stands blank, Option.bind_some, scan_other oneWay twoWay bracket,
      if_pos blank]
    exact ih stands.tail (by omega) (by omega)
  | case7 start c rest oneWay twoWay bracket blank malformed =>
    obtain ⟨looks, rfl⟩ : ∃ fewer, looks = fewer + 1 := ⟨looks - 1, by omega⟩
    rw [lookAll?_last (look?_malformed stands malformed oneWay twoWay),
      scan_malformed malformed oneWay twoWay, placed]
  | case8 start c rest oneWay twoWay bracket blank other token found ih =>
    simp only [List.length_cons] at enough
    obtain ⟨looks, rfl⟩ : ∃ fewer, looks = fewer + 1 := ⟨looks - 1, by omega⟩
    obtain ⟨dash, angle⟩ := not_or.1 other
    have seen : look? body position = some (.token token (position + c.utf8Size)) := by
      rw [look?_other stands dash angle bracket blank, found, Option.elim_some]
    rw [lookAll?_token seen, ih stands.tail (by omega) (by omega), scan_plain dash angle bracket,
      if_neg blank, found, placed, Option.map_some, Option.elim_some]
  | case9 start c rest oneWay twoWay bracket blank other found =>
    obtain ⟨looks, rfl⟩ : ∃ fewer, looks = fewer + 1 := ⟨looks - 1, by omega⟩
    obtain ⟨dash, angle⟩ := not_or.1 other
    have seen : look? body position = some (.last (.fault (.unexpected c)) : Sight R) := by
      rw [look?_other stands dash angle bracket blank, found, Option.elim_none]
    rw [lookAll?_last seen, scan_plain dash angle bracket, if_neg blank, found, placed,
      Option.elim_none]

end LookAll

end RouteToken

end Tokens

/-! ## Texts -/

namespace GestureText

/-- The label and the body of a gesture text, cut out by positions. -/
def cutOut? (source : List Char) : Option GestureText :=
  match Text.find? ':' source with
  | none => some ⟨none, 0, source⟩
  | some colon =>
    (Text.sliceFrom? source (colon + 1)).bind fun body =>
      (Text.slice? source 0 colon).map fun before =>
        let label := Text.trim before
        ⟨if label.isEmpty then none else some (String.ofList label), colon + 1, body⟩

theorem cutOut?_eq (source : List Char) : cutOut? source = some (ofChars source) := by
  cases cut : Text.cut? ':' source with
  | none =>
    rw [cutOut?, ofChars, cut, Text.find?_eq_none cut]
  | some parts =>
    obtain ⟨before, body⟩ := parts
    have whole : Text.StandsAt source 0 (before ++ ':' :: body) :=
      ⟨[], Text.eq_of_cut? cut, rfl⟩
    have label : Text.slice? source 0 (Text.utf8Size before) = some before := by
      rw [← Text.slice?_of_standsAt whole, Nat.zero_add]
    have rest : Text.StandsAt source (Text.utf8Size before + 1) body := by
      have colon := whole.append.tail
      rwa [Nat.zero_add] at colon
    rw [cutOut?, ofChars, cut, Text.find?_eq_some cut]
    simp only [Text.sliceFrom?_eq_some_iff.2 rest, label, Option.bind_some, Option.map_some]

/-- The body of a gesture text stands in it. -/
theorem standsAt_ofChars (source : List Char) :
    Text.StandsAt source (ofChars source).offset (ofChars source).body := by
  cases cut : Text.cut? ':' source with
  | none =>
    rw [ofChars, cut]
    exact ⟨[], rfl, rfl⟩
  | some parts =>
    obtain ⟨before, body⟩ := parts
    rw [ofChars, cut]
    refine ⟨before ++ [':'], ?_, ?_⟩
    · rw [List.append_assoc]
      exact Text.eq_of_cut? cut
    · rw [Text.utf8Size_append]
      rfl

variable {R : Type} [Scalar R]

/-- The route of a gesture text that is read by positions. -/
def routeByPosition? (density : R) (element : Bounds R) (source : List Char) :
    Option (Except LocatedFault (Route R)) :=
  (cutOut? source).bind fun text =>
    (RouteToken.lookAll? text.body text.offset (text.body.length + 1) 0).map
      (Route.readFrom density ⟨text.offset, .noStates⟩
        ⟨text.offset + Text.utf8Size text.body, .arrowWithoutTarget⟩ element {})

/-- No slice of a gesture text begins or ends within a character, and by positions the text is read
as it is character by character. -/
theorem routeByPosition?_eq (density : R) (element : Bounds R) (source : List Char) :
    routeByPosition? density element source = some (route density element source) := by
  have whole : Text.StandsAt (ofChars source).body 0 (ofChars source).body := ⟨[], rfl, rfl⟩
  rw [routeByPosition?, cutOut?_eq, Option.bind_some,
    RouteToken.lookAll?_eq whole (Nat.lt_succ_self _), Option.map_some]
  rfl

end GestureText

namespace Compiler

variable {R : Type} [Scalar R] {c : Compiler R} {element : Bounds R} {source : String}

/-- What is not read as a route does not compile, and is rejected where it could not be read. -/
theorem compile_of_unreadable {fault : LocatedFault}
    (surface : zero < c.surface.width ∧ zero < c.surface.height)
    (area : zero < element.width ∧ zero < element.height)
    (unreadable : GestureText.route c.density element source.toList = .error fault) :
    c.compile source element = .error ⟨source, fault.offset, fault.fault⟩ := by
  rw [GestureText.route] at unreadable
  simp only [compile, surface, area, and_self, not_true_eq_false, if_false, unreadable]

/-- A text that can be read as a route is rejected at its start, if it is. -/
theorem offset_of_compile {rejection : GestureError}
    (rejected : c.compile source element = .error rejection) :
    rejection.offset = 0 ∨ ∃ fault : LocatedFault, rejection.offset = fault.offset ∧
      GestureText.route c.density element source.toList = .error fault := by
  unfold compile at rejected
  simp only at rejected
  split at rejected
  · cases rejected
    exact .inl rfl
  · split at rejected
    · cases rejected
      exact .inl rfl
    · split at rejected
      · next fault unreadable =>
        cases rejected
        exact .inr ⟨fault, rfl, unreadable⟩
      · split at rejected
        · cases rejected
          exact .inl rfl
        · cases rejected

/-- With a label before it, a gesture text without one is read as the same route, or rejected for
the same reason and later by the bytes of the label and the colon. Every text is rejected at a
boundary between its characters, and every slice that is taken when it is read by positions begins
and ends at a boundary. -/
theorem rejection_offsets (surface : zero < c.surface.width ∧ zero < c.surface.height)
    (area : zero < element.width ∧ zero < element.height) :
    (∀ label body : String, ':' ∉ label.toList → ':' ∉ body.toList →
      let labelled := label ++ ":" ++ body
      let distance := label.utf8ByteSize + 1
      GestureText.route c.density element labelled.toList =
        (GestureText.route c.density element body.toList).mapError (LocatedFault.shift distance) ∧
      ∀ fault : LocatedFault, GestureText.route c.density element body.toList = .error fault →
        c.compile body element = .error ⟨body, fault.offset, fault.fault⟩ ∧
        c.compile labelled element = .error ⟨labelled, fault.offset + distance, fault.fault⟩) ∧
    ∀ source : String,
      (∀ rejection, c.compile source element = .error rejection →
        rejection.offset ≤ source.utf8ByteSize ∧
          String.Pos.Raw.IsValid source ⟨rejection.offset⟩) ∧
      GestureText.routeByPosition? c.density element source.toList =
        some (GestureText.route c.density element source.toList) := by
  refine ⟨fun label body plain plain' => ?_, fun source => ⟨fun rejection rejected => ?_, ?_⟩⟩
  · intro labelled distance
    have shifted : GestureText.route c.density element labelled.toList =
        (GestureText.route c.density element body.toList).mapError
          (LocatedFault.shift distance) := by
      have text : labelled.toList = label.toList ++ ':' :: body.toList := by
        simp [labelled]
      have length : distance = Text.utf8Size label.toList + 1 := by
        rw [Text.utf8Size_eq, String.ofList_toList]
      rw [text, length]
      exact GestureText.route_labelled plain plain'
    refine ⟨shifted, fun fault unreadable => ?_⟩
    refine ⟨compile_of_unreadable surface area unreadable, ?_⟩
    rw [unreadable] at shifted
    exact compile_of_unreadable surface area shifted
  · have boundary : Text.IsBoundary source.toList rejection.offset := by
      rcases offset_of_compile rejected with start | ⟨fault, same, unreadable⟩
      · rw [start]
        exact Text.isBoundary_zero _
      · rw [same]
        exact Route.bounded_read (GestureText.standsAt_ofChars _) unreadable
    have valid := Text.isBoundary_iff_isValid.1 boundary
    exact ⟨valid.le_rawEndPos, valid⟩
  · exact GestureText.routeByPosition?_eq c.density element source.toList

/-- The text ` Q`, and the same with a label that takes two bytes. -/
theorem rejection_offsets_umlaut :
    let c : Compiler EReal := ⟨⟨1, 1⟩, 1, .gaussian⟩
    c.compile " Q" ⟨0, 0, 1, 1⟩ = .error ⟨" Q", 1, .unexpected 'Q'⟩ ∧
      c.compile "ö: Q" ⟨0, 0, 1, 1⟩ = .error ⟨"ö: Q", 4, .unexpected 'Q'⟩ ∧
      String.Pos.Raw.IsValid "ö: Q" ⟨4⟩ := by
  intro c
  have positive : (zero : EReal) < 1 := by simp
  have unreadable : GestureText.route c.density ⟨0, 0, 1, 1⟩ " Q".toList =
      .error ⟨1, .unexpected 'Q'⟩ := by
    have text : " Q".toList = [' ', 'Q'] := by decide +kernel
    have tokens : (RouteToken.scan 0 [' ', 'Q'] : List (PlacedToken EReal)) =
        [⟨1, .fault (.unexpected 'Q')⟩] := by
      rw [RouteToken.scan_plain (by decide) (by decide) (by decide), if_pos (by decide),
        RouteToken.scan_plain (by decide) (by decide) (by decide), if_neg (by decide)]
      rfl
    rw [text, GestureText.route_of_plain (by decide), Route.read, tokens,
      Route.readFrom_add (fun arrow => by simp)]
    rfl
  obtain ⟨labelled, bounded⟩ :=
    @rejection_offsets EReal _ c ⟨0, 0, 1, 1⟩ ⟨positive, positive⟩ ⟨positive, positive⟩
  obtain ⟨-, shifted⟩ := labelled "ö" " Q" (by decide +kernel) (by decide +kernel)
  obtain ⟨here, there⟩ := shifted _ unreadable
  have text : "ö" ++ ":" ++ " Q" = "ö: Q" := by decide +kernel
  have size : 1 + ("ö".utf8ByteSize + 1) = 4 := by decide +kernel
  rw [text, size] at there
  exact ⟨here, there, ((bounded _).1 _ there).2⟩

end Compiler

end TouchIntent
