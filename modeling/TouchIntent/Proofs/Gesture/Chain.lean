import Mathlib
import TouchIntent.Proofs.Fallible
import TouchIntent.Proofs.Gesture.SingleState
import TouchIntent.Proofs.Gesture.Tokens

/-!
# Routes are chains

Reading a gesture text carries nothing over an arrow but the box of the element. So a text with an
arrow is read by reading what stands before the arrow, then reading what stands after it with the
box that is left, and joining the two routes.
-/

namespace TouchIntent

variable {R : Type}

namespace Route

/-- One route, an arrow, and another route. -/
def join (a : Route R) (arrow : Arrow) (b : Route R) : Route R :=
  ⟨a.first, a.rest ++ (arrow, b.first) :: b.rest, b.element⟩

variable (r a : Route R) (arrow : Arrow) (b : Route R)

/-- The gesture may go from the first to the second stop. -/
def Steps (source target : Nat) : Prop :=
  source < r.stops.length ∧ target < r.stops.length ∧ r.isStep source target = true

@[simp] theorem join_stops : (a.join arrow b).stops = a.stops ++ b.stops := by
  simp [join, stops]

@[simp] theorem join_arrows : (a.join arrow b).arrows = a.arrows ++ arrow :: b.arrows := by
  simp [join, arrows]

theorem length_stops : r.stops.length = r.arrows.length + 1 := by simp [stops, arrows]

/-- A joined route is placed relative to its start if a part of it is. -/
theorem join_isRelative : (a.join arrow b).isRelative = (a.isRelative || b.isRelative) := by
  rw [isRelative, join_stops, List.any_append, isRelative, isRelative]

/-- A joined route goes both ways if its parts do and can be left both ways. -/
theorem join_isTwoWay :
    (a.join arrow b).isTwoWay = (a.isTwoWay && (arrow == .twoWay && b.isTwoWay)) := by
  rw [isTwoWay, join_arrows, List.all_append, List.all_cons, isTwoWay, isTwoWay]

theorem isStep_iff {source target : Nat} : r.isStep source target = true ↔
    target = source ∨ target = source + 1 ∨
      source = target + 1 ∧ r.arrows[target]? = some .twoWay := by
  simp [isStep, or_assoc]

theorem steps_iff {source target : Nat} : r.Steps source target ↔
    source < r.stops.length ∧ target < r.stops.length ∧
      (target = source ∨ target = source + 1 ∨
        source = target + 1 ∧ r.arrows[target]? = some .twoWay) := by
  rw [Steps, isStep_iff]

theorem join_arrows_left {i : Nat} (inside : i + 1 < a.stops.length) :
    (a.join arrow b).arrows[i]? = a.arrows[i]? := by
  rw [length_stops] at inside
  rw [join_arrows]
  exact List.getElem?_append_left (by omega)

theorem join_arrows_between {i : Nat} (last : i + 1 = a.stops.length) :
    (a.join arrow b).arrows[i]? = some arrow := by
  rw [length_stops] at last
  obtain rfl : i = a.arrows.length := by omega
  rw [join_arrows, List.getElem?_append_right (Nat.le_refl _), Nat.sub_self]
  rfl

theorem join_arrows_right (i : Nat) :
    (a.join arrow b).arrows[a.stops.length + i]? = b.arrows[i]? := by
  have after : a.stops.length + i - a.arrows.length = i + 1 := by
    rw [length_stops]
    omega
  rw [join_arrows, List.getElem?_append_right (by rw [length_stops]; omega), after]
  rfl

/-- The steps of a joined route: those of its parts, and over the arrow. -/
theorem join_steps {source target : Nat} : (a.join arrow b).Steps source target ↔
    a.Steps source target ∨
      (source + 1 = a.stops.length ∧ target = a.stops.length) ∨
      (arrow = .twoWay ∧ source = a.stops.length ∧ target + 1 = a.stops.length) ∨
      ∃ source' target', source = a.stops.length + source' ∧ target = a.stops.length + target' ∧
        b.Steps source' target' := by
  have length := b.length_stops
  simp only [steps_iff, join_stops, List.length_append]
  constructor
  · rintro ⟨inRange, inRange', same | next | ⟨back, twoWay⟩⟩
    · by_cases left : source < a.stops.length
      · exact .inl ⟨left, by omega, .inl same⟩
      · exact .inr (.inr (.inr ⟨source - a.stops.length, target - a.stops.length, by omega,
          by omega, by omega, by omega, .inl (by omega)⟩))
    · by_cases left : target < a.stops.length
      · exact .inl ⟨by omega, left, .inr (.inl next)⟩
      · by_cases across : target = a.stops.length
        · exact .inr (.inl ⟨by omega, across⟩)
        · exact .inr (.inr (.inr ⟨source - a.stops.length, target - a.stops.length, by omega,
            by omega, by omega, by omega, .inr (.inl (by omega))⟩))
    · by_cases left : target + 1 < a.stops.length
      · rw [join_arrows_left a arrow b left] at twoWay
        exact .inl ⟨by omega, by omega, .inr (.inr ⟨back, twoWay⟩)⟩
      · by_cases across : target + 1 = a.stops.length
        · rw [join_arrows_between a arrow b across] at twoWay
          exact .inr (.inr (.inl ⟨Option.some.inj twoWay, by omega, across⟩))
        · obtain ⟨target', rfl⟩ : ∃ k, target = a.stops.length + k :=
            ⟨target - a.stops.length, by omega⟩
          rw [join_arrows_right] at twoWay
          exact .inr (.inr (.inr ⟨target' + 1, target', by omega, rfl, by omega, by omega,
            .inr (.inr ⟨rfl, twoWay⟩)⟩))
  · rintro (⟨inRange, inRange', same | next | ⟨back, twoWay⟩⟩ | ⟨last, first⟩ |
      ⟨twoWay, first, last⟩ | ⟨source', target', rfl, rfl, inRange, inRange',
        same | next | ⟨back, twoWay⟩⟩)
    · exact ⟨by omega, by omega, .inl same⟩
    · exact ⟨by omega, by omega, .inr (.inl next)⟩
    · rw [← join_arrows_left a arrow b (by omega)] at twoWay
      exact ⟨by omega, by omega, .inr (.inr ⟨back, twoWay⟩)⟩
    · exact ⟨by omega, by omega, .inr (.inl (by omega))⟩
    · refine ⟨by omega, by omega, .inr (.inr ⟨by omega, ?_⟩)⟩
      rw [join_arrows_between a arrow b last, twoWay]
    · exact ⟨by omega, by omega, .inl (by omega)⟩
    · exact ⟨by omega, by omega, .inr (.inl (by omega))⟩
    · refine ⟨by omega, by omega, .inr (.inr ⟨by omega, ?_⟩)⟩
      rw [join_arrows_right, twoWay]

/-- A route is one route, an arrow, and another route: the stops of the first and then those of the
second, the steps within each of them and the steps over the arrow. It goes both ways if both parts
and the arrow do, it is placed relative to its start if a part is, and it leaves the box that the
second part leaves. -/
structure IsJoined (r a : Route R) (arrow : Arrow) (b : Route R) : Prop where
  stops : r.stops = a.stops ++ b.stops
  steps : ∀ source target, r.Steps source target ↔
    a.Steps source target ∨
      (source + 1 = a.stops.length ∧ target = a.stops.length) ∨
      (arrow = .twoWay ∧ source = a.stops.length ∧ target + 1 = a.stops.length) ∨
      ∃ source' target', source = a.stops.length + source' ∧ target = a.stops.length + target' ∧
        b.Steps source' target'
  isTwoWay : r.isTwoWay = true ↔ a.isTwoWay = true ∧ arrow = .twoWay ∧ b.isTwoWay = true
  isRelative : r.isRelative = true ↔ a.isRelative = true ∨ b.isRelative = true
  element : r.element = b.element

theorem join_isJoined : (a.join arrow b).IsJoined a arrow b where
  stops := a.join_stops arrow b
  steps _ _ := a.join_steps arrow b
  isTwoWay := by simp [join_isTwoWay]
  isRelative := by simp [join_isRelative]
  element := rfl

theorem rest_ne_nil {r : Route R} (several : 1 < r.stops.length) : r.rest ≠ [] := by
  intro alone
  rw [stops, alone] at several
  exact Nat.lt_irrefl 1 several

end Route

/-! ## Drafts -/

namespace Draft

/-- Two drafts that differ at most in where their stop starts. -/
def Alike (d e : Draft R) : Prop :=
  ∃ start : Option Nat, e = { d with start } ∧ start.isSome = d.start.isSome

/-- A draft that names a place knows where its stop starts. -/
def Begun (d : Draft R) : Prop := d.headings ≠ [] → d.start.isSome = true

variable [Scalar R] {density : R} {element element' : Bounds R} {d d' e : Draft R}
  {t u : PlacedToken R}

omit [Scalar R] in
theorem Alike.begin (alike : d.Alike e) (o p : Nat) : (d.begin o).Alike (e.begin p) := by
  obtain ⟨start, rfl, same⟩ := alike
  refine ⟨_, rfl, ?_⟩
  cases start <;> cases known : d.start <;> simp_all [Draft.begin]

omit [Scalar R] in
theorem isSome_begin (d : Draft R) (offset : Nat) : (d.begin offset).start.isSome = true := by
  cases known : d.start <;> simp [Draft.begin, known]

/-- A token that can be read has been added to a draft. If it places the stop, the stop has started;
and wherever draft and token stand, the same is added. -/
structure Added (density : R) (element : Bounds R) (d : Draft R) (t : PlacedToken R) (d' : Draft R)
    (element' : Bounds R) : Prop where
  sound : t.token.isSound = true
  begun : d.Begun → d'.Begun
  elsewhere : ∀ {e : Draft R} {u : PlacedToken R}, d.Alike e → t.token = u.token →
    ∃ e', e.add density element u = .ok (e', element') ∧ d'.Alike e'

theorem added_of_add (added : d.add density element t = .ok (d', element')) :
    Added density element d t d' element' := by
  have started := d.isSome_begin t.offset
  unfold add at added
  cases token : t.token with
  | heading heading | final | event kind =>
    rw [token] at added
    cases added
    refine ⟨by rw [token]; rfl, fun _ _ => started, fun {e u} alike same => ?_⟩
    obtain ⟨start, begun, known⟩ := alike.begin t.offset u.offset
    rw [add, ← same, token, begun]
    exact ⟨_, rfl, start, rfl, known⟩
  | details block =>
    rw [token] at added
    simp only at added
    split at added
    · cases added
    · next placed =>
      cases block with
      | error fault => cases added
      | ok details =>
        cases added
        refine ⟨by rw [token]; rfl, fun begun => begun, fun {e u} alike same => ?_⟩
        obtain ⟨start, rfl, known⟩ := alike
        rw [add, ← same, token]
        simp only
        rw [if_neg placed]
        exact ⟨_, rfl, start, rfl, known⟩
  | times times =>
    rw [token] at added
    simp only at added
    cases events : d.events with
    | nil =>
      rw [events] at added
      cases added
    | cons event others =>
      rw [events] at added
      cases added
      refine ⟨by rw [token]; rfl, fun begun => begun, fun {e u} alike same => ?_⟩
      obtain ⟨start, rfl, known⟩ := alike
      rw [add, ← same, token]
      simp only [events]
      exact ⟨_, rfl, start, rfl, known⟩
  | marker =>
    rw [token] at added
    have after : (d.begin t.offset).afterEvent = d.afterEvent := rfl
    have events : (d.begin t.offset).events = d.events := rfl
    simp only [after, events] at added
    cases last : d.afterEvent <;> cases listed : d.events <;>
      rw [last, listed] at added <;> cases added
    all_goals
      refine ⟨by rw [token]; rfl, fun _ _ => started, fun {e u} alike same => ?_⟩
      obtain ⟨start, begun, known⟩ := alike.begin t.offset u.offset
      rw [add, ← same, token, begun]
      simp only [after, events, last, listed]
      exact ⟨_, rfl, start, rfl, known⟩
  | arrow arrow =>
    rw [token] at added
    cases added
    refine ⟨by rw [token]; rfl, fun begun => begun, fun {e u} alike same => ?_⟩
    rw [add, ← same, token]
    exact ⟨_, rfl, alike⟩
  | fault fault =>
    rw [token] at added
    cases added

/-- A stop does not depend on where its draft stands. -/
theorem finish_alike (alike : d.Alike e) {stop : Stop R}
    (done : d.finish density element = .ok stop) :
    e.finish density element = .ok stop := by
  obtain ⟨start, rfl, -⟩ := alike
  unfold finish at done ⊢
  simp only at done ⊢
  split at done
  · cases done
  · next placed =>
    rw [if_neg placed]
    split at done
    · cases done
    · next area =>
      rw [if_neg area]
      exact done

/-- A stop has been placed by a heading. -/
theorem headings_of_finish {stop : Stop R} (done : d.finish density element = .ok stop) :
    d.headings ≠ [] := by
  unfold finish at done
  simp only at done
  split at done
  · cases done
  · next placed => simpa using placed

end Draft

namespace Route

variable [Scalar R] {density : R} {missing atEnd missing' atEnd' : LocatedFault}
  {element : Bounds R} {d e : Draft R} {ts us : List (PlacedToken R)} {r : Route R}

/-- The end of a text is the end of its last stop. -/
theorem readFrom_nil_eq_ok : readFrom density missing atEnd element d [] = .ok r ↔
    d.start.isSome = true ∧
      ∃ stop, d.finish density element = .ok stop ∧ r = ⟨stop, [], element⟩ := by
  rw [readFrom]
  cases d.start with
  | none => simp
  | some start =>
    constructor
    · intro read
      obtain ⟨stop, done, same⟩ := exists_of_bind_eq_ok read
      exact ⟨rfl, stop, done, (Except.ok.inj same).symm⟩
    · rintro ⟨-, stop, done, rfl⟩
      simp only [done]
      rfl

/-- An arrow ends a stop, and another route follows. -/
theorem readFrom_arrow_eq_ok {t : PlacedToken R} {arrow : Arrow} (token : t.token = .arrow arrow) :
    readFrom density missing atEnd element d (t :: ts) = .ok r ↔
      ∃ stop others, d.finish density element = .ok stop ∧
        readFrom density atEnd atEnd element {} ts = .ok others ∧
        r = ⟨stop, (arrow, others.first) :: others.rest, others.element⟩ := by
  rw [readFrom, token]
  constructor
  · intro read
    simp only at read
    split at read
    · cases read
    · obtain ⟨stop, done, read⟩ := exists_of_bind_eq_ok read
      obtain ⟨others, later, same⟩ := exists_of_bind_eq_ok read
      exact ⟨stop, others, done, later, (Except.ok.inj same).symm⟩
  · rintro ⟨stop, others, done, later, rfl⟩
    have placed := Draft.headings_of_finish done
    simp only [List.isEmpty_iff, placed, if_false, done, later]
    rfl

/-- Any other token is added to the stop. -/
theorem readFrom_add_eq_ok {t : PlacedToken R} (plain : ∀ arrow, t.token ≠ .arrow arrow) :
    readFrom density missing atEnd element d (t :: ts) = .ok r ↔
      ∃ d' element', d.add density element t = .ok (d', element') ∧
        readFrom density missing atEnd element' d' ts = .ok r := by
  rw [readFrom]
  split
  · next arrow token => exact absurd token (plain arrow)
  · constructor
    · intro read
      obtain ⟨⟨d', element'⟩, added, later⟩ := exists_of_bind_eq_ok read
      exact ⟨d', element', added, later⟩
    · rintro ⟨d', element', added, later⟩
      rw [added]
      exact later

/-- What a text is read as does not depend on where it stands. -/
theorem readFrom_alike (alike : d.Alike e)
    (same : ts.map PlacedToken.token = us.map PlacedToken.token)
    (read : readFrom density missing atEnd element d ts = .ok r) :
    readFrom density missing' atEnd' element e us = .ok r := by
  induction ts generalizing us d e element missing atEnd missing' atEnd' r with
  | nil =>
    obtain rfl : us = [] := List.map_eq_nil_iff.1 same.symm
    obtain ⟨started, stop, done, rfl⟩ := readFrom_nil_eq_ok.1 read
    have done' := Draft.finish_alike alike done
    obtain ⟨start, rfl, known⟩ := alike
    exact readFrom_nil_eq_ok.2 ⟨known.trans started, stop, done', rfl⟩
  | cons t ts ih =>
    obtain ⟨u, us, rfl, token, rest⟩ : ∃ u us', us = u :: us' ∧ t.token = u.token ∧
        ts.map PlacedToken.token = us'.map PlacedToken.token := by
      cases us with
      | nil => cases same
      | cons u us' => exact ⟨u, us', rfl, List.cons.inj same⟩
    by_cases arrow : ∃ arrow, t.token = .arrow arrow
    · obtain ⟨arrow, isArrow⟩ := arrow
      obtain ⟨stop, others, done, later, rfl⟩ := (readFrom_arrow_eq_ok isArrow).1 read
      exact (readFrom_arrow_eq_ok (token ▸ isArrow)).2
        ⟨stop, others, Draft.finish_alike alike done, ih ⟨_, rfl, rfl⟩ rest later, rfl⟩
    · have plain := not_exists.1 arrow
      obtain ⟨d', element', added, later⟩ := (readFrom_add_eq_ok plain).1 read
      obtain ⟨e', added', alike'⟩ := (Draft.added_of_add added).elsewhere alike token
      exact (readFrom_add_eq_ok (token ▸ plain)).2 ⟨e', element', added', ih alike' rest later⟩

/-- What stands before an arrow and what stands after it are read one after the other. -/
theorem readFrom_append_arrow (begun : d.Begun) {t : PlacedToken R} {arrow : Arrow}
    (token : t.token = .arrow arrow) (missing' atEnd' : LocatedFault) :
    readFrom density missing atEnd element d (ts ++ t :: us) = .ok r ↔
      ∃ a b, readFrom density missing' atEnd' element d ts = .ok a ∧
        readFrom density atEnd atEnd a.element {} us = .ok b ∧ r = a.join arrow b := by
  induction ts generalizing d element missing missing' atEnd' r with
  | nil =>
    rw [List.nil_append, readFrom_arrow_eq_ok token]
    constructor
    · rintro ⟨stop, b, done, later, rfl⟩
      refine ⟨⟨stop, [], element⟩, b, readFrom_nil_eq_ok.2 ⟨?_, stop, done, rfl⟩, later, rfl⟩
      exact begun (Draft.headings_of_finish done)
    · rintro ⟨a, b, read, later, rfl⟩
      obtain ⟨-, stop, done, rfl⟩ := readFrom_nil_eq_ok.1 read
      exact ⟨stop, b, done, later, rfl⟩
  | cons s ts ih =>
    rw [List.cons_append]
    by_cases arrow' : ∃ arrow, s.token = .arrow arrow
    · obtain ⟨arrow', isArrow⟩ := arrow'
      have empty : ({} : Draft R).Begun := fun placed => absurd rfl placed
      simp only [readFrom_arrow_eq_ok isArrow]
      constructor
      · rintro ⟨stop, _, done, read, rfl⟩
        obtain ⟨a, b, read', later, rfl⟩ := (ih empty atEnd' atEnd').1 read
        exact ⟨_, b, ⟨stop, a, done, read', rfl⟩, later, rfl⟩
      · rintro ⟨_, b, ⟨stop, a, done, read, rfl⟩, later, rfl⟩
        exact ⟨stop, _, done, (ih empty atEnd' atEnd').2 ⟨a, b, read, later, rfl⟩, rfl⟩
    · have plain := not_exists.1 arrow'
      simp only [readFrom_add_eq_ok plain]
      constructor
      · rintro ⟨d', element', added, read⟩
        obtain ⟨a, b, read', later, rfl⟩ :=
          (ih ((Draft.added_of_add added).begun begun) missing' atEnd').1 read
        exact ⟨a, b, ⟨d', element', added, read'⟩, later, rfl⟩
      · rintro ⟨a, b, ⟨d', element', added, read⟩, later, rfl⟩
        exact ⟨d', element', added,
          (ih ((Draft.added_of_add added).begun begun) missing' atEnd').2 ⟨a, b, read, later, rfl⟩⟩

/-- All tokens of a text that is read as a route can be read. -/
theorem allSound_of_readFrom (begun : d.Begun)
    (read : readFrom density missing atEnd element d ts = .ok r) :
    RouteToken.AllSound (ts.map PlacedToken.token) := by
  induction ts generalizing d element missing atEnd r with
  | nil => exact fun t member => absurd member List.not_mem_nil
  | cons t ts ih =>
    rw [List.map_cons]
    by_cases arrow : ∃ arrow, t.token = .arrow arrow
    · obtain ⟨arrow, isArrow⟩ := arrow
      obtain ⟨-, others, -, later, -⟩ := (readFrom_arrow_eq_ok isArrow).1 read
      refine .cons (by rw [isArrow]; rfl) (ih ?_ later)
      exact fun placed => absurd rfl placed
    · obtain ⟨d', element', added, later⟩ := (readFrom_add_eq_ok (not_exists.1 arrow)).1 read
      have spec := Draft.added_of_add added
      exact .cons spec.sound (ih (spec.begun begun) later)

/-- A route of several stops has an arrow among its tokens. -/
theorem arrow_of_readFrom (several : r.rest ≠ [])
    (read : readFrom density missing atEnd element d ts = .ok r) :
    ∃ arrow, .arrow arrow ∈ ts.map PlacedToken.token := by
  induction ts generalizing d element missing atEnd r with
  | nil =>
    obtain ⟨-, stop, -, rfl⟩ := readFrom_nil_eq_ok.1 read
    exact absurd rfl several
  | cons t ts ih =>
    rw [List.map_cons]
    by_cases arrow : ∃ arrow, t.token = .arrow arrow
    · obtain ⟨arrow, isArrow⟩ := arrow
      exact ⟨arrow, List.mem_cons.2 (.inl isArrow.symm)⟩
    · obtain ⟨d', element', -, later⟩ := (readFrom_add_eq_ok (not_exists.1 arrow)).1 read
      obtain ⟨arrow, member⟩ := ih several later
      exact ⟨arrow, List.mem_cons_of_mem _ member⟩

end Route

/-! ## Texts -/

/-- A text without a label is its own body. -/
theorem GestureText.ofChars_of_plain {text : List Char} (plain : ':' ∉ text) :
    GestureText.ofChars text = ⟨none, 0, text⟩ := by
  have uncut : Text.cut? ':' text = none := by
    induction text with
    | nil => rfl
    | cons c rest ih =>
      rw [List.mem_cons, not_or] at plain
      rw [Text.cut?, if_neg (Ne.symm plain.1), ih plain.2]
      rfl
  rw [GestureText.ofChars, uncut]

section Texts

variable [Scalar R] {density : R} {element : Bounds R} {r : Route R}

/-- What a text is read as depends on its tokens only. -/
theorem Route.read_eq_ok {body : List Char} {ts : List (PlacedToken R)}
    (tokens : ts.map PlacedToken.token = RouteToken.ofText body) (offset : Nat)
    (missing atEnd : LocatedFault) :
    Route.read density element offset body = .ok r ↔
      Route.readFrom density missing atEnd element {} ts = .ok r := by
  have alike : ({} : Draft R).Alike {} := ⟨none, rfl, rfl⟩
  have same : (RouteToken.scan offset body).map PlacedToken.token = ts.map PlacedToken.token :=
    (RouteToken.map_token_scan offset body).trans tokens.symm
  exact ⟨Route.readFrom_alike alike same, Route.readFrom_alike alike same.symm⟩

/-- All tokens of a text that is read as a route can be read. -/
theorem Route.allSound_of_read {offset : Nat} {body : List Char}
    (read : Route.read density element offset body = .ok r) :
    RouteToken.AllSound (RouteToken.ofText body : List (RouteToken R)) := by
  rw [← RouteToken.map_token_scan offset body]
  exact allSound_of_readFrom (fun placed => absurd rfl placed) read

/-- A text with an arrow is read as what stands before it, then as what stands after it with the
box that is left. -/
theorem Route.read_append_arrow {before : List Char}
    (sound : RouteToken.AllSound (RouteToken.ofText before : List (RouteToken R)))
    (arrow : Arrow) (after : List Char) (offset offset' offset'' : Nat) :
    Route.read density element offset (before ++ (arrow.text ++ after)) = .ok r ↔
      ∃ a b, Route.read density element offset' before = .ok a ∧
        Route.read density a.element offset'' after = .ok b ∧ r = a.join arrow b := by
  let fault : LocatedFault := ⟨0, .noStates⟩
  let ts : List (PlacedToken R) := RouteToken.scan 0 before
  let us : List (PlacedToken R) := RouteToken.scan 0 after
  have tokens : (ts ++ ⟨0, .arrow arrow⟩ :: us).map PlacedToken.token =
      RouteToken.ofText (before ++ (arrow.text ++ after)) := by
    rw [List.map_append, List.map_cons]
    exact (RouteToken.ofText_append_arrow sound arrow after).symm
  rw [read_eq_ok tokens offset fault fault,
    readFrom_append_arrow (fun placed => absurd rfl placed) rfl fault fault]
  have tokensBefore : ts.map PlacedToken.token = RouteToken.ofText before := rfl
  have tokensAfter : us.map PlacedToken.token = RouteToken.ofText after := rfl
  simp only [read_eq_ok tokensBefore offset' fault fault,
    read_eq_ok tokensAfter offset'' fault fault]

/-- The route of a whole gesture text, for an element with the given box. -/
def GestureText.route (density : R) (element : Bounds R) (source : List Char) :
    Except LocatedFault (Route R) :=
  let text := GestureText.ofChars source
  Route.read density element text.offset text.body

theorem GestureText.route_of_plain {text : List Char} (plain : ':' ∉ text) :
    GestureText.route density element text = Route.read density element 0 text := by
  rw [route, ofChars_of_plain plain]

/-- Gesture texts are read part by part. Two texts that are accepted, the second with the box that
the first leaves, are accepted with an arrow between them, and the route is that of the first, the
arrow, and that of the second. And an accepted text with several stops has an arrow outside details;
at each of them it is what stands before the arrow, the arrow, and what stands after it. -/
theorem GestureText.route_compositional (density : R) (element : Bounds R) :
    (∀ (before after : List Char) (arrow : Arrow) (a b : Route R),
      ':' ∉ before → ':' ∉ after →
      route density element before = .ok a → route density a.element after = .ok b →
      ∃ r, route density element (before ++ (arrow.text ++ after)) = .ok r ∧
        r.IsJoined a arrow b) ∧
    ∀ (source : List Char) (r : Route R), route density element source = .ok r →
      (1 < r.stops.length → ∃ (before : List Char) (arrow : Arrow) (after : List Char),
        (ofChars source).body = before ++ (arrow.text ++ after) ∧ arrow.Follows before) ∧
      ∀ (before : List Char) (arrow : Arrow) (after : List Char),
        (ofChars source).body = before ++ (arrow.text ++ after) → arrow.Follows before →
        ∃ a b : Route R, (∀ offset, Route.read density element offset before = .ok a) ∧
          (∀ offset, Route.read density a.element offset after = .ok b) ∧ r.IsJoined a arrow b := by
  refine ⟨fun before after arrow a b plain plain' readA readB => ?_,
    fun source r read => ⟨fun several => ?_, fun before arrow after split follows => ?_⟩⟩
  · have plainArrow : ':' ∉ arrow.text := by cases arrow <;> decide
    have plainWhole : ':' ∉ before ++ (arrow.text ++ after) := by
      simp only [List.mem_append, not_or]
      exact ⟨plain, plainArrow, plain'⟩
    rw [route_of_plain plain] at readA
    rw [route_of_plain plain'] at readB
    rw [route_of_plain plainWhole]
    have sound := Route.allSound_of_read readA
    exact ⟨a.join arrow b, (Route.read_append_arrow sound arrow after 0 0 0).2
      ⟨a, b, readA, readB, rfl⟩, a.join_isJoined arrow b⟩
  · obtain ⟨arrow, member⟩ := Route.arrow_of_readFrom (Route.rest_ne_nil several) read
    rw [RouteToken.map_token_scan] at member
    obtain ⟨before, after, split, follows⟩ := RouteToken.exists_follows member
    exact ⟨before, arrow, after, split, follows⟩
  · rw [route, split] at read
    have sound := RouteToken.allSound_of_follows follows (Route.allSound_of_read read)
    obtain ⟨a, b, readA, readB, rfl⟩ :=
      (Route.read_append_arrow sound arrow after _ 0 0).1 read
    have anywhere {element' : Bounds R} {part : Route R} {text : List Char}
        (partRead : Route.read density element' 0 text = .ok part) (offset : Nat) :
        Route.read density element' offset text = .ok part :=
      (Route.read_eq_ok (RouteToken.map_token_scan 0 text) offset _ _).2 partRead
    exact ⟨a, b, anywhere readA, anywhere readB, a.join_isJoined arrow b⟩

end Texts

/-- The text `C<->C`, and its parts. -/
theorem GestureText.route_compositional_thereAndBack :
    ∃ a r : Route EReal, route 1 ⟨0, 0, 1, 1⟩ ['C'] = .ok a ∧
      route 1 ⟨0, 0, 1, 1⟩ ['C', '<', '-', '>', 'C'] = .ok r ∧ r.IsJoined a .twoWay a ∧
      (∃ (before : List Char) (arrow : Arrow) (after : List Char),
        ['C', '<', '-', '>', 'C'] = before ++ (arrow.text ++ after) ∧ arrow.Follows before) ∧
      ∃ a' b' : Route EReal, (∀ offset, Route.read 1 ⟨0, 0, 1, 1⟩ offset ['C'] = .ok a') ∧
        (∀ offset, Route.read 1 a'.element offset ['C'] = .ok b') ∧ r.IsJoined a' .twoWay b' := by
  have area : ¬ (1 : EReal) ≤ Scalar.zero := by simp
  have centre : route (1 : EReal) ⟨0, 0, 1, 1⟩ ['C'] =
      .ok ⟨⟨Region.ofBounds ⟨0, 0, 1, 1⟩, false, false, false, []⟩, [], ⟨0, 0, 1, 1⟩⟩ := by
    rw [route_of_plain (by decide)]
    exact Route.read_centre 1 ⟨0, 0, 1, 1⟩ area area
  obtain ⟨joins, splits⟩ := route_compositional (1 : EReal) ⟨0, 0, 1, 1⟩
  obtain ⟨r, read, joined⟩ :=
    joins ['C'] ['C'] .twoWay _ _ (by decide) (by decide) centre centre
  have several : 1 < r.stops.length := by
    rw [joined.stops]
    decide
  obtain ⟨someArrow, eachArrow⟩ := splits _ r read
  exact ⟨_, r, centre, read, joined, someArrow several,
    eachArrow ['C'] .twoWay ['C'] (by decide) ⟨by decide, fun same => by cases same⟩⟩

end TouchIntent
