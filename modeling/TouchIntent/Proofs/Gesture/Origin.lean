import Mathlib
import TouchIntent.Proofs.Gesture.Compiled
import TouchIntent.Proofs.Gesture.Translation

/-!
# Where a gesture is

The stops of a gesture are placed relative to the box of its element. A gesture that may start
anywhere is centred on that box, and its text may have resized it on the way. The details that do so
are finite, or the text is refused. So for an element, a surface and a density that are given by
real numbers the centre is a real point, and so is the mean of each state.
-/

namespace TouchIntent

open Scalar

section Details

variable {R : Type} [Scalar R]

/-- A detail that is accepted has a finite value. -/
theorem Detail.isFinite_of_read {entry : List Char} {d : Detail R}
    (ok : Detail.read entry = .ok d) : isFinite d.value = true := by
  unfold Detail.read at ok
  simp only at ok
  split at ok
  · cases ok
  · split at ok
    · cases ok
    · split at ok
      · split at ok
        · next finite =>
          obtain rfl := Except.ok.inj ok
          exact finite
        · cases ok
      · cases ok

namespace RouteToken

/-- What a token says about sizes is finite. -/
def IsMeasured : RouteToken R → Prop
  | .details (.ok block) => ∀ d ∈ block, isFinite d.value = true
  | _ => True

theorem isMeasured_details (content : List Char) :
    (details (Detail.readBlock content) : RouteToken R).IsMeasured := by
  cases ok : (Detail.readBlock content : Except GestureFault (List (Detail R))) with
  | error fault => trivial
  | ok block => exact of_mapM_eq_ok (fun _ _ _ => Detail.isFinite_of_read) ok

theorem isMeasured_of_single? {c : Char} {t : RouteToken R} (found : single? c = some t) :
    t.IsMeasured := by
  unfold single? at found
  split at found
  case h_8 =>
    obtain ⟨heading, -, rfl⟩ := Option.map_eq_some_iff.1 found
    trivial
  all_goals
    obtain rfl := Option.some.inj found
    trivial

/-- The tokens of a text say nothing infinite about sizes. -/
theorem isMeasured_scan (offset : Nat) (text : List Char) :
    ∀ t ∈ (scan offset text : List (PlacedToken R)), t.token.IsMeasured := by
  induction offset, text using scan.induct (R := R) with
  | case1 =>
    rw [scan_nil]
    exact List.forall_mem_nil _
  | case2 offset rest ih =>
    rw [scan_oneWay]
    exact List.forall_mem_cons.2 ⟨trivial, ih⟩
  | case3 offset rest ih =>
    rw [scan_twoWay]
    exact List.forall_mem_cons.2 ⟨trivial, ih⟩
  | case4 offset rest unterminated =>
    rw [scan_unterminated unterminated]
    exact List.forall_mem_singleton.2 trivial
  | case5 offset rest content after found ih =>
    rw [scan_details found]
    exact List.forall_mem_cons.2 ⟨isMeasured_details content, ih⟩
  | case6 offset c rest oneWay twoWay bracket blank ih =>
    rw [scan_other oneWay twoWay bracket, if_pos blank]
    exact ih
  | case7 offset c rest oneWay twoWay bracket blank malformed =>
    rw [scan_malformed malformed oneWay twoWay]
    exact List.forall_mem_singleton.2 trivial
  | case8 offset c rest oneWay twoWay bracket blank other token found ih =>
    rw [scan_other oneWay twoWay bracket, if_neg blank, if_neg other, found]
    exact List.forall_mem_cons.2 ⟨isMeasured_of_single? found, ih⟩
  | case9 offset c rest oneWay twoWay bracket blank other found =>
    rw [scan_other oneWay twoWay bracket, if_neg blank, if_neg other, found]
    exact List.forall_mem_singleton.2 trivial

end RouteToken

/-- Only details are added to the details of a stop, and only they change the box of the element. -/
theorem Draft.sizes_of_add {density : R} {element element' : Bounds R} {d d' : Draft R}
    {t : PlacedToken R} (added : d.add density element t = .ok (d', element')) :
    d'.details = d.details ∧ element' = element ∨
      ∃ details, t.token = .details (.ok details) ∧ d'.details = d.details ++ details ∧
        element' = d.resizeElement density element details := by
  unfold add at added
  cases token : t.token with
  | heading heading | final | event kind | arrow arrow =>
    rw [token] at added
    cases added
    exact .inl ⟨rfl, rfl⟩
  | details block =>
    rw [token] at added
    simp only at added
    split at added
    · cases added
    · cases block with
      | error fault => cases added
      | ok details =>
        cases added
        exact .inr ⟨details, rfl, rfl, rfl⟩
  | times times =>
    rw [token] at added
    simp only at added
    split at added
    · cases added
    · cases added
      exact .inl ⟨rfl, rfl⟩
  | marker =>
    rw [token] at added
    simp only at added
    split at added <;> cases added <;> exact .inl ⟨rfl, rfl⟩
  | fault fault =>
    rw [token] at added
    cases added

/-- A stop is placed by its headings and details. -/
theorem Draft.region_of_finish {density : R} {element : Bounds R} {d : Draft R} {stop : Stop R}
    (done : d.finish density element = .ok stop) :
    stop.region = Region.place element density d.headings d.details := by
  unfold finish at done
  simp only at done
  split at done
  · cases done
  · split at done
    · cases done
    · obtain rfl := Except.ok.inj done
      rfl

end Details

section Exact

variable {density : EReal}

/-- Half of a real number is a real number. -/
theorem exact_isFinite_halve {x : EReal} (finite : isFinite x = true) :
    isFinite (x / ofNat 2) = true := by
  refine exact_isFinite_div finite ?_
  rw [exact_ofNat]
  exact exact_isFinite_coe _

/-- A box given by real numbers. -/
structure Bounds.IsFinite (b : Bounds EReal) : Prop where
  x : Scalar.isFinite b.x = true
  y : Scalar.isFinite b.y = true
  width : Scalar.isFinite b.width = true
  height : Scalar.isFinite b.height = true

namespace Bounds

variable {b : Bounds EReal}

theorem IsFinite.resize (finite : b.IsFinite) (scale : Scalar.isFinite density = true)
    {d : Detail EReal} (size : Scalar.isFinite d.value = true) : (b.resize density d).IsFinite := by
  have points := exact_isFinite_mul size scale
  unfold Bounds.resize
  split
  · exact { finite with width := points }
  · exact { finite with height := points }
  all_goals exact finite

theorem IsFinite.foldl_resize (finite : b.IsFinite) (scale : Scalar.isFinite density = true)
    {details : List (Detail EReal)} (sizes : ∀ d ∈ details, Scalar.isFinite d.value = true) :
    (details.foldl (Bounds.resize density) b).IsFinite := by
  induction details generalizing b with
  | nil => exact finite
  | cons d details ih =>
    obtain ⟨size, sizes⟩ := List.forall_mem_cons.1 sizes
    exact ih (finite.resize scale size) sizes

theorem IsFinite.resizeElement (finite : b.IsFinite) (scale : Scalar.isFinite density = true)
    {details : List (Detail EReal)} (sizes : ∀ d ∈ details, Scalar.isFinite d.value = true)
    (draft : Draft EReal) : (draft.resizeElement density b details).IsFinite := by
  unfold Draft.resizeElement
  split
  · exact finite.foldl_resize scale sizes
  · exact finite

theorem IsFinite.centre (finite : b.IsFinite) : b.centre.IsFinite :=
  ⟨exact_isFinite_add finite.x (exact_isFinite_halve finite.width),
    exact_isFinite_add finite.y (exact_isFinite_halve finite.height)⟩

end Bounds

/-- A region given by real numbers. -/
structure Region.IsFinite (r : Region EReal) : Prop where
  centre : r.centre.IsFinite
  width : Scalar.isFinite r.width = true
  height : Scalar.isFinite r.height = true

namespace Region

variable {r : Region EReal}

theorem IsFinite.move (finite : r.IsFinite) (heading : Heading) : (r.move heading).IsFinite := by
  obtain ⟨⟨x, y⟩, width, height⟩ := finite
  have halfWidth := exact_isFinite_halve width
  have halfHeight := exact_isFinite_halve height
  have zoom : Scalar.isFinite (zoomFactor : EReal) = true := by
    rw [zoomFactor, exact_ratio]
    exact exact_isFinite_coe _
  have wider := exact_isFinite_mul width zoom
  have higher := exact_isFinite_mul height zoom
  cases heading with
  | north => exact ⟨⟨x, exact_isFinite_sub y height⟩, width, height⟩
  | south => exact ⟨⟨x, exact_isFinite_add y height⟩, width, height⟩
  | east => exact ⟨⟨exact_isFinite_add x width, y⟩, width, height⟩
  | west => exact ⟨⟨exact_isFinite_sub x width, y⟩, width, height⟩
  | centre | origin => exact ⟨⟨x, y⟩, width, height⟩
  | top => exact ⟨⟨x, exact_isFinite_sub y halfHeight⟩, width, halfHeight⟩
  | bottom => exact ⟨⟨x, exact_isFinite_add y halfHeight⟩, width, halfHeight⟩
  | right => exact ⟨⟨exact_isFinite_add x halfWidth, y⟩, halfWidth, height⟩
  | left => exact ⟨⟨exact_isFinite_sub x halfWidth, y⟩, halfWidth, height⟩
  | enlarge => exact ⟨⟨x, y⟩, wider, higher⟩
  | widen => exact ⟨⟨x, y⟩, wider, height⟩
  | heighten => exact ⟨⟨x, y⟩, width, higher⟩
  | shrink => exact ⟨⟨x, y⟩, halfWidth, halfHeight⟩
  | narrow => exact ⟨⟨x, y⟩, halfWidth, height⟩
  | flatten => exact ⟨⟨x, y⟩, width, halfHeight⟩

theorem IsFinite.resize (finite : r.IsFinite) (scale : Scalar.isFinite density = true)
    {d : Detail EReal} (size : Scalar.isFinite d.value = true) : (r.resize density d).IsFinite := by
  have points := exact_isFinite_mul size scale
  have wider := exact_isFinite_mul finite.width size
  have higher := exact_isFinite_mul finite.height size
  unfold Region.resize
  split
  · exact ⟨finite.centre, wider, higher⟩
  · exact { finite with width := wider }
  · exact { finite with height := higher }
  · exact { finite with width := points }
  · exact { finite with height := points }

theorem isFinite_place {element : Bounds EReal} (finite : element.IsFinite)
    (scale : Scalar.isFinite density = true) (headings : List Heading)
    {details : List (Detail EReal)} (sizes : ∀ d ∈ details, Scalar.isFinite d.value = true) :
    (place element density headings details).IsFinite := by
  have moved : (headings.foldl move (ofBounds element)).IsFinite := by
    induction headings using List.reverseRecOn with
    | nil => exact ⟨finite.centre, finite.width, finite.height⟩
    | append_singleton headings heading ih =>
      rw [List.foldl_concat]
      exact ih.move heading
  unfold place
  induction details using List.reverseRecOn with
  | nil => exact moved
  | append_singleton details d ih =>
    obtain ⟨earlier, size⟩ := List.forall_mem_append.1 sizes
    rw [List.foldl_concat]
    exact (ih earlier).resize scale (size d (List.mem_singleton.2 rfl))

end Region

/-- A route all of whose stops, and the box of its element, are given by real numbers. -/
structure Route.IsFinite (r : Route EReal) : Prop where
  element : r.element.IsFinite
  stops : ∀ stop ∈ r.stops, stop.region.IsFinite

/-- Reading a text of finite details places all stops in a finite region. -/
theorem Route.isFinite_of_read (scale : Scalar.isFinite density = true)
    {missing atEnd : LocatedFault} {element : Bounds EReal} (finite : element.IsFinite)
    {d : Draft EReal} (sizes : ∀ x ∈ d.details, Scalar.isFinite x.value = true)
    {ts : List (PlacedToken EReal)} (measured : ∀ t ∈ ts, t.token.IsMeasured)
    {r : Route EReal} (read : readFrom density missing atEnd element d ts = .ok r) :
    r.IsFinite := by
  have finished {stop : Stop EReal} {element : Bounds EReal} {d : Draft EReal}
      (finite : element.IsFinite) (sizes : ∀ x ∈ d.details, Scalar.isFinite x.value = true)
      (done : d.finish density element = .ok stop) : stop.region.IsFinite := by
    rw [Draft.region_of_finish done]
    exact Region.isFinite_place finite scale _ sizes
  induction ts generalizing d element missing atEnd r with
  | nil =>
    obtain ⟨-, stop, done, rfl⟩ := readFrom_nil_eq_ok.1 read
    exact ⟨finite, List.forall_mem_singleton.2 (finished finite sizes done)⟩
  | cons t ts ih =>
    obtain ⟨here, measured⟩ := List.forall_mem_cons.1 measured
    by_cases arrow : ∃ arrow, t.token = .arrow arrow
    · obtain ⟨arrow, isArrow⟩ := arrow
      obtain ⟨stop, others, done, later, rfl⟩ := (readFrom_arrow_eq_ok isArrow).1 read
      obtain ⟨box, stops⟩ := ih finite (List.forall_mem_nil _) measured later
      exact ⟨box, List.forall_mem_cons.2 ⟨finished finite sizes done, stops⟩⟩
    · obtain ⟨d', element', added, later⟩ := (readFrom_add_eq_ok (not_exists.1 arrow)).1 read
      rcases Draft.sizes_of_add added with ⟨same, rfl⟩ | ⟨details, token, more, rfl⟩
      · exact ih finite (same ▸ sizes) measured later
      · rw [token] at here
        refine ih (finite.resizeElement scale here d) ?_ measured later
        rw [more]
        exact List.forall_mem_append.2 ⟨sizes, here⟩

/-- Surface and density are given by real numbers. -/
structure Compiler.IsFinite (c : Compiler EReal) : Prop where
  width : Scalar.isFinite c.surface.width = true
  height : Scalar.isFinite c.surface.height = true
  density : Scalar.isFinite c.density = true

namespace Compiler

variable {c : Compiler EReal} {element : Bounds EReal} {source : String} {b : Behavior EReal}

theorem IsFinite.normalize (finite : c.IsFinite) {p : Vec2 EReal} (real : p.IsFinite) :
    (c.surface.normalize p).IsFinite :=
  ⟨exact_isFinite_div real.x finite.width, exact_isFinite_div real.y finite.height⟩

/-- The centre of a gesture that may start anywhere is a real point. -/
theorem isFinite_origin (finite : c.IsFinite) (box : element.IsFinite)
    (ok : c.compile source element = .ok b) {o : Vec2 EReal} (centred : b.origin = some o) :
    o.IsFinite := by
  obtain ⟨route, m, read, -, rfl⟩ := exists_route_of_compile ok
  have placed : route.IsFinite := Route.isFinite_of_read finite.density box (List.forall_mem_nil _)
    (RouteToken.isMeasured_scan _ _) read
  split at centred
  · obtain rfl := Option.some.inj centred
    exact finite.normalize placed.element.centre
  · cases centred

/-- The mean of each state of a gesture is a real point. -/
theorem isFinite_mean (finite : c.IsFinite) (box : element.IsFinite)
    (ok : c.compile source element = .ok b) (i : Fin b.model.size) :
    (b.model.states.get i).mean.IsFinite := by
  obtain ⟨route, read, modelled, -⟩ := compile_eq_ok ok
  have placed : route.IsFinite := Route.isFinite_of_read finite.density box (List.forall_mem_nil _)
    (RouteToken.isMeasured_scan _ _) read
  obtain ⟨built, same, spec⟩ := builtFrom_of_model modelled
  have listed : b.model.states.get i ∈ built.states.toList := by
    revert i
    rw [same]
    intro i
    rw [Vector.mem_toList_iff]
    exact Vector.getElem_mem i.isLt
  rw [spec.toList_states] at listed
  obtain ⟨stop, member, found⟩ := List.mem_map.1 listed
  rw [← found]
  exact finite.normalize (placed.stops stop member).centre

end Compiler

end Exact

/-- The text `O`, for an element of the size of the surface, may start anywhere. -/
theorem Compiler.exists_compile_anywhere (mode : Emission) :
    ∃ b, (⟨⟨1, 1⟩, 1, mode⟩ : Compiler EReal).compile "O" ⟨0, 0, 1, 1⟩ = .ok b ∧
      b.origin.isSome = true ∧ b.pointers = defaultPointers := by
  have area : ¬ (1 : EReal) ≤ zero := by simp
  have positive : (zero : EReal) < 1 := by simp
  have visible : ¬ Text.isBlank 'O' = true := by decide
  let stop : Stop EReal := ⟨Region.ofBounds ⟨0, 0, 1, 1⟩, true, false, false, []⟩
  have text : "O".toList = ['O'] := by decide +kernel
  have read : GestureText.route (1 : EReal) ⟨0, 0, 1, 1⟩ "O".toList =
      .ok ⟨stop, [], ⟨0, 0, 1, 1⟩⟩ := by
    rw [text, GestureText.route_of_plain (by decide)]
    exact Route.read_heading rfl visible (fun _ => rfl) (1 : EReal) ⟨0, 0, 1, 1⟩ area area
  obtain ⟨b, ok⟩ := exists_compile (c := ⟨⟨1, 1⟩, 1, mode⟩) ⟨positive, positive⟩
    ⟨positive, positive⟩ read (List.forall_mem_singleton.2 hasDensity_unit)
  obtain ⟨route, m, read', -, rfl⟩ := exists_route_of_compile ok
  obtain rfl := Except.ok.inj (read.symm.trans read')
  exact ⟨_, ok, rfl, rfl⟩

end TouchIntent
