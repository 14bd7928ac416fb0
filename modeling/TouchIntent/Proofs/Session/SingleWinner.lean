import Mathlib
import TouchIntent.Proofs.Session.Tap

/-!
# At most one winner

A session is to have one winner at most. Samples reach the arbiter only as long as there is none,
but the host may have it mediate at any time, and so may a timer; a round of mediation that awards a
sole claim then makes a second winner. The main statement of this module says that nothing else can.
-/

namespace TouchIntent

open Arbiter

variable {R ν : Type} [Scalar R]

namespace Session

/-- An operation has the arbiter award a sole claim while someone has won already. -/
def Overrules (s : Session R ν) (op : SessionOp R) : Prop :=
  ∃ s', s.mediating? op = some s' ∧ s'.arbiter.Overrules s'.interactors s'.queue

variable {s : Session R ν}

theorem orderly_perform (orderly : Orderly s.arbiter.candidates s.interactors)
    (op : SessionOp R) :
    Orderly (s.perform op).arbiter.candidates (s.perform op).interactors := by
  rcases s.perform_cases op with ⟨s', -, result, tame⟩ | ⟨-, tame⟩
  · rw [result, mediate_arbiter, mediate_interactors]
    exact (tame.orderly orderly).mediate s'.queue
  · exact tame.orderly orderly

/-- An operation keeps a single winner single exactly if it does not overrule. -/
theorem singleWinner_perform_iff (orderly : Orderly s.arbiter.candidates s.interactors)
    (single : SingleWinner s.interactors) (op : SessionOp R) :
    SingleWinner (s.perform op).interactors ↔ ¬ s.Overrules op := by
  rcases s.perform_cases op with ⟨s', mediates, result, tame⟩ | ⟨quiet, tame⟩
  · have round :=
      singleWinner_mediate_iff (tame.orderly orderly) (single.tame tame.interactors) s'.queue
    have overrules_iff : s.Overrules op ↔ s'.arbiter.Overrules s'.interactors s'.queue := by
      constructor
      · rintro ⟨s'', mediates', overrules⟩
        obtain rfl := Option.some.inj (mediates.symm.trans mediates')
        exact overrules
      · intro overrules
        exact ⟨s', mediates, overrules⟩
    rw [result, overrules_iff, mediate_interactors]
    exact round
  · refine ⟨fun _ overrules => ?_, fun _ => single.tame tame.interactors⟩
    obtain ⟨s', mediates, -⟩ := overrules
    rw [quiet] at mediates
    cases mediates

theorem performAll_concat (s : Session R ν) (done : List (SessionOp R)) (op : SessionOp R) :
    s.performAll (done ++ [op]) = (s.performAll done).perform op := by
  simp only [performAll, List.foldl_append, List.foldl_cons, List.foldl_nil]

theorem orderly_performAll (orderly : Orderly s.arbiter.candidates s.interactors)
    (ops : List (SessionOp R)) :
    Orderly (s.performAll ops).arbiter.candidates (s.performAll ops).interactors := by
  induction ops using List.reverseRecOn with
  | nil => exact orderly
  | append_singleton done op ih =>
    rw [performAll_concat]
    exact orderly_perform ih op

omit [Scalar R] in
/-- As long as no id is shared, to have a single winner is to count one at most. -/
theorem countP_le_one_iff {cs : List (Interactor R ν)} (ids : (cs.map Interactor.id).Nodup) :
    cs.countP Interactor.isDetermined ≤ 1 ↔ SingleWinner cs := by
  rw [List.countP_eq_length_filter]
  constructor
  · intro few c hc d hd cwon dwon
    have memc := List.mem_filter.2 ⟨hc, cwon⟩
    have memd := List.mem_filter.2 ⟨hd, dwon⟩
    match winners : cs.filter Interactor.isDetermined with
    | [] =>
      rw [winners] at memc
      cases memc
    | [w] =>
      rw [winners] at memc memd
      rw [List.mem_singleton.1 memc, List.mem_singleton.1 memd]
    | w :: w' :: rest =>
      rw [winners] at few
      simp at few
  · intro single
    have apart := ids.sublist (List.Sublist.map Interactor.id
      (List.filter_sublist (l := cs) (p := Interactor.isDetermined)))
    match winners : cs.filter Interactor.isDetermined with
    | [] | [w] => simp
    | w :: w' :: rest =>
      have first := List.mem_filter.1 (winners ▸ List.mem_cons_self : w ∈ cs.filter _)
      have second := List.mem_filter.1
        (winners ▸ List.mem_cons_of_mem _ List.mem_cons_self : w' ∈ cs.filter _)
      have same := single w first.1 w' second.1 first.2 second.2
      rw [winners] at apart
      simp [same] at apart

end Session

/-- However a host uses a session, there is at most one winner after every operation, if and only
if no operation of the run has the arbiter award a sole claim while someone has won already. -/
theorem at_most_one_determined_iff {settings : Settings R} {scene : Scene R} {s : Session R ν}
    (built : Session.ofScene settings scene = .ok s) (ops : List (SessionOp R)) :
    (∀ done, done <+: ops → (s.performAll done).interactors.countP Interactor.isDetermined ≤ 1) ↔
      ∀ done op, done ++ [op] <+: ops → ¬ (s.performAll done).Overrules op := by
  obtain ⟨pool, numbered, idle⟩ := Session.ofScene_spec built
  have orderly : Orderly s.arbiter.candidates s.interactors := by
    refine ⟨?_, fun a _ inPool => ?_⟩
    · rw [numbered]
      exact List.nodup_range
    · rw [pool] at inPool
      cases inPool
  have single : SingleWinner s.interactors := by
    intro a ha _ _ won
    rw [Interactor.isDetermined_iff, idle a ha] at won
    cases won
  have counts : ∀ done, (s.performAll done).interactors.countP Interactor.isDetermined ≤ 1 ↔
      SingleWinner (s.performAll done).interactors :=
    fun done => Session.countP_le_one_iff (Session.orderly_performAll orderly done).ids
  simp only [counts]
  constructor
  · intro always done op within
    have before := always done ((List.prefix_append done [op]).trans within)
    have after := always (done ++ [op]) within
    rw [Session.performAll_concat] at after
    exact (Session.singleWinner_perform_iff (Session.orderly_performAll orderly done) before op).1
      after
  · intro fair done
    induction done using List.reverseRecOn with
    | nil => exact fun _ => single
    | append_singleton done op ih =>
      intro within
      have before := ih ((List.prefix_append done [op]).trans within)
      rw [Session.performAll_concat]
      exact (Session.singleWinner_perform_iff (Session.orderly_performAll orderly done) before
        op).2 (fair done op within)

namespace Twins

/-- An element around the corner of the surface that claims the touches when it is tapped. -/
noncomputable def twin (id : String) : SceneInteractor EReal where
  id
  bounds := ⟨((-2 : ℝ) : EReal), ((-2 : ℝ) : EReal), ((4 : ℝ) : EReal), ((4 : ℝ) : EReal)⟩
  behaviors := ["C"]
  rules := ["C is complete"]
  claimOn := some "C_is_complete"
  prior := none

noncomputable def scene : Scene EReal :=
  ⟨⟨((1 : ℝ) : EReal), ((1 : ℝ) : EReal)⟩, [twin "left", twin "right"]⟩

/-- A release in the corner. -/
noncomputable def tap : Sample EReal :=
  ⟨.up, 0, 0, ⟨((0 : ℝ) : EReal), ((0 : ℝ) : EReal)⟩, 0, 0, 0, 0, ⟨0, 0⟩⟩

/-- The standard normal distribution. -/
noncomputable def standard : Gaussian EReal :=
  ⟨⟨((0 : ℝ) : EReal), ((0 : ℝ) : EReal)⟩,
    ⟨⟨((1 : ℝ) : EReal), ((0 : ℝ) : EReal)⟩, ⟨((0 : ℝ) : EReal), ((1 : ℝ) : EReal)⟩⟩⟩

/-- A square of side four around a point to the right of the corner. -/
noncomputable def around (x : ℝ) : Bounds EReal :=
  ⟨((x - 2 : ℝ) : EReal), ((-2 : ℝ) : EReal), ((4 : ℝ) : EReal), ((4 : ℝ) : EReal)⟩

/-- The standard normal distribution, moved to the right. -/
noncomputable def standardAt (x : ℝ) : Gaussian EReal :=
  { standard with mean := ⟨(x : EReal), ((0 : ℝ) : EReal)⟩ }

@[simp] theorem standardAt_zero : standardAt 0 = standard := rfl

theorem gaussian_around (x : ℝ) :
    (Region.ofBounds (around x)).gaussian scene.surface = standardAt x := by
  have middle (x : ℝ) : (((x - 2 : ℝ) : EReal) + ((4 : ℝ) : EReal) / Scalar.ofNat 2) /
      ((1 : ℝ) : EReal) = (x : EReal) := by
    rw [Scalar.exact_ofNat, ← EReal.coe_div, ← EReal.coe_add, ← EReal.coe_div]
    norm_num
  have edge := middle 0
  rw [zero_sub] at edge
  have deviation : Scalar.square (((4 : ℝ) : EReal) / ((1 : ℝ) : EReal) / Scalar.ofNat 4) =
      ((1 : ℝ) : EReal) := by
    rw [Scalar.exact_ofNat, Scalar.square, ← EReal.coe_div, ← EReal.coe_div, ← EReal.coe_mul]
    norm_num
  have zero : (Scalar.zero : EReal) = ((0 : ℝ) : EReal) := by simp
  simp only [Region.gaussian, Region.ofBounds, Bounds.centre, Surface.normalize, Mat2.diagonal,
    around, scene, middle, edge, deviation, zero, standard, standardAt]

theorem logDensity_around (x : ℝ) : (standardAt x).logDensity tap.position =
    ((-Real.log (2 * Real.pi) - x ^ 2 / 2 : ℝ) : EReal) := by
  have density := Gaussian.exact_logDensity (a := 1) (b := 0) (c := 0) (d := 1) (by norm_num)
    x 0 0 0
  refine density.trans (congrArg _ ?_)
  norm_num
  ring

theorem logDensity_tap :
    standard.logDensity tap.position = ((-Real.log (2 * Real.pi) : ℝ) : EReal) := by
  simpa using logDensity_around 0

/-- The density not far from the middle of an element lies above the default threshold. -/
theorem threshold_lt_around {x : ℝ} (near : x ^ 2 ≤ 1) :
    (defaultRuleOutEvidence : EReal) < ((-Real.log (2 * Real.pi) - x ^ 2 / 2 : ℝ) : EReal) := by
  have bound : Real.log (2 * Real.pi) ≤ 2 * Real.pi - 1 :=
    Real.log_le_sub_one_of_pos (by positivity)
  have small : Real.pi ≤ 4 := Real.pi_le_four
  rw [defaultRuleOutEvidence, Scalar.exact_ofNat, ← EReal.coe_neg, EReal.coe_lt_coe_iff]
  norm_num
  linarith

theorem threshold_lt :
    (defaultRuleOutEvidence : EReal) < ((-Real.log (2 * Real.pi) : ℝ) : EReal) := by
  simpa using threshold_lt_around (x := 0) (by norm_num)

/-- What the gesture of an element in such a square compiles to, with a label or without one. -/
theorem compile_labelled_around {source : String} {label : Option String} {offset : Nat}
    (text : GestureText.ofChars source.toList = ⟨label, offset, ['C']⟩) (x : ℝ) :
    Compiler.compile ⟨⟨((1 : ℝ) : EReal), ((1 : ℝ) : EReal)⟩, Scalar.one, .gaussian⟩ source
      (around x) = .ok {
        label := label.getD "C"
        model := .single (standardAt x)
        pattern := ⟨[⟨true, true, []⟩], [[true]], []⟩
        origin := none
        pointers := [0, 1] } := by
  rw [← gaussian_around x]
  refine Compiler.compile_labelled_centre text rfl ?_ ?_ ?_
  · exact ⟨EReal.coe_pos.2 one_pos, EReal.coe_pos.2 one_pos⟩
  · exact ⟨EReal.coe_pos.2 four_pos, EReal.coe_pos.2 four_pos⟩
  · have dense : ((Region.ofBounds (around x)).gaussian scene.surface).hasDensity = true := by
      rw [gaussian_around]
      exact Gaussian.exact_hasDensity one_pos (by norm_num) _
    exact dense

theorem compile_around (x : ℝ) :
    Compiler.compile ⟨⟨((1 : ℝ) : EReal), ((1 : ℝ) : EReal)⟩, Scalar.one, .gaussian⟩ "C"
      (around x) = .ok {
        label := "C"
        model := .single (standardAt x)
        pattern := ⟨[⟨true, true, []⟩], [[true]], []⟩
        origin := none
        pointers := [0, 1] } := by
  have text : GestureText.ofChars "C".toList = ⟨none, 0, ['C']⟩ := by cbv
  exact compile_labelled_around text x

theorem bounds_twin (id : String) : (twin id).bounds = around 0 := by
  simp only [twin, around, zero_sub]

/-- What the gesture of a twin compiles to. -/
theorem compile_twin (id : String) :
    Compiler.compile ⟨⟨((1 : ℝ) : EReal), ((1 : ℝ) : EReal)⟩, Scalar.one, .gaussian⟩ "C"
      (twin id).bounds = .ok {
        label := "C"
        model := .single standard
        pattern := ⟨[⟨true, true, []⟩], [[true]], []⟩
        origin := none
        pointers := [0, 1] } := by
  rw [bounds_twin]
  exact compile_around 0

/-- A twin is built, and watches for a tap. -/
theorem build_twin {ν : Type} (id : String) : ∃ a : Interactor EReal ν,
    (twin id).build ⟨⟨((1 : ℝ) : EReal), ((1 : ℝ) : EReal)⟩, Scalar.one, .gaussian⟩
      defaultMaxObservations = .ok a ∧ a.Watches standard false [] ∧ a.standing = .idle :=
  SceneInteractor.build_tap rfl (compile_twin id) rfl rfl rfl

/-- The twins are built, and watch for a tap. -/
theorem ofScene_scene {ν : Type} : ∃ (s : Session EReal ν) (c d : Interactor EReal ν),
    Session.ofScene .default scene = .ok s ∧ s.arbiter = ⟨defaultRuleOutEvidence, []⟩ ∧
      s.interactors = [c, d] ∧ (c.Watches standard false [] ∧ c.standing = .idle ∧ c.id = 0) ∧
      (d.Watches standard false [] ∧ d.standing = .idle ∧ d.id = 1) := by
  obtain ⟨c, cbuilt, cwatches, cidle⟩ := @build_twin ν "left"
  obtain ⟨d, dbuilt, dwatches, didle⟩ := @build_twin ν "right"
  refine ⟨((Session.empty .default).add c).add d, { c with id := 0 }, { d with id := 1 }, ?_, rfl,
    rfl, ⟨cwatches.withId 0, cidle, rfl⟩, dwatches.withId 1, didle, rfl⟩
  simp only [Session.ofScene, scene, Settings.default, List.foldlM_cons, List.foldlM_nil,
    cbuilt, dbuilt]
  rfl

end Twins

theorem at_most_one_determined_iff_twins :
    ∃ s : Session EReal Unit, Session.ofScene .default Twins.scene = .ok s ∧
      ∀ ops, (∀ done, done <+: ops →
          (s.performAll done).interactors.countP Interactor.isDetermined ≤ 1) ↔
        ∀ done op, done ++ [op] <+: ops → ¬ (s.performAll done).Overrules op := by
  obtain ⟨s, c, d, built, -⟩ := @Twins.ofScene_scene Unit
  exact ⟨s, built, fun ops => at_most_one_determined_iff built ops⟩

/-- Two elements in the same place, and two taps. When the host then has the arbiter mediate, the
element that lost the first tap wins the second one beside the winner of the first. -/
theorem both_twins_determined :
    ∃ s : Session EReal Unit, Session.ofScene .default Twins.scene = .ok s ∧
      (s.performAll [.handle [Twins.tap], .handle [Twins.tap], .mediate]).interactors.countP
        Interactor.isDetermined = 2 := by
  obtain ⟨s, c, d, built, arbiter, interactors, ⟨cwatches, cidle, first⟩, dwatches, didle,
    second⟩ := @Twins.ofScene_scene Unit
  exact ⟨s, built, Session.two_taps_two_winners arbiter interactors cwatches cidle first dwatches
    didle second rfl rfl Twins.logDensity_tap Twins.threshold_lt⟩

end TouchIntent
