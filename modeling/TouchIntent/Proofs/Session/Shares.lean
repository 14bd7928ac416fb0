import Mathlib
import TouchIntent.Proofs.Arbiter.Shares
import TouchIntent.Proofs.Session.Invariants
import TouchIntent.Proofs.Session.Timers

/-!
# The shares of the candidates

Each round of mediation tells the members of the pool their shares, which are to add up to one.
They do as long as nobody is let go in the same round: the shares are worked out before the wishes
to leave are granted, and whoever leaves takes its share with it. The main statement of this module
says that nothing else goes wrong, and that nobody outside the pool keeps a share but a winner.
-/

namespace TouchIntent

open Scalar Arbiter

/-! ## Runs of a session -/

/-- Settings, surface and elements are given by real numbers. -/
structure Scene.IsFinite (scene : Scene EReal) (settings : Settings EReal) : Prop where
  compiler : Compiler.IsFinite ⟨scene.surface, settings.displayDensity, settings.emission⟩
  threshold : isFinite settings.ruleOutEvidence = true
  elements : ∀ i ∈ scene.interactors, i.bounds.IsFinite

namespace Session

section Members

variable {R ν : Type} [Scalar R]

/-- The interactors in the pool. -/
def members (s : Session R ν) : List (Interactor R ν) :=
  s.interactors.filter fun a => a.id ∈ s.arbiter.candidates

/-- Those among whom the arbiter shares out the evidence if it mediates now. -/
def sharers (s : Session R ν) : List (Interactor R ν) := s.arbiter.sharers s.interactors

variable {s : Session R ν}

/-- The members after a round of mediation are the contestants that it leaves. -/
theorem members_mediate (s : Session R ν) :
    s.mediate.session.members = contestants (s.arbiter.mediate s.interactors s.queue) := by
  rw [members, contestants, mediate_interactors, mediate_arbiter]

omit [Scalar R] in
/-- The members are those that the pool lists. -/
theorem IsConsistent.perm_members (consistent : s.IsConsistent) :
    s.arbiter.candidates.Perm (s.members.map Interactor.id) :=
  perm_contestants (m := ⟨s.arbiter, s.interactors, s.queue, {}, []⟩) consistent.toAgrees

/-- An interactor that is built has neither evidence nor a share. -/
theorem nothing_of_build {i : SceneInteractor R} {compiler : Compiler R} {maxObservations : Nat}
    {a : Interactor R ν} (built : i.build compiler maxObservations = .ok a) :
    a.evidence = zero ∧ a.candidateProbability = zero := by
  refine of_build_eq_ok (fun a => a.evidence = zero ∧ a.candidateProbability = zero)
    ?_ ?_ ?_ ?_ built
  · intro behaviors core _ made
    unfold Interactor.build at made
    split at made
    · cases made
    · obtain rfl := Except.ok.inj made
      exact ⟨rfl, rfl⟩
  · intro core prior next nothing weighted
    obtain ⟨-, rfl⟩ := exists_of_withPrior weighted
    exact nothing
  · intro core statement next label nothing ruled
    obtain ⟨book, -, rfl⟩ := exists_of_addRule ruled
    exact nothing
  · intro core label next nothing claims
    obtain rfl := eq_of_claimOn claims
    exact nothing

theorem isSettledUp_ofScene {settings : Settings R} {scene : Scene R}
    (built : ofScene settings scene = .ok s) : ∀ a ∈ s.interactors, a.IsSettledUp := by
  intro a member
  obtain ⟨i, -, core, id, made, rfl⟩ := exists_source (ofScene_interactors built).2 a member
  exact fun _ => (nothing_of_build made).2

/-- Whoever is neither in the pool nor a winner has no share. -/
theorem candidateProbability_of_outside {settings : Settings R} {scene : Scene R}
    (built : ofScene settings scene = .ok s) (ops : List (SessionOp R)) {a : Interactor R ν}
    (member : a ∈ (s.performAll ops).interactors)
    (outside : a.id ∉ (s.performAll ops).arbiter.candidates) (lost : a.isDetermined = false) :
    a.candidateProbability = zero := by
  have consistent := isConsistent_ofScene built
  have settled : ∀ a ∈ (s.performAll ops).interactors, a.IsSettledUp :=
    Interactor.isInvariant_settledUp.performAll consistent (fun _ _ _ _ _ _ => trivial)
      (isSettledUp_ofScene built)
  refine settled a member ?_
  have after := isConsistent_performAll consistent ops
  cases status : a.standing.status with
  | idle => rfl
  | candidate => exact absurd (after.listed a member status) outside
  | selfExcluded => exact absurd status (after.loyal a member)
  | determined =>
    rw [a.isDetermined_iff.2 status] at lost
    cases lost

end Members

section Exact

variable {ν : Type} {s found : Session EReal ν} {settings : Settings EReal} {scene : Scene EReal}

theorem isMeasured_ofScene (finite : scene.IsFinite settings)
    (built : ofScene settings scene = .ok s) : ∀ a ∈ s.interactors, a.IsMeasured := by
  intro a member
  obtain ⟨i, listed, core, id, made, rfl⟩ := exists_source (ofScene_interactors built).2 a member
  have sound := Interactor.isSound_of_build finite.compiler (finite.elements i listed) made
  have nothing : (zero : EReal) ≠ ⊤ := by simp
  exact { sound with limited := (nothing_of_build made).1 ▸ nothing }

/-- With real numbers there is something to share, and everyone who shares has a share. -/
theorem isDivisible_sharers (finite : scene.IsFinite settings)
    (built : ofScene settings scene = .ok s) {ops : List (SessionOp EReal)} {op : SessionOp EReal}
    (brings : ∀ op' ∈ ops ++ [op], op'.Brings Sample.IsFinite)
    (mediates : (s.performAll ops).mediating? op = some found) (some : found.sharers ≠ []) :
    IsDivisible (found.sharers.map evidenceOf) ∧ ∀ a ∈ found.sharers, evidenceOf a ≠ ⊥ := by
  obtain ⟨earlier, last⟩ := List.forall_mem_append.1 brings
  have consistent := isConsistent_ofScene built
  have running := isConsistent_performAll consistent ops
  have measured := Interactor.isInvariant_measured.mediating running
    (last op (List.mem_singleton_self op)) mediates
    (Interactor.isInvariant_measured.performAll consistent earlier
      (isMeasured_ofScene finite built))
  have threshold : found.arbiter.threshold = settings.ruleOutEvidence := by
    rw [(waits_mediating running mediates).2, (settings_performAll consistent ops).1,
      (ofScene_interactors built).1]
    rfl
  have above : ∀ a ∈ found.sharers, evidenceOf a ≠ ⊥ := by
    intro a sharer
    have enough := (mem_sharers.1 sharer).2.1
    rw [threshold] at enough
    exact ((bot_lt_iff_ne_bot.2 (exact_isFinite.1 finite.threshold).2).trans_le enough).ne'
  obtain ⟨a, sharer⟩ := List.exists_mem_of_ne_nil _ some
  refine ⟨⟨?_, _, List.mem_map_of_mem sharer, above a sharer⟩, above⟩
  rw [List.forall_mem_map]
  exact fun b member => (measured b (mem_sharers.1 member).1).evidenceOf_ne_top

end Exact

end Session

/-! ## A share that is taken away -/

/-- Where nobody claims, a round of mediation does no more than to settle the pool. -/
theorem Arbiter.mediate_of_mute {R ν : Type} [Scalar R] {a : Arbiter R} {cs : List (Interactor R ν)}
    (agrees : Agrees a.candidates cs) (mute : ∀ c ∈ cs, c.IsMute) (queue : TaskQueue) :
    a.mediate cs queue = (a.settling cs queue).1 := by
  have still := Interactor.isInvariant_mute.settling agrees queue mute
  have silent : claimers (a.settling cs queue).1 = [] := by
    refine List.eq_nil_iff_forall_not_mem.2 fun id claims => ?_
    obtain ⟨-, c, member, rfl⟩ := claimers_spec claims
    have claiming := ((mem_claimers (agrees.settling queue).ids member).1 claims).2
    rw [(still c member).silent] at claiming
    cases claiming
  rw [mediate_eq, silent]

section Halves

variable {ν : Type} {s : Session EReal ν} {c d : Interactor EReal ν} {l : ℝ}

/-- After a round in which nobody claims, those are in the pool that are entitled to a share and do
not ask to leave. -/
theorem Arbiter.forall₂_mute {a : Arbiter EReal} {cs : List (Interactor EReal ν)}
    (agrees : Agrees a.candidates cs) (mute : ∀ c ∈ cs, c.IsMute) (queue : TaskQueue) :
    List.Forall₂ (fun c f => Keeps a cs (a.mediate cs queue).arbiter.candidates c f ∧ f.IsMute ∧
        (f.id ∈ (a.mediate cs queue).arbiter.candidates ↔
          a.Entitles c ∧ c.standing.status ≠ .selfExcluded))
      cs (a.mediate cs queue).contenders := by
  have still := Interactor.isInvariant_mute.mediate agrees queue mute
  have keeps := forall₂_keeps queue agrees
  rw [← mediate_of_mute agrees mute] at keeps
  refine (mem_of_forall₂ keeps).imp fun c f ⟨kept, _, member⟩ => ⟨kept, still f member, ?_⟩
  rw [kept.inPool, (still f member).silent]
  simp

/-- A member of the pool that never claims, with its evidence. -/
structure Interactor.IsQuiet (c : Interactor EReal ν) (pool : List InteractorId)
    (id : InteractorId) (evidence : EReal) : Prop extends c.IsMute where
  id_eq : c.id = id
  inPool : c.id ∈ pool
  evidence_eq : evidenceOf c = evidence

/-- Two idle elements with the same evidence join the pool if they never claim. -/
theorem mediate_joins (consistent : s.IsConsistent) (threshold : s.arbiter.threshold ≤ l)
    (interactors : s.interactors = [c, d]) (mute : ∀ a ∈ [c, d], a.IsMute)
    (idle : ∀ a ∈ [c, d], a.standing.status = .idle)
    (evidence : ∀ a ∈ [c, d], evidenceOf a = l) (first : c.id = 0) (second : d.id = 1) :
    ∃ c' d', s.mediate.session.interactors = [c', d'] ∧
      c'.IsQuiet s.mediate.session.arbiter.candidates 0 l ∧
      d'.IsQuiet s.mediate.session.arbiter.candidates 1 l := by
  have joins : ∀ a ∈ [c, d], s.arbiter.Entitles a ∧ a.standing.status ≠ .selfExcluded :=
    fun a member => ⟨⟨threshold.trans_eq (evidence a member).symm, .inr (idle a member)⟩, by
      rw [idle a member]
      exact Status.noConfusion⟩
  have round := forall₂_mute consistent.toAgrees (interactors ▸ mute) s.queue
  rw [Session.mediate_interactors, Session.mediate_arbiter]
  generalize s.arbiter.mediate s.interactors s.queue = m at round ⊢
  rw [interactors] at round
  obtain ⟨c', rest, ⟨ckeeps, cmute, cin⟩, others, contenders⟩ :=
    List.forall₂_cons_left_iff.1 round
  obtain ⟨d', rest', ⟨dkeeps, dmute, din⟩, none, rfl⟩ := List.forall₂_cons_left_iff.1 others
  obtain rfl := List.forall₂_nil_left_iff.1 none
  have cin' := cin.2 (joins c (by simp))
  have din' := din.2 (joins d (by simp))
  exact ⟨c', d', contenders,
    ⟨cmute, ckeeps.id_eq.trans first, cin', (ckeeps.evidence cin').trans (evidence c (by simp))⟩,
    ⟨dmute, dkeeps.id_eq.trans second, din', (dkeeps.evidence din').trans (evidence d (by simp))⟩⟩

/-- One of two members with the same evidence leaves, and the other one is left with its half. -/
theorem mediate_halves (agrees : Agrees s.arbiter.candidates s.interactors)
    (consistent : s.mediate.session.IsConsistent) (threshold : s.arbiter.threshold ≤ l)
    (interactors : s.interactors = [c, d]) (left : c.IsQuiet s.arbiter.candidates 0 l)
    (right : d.IsQuiet s.arbiter.candidates 1 l) (leaves : c.standing.status = .selfExcluded)
    (stays : d.standing.status ≠ .selfExcluded) :
    s.mediate.session.arbiter.candidates = [1] ∧
      s.mediate.session.members.map Interactor.candidateProbability = [((1 / 2 : ℝ) : EReal)] := by
  have mute : ∀ a ∈ s.interactors, a.IsMute := by
    rw [interactors]
    simp [left.toIsMute, right.toIsMute]
  have entitled : s.arbiter.Entitles c ∧ s.arbiter.Entitles d :=
    ⟨⟨threshold.trans_eq left.evidence_eq.symm, .inl left.inPool⟩,
      threshold.trans_eq right.evidence_eq.symm, .inl right.inPool⟩
  have scores : (s.arbiter.sharers s.interactors).map evidenceOf = [(l : EReal), (l : EReal)] := by
    rw [interactors, sharers, List.filter_cons_of_pos (by simpa using entitled.1),
      List.filter_cons_of_pos (by simpa using entitled.2)]
    simp [left.evidence_eq, right.evidence_eq]
  have listed := consistent.perm_members
  have round := forall₂_mute agrees mute s.queue
  rw [← Session.mediate_interactors, ← Session.mediate_arbiter] at round
  generalize s.mediate.session = after at listed round ⊢
  nth_rewrite 2 [interactors] at round
  obtain ⟨c', rest, ⟨ckeeps, -, cin⟩, others, contenders⟩ := List.forall₂_cons_left_iff.1 round
  obtain ⟨d', rest', ⟨dkeeps, -, din⟩, none, rfl⟩ := List.forall₂_cons_left_iff.1 others
  obtain rfl := List.forall₂_nil_left_iff.1 none
  have out : c'.id ∉ after.arbiter.candidates := fun inPool => (cin.1 inPool).2 leaves
  have inside := din.2 ⟨entitled.2, stays⟩
  have members : after.members = [d'] := by simp [Session.members, contenders, out, inside]
  rw [members] at listed ⊢
  refine ⟨?_, ?_⟩
  · rw [List.map_singleton, dkeeps.id_eq, right.id_eq] at listed
    exact List.perm_singleton.1 listed
  · rw [List.map_singleton, dkeeps.share inside, scores, right.evidence_eq, softmax_pair]

namespace Session

/-- When its timer has run down, a member of the pool asks to leave it. -/
theorem timeOut_quiet {pool : List InteractorId} {id : InteractorId} {e : EReal}
    (quiet : c.IsQuiet pool id e) (busy : c.standing.status ≠ .idle) :
    c.timeOut.1.IsQuiet pool id e ∧ c.timeOut.1.standing.status = .selfExcluded := by
  have stands := c.timeOut_standing
  rw [if_neg busy] at stands
  refine ⟨⟨Interactor.isInvariant_mute.timeOut c quiet.toIsMute, c.timeOut_id.trans quiet.id_eq,
    c.timeOut_id ▸ quiet.inPool, ?_⟩, by rw [stands]⟩
  rw [Interactor.timeOut, Interactor.selfExclude, if_neg busy]
  exact quiet.evidence_eq

/-- The timer of one of two members of the pool is started, and runs down: the other one is left
with its half. -/
theorem performAll_halves (consistent : s.IsConsistent) (threshold : s.arbiter.threshold ≤ l)
    (interactors : s.interactors = [c, d]) (left : c.IsQuiet s.arbiter.candidates 0 l)
    (right : d.IsQuiet s.arbiter.candidates 1 l) (timed : s.IsTimed)
    (empty : s.queue.tasks = []) (clock : s.now = 0) :
    (s.performAll [.selfExcludeAfter 0 100, .advance 100]).arbiter.candidates = [1] ∧
      (s.performAll [.selfExcludeAfter 0 100, .advance 100]).members.map
        Interactor.candidateProbability = [((1 / 2 : ℝ) : EReal)] := by
  obtain ⟨u, started⟩ : ∃ u, u = s.perform (.selfExcludeAfter 0 100) := ⟨_, rfl⟩
  have known : s.interactors[0]? = some c := by rw [interactors]; rfl
  have idle : c.timer = none := by
    cases running : c.timer with
    | none => rfl
    | some token =>
      obtain ⟨due, waiting, -⟩ := (timed.holds_iff 0 token).1 ⟨c, known, running⟩
      rw [empty] at waiting
      cases waiting
  have startsTimer : u = { s with
      interactors := [{ c with timer := some s.queue.issued }, d]
      queue := { s.queue with
        tasks := [⟨100, 0, s.queue.issued⟩]
        issued := s.queue.issued + 1 } } := by
    have known : s.interactor? 0 = some c := known
    have later : Millis.later 0 100 = 100 := rfl
    rw [started, perform, selfExcludeAfter, known, Option.map_some, Option.getD_some,
      Interactor.selfExcludeAfter, Interactor.cancelTimer, idle, left.id_eq, interactors, clock]
    simp [TaskQueue.issue, TaskQueue.schedule, empty, later]
  have due : u.due 100 = [0] := by
    have fresh : s.queue.issued ∉ s.queue.cancelled := fun cancelled =>
      Nat.lt_irrefl _ (timed.cancelled _ (List.contains_iff_mem.2 cancelled))
    rw [startsTimer, Session.due, clock]
    simp [TaskQueue.runDue, TaskQueue.runTasks, fresh]
  have mediates : u.mediating? (.advance 100) = some (u.timeOut 100) := by
    rw [mediating?, due]
    rfl
  have found : (u.timeOut 100).interactors =
      [(Interactor.timeOut { c with timer := some s.queue.issued }).1, d] := by
    rw [timeOut, due, startsTimer]
    rfl
  have running : u.IsConsistent := started ▸ isConsistent_perform consistent _
  have pool : (u.timeOut 100).arbiter = s.arbiter := by
    rw [(waits_mediating running mediates).2, startsTimer]
  have result : s.performAll [.selfExcludeAfter 0 100, .advance 100] =
      (u.timeOut 100).mediate.session := by
    rw [← step_of_mediating mediates, step_session, started]
    rfl
  have busy : c.standing.status ≠ .idle := fun idle =>
    consistent.not_mem_of_idle (by simp [interactors]) idle left.inPool
  have timer : Interactor.IsQuiet { c with timer := some s.queue.issued }
      s.arbiter.candidates 0 l :=
    ⟨⟨left.ruleless, left.silent⟩, left.id_eq, left.inPool, left.evidence_eq⟩
  obtain ⟨leaving, leaves⟩ := timeOut_quiet timer busy
  have settled := isConsistent_performAll consistent [.selfExcludeAfter 0 100, .advance 100]
  rw [result] at settled ⊢
  exact mediate_halves (agrees_mediating running mediates) settled (pool ▸ threshold) found
    (pool ▸ leaving) (pool ▸ right) leaves (consistent.loyal d (by simp [interactors]))

end Session

end Halves

namespace Twins

variable {ν : Type}

/-- A twin without rules. -/
noncomputable def mute (id : String) : SceneInteractor EReal :=
  { twin id with rules := [], claimOn := none }

/-- Two elements in the same place, neither of which ever claims the touches. -/
noncomputable def mutes : Scene EReal := ⟨scene.surface, [mute "left", mute "right"]⟩

theorem isFinite_scene : scene.IsFinite .default where
  compiler := by
    have unit : isFinite (one : EReal) = true := by
      rw [exact_one]
      exact exact_isFinite_coe 1
    exact ⟨exact_isFinite_coe 1, exact_isFinite_coe 1, unit⟩
  threshold := by
    show isFinite (-ofNat 10 : EReal) = true
    rw [exact_ofNat, ← EReal.coe_neg]
    exact exact_isFinite_coe _
  elements i member := by
    have real (n : ℝ) : isFinite (n : EReal) = true := exact_isFinite_coe n
    rcases List.mem_pair.1 member with rfl | rfl <;> exact ⟨real _, real _, real _, real _⟩

/-- An interactor of one behaviour that has seen nothing comes to the evidence of the first
sample. -/
theorem evidenceOf_observeTouch {a : Interactor EReal ν} {r : Recognizer EReal}
    {g : Gaussian EReal} {x : Sample EReal} {l : ℝ} (visible : a.isHidden = false)
    (prior : a.prior = [((1 : ℝ) : EReal)]) (behaviors : a.behaviors = [r]) (saw : r.Saw g [])
    (room : 0 < r.window.capacity) (pointer : x.pointer = 0)
    (likely : (Model.single g).logLikelihood ([] ++ [x]) = l) :
    evidenceOf (a.observeTouch x) = l := by
  obtain ⟨saw', -, known, -, -⟩ := saw.observeTouch room pointer likely
  obtain ⟨c, same, weights, looked, -⟩ := a.observeTouch_eq visible x
  rw [behaviors, List.map_singleton] at looked
  obtain ⟨evidence, posterior, isMostLikely, concluded⟩ :=
    Interactor.updatePosterior_single looked (weights.trans prior) known
  have once : c.updatePosterior.observationCount = 1 := by
    simp [Interactor.observationCount, concluded, Recognizer.observationCount,
      Window.observationCount, saw'.lanes]
  refine evidenceOf_eq ?_
  rw [same, Interactor.meanEvidence?, once, if_neg Nat.one_ne_zero, evidence, exact_ofNat,
    ← EReal.coe_div]
  norm_num

/-- An interactor that has taken no part yet, never claims, and has the evidence of the tap once it
sees it. -/
structure IsReady (a : Interactor EReal ν) : Prop extends a.IsMute, a.IsNew where
  evidence : evidenceOf (a.observeTouch tap) = ((-Real.log (2 * Real.pi) : ℝ) : EReal)

/-- A mute twin is built, and is ready under whatever id. -/
theorem build_mute (name : String) : ∃ a : Interactor EReal ν,
    (mute name).build ⟨⟨((1 : ℝ) : EReal), ((1 : ℝ) : EReal)⟩, Scalar.one, .gaussian⟩
      defaultMaxObservations = .ok a ∧ ∀ id, IsReady { a with id } := by
  obtain ⟨r, recognizer⟩ : ∃ r : Recognizer EReal, r = .ofBehavior {
      label := "C"
      model := .single standard
      pattern := ⟨[⟨true, true, []⟩], [[true]], []⟩
      origin := none
      pointers := [0, 1] } defaultMaxObservations := ⟨_, rfl⟩
  have saw : { r with logPosterior := unobservedPosterior }.Saw standard [] := by
    rw [recognizer]
    exact ⟨rfl, rfl, rfl, ⟨_, _, rfl, rfl, rfl⟩, rfl⟩
  have room : 0 < { r with logPosterior := unobservedPosterior }.window.capacity := by
    rw [recognizer]
    decide
  obtain ⟨core, built, visible, prior, recognizers, -, ruleless, idle⟩ :=
    @Interactor.build_single ν r
  have silent : core.isClaiming = false := by
    rw [Interactor.isClaiming, idle]
    rfl
  refine ⟨{ core with name := (mute name).id }, ?_,
    fun id => ⟨⟨ruleless, silent⟩, ⟨idle, visible⟩, ?_⟩⟩
  · have compiled := compile_twin name
    simp only [SceneInteractor.build, mute, twin, List.mapM_cons, List.mapM_nil,
      List.foldlM_nil] at compiled ⊢
    simp only [compiled]
    rw [← recognizer]
    simp only [bind, Except.bind, pure, Except.pure, built]
  · exact evidenceOf_observeTouch visible prior recognizers saw room rfl
      (logLikelihood_corner (x := tap) rfl)

/-- A tap leaves whoever is ready idle, and mute. -/
theorem IsReady.observeTouch {a : Interactor EReal ν} (ready : IsReady a) :
    (a.observeTouch tap).IsMute ∧ (a.observeTouch tap).standing.status = .idle := by
  refine ⟨Interactor.isInvariant_mute.look a tap trivial ready.visible ready.toIsMute, ?_⟩
  rw [a.observeTouch_standing, ready.visible, ready.standing]
  rfl

/-- The mute twins are built, and are ready. -/
theorem ofScene_mutes : ∃ (s : Session EReal ν) (c d : Interactor EReal ν),
    Session.ofScene .default mutes = .ok s ∧
      s = { (Session.empty .default : Session EReal ν) with interactors := [c, d] } ∧
      (IsReady c ∧ c.id = 0) ∧ IsReady d ∧ d.id = 1 := by
  obtain ⟨c, cbuilt, cready⟩ := @build_mute ν "left"
  obtain ⟨d, dbuilt, dready⟩ := @build_mute ν "right"
  refine ⟨((Session.empty .default).add c).add d, { c with id := 0 }, { d with id := 1 }, ?_, rfl,
    ⟨cready 0, rfl⟩, dready 1, rfl⟩
  simp only [Session.ofScene, mutes, scene, Settings.default, List.foldlM_cons, List.foldlM_nil,
    cbuilt, dbuilt]
  rfl

/-- A tap brings two elements that are ready into the pool, each with the evidence of the tap. -/
theorem handle_tap {s : Session EReal ν} {c d : Interactor EReal ν}
    (bare : s = { (Session.empty .default : Session EReal ν) with interactors := [c, d] })
    (consistent : s.IsConsistent) (left : IsReady c) (first : c.id = 0) (right : IsReady d)
    (second : d.id = 1) :
    let after := s.perform (.handle [tap])
    after.arbiter.threshold = defaultRuleOutEvidence ∧ after.queue.tasks = [] ∧ after.now = 0 ∧
      ∃ c' d', after.interactors = [c', d'] ∧
        c'.IsQuiet after.arbiter.candidates 0 ((-Real.log (2 * Real.pi) : ℝ) : EReal) ∧
        d'.IsQuiet after.arbiter.candidates 1 ((-Real.log (2 * Real.pi) : ℝ) : EReal) := by
  have kept : tap.kind ≠ .move := by decide
  have shown : (s.takeIn [tap]).interactors = [c.observeTouch tap, d.observeTouch tap] := by
    rw [s.takeIn_singleton kept, bare]
    rfl
  have idle : ∀ a ∈ [c.observeTouch tap, d.observeTouch tap], a.standing.status = .idle := by
    simp [left.observeTouch.2, right.observeTouch.2]
  have handled : s.perform (.handle [tap]) = (s.takeIn [tap]).mediate.session := by
    have interactors : s.interactors.map (fun a => a.observeTouch tap) =
        [c.observeTouch tap, d.observeTouch tap] := by
      rw [bare]
      rfl
    rw [Session.perform, s.takeIn_singleton kept, Session.handle_open kept]
    rw [interactors]
    intro a member
    rw [Interactor.isDetermined, idle a member]
    rfl
  have taken := Session.isConsistent_takeIn consistent [tap]
  have threshold : (s.takeIn [tap]).arbiter.threshold = defaultRuleOutEvidence := by
    rw [s.takeIn_singleton kept, bare]
    rfl
  intro after
  have result : after = (s.takeIn [tap]).mediate.session := handled
  rw [result]
  refine ⟨(Session.mediate_threshold taken.toAgrees).trans threshold, ?_, ?_, ?_⟩
  · rw [← result]
    refine (Session.releases_handle consistent.isNumbered [tap]).tasks.trans ?_
    rw [bare]
    rfl
  · show (s.takeIn [tap]).now = 0
    rw [s.takeIn_singleton kept, bare]
    rfl
  · exact mediate_joins taken (threshold ▸ threshold_lt.le) shown
      (by simp [left.observeTouch.1, right.observeTouch.1]) idle
      (by simp only [List.forall_mem_cons]; exact ⟨left.evidence, right.evidence, by simp⟩)
      ((c.observeTouch_id tap).trans first) ((d.observeTouch_id tap).trans second)

end Twins

/-- However a host uses a session, after every operation nobody has a share but the members of the
pool and winners. After every round of mediation that leaves anyone in the pool, the share of each
member is what the softmax gives it among all who were entitled to a share when the round began. The
shares of the members add up to one if and only if there was something to share and all of those
entitled who had asked to leave had none of it. If all numbers are real, this comes to nobody
entitled having asked to leave. -/
theorem shares_total_one_iff {ν : Type} {settings : Settings EReal} {scene : Scene EReal}
    {s : Session EReal ν} (built : Session.ofScene settings scene = .ok s)
    (ops : List (SessionOp EReal)) :
    (∀ a ∈ (s.performAll ops).interactors, a.id ∉ (s.performAll ops).arbiter.candidates →
      a.isDetermined = false → a.candidateProbability = 0) ∧
    ∀ op found, (s.performAll ops).mediating? op = some found →
      let after := s.performAll (ops ++ [op])
      let scores := found.sharers.map evidenceOf
      after.arbiter.candidates ≠ [] →
        after.arbiter.candidates.Perm (after.members.map Interactor.id) ∧
        (∀ c ∈ after.members, c.candidateProbability = softmax scores (evidenceOf c)) ∧
        ((after.members.map Interactor.candidateProbability).sum = 1 ↔
          IsDivisible scores ∧
            ∀ a ∈ found.sharers, a.standing.status = .selfExcluded → evidenceOf a = ⊥) ∧
        (scene.IsFinite settings → (∀ op' ∈ ops ++ [op], op'.Brings Sample.IsFinite) →
          ((after.members.map Interactor.candidateProbability).sum = 1 ↔
            ∀ a ∈ found.sharers, a.standing.status ≠ .selfExcluded)) := by
  refine ⟨fun a member outside lost =>
    (Session.candidateProbability_of_outside built ops member outside lost).trans exact_zero, ?_⟩
  intro op found mediates after scores occupied
  have running := Session.isConsistent_performAll (Session.isConsistent_ofScene built) ops
  have agrees := Session.agrees_mediating running mediates
  have result : after = found.mediate.session := by
    show s.performAll (ops ++ [op]) = _
    rw [Session.performAll_concat, ← Session.step_session, Session.step_of_mediating mediates]
  have listed : after.arbiter.candidates.Perm (after.members.map Interactor.id) :=
    (Session.isConsistent_performAll (Session.isConsistent_ofScene built) _).perm_members
  rw [result, Session.members_mediate, Session.mediate_arbiter] at listed ⊢
  rw [result, Session.mediate_arbiter] at occupied
  have total := sum_contestants_eq_one_iff agrees occupied
  refine ⟨listed, fun c member => ?_, total, fun finite brings => ?_⟩
  · obtain ⟨a, -, -, evidence, share⟩ := exists_source (forall₂_remaining agrees occupied) c member
    rw [share, evidence]
    rfl
  · have some : contestants (found.arbiter.mediate found.interactors found.queue) ≠ [] := by
      intro nobody
      rw [nobody, List.map_nil] at listed
      exact occupied listed.eq_nil
    obtain ⟨divisible, above⟩ := Session.isDivisible_sharers finite built brings mediates
      (sharers_ne_nil agrees occupied some)
    refine total.trans ((and_iff_right divisible).trans ?_)
    exact forall₂_congr fun a sharer => by simp [above a sharer]

theorem shares_total_one_iff_twins :
    ∃ s : Session EReal Unit, Session.ofScene .default Twins.scene = .ok s ∧
      Twins.scene.IsFinite .default ∧ ∀ ops,
      (∀ a ∈ (s.performAll ops).interactors, a.id ∉ (s.performAll ops).arbiter.candidates →
        a.isDetermined = false → a.candidateProbability = 0) ∧
      ∀ op found, (s.performAll ops).mediating? op = some found →
        let after := s.performAll (ops ++ [op])
        let scores := found.sharers.map evidenceOf
        after.arbiter.candidates ≠ [] →
          after.arbiter.candidates.Perm (after.members.map Interactor.id) ∧
          (∀ c ∈ after.members, c.candidateProbability = softmax scores (evidenceOf c)) ∧
          ((after.members.map Interactor.candidateProbability).sum = 1 ↔
            IsDivisible scores ∧
              ∀ a ∈ found.sharers, a.standing.status = .selfExcluded → evidenceOf a = ⊥) ∧
          (Twins.scene.IsFinite .default →
            (∀ op' ∈ ops ++ [op], op'.Brings Sample.IsFinite) →
            ((after.members.map Interactor.candidateProbability).sum = 1 ↔
              ∀ a ∈ found.sharers, a.standing.status ≠ .selfExcluded)) := by
  obtain ⟨s, c, d, built, -⟩ := @Twins.ofScene_scene Unit
  exact ⟨s, built, Twins.isFinite_scene, fun ops => shares_total_one_iff built ops⟩

/-- Two elements in the same place are tapped, and share the touches. When the timer of one of them
has run down it leaves the pool, and the other one is left with one half. -/
theorem remaining_share_one_half : ∃ s : Session EReal Unit,
    Session.ofScene .default Twins.mutes = .ok s ∧
      let after := s.performAll [.handle [Twins.tap], .selfExcludeAfter 0 100, .advance 100]
      after.arbiter.candidates = [1] ∧
        after.members.map Interactor.candidateProbability = [((1 / 2 : ℝ) : EReal)] ∧
        (after.members.map Interactor.candidateProbability).sum ≠ 1 := by
  obtain ⟨s, c, d, built, bare, ⟨left, first⟩, right, second⟩ := @Twins.ofScene_mutes Unit
  have consistent := Session.isConsistent_ofScene built
  have timed := Session.isTimed_run built [.operate (.handle [Twins.tap])]
  obtain ⟨threshold, empty, clock, c', d', interactors, left', right'⟩ :=
    Twins.handle_tap bare consistent left first right second
  obtain ⟨alone, half⟩ := Session.performAll_halves
    (Session.isConsistent_perform consistent (.handle [Twins.tap]))
    (threshold ▸ Twins.threshold_lt.le) interactors left' right' timed empty clock
  have run : s.performAll [.handle [Twins.tap], .selfExcludeAfter 0 100, .advance 100] =
      (s.perform (.handle [Twins.tap])).performAll [.selfExcludeAfter 0 100, .advance 100] := by
    rw [Session.performAll, Session.performAll, List.foldl_cons]
  refine ⟨s, built, ?_⟩
  dsimp only
  rw [run]
  refine ⟨alone, half, ?_⟩
  rw [half, List.sum_singleton, ← EReal.coe_one, Ne, EReal.coe_eq_coe_iff]
  norm_num

end TouchIntent
