import Mathlib
import TouchIntent.Proofs.Arbiter.Peer
import TouchIntent.Proofs.Rule.Meaning
import TouchIntent.Proofs.Session.Accounting
import TouchIntent.Proofs.Session.Dormant

/-!
# Starting over

Setting all interactors back erases the past, as far as decisions go: a session that was used and
set back goes on like a new one of the same scene. It is not the same session. Rules still remember
their results, behaviours their rank, and the clock does not go back. But an interactor that is set
back is a peer of what it was when it was built, operations make peers of peers, and peers decide
alike. The exceptions are gestures that may start anywhere, which stay where the last touch has put
them, and timers that are still running.
-/

namespace TouchIntent

open Arbiter

variable {R ν : Type} [Scalar R]

/-! ## Interactors that are set back -/

omit [Scalar R] in
/-- A reset makes a rulebook that was used a peer of the unused one. -/
theorem Rulebook.peer_reset {book book' : Rulebook R ν} (before : book.OperandsBefore)
    (fresh : book.IsFresh) (graph : book.SameGraph book') : book.Peer book'.reset where
  before := before
  graph := graph.trans ⟨rfl, rfl, rfl, by simp [Rulebook.reset]⟩
  results := by
    have unasked : book.nodes.map RuleNode.lastResult = book.nodes.map fun _ => none :=
      List.map_congr_left fresh
    rw [unasked]
    simp [Rulebook.reset, Function.comp_def, graph.length_eq]

/-- An interactor as it is built, with gestures of fixed places. -/
structure Interactor.IsPristine (a : Interactor R ν) : Prop where
  standing : a.standing = .idle
  evidence : a.evidence = Scalar.zero
  sized : a.prior.length = a.behaviors.length
  behaviors : ∀ r ∈ a.behaviors, r.origin = none ∧ r.reset.unjudged = r.unjudged
  wellFormed : a.rulebook.WellFormed
  fresh : a.rulebook.IsFresh

theorem Interactor.reset_eq (a : Interactor R ν) :
    a.reset = { a.resetReasoning with standing := .idle } := by
  rw [← a.reset_standing]
  unfold Interactor.reset
  split <;> rfl

/-- Whatever has become of an interactor, a reset makes it a peer of what it was built as. -/
theorem Interactor.peer_reset {a b : Interactor R ν} (pristine : a.IsPristine)
    (same : a.SameMake b) : a.Peer b.reset := by
  rw [b.reset_eq]
  refine ⟨same.id_eq, same.prior, pristine.evidence.symm, pristine.standing.symm, same.claimRule,
    same.isHidden, ?_, Rulebook.peer_reset pristine.wellFormed.before pristine.fresh same.graph⟩
  simp only [resetReasoning, resetObservations, forgetPosterior, List.map_map,
    List.forall₂_map_right_iff]
  refine (mem_of_forall₂ (same.behaviors pristine.sized)).imp fun r r' related => ?_
  obtain ⟨becomes, member, -⟩ := related
  obtain ⟨placed, unseen⟩ := pristine.behaviors r member
  refine ⟨(becomes.reset placed).trans unseen, .inr ?_⟩
  have pathless : r.unjudged.view.path = r.reset.unjudged.view.path := by rw [unseen]
  exact pathless.trans r.reset_path

/-! ### Interactors of a scene -/

section Building

variable {a b : Interactor R ν}

omit [Scalar R] in
theorem Rulebook.isFresh_node {book : Rulebook R ν} (fresh : book.IsFresh) (label : String)
    (kind : NodeKind R) : (book.node label kind).1.IsFresh := by
  unfold Rulebook.node
  split
  · exact fresh
  · intro n member
    rcases List.mem_append.1 member with before | added
    · exact fresh n before
    · obtain rfl := List.mem_singleton.1 added
      rfl

/-- Adding a rule asks nothing. -/
theorem Rulebook.isFresh_addRule {book : Rulebook R ν} (fresh : book.IsFresh)
    {statement label : String} {added : Rulebook R ν}
    (ok : book.addRule statement = (added, .ok label)) : added.IsFresh := by
  obtain ⟨rule, -, rfl, -⟩ := addRule_eq_ok ok
  have interned : (book.intern rule.expr).1.IsFresh :=
    @intern_of_node R ν (fun book book' => book.IsFresh → book'.IsFresh) (fun _ fresh => fresh)
      (fun first second fresh => second (first fresh))
      (fun _ label kind fresh => isFresh_node fresh label kind) book rule.expr fresh
  rw [IsFresh, register_nodes]
  exact interned

/-- An interactor of a scene is as it is built. -/
theorem Interactor.isPristine_of_build {i : SceneInteractor R} {compiler : Compiler R}
    {maxObservations : Nat}
    (fixed : ∀ source ∈ i.behaviors, ∀ b, compiler.compile source i.bounds = .ok b →
      b.origin = none)
    (built : i.build compiler maxObservations = .ok a) : a.IsPristine := by
  refine Session.of_build_eq_ok Interactor.IsPristine ?_ ?_ ?_ ?_ built
  · intro behaviors core compiled made
    obtain ⟨-, idle, -, evidence, sized, same, rulebook⟩ := Session.build_eq_ok made
    refine ⟨idle, evidence, ?_, ?_, ?_, ?_⟩
    · show core.prior.length = core.behaviors.length
      rw [sized, same, List.length_map]
    · show ∀ r ∈ core.behaviors, _
      rw [same]
      intro r member
      obtain ⟨r', member', rfl⟩ := List.mem_map.1 member
      obtain ⟨source, listed, b, ok, rfl⟩ := compiled r' member'
      refine ⟨fixed source listed b ok, ?_⟩
      rw [Recognizer.unjudged_reset, Recognizer.unjudged_weigh, ← Recognizer.unjudged_reset,
        Recognizer.reset_ofBehavior]
    · show core.rulebook.WellFormed
      rw [rulebook]
      exact Rulebook.wellFormed_empty _
    · show core.rulebook.IsFresh
      rw [rulebook]
      intro n member
      cases member
  · intro core prior next pristine weighted
    obtain ⟨sized, rfl⟩ := Session.exists_of_withPrior weighted
    exact { pristine with sized := by simpa using sized }
  · intro core statement next label pristine ruled
    obtain ⟨book, added, rfl⟩ := Session.exists_of_addRule ruled
    have fresh := Rulebook.isFresh_addRule pristine.fresh added
    obtain ⟨rule, read, same, -⟩ := Rulebook.addRule_eq_ok added
    have known := Rulebook.scoped_of_read pristine.wellFormed read
    have wellFormed := (Rulebook.register_spec pristine.wellFormed known).1
    rw [← same] at wellFormed
    exact { pristine with wellFormed, fresh }
  · intro core label next pristine claims
    obtain rfl := Session.eq_of_claimOn claims
    exact { pristine with }

end Building

/-- No gesture of the scene may start anywhere. -/
def Scene.IsFixed (scene : Scene R) (settings : Settings R) : Prop :=
  ∀ i ∈ scene.interactors, ∀ source ∈ i.behaviors, ∀ b,
    Compiler.compile ⟨scene.surface, settings.displayDensity, settings.emission⟩ source i.bounds =
      .ok b → b.origin = none

/-! ## Sessions that decide alike -/

/-- What a host learns of an operation: what was decided if the arbiter was asked, the pool, and how
the interactors stand. -/
structure Ruling where
  outcome : Option MediationOutcome
  candidates : List InteractorId
  standings : List Standing

namespace Session

/-- What a host learns of operations, one after the other. -/
def rulings (s : Session R ν) : List (SessionOp R) → List Ruling
  | [] => []
  | op :: later =>
    ⟨(s.step op).outcome, (s.perform op).arbiter.candidates,
      (s.perform op).interactors.map Interactor.standing⟩ :: (s.perform op).rulings later

/-- Two sessions of peers. Their clocks may differ, and their queues. -/
structure Peer (s s' : Session R ν) : Prop where
  interactors : List.Forall₂ Interactor.Peer s.interactors s'.interactors
  arbiter : s'.arbiter = s.arbiter
  jitterThreshold : s'.jitterThreshold = s.jitterThreshold
  previousBatch : s'.previousBatch = s.previousBatch

namespace Peer

variable {s s' : Session R ν} (peer : s.Peer s')
include peer

theorem worthwhile (batch : List (Sample R)) : s'.worthwhile batch = s.worthwhile batch := by
  simp only [Session.worthwhile, isJitter, peer.jitterThreshold, peer.previousBatch]

theorem forward (sample : Sample R) : (s.forward sample).Peer (s'.forward sample) := by
  refine ⟨?_, peer.arbiter, peer.jitterThreshold, peer.previousBatch⟩
  simp only [Session.forward, List.forall₂_map_left_iff, List.forall₂_map_right_iff]
  exact peer.interactors.imp fun _ _ alike => alike.observeTouch sample

theorem takeIn (batch : List (Sample R)) : (s.takeIn batch).Peer (s'.takeIn batch) := by
  have folded : ∀ samples : List (Sample R),
      (samples.foldl Session.forward s).Peer (samples.foldl Session.forward s') := by
    intro samples
    induction samples using List.reverseRecOn with
    | nil => exact peer
    | append_singleton seen sample ih =>
      rw [List.foldl_concat, List.foldl_concat]
      exact ih.forward sample
  have shown := folded (s.worthwhile batch)
  unfold Session.takeIn
  rw [peer.worthwhile]
  exact ⟨shown.interactors, shown.arbiter, shown.jitterThreshold, rfl⟩

theorem isSome_determined? : s'.determined?.isSome = s.determined?.isSome := by
  have won : s'.interactors.map Interactor.isDetermined =
      s.interactors.map Interactor.isDetermined :=
    map_eq_of (fun _ _ alike => alike.isDetermined) peer.interactors
  have read (t : Session R ν) :
      t.determined?.isSome = (t.interactors.map Interactor.isDetermined).any id := by
    rw [determined?, List.isSome_find?, List.any_map]
    rfl
  rw [read, read, won]

theorem mediate : s'.mediate.outcome = s.mediate.outcome ∧
    s.mediate.session.Peer s'.mediate.session := by
  have round := mediate_peers s.arbiter peer.interactors s.queue s'.queue
  refine ⟨?_, ?_, ?_, ?_, ?_⟩
  · rw [mediate_outcome, mediate_outcome, peer.arbiter, round.outcome]
  · rw [mediate_interactors, mediate_interactors, peer.arbiter]
    exact round.contenders
  · rw [mediate_arbiter, mediate_arbiter, peer.arbiter]
    exact round.arbiter
  · rw [mediate_jitterThreshold, mediate_jitterThreshold, peer.jitterThreshold]
  · rw [mediate_previousBatch, mediate_previousBatch, peer.previousBatch]

theorem handle (batch : List (Sample R)) :
    (s'.handle batch).outcome = (s.handle batch).outcome ∧
      (s.handle batch).session.Peer (s'.handle batch).session := by
  have taken := peer.takeIn batch
  rw [handle_eq, handle_eq, peer.worthwhile, taken.isSome_determined?]
  split
  · exact ⟨rfl, peer⟩
  · split
    · exact ⟨rfl, taken⟩
    · exact taken.mediate

theorem resetAll : s.resetAll.Peer s'.resetAll := by
  refine ⟨?_, congrArg clear peer.arbiter, peer.jitterThreshold, rfl⟩
  simp only [Session.resetAll, List.forall₂_map_left_iff, List.forall₂_map_right_iff]
  exact peer.interactors.imp fun _ _ alike => alike.reset

/-- An operation that starts no timer comes to the same in dormant peers, and leaves peers. -/
theorem step (dormant : s.IsDormant) (dormant' : s'.IsDormant) {op : SessionOp R}
    (quiet : op.startsTimer = false) : (s'.step op).outcome = (s.step op).outcome ∧
      (s.perform op).Peer (s'.perform op) := by
  cases op with
  | handle batch => exact peer.handle batch
  | handleEvent primary second => exact peer.handle _
  | mediate => exact peer.mediate
  | advance now =>
    simp only [Session.step, Session.perform, dormant.advance, dormant'.advance, true_and]
    exact ⟨peer.interactors, peer.arbiter, peer.jitterThreshold, peer.previousBatch⟩
  | selfExcludeAfter id delay => cases quiet
  | resetAll => exact ⟨rfl, peer.resetAll⟩

/-- Dormant peers decide alike. -/
theorem rulings (consistent : s.IsConsistent) (consistent' : s'.IsConsistent)
    (dormant : s.IsDormant) (dormant' : s'.IsDormant) {later : List (SessionOp R)}
    (quiet : ∀ op ∈ later, op.startsTimer = false) : s'.rulings later = s.rulings later := by
  induction later generalizing s s' with
  | nil => rfl
  | cons op later ih =>
    have starts : op.startsTimer = false := quiet op List.mem_cons_self
    obtain ⟨outcome, after⟩ := peer.step dormant dormant' starts
    have rest := ih after (isConsistent_perform consistent op) (isConsistent_perform consistent' op)
      (dormant.perform consistent starts) (dormant'.perform consistent' starts)
      fun op member => quiet op (List.mem_cons_of_mem _ member)
    have standings : (s'.perform op).interactors.map Interactor.standing =
        (s.perform op).interactors.map Interactor.standing :=
      map_eq_of (fun _ _ alike => alike.standing) after.interactors
    rw [Session.rulings, Session.rulings, outcome, after.arbiter, standings, rest]

end Peer

/-! ## Sessions that are set back -/

variable {s : Session R ν}

/-- A round of mediation keeps the threshold. -/
theorem mediate_threshold (agrees : Agrees s.arbiter.candidates s.interactors) :
    s.mediate.session.arbiter.threshold = s.arbiter.threshold := by
  have ids := (agrees.settling s.queue).ids
  have threshold := (settled_settling agrees.toOrderly s.queue).threshold
  rw [mediate_arbiter, mediate_eq]
  split
  · exact threshold
  · rw [(settleClaim_spec ids _).2.1]
    exact threshold
  · rw [(settleClaims_spec _).2.1]
    exact threshold

/-- No operation changes the threshold. -/
theorem threshold_perform (consistent : s.IsConsistent) (op : SessionOp R) :
    (s.perform op).arbiter.threshold = s.arbiter.threshold := by
  cases mediates : s.mediating? op with
  | none =>
    rcases arbiter_of_quiet mediates with same | cleared
    · rw [same]
    · rw [cleared]
      rfl
  | some s' =>
    have agrees := agrees_mediating consistent mediates
    rw [← step_session, step_of_mediating mediates, mediate_threshold agrees,
      (waits_mediating consistent mediates).2]

theorem settings_performAll (consistent : s.IsConsistent) (ops : List (SessionOp R)) :
    (s.performAll ops).arbiter.threshold = s.arbiter.threshold ∧
      (s.performAll ops).jitterThreshold = s.jitterThreshold := by
  induction ops using List.reverseRecOn with
  | nil => exact ⟨rfl, rfl⟩
  | append_singleton done op ih =>
    rw [performAll_concat, threshold_perform (isConsistent_performAll consistent done) op,
      perform_jitterThreshold]
    exact ih

/-- Every interactor of a session of a scene without moving gestures is as it was built. -/
theorem isPristine_ofScene {settings : Settings R} {scene : Scene R}
    (fixed : scene.IsFixed settings) (built : ofScene settings scene = .ok s) :
    ∀ a ∈ s.interactors, a.IsPristine := by
  intro a member
  obtain ⟨i, listed, core, id, made, rfl⟩ := exists_source (ofScene_interactors built).2 a member
  have pristine := Interactor.isPristine_of_build (fixed i listed) made
  exact { pristine with }

/-- After any run, a reset makes a session a peer of what it was built as. -/
theorem peer_resetAll {settings : Settings R} {scene : Scene R} (fixed : scene.IsFixed settings)
    (built : ofScene settings scene = .ok s) (ops : List (SessionOp R)) :
    s.Peer (s.performAll ops).resetAll := by
  have consistent := isConsistent_ofScene built
  obtain ⟨threshold, jitter⟩ := settings_performAll consistent ops
  have bare := (ofScene_interactors built).1
  refine ⟨?_, ?_, jitter, ?_⟩
  · have lasts := forall₂_performAll Interactor.isLasting_sameMake consistent ops
      fun a timer => a.sameMake_timer timer
    rw [resetAll]
    refine forall₂_map_of_mem lasts fun a b same member _ => ?_
    exact Interactor.peer_reset (isPristine_ofScene fixed built a member) same
  · have empty : s.arbiter = ⟨s.arbiter.threshold, []⟩ := by rw [bare]; rfl
    rw [empty, ← threshold]
    rfl
  · rw [bare]
    rfl

end Session

/-- A session of a scene whose gestures all have their places is used in any way, and set back when
all requests that wait have been cancelled. From then on it decides like a session that was just
built, whatever comes, as long as no timer is started: the same outcomes, the same pools, and the
same standings. -/
theorem resetAll_decides_afresh {settings : Settings R} {scene : Scene R} {s : Session R ν}
    (fixed : scene.IsFixed settings) (built : Session.ofScene settings scene = .ok s)
    (ops : List (SessionOp R))
    (cancelled : ∀ task ∈ (s.performAll ops).queue.tasks,
      (s.performAll ops).queue.isCancelled task.token = true)
    {later : List (SessionOp R)} (quiet : ∀ op ∈ later, op.startsTimer = false) :
    (s.performAll ops).resetAll.rulings later = s.rulings later := by
  have consistent := Session.isConsistent_ofScene built
  have used := Session.isConsistent_performAll consistent ops
  have dormant := Session.isDormant_ofScene built
  have dormant' : (s.performAll ops).IsDormant :=
    ⟨Session.isSound_performAll consistent dormant.sound ops, cancelled⟩
  have reset : (s.performAll ops).resetAll.IsDormant :=
    dormant'.perform used (show SessionOp.resetAll.startsTimer = false from rfl)
  exact (Session.peer_resetAll fixed built ops).rulings consistent
    (Session.isConsistent_resetAll used) dormant reset quiet

namespace Twins

theorem isFixed_scene : scene.IsFixed .default := by
  have placed (id : String) : ∀ source ∈ (twin id).behaviors, ∀ b,
      Compiler.compile ⟨⟨((1 : ℝ) : EReal), ((1 : ℝ) : EReal)⟩, Scalar.one, .gaussian⟩ source
        (twin id).bounds = .ok b → b.origin = none := by
    intro source listed b compiled
    obtain rfl := List.mem_singleton.1 listed
    rw [compile_twin id] at compiled
    obtain rfl := Except.ok.inj compiled
    rfl
  intro i member
  rcases List.mem_cons.1 member with rfl | member
  · exact placed "left"
  · obtain rfl := List.mem_singleton.1 member
    exact placed "right"

end Twins

/-- After a tap that was won, a reset: the next tap, a moment later, and a round of mediation come
to what they would have come to at first. -/
theorem resetAll_decides_afresh_twins :
    ∃ s : Session EReal Unit, Session.ofScene .default Twins.scene = .ok s ∧
      (∀ op ∈ ([.handle [Twins.tap], .advance 5, .mediate] : List (SessionOp EReal)),
        op.startsTimer = false) ∧
      (s.performAll [.handle [Twins.tap]]).resetAll.rulings
        [.handle [Twins.tap], .advance 5, .mediate] =
      s.rulings [.handle [Twins.tap], .advance 5, .mediate] := by
  obtain ⟨s, c, d, built, -⟩ := @Twins.ofScene_scene Unit
  have quiet : ∀ op ∈ ([.handle [Twins.tap], .advance 5, .mediate] : List (SessionOp EReal)),
      op.startsTimer = false := by
    simp [SessionOp.startsTimer]
  refine ⟨s, built, quiet, ?_⟩
  refine resetAll_decides_afresh Twins.isFixed_scene built _ (fun task waiting => ?_) quiet
  have idle : s.queue.tasks = [] := by rw [(Session.ofScene_interactors built).1]; rfl
  have released := Session.releases_handle (Session.isNumbered_ofScene built) [Twins.tap]
  have unused : (s.performAll [.handle [Twins.tap]]).queue.tasks = [] := released.tasks.trans idle
  rw [unused] at waiting
  cases waiting

end TouchIntent
