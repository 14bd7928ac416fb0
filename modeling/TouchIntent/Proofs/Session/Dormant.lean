import TouchIntent.Proofs.Session.Release

/-!
# Sessions without a running timer

A session is dormant if every request that waits has been cancelled. Requests are added only when a
timer is started, and whatever else is done may cancel requests, but brings none back to life. So a
dormant session stays dormant until a timer is started, and the passing of time does nothing to it.
-/

namespace TouchIntent

open Arbiter

variable {R ν : Type} [Scalar R]

namespace Session

variable {s s' : Session R ν}

/-- All that a batch changes before the arbiter mediates. -/
theorem exists_takeIn (s : Session R ν) (batch : List (Sample R)) : ∃ now interactors,
    s.takeIn batch = { s with now, interactors, previousBatch := batch } := by
  have folded : ∀ samples : List (Sample R), ∃ now interactors,
      samples.foldl forward s = { s with now, interactors } := by
    intro samples
    induction samples using List.reverseRecOn with
    | nil => exact ⟨s.now, s.interactors, rfl⟩
    | append_singleton seen sample ih =>
      obtain ⟨now, interactors, shown⟩ := ih
      rw [List.foldl_concat, shown]
      exact ⟨_, _, rfl⟩
  obtain ⟨now, interactors, shown⟩ := folded (s.worthwhile batch)
  exact ⟨now, interactors, by rw [takeIn, shown]⟩

/-- No operation changes how far a sample has to be from the one before. -/
@[simp] theorem perform_jitterThreshold (s : Session R ν) (op : SessionOp R) :
    (s.perform op).jitterThreshold = s.jitterThreshold := by
  have handles (batch : List (Sample R)) :
      (s.handle batch).session.jitterThreshold = s.jitterThreshold := by
    obtain ⟨now, interactors, taken⟩ := s.exists_takeIn batch
    rw [handle_eq, taken]
    split
    · rfl
    · split
      · rfl
      · rw [mediate_jitterThreshold]
  cases op with
  | handle batch => exact handles batch
  | handleEvent primary second => exact handles _
  | mediate => exact s.mediate_jitterThreshold
  | resetAll => rfl
  | advance now =>
    obtain ⟨interactors, timedOut⟩ := s.exists_timeOut now
    rw [perform, advance_eq, timedOut]
    split
    · rfl
    · rw [mediate_jitterThreshold]
  | selfExcludeAfter id delay =>
    rw [perform, selfExcludeAfter]
    cases s.interactor? id <;> rfl

/-! ## Tokens of waiting requests -/

omit [Scalar R] in
theorem Releases.isSound (releases : s.Releases s') (sound : s.queue.IsSound) :
    s'.queue.IsSound where
  distinct := releases.tasks ▸ sound.distinct
  issued := releases.tasks ▸ releases.issued ▸ sound.issued

theorem isSound_timeOut (sound : s.queue.IsSound) (now : Millis) :
    (s.timeOut now).queue.IsSound := by
  rw [timeOut_queue]
  exact sound.runDue _

/-- A step sets the queue going, adds a request to it, or cancels requests. -/
theorem TimerStep.isSound {step : HostStep R} (taken : s.TimerStep step s')
    (sound : s.queue.IsSound) : s'.queue.IsSound := by
  cases taken with
  | released releases => exact releases.isSound sound
  | advanced releases => exact releases.isSound (isSound_timeOut sound _)
  | started known => exact ((releases_stopTimer known).isSound sound).schedule _ _

/-- In the course of any run the tokens of the waiting requests differ. -/
theorem isSound_performAll (consistent : s.IsConsistent) (sound : s.queue.IsSound)
    (ops : List (SessionOp R)) : (s.performAll ops).queue.IsSound := by
  induction ops using List.reverseRecOn with
  | nil => exact sound
  | append_singleton done op ih =>
    have numbered := (isConsistent_performAll consistent done).isNumbered
    rw [performAll_concat]
    exact (timerStep_follow numbered (.operate op)).isSound ih

/-! ## Dormant sessions -/

/-- Every request that waits has been cancelled. -/
structure IsDormant (s : Session R ν) : Prop where
  sound : s.queue.IsSound
  dead : s.queue.IsDead

omit [Scalar R] in
/-- Nobody is due. -/
theorem IsDormant.due_eq_nil (dormant : s.IsDormant) (now : Millis) : s.due now = [] :=
  (dormant.dead.runDue dormant.sound _).1

/-- Time passes a dormant session by. -/
theorem IsDormant.advance (dormant : s.IsDormant) (now : Millis) : s.advance now = ⟨{ s with
    now := max s.now now
    queue := (s.queue.runDue (max s.now now)).1 }, none, []⟩ := by
  rw [advance_eq, dormant.due_eq_nil]
  rfl

/-- No timer runs in a new session. -/
theorem isDormant_ofScene {settings : Settings R} {scene : Scene R}
    (built : ofScene settings scene = .ok s) : s.IsDormant := by
  have idle : s.queue = {} := by rw [(ofScene_interactors built).1]; rfl
  refine ⟨idle ▸ TaskQueue.isSound_empty, fun task waiting => ?_⟩
  rw [idle] at waiting
  cases waiting

omit [Scalar R] in
/-- No request comes back to life when tokens are given up. -/
theorem IsDormant.release (dormant : s.IsDormant) (releases : s.Releases s') : s'.IsDormant where
  sound := releases.isSound dormant.sound
  dead := by
    intro task waiting
    rw [releases.tasks] at waiting
    exact (releases.cancelled task.token).2 (.inl (dormant.dead task waiting))

theorem IsDormant.timeOut (dormant : s.IsDormant) (now : Millis) : (s.timeOut now).IsDormant where
  sound := isSound_timeOut dormant.sound now
  dead := by
    rw [timeOut_queue]
    exact (dormant.dead.runDue dormant.sound _).2

theorem IsDormant.timerStep (dormant : s.IsDormant) {op : SessionOp R}
    (taken : s.TimerStep (.operate op) s') (quiet : op.startsTimer = false) : s'.IsDormant := by
  cases taken with
  | released releases => exact dormant.release releases
  | advanced releases => exact (dormant.timeOut _).release releases
  | started => cases quiet

/-- Unless a timer is started, a dormant session stays dormant. -/
theorem IsDormant.perform (dormant : s.IsDormant) (consistent : s.IsConsistent) {op : SessionOp R}
    (quiet : op.startsTimer = false) : (s.perform op).IsDormant :=
  dormant.timerStep (timerStep_follow consistent.isNumbered (.operate op)) quiet

end Session

end TouchIntent
