import Mathlib.Data.List.Forall2
import TouchIntent.Proofs.Interactor.TaskQueue
import TouchIntent.Proofs.Session.Lasting

/-!
# Tokens that are given up

An interactor that stops its timer gives up the token of the timer and cancels it. This is all that
becomes of timers and flags, unless a timer is started or time passes: whatever is done with an
interactor, it keeps its timer and no flag is written, or it gives its token up. In a round of
mediation the interactors do so one after the other, and the queue is handed on from each to the
next. Afterwards those tokens are cancelled that were cancelled before, and those that somebody has
given up.
-/

namespace TouchIntent

open Arbiter

variable {R ν : Type}

namespace Interactor

/-- The interactor keeps its timer, and no flag is written; or it gives its token up and cancels
it. -/
inductive Releases (a : Interactor R ν) (queue : TaskQueue) (b : Interactor R ν)
    (queue' : TaskQueue) : Prop where
  | kept (same : b.timer = a.timer) (unwritten : queue' = queue)
  | stopped (stopped : b.timer = none) (written : queue' = a.timer.elim queue queue.cancel)

section

variable {a b c : Interactor R ν} {queue queue' queue'' : TaskQueue}

/-- What has nothing to do with timers. -/
theorem Releases.of_timer (same : b.timer = a.timer) : a.Releases queue b queue := .kept same rfl

theorem Releases.trans (first : a.Releases queue b queue') (second : b.Releases queue' c queue'') :
    a.Releases queue c queue'' := by
  rcases first with ⟨same, rfl⟩ | ⟨stopped, rfl⟩
  · rcases second with ⟨again, rfl⟩ | ⟨stopped, rfl⟩
    · exact .kept (again.trans same) rfl
    · exact .stopped stopped (by rw [same])
  · -- Nothing is left to be given up.
    rcases second with ⟨same, rfl⟩ | ⟨still, rfl⟩
    · exact .stopped (same.trans stopped) rfl
    · exact .stopped still (by rw [stopped]; rfl)

theorem Releases.timer (releases : a.Releases queue b queue') :
    b.timer = a.timer ∨ b.timer = none := by
  rcases releases with ⟨same, -⟩ | ⟨stopped, -⟩
  · exact .inl same
  · exact .inr stopped

theorem Releases.tasks (releases : a.Releases queue b queue') : queue'.tasks = queue.tasks := by
  rcases releases with ⟨-, rfl⟩ | ⟨-, rfl⟩
  · rfl
  · cases a.timer <;> rfl

theorem Releases.issued (releases : a.Releases queue b queue') : queue'.issued = queue.issued := by
  rcases releases with ⟨-, rfl⟩ | ⟨-, rfl⟩
  · rfl
  · cases a.timer <;> rfl

theorem Releases.isCancelled_iff (releases : a.Releases queue b queue') {token : CancelToken} :
    queue'.isCancelled token = true ↔
      queue.isCancelled token = true ∨ a.timer = some token ∧ b.timer = none := by
  rcases releases with ⟨same, rfl⟩ | ⟨stopped, rfl⟩
  · refine ⟨.inl, ?_⟩
    rintro (flagged | ⟨running, stopped⟩)
    · exact flagged
    · rw [← same, stopped] at running
      cases running
  · cases running : a.timer with
    | none => simp
    | some other => simp [stopped, or_comm, eq_comm (a := token)]

end

/-! ### Operations on an interactor -/

variable (a : Interactor R ν) (queue : TaskQueue)

theorem releases_cancelTimer :
    a.Releases queue (a.cancelTimer queue).1 (a.cancelTimer queue).2 := .stopped rfl rfl

theorem releases_claim : a.Releases queue (a.claim queue).1 (a.claim queue).2.1 := .stopped rfl rfl

theorem releases_withdrawSelfExclusion :
    a.Releases queue (a.withdrawSelfExclusion queue).1 (a.withdrawSelfExclusion queue).2.1 :=
  .stopped rfl rfl

variable [Scalar R]

/-- A reset leaves the timer running. -/
theorem reset_timer : a.reset.timer = a.timer := by
  unfold reset
  split <;> rfl

theorem selfExclude_timer : a.selfExclude.1.timer = a.timer := by
  unfold selfExclude
  split <;> rfl

theorem grantSelfExclusion_timer : a.grantSelfExclusion.1.timer = a.timer := by
  unfold grantSelfExclusion
  simp only
  split <;> rfl

/-- A timer that has run down no longer runs. -/
theorem timeOut_timer : a.timeOut.1.timer = none := selfExclude_timer _

theorem observeTouch_timer (s : Sample R) : (a.observeTouch s).timer = a.timer := by
  unfold observeTouch
  split
  · split
    · exact a.selfExclude_timer
    · exact a.reset_timer
  · rfl

theorem releases_undetermine :
    a.Releases queue (a.undetermine queue).1 (a.undetermine queue).2.1 := .stopped rfl rfl

theorem releases_updateRules :
    a.Releases queue (a.updateRules queue).1 (a.updateRules queue).2.1 := by
  unfold updateRules
  simp only
  split
  · have evaluated :
        a.Releases queue { a with rulebook := (a.rulebook.update a.views).book } queue :=
      .of_timer rfl
    exact evaluated.trans (releases_claim _ queue)
  · exact .of_timer rfl

theorem releases_appraise (arbiter : Arbiter R) (grants : Bool) : a.Releases queue
    (arbiter.appraise grants a queue).1.contender (arbiter.appraise grants a queue).2 := by
  unfold appraise
  simp only
  split_ifs
  · have granted : a.Releases queue a.grantSelfExclusion.1 queue :=
      .of_timer a.grantSelfExclusion_timer
    exact granted.trans (releases_withdrawSelfExclusion _ queue)
  all_goals exact .of_timer rfl

/-- The commands of the host that stop a timer cancel its token. -/
theorem releases_obey (order : HostCommand) :
    a.Releases queue (a.obey order queue).1 (a.obey order queue).2 := by
  cases order with
  | reset => exact .of_timer a.reset_timer
  | selfExclude => exact .of_timer a.selfExclude_timer
  | claim => exact a.releases_claim queue
  | undetermine => exact a.releases_undetermine queue
  | withdrawSelfExclusion => exact a.releases_withdrawSelfExclusion queue
  | exclude | setHidden | resetObservations => exact .of_timer rfl

end Interactor

namespace Arbiter

variable {as bs cs : List (Interactor R ν)} {a b : Interactor R ν} {token : CancelToken}
  {queue queue' queue'' : TaskQueue}

/-- One of the interactors has given the token up. -/
def GivenUp (as bs : List (Interactor R ν)) (token : CancelToken) : Prop :=
  ∃ p ∈ as.zip bs, p.1.timer = some token ∧ p.2.timer = none

/-- The interactors keep their timers or give their tokens up, and those tokens are cancelled that
are given up, besides those that were before. -/
structure Release (as : List (Interactor R ν)) (queue : TaskQueue) (bs : List (Interactor R ν))
    (queue' : TaskQueue) : Prop where
  timers : List.Forall₂ (fun a b => b.timer = a.timer ∨ b.timer = none) as bs
  tasks : queue'.tasks = queue.tasks
  issued : queue'.issued = queue.issued
  cancelled : ∀ token, queue'.isCancelled token = true ↔
    queue.isCancelled token = true ∨ GivenUp as bs token

theorem givenUp_cons : GivenUp (a :: as) (b :: bs) token ↔
    (a.timer = some token ∧ b.timer = none) ∨ GivenUp as bs token := by
  simp [GivenUp]

theorem givenUp_iff : GivenUp as bs token ↔ ∃ (i : Nat) (a b : Interactor R ν),
    as[i]? = some a ∧ bs[i]? = some b ∧ a.timer = some token ∧ b.timer = none := by
  simp only [GivenUp, List.mem_iff_getElem?, List.getElem?_zip_eq_some, Prod.exists]
  constructor
  · rintro ⟨a, b, ⟨i, found, found'⟩, gave⟩
    exact ⟨i, a, b, found, found', gave⟩
  · rintro ⟨i, a, b, found, found', gave⟩
    exact ⟨a, b, ⟨i, found, found'⟩, gave⟩

/-- Nothing is given up by those who keep their timers. -/
theorem not_givenUp (timers : List.Forall₂ (fun a b : Interactor R ν => b.timer = a.timer) as bs) :
    ¬ GivenUp as bs token := by
  induction timers with
  | nil => simp [GivenUp]
  | cons same _ ih =>
    rw [givenUp_cons]
    rintro (⟨running, stopped⟩ | later)
    · rw [same, running] at stopped
      cases stopped
    · exact ih later

/-- A token is given up once, on the one occasion or on the other. -/
theorem givenUp_trans
    (first : List.Forall₂ (fun a b : Interactor R ν => b.timer = a.timer ∨ b.timer = none) as bs)
    (second : List.Forall₂ (fun a b : Interactor R ν => b.timer = a.timer ∨ b.timer = none) bs cs) :
    GivenUp as cs token ↔ GivenUp as bs token ∨ GivenUp bs cs token := by
  induction first generalizing cs with
  | nil =>
    cases second
    simp [GivenUp]
  | @cons a b as bs before _ ih =>
    obtain - | ⟨after, second⟩ := second
    rw [givenUp_cons, givenUp_cons, givenUp_cons, ih second]
    rcases before with same | stopped
    · rw [same] at after ⊢
      rcases after with again | stopped
      · rw [again]
        tauto
      · simp only [stopped]
        tauto
    · rw [stopped] at after ⊢
      have still := or_self_iff.1 after
      simp only [still, reduceCtorEq, false_and, false_or]
      tauto

namespace Release

theorem of_timers (timers : List.Forall₂ (fun a b : Interactor R ν => b.timer = a.timer) as bs) :
    Release as queue bs queue where
  timers := timers.imp fun _ _ => .inl
  tasks := rfl
  issued := rfl
  cancelled token := by simp [not_givenUp timers]

theorem refl (as : List (Interactor R ν)) (queue : TaskQueue) : Release as queue as queue :=
  of_timers (List.forall₂_same.2 fun _ _ => rfl)

theorem trans (first : Release as queue bs queue') (second : Release bs queue' cs queue'') :
    Release as queue cs queue'' where
  timers := by
    refine forall₂_comp first.timers second.timers fun a b c before after => ?_
    rcases after with same | stopped
    · rwa [same]
    · exact .inr stopped
  tasks := second.tasks.trans first.tasks
  issued := second.issued.trans first.issued
  cancelled token := by
    rw [second.cancelled, first.cancelled, givenUp_trans first.timers second.timers, or_assoc]

/-- One interactor comes first, and the queue is handed on to the others. -/
theorem cons (first : a.Releases queue b queue') (others : Release as queue' bs queue'') :
    Release (a :: as) queue (b :: bs) queue'' where
  timers := .cons first.timer others.timers
  tasks := others.tasks.trans first.tasks
  issued := others.issued.trans first.issued
  cancelled token := by
    rw [others.cancelled, first.isCancelled_iff, givenUp_cons, or_assoc]

/-- The queue is handed through a list of interactors. -/
theorem passThrough {β : Type} {step : Interactor R ν → TaskQueue → β × TaskQueue}
    {read : β → Interactor R ν}
    (steps : ∀ (a : Interactor R ν) (queue : TaskQueue),
      a.Releases queue (read (step a queue).1) (step a queue).2)
    (as : List (Interactor R ν)) (queue : TaskQueue) :
    Release as queue ((passThrough step as queue).1.map read) (passThrough step as queue).2 := by
  induction as generalizing queue with
  | nil => exact refl [] queue
  | cons a rest ih => exact cons (steps a queue) (ih _)

/-- One interactor is changed, and the others are left alone. -/
theorem set {i : Nat} (found : as[i]? = some a) (releases : a.Releases queue b queue') :
    Release as queue (as.set i b) queue' := by
  induction as generalizing i with
  | nil => cases found
  | cons first rest ih =>
    cases i with
    | zero =>
      obtain rfl := Option.some.inj found
      exact cons releases (refl rest queue')
    | succ i => exact cons (.of_timer rfl) (ih found)

/-- A timer that is running afterwards has been running before. -/
theorem timer_before (release : Release as queue bs queue') {i : Nat} (found : bs[i]? = some b)
    (running : b.timer = some token) : ∃ a, as[i]? = some a ∧ a.timer = some token := by
  obtain ⟨within, rfl⟩ := List.getElem?_eq_some_iff.1 found
  have within' : i < as.length := release.timers.length_eq ▸ within
  have kept := (List.forall₂_iff_get.1 release.timers).2 i within' within
  refine ⟨as[i], List.getElem?_eq_getElem within', ?_⟩
  rcases kept with same | stopped
  · exact same.symm.trans running
  · cases stopped.symm.trans running

/-- A timer that was running goes on, or its token has been given up. -/
theorem timer_after (release : Release as queue bs queue') {i : Nat} (found : as[i]? = some a)
    (running : a.timer = some token) :
    ∃ b, bs[i]? = some b ∧ (b.timer = some token ∨ b.timer = none ∧ GivenUp as bs token) := by
  obtain ⟨within, rfl⟩ := List.getElem?_eq_some_iff.1 found
  have within' : i < bs.length := release.timers.length_eq ▸ within
  refine ⟨bs[i], List.getElem?_eq_getElem within', ?_⟩
  rcases (List.forall₂_iff_get.1 release.timers).2 i within within' with same | stopped
  · exact .inl (same.trans running)
  · exact .inr ⟨stopped, givenUp_iff.2 ⟨i, as[i], bs[i], List.getElem?_eq_getElem within,
      List.getElem?_eq_getElem within', running, stopped⟩⟩

end Release

/-! ### Rounds of mediation -/

variable [Scalar R]

theorem release_refresh (grants : Bool) (m : Round R ν) :
    Release m.contenders m.shared (refresh grants m).1.contenders (refresh grants m).1.shared :=
  Release.passThrough (fun a queue => a.releases_appraise queue m.arbiter grants) _ _

theorem release_updateRules (m : Round R ν) :
    Release m.contenders m.shared (updateRules m).contenders (updateRules m).shared := by
  refine Release.passThrough (fun a queue => ?_) m.contenders m.shared
  simp only
  split
  · exact a.releases_updateRules queue
  · exact .of_timer rfl

theorem release_settling (a : Arbiter R) (cs : List (Interactor R ν)) (queue : TaskQueue) :
    Release cs queue (a.settling cs queue).1.contenders (a.settling cs queue).1.shared := by
  let m : Round R ν := (refresh false ⟨a, cs, queue, {}, []⟩).1
  have shares : Release m.contenders m.shared (m.arbiter.shareOut m.contenders) m.shared :=
    .of_timers (forall₂_shareOut (fun _ _ => rfl) _ _)
  exact (release_refresh false _).trans ((shares.trans
    (release_updateRules { m with contenders := m.arbiter.shareOut m.contenders })).trans
      (release_refresh true _))

/-- Settling the claims has nothing to do with timers. -/
theorem release_mediate {a : Arbiter R} {cs : List (Interactor R ν)}
    (ids : (cs.map Interactor.id).Nodup) (distinct : a.candidates.Nodup) (queue : TaskQueue) :
    Release cs queue (a.mediate cs queue).contenders (a.mediate cs queue).shared := by
  have settled := straying_settling ids distinct queue
  refine (release_settling a cs queue).trans ?_
  rw [mediate_eq]
  split
  · exact .refl _ _
  · next claimer _ =>
    rw [settleClaim_contenders settled.ids settled.distinct,
      (settleClaim_frame _ claimer).1]
    refine .of_timers (forall₂_map fun c => ?_)
    split_ifs <;> rfl
  · rw [settleClaims_contenders]
    refine .of_timers (forall₂_map fun c => ?_)
    split <;> rfl

end Arbiter

namespace Session

variable [Scalar R] {s s' : Session R ν}

/-- What becomes of the timers of a session and of the flags. -/
def Releases (s s' : Session R ν) : Prop :=
  Release s.interactors s.queue s'.interactors s'.queue

theorem releases_takeIn (s : Session R ν) (batch : List (Sample R)) :
    s.Releases (s.takeIn batch) := by
  have folded : ∀ samples : List (Sample R), s.Releases (samples.foldl forward s) := by
    intro samples
    induction samples using List.reverseRecOn with
    | nil => exact .refl _ _
    | append_singleton seen sample ih =>
      rw [List.foldl_concat]
      exact ih.trans (.of_timers (forall₂_map fun a => a.observeTouch_timer sample))
  exact folded (s.worthwhile batch)

theorem releases_mediate (numbered : s.IsNumbered) : s.Releases s.mediate.session := by
  rw [Releases, mediate_interactors, mediate_queue]
  exact release_mediate numbered.ids numbered.distinct s.queue

theorem releases_handle (numbered : s.IsNumbered) (batch : List (Sample R)) :
    s.Releases (s.handle batch).session := by
  rw [handle_eq]
  split
  · exact .refl _ _
  · split
    · exact s.releases_takeIn batch
    · exact (s.releases_takeIn batch).trans (releases_mediate (isNumbered_takeIn numbered batch))

theorem releases_resetAll (s : Session R ν) : s.Releases s.resetAll :=
  .of_timers (forall₂_map fun a => a.reset_timer)

theorem releases_command (s : Session R ν) (id : InteractorId) (order : HostCommand) :
    s.Releases (s.command id order) := by
  unfold command
  split
  · exact .refl _ _
  · next a found => exact .set found (a.releases_obey s.queue order)

/-! ### Steps of the host -/

/-- All that timers which run down change before the arbiter mediates. -/
theorem exists_timeOut (s : Session R ν) (now : Millis) : ∃ interactors,
    s.timeOut now = { s with
      now := max s.now now
      queue := (s.queue.runDue (max s.now now)).1
      interactors } := by
  have folded : ∀ (due : List InteractorId) (s : Session R ν), ∃ interactors,
      due.foldl (fun s id => s.modify id fun a => a.timeOut.1) s = { s with interactors } := by
    intro due
    induction due with
    | nil => exact fun s => ⟨s.interactors, rfl⟩
    | cons id rest ih =>
      intro s
      exact ih (s.modify id fun a => a.timeOut.1)
  exact folded (s.due now) { s with
    now := max s.now now
    queue := (s.queue.runDue (max s.now now)).1 }

theorem timeOut_queue (s : Session R ν) (now : Millis) :
    (s.timeOut now).queue = (s.queue.runDue (max s.now now)).1 := by
  obtain ⟨interactors, timedOut⟩ := s.exists_timeOut now
  rw [timedOut]

/-- If nobody comes up, the passing of time is all that happens. -/
theorem advance_of_nobody {now : Millis} (nobody : (s.due now).isEmpty = true) :
    s.advance now = ⟨s.timeOut now, none, []⟩ := by
  rw [advance_eq, if_pos nobody, timeOut, List.isEmpty_iff.1 nobody]
  rfl

theorem releases_advance (numbered : s.IsNumbered) (now : Millis) :
    (s.timeOut now).Releases (s.advance now).session := by
  by_cases nobody : (s.due now).isEmpty = true
  · rw [advance_of_nobody nobody]
    exact .refl _ _
  · rw [advance_eq, if_neg nobody]
    exact releases_mediate (isNumbered_timeOut numbered now)

omit [Scalar R] in
/-- The session after a timer of an interactor that has none is started. The token is new. -/
def startTimer (s : Session R ν) (id : InteractorId) (a : Interactor R ν) (due : Millis) :
    Session R ν :=
  { s with
    interactors := s.interactors.set id { a with timer := some s.queue.issued }
    queue := s.queue.issue.2.schedule ⟨due, a.id, s.queue.issued⟩ }

omit [Scalar R] in
/-- The session after an interactor has stopped its timer. -/
def stopTimer (s : Session R ν) (id : InteractorId) (a : Interactor R ν) : Session R ν :=
  { s with
    interactors := s.interactors.set id (a.cancelTimer s.queue).1
    queue := (a.cancelTimer s.queue).2 }

omit [Scalar R] in
theorem releases_stopTimer {id : InteractorId} {a : Interactor R ν}
    (known : s.interactors[id]? = some a) : s.Releases (s.stopTimer id a) :=
  .set known (a.releases_cancelTimer s.queue)

omit [Scalar R] in
/-- A timer is started after the one that may be running was stopped. -/
theorem selfExcludeAfter_eq {id : InteractorId} {a : Interactor R ν}
    (known : s.interactors[id]? = some a) (delay : Millis) :
    (s.selfExcludeAfter id delay).getD s = (s.stopTimer id a).startTimer id
      (a.cancelTimer s.queue).1 (Millis.later s.now delay) := by
  have known : s.interactor? id = some a := known
  rw [selfExcludeAfter, known, startTimer, stopTimer, List.set_set]
  rfl

/-- What a step of the host does to the timers and their requests: tokens are given up, after time
has passed or not, or a timer is started. -/
inductive TimerStep (s : Session R ν) : HostStep R → Session R ν → Prop
  | released {step : HostStep R} {s' : Session R ν} (releases : s.Releases s') : s.TimerStep step s'
  | advanced {now : Millis} {s' : Session R ν} (releases : (s.timeOut now).Releases s') :
    s.TimerStep (.operate (.advance now)) s'
  | started {id : InteractorId} {delay : Millis} {a : Interactor R ν}
    (known : s.interactors[id]? = some a) :
    s.TimerStep (.operate (.selfExcludeAfter id delay)) ((s.stopTimer id a).startTimer id
      (a.cancelTimer s.queue).1 (Millis.later s.now delay))

theorem timerStep_selfExcludeAfter (s : Session R ν) (id : InteractorId) (delay : Millis) :
    s.TimerStep (.operate (.selfExcludeAfter id delay)) ((s.selfExcludeAfter id delay).getD s) := by
  cases known : s.interactors[id]? with
  | none =>
    have unknown : s.interactor? id = none := known
    rw [selfExcludeAfter, unknown]
    exact .released (.refl _ _)
  | some a =>
    rw [selfExcludeAfter_eq known]
    exact .started known

theorem timerStep_follow (numbered : s.IsNumbered) (step : HostStep R) :
    s.TimerStep step (s.follow step) := by
  cases step with
  | operate op =>
    cases op with
    | handle batch => exact .released (releases_handle numbered batch)
    | handleEvent primary second => exact .released (releases_handle numbered _)
    | mediate => exact .released (releases_mediate numbered)
    | advance now => exact .advanced (releases_advance numbered now)
    | selfExcludeAfter id delay => exact s.timerStep_selfExcludeAfter id delay
    | resetAll => exact .released s.releases_resetAll
  | command id order => exact .released (s.releases_command id order)

end Session

end TouchIntent
