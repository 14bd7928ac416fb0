import Mathlib
import TouchIntent.Proofs.Session.Dormant

/-!
# Timers that outlive a reset

An interactor holds the token of its timer, and the queue holds the request. The two are changed by
different operations, but whatever a host does they agree: the tokens that are held are those of the
requests that wait and are not cancelled. So an interactor comes up in the passing of time only
if its timer is running, and a timer that is running when the session is reset, which stops no
timer, will run down unless something else stops it. The main statement of this module says that
nothing else lets a reset session fall back: it takes a timer that runs at the reset, or one that is
started after it.
-/

namespace TouchIntent

open Arbiter

variable {R ν : Type} [Scalar R]

/-- The step starts a timer of the interactor. -/
def HostStep.startsTimerOf (id : InteractorId) : HostStep R → Bool
  | operate (.selfExcludeAfter i _) => i == id
  | operate (.handle _) | operate (.handleEvent _ _) | operate .mediate | operate (.advance _)
  | operate .resetAll | command _ _ => false

/-- A request of the interactor waits under the token, and has not been cancelled. -/
def TaskQueue.Awaits (q : TaskQueue) (i : InteractorId) (token : CancelToken) : Prop :=
  ∃ due, ⟨due, i, token⟩ ∈ q.tasks ∧ q.isCancelled token = false

/-- No two interactors wait under one token. -/
theorem TaskQueue.Awaits.unique {q : TaskQueue} (sound : q.IsSound) {i j : InteractorId}
    {token : CancelToken} (first : q.Awaits i token) (second : q.Awaits j token) : i = j := by
  obtain ⟨due, waiting, -⟩ := first
  obtain ⟨due', waiting', -⟩ := second
  exact congrArg DeferredTask.interactor
    (List.inj_on_of_nodup_map sound.distinct waiting waiting' rfl)

/-- No operation changes the id of an interactor. -/
theorem Interactor.isLasting_id :
    Interactor.IsLasting fun a b : Interactor R ν => b.id = a.id where
  refl _ := rfl
  trans _ _ _ first second := second.trans first
  stand _ _ := rfl
  rank _ _ := rfl
  stopTimer _ := rfl
  forget _ := rfl
  startOver _ := rfl
  look a s _ := a.observeTouch_id s
  judge _ := rfl

namespace Session

variable {s s' : Session R ν} {i : InteractorId} {token : CancelToken}

/-- The interactor holds the token of its timer. -/
def Holds (s : Session R ν) (i : InteractorId) (token : CancelToken) : Prop :=
  ∃ a, s.interactors[i]? = some a ∧ a.timer = some token

/-- The tokens that are held are those of the requests that wait and are not cancelled. -/
structure IsTimed (s : Session R ν) : Prop where
  sound : s.queue.IsSound
  cancelled : s.queue.CancelsIssued
  holds_iff : ∀ i token, s.Holds i token ↔ s.queue.Awaits i token

omit [Scalar R] in
theorem IsTimed.lt_issued (timed : s.IsTimed) (held : s.Holds i token) :
    token < s.queue.issued := by
  obtain ⟨due, waiting, -⟩ := (timed.holds_iff i token).1 held
  exact timed.sound.issued _ waiting

omit [Scalar R] in
theorem IsTimed.not_isCancelled (timed : s.IsTimed) (held : s.Holds i token) :
    s.queue.isCancelled token = false := by
  obtain ⟨-, -, alive⟩ := (timed.holds_iff i token).1 held
  exact alive

omit [Scalar R] in
/-- No two interactors hold the same token. -/
theorem IsTimed.holds_unique (timed : s.IsTimed) {j : InteractorId} (held : s.Holds i token)
    (held' : s.Holds j token) : i = j :=
  ((timed.holds_iff i token).1 held).unique timed.sound ((timed.holds_iff j token).1 held')

omit [Scalar R] in
/-- Exactly those interactors come up of which a request is due that has not been cancelled. -/
theorem mem_due_iff (sound : s.queue.IsSound) {now : Millis} :
    i ∈ s.due now ↔ ∃ task ∈ s.queue.tasks, task.interactor = i ∧ task.due ≤ max s.now now ∧
      s.queue.isCancelled task.token = false := by
  have runs : i ∈ s.due now ↔ _ := TaskQueue.mem_runTasks_due sound.distinct
  simp only [runs, TaskQueue.isCancelled, List.contains_eq_mem, decide_eq_false_iff_not]

/-! ## What operations do to timers and requests -/

omit [Scalar R] in
/-- Who gives a token up cancels the request. -/
theorem IsTimed.release (timed : s.IsTimed) (releases : s.Releases s') : s'.IsTimed where
  sound := releases.isSound timed.sound
  cancelled := by
    intro token cancelled
    rw [releases.issued]
    rcases (releases.cancelled token).1 cancelled with before | given
    · exact timed.cancelled token before
    · obtain ⟨i, a, -, found, -, running, -⟩ := givenUp_iff.1 given
      exact timed.lt_issued ⟨a, found, running⟩
  holds_iff i token := by
    constructor
    · rintro ⟨b, found, running⟩
      obtain ⟨a, found', running'⟩ := releases.timer_before found running
      have held : s.Holds i token := ⟨a, found', running'⟩
      obtain ⟨due, waiting, alive⟩ := (timed.holds_iff i token).1 held
      refine ⟨due, releases.tasks ▸ waiting, Bool.eq_false_iff.2 fun cancelled => ?_⟩
      rcases (releases.cancelled token).1 cancelled with before | given
      · cases alive.symm.trans before
      · -- Nobody else can have given the token up.
        obtain ⟨j, c, d, foundc, foundd, gave, stopped⟩ := givenUp_iff.1 given
        obtain rfl := timed.holds_unique held ⟨c, foundc, gave⟩
        obtain rfl := Option.some.inj (found.symm.trans foundd)
        cases running.symm.trans stopped
    · rintro ⟨due, waiting, alive⟩
      have before : s.queue.isCancelled token = false := Bool.eq_false_iff.2 fun cancelled => by
        rw [(releases.cancelled token).2 (.inl cancelled)] at alive
        cases alive
      obtain ⟨a, found, running⟩ :=
        (timed.holds_iff i token).2 ⟨due, releases.tasks ▸ waiting, before⟩
      obtain ⟨b, found', goesOn | ⟨-, given⟩⟩ := releases.timer_after found running
      · exact ⟨b, found', goesOn⟩
      · rw [(releases.cancelled token).2 (.inr given)] at alive
        cases alive

omit [Scalar R] in
/-- A timer that is started has a new token. -/
theorem IsTimed.startTimer (timed : s.IsTimed) {a : Interactor R ν}
    (found : s.interactors[i]? = some a) (idle : a.timer = none) (same : a.id = i) (due : Millis) :
    (s.startTimer i a due).IsTimed where
  sound := timed.sound.schedule _ _
  cancelled := timed.cancelled.schedule _
  holds_iff j token := by
    have within := (List.getElem?_eq_some_iff.1 found).1
    have holds : (s.startTimer i a due).Holds j token ↔
        s.Holds j token ∨ i = j ∧ s.queue.issued = token := by
      simp only [Holds, Session.startTimer, List.getElem?_set]
      by_cases own : i = j
      · subst own
        simp only [↓reduceIte, within, found, Option.some.injEq, exists_eq_left', idle]
        simp
      · simp [own]
    have awaits : (s.startTimer i a due).queue.Awaits j token ↔
        s.queue.Awaits j token ∨ i = j ∧ s.queue.issued = token := by
      have fresh : s.queue.isCancelled s.queue.issued = false := Bool.eq_false_iff.2 fun gone =>
        Nat.lt_irrefl _ (timed.cancelled _ gone)
      constructor
      · rintro ⟨later, waiting, alive⟩
        rcases List.mem_append.1 waiting with before | added
        · exact .inl ⟨later, before, alive⟩
        · cases List.mem_singleton.1 added
          exact .inr ⟨same.symm, rfl⟩
      · rintro (⟨later, waiting, alive⟩ | ⟨rfl, rfl⟩)
        · exact ⟨later, List.mem_append_left _ waiting, alive⟩
        · exact ⟨due, List.mem_append_right _ (List.mem_singleton.2 (by rw [same])), fresh⟩
    rw [holds, awaits, timed.holds_iff]

/-- Whoever comes up has its timer stopped. -/
theorem timer_timeOut {now : Millis} (due : i ∈ s.due now) {b : Interactor R ν}
    (found : (s.timeOut now).interactors[i]? = some b) : b.timer = none := by
  have folded : ∀ (ids : List InteractorId) (s : Session R ν) (b : Interactor R ν), i ∈ ids →
      (ids.foldl (fun s id => s.modify id fun a => a.timeOut.1) s).interactors[i]? = some b →
      b.timer = none := by
    intro ids
    induction ids using List.reverseRecOn with
    | nil => exact fun s b member => by cases member
    | append_singleton before id ih =>
      intro s b member found
      rw [List.foldl_concat, modify, List.getElem?_modify] at found
      by_cases last : id = i
      · obtain ⟨a, -, rfl⟩ := Option.map_eq_some_iff.1 found
        rw [if_pos last]
        exact a.timeOut_timer
      · have earlier : i ∈ before := by simpa [Ne.symm last] using member
        refine ih s b earlier ?_
        simpa [last] using found
  exact folded (s.due now) _ b due found

/-- Who does not come up is left alone. -/
theorem getElem?_timeOut {now : Millis} (waits : i ∉ s.due now) :
    (s.timeOut now).interactors[i]? = s.interactors[i]? := by
  have folded : ∀ (ids : List InteractorId) (s : Session R ν), i ∉ ids →
      (ids.foldl (fun s id => s.modify id fun a => a.timeOut.1) s).interactors[i]? =
        s.interactors[i]? := by
    intro ids
    induction ids with
    | nil => exact fun s _ => rfl
    | cons id rest ih =>
      intro s waits
      obtain ⟨differs, later⟩ := not_or.1 (mt List.mem_cons.2 waits)
      rw [List.foldl_cons, ih _ later, modify]
      exact List.getElem?_modify_ne _ _ (Ne.symm differs)
  exact folded (s.due now) _ waits

/-- A timer goes on when time passes, unless the interactor comes up. -/
theorem holds_timeOut_iff {now : Millis} :
    (s.timeOut now).Holds i token ↔ s.Holds i token ∧ i ∉ s.due now := by
  by_cases due : i ∈ s.due now
  · refine iff_of_false ?_ fun ⟨_, waits⟩ => waits due
    rintro ⟨b, found, running⟩
    cases (timer_timeOut due found).symm.trans running
  · rw [Holds, getElem?_timeOut due, and_iff_left due, Holds]

/-- When time passes, a request that is due comes to nothing or stops the timer that it belongs to;
the others go on waiting. -/
theorem IsTimed.timeOut (timed : s.IsTimed) (now : Millis) : (s.timeOut now).IsTimed where
  sound := isSound_timeOut timed.sound now
  cancelled := by
    rw [timeOut_queue]
    exact timed.cancelled.runDue _
  holds_iff i token := by
    rw [holds_timeOut_iff, timeOut_queue]
    constructor
    · rintro ⟨held, waits⟩
      obtain ⟨due, waiting, alive⟩ := (timed.holds_iff i token).1 held
      have later : max s.now now < due := by
        by_contra run
        exact waits ((mem_due_iff timed.sound).2 ⟨_, waiting, rfl, Nat.le_of_not_lt run, alive⟩)
      have kept := TaskQueue.isCancelled_runDue timed.sound waiting later
      exact ⟨due, TaskQueue.mem_runTasks_kept.2 ⟨waiting, later⟩, kept.trans alive⟩
    · rintro ⟨due, waiting, alive⟩
      obtain ⟨before, later⟩ := TaskQueue.mem_runTasks_kept.1 waiting
      have kept := TaskQueue.isCancelled_runDue timed.sound before later
      have held := (timed.holds_iff i token).2 ⟨due, before, kept.symm.trans alive⟩
      refine ⟨held, fun comes => ?_⟩
      -- The interactor would come up for a request under the same token.
      obtain ⟨task, other, rfl, run, alive'⟩ := (mem_due_iff timed.sound).1 comes
      obtain ⟨a, found, running⟩ := held
      obtain ⟨a', found', running'⟩ := (timed.holds_iff _ _).2 ⟨task.due, other, alive'⟩
      obtain rfl := Option.some.inj (found.symm.trans found')
      obtain same := Option.some.inj (running'.symm.trans running)
      have task' := List.inj_on_of_nodup_map timed.sound.distinct other before same
      exact Nat.not_lt.2 run (by rw [task']; exact later)

omit [Scalar R] in
theorem getElem?_stopTimer {a : Interactor R ν} (known : s.interactors[i]? = some a) :
    (s.stopTimer i a).interactors[i]? = some (a.cancelTimer s.queue).1 :=
  List.getElem?_set_self (List.getElem?_eq_some_iff.1 known).1

omit [Scalar R] in
/-- An interactor goes by its position. -/
theorem id_eq_of_positions
    (positions : s.interactors.map Interactor.id = List.range s.interactors.length)
    {a : Interactor R ν} (found : s.interactors[i]? = some a) : a.id = i := by
  obtain ⟨within, rfl⟩ := List.getElem?_eq_some_iff.1 found
  have entry := congrArg (fun ids => ids[i]?) positions
  simpa [within] using entry

theorem IsTimed.timerStep (timed : s.IsTimed)
    (positions : s.interactors.map Interactor.id = List.range s.interactors.length)
    {step : HostStep R} (taken : s.TimerStep step s') : s'.IsTimed := by
  cases taken with
  | released releases => exact timed.release releases
  | advanced releases => exact (timed.timeOut _).release releases
  | @started id delay a known =>
    refine (timed.release (releases_stopTimer known)).startTimer (getElem?_stopTimer known) rfl ?_ _
    exact (id_eq_of_positions positions known :)

/-! ## Runs -/

theorem followAll_concat (s : Session R ν) (done : List (HostStep R)) (step : HostStep R) :
    s.followAll (done ++ [step]) = (s.followAll done).follow step :=
  List.foldl_concat ..

theorem ids_follow (numbered : s.IsNumbered) (step : HostStep R) :
    (s.follow step).interactors.map Interactor.id = s.interactors.map Interactor.id := by
  cases step with
  | operate op =>
    exact map_id_eq_of (fun _ _ same => same)
      (forall₂_perform Interactor.isLasting_id numbered op fun _ _ _ => rfl)
  | command id order =>
    rw [follow, command_interactors]
    exact map_id_eq_of (fun _ _ same => same)
      (forall₂_modify Interactor.isLasting_id.refl (fun a => a.obeyed_id order) id _)

/-- No timer of an interactor is running when it is built. -/
theorem timer_of_build {i : SceneInteractor R} {compiler : Compiler R} {maxObservations : Nat}
    {a : Interactor R ν} (built : i.build compiler maxObservations = .ok a) : a.timer = none := by
  refine of_build_eq_ok (fun a => a.timer = none) ?_ ?_ ?_ ?_ built
  · intro behaviors core _ made
    unfold Interactor.build at made
    split at made
    · cases made
    · obtain rfl := Except.ok.inj made
      rfl
  · intro core prior next still weighted
    obtain ⟨-, rfl⟩ := exists_of_withPrior weighted
    exact still
  · intro core statement next label still ruled
    obtain ⟨book, -, rfl⟩ := exists_of_addRule ruled
    exact still
  · intro core label next still claims
    obtain rfl := eq_of_claimOn claims
    exact still

theorem timer_ofScene {settings : Settings R} {scene : Scene R}
    (built : ofScene settings scene = .ok s) : ∀ a ∈ s.interactors, a.timer = none := by
  intro a member
  obtain ⟨i, -, core, id, made, rfl⟩ := exists_source (ofScene_interactors built).2 a member
  exact (timer_of_build made :)

/-- In the course of any run the interactors go by their positions. -/
theorem positions_run {settings : Settings R} {scene : Scene R}
    (built : ofScene settings scene = .ok s) (steps : List (HostStep R)) :
    (s.followAll steps).interactors.map Interactor.id =
      List.range (s.followAll steps).interactors.length := by
  have ids : (s.followAll steps).interactors.map Interactor.id =
      s.interactors.map Interactor.id := by
    induction steps using List.reverseRecOn with
    | nil => rfl
    | append_singleton done step ih =>
      rw [followAll_concat, ids_follow (isNumbered_followAll (isNumbered_ofScene built) done), ih]
  have length := congrArg List.length ids
  rw [List.length_map, List.length_map] at length
  rw [ids, (ofScene_new built).2.1, length]

/-- In the course of any run the timers and the requests agree. -/
theorem isTimed_run {settings : Settings R} {scene : Scene R}
    (built : ofScene settings scene = .ok s) (steps : List (HostStep R)) :
    (s.followAll steps).IsTimed := by
  induction steps using List.reverseRecOn with
  | nil =>
    have idle : s.queue = {} := by
      rw [(ofScene_interactors built).1]
      rfl
    refine ⟨idle ▸ TaskQueue.isSound_empty, idle ▸ TaskQueue.cancelsIssued_empty,
      fun i token => iff_of_false ?_ ?_⟩
    · rintro ⟨a, found, running⟩
      cases (timer_ofScene built a (List.mem_of_getElem? found)).symm.trans running
    · rintro ⟨due, waiting, -⟩
      rw [followAll, List.foldl_nil, idle] at waiting
      cases waiting
  | append_singleton done step ih =>
    have numbered := isNumbered_followAll (isNumbered_ofScene built) done
    rw [followAll_concat]
    exact ih.timerStep (positions_run built done) (timerStep_follow numbered step)

/-! ## Who comes up -/

omit [Scalar R] in
/-- Only an interactor that has a timer running comes up. -/
theorem IsTimed.holds_of_due (timed : s.IsTimed) {now : Millis} (due : i ∈ s.due now) :
    ∃ token, s.Holds i token := by
  obtain ⟨task, waiting, rfl, -, alive⟩ := (mem_due_iff timed.sound).1 due
  exact ⟨task.token, (timed.holds_iff _ _).2 ⟨task.due, waiting, alive⟩⟩

omit [Scalar R] in
/-- Every timer that is running runs down some day, if nothing happens before. -/
theorem IsTimed.exists_due (timed : s.IsTimed) (held : s.Holds i token) :
    ∃ now, i ∈ s.due now := by
  obtain ⟨due, waiting, alive⟩ := (timed.holds_iff i token).1 held
  exact ⟨due, (mem_due_iff timed.sound).2 ⟨_, waiting, rfl, Nat.le_max_right _ _, alive⟩⟩

omit [Scalar R] in
/-- The token of a timer is not cancelled while it is held. -/
theorem IsTimed.hasTimer_iff (timed : s.IsTimed) {a : Interactor R ν}
    (found : s.interactors[i]? = some a) :
    a.hasTimer s.queue = true ↔ ∃ token, s.Holds i token := by
  rw [Interactor.hasTimer, Option.any_eq_true]
  constructor
  · rintro ⟨token, running, -⟩
    exact ⟨token, a, found, running⟩
  · rintro ⟨token, held⟩
    have alive := timed.not_isCancelled held
    obtain ⟨b, found', running⟩ := held
    obtain rfl := Option.some.inj (found.symm.trans found')
    exact ⟨token, running, by rw [alive]; rfl⟩

/-- A timer that is not running stays so unless it is started. -/
theorem TimerStep.holds {step : HostStep R} (taken : s.TimerStep step s')
    (quiet : step.startsTimerOf i = false) (held : s'.Holds i token) : s.Holds i token := by
  cases taken with
  | released releases =>
    obtain ⟨b, found, running⟩ := held
    exact releases.timer_before found running
  | advanced releases =>
    obtain ⟨b, found, running⟩ := held
    exact (holds_timeOut_iff.1 (releases.timer_before found running)).1
  | @started id delay a known =>
    have differs : id ≠ i := by simpa [HostStep.startsTimerOf] using quiet
    obtain ⟨b, found, running⟩ := held
    have before : (s.stopTimer id a).interactors[i]? = some b := by
      rwa [startTimer, List.getElem?_set_ne differs] at found
    exact (releases_stopTimer known).timer_before before running

theorem holds_followAll (numbered : s.IsNumbered) {steps : List (HostStep R)}
    (quiet : ∀ step ∈ steps, step.startsTimerOf i = false)
    (held : (s.followAll steps).Holds i token) : s.Holds i token := by
  induction steps generalizing s with
  | nil => exact held
  | cons step rest ih =>
    have later := ih (isNumbered_follow numbered step)
      (fun later member => quiet later (List.mem_cons_of_mem _ member)) held
    exact (timerStep_follow numbered step).holds (quiet step List.mem_cons_self) later

/-- Resetting a session stops no timer. -/
theorem holds_resetAll : s.resetAll.Holds i token ↔ s.Holds i token := by
  simp only [Holds, resetAll, List.getElem?_map, Option.map_eq_some_iff]
  constructor
  · rintro ⟨-, ⟨a, found, rfl⟩, running⟩
    exact ⟨a, found, a.reset_timer ▸ running⟩
  · rintro ⟨a, found, running⟩
    exact ⟨a.reset, ⟨a, found, rfl⟩, a.reset_timer.trans running⟩

/-- The arbiter mediates only if somebody comes up. -/
theorem exists_due_of_outcome {now : Millis} (mediates : (s.advance now).outcome.isSome = true) :
    ∃ id, id ∈ s.due now := by
  rw [advance_eq] at mediates
  split at mediates
  · cases mediates
  · next somebody => exact List.exists_mem_of_ne_nil _ fun nobody => somebody (by simp [nobody])

end Session

open Session in
/-- Whatever a host has done with a session and its interactors, after a reset time brings up only
interactors of which a timer has been started since, and has the arbiter mediate only if one has
been started, exactly if no timer was running when the session was reset. -/
theorem resetAll_discards_timers_iff {settings : Settings R} {scene : Scene R} {s : Session R ν}
    (built : Session.ofScene settings scene = .ok s) (steps : List (HostStep R)) :
    let run := s.followAll steps
    (∀ later now,
      (∀ id ∈ (run.resetAll.followAll later).due now,
        ∃ step ∈ later, step.startsTimerOf id = true) ∧
      (((run.resetAll.followAll later).advance now).outcome.isSome = true →
        ∃ id, ∃ step ∈ later, step.startsTimerOf id = true)) ↔
      ∀ a ∈ run.interactors, a.hasTimer run.queue = false := by
  intro run
  have timed : run.IsTimed := isTimed_run built steps
  have later_timed (later : List (HostStep R)) : (run.resetAll.followAll later).IsTimed := by
    have whole := isTimed_run built (steps ++ .operate .resetAll :: later)
    rwa [followAll, List.foldl_append] at whole
  constructor
  · intro claims a member
    refine Bool.eq_false_iff.2 fun running => ?_
    obtain ⟨i, found⟩ := List.getElem?_of_mem member
    obtain ⟨token, held⟩ := (timed.hasTimer_iff found).1 running
    obtain ⟨now, due⟩ := (later_timed []).exists_due (holds_resetAll.2 held)
    obtain ⟨step, none, -⟩ := (claims [] now).1 i due
    cases none
  · intro stopped later now
    have started : ∀ id ∈ (run.resetAll.followAll later).due now,
        ∃ step ∈ later, step.startsTimerOf id = true := by
      intro id due
      by_contra nobody
      have quiet : ∀ step ∈ later, step.startsTimerOf id = false := fun step member =>
        Bool.eq_false_iff.2 fun starts => nobody ⟨step, member, starts⟩
      have numbered : run.IsNumbered := isNumbered_followAll (isNumbered_ofScene built) steps
      obtain ⟨token, held⟩ := (later_timed later).holds_of_due due
      have before : run.Holds id token := holds_resetAll.1
        (holds_followAll (isNumbered_follow numbered (.operate .resetAll)) quiet held)
      obtain ⟨a, found, running⟩ := before
      cases (stopped a (List.mem_of_getElem? found)).symm.trans
        ((timed.hasTimer_iff found).2 ⟨token, a, found, running⟩)
    refine ⟨started, fun mediates => ?_⟩
    obtain ⟨id, due⟩ := exists_due_of_outcome mediates
    exact ⟨id, started id due⟩

theorem resetAll_discards_timers_iff_alone :
    ∃ s : Session EReal Unit, Session.ofScene .default Twins.alone = .ok s ∧
      ∀ steps : List (HostStep EReal), (∀ later now,
        (∀ id ∈ ((s.followAll steps).resetAll.followAll later).due now,
          ∃ step ∈ later, step.startsTimerOf id = true) ∧
        ((((s.followAll steps).resetAll.followAll later).advance now).outcome.isSome = true →
          ∃ id, ∃ step ∈ later, step.startsTimerOf id = true)) ↔
        ∀ a ∈ (s.followAll steps).interactors, a.hasTimer (s.followAll steps).queue = false := by
  obtain ⟨s, c, built, -⟩ := @Twins.ofScene_alone Unit
  exact ⟨s, built, fun steps => resetAll_discards_timers_iff built steps⟩

/-- A single element whose timer is started. -/
theorem Twins.exists_started {ν : Type} : ∃ (s : Session EReal ν) (c : Interactor EReal ν),
    Session.ofScene .default alone = .ok s ∧ s.now = 0 ∧ c.id = 0 ∧
      s.follow (.operate (.selfExcludeAfter 0 100)) = { s with
        interactors := [{ c with timer := some 0 }]
        queue := { tasks := [⟨100, 0, 0⟩], issued := 1 } } := by
  obtain ⟨s, c, built, -, interactors, -, -, first⟩ := @ofScene_alone ν
  have bare := (Session.ofScene_interactors built).1
  have known : s.interactors[0]? = some c := by rw [interactors]; rfl
  have idle : c.timer = none := Session.timer_ofScene built c (by simp [interactors])
  refine ⟨s, c, built, by rw [bare]; rfl, first, ?_⟩
  rw [Session.follow, Session.perform, Session.selfExcludeAfter_eq known, Session.stopTimer,
    Session.startTimer, Interactor.cancelTimer, idle, first, interactors, bare]
  rfl

/-- A single element whose timer is started, and then the session is reset. When the timer has run
down, and nothing has happened since the reset, the element comes up and the arbiter mediates. -/
theorem timer_outlives_reset :
    ∃ s : Session EReal Unit, Session.ofScene .default Twins.alone = .ok s ∧
      let reset := (s.followAll [.operate (.selfExcludeAfter 0 100)]).resetAll
      0 ∈ reset.due 100 ∧ (reset.advance 100).outcome.isSome = true := by
  obtain ⟨s, c, built, -, -, started⟩ := @Twins.exists_started Unit
  refine ⟨s, built, ?_⟩
  intro reset
  have queue : reset.queue = { tasks := [⟨100, 0, 0⟩], issued := 1 } := by
    show (s.follow (.operate (.selfExcludeAfter 0 100))).queue = _
    rw [started]
  have timed : reset.IsTimed := Session.isTimed_run built
    [.operate (.selfExcludeAfter 0 100), .operate .resetAll]
  have due : 0 ∈ reset.due 100 :=
    (Session.mem_due_iff timed.sound).2
      ⟨⟨100, 0, 0⟩, by simp [queue], rfl, Nat.le_max_right _ _, by rw [queue]; rfl⟩
  refine ⟨due, ?_⟩
  have somebody : ¬ (reset.due 100).isEmpty = true := fun nobody => by
    rw [List.isEmpty_iff.1 nobody] at due
    cases due
  rw [Session.advance_eq, if_neg somebody]
  rfl

end TouchIntent
