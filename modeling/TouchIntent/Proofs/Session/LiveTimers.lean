import TouchIntent.Proofs.Session.Timers

/-!
# One live timer for each interactor

A request that waits is *live* while its token is not cancelled. Of the requests of an interactor at
most one is live, the one under the token that the interactor holds: starting a timer cancels the
request of the timer before, whoever claims or is taken back cancels its request, and when time
passes a request that is due is taken out together with the timer. The main statement of this module
says that the interactors and the queue agree on this after any run.
-/

namespace TouchIntent

variable {R ν : Type} [Scalar R]

namespace Session

/-- The requests of an interactor that wait and are not cancelled. -/
def live (s : Session R ν) (id : InteractorId) : List DeferredTask :=
  s.queue.tasks.filter fun task => task.interactor == id && !s.queue.isCancelled task.token

variable {s : Session R ν} {i : InteractorId} {a : Interactor R ν} {token : CancelToken}

omit [Scalar R] in
/-- What is live is the request under the token that the interactor holds. -/
theorem IsTimed.mem_live_iff (timed : s.IsTimed) (found : s.interactors[i]? = some a)
    {task : DeferredTask} :
    task ∈ s.live i ↔ task ∈ s.queue.tasks ∧ task.interactor = i ∧ a.timer = some task.token := by
  rw [live, List.mem_filter]
  refine and_congr_right fun waiting => ?_
  rw [Bool.and_eq_true, beq_iff_eq, Bool.not_eq_true']
  refine and_congr_right fun own => ?_
  subst own
  constructor
  · intro alive
    obtain ⟨b, found', running⟩ := (timed.holds_iff _ _).2 ⟨task.due, waiting, alive⟩
    obtain rfl := Option.some.inj (found.symm.trans found')
    exact running
  · exact fun running => timed.not_isCancelled ⟨a, found, running⟩

omit [Scalar R] in
theorem IsTimed.live_eq_nil (timed : s.IsTimed) (found : s.interactors[i]? = some a)
    (idle : a.timer = none) : s.live i = [] := by
  refine List.eq_nil_iff_forall_not_mem.2 fun task member => ?_
  obtain ⟨-, -, running⟩ := (timed.mem_live_iff found).1 member
  cases idle.symm.trans running

omit [Scalar R] in
/-- The tokens of the requests differ, so that only one is under the token that is held. -/
theorem IsTimed.live_eq_singleton (timed : s.IsTimed) (found : s.interactors[i]? = some a)
    {due : Millis} (waiting : ⟨due, i, token⟩ ∈ s.queue.tasks) (running : a.timer = some token) :
    s.live i = [⟨due, i, token⟩] := by
  have member : ⟨due, i, token⟩ ∈ s.live i :=
    (timed.mem_live_iff found).2 ⟨waiting, rfl, running⟩
  have only : ∀ other ∈ s.live i, other = ⟨due, i, token⟩ := by
    intro other live
    obtain ⟨waiting', -, running'⟩ := (timed.mem_live_iff found).1 live
    exact List.inj_on_of_nodup_map timed.sound.distinct waiting' waiting
      (Option.some.inj (running'.symm.trans running))
  have distinct : (s.live i).Nodup := timed.sound.distinct.of_map.filter _
  rw [List.eq_replicate_of_mem only] at member distinct ⊢
  have once : (s.live i).length = 1 :=
    Nat.le_antisymm (List.nodup_replicate.1 distinct)
      (Nat.pos_of_ne_zero (List.mem_replicate.1 member).1)
  rw [once]
  rfl

omit [Scalar R] in
theorem IsTimed.live_startTimer (timed : s.IsTimed) (found : s.interactors[i]? = some a)
    (idle : a.timer = none) (same : a.id = i) (due : Millis) :
    (s.startTimer i a due).live i = [⟨due, i, s.queue.issued⟩] := by
  refine (timed.startTimer found idle same due).live_eq_singleton
    (List.getElem?_set_self (List.getElem?_eq_some_iff.1 found).1) ?_ rfl
  exact List.mem_append_right _ (List.mem_singleton.2 (by rw [same]))

end Session

open Session in
/-- Whatever a host has done with a session and its interactors, an interactor has at most one
request that waits and is not cancelled, and has one exactly if its timer is running. -/
theorem live_eq_one_iff {settings : Settings R} {scene : Scene R} {s : Session R ν}
    (built : Session.ofScene settings scene = .ok s) (steps : List (HostStep R)) :
    let run := s.followAll steps
    ∀ i a, run.interactors[i]? = some a →
      (run.live i).length ≤ 1 ∧
      ((run.live i).length = 1 ↔ a.hasTimer run.queue = true) := by
  intro run i a found
  have timed : run.IsTimed := isTimed_run built steps
  rw [timed.hasTimer_iff found]
  cases running : a.timer with
  | none =>
    rw [timed.live_eq_nil found running]
    refine ⟨Nat.zero_le _, iff_of_false (Nat.ne_of_lt Nat.zero_lt_one) ?_⟩
    rintro ⟨token, b, found', holds⟩
    obtain rfl := Option.some.inj (found.symm.trans found')
    cases running.symm.trans holds
  | some token =>
    have held : run.Holds i token := ⟨a, found, running⟩
    obtain ⟨due, waiting, -⟩ := (timed.holds_iff i token).1 held
    rw [timed.live_eq_singleton found waiting running]
    exact ⟨Nat.le_refl 1, iff_of_true rfl ⟨token, held⟩⟩

open Session in
/-- Starting a timer replaces the one before, whatever a host has done: of the requests of the
interactor the new one is live, and no other. -/
theorem live_of_restart {settings : Settings R} {scene : Scene R} {s : Session R ν}
    (built : Session.ofScene settings scene = .ok s) (steps : List (HostStep R)) :
    let run := s.followAll steps
    ∀ i a, run.interactors[i]? = some a → ∀ delay,
      (run.follow (.operate (.selfExcludeAfter i delay))).live i =
        [⟨Millis.later run.now delay, i, run.queue.issued⟩] := by
  intro run i a known delay
  have released := releases_stopTimer known
  have same : a.id = i := id_eq_of_positions (positions_run built steps) known
  rw [follow, perform, selfExcludeAfter_eq known, ← released.issued]
  exact ((isTimed_run built steps).release released).live_startTimer (getElem?_stopTimer known) rfl
    same _

/-- A single element whose timer is started twice: two requests wait, the first of them cancelled,
and the other is live. -/
theorem live_eq_one_iff_restarted :
    ∃ s : Session EReal Unit, Session.ofScene .default Twins.alone = .ok s ∧
      let run := s.followAll
        [.operate (.selfExcludeAfter 0 100), .operate (.selfExcludeAfter 0 200)]
      run.queue.pending = 2 ∧ run.queue.isCancelled 0 = true ∧ run.live 0 = [⟨200, 0, 1⟩] ∧
        ∃ a, run.interactors[0]? = some a ∧ a.hasTimer run.queue = true ∧
          (run.live 0).length = 1 := by
  obtain ⟨s, c, built, now, first, started⟩ := @Twins.exists_started Unit
  refine ⟨s, built, ?_⟩
  intro run
  have restarted : run.live 0 = _ := live_of_restart built [.operate (.selfExcludeAfter 0 100)] 0
    { c with timer := some 0 } (congrArg (fun s => s.interactors[0]?) started) 200
  have twice : run = { s with
      interactors := [{ c with timer := some 1 }]
      queue := { tasks := [⟨100, 0, 0⟩, ⟨200, 0, 1⟩], cancelled := [0], issued := 2 } } := by
    show (s.follow (.operate (.selfExcludeAfter 0 100))).follow
      (.operate (.selfExcludeAfter 0 200)) = _
    rw [started, Session.follow, Session.perform, Session.selfExcludeAfter, Session.interactor?,
      List.getElem?_cons_zero, Option.map_some, Option.getD_some, Interactor.selfExcludeAfter,
      first, now]
    rfl
  have found : run.interactors[0]? = some { c with timer := some 1 } := by
    rw [twice]
    rfl
  have running : Interactor.hasTimer { c with timer := some 1 } run.queue = true := by
    rw [twice]
    rfl
  refine ⟨by rw [twice]; rfl, by rw [twice]; rfl, ?_, _, found, running, ?_⟩
  · rw [restarted, Session.followAll, List.foldl_cons, List.foldl_nil, started, now]
    rfl
  · exact (live_eq_one_iff built _ 0 _ found).2.2 running

end TouchIntent
