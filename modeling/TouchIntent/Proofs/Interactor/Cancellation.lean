import TouchIntent.Proofs.Interactor.Requests

/-!
# When cancelled requests come up all the same

A run makes the token of every request that it takes out good for use again, also of those that it
drops because the token was cancelled. If another request has the same token, it is no longer
cancelled then, and is answered for when its turn comes. The main statement of this module says that
nothing else makes a cancelled request come up: a history drops all requests that are cancelled
while they wait, exactly if none of them is preceded, after the last time that its token was
cancelled, by another request with the token.
-/

namespace TouchIntent.TaskQueue

/-- The requests that wait when call `n` comes. -/
def waiting (calls : List Call) (n : Nat) : List Request :=
  (requests calls).filter fun r =>
    decide (r.number < n) && (r.run? calls).all fun m => decide (n ≤ m)

/-- Goes through waiting requests as a run does, and lists those that are due and not cancelled. -/
def answered (now : Millis) (cancelled : List CancelToken) : List Request → List Request
  | [] => []
  | r :: rest =>
    if now < r.task.due then answered now cancelled rest
    else
      let later := answered now (cancelled.filter (· != r.task.token)) rest
      if cancelled.contains r.task.token then later else r :: later

/-- The requests that call `n` is answered for. -/
def answeredBy (calls : List Call) (n : Nat) : List Request :=
  match calls[n]? with
  | some (.runDue now) => answered now (after (calls.take n)).cancelled (waiting calls n)
  | some (.schedule _) | some (.cancel _) | none => []

/-- Call `m` cancels a request while it waits for call `n`, which takes it out. -/
structure Request.IsCancelledAt (r : Request) (calls : List Call) (m n : Nat) : Prop where
  runs : r.run? calls = some n
  later : r.number < m
  earlier : m < n
  cancels : calls[m]? = some (.cancel r.task.token)

/-- A request is taken out after call `m` and before the turn of another, by an earlier run or by
the same one. -/
def Request.ComesBetween (r : Request) (calls : List Call) (m : Nat) (other : Request)
    (n : Nat) : Prop :=
  ∃ k, r.run? calls = some k ∧ m < k ∧ (k < n ∨ k = n ∧ r.number < other.number)

variable {calls : List Call} {r : Request} {n : Nat} {token : CancelToken}

/-! ## Single runs -/

/-- The interactors that a run answers with are those of the requests that it lets pass. -/
theorem runTasks_due_eq (now : Millis) (cancelled : List CancelToken) (rs : List Request) :
    (runTasks now cancelled (rs.map Request.task)).2.2 =
      (answered now cancelled rs).map fun r => r.task.interactor := by
  induction rs generalizing cancelled with
  | nil => rfl
  | cons r rest ih =>
    unfold answered
    rw [List.map_cons, runTasks]
    by_cases waits : now < r.task.due
    · rw [if_pos waits, if_pos waits]
      exact ih cancelled
    · rw [if_neg waits, if_neg waits]
      by_cases silent : cancelled.contains r.task.token = true
      · simp only [silent, if_true]
        exact ih _
      · simp only [silent, Bool.false_eq_true, if_false, List.map_cons]
        exact congrArg (r.task.interactor :: ·) (ih _)

/-- A run lets a request pass that is due, unless its token is cancelled and no request before it
has made the token good again. -/
theorem mem_answered_iff {now : Millis} {cancelled : List CancelToken} {rs : List Request}
    (ordered : rs.Pairwise fun r r' => r.number < r'.number) :
    r ∈ answered now cancelled rs ↔ r ∈ rs ∧ r.task.due ≤ now ∧
      (r.task.token ∈ cancelled → ∃ r' ∈ rs, r'.number < r.number ∧ r'.task.due ≤ now ∧
        r'.task.token = r.task.token) := by
  induction rs generalizing cancelled with
  | nil => simp [answered]
  | cons first rest ih =>
    obtain ⟨least, ordered⟩ := List.pairwise_cons.1 ordered
    rw [answered, List.exists_mem_cons_iff, List.mem_cons]
    by_cases waits : now < first.task.due
    · rw [if_pos waits, ih ordered]
      have notDue := Nat.not_le.2 waits
      constructor
      · rintro ⟨member, due, revived⟩
        exact ⟨.inr member, due, fun cancelled => .inr (revived cancelled)⟩
      · rintro ⟨rfl | member, due, revived⟩
        · exact absurd due notDue
        · exact ⟨member, due, fun cancelled =>
            (revived cancelled).resolve_left fun before => notDue before.2.1⟩
    · rw [if_neg waits]
      have due : first.task.due ≤ now := Nat.le_of_not_lt waits
      have passes : r ∈ (if cancelled.contains first.task.token then
            answered now (cancelled.filter (· != first.task.token)) rest
          else first :: answered now (cancelled.filter (· != first.task.token)) rest) ↔
          r ∈ answered now (cancelled.filter (· != first.task.token)) rest ∨
            r = first ∧ first.task.token ∉ cancelled := by
        by_cases silent : first.task.token ∈ cancelled <;> simp [silent, or_comm]
      rw [passes, ih ordered, List.mem_filter, bne_iff_ne]
      constructor
      · rintro (⟨member, comes, revived⟩ | ⟨rfl, alive⟩)
        · refine ⟨.inr member, comes, fun silent => ?_⟩
          by_cases same : first.task.token = r.task.token
          · exact .inl ⟨least r member, due, same⟩
          · exact .inr (revived ⟨silent, Ne.symm same⟩)
        · exact ⟨.inl rfl, due, fun silent => absurd silent alive⟩
      · rintro ⟨rfl | member, comes, revived⟩
        · refine .inr ⟨rfl, fun silent => ?_⟩
          rcases revived silent with ⟨less, -⟩ | ⟨r', member, less, -⟩
          · exact Nat.lt_irrefl _ less
          · exact Nat.lt_asymm less (least r' member)
        · exact .inl ⟨member, comes, fun ⟨silent, differs⟩ =>
            (revived silent).resolve_left fun before => differs before.2.2.symm⟩

/-! ## Histories -/

theorem mem_waiting_iff : r ∈ waiting calls n ↔
    r ∈ requests calls ∧ r.number < n ∧ ∀ m, r.run? calls = some m → n ≤ m := by
  simp [waiting, List.mem_filter, Option.all_eq_true]

/-- A call takes out the requests that it finds waiting and has come to the time of. -/
theorem run?_eq_some_iff_reaches {call : Call} (here : calls[n]? = some call)
    (made : r ∈ requests calls) :
    r.run? calls = some n ↔ r ∈ waiting calls n ∧ call.reaches r.task = true := by
  rw [Call.reaches_iff, mem_waiting_iff]
  constructor
  · intro runs
    obtain ⟨now, here', -⟩ := (run?_eq_some_iff.1 runs).reached
    rw [here] at here'
    obtain rfl := Option.some.inj here'
    obtain ⟨due, waits⟩ := (run?_eq_some_iff_of_runDue here).1 runs
    exact ⟨⟨made, waits⟩, now, rfl, due⟩
  · rintro ⟨⟨-, waits⟩, now, rfl, due⟩
    exact (run?_eq_some_iff_of_runDue here).2 ⟨due, waits⟩

/-- A call cancels the token that it is given, and makes those good for use that are on requests
which it takes out. -/
theorem mem_cancelled_perform_iff (q : TaskQueue) (call : Call) :
    token ∈ (q.perform call).cancelled ↔ call = .cancel token ∨
      token ∈ q.cancelled ∧ ∀ task ∈ q.tasks, call.reaches task = true → task.token ≠ token := by
  cases call with
  | schedule task => simp [perform, schedule, Call.reaches]
  | cancel other => simp [perform, cancel, Call.reaches, List.mem_insert_iff, eq_comm]
  | runDue now =>
    have ran : ((q.perform (.runDue now)).cancelled) =
        (runTasks now q.cancelled q.tasks).2.1 := rfl
    rw [ran, mem_runTasks_cancelled_iff]
    simp [Call.reaches]

theorem mem_cancelled_after_succ_iff : token ∈ (after (calls.take (n + 1))).cancelled ↔
    calls[n]? = some (.cancel token) ∨ token ∈ (after (calls.take n)).cancelled ∧
      ∀ r ∈ requests calls, r.task.token = token → r.run? calls ≠ some n := by
  rw [List.take_add_one]
  cases here : calls[n]? with
  | none =>
    have quiet (r : Request) : r.run? calls ≠ some n := fun runs => by
      obtain ⟨now, here', -⟩ := (run?_eq_some_iff.1 runs).reached
      rw [here] at here'
      cases here'
    simp [quiet]
  | some call =>
    rw [Option.toList_some, after_concat, mem_cancelled_perform_iff, Option.some_inj,
      tasks_after_take]
    refine or_congr_right (and_congr_right fun _ => ?_)
    rw [List.forall_mem_map]
    constructor
    · intro others r made same runs
      obtain ⟨waits, reaches⟩ := (run?_eq_some_iff_reaches here made).1 runs
      exact others r waits reaches same
    · intro others r waits reaches same
      have made := (mem_waiting_iff.1 waits).1
      exact others r made same ((run?_eq_some_iff_reaches here made).2 ⟨waits, reaches⟩)

/-- A token is cancelled when call `n` comes, if a call has cancelled it and no request that has it
has been taken out since. -/
theorem mem_cancelled_after_take_iff : token ∈ (after (calls.take n)).cancelled ↔
    ∃ m, m < n ∧ calls[m]? = some (.cancel token) ∧ ∀ r ∈ requests calls, r.task.token = token →
      ∀ k, r.run? calls = some k → m < k → n ≤ k := by
  induction n with
  | zero => simp [after]
  | succ n ih =>
    rw [mem_cancelled_after_succ_iff, ih]
    constructor
    · rintro (cancels | ⟨⟨m, before, cancels, quiet⟩, none⟩)
      · exact ⟨n, Nat.lt_succ_self n, cancels, fun r _ _ k _ later => later⟩
      · refine ⟨m, Nat.lt_succ_of_lt before, cancels, fun r made same k runs later => ?_⟩
        refine Nat.lt_of_le_of_ne (quiet r made same k runs later) ?_
        rintro rfl
        exact none r made same runs
    · rintro ⟨m, before, cancels, quiet⟩
      rcases Nat.lt_succ_iff_lt_or_eq.1 before with earlier | rfl
      · refine .inr ⟨⟨m, earlier, cancels, fun r made same k runs later => ?_⟩, ?_⟩
        · exact Nat.le_of_succ_le (quiet r made same k runs later)
        · intro r made same runs
          exact Nat.not_succ_le_self n (quiet r made same n runs earlier)
      · exact .inl cancels

/-- A call is answered with the interactors of the requests that it is answered for. -/
theorem answer_eq_map_answeredBy {call : Call} (here : calls[n]? = some call) :
    (after (calls.take n)).answer call =
      (answeredBy calls n).map fun r => r.task.interactor := by
  rw [answeredBy, here]
  cases call with
  | schedule | cancel => rfl
  | runDue now =>
    have tasks : (after (calls.take n)).tasks = (waiting calls n).map Request.task :=
      tasks_after_take calls n
    show (runTasks now (after (calls.take n)).cancelled (after (calls.take n)).tasks).2.2 = _
    rw [tasks, runTasks_due_eq]

/-- A request is answered for when it is taken out, unless its token has been cancelled and no
request that has it has been taken out since. -/
theorem mem_answeredBy_iff (made : r ∈ requests calls) (runs : r.run? calls = some n) :
    r ∈ answeredBy calls n ↔ ∀ m, m < n → calls[m]? = some (.cancel r.task.token) →
      ∃ r' ∈ requests calls, r'.task.token = r.task.token ∧ r'.ComesBetween calls m r n := by
  obtain ⟨now, here, -⟩ := (run?_eq_some_iff.1 runs).reached
  have ordered : (waiting calls n).Pairwise fun r r' => r.number < r'.number :=
    (pairwise_number calls).sublist List.filter_sublist
  obtain ⟨waits, reaches⟩ := (run?_eq_some_iff_reaches here made).1 runs
  have due : r.task.due ≤ now := by simpa [Call.reaches] using reaches
  have together : (∃ r' ∈ waiting calls n, r'.number < r.number ∧ r'.task.due ≤ now ∧
      r'.task.token = r.task.token) ↔ ∃ r' ∈ requests calls, r'.task.token = r.task.token ∧
        r'.run? calls = some n ∧ r'.number < r.number := by
    constructor
    · rintro ⟨r', waits, less, due, same⟩
      have made := (mem_waiting_iff.1 waits).1
      have taken :=
        (run?_eq_some_iff_reaches here made).2 ⟨waits, by simpa [Call.reaches] using due⟩
      exact ⟨r', made, same, taken, less⟩
    · rintro ⟨r', made, same, taken, less⟩
      obtain ⟨waits, reaches⟩ := (run?_eq_some_iff_reaches here made).1 taken
      exact ⟨r', waits, less, by simpa [Call.reaches] using reaches, same⟩
  rw [answeredBy, here]
  simp only
  rw [mem_answered_iff ordered, mem_cancelled_after_take_iff, together]
  constructor
  · rintro ⟨-, -, revived⟩ m before cancels
    by_contra none
    -- No request with the token comes between, so it is still cancelled when the run begins.
    obtain ⟨r', made, same, taken, less⟩ := revived ⟨m, before, cancels,
      fun r' made same k taken later => Nat.le_of_not_lt fun early =>
        none ⟨r', made, same, k, taken, later, .inl early⟩⟩
    exact none ⟨r', made, same, n, taken, before, .inr ⟨rfl, less⟩⟩
  · intro between
    refine ⟨waits, due, ?_⟩
    rintro ⟨m, before, cancels, quiet⟩
    obtain ⟨r', made, same, k, taken, later, early | ⟨rfl, less⟩⟩ := between m before cancels
    · exact absurd early (Nat.not_lt.2 (quiet r' made same k taken later))
    · exact ⟨r', made, same, taken, less⟩

/-- A request that is cancelled while it waits is dropped, exactly if the last time that its token
is cancelled comes after all other requests with the token that come before it. -/
theorem not_mem_answeredBy_iff {m : Nat} (made : r ∈ requests calls)
    (silenced : r.IsCancelledAt calls m n) : r ∉ answeredBy calls n ↔
      ∃ m', r.IsCancelledAt calls m' n ∧ ∀ r' ∈ requests calls, r'.task.token = r.task.token →
        ¬ r'.ComesBetween calls m' r n := by
  rw [mem_answeredBy_iff made silenced.runs]
  constructor
  · intro revived
    obtain ⟨m', quiet⟩ := not_forall.1 revived
    obtain ⟨before, quiet⟩ := Classical.not_imp.1 quiet
    obtain ⟨cancels, quiet⟩ := Classical.not_imp.1 quiet
    -- That may have been before the request was made; then nothing comes after call `m` either.
    by_cases made' : r.number < m'
    · exact ⟨m', ⟨silenced.runs, made', before, cancels⟩, fun r' made same between =>
        quiet ⟨r', made, same, between⟩⟩
    · refine ⟨m, silenced, fun r' made same ⟨k, taken, later, turn⟩ => ?_⟩
      have earlier : m' < m := Nat.lt_of_le_of_lt (Nat.le_of_not_lt made') silenced.later
      exact quiet ⟨r', made, same, k, taken, Nat.lt_trans earlier later, turn⟩
  · rintro ⟨m', last, quiet⟩ between
    obtain ⟨r', made, same, comes⟩ := between m' last.earlier last.cancels
    exact quiet r' made same comes

/-- Every call is answered with the interactors of the requests that it is said to be answered for.
Of these none is cancelled while it waits, exactly if every request that is cancelled while it waits
is so once more after all other requests with its token that come before it. -/
theorem cancelled_dropped_iff (calls : List Call) :
    (∀ n call, calls[n]? = some call → (after (calls.take n)).answer call =
      (answeredBy calls n).map fun r => r.task.interactor) ∧
    ((∀ r ∈ requests calls, ∀ m n, r.IsCancelledAt calls m n → r ∉ answeredBy calls n) ↔
      ∀ r ∈ requests calls, ∀ m n, r.IsCancelledAt calls m n →
        ∃ m', r.IsCancelledAt calls m' n ∧ ∀ r' ∈ requests calls, r'.task.token = r.task.token →
          ¬ r'.ComesBetween calls m' r n) := by
  refine ⟨fun n call here => answer_eq_map_answeredBy here, ?_⟩
  refine forall₂_congr fun r made => forall₂_congr fun m n => forall_congr' fun silenced => ?_
  exact not_mem_answeredBy_iff made silenced

/-- Two requests that share a token and are due at the same time. After the token is cancelled, the
first is dropped and the second comes up. -/
theorem sharedToken_revived :
    let calls : List Call := [.schedule ⟨10, 0, 0⟩, .schedule ⟨10, 1, 0⟩, .cancel 0, .runDue 10]
    (after (calls.take 3)).answer (.runDue 10) = [1] ∧
      ¬ ∀ r ∈ requests calls, ∀ m n, r.IsCancelledAt calls m n → r ∉ answeredBy calls n := by
  intro calls
  refine ⟨rfl, fun silent => ?_⟩
  refine silent ⟨1, ⟨10, 1, 0⟩⟩ ?_ 2 3 ⟨rfl, by decide, by decide, rfl⟩ ?_
  · exact List.mem_cons_of_mem _ (List.mem_singleton_self _)
  · exact List.mem_singleton_self _

end TouchIntent.TaskQueue
