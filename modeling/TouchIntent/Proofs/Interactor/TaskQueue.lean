import Mathlib.Data.List.Nodup
import TouchIntent.Interactor.TaskQueue

/-!
# The queue of deferred requests

No two requests that wait share a token, whatever is scheduled, cancelled and run. This is why a
cancelled request stays cancelled: when a request is dropped its token becomes good for use again,
and if another request had the same token that one would come to life.
-/

namespace TouchIntent.TaskQueue

/-- The tokens of the waiting requests have been issued, each to one of them. -/
structure IsSound (q : TaskQueue) : Prop where
  distinct : (q.tasks.map DeferredTask.token).Nodup
  issued : ∀ task ∈ q.tasks, task.token < q.issued

/-- Every waiting request has been cancelled. -/
def IsDead (q : TaskQueue) : Prop := ∀ task ∈ q.tasks, q.isCancelled task.token = true

variable {q : TaskQueue} {now : Millis}

@[simp] theorem isCancelled_cancel (q : TaskQueue) (token other : CancelToken) :
    (q.cancel token).isCancelled other = (decide (other = token) || q.isCancelled other) := by
  simp [isCancelled, cancel, List.mem_insert_iff]

/-- The requests that are left waiting are those that are not due, in their order. -/
theorem runTasks_kept_eq_filter (now : Millis) (tasks : List DeferredTask)
    (cancelled : List CancelToken) :
    (runTasks now cancelled tasks).1 = tasks.filter fun task => decide (now < task.due) := by
  induction tasks generalizing cancelled with
  | nil => rfl
  | cons task rest ih =>
    unfold runTasks
    by_cases waits : now < task.due
    · rw [if_pos waits, List.filter_cons_of_pos (by simpa using waits)]
      exact congrArg (task :: ·) (ih cancelled)
    · rw [if_neg waits, List.filter_cons_of_neg (by simpa using waits)]
      exact ih _

/-- Requests that are gone through leave some of them waiting, in their order. -/
theorem runTasks_sublist (now : Millis) (tasks : List DeferredTask) (cancelled : List CancelToken) :
    (runTasks now cancelled tasks).1.Sublist tasks := by
  rw [runTasks_kept_eq_filter]
  exact List.filter_sublist

theorem mem_runTasks_kept {tasks : List DeferredTask} {cancelled : List CancelToken}
    {task : DeferredTask} :
    task ∈ (runTasks now cancelled tasks).1 ↔ task ∈ tasks ∧ now < task.due := by
  rw [runTasks_kept_eq_filter, List.mem_filter, decide_eq_true_eq]

/-- Going through requests makes the tokens of those that are due good for use again, and cancels
none. -/
theorem mem_runTasks_cancelled_iff {token : CancelToken} {tasks : List DeferredTask}
    {cancelled : List CancelToken} : token ∈ (runTasks now cancelled tasks).2.1 ↔
      token ∈ cancelled ∧ ∀ task ∈ tasks, task.due ≤ now → task.token ≠ token := by
  induction tasks generalizing cancelled with
  | nil => simp [runTasks]
  | cons task rest ih =>
    unfold runTasks
    rw [List.forall_mem_cons]
    by_cases waits : now < task.due
    · rw [if_pos waits, ih]
      simp [Nat.not_le.2 waits]
    · rw [if_neg waits, ih]
      simp only [List.mem_filter, bne_iff_ne, Nat.le_of_not_lt waits, true_imp_iff]
      rw [and_assoc, ne_comm]

section Distinct

variable {tasks : List DeferredTask} (distinct : (tasks.map DeferredTask.token).Nodup)
include distinct

/-- Where tokens differ, a request that is left waiting is as cancelled as before. -/
theorem mem_runTasks_cancelled {cancelled : List CancelToken} {task : DeferredTask}
    (member : task ∈ tasks) (later : now < task.due) :
    task.token ∈ (runTasks now cancelled tasks).2.1 ↔ task.token ∈ cancelled := by
  rw [mem_runTasks_cancelled_iff, and_iff_left]
  intro other waiting due same
  obtain rfl := List.inj_on_of_nodup_map distinct waiting member same
  exact Nat.not_lt.2 due later

/-- Where tokens differ, what comes up are the interactors of the requests that are due and have not
been cancelled, in the order of the requests. -/
theorem runTasks_due_eq_filter (cancelled : List CancelToken) : (runTasks now cancelled tasks).2.2 =
    (tasks.filter fun task => decide (task.due ≤ now) && !cancelled.contains task.token).map
      DeferredTask.interactor := by
  induction tasks generalizing cancelled with
  | nil => rfl
  | cons first rest ih =>
    obtain ⟨fresh, distinct⟩ := List.nodup_cons.1 distinct
    unfold runTasks
    rw [List.filter_cons]
    by_cases waits : now < first.due
    · rw [if_pos waits, if_neg (by simp [Nat.not_le.2 waits])]
      exact ih distinct cancelled
    · have others : (rest.filter fun task => decide (task.due ≤ now) &&
          !(cancelled.filter (· != first.token)).contains task.token) =
          rest.filter fun task => decide (task.due ≤ now) && !cancelled.contains task.token := by
        refine List.filter_congr fun task member => ?_
        have differs : task.token ≠ first.token :=
          fun same => fresh (same ▸ List.mem_map_of_mem member)
        simp [List.mem_filter, differs]
      rw [if_neg waits]
      show (if cancelled.contains first.token then _ else _) = _
      rw [ih distinct, others, decide_eq_true (Nat.le_of_not_lt waits)]
      cases cancelled.contains first.token <;> rfl

theorem mem_runTasks_due {cancelled : List CancelToken} {id : InteractorId} :
    id ∈ (runTasks now cancelled tasks).2.2 ↔
      ∃ task ∈ tasks, task.interactor = id ∧ task.due ≤ now ∧ task.token ∉ cancelled := by
  rw [runTasks_due_eq_filter distinct]
  simp only [List.mem_map, List.mem_filter, Bool.and_eq_true, decide_eq_true_eq,
    List.contains_eq_mem, Bool.not_eq_true', decide_eq_false_iff_not]
  exact exists_congr fun task => by tauto

end Distinct

/-! ## What operations do to a queue -/

theorem isSound_empty : IsSound {} := ⟨List.nodup_nil, fun _ member => by cases member⟩

/-- A request with a new token. -/
theorem IsSound.schedule (sound : q.IsSound) (due : Millis) (interactor : InteractorId) :
    (q.issue.2.schedule ⟨due, interactor, q.issue.1⟩).IsSound where
  distinct := by
    have fresh : q.issued ∉ q.tasks.map DeferredTask.token := by
      intro member
      obtain ⟨task, waiting, same⟩ := List.mem_map.1 member
      exact Nat.lt_irrefl _ (same ▸ sound.issued task waiting)
    show ((q.tasks ++ [_]).map DeferredTask.token).Nodup
    rw [List.map_append, List.map_singleton]
    exact List.nodup_append_comm.1 (List.nodup_cons.2 ⟨fresh, sound.distinct⟩)
  issued := by
    intro task waiting
    show task.token < q.issued + 1
    rcases List.mem_append.1 waiting with before | added
    · exact Nat.lt_succ_of_lt (sound.issued task before)
    · obtain rfl := List.mem_singleton.1 added
      exact Nat.lt_succ_self _

theorem IsSound.runDue (sound : q.IsSound) (now : Millis) : (q.runDue now).1.IsSound where
  distinct := sound.distinct.sublist ((runTasks_sublist now q.tasks q.cancelled).map _)
  issued task member :=
    sound.issued task ((runTasks_sublist now q.tasks q.cancelled).subset member)

/-- Only tokens that have been issued are cancelled, so a new token is good for use. -/
def CancelsIssued (q : TaskQueue) : Prop := ∀ token, q.isCancelled token = true → token < q.issued

theorem cancelsIssued_empty : CancelsIssued {} := fun _ cancelled => by cases cancelled

theorem CancelsIssued.schedule (cancels : q.CancelsIssued) (task : DeferredTask) :
    (q.issue.2.schedule task).CancelsIssued :=
  fun token cancelled => Nat.lt_succ_of_lt (cancels token cancelled)

theorem CancelsIssued.runDue (cancels : q.CancelsIssued) (now : Millis) :
    (q.runDue now).1.CancelsIssued := by
  intro token cancelled
  have after : token ∈ (runTasks now q.cancelled q.tasks).2.1 := List.contains_iff_mem.1 cancelled
  exact cancels token (List.contains_iff_mem.2 (mem_runTasks_cancelled_iff.1 after).1)

/-- A request that is left waiting is as cancelled as before. -/
theorem isCancelled_runDue (sound : q.IsSound) {task : DeferredTask} (member : task ∈ q.tasks)
    (later : now < task.due) :
    (q.runDue now).1.isCancelled task.token = q.isCancelled task.token := by
  rw [Bool.eq_iff_iff, isCancelled, isCancelled, List.contains_iff_mem, List.contains_iff_mem]
  exact mem_runTasks_cancelled sound.distinct member later

/-- Nothing comes of the requests of a dead queue, and it stays dead. -/
theorem IsDead.runDue (dead : q.IsDead) (sound : q.IsSound) (now : Millis) :
    (q.runDue now).2 = [] ∧ (q.runDue now).1.IsDead := by
  constructor
  · refine List.eq_nil_iff_forall_not_mem.2 fun id comes => ?_
    obtain ⟨task, member, -, -, alive⟩ := (mem_runTasks_due sound.distinct).1 comes
    exact alive (by simpa [isCancelled] using dead task member)
  · intro task member
    obtain ⟨before, later⟩ := mem_runTasks_kept.1 member
    rw [isCancelled_runDue sound before later]
    exact dead task before

end TouchIntent.TaskQueue
