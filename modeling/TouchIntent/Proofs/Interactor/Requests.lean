import Mathlib.Data.List.Induction
import Mathlib.Data.List.Nodup
import TouchIntent.Proofs.Interactor.TaskQueue

/-!
# When deferred requests come up

A host calls a queue in any order: it makes requests, cancels tokens, which requests may share, and
runs what is due by a clock that may go backwards. The requests of such a history are told apart by
the number of the call that made them. The main statement of this module says that a request waits
from that call on until the first run that has come to its time, and that each answer of the queue
stands for some of the requests that the run takes out, in the order in which they were made. So no
request is answered for twice, or before its time.
-/

namespace TouchIntent.TaskQueue

/-- A call of the host. -/
inductive Call where
  | schedule (task : DeferredTask)
  | cancel (token : CancelToken)
  | runDue (now : Millis)

/-- The request that a call makes. -/
def Call.task? : Call → Option DeferredTask
  | schedule task => some task
  | cancel _ | runDue _ => none

/-- The call runs what is due, and has come to the time of a request. -/
def Call.reaches (task : DeferredTask) : Call → Bool
  | runDue now => decide (task.due ≤ now)
  | schedule _ | cancel _ => false

/-- The queue after a call. -/
def perform (q : TaskQueue) : Call → TaskQueue
  | .schedule task => q.schedule task
  | .cancel token => q.cancel token
  | .runDue now => (q.runDue now).1

/-- The interactors that a call brings up. -/
def answer (q : TaskQueue) : Call → List InteractorId
  | .runDue now => (q.runDue now).2
  | .schedule _ | .cancel _ => []

/-- The queue after calls, one after the other. -/
def after (calls : List Call) : TaskQueue := calls.foldl perform {}

/-- A request, with the number of the call that made it. -/
structure Request where
  number : Nat
  task : DeferredTask

/-- The requests of a history, in the order in which they were made. -/
def requests (calls : List Call) : List Request :=
  calls.zipIdx.filterMap fun (call, number) => call.task?.map (Request.mk number)

/-- The number of the call that takes a request out: of those after it was made, the first run that
has come to its time. -/
def Request.run? (r : Request) (calls : List Call) : Option Nat :=
  ((calls.drop (r.number + 1)).findIdx? (Call.reaches r.task)).map (r.number + 1 + ·)

/-- Call `n` is the first run after a request was made that has come to its time. -/
structure Request.RunsAt (r : Request) (calls : List Call) (n : Nat) : Prop where
  later : r.number < n
  reached : ∃ now, calls[n]? = some (.runDue now) ∧ r.task.due ≤ now
  first : ∀ m now, r.number < m → m < n → calls[m]? = some (.runDue now) → now < r.task.due

variable {calls : List Call} {call : Call} {r : Request} {n : Nat}

@[simp] theorem after_concat (calls : List Call) (call : Call) :
    after (calls ++ [call]) = (after calls).perform call := by
  rw [after, List.foldl_append]
  rfl

/-- Only a run reaches requests. -/
theorem Call.reaches_iff {task : DeferredTask} :
    call.reaches task = true ↔ ∃ now, call = .runDue now ∧ task.due ≤ now := by
  cases call <;> simp [reaches]

/-! ## Going through the queue -/

/-- The answer of a run stands for some of the requests that are due, in their order. -/
theorem exists_sublist_runTasks_due (now : Millis) (tasks : List DeferredTask)
    (cancelled : List CancelToken) :
    ∃ ran : List DeferredTask, ran.Sublist (tasks.filter fun task => decide (task.due ≤ now)) ∧
      (runTasks now cancelled tasks).2.2 = ran.map DeferredTask.interactor := by
  induction tasks generalizing cancelled with
  | nil => exact ⟨[], .slnil, rfl⟩
  | cons task rest ih =>
    unfold runTasks
    by_cases waits : now < task.due
    · rw [if_pos waits, List.filter_cons_of_neg (by simpa using waits)]
      exact ih cancelled
    · rw [if_neg waits, List.filter_cons_of_pos (by simpa using waits)]
      obtain ⟨ran, sublist, due⟩ := ih (cancelled.filter (· != task.token))
      by_cases silent : cancelled.contains task.token = true
      · refine ⟨ran, sublist.cons task, ?_⟩
        simp only [silent, if_true]
        exact due
      · refine ⟨task :: ran, sublist.cons_cons task, ?_⟩
        simp only [silent, Bool.false_eq_true, if_false, List.map_cons]
        exact congrArg (task.interactor :: ·) due

/-! ## Numbered requests -/

theorem requests_concat (calls : List Call) (call : Call) :
    requests (calls ++ [call]) =
      requests calls ++ (call.task?.map (Request.mk calls.length)).toList := by
  rw [requests, List.zipIdx_append, List.filterMap_append, requests]
  cases request : call.task? <;> simp [request]

/-- A request is made by one of the calls. -/
theorem number_lt (member : r ∈ requests calls) : r.number < calls.length := by
  obtain ⟨⟨call, number⟩, listed, made⟩ := List.mem_filterMap.1 member
  obtain ⟨task, -, rfl⟩ := Option.map_eq_some_iff.1 made
  exact List.snd_lt_of_mem_zipIdx listed

/-- Requests are numbered in their order. -/
theorem pairwise_number (calls : List Call) :
    (requests calls).Pairwise fun r r' => r.number < r'.number := by
  induction calls using List.reverseRecOn with
  | nil => exact .nil
  | append_singleton calls call ih =>
    rw [requests_concat, List.pairwise_append]
    refine ⟨ih, ?_, fun r member r' last => ?_⟩
    · cases call.task? with
      | none => exact .nil
      | some task => exact List.pairwise_singleton _ _
    · obtain ⟨task, -, rfl⟩ := Option.map_eq_some_iff.1 (Option.mem_toList.1 last)
      exact number_lt member

theorem nodup_requests (calls : List Call) : (requests calls).Nodup :=
  (pairwise_number calls).imp fun less same => Nat.ne_of_lt less (congrArg Request.number same)

/-- The requests that the first calls make. -/
theorem requests_take (calls : List Call) (n : Nat) :
    requests (calls.take n) = (requests calls).filter fun r => decide (r.number < n) := by
  induction calls using List.reverseRecOn with
  | nil => simp [requests]
  | append_singleton calls call ih =>
    rw [requests_concat, List.filter_append, ← ih]
    by_cases inside : n ≤ calls.length
    · have none : ((call.task?.map (Request.mk calls.length)).toList.filter
          fun r => decide (r.number < n)) = [] := by
        refine List.filter_eq_nil_iff.2 fun r last => ?_
        obtain ⟨task, -, rfl⟩ := Option.map_eq_some_iff.1 (Option.mem_toList.1 last)
        simpa using inside
      rw [List.take_append_of_le_length inside, none, List.append_nil]
    · have beyond : calls.length < n := Nat.lt_of_not_le inside
      have all : ((call.task?.map (Request.mk calls.length)).toList.filter
          fun r => decide (r.number < n)) = (call.task?.map (Request.mk calls.length)).toList := by
        refine List.filter_eq_self.2 fun r last => ?_
        obtain ⟨task, -, rfl⟩ := Option.map_eq_some_iff.1 (Option.mem_toList.1 last)
        simpa using beyond
      rw [all, List.take_of_length_le (by simpa using Nat.succ_le_of_lt beyond),
        List.take_of_length_le (Nat.le_of_lt beyond), requests_concat]

/-! ## When a request is taken out -/

theorem run?_eq_none_iff :
    r.run? calls = none ↔ ∀ call ∈ calls.drop (r.number + 1), call.reaches r.task = false := by
  rw [Request.run?, Option.map_eq_none_iff, List.findIdx?_eq_none_iff]

theorem run?_eq_some_iff : r.run? calls = some n ↔ r.RunsAt calls n := by
  have shifted (m : Nat) : (calls.drop (r.number + 1))[m]? = calls[r.number + 1 + m]? :=
    List.getElem?_drop
  rw [Request.run?, Option.map_eq_some_iff]
  constructor
  · rintro ⟨m, found, rfl⟩
    obtain ⟨inside, reaches, before⟩ := List.findIdx?_eq_some_iff_getElem.1 found
    have here := List.getElem?_eq_getElem inside
    rw [shifted] at here
    refine ⟨by omega, ?_, fun k now made earlier there => ?_⟩
    · obtain ⟨now, same, due⟩ := Call.reaches_iff.1 reaches
      exact ⟨now, here.trans (congrArg some same), due⟩
    · obtain ⟨j, rfl⟩ := Nat.exists_eq_add_of_le (Nat.succ_le_of_lt made)
      have less : j < m := by omega
      have quiet := before j less
      rw [← shifted, List.getElem?_eq_getElem (Nat.lt_trans less inside)] at there
      rw [Option.some.inj there] at quiet
      exact Nat.lt_of_not_le fun due => quiet (Call.reaches_iff.2 ⟨now, rfl, due⟩)
  · intro runs
    obtain ⟨m, rfl⟩ := Nat.exists_eq_add_of_le (Nat.succ_le_of_lt runs.later)
    obtain ⟨now, here, due⟩ := runs.reached
    rw [← shifted] at here
    obtain ⟨inside, same⟩ := List.getElem?_eq_some_iff.1 here
    refine ⟨m, List.findIdx?_eq_some_iff_getElem.2 ⟨inside, ?_, fun j less reaches => ?_⟩, rfl⟩
    · rw [same]
      exact Call.reaches_iff.2 ⟨now, rfl, due⟩
    · obtain ⟨now', there, due'⟩ := Call.reaches_iff.1 reaches
      have found := (shifted j).symm.trans (List.getElem?_eq_getElem (Nat.lt_trans less inside))
      rw [there] at found
      exact Nat.not_lt.2 due' (runs.first _ _ (by omega) (by omega) found)

/-- A request is not taken out by the last call unless that has come to its time. -/
theorem run?_concat_isNone (made : r.number < calls.length) :
    (r.run? (calls ++ [call])).isNone = ((r.run? calls).isNone && !call.reaches r.task) := by
  rw [Bool.eq_iff_iff, Bool.and_eq_true, Option.isNone_iff_eq_none, Option.isNone_iff_eq_none,
    run?_eq_none_iff, run?_eq_none_iff, List.drop_append_of_le_length (Nat.succ_le_of_lt made),
    List.forall_mem_append, List.forall_mem_singleton, Bool.not_eq_true']

/-- The last request is not taken out. -/
theorem run?_concat_self (task : DeferredTask) :
    (Request.mk calls.length task).run? (calls ++ [call]) = none := by
  rw [run?_eq_none_iff, List.drop_of_length_le (by simp)]
  exact fun _ member => by cases member

/-- Of the first calls, one takes a request out if it is the one that does in the end. -/
theorem run?_take_eq_some_iff {m : Nat} :
    r.run? (calls.take n) = some m ↔ m < n ∧ r.run? calls = some m := by
  have taken (k : Nat) (call : Call) :
      (calls.take n)[k]? = some call ↔ k < n ∧ calls[k]? = some call := by
    rw [List.getElem?_take, Option.ite_none_right_eq_some]
  rw [run?_eq_some_iff, run?_eq_some_iff]
  constructor
  · intro runs
    obtain ⟨now, here, due⟩ := runs.reached
    obtain ⟨less, here⟩ := (taken m _).1 here
    refine ⟨less, runs.later, ⟨now, here, due⟩, fun k now made earlier there => ?_⟩
    exact runs.first k now made earlier ((taken k _).2 ⟨Nat.lt_trans earlier less, there⟩)
  · rintro ⟨less, runs⟩
    obtain ⟨now, here, due⟩ := runs.reached
    refine ⟨runs.later, ⟨now, (taken m _).2 ⟨less, here⟩, due⟩,
      fun k now made earlier there => ?_⟩
    exact runs.first k now made earlier ((taken k _).1 there).2

/-- A run takes out the requests that wait when it comes and that it has come to the time of. -/
theorem run?_eq_some_iff_of_runDue {now : Millis} (here : calls[n]? = some (.runDue now)) :
    r.run? calls = some n ↔
      r.task.due ≤ now ∧ r.number < n ∧ ∀ m, r.run? calls = some m → n ≤ m := by
  constructor
  · intro first
    have runs := run?_eq_some_iff.1 first
    obtain ⟨now', here', due⟩ := runs.reached
    obtain rfl : now = now' := by simpa using here.symm.trans here'
    exact ⟨due, runs.later, fun m again => Nat.le_of_eq (Option.some.inj (first.symm.trans again))⟩
  · rintro ⟨due, made, waits⟩
    -- The run reaches the request, so something takes it out, and nothing has before.
    obtain ⟨m, first⟩ : ∃ m, r.run? calls = some m := by
      refine Option.ne_none_iff_exists'.1 fun never => ?_
      have listed : Call.runDue now ∈ calls.drop (r.number + 1) := by
        refine List.mem_iff_getElem?.2 ⟨n - (r.number + 1), ?_⟩
        rw [List.getElem?_drop, Nat.add_sub_cancel' (Nat.succ_le_of_lt made), here]
      have passed := run?_eq_none_iff.1 never _ listed
      rw [Call.reaches_iff.2 ⟨now, rfl, due⟩] at passed
      cases passed
    rcases Nat.eq_or_lt_of_le (waits m first) with rfl | later
    · exact first
    · have early := (run?_eq_some_iff.1 first).first n now made later here
      exact absurd due (Nat.not_le.2 early)

/-- What waits in the end are the requests that no run has come to the time of. -/
theorem tasks_after (calls : List Call) : (after calls).tasks =
    ((requests calls).filter fun r => (r.run? calls).isNone).map Request.task := by
  induction calls using List.reverseRecOn with
  | nil => rfl
  | append_singleton calls call ih =>
    have before : ((requests calls).filter fun r => (r.run? (calls ++ [call])).isNone) =
        ((requests calls).filter fun r => (r.run? calls).isNone).filter
          fun r => !call.reaches r.task := by
      rw [List.filter_filter]
      refine List.filter_congr fun r member => ?_
      rw [run?_concat_isNone (number_lt member), Bool.and_comm]
    rw [after_concat, requests_concat, List.filter_append, before, List.map_append]
    cases call with
    | schedule task =>
      have last : (Request.mk calls.length task).run? (calls ++ [.schedule task]) = none :=
        run?_concat_self task
      simp [perform, schedule, Call.reaches, Call.task?, ih, last]
    | cancel token => simp [perform, cancel, Call.reaches, Call.task?, ih]
    | runDue now =>
      have kept : (after calls).perform (.runDue now) =
          { after calls with
            tasks := (runTasks now (after calls).cancelled (after calls).tasks).1
            cancelled := (runTasks now (after calls).cancelled (after calls).tasks).2.1 } := rfl
      have waits (r : Request) : decide (now < r.task.due) = !decide (r.task.due ≤ now) := by
        rw [← decide_not, decide_eq_decide, Nat.not_le]
      rw [kept]
      simp only [runTasks_kept_eq_filter, ih, List.filter_map]
      simp [Call.reaches, Call.task?, Function.comp_def, waits]

/-- What waits after the first calls: the requests that these have made, and not yet taken out. -/
theorem tasks_after_take (calls : List Call) (n : Nat) : (after (calls.take n)).tasks =
    ((requests calls).filter fun r =>
      decide (r.number < n) && (r.run? calls).all fun m => decide (n ≤ m)).map Request.task := by
  rw [tasks_after, requests_take, List.filter_filter]
  refine congrArg (List.map Request.task) (List.filter_congr fun r _ => ?_)
  rw [Bool.and_comm]
  refine congrArg (decide (r.number < n) && ·) ?_
  rw [Bool.eq_iff_iff, Option.isNone_iff_eq_none, Option.eq_none_iff_forall_ne_some,
    Option.all_eq_true]
  refine forall_congr' fun m => ?_
  rw [Ne, run?_take_eq_some_iff, decide_eq_true_eq, ← Nat.not_lt]
  tauto

/-- A call is answered with the interactors of some of the requests that it takes out. -/
theorem exists_ran (calls : List Call) (n : Nat) : ∃ ran : List Request,
    ran.Sublist ((requests calls).filter fun r => r.run? calls == some n) ∧
      ∀ call, calls[n]? = some call →
        (after (calls.take n)).answer call = ran.map fun r => r.task.interactor := by
  cases here : calls[n]? with
  | none => exact ⟨[], List.nil_sublist _, fun call given => by cases given⟩
  | some call =>
    cases call with
    | schedule | cancel =>
      refine ⟨[], List.nil_sublist _, fun call given => ?_⟩
      obtain rfl := Option.some.inj given
      rfl
    | runDue now =>
      obtain ⟨ran, waited, due⟩ := exists_sublist_runTasks_due now (after (calls.take n)).tasks
        (after (calls.take n)).cancelled
      rw [tasks_after_take, List.filter_map, List.filter_filter] at waited
      obtain ⟨numbered, sublist, rfl⟩ := List.sublist_map_iff.1 waited
      refine ⟨numbered, ?_, fun call given => ?_⟩
      · convert sublist using 1
        refine List.filter_congr fun r _ => ?_
        rw [Bool.eq_iff_iff, beq_iff_eq, run?_eq_some_iff_of_runDue here]
        simp [Option.all_eq_true]
      · obtain rfl := Option.some.inj given
        exact due.trans List.map_map

/-- In any history of a queue, the requests that wait at any time are those that have been made by
then and that no run since has come to the time of, in the order in which they were made; so each is
taken out by the first run that has come to its time, and by no other call. The answers of the queue
stand for different requests: each for some of those that the call takes out, in their order. As
many requests wait in the end as were made and not taken out. -/
theorem requests_come_up_once (calls : List Call) :
    (∀ n, (after (calls.take n)).tasks = ((requests calls).filter fun r =>
      decide (r.number < n) && (r.run? calls).all fun m => decide (n ≤ m)).map Request.task) ∧
    (∀ (r : Request) (n : Nat), r.run? calls = some n ↔ r.RunsAt calls n) ∧
    (∃ ran : Nat → List Request,
      (∀ n, (ran n).Sublist ((requests calls).filter fun r => r.run? calls == some n)) ∧
      (∀ n call, calls[n]? = some call →
        (after (calls.take n)).answer call = (ran n).map fun r => r.task.interactor) ∧
      ((List.range calls.length).flatMap ran).Nodup) ∧
    (after calls).pending + ((requests calls).filter fun r => (r.run? calls).isSome).length =
      (requests calls).length := by
  choose ran sublist answers using exists_ran calls
  have runs (n : Nat) : ∀ r ∈ ran n, r.run? calls = some n := fun r member => by
    simpa using (List.mem_filter.1 ((sublist n).subset member)).2
  refine ⟨tasks_after_take calls, fun r n => run?_eq_some_iff, ⟨ran, sublist, answers, ?_⟩, ?_⟩
  · refine List.nodup_flatMap.2 ⟨fun n _ => ?_, List.nodup_range.imp fun differ => ?_⟩
    · exact ((nodup_requests calls).filter _).sublist (sublist n)
    · intro r member member'
      exact differ (Option.some.inj ((runs _ r member).symm.trans (runs _ r member')))
  · have split := (requests calls).length_eq_length_filter_add fun r => (r.run? calls).isNone
    rw [pending, tasks_after, List.length_map, split]
    simp

end TouchIntent.TaskQueue
