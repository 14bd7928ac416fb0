import TouchIntent.Touch

/-!
# Deferred self-exclusions

An interactor may ask to be excluded later. Such requests wait in a queue until the clock has come
to their time. Each carries a token by which it can be cancelled; a cancelled request is dropped
when its time comes, and its token is then good for use again. The flags of the tokens, which the
requests share with whoever made them, are kept with the queue.
-/

namespace TouchIntent

/-- The number of an interactor: its position in the session. -/
abbrev InteractorId := Nat

/-- What a deferred request can be cancelled by. -/
abbrev CancelToken := Nat

structure DeferredTask where
  due : Millis
  interactor : InteractorId
  token : CancelToken
  deriving DecidableEq

/-- The requests that wait, in the order in which they were made. -/
structure TaskQueue where
  tasks : List DeferredTask := []
  cancelled : List CancelToken := []
  /-- How many tokens have been issued. -/
  issued : Nat := 0

namespace TaskQueue

/-- A token that no one else has, and the queue that remembers having issued it. -/
def issue (q : TaskQueue) : CancelToken × TaskQueue := (q.issued, { q with issued := q.issued + 1 })

def schedule (q : TaskQueue) (task : DeferredTask) : TaskQueue :=
  { q with tasks := q.tasks ++ [task] }

def isCancelled (q : TaskQueue) (token : CancelToken) : Bool := q.cancelled.contains token

def cancel (q : TaskQueue) (token : CancelToken) : TaskQueue :=
  { q with cancelled := q.cancelled.insert token }

def pending (q : TaskQueue) : Nat := q.tasks.length

def isEmpty (q : TaskQueue) : Bool := q.tasks.isEmpty

/-- Goes through the waiting requests: keeps those that are not due, and answers with the
interactors of the others, unless they are cancelled. -/
def runTasks (now : Millis) (cancelled : List CancelToken) :
    List DeferredTask → List DeferredTask × List CancelToken × List InteractorId
  | [] => ([], cancelled, [])
  | task :: rest =>
    if now < task.due then
      let (kept, cancelled, due) := runTasks now cancelled rest
      (task :: kept, cancelled, due)
    else
      let (kept, cancelledAfter, due) := runTasks now (cancelled.filter (· != task.token)) rest
      (kept, cancelledAfter,
        if cancelled.contains task.token then due else task.interactor :: due)

/-- Takes out every request that is due, and answers with the interactors to exclude. -/
def runDue (q : TaskQueue) (now : Millis) : TaskQueue × List InteractorId :=
  let (tasks, cancelled, due) := runTasks now q.cancelled q.tasks
  ({ q with tasks, cancelled }, due)

end TaskQueue

end TouchIntent
