import RemoteCalc.Fault

/-!
# Worker pools

A pool is a queue of messages under a lock and a fixed number of workers.  Its owner
queues jobs, and at the end one stop message for each worker.  A free worker takes the
lock and waits at the head of the queue, and gives the lock up with the message that it
takes from there: it runs a job and catches the panic if there is one, or it leaves for
good.  Any action that is possible may be the next; `run` follows one schedule among all of
them.
-/

namespace RemoteCalc.Pool

/-- How a job ends.  Whoever catches a panic throws its payload away, which ends as well. -/
inductive Ending where
  | returns
  | panics (discarding : Ending)
  deriving DecidableEq, Repr

/-- The panic is caught, and throwing its payload away raises another one. -/
def Ending.escapes : Ending → Bool
  | panics (panics _) => true
  | _ => false

inductive Message (Job : Type) where
  | job (job : Job)
  | stop
  deriving DecidableEq, Repr

/--
A worker that waits holds the lock, one that leaves has taken a stop message, and one that
is lost has ended in the middle of its work.
-/
inductive Worker (Job : Type) where
  | free
  | waiting
  | running (job : Job)
  | leaving
  | stopped
  | lost
  deriving DecidableEq, Repr

/--
A pool at work: the jobs and stop messages its owner has yet to queue, the queue,
the workers, and the jobs that have run, in the order in which they ended.
-/
structure State (Job : Type) where
  jobs : List Job
  stops : Nat
  queue : List (Message Job)
  workers : List (Worker Job)
  ran : List Job
  deriving DecidableEq, Repr

inductive Action where
  | queueNext
  | wait (worker : Nat)
  | take (worker : Nat)
  | finish (worker : Nat)
  | leave (worker : Nat)
  deriving DecidableEq, Repr

variable {Job : Type}

def checkSize (workers : Nat) : Except Fault Unit :=
  if workers = 0 then .error (.config .noWorkers) else .ok ()

def State.initial (workers : Nat) (jobs : List Job) : State Job :=
  ⟨jobs, workers, [], List.replicate workers .free, []⟩

def start (workers : Nat) (jobs : List Job) : Except Fault (State Job) :=
  (checkSize workers).map fun _ => .initial workers jobs

def Worker.isWaiting : Worker Job → Bool
  | waiting => true
  | _ => false

/-- What becomes of a worker whose job ends so.  A panic is caught around the job alone. -/
def Worker.after : Ending → Worker Job
  | .returns => free
  | .panics discarding =>
      match discarding with
      | .returns => free
      | .panics _ => lost

namespace State

def isLocked (state : State Job) : Bool := state.workers.any Worker.isWaiting

def setWorker (state : State Job) (worker : Nat) (now : Worker Job) : State Job :=
  { state with workers := state.workers.set worker now }

def queueNext? (state : State Job) : Option (State Job) :=
  match state.jobs, state.stops with
  | job :: jobs, _ => some { state with jobs, queue := state.queue ++ [.job job] }
  | [], stops + 1 => some { state with stops, queue := state.queue ++ [.stop] }
  | [], 0 => none

def wait? (state : State Job) (worker : Nat) : Option (State Job) :=
  match state.workers[worker]? with
  | some .free => if state.isLocked then none else some (state.setWorker worker .waiting)
  | _ => none

def take? (state : State Job) (worker : Nat) : Option (State Job) :=
  match state.workers[worker]?, state.queue with
  | some .waiting, .job job :: queue =>
      some { state.setWorker worker (.running job) with queue }
  | some .waiting, .stop :: queue => some { state.setWorker worker .leaving with queue }
  | _, _ => none

variable (endingOf : Job → Ending)

def finish? (state : State Job) (worker : Nat) : Option (State Job) :=
  match state.workers[worker]? with
  | some (.running job) =>
      some { state.setWorker worker (.after (endingOf job)) with ran := state.ran ++ [job] }
  | _ => none

def leave? (state : State Job) (worker : Nat) : Option (State Job) :=
  match state.workers[worker]? with
  | some .leaving => some (state.setWorker worker .stopped)
  | _ => none

def step? (state : State Job) : Action → Option (State Job)
  | .queueNext => state.queueNext?
  | .wait worker => state.wait? worker
  | .take worker => state.take? worker
  | .finish worker => state.finish? endingOf worker
  | .leave worker => state.leave? worker

def follow? (state : State Job) : List Action → Option (State Job)
  | [] => some state
  | action :: actions => (state.step? endingOf action).bind (follow? · actions)

def messageWeight : Message Job → Nat
  | .job _ => 3
  | .stop => 2

def workerWeight : Worker Job → Nat
  | .free => 1
  | .waiting => 0
  | .running _ => 2
  | .leaving => 1
  | .stopped => 0
  | .lost => 1

def totalWeight {α : Type} (weigh : α → Nat) : List α → Nat
  | [] => 0
  | item :: rest => weigh item + totalWeight weigh rest

/-- How many actions are left until every worker has stopped, if none is lost. -/
def weight (state : State Job) : Nat :=
  4 * state.jobs.length + 3 * state.stops +
    totalWeight messageWeight state.queue + totalWeight workerWeight state.workers

def candidates (state : State Job) : List Action :=
  let places := List.range state.workers.length
  .queueNext :: places.map .take ++ places.map .finish ++ places.map .wait ++
    places.map .leave

def next? (state : State Job) : Option (State Job) :=
  state.candidates.findSome? (state.step? endingOf)

variable {endingOf}

private theorem totalWeight_append {α : Type} (weigh : α → Nat) (left right : List α) :
    totalWeight weigh (left ++ right) =
      totalWeight weigh left + totalWeight weigh right := by
  induction left with
  | nil => simp [totalWeight]
  | cons item rest ih =>
    simp only [List.cons_append, totalWeight, ih]
    omega

private theorem totalWeight_set {α : Type} (weigh : α → Nat) {items : List α}
    {place : Nat} {old : α} (new : α) (h : items[place]? = some old) :
    totalWeight weigh (items.set place new) + weigh old =
      totalWeight weigh items + weigh new := by
  induction items generalizing place with
  | nil => simp at h
  | cons first rest ih =>
    cases place with
    | zero =>
      simp only [List.getElem?_cons_zero, Option.some.injEq] at h
      subst h
      simp only [List.set_cons_zero, totalWeight]
      omega
    | succ place =>
      have := @ih place (by simpa using h)
      simp only [List.set_cons_succ, totalWeight]
      omega

private theorem weight_setWorker {state : State Job} {worker : Nat} {old : Worker Job}
    (h : state.workers[worker]? = some old) (now : Worker Job) :
    (state.setWorker worker now).weight + workerWeight old =
      state.weight + workerWeight now := by
  have := totalWeight_set workerWeight now h
  simp only [setWorker, weight]
  omega

private theorem weight_queueNext? {state later : State Job}
    (h : state.queueNext? = some later) :
    later.weight + 1 = state.weight := by
  unfold queueNext? at h
  split at h
  · rename_i job jobs _ heq
    simp only [Option.some.injEq] at h
    simp only [← h, weight, heq, List.length_cons, totalWeight_append,
      totalWeight, messageWeight]
    omega
  · rename_i stops hjobs hstops
    simp only [Option.some.injEq] at h
    simp only [← h, weight, hjobs, hstops, totalWeight_append,
      totalWeight, messageWeight]
    omega
  · simp at h

private theorem weight_wait? {state later : State Job} {worker : Nat}
    (h : state.wait? worker = some later) : later.weight + 1 = state.weight := by
  unfold wait? at h
  split at h
  · rename_i hworker
    split at h
    · simp at h
    · simp only [Option.some.injEq] at h
      exact h ▸ weight_setWorker hworker .waiting
  · simp at h

private theorem weight_take? {state later : State Job} {worker : Nat}
    (h : state.take? worker = some later) : later.weight + 1 = state.weight := by
  unfold take? at h
  split at h
  · rename_i job queue hworker hqueue
    simp only [Option.some.injEq] at h
    have := weight_setWorker hworker (.running job)
    simp only [weight, workerWeight, hqueue, totalWeight, messageWeight] at this
    simp only [← h, weight, setWorker, hqueue, totalWeight, messageWeight] at this ⊢
    omega
  · rename_i queue hworker hqueue
    simp only [Option.some.injEq] at h
    have := weight_setWorker hworker .leaving
    simp only [weight, workerWeight, hqueue, totalWeight, messageWeight] at this
    simp only [← h, weight, setWorker, hqueue, totalWeight, messageWeight] at this ⊢
    omega
  · simp at h

@[simp] theorem workerWeight_after (ending : Ending) :
    workerWeight (.after ending : Worker Job) = 1 := by
  obtain _ | _ | _ := ending <;> rfl

private theorem weight_finish? {state later : State Job} {worker : Nat}
    (h : state.finish? endingOf worker = some later) :
    later.weight + 1 = state.weight := by
  unfold finish? at h
  split at h
  · rename_i job hworker
    simp only [Option.some.injEq] at h
    have hused := weight_setWorker hworker (.after (endingOf job))
    rw [workerWeight_after, workerWeight] at hused
    simp only [← h]
    change (state.setWorker worker (.after (endingOf job))).weight + 1 = _
    omega
  · simp at h

private theorem weight_leave? {state later : State Job} {worker : Nat}
    (h : state.leave? worker = some later) : later.weight + 1 = state.weight := by
  unfold leave? at h
  split at h
  · rename_i hworker
    simp only [Option.some.injEq] at h
    exact h ▸ weight_setWorker hworker .stopped
  · simp at h

/-- Every action uses up exactly one unit of weight. -/
theorem weight_step? {state later : State Job} {action : Action}
    (h : state.step? endingOf action = some later) :
    later.weight + 1 = state.weight := by
  cases action with
  | queueNext => exact weight_queueNext? h
  | wait worker => exact weight_wait? h
  | take worker => exact weight_take? h
  | finish worker => exact weight_finish? h
  | leave worker => exact weight_leave? h

variable (endingOf) in
set_option linter.unusedVariables false in
def run (state : State Job) : State Job :=
  match h : state.next? endingOf with
  | none => state
  | some later => run later
termination_by state.weight
decreasing_by
  obtain ⟨action, _, hstep⟩ := List.exists_of_findSome?_eq_some h
  have := weight_step? hstep
  omega

end State

def runAll (endingOf : Job → Ending) (workers : Nat) (jobs : List Job) :
    Except Fault (List Job) :=
  (start workers jobs).map fun state => (state.run endingOf).ran

def returning (_ : Job) : Ending := .returns

/-- The places of the jobs that returned, among those that have run, in rising order. -/
def returned (endings : List Ending) (ran : List (Ending × Nat)) : List Nat :=
  (List.range endings.length).filter fun place => ran.contains (.returns, place)

def completed (workers : Nat) (endings : List Ending) : Except Fault (List Nat) :=
  (runAll Prod.fst workers endings.zipIdx).map (returned endings)

end RemoteCalc.Pool
