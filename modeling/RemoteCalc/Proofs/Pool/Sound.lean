import Mathlib.Data.List.Count
import Mathlib.Data.List.Perm.Basic
import RemoteCalc.Pool
import RemoteCalc.Proofs.Lists

/-!
# What holds of a pool at work

Whatever the order of its actions, a pool keeps account of its jobs and of its stop
messages: each job is yet to be queued, in the queue, with one worker or has run, there is
one stop message for each worker that has not taken one, and each worker that is lost has
run a job from which a panic escaped.
-/

open scoped List

namespace RemoteCalc.Pool

variable {Job : Type} {endingOf : Job → Ending}

inductive Step (endingOf : Job → Ending) (state : State Job) :
    Action → State Job → Prop where
  | queueJob {job : Job} {jobs : List Job} (next : state.jobs = job :: jobs) :
      Step endingOf state .queueNext { state with jobs, queue := state.queue ++ [.job job] }
  | queueStop {stops : Nat} (done : state.jobs = []) (next : state.stops = stops + 1) :
      Step endingOf state .queueNext { state with stops, queue := state.queue ++ [.stop] }
  | wait {worker : Nat} (free : state.workers[worker]? = some .free)
      (unlocked : state.isLocked = false) :
      Step endingOf state (.wait worker) (state.setWorker worker .waiting)
  | takeJob {worker : Nat} {job : Job} {queue : List (Message Job)}
      (waiting : state.workers[worker]? = some .waiting) (head : state.queue = .job job :: queue) :
      Step endingOf state (.take worker) { state.setWorker worker (.running job) with queue }
  | takeStop {worker : Nat} {queue : List (Message Job)}
      (waiting : state.workers[worker]? = some .waiting) (head : state.queue = .stop :: queue) :
      Step endingOf state (.take worker) { state.setWorker worker .leaving with queue }
  | finish {worker : Nat} {job : Job} (running : state.workers[worker]? = some (.running job)) :
      Step endingOf state (.finish worker)
        { state.setWorker worker (.after (endingOf job)) with ran := state.ran ++ [job] }
  | leave {worker : Nat} (leaving : state.workers[worker]? = some .leaving) :
      Step endingOf state (.leave worker) (state.setWorker worker .stopped)

attribute [simp] State.step? State.queueNext? State.wait? State.take? State.finish? State.leave?

theorem Step.of_step? {state next : State Job} {action : Action}
    (h : state.step? endingOf action = some next) :
    Step endingOf state action next := by
  cases action with
  | queueNext =>
      simp only [State.step?, State.queueNext?] at h
      split at h
      · rename_i hjobs
        cases h
        exact .queueJob hjobs
      · rename_i hjobs hstops
        cases h
        exact .queueStop hjobs hstops
      · contradiction
  | wait worker =>
      simp only [State.step?, State.wait?] at h
      split at h
      · rename_i hfree
        split_ifs at h with hlocked
        cases h
        exact .wait hfree (Bool.eq_false_iff.mpr hlocked)
      · contradiction
  | take worker =>
      simp only [State.step?, State.take?] at h
      split at h
      · rename_i hwaiting hhead
        cases h
        exact .takeJob hwaiting hhead
      · rename_i hwaiting hhead
        cases h
        exact .takeStop hwaiting hhead
      · contradiction
  | finish worker =>
      simp only [State.step?, State.finish?] at h
      split at h
      · rename_i hrunning
        cases h
        exact .finish hrunning
      · contradiction
  | leave worker =>
      simp only [State.step?, State.leave?] at h
      split at h
      · rename_i hleaving
        cases h
        exact .leave hleaving
      · contradiction

theorem Step.step? {state next : State Job} {action : Action}
    (h : Step endingOf state action next) :
    state.step? endingOf action = some next := by
  cases h with
  | queueJob next => simp [next]
  | queueStop done next => simp [done, next]
  | wait free unlocked => simp [free, unlocked]
  | takeJob waiting head => simp [waiting, head]
  | takeStop waiting head => simp [waiting, head]
  | finish running => simp [running]
  | leave leaving => simp [leaving]

/-! ## Accounts -/

@[simp] def Message.job? : Message Job → Option Job
  | .job item => some item
  | .stop => none

def Message.isStop : Message Job → Bool
  | .job _ => false
  | .stop => true

@[simp] def Worker.job? : Worker Job → Option Job
  | .running item => some item
  | _ => none

@[simp] def Worker.awaitsStop : Worker Job → Bool
  | .leaving | .stopped => false
  | _ => true

def Worker.isLost : Worker Job → Bool
  | .lost => true
  | _ => false

@[simp] theorem Worker.job?_after (ending : Ending) :
    (Worker.after ending : Worker Job).job? = none := by
  obtain _ | _ | _ := ending <;> rfl

@[simp] theorem Worker.awaitsStop_after (ending : Ending) :
    (Worker.after ending : Worker Job).awaitsStop = true := by
  obtain _ | _ | _ := ending <;> rfl

@[simp] theorem Worker.isLost_after (ending : Ending) :
    (Worker.after ending : Worker Job).isLost = ending.escapes := by
  obtain _ | _ | _ := ending <;> rfl

namespace State

def queued (state : State Job) : List Job := state.queue.filterMap Message.job?

def running (state : State Job) : List Job := state.workers.filterMap Worker.job?

def stopsQueued (state : State Job) : Nat := state.queue.countP Message.isStop

def awaiting (state : State Job) : Nat := state.workers.countP Worker.awaitsStop

def lost (state : State Job) : Nat := state.workers.countP Worker.isLost

def escaped (endingOf : Job → Ending) (state : State Job) : Nat :=
  state.ran.countP fun job => (endingOf job).escapes

end State

/--
A pool of this size that is given these jobs, once its workers have taken those first.
No stop message is queued before the last job, and so the queue holds no job any more when
a worker has taken one.
-/
structure Sound (endingOf : Job → Ending) (size : Nat) (jobs taken : List Job)
    (state : State Job) : Prop where
  inOrder : taken ++ state.queued ++ state.jobs = jobs
  accounted : (state.running ++ state.ran).Perm taken
  oneEach : state.stops + state.stopsQueued = state.awaiting
  stopsLast : state.queue.Pairwise fun ahead behind => ahead = .stop → behind = .stop
  jobsFirst : state.jobs ≠ [] → state.stops = size
  drained : state.awaiting < size → state.queued = []
  complete : state.workers.length = size
  lostEach : state.lost = state.escaped endingOf

namespace Sound

variable {size : Nat} {jobs taken : List Job} {state next : State Job}

private theorem awaiting_le (h : Sound endingOf size jobs taken state) :
    state.awaiting ≤ size :=
  h.complete ▸ List.countP_le_length

private theorem stop_notMem (h : Sound endingOf size jobs taken state)
    (hjobs : state.jobs ≠ []) :
    .stop ∉ state.queue := by
  intro hmem
  have hqueued : 0 < state.stopsQueued := List.countP_pos_iff.mpr ⟨_, hmem, rfl⟩
  have hstops := h.jobsFirst hjobs
  have heach := h.oneEach
  have hle := h.awaiting_le
  omega

private theorem jobs_eq_nil (h : Sound endingOf size jobs taken state)
    (hstop : .stop ∈ state.queue) :
    state.jobs = [] := by
  by_contra hjobs
  exact h.stop_notMem hjobs hstop

end Sound

/-! ## Changes -/

namespace State

variable {state : State Job} {worker : Nat} {old : Worker Job}

private theorem running_setWorker (h : state.workers[worker]? = some old)
    (now : Worker Job) :
    ((state.setWorker worker now).running ++ old.job?.toList).Perm
      (state.running ++ now.job?.toList) :=
  filterMap_set_perm Worker.job? h now

private theorem awaiting_setWorker (h : state.workers[worker]? = some old)
    (now : Worker Job) :
    (state.setWorker worker now).awaiting + old.awaitsStop.toNat =
      state.awaiting + now.awaitsStop.toNat :=
  countP_set_add Worker.awaitsStop h now

private theorem lost_setWorker (h : state.workers[worker]? = some old)
    (now : Worker Job) :
    (state.setWorker worker now).lost + old.isLost.toNat =
      state.lost + now.isLost.toNat :=
  countP_set_add Worker.isLost h now

@[simp] def takenBy (state : State Job) : Action → List (Nat × Job)
  | .take worker =>
      match state.queue with
      | .job job :: _ => [(worker, job)]
      | _ => []
  | _ => []

end State

namespace Sound

variable {size : Nat} {jobs taken : List Job} {state next : State Job}

theorem initial (size : Nat) (jobs : List Job) :
    Sound endingOf size jobs [] (.initial size jobs) where
  inOrder := rfl
  accounted := by simp [State.initial, State.running]
  oneEach := by
    simp [State.initial, State.stopsQueued, State.awaiting, List.countP_replicate]
  stopsLast := .nil
  jobsFirst _ := rfl
  drained _ := rfl
  complete := List.length_replicate
  lostEach := List.countP_replicate

theorem queueJob (h : Sound endingOf size jobs taken state)
    {job : Job} {rest : List Job} (next : state.jobs = job :: rest) :
    Sound endingOf size jobs taken
      { state with jobs := rest, queue := state.queue ++ [.job job] } where
  inOrder := by
    have horder := h.inOrder
    rw [next] at horder
    simpa [State.queued] using horder
  accounted := h.accounted
  oneEach := by
    change state.stops + List.countP Message.isStop (state.queue ++ [.job job]) =
      state.awaiting
    rw [List.countP_append]
    exact h.oneEach
  stopsLast := by
    have hnone := h.stop_notMem (by simp [next])
    refine List.pairwise_append.mpr ⟨h.stopsLast, List.pairwise_singleton _ _, ?_⟩
    rintro ahead hahead behind - rfl
    exact absurd hahead hnone
  jobsFirst _ := h.jobsFirst (by simp [next])
  drained hless := by
    have hstops := h.jobsFirst (by simp [next])
    have heach := h.oneEach
    change state.awaiting < size at hless
    omega
  complete := h.complete
  lostEach := h.lostEach

theorem queueStop (h : Sound endingOf size jobs taken state) {stops : Nat}
    (done : state.jobs = []) (next : state.stops = stops + 1) :
    Sound endingOf size jobs taken { state with stops, queue := state.queue ++ [.stop] } where
  inOrder := by
    change taken ++ List.filterMap Message.job? (state.queue ++ [.stop]) ++ state.jobs = jobs
    rw [List.filterMap_append, List.filterMap_cons_none rfl, List.filterMap_nil,
      List.append_nil]
    exact h.inOrder
  accounted := h.accounted
  oneEach := by
    have heach := h.oneEach
    rw [next] at heach
    change stops + List.countP Message.isStop (state.queue ++ [.stop]) = state.awaiting
    rw [List.countP_append, ← heach, State.stopsQueued]
    simp [Message.isStop]
    omega
  stopsLast := by
    refine List.pairwise_append.mpr ⟨h.stopsLast, List.pairwise_singleton _ _, ?_⟩
    intro ahead _ behind hbehind _
    exact List.mem_singleton.mp hbehind
  jobsFirst hjobs := absurd done hjobs
  drained hless := by
    have hqueued := h.drained hless
    simpa [State.queued] using hqueued
  complete := h.complete
  lostEach := h.lostEach

theorem setWorker (h : Sound endingOf size jobs taken state) {worker : Nat}
    {old : Worker Job} (held : state.workers[worker]? = some old) (now : Worker Job)
    (hjob : now.job? = old.job?)
    (hawaits : now.awaitsStop = old.awaitsStop) (hlost : now.isLost = old.isLost) :
    Sound endingOf size jobs taken (state.setWorker worker now) where
  inOrder := h.inOrder
  accounted := by
    have hrunning := State.running_setWorker held now
    rw [hjob] at hrunning
    exact ((List.perm_append_right_iff _).mp hrunning |>.append_right _).trans h.accounted
  oneEach := by
    have hawaiting := State.awaiting_setWorker held now
    rw [hawaits, Nat.add_right_cancel_iff] at hawaiting
    rw [hawaiting]
    exact h.oneEach
  stopsLast := h.stopsLast
  jobsFirst := h.jobsFirst
  drained hless := by
    have hawaiting := State.awaiting_setWorker held now
    rw [hawaits, Nat.add_right_cancel_iff] at hawaiting
    exact h.drained (hawaiting ▸ hless)
  complete := List.length_set.trans h.complete
  lostEach := by
    have hcount := State.lost_setWorker held now
    rw [hlost, Nat.add_right_cancel_iff] at hcount
    exact hcount.trans h.lostEach

theorem takeJob (h : Sound endingOf size jobs taken state) {worker : Nat} {job : Job}
    {queue : List (Message Job)} (waiting : state.workers[worker]? = some .waiting)
    (head : state.queue = .job job :: queue) :
    Sound endingOf size jobs (taken ++ [job])
      { state.setWorker worker (.running job) with queue } := by
  have hqueued : state.queued = job :: queue.filterMap Message.job? := by
    rw [State.queued, head]
    rfl
  have hawaiting : (state.setWorker worker (.running job)).awaiting = state.awaiting :=
    Nat.add_right_cancel (State.awaiting_setWorker waiting (.running job))
  have hrunning :
      (state.setWorker worker (.running job)).running.Perm (state.running ++ [job]) := by
    simpa using State.running_setWorker waiting (.running job)
  exact {
    inOrder := by
      have horder := h.inOrder
      rw [hqueued] at horder
      change taken ++ [job] ++ List.filterMap Message.job? queue ++ state.jobs = jobs
      simpa using horder
    accounted := by
      calc _ ++ state.ran
        _ ~ state.running ++ [job] ++ state.ran := hrunning.append_right _
        _ ~ state.running ++ (state.ran ++ [job]) := by
          rw [List.append_assoc]
          exact List.perm_append_comm.append_left _
        _ ~ taken ++ [job] := by
          rw [← List.append_assoc]
          exact h.accounted.append_right _
    oneEach := by
      have heach := h.oneEach
      rw [State.stopsQueued, head, List.countP_cons] at heach
      exact heach.trans hawaiting.symm
    stopsLast := (List.pairwise_cons.mp (head ▸ h.stopsLast)).2
    jobsFirst := h.jobsFirst
    drained := by
      intro hless
      have hnone := h.drained (hawaiting ▸ hless)
      rw [hqueued] at hnone
      contradiction
    complete := List.length_set.trans h.complete
    lostEach := (State.lost_setWorker waiting (.running job)).trans h.lostEach }

theorem takeStop (h : Sound endingOf size jobs taken state) {worker : Nat}
    {queue : List (Message Job)}
    (waiting : state.workers[worker]? = some .waiting)
    (head : state.queue = .stop :: queue) :
    Sound endingOf size jobs taken { state.setWorker worker .leaving with queue } := by
  have hstop : .stop ∈ state.queue := head ▸ List.mem_cons_self
  have hawaiting := State.awaiting_setWorker waiting .leaving
  have hrunning : (state.setWorker worker .leaving).running.Perm state.running := by
    simpa using State.running_setWorker waiting .leaving
  have hbehind := (List.pairwise_cons.mp (head ▸ h.stopsLast)).1
  exact {
    inOrder := by
      have horder := h.inOrder
      rw [State.queued, head] at horder
      exact horder
    accounted := (hrunning.append_right _).trans h.accounted
    oneEach := by
      have heach := h.oneEach
      rw [State.stopsQueued, head, List.countP_cons_of_pos rfl,
        ← Nat.add_assoc] at heach
      exact Nat.add_right_cancel (heach.trans hawaiting.symm)
    stopsLast := (List.pairwise_cons.mp (head ▸ h.stopsLast)).2
    jobsFirst := fun hjobs => absurd (h.jobs_eq_nil hstop) hjobs
    drained := by
      intro _
      apply List.filterMap_eq_nil_iff.mpr
      intro message hmessage
      rw [hbehind message hmessage rfl]
      rfl
    complete := List.length_set.trans h.complete
    lostEach := (State.lost_setWorker waiting .leaving).trans h.lostEach }

theorem finish (h : Sound endingOf size jobs taken state) {worker : Nat} {job : Job}
    (running : state.workers[worker]? = some (.running job)) :
    Sound endingOf size jobs taken
      { state.setWorker worker (.after (endingOf job)) with ran := state.ran ++ [job] } := by
  let left : State Job := state.setWorker worker (.after (endingOf job))
  have hawaiting : left.awaiting = state.awaiting := by
    have hcount := State.awaiting_setWorker running (.after (endingOf job))
    rw [Worker.awaitsStop_after] at hcount
    exact Nat.add_right_cancel hcount
  have hrunning : (left.running ++ [job]).Perm state.running := by
    have hjobs := State.running_setWorker running (.after (endingOf job))
    rw [Worker.job?_after, Option.toList_none, List.append_nil] at hjobs
    exact hjobs
  exact {
    inOrder := h.inOrder
    accounted := by
      calc left.running ++ (state.ran ++ [job])
        _ ~ left.running ++ ([job] ++ state.ran) := List.perm_append_comm.append_left _
        _ ~ state.running ++ state.ran := by
          rw [← List.append_assoc]
          exact hrunning.append_right _
        _ ~ taken := h.accounted
    oneEach := h.oneEach.trans hawaiting.symm
    stopsLast := h.stopsLast
    jobsFirst := h.jobsFirst
    drained := fun hless => h.drained (hawaiting ▸ hless)
    complete := List.length_set.trans h.complete
    lostEach := by
      have hcount := State.lost_setWorker running (.after (endingOf job))
      rw [Worker.isLost_after, h.lostEach] at hcount
      change left.lost = (state.ran ++ [job]).countP fun job => (endingOf job).escapes
      rw [List.countP_append, List.countP_singleton]
      refine hcount.trans (congrArg (state.escaped endingOf + ·) ?_)
      cases (endingOf job).escapes <;> rfl }

/-- Every action keeps the accounts. -/
theorem step (h : Sound endingOf size jobs taken state) {action : Action}
    (hstep : Step endingOf state action next) :
    Sound endingOf size jobs (taken ++ (state.takenBy action).map Prod.snd) next := by
  cases hstep with
  | queueJob next => simpa using h.queueJob next
  | queueStop done next => simpa using h.queueStop done next
  | wait free unlocked => simpa using h.setWorker free .waiting rfl rfl rfl
  | takeJob waiting head => simpa [head] using h.takeJob waiting head
  | takeStop waiting head => simpa [head] using h.takeStop waiting head
  | finish running => simpa using h.finish running
  | leave leaving => simpa using h.setWorker leaving .stopped rfl rfl rfl

end Sound

end RemoteCalc.Pool
