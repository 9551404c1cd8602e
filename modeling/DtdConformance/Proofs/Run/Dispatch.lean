import DtdConformance.Proofs.Run.History
import DtdConformance.Run.Pool
import Mathlib.Algebra.GroupWithZero.Nat

/-! # A batch among the workers of a pool

The requests of a batch are submitted one after another. Meanwhile the workers take up the calls in
any order and go on with them side by side, and a call may be lost at any time to a failure of its
worker. When everything is submitted, the completions are collected in the order of the requests.

Each move takes something away from the work that the batch began with, and until the batch is
finished there is a move that needs no failure.
-/
namespace DtdConformance.Run
set_option autoImplicit false

/-! ## Pools that can be started -/

namespace Pool

variable {pool : Pool}

theorem exists_start_eq_ok (h : 0 < pool.workers) :
    ∃ log, pool.start = .ok ({ pool with isRunning := true }, log) := by
  unfold start
  by_cases hRunning : pool.isRunning = true
  · have hSame : { pool with isRunning := true } = pool := by rw [← hRunning]
    rw [if_pos hRunning, hSame]
    exact ⟨[], rfl⟩
  · rw [if_neg hRunning, if_neg (Int.not_le.mpr h)]
    exact ⟨_, rfl⟩

theorem start_eq_error (hRunning : pool.isRunning = false) (h : pool.workers ≤ 0) :
    pool.start = .error .noWorkers := by
  rw [start, if_neg (Bool.eq_false_iff.mp hRunning), if_pos h]

theorem workers_pos_of_start {later : Pool} {log : List Log.Entry}
    (hIdle : pool.workers ≤ 0 → pool.isRunning = false) (h : pool.start = .ok (later, log)) :
    0 < later.workers := by
  by_cases hWorkers : 0 < pool.workers
  · obtain ⟨_, hStart⟩ := exists_start_eq_ok hWorkers
    rw [hStart] at h
    cases h
    exact hWorkers
  · have hNone := Int.not_lt.mp hWorkers
    rw [start_eq_error (hIdle hNone) hNone] at h
    cases h

end Pool

/-! ## Jobs -/

/-- What a worker is called for. With a monitor the run has been made when the request is submitted,
and without one the worker makes it. -/
inductive Call where
  | execute (run : DtdConformance.Run)
  | validate (request : Request)

def Call.run (pool : Pool) (time : String) : Call → DtdConformance.Run
  | .execute run => run
  | .validate request => pool.newRun time request

def Pool.call (pool : Pool) (time : String) (request : Request) : Call :=
  if pool.isMonitored then .execute (pool.newRun time request) else .validate request

inductive Job where
  | waiting (call : Call)
  | active (worker : Nat) (run : DtdConformance.Run)
  | done (completion : Completion)

/-- What a worker does with its job, or what befalls it. -/
inductive Act where
  | take (worker : Nat) (time : String)
  | step
  | finish
  | fail (text : String)

def Act.failure? : Act → Option String
  | .fail text => some text
  | .take _ _ | .step | .finish => none

namespace Job

def IsDone (job : Job) : Prop := ∃ completion, job = .done completion

/-- What a job becomes by some act, and the events of the act. -/
inductive Does (pool : Pool) : Job → Act → Job → List Event → Prop
  | take (call : Call) (worker : Nat) (time : String) :
      Does pool (.waiting call) (.take worker time) (.active worker (call.run pool time)) []
  | step {run : DtdConformance.Run} (hResult : run.result? = none) (worker : Nat) :
      Does pool (.active worker run) .step (.active worker run.step.1) run.step.2
  | finish {run : DtdConformance.Run} {result : Result} (hResult : run.result? = some result)
      (worker : Nat) : Does pool (.active worker run) .finish (.done (.result result)) []
  | fail {job : Job} (hDone : ¬ job.IsDone) (text : String) :
      Does pool job (.fail text) (.done (.died text)) []

variable {pool : Pool} {job later : Job} {act : Act} {events : List Event}

theorem Does.not_isDone (h : job.Does pool act later events) : ¬ job.IsDone := by
  cases h with
  | fail hDone text => exact hDone
  | _ =>
    rintro ⟨completion, hEq⟩
    cases hEq

/-- A worker can go on with its job. -/
theorem exists_does_active (pool : Pool) (worker : Nat) (run : DtdConformance.Run) :
    ∃ act later events, Does pool (.active worker run) act later events ∧
      act.failure? = none ∧ ∀ other time, act ≠ .take other time := by
  cases hResult : run.result? with
  | none =>
    refine ⟨.step, _, _, .step hResult worker, rfl, fun other time hEq => ?_⟩
    cases hEq
  | some result =>
    refine ⟨.finish, _, _, .finish hResult worker, rfl, fun other time hEq => ?_⟩
    cases hEq

/-- A bound on the work that is left. A worker takes the call up, takes at most five steps and
finishes. -/
def rank : Job → Nat
  | waiting _ => 7
  | active _ run => 6 - run.phase.progress
  | done _ => 0

theorem progress_lt_of_result? {run : DtdConformance.Run} (h : run.result? = none) :
    run.phase.progress < 5 := by
  unfold result? at h
  cases hPhase : run.phase with
  | finished ending =>
    rw [hPhase] at h
    cases h
  | _ => simp [Phase.progress]

theorem Does.rank_lt (h : job.Does pool act later events) : later.rank < job.rank := by
  cases h with
  | take call worker time =>
    simp only [rank]
    omega
  | @step run hResult worker =>
    have hProgress := progress_lt_of_result? hResult
    have hLess := run.progress_lt_step hProgress
    simp only [rank]
    omega
  | @finish run result hResult worker =>
    have hProgress := progress_le run.phase
    simp only [rank]
    omega
  | fail hDone text =>
    cases job with
    | waiting call => simp [rank]
    | active worker run =>
      have hProgress := progress_le run.phase
      simp only [rank]
      omega
    | done completion => exact (hDone ⟨completion, rfl⟩).elim

end Job

/-! ## Dispatching -/

inductive Move where
  | submit (time : String)
  | work (i : Nat) (act : Act)
  | collect

/-- The failure of the job at some position that a move is. -/
def Move.failure? (i : Nat) : Move → Option String
  | .work j act => if j = i then act.failure? else none
  | .submit _ | .collect => none

/-- A batch on its way: the requests that are not submitted yet, the jobs of the others in the same
order, and the completions that have been collected. -/
structure Dispatch where
  pool : Pool
  monitor : Monitor
  pending : List Request
  jobs : List Job := []
  collected : List Completion := []
  fault? : Option PoolFault := none

namespace Dispatch

def IsFree (dispatch : Dispatch) (worker : Nat) : Prop :=
  ∀ run, .active worker run ∉ dispatch.jobs

def heard (dispatch : Dispatch) (worker now memory : Nat) (events : List Event) : Monitor :=
  if dispatch.pool.isMonitored then dispatch.monitor.hearAll worker memory now events
  else dispatch.monitor

/-- The moves of a batch. The first submission starts the pool, and a pool that cannot be started
faults. The workers of the pool have one job at a time. Nothing is collected before everything is
submitted, and each completion only after those before it. -/
inductive Does : Dispatch → Move → Dispatch → Prop
  | submit {dispatch : Dispatch} {request : Request} {pending : List Request} {pool : Pool}
      {log : List Log.Entry} (hFault : dispatch.fault? = none)
      (hPending : dispatch.pending = request :: pending)
      (hStart : dispatch.pool.start = .ok (pool, log)) (time : String) :
      Does dispatch (.submit time)
        { dispatch with
          pool
          pending
          jobs := dispatch.jobs ++ [.waiting (pool.call time request)] }
  | refuse {dispatch : Dispatch} {request : Request} {pending : List Request} {fault : PoolFault}
      (hFault : dispatch.fault? = none) (hPending : dispatch.pending = request :: pending)
      (hStart : dispatch.pool.start = .error fault) (time : String) :
      Does dispatch (.submit time) { dispatch with fault? := some fault }
  | work {dispatch : Dispatch} {i : Nat} {job later : Job} {act : Act} {events : List Event}
      (hJob : dispatch.jobs[i]? = some job) (hDoes : job.Does dispatch.pool act later events)
      (hFree : ∀ worker time, act = .take worker time →
        (worker : Int) < dispatch.pool.workers ∧ dispatch.IsFree worker)
      (worker now memory : Nat) :
      Does dispatch (.work i act)
        { dispatch with
          monitor := dispatch.heard worker now memory events
          jobs := dispatch.jobs.set i later }
  | collect {dispatch : Dispatch} {completion : Completion} (hPending : dispatch.pending = [])
      (hDone : dispatch.jobs[dispatch.collected.length]? = some (.done completion)) :
      Does dispatch .collect { dispatch with collected := dispatch.collected ++ [completion] }

/-- What becomes of a batch by a schedule of moves. -/
inductive Plays (start : Dispatch) : List Move → Dispatch → Prop
  | nil : Plays start [] start
  | snoc {moves : List Move} {dispatch : Dispatch} (h : Plays start moves dispatch) {move : Move}
      {later : Dispatch} (hDoes : dispatch.Does move later) : Plays start (moves ++ [move]) later

def IsFinished (dispatch : Dispatch) : Prop :=
  dispatch.pending = [] ∧ dispatch.collected.length = dispatch.jobs.length

variable {dispatch later : Dispatch} {move : Move}

/-! ## Every schedule ends -/

/-- A bound on the moves that are left. A request is submitted and its completion is collected. -/
def rank (dispatch : Dispatch) : Nat :=
  9 * dispatch.pending.length + (dispatch.jobs.map Job.rank).sum +
    (dispatch.jobs.length - dispatch.collected.length)

theorem sum_map_set {α : Type} (f : α → Nat) {items : List α} {i : Nat} {item : α}
    (h : items[i]? = some item) (other : α) :
    ((items.set i other).map f).sum + f item = (items.map f).sum + f other := by
  induction items generalizing i with
  | nil => cases h
  | cons first items ih =>
    cases i with
    | zero =>
      obtain rfl := Option.some.inj h
      simp only [List.set_cons_zero, List.map_cons, List.sum_cons]
      omega
    | succ i =>
      have hRest := ih h
      simp only [List.set_cons_succ, List.map_cons, List.sum_cons]
      omega

theorem Does.rank_lt (h : dispatch.Does move later) (hFault : later.fault? = none) :
    later.rank < dispatch.rank := by
  cases h with
  | submit _ hPending _ time =>
    simp only [rank, hPending, List.length_cons, List.length_append, List.map_append,
      List.sum_append, List.map_cons, List.map_nil, List.sum_cons, List.sum_nil, List.length_nil,
      Job.rank]
    omega
  | refuse _ _ _ time => cases hFault
  | @work i job after act events hJob hDoes _ worker now memory =>
    have hSum := sum_map_set Job.rank hJob after
    have hLess := hDoes.rank_lt
    simp only [rank, List.length_set]
    omega
  | collect hPending hDone =>
    have hBound := (List.getElem?_eq_some_iff.mp hDone).1
    simp only [rank, List.length_append, List.length_singleton]
    omega

/-! ## Something can always be done -/

theorem exists_does_of_done {completion : Completion} (hPending : dispatch.pending = [])
    (hJob : dispatch.jobs[dispatch.collected.length]? = some (.done completion)) :
    ∃ move later, dispatch.Does move later ∧ ∀ i, move.failure? i = none :=
  ⟨.collect, _, .collect hPending hJob, fun _ => rfl⟩

theorem exists_does_of_active {i worker : Nat} {run : DtdConformance.Run}
    (hJob : dispatch.jobs[i]? = some (.active worker run)) :
    ∃ move later, dispatch.Does move later ∧ ∀ i, move.failure? i = none := by
  obtain ⟨act, after, events, hDoes, hFailure, hTake⟩ :=
    Job.exists_does_active dispatch.pool worker run
  refine ⟨.work i act, _, .work hJob hDoes ?_ worker 0 0, fun j => ?_⟩
  · intro other time hEq
    exact (hTake other time hEq).elim
  · simp [Move.failure?, hFailure]

/-- Either the first worker is free to take the job up, or it can go on with the one it has. -/
theorem exists_does_of_waiting {i : Nat} {call : Call} (hWorkers : 0 < dispatch.pool.workers)
    (hJob : dispatch.jobs[i]? = some (.waiting call)) :
    ∃ move later, dispatch.Does move later ∧ ∀ i, move.failure? i = none := by
  by_cases hFree : dispatch.IsFree 0
  · refine ⟨.work i (.take 0 ""), _, .work hJob (.take call 0 "") ?_ 0 0 0, fun j => ?_⟩
    · intro worker time hEq
      cases hEq
      exact ⟨hWorkers, hFree⟩
    · simp [Move.failure?, Act.failure?]
  · rw [IsFree, not_forall] at hFree
    obtain ⟨run, hRun⟩ := hFree
    obtain ⟨j, hActive⟩ := List.mem_iff_getElem?.mp (not_not.mp hRun)
    exact exists_does_of_active hActive

theorem exists_does (hWorkers : 0 < dispatch.pool.workers) (hFault : dispatch.fault? = none)
    (hCollected : dispatch.collected.length ≤ dispatch.jobs.length) (h : ¬ dispatch.IsFinished) :
    ∃ move later, dispatch.Does move later ∧ ∀ i, move.failure? i = none := by
  cases hPending : dispatch.pending with
  | cons request pending =>
    obtain ⟨log, hStart⟩ := Pool.exists_start_eq_ok hWorkers
    exact ⟨.submit "", _, .submit hFault hPending hStart "", fun _ => rfl⟩
  | nil =>
    have hLess : dispatch.collected.length < dispatch.jobs.length :=
      Nat.lt_of_le_of_ne hCollected fun hEq => h ⟨hPending, hEq⟩
    have hJob := List.getElem?_eq_getElem hLess
    cases hNext : dispatch.jobs[dispatch.collected.length] with
    | waiting call =>
      rw [hNext] at hJob
      exact exists_does_of_waiting hWorkers hJob
    | active worker run =>
      rw [hNext] at hJob
      exact exists_does_of_active hJob
    | done completion =>
      rw [hNext] at hJob
      exact exists_does_of_done hPending hJob

end Dispatch

end DtdConformance.Run
