import DtdConformance.Proofs.Run.Tracking

/-! # The results of a batch

However the workers of a pool share the runs of a batch among them, each request gets the result
that a check of it alone would have given, at the position of the request. If a worker fails, only
the result of its request tells of it. A pool without workers refuses every batch before anything is
run, and stays as it was.
-/
namespace DtdConformance.Run
set_option autoImplicit false

/-! ## Batches one after another -/

namespace Pool

theorem exists_batch_eq_ok {pool : Pool} (hWorkers : 0 < pool.workers) (time : String)
    (requests : List Request) : ∃ batch,
      pool.batch time requests =
        .ok (batch, if requests.isEmpty then pool else { pool with isRunning := true }) ∧
      batch.results = requests.map fun request =>
        check pool.settings time request.declarations request.document := by
  unfold batch
  by_cases hEmpty : requests.isEmpty = true
  · obtain rfl := List.isEmpty_iff.mp hEmpty
    exact ⟨.none, rfl, rfl⟩
  · obtain ⟨log, hStart⟩ := exists_start_eq_ok hWorkers
    rw [if_neg hEmpty, if_neg hEmpty, openBatch, hStart]
    refine ⟨_, rfl, ?_⟩
    simp [Completion.toResult, check, newRun]

theorem batch_eq_error {pool : Pool} (hRunning : pool.isRunning = false)
    (hWorkers : pool.workers ≤ 0) (time : String) {requests : List Request} (h : requests ≠ []) :
    pool.batch time requests = .error .noWorkers := by
  have hSome : ¬ requests.isEmpty = true := fun hEmpty => h (List.isEmpty_iff.mp hEmpty)
  rw [batch, if_neg hSome, openBatch, start_eq_error hRunning hWorkers]
  rfl

/-- A pool that a caller may have: made in some way, and used for requests and batches and shut down
any number of times. -/
inductive Made : Pool → Prop
  | new {settings : Settings} {workers : Option Int} {executor : Option String}
      {isMonitored : Bool} {pool : Pool} {log : List Log.Entry}
      (h : Pool.new settings workers executor isMonitored = .ok (pool, log)) : Made pool
  | submit {pool later : Pool} {time : String} {request : Request} {result : Result}
      {events : List Event} (h : Made pool)
      (hSubmit : pool.submit time request = .ok (result, later, events)) : Made later
  | batch {pool later : Pool} {time : String} {requests : List Request} {batch : Batch}
      (h : Made pool) (hBatch : pool.batch time requests = .ok (batch, later)) : Made later
  | shutdown {pool : Pool} (h : Made pool) : Made pool.shutdown

/-- A pool without workers has never been started. -/
theorem Made.isRunning_eq_false {pool : Pool} (h : Made pool) (hWorkers : pool.workers ≤ 0) :
    pool.isRunning = false := by
  induction h with
  | @new settings workers executor isMonitored pool log hNew =>
    unfold Pool.new at hNew
    dsimp only at hNew
    split at hNew <;> cases hNew <;> rfl
  | @submit pool later time request result events _ hSubmit ih =>
    unfold Pool.submit at hSubmit
    cases hStart : pool.start with
    | error fault =>
      rw [hStart] at hSubmit
      cases hSubmit
    | ok started =>
      rw [hStart] at hSubmit
      cases hSubmit
      exact (Int.not_lt.mpr hWorkers (workers_pos_of_start ih hStart)).elim
  | @batch pool later time requests batch _ hBatch ih =>
    unfold Pool.batch openBatch at hBatch
    split at hBatch
    · cases hBatch
      exact ih hWorkers
    · cases hStart : pool.start with
      | error fault =>
        rw [hStart] at hBatch
        cases hBatch
      | ok started =>
        rw [hStart] at hBatch
        cases hBatch
        exact (Int.not_lt.mpr hWorkers (workers_pos_of_start ih hStart)).elim
  | shutdown _ _ => rfl

end Pool

/-! ## Batches and single checks -/

namespace Dispatch

variable {pool : Pool} {monitor : Monitor} {requests : List Request} {moves : List Move}
  {dispatch : Dispatch}

/-- What a batch is to give back when its workers have failed as the schedule tells. -/
structure Settles (settings : Settings) (requests : List Request) (moves : List Move)
    (time : String) (results : List Result) : Prop where
  length_eq : results.length = requests.length
  checked : ∀ (i : Nat) request, requests[i]? = some request →
    (∀ text, .work i (.fail text) ∉ moves) → ∃ result, results[i]? = some result ∧
      ∀ other, result.Agrees (check settings other request.declarations request.document)
  failed : ∀ (i : Nat) request text, requests[i]? = some request →
    .work i (.fail text) ∈ moves →
      results[i]? = some ((Ending.failed (.internal text)).result time)

/-- A batch in a pool with workers, at some moment. -/
structure Proceeds (pool : Pool) (requests : List Request) (moves : List Move)
    (dispatch : Dispatch) : Prop where
  unfaulted : dispatch.fault? = none
  bounded : moves.length ≤ 9 * requests.length
  unfinished : ¬ dispatch.IsFinished →
    ∃ move later, dispatch.Does move later ∧ ∀ i, move.failure? i = none
  finished : dispatch.IsFinished → ∀ time,
    Settles pool.settings requests moves time (Pool.collect time dispatch.collected).1 ∧
    ∃ batch, pool.batch time requests = .ok (batch, dispatch.pool) ∧
      batch.results = requests.map fun request =>
        check pool.settings time request.declarations request.document

/-- A batch in a pool without workers, at some moment. All it can do is to fault. -/
structure Refuses (pool : Pool) (monitor : Monitor) (requests : List Request) (moves : List Move)
    (dispatch : Dispatch) : Prop where
  refused : ∀ time, pool.batch time requests = .error .noWorkers
  pool_eq : dispatch.pool = pool
  monitor_eq : dispatch.monitor = monitor
  unsent : dispatch.jobs = [] ∧ dispatch.collected = []
  faults : (moves = [] ∧ ∃ time later, dispatch.Does (.submit time) later) ∨
    (dispatch.fault? = some .noWorkers ∧ ∀ move later, ¬ dispatch.Does move later)

theorem Tracks.length_eq (h : Tracks pool requests moves dispatch)
    (hFinished : dispatch.IsFinished) : dispatch.collected.length = requests.length := by
  have hDrop := h.pending_eq.symm.trans hFinished.1
  rw [hFinished.2]
  exact Nat.le_antisymm h.length_le (List.drop_eq_nil_iff.mp hDrop)

theorem Tracks.exists_completion (h : Tracks pool requests moves dispatch)
    (hFinished : dispatch.IsFinished) {i : Nat} {request : Request}
    (hRequest : requests[i]? = some request) : ∃ completion,
      dispatch.collected[i]? = some completion ∧
      Serves pool.settings request (failures i moves) (some (.done completion)) := by
  have hBound : i < dispatch.collected.length := by
    rw [h.length_eq hFinished]
    exact (List.getElem?_eq_some_iff.mp hRequest).1
  have hHere := List.getElem?_eq_getElem hBound
  refine ⟨_, hHere, ?_⟩
  rw [← h.collected i _ hHere]
  exact h.serves i request hRequest

theorem Tracks.settles (h : Tracks pool requests moves dispatch) (hFinished : dispatch.IsFinished)
    (time : String) :
    Settles pool.settings requests moves time (Pool.collect time dispatch.collected).1 := by
  refine ⟨?_, fun i request hRequest hUnfailed => ?_, fun i request text hRequest hFailed => ?_⟩
  · rw [Pool.collect, List.length_map]
    exact h.length_eq hFinished
  · obtain ⟨completion, hHere, hServes⟩ := h.exists_completion hFinished hRequest
    rw [Pool.collect, List.getElem?_map, hHere]
    have hNone : failures i moves = [] :=
      List.eq_nil_iff_forall_not_mem.mpr fun text hMem => hUnfailed text (mem_failures_iff.mp hMem)
    rw [hNone] at hServes
    cases hServes with
    | checked made => exact ⟨_, rfl, fun other => check_agrees ..⟩
  · obtain ⟨completion, hHere, hServes⟩ := h.exists_completion hFinished hRequest
    rw [Pool.collect, List.getElem?_map, hHere]
    have hMem : text ∈ failures i moves := mem_failures_iff.mpr hFailed
    generalize failures i moves = told at hServes hMem
    cases hServes with
    | checked made => cases hMem
    | died other =>
      obtain rfl := List.mem_singleton.mp hMem
      rfl

theorem Plays.proceeds (hWorkers : 0 < pool.workers)
    (h : Plays { pool, monitor, pending := requests } moves dispatch) :
    Proceeds pool requests moves dispatch := by
  have hTracks := h.tracks hWorkers
  have hBounded := Nat.le_trans (Nat.le_add_right ..) (h.length_add_rank_le hWorkers)
  refine ⟨hTracks.unfaulted, hBounded, h.exists_does hWorkers, fun hFinished time => ?_⟩
  refine ⟨hTracks.settles hFinished time, ?_⟩
  have hEmpty : dispatch.jobs.isEmpty = requests.isEmpty := by
    have hLength := hFinished.2.symm.trans (hTracks.length_eq hFinished)
    cases hJobs : dispatch.jobs <;> cases requests <;> simp_all
  rw [hTracks.pool_eq, hEmpty]
  exact Pool.exists_batch_eq_ok hWorkers time requests

theorem not_does_of_fault {fault : PoolFault} (hFault : dispatch.fault? = some fault)
    (hJobs : dispatch.jobs = []) (hPending : dispatch.pending ≠ []) (move : Move)
    (later : Dispatch) : ¬ dispatch.Does move later := by
  intro hDoes
  cases hDoes with
  | submit hNone _ _ _ | refuse hNone _ _ _ =>
    rw [hFault] at hNone
    cases hNone
  | work hJob _ _ _ _ _ =>
    rw [hJobs] at hJob
    cases hJob
  | collect hNil _ => exact hPending hNil

/-- A batch that cannot be started faults with its first move. -/
theorem Plays.eq_or_eq (hStart : pool.start = .error .noWorkers) (hSome : requests ≠ [])
    (h : Plays { pool, monitor, pending := requests } moves dispatch) :
    (moves = [] ∧ dispatch = { pool, monitor, pending := requests }) ∨
      dispatch = { pool, monitor, pending := requests, fault? := some .noWorkers } := by
  induction h with
  | nil => exact Or.inl ⟨rfl, rfl⟩
  | snoc _ hDoes ih =>
    rcases ih with ⟨_, rfl⟩ | rfl
    · cases hDoes with
      | submit _ _ hOpen _ =>
        rw [hStart] at hOpen
        cases hOpen
      | refuse _ _ hFault _ =>
        rw [hStart] at hFault
        cases hFault
        exact Or.inr rfl
      | work hJob _ _ _ _ _ => cases hJob
      | collect hNil _ => exact (hSome hNil).elim
    · exact (not_does_of_fault rfl rfl hSome _ _ hDoes).elim

theorem Plays.refuses (hMade : pool.Made) (hWorkers : pool.workers ≤ 0) (hSome : requests ≠ [])
    (h : Plays { pool, monitor, pending := requests } moves dispatch) :
    Refuses pool monitor requests moves dispatch := by
  have hRunning := hMade.isRunning_eq_false hWorkers
  have hStart := Pool.start_eq_error hRunning hWorkers
  have hRefused := fun time => Pool.batch_eq_error hRunning hWorkers time hSome
  rcases h.eq_or_eq hStart hSome with ⟨hNone, rfl⟩ | rfl
  · obtain ⟨request, pending, hPending⟩ := List.exists_cons_of_ne_nil hSome
    refine ⟨hRefused, rfl, rfl, ⟨rfl, rfl⟩, Or.inl ⟨hNone, "", _, .refuse rfl hPending hStart ""⟩⟩
  · exact ⟨hRefused, rfl, rfl, ⟨rfl, rfl⟩, Or.inr ⟨rfl, not_does_of_fault rfl rfl hSome⟩⟩

end Dispatch

end DtdConformance.Run
