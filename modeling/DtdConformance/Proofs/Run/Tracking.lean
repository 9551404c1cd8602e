import DtdConformance.Proofs.Run.Dispatch

/-! # What becomes of each request

The moves of a batch leave a request alone until it is submitted, and then only those at its own
position change its job. So the job can be told from the request and from its own failures, and its
completion from a check of the request alone.
-/
namespace DtdConformance.Run
set_option autoImplicit false

/-! ## Single checks -/

/-- The results are the same but for the time at which they were made. -/
def Result.Agrees (result other : Result) : Prop :=
  result.isValid = other.isValid ∧ result.errors = other.errors ∧ result.summary = other.summary

theorem completed_fst {run : DtdConformance.Run} (h : run.phase = .idle) :
    run.completed.1 = run.ending.result run.time := by
  unfold completed
  simp [result?, steps_idle h]

theorem check_agrees (settings : Settings) (time other : String)
    (declarations document : List Char) :
    (check settings time declarations document).Agrees
      (check settings other declarations document) := by
  have hEnding : (ofTexts settings time declarations document).ending =
      (ofTexts settings other declarations document).ending := rfl
  rw [check, check, completed_fst rfl, completed_fst rfl, hEnding]
  exact ⟨rfl, rfl, rfl⟩

/-- Whenever an idle run is found to have a result, it is the one that it was bound to have. -/
theorem eq_completed_of_result? {run : DtdConformance.Run} (hIdle : run.phase = .idle) {n : Nat}
    {result : Result} (h : (run.steps n).1.result? = some result) : result = run.completed.1 := by
  have hPhase : ∃ ending, (run.steps n).1.phase = .finished ending := by
    unfold result? at h
    split at h
    · next ending hFinished => exact ⟨ending, hFinished⟩
    · cases h
  obtain ⟨ending, hFinished⟩ := hPhase
  have hLast := steps_of_steps hIdle (Prod.mk.eta (p := run.steps n)).symm
  rw [steps_finished hFinished] at hLast
  rw [hLast] at h
  rw [completed_fst hIdle]
  exact (Option.some.inj h).symm

/-! ## The position of a request -/

def Request.run (settings : Settings) (time : String) (request : Request) : DtdConformance.Run :=
  ofTexts settings time request.declarations request.document

def Call.Asks (settings : Settings) (request : Request) : Call → Prop
  | .execute run => ∃ time, run = request.run settings time
  | .validate other => other = request

/-- The failures of the job at some position, as the schedule tells them. -/
def failures (i : Nat) (moves : List Move) : List String := moves.filterMap (Move.failure? i)

/-- The failures that a request has met with, and its job if it has been submitted. A job fails at
most once and is done then. A job that is done without a failure has the result of a check. -/
inductive Serves (settings : Settings) (request : Request) : List String → Option Job → Prop
  | unsent : Serves settings request [] none
  | waiting {call : Call} (hCall : call.Asks settings request) :
      Serves settings request [] (some (.waiting call))
  | active (worker : Nat) (time : String) (n : Nat) :
      Serves settings request [] (some (.active worker ((request.run settings time).steps n).1))
  | checked (time : String) :
      Serves settings request []
        (some (.done (.result (check settings time request.declarations request.document))))
  | died (text : String) : Serves settings request [text] (some (.done (.died text)))

theorem Pool.asks_call (pool : Pool) (time : String) (request : Request) :
    (pool.call time request).Asks pool.settings request := by
  unfold call
  split
  · exact ⟨time, rfl⟩
  · exact rfl

theorem Call.exists_run_eq {pool : Pool} {request : Request} {call : Call}
    (h : call.Asks pool.settings request) (time : String) :
    ∃ made, call.run pool time = request.run pool.settings made := by
  cases call with
  | execute run => exact h
  | validate other =>
    obtain rfl := h
    exact ⟨time, rfl⟩

theorem Job.Does.serves {pool : Pool} {request : Request} {told : List String} {job later : Job}
    {act : Act} {events : List Event} (hDoes : job.Does pool act later events)
    (h : Serves pool.settings request told (some job)) :
    Serves pool.settings request (told ++ act.failure?.toList) (some later) := by
  cases hDoes with
  | take call worker time =>
    cases h with
    | waiting hCall =>
      obtain ⟨made, hRun⟩ := Call.exists_run_eq hCall time
      rw [hRun]
      exact .active worker made 0
  | @step run hResult worker =>
    cases h with
    | active _ time n =>
      let start := request.run pool.settings time
      have hNext : (start.steps (n + 1)).1 = (start.steps n).1.step.1 := by
        rw [steps_add]
        rfl
      rw [← hNext]
      exact .active worker time (n + 1)
  | @finish run result hResult worker =>
    cases h with
    | active _ time n =>
      rw [eq_completed_of_result? rfl hResult]
      exact .checked time
  | fail hDone text =>
    cases h with
    | waiting | active => exact .died text
    | checked | died => exact (hDone ⟨_, rfl⟩).elim

/-- A new job changes nothing at the positions before it. -/
theorem serves_concat {settings : Settings} {request : Request} {told : List String}
    {jobs : List Job} {i : Nat} (h : Serves settings request told jobs[i]?) {call : Call}
    (hCall : i = jobs.length → call.Asks settings request) :
    Serves settings request told (jobs ++ [.waiting call])[i]? := by
  rcases Nat.lt_trichotomy i jobs.length with hLess | rfl | hGreater
  · rw [List.getElem?_append_left hLess]
    exact h
  · rw [List.getElem?_eq_none (Nat.le_refl _)] at h
    rw [List.getElem?_concat_length]
    cases h
    exact .waiting (hCall rfl)
  · have hLength : (jobs ++ [Job.waiting call]).length ≤ i := by
      rw [List.length_append]
      exact hGreater
    rw [List.getElem?_eq_none (Nat.le_of_lt hGreater)] at h
    rw [List.getElem?_eq_none hLength]
    exact h

theorem failures_concat (i : Nat) (moves : List Move) (move : Move) :
    failures i (moves ++ [move]) = failures i moves ++ (move.failure? i).toList := by
  rw [failures, List.filterMap_append, List.filterMap_eq_flatMap_toList _ [move],
    List.flatMap_singleton]
  rfl

theorem mem_failures_iff {i : Nat} {moves : List Move} {text : String} :
    text ∈ failures i moves ↔ .work i (.fail text) ∈ moves := by
  rw [failures, List.mem_filterMap]
  constructor
  · rintro ⟨move, hMem, hFailure⟩
    cases move with
    | submit | collect => cases hFailure
    | work j act =>
      rw [Move.failure?] at hFailure
      split at hFailure
      · next hPosition =>
        subst hPosition
        cases act <;> cases hFailure
        exact hMem
      · cases hFailure
  · intro hMem
    exact ⟨_, hMem, if_pos rfl⟩

namespace Dispatch

variable {pool : Pool} {requests : List Request} {moves : List Move} {dispatch later : Dispatch}
  {move : Move}

/-- What holds of a batch at every moment, if its pool has workers. -/
structure Tracks (pool : Pool) (requests : List Request) (moves : List Move)
    (dispatch : Dispatch) : Prop where
  pool_eq : dispatch.pool =
    if dispatch.jobs.isEmpty then pool else { pool with isRunning := true }
  unfaulted : dispatch.fault? = none
  length_le : dispatch.jobs.length ≤ requests.length
  pending_eq : dispatch.pending = requests.drop dispatch.jobs.length
  serves : ∀ (i : Nat) request, requests[i]? = some request →
    Serves pool.settings request (failures i moves) dispatch.jobs[i]?
  collected : ∀ (i : Nat) completion, dispatch.collected[i]? = some completion →
    dispatch.jobs[i]? = some (.done completion)

namespace Tracks

theorem opening (pool : Pool) (monitor : Monitor) (requests : List Request) :
    Tracks pool requests [] { pool, monitor, pending := requests } where
  pool_eq := rfl
  unfaulted := rfl
  length_le := Nat.zero_le _
  pending_eq := rfl
  serves i request _ := by
    rw [List.getElem?_nil]
    exact .unsent
  collected i completion h := by cases h

variable (h : Tracks pool requests moves dispatch)
include h

theorem settings_eq : dispatch.pool.settings = pool.settings := by
  rw [h.pool_eq]
  split <;> rfl

theorem workers_eq : dispatch.pool.workers = pool.workers := by
  rw [h.pool_eq]
  split <;> rfl

theorem collected_length_le : dispatch.collected.length ≤ dispatch.jobs.length := by
  cases hLast : dispatch.collected.length with
  | zero => exact Nat.zero_le _
  | succ n =>
    have hBound : n < dispatch.collected.length := hLast ▸ Nat.lt_succ_self n
    have hJob := h.collected n _ (List.getElem?_eq_getElem hBound)
    exact (List.getElem?_eq_some_iff.mp hJob).1

theorem submit {request : Request} {pending : List Request}
    (hPending : dispatch.pending = request :: pending) {call : Call}
    (hCall : call.Asks pool.settings request) (time : String) :
    Tracks pool requests (moves ++ [.submit time]) { dispatch with
      pool := { dispatch.pool with isRunning := true }
      pending
      jobs := dispatch.jobs ++ [.waiting call] } := by
  have hDrop := h.pending_eq.symm.trans hPending
  have hHere : requests[dispatch.jobs.length]? = some request := by
    rw [← List.head?_drop, hDrop]
    rfl
  exact {
    pool_eq := by
      have hSome : ¬ (dispatch.jobs ++ [Job.waiting call]).isEmpty = true := by simp
      rw [if_neg hSome, h.pool_eq]
      split <;> rfl
    unfaulted := h.unfaulted
    length_le := by
      rw [List.length_append]
      exact (List.getElem?_eq_some_iff.mp hHere).1
    pending_eq := by
      rw [List.length_append, List.length_singleton, ← List.tail_drop, hDrop]
      rfl
    serves := by
      intro i other hOther
      rw [failures_concat, Move.failure?, Option.toList_none, List.append_nil]
      refine serves_concat (h.serves i other hOther) ?_
      rintro rfl
      rwa [Option.some.inj (hOther.symm.trans hHere)]
    collected := by
      intro i completion hDone
      have hJob := h.collected i completion hDone
      rw [List.getElem?_append_left (List.getElem?_eq_some_iff.mp hJob).1]
      exact hJob }

theorem work {i : Nat} {job after : Job} {act : Act} {events : List Event}
    (hJob : dispatch.jobs[i]? = some job) (hDoes : job.Does dispatch.pool act after events)
    (monitor : Monitor) :
    Tracks pool requests (moves ++ [.work i act])
      { dispatch with monitor, jobs := dispatch.jobs.set i after } := by
  have hBound := (List.getElem?_eq_some_iff.mp hJob).1
  exact {
    pool_eq := by
      have hEmpty : (dispatch.jobs.set i after).isEmpty = dispatch.jobs.isEmpty := by
        cases dispatch.jobs <;> cases i <;> rfl
      rw [hEmpty]
      exact h.pool_eq
    unfaulted := h.unfaulted
    length_le := by
      rw [List.length_set]
      exact h.length_le
    pending_eq := by
      rw [List.length_set]
      exact h.pending_eq
    serves := by
      intro j request hRequest
      have hServes := h.serves j request hRequest
      rw [failures_concat]
      by_cases hPosition : i = j
      · subst hPosition
        rw [hJob, ← h.settings_eq] at hServes
        rw [List.getElem?_set_self hBound, Move.failure?, if_pos rfl, ← h.settings_eq]
        exact hDoes.serves hServes
      · rw [List.getElem?_set_ne hPosition, Move.failure?, if_neg hPosition, Option.toList_none,
          List.append_nil]
        exact hServes
    collected := by
      intro j completion hDone
      have hOld := h.collected j completion hDone
      -- A job that is done has been left alone.
      have hPosition : i ≠ j := by
        rintro rfl
        exact hDoes.not_isDone ⟨completion, Option.some.inj (hJob.symm.trans hOld)⟩
      rw [List.getElem?_set_ne hPosition]
      exact hOld }

theorem collect {completion : Completion}
    (hDone : dispatch.jobs[dispatch.collected.length]? = some (.done completion)) :
    Tracks pool requests (moves ++ [.collect])
      { dispatch with collected := dispatch.collected ++ [completion] } := by
  exact { h with
    serves := by
      intro i request hRequest
      rw [failures_concat, Move.failure?, Option.toList_none, List.append_nil]
      exact h.serves i request hRequest
    collected := by
      intro i other hOther
      by_cases hLess : i < dispatch.collected.length
      · rw [List.getElem?_append_left hLess] at hOther
        exact h.collected i other hOther
      · rw [List.getElem?_append_right (Nat.not_lt.mp hLess)] at hOther
        obtain ⟨hFirst, rfl⟩ := List.getElem?_eq_some_iff.mp hOther
        have hLast : i = dispatch.collected.length := by
          rw [List.length_singleton] at hFirst
          omega
        subst hLast
        simpa using hDone }

/-- Each move keeps track. -/
theorem does (hWorkers : 0 < pool.workers) (hDoes : dispatch.Does move later) :
    Tracks pool requests (moves ++ [move]) later := by
  have hPositive : 0 < dispatch.pool.workers := h.workers_eq ▸ hWorkers
  obtain ⟨log, hOpen⟩ := Pool.exists_start_eq_ok hPositive
  cases hDoes with
  | @submit request pending started _ hFault hPending hStart time =>
    rw [hOpen] at hStart
    cases hStart
    exact h.submit hPending (h.settings_eq ▸ Pool.asks_call _ time request) time
  | refuse _ _ hStart time =>
    rw [hOpen] at hStart
    cases hStart
  | work hJob hDoes _ worker now memory => exact h.work hJob hDoes _
  | collect hPending hDone => exact h.collect hDone

end Tracks

variable {monitor : Monitor}

theorem Plays.tracks (hWorkers : 0 < pool.workers)
    (h : Plays { pool, monitor, pending := requests } moves dispatch) :
    Tracks pool requests moves dispatch := by
  induction h with
  | nil => exact .opening pool monitor requests
  | snoc _ hDoes ih => exact ih.does hWorkers hDoes

theorem Plays.length_add_rank_le (hWorkers : 0 < pool.workers)
    (h : Plays { pool, monitor, pending := requests } moves dispatch) :
    moves.length + dispatch.rank ≤ 9 * requests.length := by
  induction h with
  | nil => simp [rank]
  | @snoc moves dispatch hPlays move later hDoes ih =>
    have hTracks := (hPlays.snoc hDoes).tracks hWorkers
    have hLess := hDoes.rank_lt hTracks.unfaulted
    rw [List.length_append, List.length_singleton]
    omega

theorem Plays.exists_does (hWorkers : 0 < pool.workers)
    (h : Plays { pool, monitor, pending := requests } moves dispatch)
    (hFinished : ¬ dispatch.IsFinished) :
    ∃ move later, dispatch.Does move later ∧ ∀ i, move.failure? i = none := by
  have hTracks := h.tracks hWorkers
  exact Dispatch.exists_does (hTracks.workers_eq ▸ hWorkers) hTracks.unfaulted
    hTracks.collected_length_le hFinished

/-- Wherever a schedule has led, the batch can be finished without another failure. -/
theorem Plays.exists_finished (hWorkers : 0 < pool.workers)
    (h : Plays { pool, monitor, pending := requests } moves dispatch) :
    ∃ all last, Plays { pool, monitor, pending := requests } all last ∧ last.IsFinished ∧
      ∀ i, failures i all = failures i moves := by
  -- The moves that are left get fewer.
  induction hRank : dispatch.rank using Nat.strongRecOn generalizing moves dispatch with
  | ind n ih =>
    by_cases hFinished : dispatch.IsFinished
    · exact ⟨moves, dispatch, h, hFinished, fun _ => rfl⟩
    · obtain ⟨move, later, hDoes, hFailure⟩ := h.exists_does hWorkers hFinished
      have hLater := h.snoc hDoes
      have hLess := hDoes.rank_lt (hLater.tracks hWorkers).unfaulted
      obtain ⟨all, last, hAll, hLast, hSame⟩ := ih later.rank (hRank ▸ hLess) hLater rfl
      refine ⟨all, last, hAll, hLast, fun i => ?_⟩
      rw [hSame, failures_concat, hFailure, Option.toList_none, List.append_nil]

end Dispatch

end DtdConformance.Run
