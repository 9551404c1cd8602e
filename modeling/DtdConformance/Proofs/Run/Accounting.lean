import DtdConformance.Proofs.Run.Station
import Mathlib.Algebra.GroupWithZero.Nat
import Mathlib.Data.List.Perm.Basic

/-! # The books of a shared monitor

Any number of runs share one monitor. They are at work side by side, each at a station of its own,
and their calls reach the monitor in any order. What it has counted depends on the calls alone and
not on their order. So once no request to execute is pending, the counters tell how many runs have
been executed and how they ended.
-/
namespace DtdConformance.Run
set_option autoImplicit false

open scoped List

/-! ## Counting -/

/-- The result that an event records, and whether it is the result of a failure. -/
def Event.record? : Event → Option (Result × Bool)
  | .recorded result isFailure => some (result, isFailure)
  | .began _ | .ended _ | .asked | .refused | .logged _ => none

def records (events : List Event) : List (Result × Bool) := events.filterMap Event.record?

def Counters.enter (counters : Counters) (record : Result × Bool) : Counters :=
  counters.add record.1 record.2

def Counters.enterAll (counters : Counters) (records : List (Result × Bool)) : Counters :=
  records.foldl Counters.enter counters

namespace Counters

instance : RightCommutative enter where
  right_comm counters first second := by
    unfold enter add
    -- Only two results with errors add to the same sum.
    split_ifs <;> simp only [mk.injEq, true_and]
    omega

theorem enterAll_append (counters : Counters) (left right : List (Result × Bool)) :
    counters.enterAll (left ++ right) = (counters.enterAll left).enterAll right :=
  List.foldl_append

theorem enterAll_perm (counters : Counters) {left right : List (Result × Bool)}
    (h : left ~ right) : counters.enterAll left = counters.enterAll right :=
  h.foldl_eq counters

/-- Every run that is counted is counted in one way. -/
def Balanced (counters : Counters) : Prop :=
  counters.completed = counters.valid + counters.invalid + counters.errored

theorem Balanced.enter {counters : Counters} (h : counters.Balanced) (record : Result × Bool) :
    (counters.enter record).Balanced := by
  unfold Balanced at h ⊢
  unfold Counters.enter add
  dsimp only
  split_ifs <;> simp only <;> omega

theorem Balanced.enterAll {counters : Counters} (h : counters.Balanced)
    (records : List (Result × Bool)) : (counters.enterAll records).Balanced := by
  induction records generalizing counters with
  | nil => exact h
  | cons record records ih => exact ih (h.enter record)

end Counters

theorem records_append (left right : List Event) :
    records (left ++ right) = records left ++ records right :=
  List.filterMap_append

theorem records_calls (events : List Event) : records (calls events) = records events := by
  rw [records, calls, List.filterMap_filter, records]
  congr 1
  funext event
  cases event <;> rfl

theorem records_script (stages : List Stage) : records (script stages) = [] := by
  rw [records, List.filterMap_eq_nil_iff]
  intro event hEvent
  obtain ⟨stage, _, hStage⟩ := List.mem_flatMap.mp hEvent
  rcases List.mem_pair.mp hStage with rfl | rfl <;> rfl

/-! ## Runs side by side -/

/-- A monitor hears an event, or nothing. -/
def Monitor.listen (monitor : Monitor) (worker now memory : Nat) : Option Event → Monitor
  | some event => monitor.hear worker now memory event
  | none => monitor

theorem Monitor.counters_listen (monitor : Monitor) (worker now memory : Nat)
    (heard : Option Event) : (monitor.listen worker now memory heard).counters =
      monitor.counters.enterAll (records heard.toList) := by
  cases heard with
  | none => rfl
  | some event =>
    cases event with
    | ended stage =>
      change (monitor.stop worker now memory stage.name).2.counters = monitor.counters
      unfold Monitor.stop
      split <;> rfl
    | _ => rfl

structure Floor where
  monitor : Monitor
  stations : List Station

namespace Floor

def runs (floor : Floor) : List DtdConformance.Run := floor.stations.map Station.run

def IsSettled (floor : Floor) : Prop := ∀ station ∈ floor.stations, station.IsSettled

/-- What a session may become that begins with a new monitor and no run. Runs join it at any time,
and any station may make the next move. The monitor hears on any worker, at any instant and with
any amount of memory in use. -/
inductive Reached : Floor → Prop
  | opened (startedAt : Nat) : Reached ⟨{ startedAt }, []⟩
  | join {floor : Floor} (h : Reached floor) (run : DtdConformance.Run)
      (hIdle : run.phase = .idle) : Reached ⟨floor.monitor, floor.stations ++ [⟨run, [], []⟩]⟩
  | move {floor : Floor} (h : Reached floor) (i : Nat) {station later : Station}
      {heard : Option Event} (hStation : floor.stations[i]? = some station)
      (hMoves : station.Moves heard later) (worker now memory : Nat) :
      Reached ⟨floor.monitor.listen worker now memory heard, floor.stations.set i later⟩

/-- The books agree with what has been told. -/
structure Kept (floor : Floor) : Prop where
  accounted : ∀ station ∈ floor.stations, station.Accounted
  counted : floor.monitor.counters =
    ({} : Counters).enterAll (floor.stations.flatMap fun station => records station.told)

theorem kept_of_reached {floor : Floor} (h : Reached floor) : floor.Kept := by
  induction h with
  | opened startedAt => exact ⟨fun _ hMem => (List.not_mem_nil hMem).elim, rfl⟩
  | @join floor _ run hIdle ih =>
    constructor
    · intro station hMem
      rcases List.mem_append.mp hMem with hOld | hNew
      · exact ih.accounted station hOld
      · obtain rfl := List.mem_singleton.mp hNew
        have hPassed : run.phase.passed? = some [] := by rw [hIdle]; rfl
        exact Run.Accounted.going hPassed rfl
    · rw [ih.counted]
      simp [records]
  | @move floor _ i station later heard hStation hMoves worker now memory ih =>
    obtain ⟨hBound, hHere⟩ := List.getElem?_eq_some_iff.mp hStation
    constructor
    · intro other hMem
      rcases List.mem_or_eq_of_mem_set hMem with hOld | rfl
      · exact ih.accounted other hOld
      · exact (ih.accounted station (List.mem_of_getElem? hStation)).move hMoves
    · -- The new record is heard last, but its station may stand before others.
      let before := (floor.stations.take i).flatMap fun station => records station.told
      let after := (floor.stations.drop (i + 1)).flatMap fun station => records station.told
      have hOld : (floor.stations.flatMap fun station => records station.told) =
          before ++ (records station.told ++ after) := by
        conv_lhs => rw [← List.take_append_drop i floor.stations, ← List.getElem_cons_drop hBound,
          hHere, List.flatMap_append, List.flatMap_cons]
      have hNew : ((floor.stations.set i later).flatMap fun station => records station.told) =
          before ++ (records station.told ++ (records heard.toList ++ after)) := by
        rw [List.set_eq_take_append_cons_drop, if_pos hBound, List.flatMap_append,
          List.flatMap_cons, hMoves.told_eq, records_append, List.append_assoc]
      have hPerm : before ++ (records station.told ++ (records heard.toList ++ after)) ~
          (before ++ (records station.told ++ after)) ++ records heard.toList := by
        rw [List.append_assoc, List.append_assoc]
        exact (List.perm_append_comm.append_left _).append_left _
      rw [Monitor.counters_listen, ih.counted, hOld, hNew, Counters.enterAll_perm _ hPerm]
      exact (Counters.enterAll_append ..).symm

end Floor

/-! ## The books at the end -/

/-- What the monitor of some runs should have counted. Failures have errors of their own, but these
are no diagnostics. -/
def books (runs : List DtdConformance.Run) : Counters where
  completed := runs.countP fun run => run.status ≠ .idle
  valid := runs.countP fun run => run.result?.any fun result => result.isValid
  invalid := runs.countP fun run =>
    run.status = .success && run.result?.any fun result => !result.isValid
  errored := runs.countP fun run => run.status = .error
  diagnostics :=
    let results := (runs.filter fun run => run.status = .success).filterMap
      DtdConformance.Run.result?
    ((results.filter fun result => !result.isValid).map Result.errorCount).sum

/-- The result of a run, if it has one, and whether it is the result of a failure. -/
def outcome? (run : DtdConformance.Run) : Option (Result × Bool) :=
  run.result?.map fun result => (result, decide (run.status = .error))

theorem outcome?_cases (run : DtdConformance.Run) :
    (∃ found, run.status = .success ∧
      run.result? = some ((Ending.checked found).result run.time)) ∨
    (∃ failure, run.status = .error ∧
      run.result? = some ((Ending.failed failure).result run.time)) ∨
    (run.status = .idle ∨ run.status = .validating) ∧ run.result? = none := by
  unfold status result?
  cases run.phase with
  | finished ending =>
    cases ending with
    | checked found => exact Or.inl ⟨found, rfl, rfl⟩
    | failed failure => exact Or.inr (Or.inl ⟨failure, rfl, rfl⟩)
  | idle => exact Or.inr (Or.inr ⟨Or.inl rfl, rfl⟩)
  | _ => exact Or.inr (Or.inr ⟨Or.inr rfl, rfl⟩)

theorem enterAll_outcome? (runs : List DtdConformance.Run) {run : DtdConformance.Run}
    (h : run.status ≠ .validating) :
    (books runs).enterAll run.outcome?.toList = books (runs ++ [run]) := by
  rcases run.outcome?_cases with ⟨found, hStatus, hResult⟩ | ⟨failure, hStatus, hResult⟩ |
    ⟨hStatus, hResult⟩
  · cases hValid : found.isEmpty <;>
      simp [books, outcome?, hStatus, hResult, Counters.enterAll, Counters.enter, Counters.add,
        Ending.result, Ending.isValid, hValid]
  · simp [books, outcome?, hStatus, hResult, Counters.enterAll, Counters.enter, Counters.add,
      Ending.result, Ending.isValid]
  · have hIdle : run.status = .idle := hStatus.resolve_right h
    simp [books, outcome?, hIdle, hResult, Counters.enterAll]

theorem enterAll_outcomes {runs : List DtdConformance.Run}
    (h : ∀ run ∈ runs, run.status ≠ .validating) :
    ({} : Counters).enterAll (runs.filterMap outcome?) = books runs := by
  induction runs using List.reverseRecOn with
  | nil => rfl
  | append_singleton runs run ih =>
    have hEarlier := ih fun other hMem => h other (List.mem_append_left _ hMem)
    have hLast := h run (List.mem_append_right _ List.mem_cons_self)
    rw [List.filterMap_append, Counters.enterAll_append, hEarlier, ← enterAll_outcome? runs hLast,
      List.filterMap_eq_flatMap_toList, List.flatMap_singleton]

theorem Station.Orderly.records_told {station : Station} (h : station.Orderly)
    (hSettled : station.IsSettled) : records station.told = station.run.outcome?.toList := by
  rw [← records_calls]
  by_cases hIdle : station.run.status = .idle
  · have hNone : station.run.result? = none := (result?_eq_none_iff station.run).mpr (Or.inl hIdle)
    rw [h.untouched hIdle, outcome?, hNone]
    rfl
  · obtain ⟨stages, result, _, hResult, hCalls⟩ := h.settled hSettled hIdle
    rw [hCalls, records_append, records_script, outcome?, hResult]
    rfl

namespace Floor

theorem counters_of_settled {floor : Floor} (h : floor.Kept) (hSettled : floor.IsSettled) :
    floor.monitor.counters = books floor.runs := by
  have hRecords : (floor.stations.flatMap fun station => records station.told) =
      floor.runs.filterMap outcome? := by
    rw [runs, List.filterMap_map, List.filterMap_eq_flatMap_toList]
    apply List.flatMap_congr
    intro station hMem
    exact (h.accounted station hMem).orderly.records_told (hSettled station hMem)
  rw [h.counted, hRecords, enterAll_outcomes]
  intro run hMem
  obtain ⟨station, hStation, rfl⟩ := List.mem_map.mp hMem
  exact (hSettled station hStation).2

/-- However the runs of a session take turns, each calls the monitor in order, and every run that
has been counted is counted in one way. Once nothing is pending, the counters are the books of the
runs. -/
theorem accounts_of_reached {floor : Floor} (h : Reached floor) :
    (∀ station ∈ floor.stations, station.Orderly) ∧ floor.monitor.counters.Balanced ∧
      (floor.IsSettled → floor.monitor.counters = books floor.runs) := by
  have hKept := kept_of_reached h
  refine ⟨fun station hMem => (hKept.accounted station hMem).orderly, ?_, ?_⟩
  · rw [hKept.counted]
    have hNew : ({} : Counters).Balanced := rfl
    exact hNew.enterAll _
  · exact counters_of_settled hKept

/-- The monitor may hear all that a run has to tell before anything else happens. -/
theorem Reached.tellAll {floor : Floor} (h : Reached floor) (i : Nat)
    {run : DtdConformance.Run} {told unheard : List Event}
    (hStation : floor.stations[i]? = some ⟨run, told, unheard⟩) :
    ∃ monitor, Reached ⟨monitor, floor.stations.set i ⟨run, told ++ unheard, []⟩⟩ := by
  induction unheard generalizing floor told with
  | nil =>
    obtain ⟨hBound, hHere⟩ := List.getElem?_eq_some_iff.mp hStation
    refine ⟨floor.monitor, ?_⟩
    rw [List.append_nil, ← hHere, List.set_getElem_self hBound]
    exact h
  | cons event unheard ih =>
    have hHeard := h.move i hStation (.tell run told event unheard) 0 0 0
    have hBound := (List.getElem?_eq_some_iff.mp hStation).1
    obtain ⟨monitor, hRest⟩ := ih hHeard (List.getElem?_set_self hBound)
    rw [List.set_set, List.append_assoc, List.singleton_append] at hRest
    exact ⟨monitor, hRest⟩

/-- A run may take some steps, and the monitor hears of each before the next one. -/
theorem Reached.serve {floor : Floor} (h : Reached floor) (i n : Nat)
    {run : DtdConformance.Run} {told : List Event}
    (hStation : floor.stations[i]? = some ⟨run, told, []⟩) :
    ∃ monitor, Reached
      ⟨monitor, floor.stations.set i ⟨(run.steps n).1, told ++ (run.steps n).2, []⟩⟩ := by
  induction n generalizing floor run told with
  | zero => exact h.tellAll i hStation
  | succ n ih =>
    have hStep := h.move i hStation (.step run told) 0 0 0
    have hBound := (List.getElem?_eq_some_iff.mp hStation).1
    obtain ⟨heard, hTold⟩ := hStep.tellAll i (List.getElem?_set_self hBound)
    rw [List.set_set] at hTold
    obtain ⟨monitor, hRest⟩ := ih hTold (List.getElem?_set_self hBound)
    rw [List.set_set, List.append_assoc] at hRest
    exact ⟨monitor, hRest⟩

/-- Three runs take turns. The first has a child too many. It is asked to execute when it is in
progress and once more at its end. The second has no declarations, and a fault breaks off the third
in its first stage. A fourth is never executed. -/
theorem accounts_of_four_runs : ∃ floor, Reached floor ∧
    floor.runs.map status = [.success, .error, .error, .idle] ∧
      (∀ station ∈ floor.stations, station.Orderly) ∧
      floor.monitor.counters = ⟨3, 0, 1, 2, 1⟩ := by
  let first : DtdConformance.Run :=
    { declarations := "<!ELEMENT r EMPTY><!ELEMENT s EMPTY>".toList, document := []
      settings := {}, time := ""
      reader := fun _ => .answer (.root ⟨"r", none, .element "s" none .done .done⟩) [] }
  let second : DtdConformance.Run := { first with declarations := [] }
  have hJoined := (((Reached.opened 0).join first rfl).join second rfl).join first rfl
  have hOpened := hJoined.join first rfl
  obtain ⟨_, hCompiled⟩ := hOpened.serve 0 2 rfl
  obtain ⟨_, hSecond⟩ := hCompiled.serve 1 stepCount rfl
  have hBegun := hSecond.move 2 rfl (.step first []) 0 0 0
  have hFault : Breaks first.step.1 (during .compile []) := .within rfl (by decide) rfl
  have hBroken := hBegun.move 2 rfl (.breakOff hFault "lost" []) 0 0 0
  obtain ⟨_, hThird⟩ := hBroken.tellAll 2 rfl
  have hRefused := hThird.move 0 rfl (.execute ..) 0 0 0
  obtain ⟨_, hGoing⟩ := hRefused.tellAll 0 rfl
  obtain ⟨_, hFirst⟩ := hGoing.serve 0 3 rfl
  have hAgain := hFirst.move 0 rfl (.execute ..) 0 0 0
  obtain ⟨monitor, hLast⟩ := hAgain.tellAll 0 rfl
  obtain ⟨hOrderly, _, hCounters⟩ := accounts_of_reached hLast
  refine ⟨_, hLast, ?_, hOrderly, (hCounters ?_).trans ?_⟩
  · unfold runs
    dsimp only
    decide +kernel
  · unfold IsSettled Station.IsSettled
    dsimp only
    decide +kernel
  · unfold runs
    dsimp only
    decide +kernel

end Floor

end DtdConformance.Run
