import Microcosm.Library.Loop
import Microcosm.Lib.CreateWorker

/-!
# The worker manager of the DM job master

`WorkerManager.TickImpl` of `jobmaster/dm/worker_manager.go` and the three passes it makes:
`removeOfflineWorkers`, `stopUnneededWorkers` (or `onJobNotExist` when the job cannot be
read) and `checkAndScheduleWorkers`, with the unit helpers `getCurrentUnit`,
`workerIdxInSeq`, `nextWorkerIdxAndType` and `getNextUnit`, and the worker statuses of
`jobmaster/dm/runtime/worker_status.go`.

The worker-status map is an `AList` from task IDs; the job's `Tasks` map is one too, and a
`range` over either map visits its entries in the order of the list, so that every order
of Go's iteration is the order of some list. The agents are the environment: their answers
are functions of the arguments of each call (`Agents`), and the calls made are kept, in
order, as a ghost log. Every `time.Now()` of one tick reads the same clock value `now`.
The `log.L().Panic` calls, and the index out of range of `Upstreams[0]`, are the errors
`Panic`; an error of an agent is an `Error` the code records and goes on.

A `TaskCfg` keeps the three fields the worker manager reads (`Name`, `TaskMode` and the
`SourceID` of each upstream); the task's `Stage` and the rest of the config are read by no
modelled function.
-/

namespace Microcosm

namespace Jobmaster

namespace Dm

open Lib (WorkerType)

/-- `runtime.WorkerStage`. -/
inductive WorkerStage
  | workerCreating
  | workerOnline
  | workerFinished
  | workerOffline
  deriving DecidableEq, Repr

/-- `runtime.HeartbeatInterval`. -/
def heartbeatInterval : Nat :=
  3 * second

/-- `runtime.WorkerStatus`. -/
structure WorkerStatus where
  taskID : String
  id : WorkerID
  unit : WorkerType
  stage : WorkerStage
  createdTime : Nat
  deriving DecidableEq, Repr

namespace WorkerStatus

/-- `IsOffline`. -/
def isOffline (w : WorkerStatus) : Bool :=
  w.stage == .workerOffline

/-- `CreateFailed`: still creating two heartbeat intervals after its creation. -/
def createFailed (w : WorkerStatus) (now : Nat) : Bool :=
  w.stage == .workerCreating && decide (w.createdTime + 2 * heartbeatInterval < now)

/-- `RunAsExpected`: every stage but offline. -/
def runAsExpected (w : WorkerStatus) : Bool :=
  w.stage == .workerOnline || w.stage == .workerCreating || w.stage == .workerFinished

end WorkerStatus

/-- `runtime.InitWorkerStatus`, created at `now`. -/
def initWorkerStatus (taskID : String) (unit : WorkerType) (id : WorkerID) (now : Nat) :
    WorkerStatus :=
  ⟨taskID, id, unit, .workerCreating, now⟩

/-- `config.TaskCfg`, by the fields the worker manager reads; `upstreams` are the
`SourceID`s of `Upstreams`. -/
structure TaskCfg where
  name : String
  taskMode : String
  upstreams : List String
  deriving DecidableEq, Repr

/-- `metadata.Task`, by its config. -/
structure Task where
  cfg : TaskCfg
  deriving DecidableEq, Repr

/-- `metadata.Job`, by its tasks. -/
structure Job where
  tasks : AList fun _ : String => Task

/-- `NewDMResourceID`: a resource of type `local` (`ResourceTypeLocalFile`). -/
def newDMResourceID (taskName sourceName : String) : String :=
  "/" ++ "local" ++ "/" ++ taskName ++ "/" ++ sourceName

/-- `dmconfig.ModeAll`. -/
def modeAll : String := "all"

/-- `dmconfig.ModeFull`. -/
def modeFull : String := "full"

/-- `dmconfig.ModeIncrement`. -/
def modeIncrement : String := "incremental"

/-- `workerSeqMap`: the units of each task mode, in the order a task runs them. -/
def workerSeqMap (taskMode : String) : Option (List WorkerType) :=
  if taskMode = modeAll then some [.workerDMDump, .workerDMLoad, .workerDMSync]
  else if taskMode = modeFull then some [.workerDMDump, .workerDMLoad]
  else if taskMode = modeIncrement then some [.workerDMSync]
  else none

/-- The panics of the worker manager. -/
inductive Panic
  /-- "Unexpected TaskMode". -/
  | unexpectedTaskMode (taskMode : String)
  /-- "worker not found": the unit is not in the sequence of the task mode. -/
  | workerNotFound (taskMode : String) (currWorker : WorkerType)
  /-- An index of a slice out of its range. -/
  | indexOutOfRange
  deriving DecidableEq, Repr

/-- The answers of the agents, by the arguments of each call: `CreateWorker` returns a
worker ID and an error, both possibly set. -/
structure Agents where
  createWorker : String → WorkerType → List String → WorkerID × Except Error Unit
  stopWorker : String → WorkerID → Except Error Unit
  isFresh : WorkerType → Task → Except Error Bool

/-- A call to the worker agent. -/
inductive AgentCall
  | createWorker (taskID : String) (workerType : WorkerType) (resources : List String)
  | stopWorker (taskID : String) (workerID : WorkerID)
  deriving DecidableEq, Repr

/-- The task a call is about. -/
def AgentCall.taskID : AgentCall → String
  | .createWorker taskID _ _ => taskID
  | .stopWorker taskID _ => taskID

/-- The worker-status map, from task IDs. -/
abbrev StatusMap := AList fun _ : String => WorkerStatus

/-- The worker manager: its `workerStatusMap`, and as a ghost the calls it made to the
worker agent. -/
structure WorkerManager where
  workerStatusMap : StatusMap
  calls : List AgentCall

/-! ## The units of a task -/

/-- The loop of `getCurrentUnit` over the units from the last one down: the first unit
whose checkpoint is not fresh. -/
def scanCheckpoints (isFresh : WorkerType → Task → Except Error Bool) (task : Task) :
    List WorkerType → Except Error (Option WorkerType)
  | [] => .ok none
  | w :: ws =>
      match isFresh w task with
      | .error err => .error err
      | .ok false => .ok (some w)
      | .ok true => scanCheckpoints isFresh task ws

/-- `getCurrentUnit`: the last unit with a checkpoint, or the first unit. -/
def getCurrentUnit (isFresh : WorkerType → Task → Except Error Bool) (task : Task) :
    Except Panic (Except Error WorkerType) :=
  match workerSeqMap task.cfg.taskMode with
  | none => .error (.unexpectedTaskMode task.cfg.taskMode)
  | some workerSeq =>
      match scanCheckpoints isFresh task workerSeq.reverse with
      | .error err => .ok (.error err)
      | .ok (some w) => .ok (.ok w)
      | .ok none =>
          match workerSeq with
          | w :: _ => .ok (.ok w)
          | [] => .error .indexOutOfRange

/-- `workerIdxInSeq`. -/
def workerIdxInSeq (taskMode : String) (worker : WorkerType) : Except Panic Nat :=
  match workerSeqMap taskMode with
  | none => .error (.unexpectedTaskMode taskMode)
  | some workerSeq =>
      match workerSeq.idxOf? worker with
      | some i => .ok i
      | none => .error (.workerNotFound taskMode worker)

/-- `nextWorkerIdxAndType`: the unit after `currWorker`; the last unit of the sequence is
its own successor ("workerSeq overflow"). -/
def nextWorkerIdxAndType (taskMode : String) (currWorker : WorkerType) :
    Except Panic (Nat × WorkerType) :=
  match workerSeqMap taskMode with
  | none => .error (.unexpectedTaskMode taskMode)
  | some workerSeq =>
      match workerIdxInSeq taskMode currWorker with
      | .error p => .error p
      | .ok idx =>
          let next := if idx = workerSeq.length - 1 then idx else idx + 1
          match workerSeq[next]? with
          | some w => .ok (next, w)
          | none => .error .indexOutOfRange

/-- `getNextUnit`: the unit of the worker, or its successor once it has finished. -/
def getNextUnit (task : Task) (worker : WorkerStatus) : Except Panic WorkerType :=
  if worker.stage ≠ .workerFinished then .ok worker.unit
  else
    match nextWorkerIdxAndType task.cfg.taskMode worker.unit with
    | .error p => .error p
    | .ok (_, workerType) => .ok workerType

/-! ## The passes of a tick -/

namespace WorkerManager

/-- `UpdateWorkerStatus`. -/
def updateWorkerStatus (wm : WorkerManager) (workerStatus : WorkerStatus) : WorkerManager :=
  { wm with workerStatusMap := wm.workerStatusMap.insert workerStatus.taskID workerStatus }

/-- `createWorker`: the status of the new worker is stored whenever the agent returned a
worker ID, also with an error. -/
def createWorker (agents : Agents) (now : Nat) (wm : WorkerManager) (taskID : String)
    (unit : WorkerType) (resources : List String) : WorkerManager × Except Error Unit :=
  let wm := { wm with calls := wm.calls ++ [.createWorker taskID unit resources] }
  match agents.createWorker taskID unit resources with
  | (workerID, err) =>
      if workerID.length ≠ 0 then
        (wm.updateWorkerStatus (initWorkerStatus taskID unit workerID now), err)
      else (wm, err)

/-- `stopWorker`: the status is removed when the agent stopped the worker. -/
def stopWorker (agents : Agents) (wm : WorkerManager) (taskID : String) (workerID : WorkerID) :
    WorkerManager × Except Error Unit :=
  let wm := { wm with calls := wm.calls ++ [.stopWorker taskID workerID] }
  match agents.stopWorker taskID workerID with
  | .error err => (wm, .error err)
  | .ok () => ({ wm with workerStatusMap := wm.workerStatusMap.erase taskID }, .ok ())

/-- The callback of the `Range` in `removeOfflineWorkers`. -/
def removeIfOffline (now : Nat) (wm : WorkerManager) (x : Σ _ : String, WorkerStatus) :
    WorkerManager :=
  if x.2.isOffline then { wm with workerStatusMap := wm.workerStatusMap.erase x.1 }
  else if x.2.createFailed now then { wm with workerStatusMap := wm.workerStatusMap.erase x.1 }
  else wm

/-- `removeOfflineWorkers`. -/
def removeOfflineWorkers (now : Nat) (wm : WorkerManager) : WorkerManager :=
  wm.workerStatusMap.entries.foldl (removeIfOffline now) wm

/-- The callback of the `Range` in `onJobNotExist`, with `recordError`. -/
def stopEach (agents : Agents) (st : WorkerManager × Option Error)
    (x : Σ _ : String, WorkerStatus) : WorkerManager × Option Error :=
  match stopWorker agents st.1 x.1 x.2.id with
  | (wm, .error err) => (wm, some err)
  | (wm, .ok ()) => (wm, st.2)

/-- `onJobNotExist`: every worker is stopped. -/
def onJobNotExist (agents : Agents) (wm : WorkerManager) : WorkerManager × Option Error :=
  wm.workerStatusMap.entries.foldl (stopEach agents) (wm, none)

/-- The callback of the `Range` in `stopUnneededWorkers`, with `recordError`. -/
def stopIfUnneeded (agents : Agents) (job : Job) (st : WorkerManager × Option Error)
    (x : Σ _ : String, WorkerStatus) : WorkerManager × Option Error :=
  if x.1 ∈ job.tasks then st else stopEach agents st x

/-- `stopUnneededWorkers`: the workers of tasks that are not in the job are stopped. -/
def stopUnneededWorkers (agents : Agents) (job : Job) (wm : WorkerManager) :
    WorkerManager × Option Error :=
  wm.workerStatusMap.entries.foldl (stopIfUnneeded agents job) (wm, none)

end WorkerManager

/-- What the loop of `checkAndScheduleWorkers` settles for a task, from the status `Load`
gives: `none` when the worker runs as expected at the unit it should, the unit of the
worker to create, or the error of `getCurrentUnit`. -/
def decideUnit (isFresh : WorkerType → Task → Except Error Bool) (task : Task) :
    Option WorkerStatus → Except Panic (Except Error (Option WorkerType))
  | some runningWorker =>
      match getNextUnit task runningWorker with
      | .error p => .error p
      | .ok nextUnit =>
          if runningWorker.runAsExpected && nextUnit == runningWorker.unit then .ok (.ok none)
          else .ok (.ok (some nextUnit))
  | none =>
      match getCurrentUnit isFresh task with
      | .error p => .error p
      | .ok (.error err) => .ok (.error err)
      | .ok (.ok nextUnit) => .ok (.ok (some nextUnit))

-- Many proofs below unfold this definition, and Lean elaborates them in parallel: the empty
-- section generates its equation lemmas here, once, so that the proofs do not all wait on it.
-- The simp set outside the section is unchanged.
section
attribute [local simp] decideUnit
end

/-- The resources a worker of the unit is created with: the DM local resource of the first
upstream, except for the first unit of the task mode. -/
def workerResources (task : Task) (nextUnit : WorkerType) : Except Panic (List String) :=
  match workerIdxInSeq task.cfg.taskMode nextUnit with
  | .error p => .error p
  | .ok 0 => .ok []
  | .ok _ =>
      match task.cfg.upstreams with
      | source :: _ => .ok [newDMResourceID task.cfg.name source]
      | [] => .error .indexOutOfRange

namespace WorkerManager

/-- One iteration of the loop of `checkAndScheduleWorkers`, for the task `x`, with
`recordError`. The loop's variables `runningWorker` and `nextUnit` are written on every path
before they are read, so an iteration reads none of the one before. -/
def scheduleWorker (agents : Agents) (now : Nat) (x : Σ _ : String, Task)
    (st : WorkerManager × Option Error) : (WorkerManager × Option Error) × Except Panic Unit :=
  match decideUnit agents.isFresh x.2 (st.1.workerStatusMap.lookup x.1) with
  | .error p => (st, .error p)
  | .ok (.error err) => ((st.1, some err), .ok ())
  | .ok (.ok none) => (st, .ok ())
  | .ok (.ok (some nextUnit)) =>
      match workerResources x.2 nextUnit with
      | .error p => (st, .error p)
      | .ok resources =>
          match createWorker agents now st.1 x.1 nextUnit resources with
          | (wm, .error err) => ((wm, some err), .ok ())
          | (wm, .ok ()) => ((wm, st.2), .ok ())

/-- `checkAndScheduleWorkers`. -/
def checkAndScheduleWorkers (agents : Agents) (now : Nat) (job : Job) (wm : WorkerManager) :
    Except Panic (WorkerManager × Option Error) :=
  match Loop.forEach (scheduleWorker agents now) job.tasks.entries (wm, none) with
  | (st, .ok ()) => .ok st
  | (_, .error p) => .error p

/-- `TickImpl`, on the outcome of `jobStore.Get`. The error it returns is the last one
recorded: of `checkAndScheduleWorkers` before `stopUnneededWorkers`. -/
def tickImpl (agents : Agents) (now : Nat) (state : Except Error Job) (wm : WorkerManager) :
    Except Panic (WorkerManager × Except Error Unit) :=
  let wm := removeOfflineWorkers now wm
  match state with
  | .error err =>
      match onJobNotExist agents wm with
      | (wm, some err2) => .ok (wm, .error err2)
      | (wm, none) => .ok (wm, .error err)
  | .ok job =>
      match stopUnneededWorkers agents job wm with
      | (wm, stopError) =>
          match checkAndScheduleWorkers agents now job wm with
          | .error p => .error p
          | .ok (wm, scheduleError) =>
              match scheduleError.or stopError with
              | some err => .ok (wm, .error err)
              | none => .ok (wm, .ok ())

end WorkerManager

/-! ## The units of a well-formed task -/

section Units

variable {taskMode : String} {workerSeq : List WorkerType} {task : Task}

theorem workerSeqMap_ne_nil (h : workerSeqMap taskMode = some workerSeq) : workerSeq ≠ [] := by
  unfold workerSeqMap at h
  split_ifs at h <;> (cases h; simp)

theorem workerIdxInSeq_of_mem (hseq : workerSeqMap taskMode = some workerSeq)
    {u : WorkerType} (hu : u ∈ workerSeq) :
    ∃ i, workerIdxInSeq taskMode u = .ok i ∧ workerSeq[i]? = some u := by
  obtain ⟨i, hi⟩ := Option.isSome_iff_exists.1 (List.isSome_idxOf?.2 hu)
  obtain ⟨hlt, hget, -⟩ := List.idxOf?_eq_some_iff.1 hi
  exact ⟨i, by simp [workerIdxInSeq, hseq, hi], by simp [hlt, hget]⟩

/-- The successor of a unit of the sequence is a unit of the sequence. -/
theorem nextWorkerIdxAndType_of_mem (hseq : workerSeqMap taskMode = some workerSeq)
    {u : WorkerType} (hu : u ∈ workerSeq) :
    ∃ r, nextWorkerIdxAndType taskMode u = .ok r ∧ r.2 ∈ workerSeq := by
  obtain ⟨i, hi, hget⟩ := workerIdxInSeq_of_mem hseq hu
  have hlt : i < workerSeq.length := (List.getElem?_eq_some_iff.1 hget).1
  -- the saturating successor index stays in range
  have hnext : (if i = workerSeq.length - 1 then i else i + 1) < workerSeq.length := by
    split <;> omega
  obtain ⟨w, hw⟩ : ∃ w, workerSeq[if i = workerSeq.length - 1 then i else i + 1]? = some w :=
    ⟨_, List.getElem?_eq_getElem hnext⟩
  refine ⟨(if i = workerSeq.length - 1 then i else i + 1, w), ?_, List.mem_of_getElem? hw⟩
  simp only [nextWorkerIdxAndType, hseq, hi, hw]

theorem getNextUnit_of_ne_finished (task : Task) {w : WorkerStatus}
    (h : w.stage ≠ .workerFinished) : getNextUnit task w = .ok w.unit := by
  simp [getNextUnit, h]

theorem getNextUnit_of_finished (hseq : workerSeqMap task.cfg.taskMode = some workerSeq)
    {w : WorkerStatus} (hw : w.stage = .workerFinished) (hu : w.unit ∈ workerSeq) :
    ∃ u ∈ workerSeq, getNextUnit task w = .ok u := by
  obtain ⟨⟨idx, u⟩, hr, hmem⟩ := nextWorkerIdxAndType_of_mem hseq hu
  exact ⟨u, hmem, by simp [getNextUnit, hw, hr]⟩

/-- When every checkpoint query answers, the scan returns, with a unit of the list if any. -/
theorem scanCheckpoints_eq_ok {isFresh : WorkerType → Task → Except Error Bool}
    (hfresh : ∀ u, ∃ b, isFresh u task = .ok b) :
    ∀ ws, ∃ o, scanCheckpoints isFresh task ws = .ok o ∧ ∀ u, o = some u → u ∈ ws
  | [] => ⟨none, rfl, by simp⟩
  | w :: ws => by
      obtain ⟨b, hb⟩ := hfresh w
      cases b with
      | false => exact ⟨some w, by simp [scanCheckpoints, hb], by simp⟩
      | true =>
          obtain ⟨o, ho, hmem⟩ := scanCheckpoints_eq_ok hfresh ws
          exact ⟨o, by simp [scanCheckpoints, hb, ho], fun u hu => .tail _ (hmem u hu)⟩

theorem getCurrentUnit_eq_ok {isFresh : WorkerType → Task → Except Error Bool}
    (hseq : workerSeqMap task.cfg.taskMode = some workerSeq)
    (hfresh : ∀ u, ∃ b, isFresh u task = .ok b) :
    ∃ u ∈ workerSeq, getCurrentUnit isFresh task = .ok (.ok u) := by
  obtain ⟨o, ho, hmem⟩ := scanCheckpoints_eq_ok hfresh workerSeq.reverse
  cases o with
  | some u => exact ⟨u, List.mem_reverse.1 (hmem u rfl), by simp [getCurrentUnit, hseq, ho]⟩
  | none =>
      -- no checkpoint: the first unit
      obtain ⟨w, ws, rfl⟩ := List.exists_cons_of_ne_nil (workerSeqMap_ne_nil hseq)
      exact ⟨w, List.mem_cons_self, by simp only [getCurrentUnit, hseq, ho]⟩

/-- The resources of a worker, once they are found: none for the first unit of the task
mode, the DM local resource of the first upstream otherwise. -/
theorem workerResources_eq_ok {u : WorkerType} {res : List String}
    (h : workerResources task u = .ok res) :
    res = if workerIdxInSeq task.cfg.taskMode u = .ok 0 then []
      else [newDMResourceID task.cfg.name (task.cfg.upstreams.headD "")] := by
  unfold workerResources at h
  split at h
  · cases h
  · next hi =>
      cases h
      simp [hi]
  · next i hne hi =>
      split at h
      · next source sources hup =>
          cases h
          simpa [hi, hup] using hne
      · cases h

theorem workerResources_isOk (hseq : workerSeqMap task.cfg.taskMode = some workerSeq)
    {u : WorkerType} (hu : u ∈ workerSeq) (hup : task.cfg.upstreams ≠ []) :
    ∃ res, workerResources task u = .ok res := by
  obtain ⟨i, hi, -⟩ := workerIdxInSeq_of_mem hseq hu
  obtain ⟨source, sources, hsrc⟩ := List.exists_cons_of_ne_nil hup
  cases i with
  | zero => exact ⟨[], by simp [workerResources, hi]⟩
  | succ i =>
      exact ⟨[newDMResourceID task.cfg.name source], by simp [workerResources, hi, hsrc]⟩

theorem decideUnit_none_ne {isFresh : WorkerType → Task → Except Error Bool} :
    decideUnit isFresh task none ≠ .ok (.ok none) := by
  simp only [decideUnit]
  split <;> simp

/-- `decideUnit` keeps a worker exactly when it runs as expected at the unit it should. -/
theorem decideUnit_some_eq_none {isFresh : WorkerType → Task → Except Error Bool}
    {w : WorkerStatus} :
    decideUnit isFresh task (some w) = .ok (.ok none) ↔
      w.runAsExpected = true ∧ getNextUnit task w = .ok w.unit := by
  simp only [decideUnit]
  split
  · next p hp => simp [hp]
  · next u hu =>
      rw [hu]
      split <;> simp_all

theorem decideUnit_some_eq_some {isFresh : WorkerType → Task → Except Error Bool}
    {w : WorkerStatus} {u : WorkerType}
    (h : decideUnit isFresh task (some w) = .ok (.ok (some u))) : getNextUnit task w = .ok u := by
  simp only [decideUnit] at h
  split at h
  · cases h
  · next u' hu =>
      split at h
      · cases h
      · cases h
        exact hu

theorem decideUnit_none_eq_some {isFresh : WorkerType → Task → Except Error Bool}
    {u : WorkerType} (h : decideUnit isFresh task none = .ok (.ok (some u))) :
    getCurrentUnit isFresh task = .ok (.ok u) := by
  simp only [decideUnit] at h
  split at h
  · cases h
  · cases h
  · next u' hu =>
      cases h
      exact hu

/-- On a well-formed task, with a status that is not offline and, once finished, has a unit
of the task mode, `decideUnit` keeps the worker or picks a unit of the task mode. -/
theorem decideUnit_eq_ok {isFresh : WorkerType → Task → Except Error Bool}
    (hseq : workerSeqMap task.cfg.taskMode = some workerSeq)
    (hfresh : ∀ u, ∃ b, isFresh u task = .ok b) {prior : Option WorkerStatus}
    (hprior : ∀ w, prior = some w →
      w.isOffline = false ∧ (w.stage = .workerFinished → w.unit ∈ workerSeq)) :
    decideUnit isFresh task prior = .ok (.ok none) ∨
      ∃ u ∈ workerSeq, decideUnit isFresh task prior = .ok (.ok (some u)) := by
  cases prior with
  | none =>
      obtain ⟨u, hu, h⟩ := getCurrentUnit_eq_ok hseq hfresh
      exact .inr ⟨u, hu, by simp [decideUnit, h]⟩
  | some w =>
      by_cases hfin : w.stage = .workerFinished
      · obtain ⟨u, hu, h⟩ := getNextUnit_of_finished hseq hfin ((hprior w rfl).2 hfin)
        by_cases hkeep : w.runAsExpected = true ∧ u = w.unit
        · exact .inl (decideUnit_some_eq_none.2 ⟨hkeep.1, hkeep.2 ▸ h⟩)
        · refine .inr ⟨u, hu, ?_⟩
          simp only [decideUnit, h]
          rw [if_neg (by simpa using hkeep)]
      · -- a worker that is neither offline nor finished stays at its unit
        have hr : w.runAsExpected = true := by
          have := (hprior w rfl).1
          simp only [WorkerStatus.isOffline, WorkerStatus.runAsExpected] at this ⊢
          cases hst : w.stage <;> simp_all
        exact .inl (decideUnit_some_eq_none.2 ⟨hr, getNextUnit_of_ne_finished task hfin⟩)

end Units

/-! ## The passes of a tick, task by task -/

/-- The view the passes of a tick have of one task: its status, and the calls about it. -/
def taskView (st : WorkerManager × Option Error) (k : String) :
    Option WorkerStatus × List AgentCall :=
  (st.1.workerStatusMap.lookup k, st.1.calls.filter fun c => c.taskID == k)

namespace WorkerManager

section Passes

variable (agents : Agents) (now : Nat) (job : Job)

theorem removeIfOffline_lookup (wm : WorkerManager) (x : Σ _ : String, WorkerStatus)
    (k : String) :
    (removeIfOffline now wm x).workerStatusMap.lookup k =
      if k = x.1 ∧ (x.2.isOffline || x.2.createFailed now) = true then none
      else wm.workerStatusMap.lookup k := by
  unfold removeIfOffline
  by_cases hk : k = x.1
  · subst hk
    split_ifs <;> simp_all [AList.lookup_erase]
  · split_ifs <;> simp_all [AList.lookup_erase_ne]

/-- `removeOfflineWorkers` drops exactly the statuses that are offline or failed to
create. -/
theorem removeOfflineWorkers_lookup (wm : WorkerManager) (k : String) :
    (removeOfflineWorkers now wm).workerStatusMap.lookup k =
      (wm.workerStatusMap.lookup k).filter fun w => !(w.isOffline || w.createFailed now) := by
  have hloop := Loop.foldl_pointwise Sigma.fst
    (fun (wm : WorkerManager) k => wm.workerStatusMap.lookup k)
    (Q := fun x v v' => v' = if (x.2.isOffline || x.2.createFailed now) = true then none else v)
    (f := removeIfOffline now)
    (fun s x => ⟨by rw [removeIfOffline_lookup]; simp,
      fun k hk => by rw [removeIfOffline_lookup]; simp [hk]⟩)
    wm.workerStatusMap.nodupKeys wm
  cases hk : wm.workerStatusMap.lookup k with
  | none =>
      have hout : k ∉ wm.workerStatusMap.entries.map Sigma.fst := AList.lookup_eq_none.1 hk
      rw [removeOfflineWorkers, hloop.2 k hout, hk]
      rfl
  | some w =>
      rw [removeOfflineWorkers, hloop.1 _ (AList.mem_lookup_iff.1 hk), hk, Option.filter_some]
      cases (w.isOffline || w.createFailed now) <;> rfl

theorem removeOfflineWorkers_calls (wm : WorkerManager) :
    (removeOfflineWorkers now wm).calls = wm.calls :=
  Loop.foldl_inv (P := fun wm' : WorkerManager => wm'.calls = wm.calls)
    (fun s x _ hs => by unfold removeIfOffline; split_ifs <;> exact hs) rfl

section Stop

variable (hstop : ∀ k id, k ∉ job.tasks → agents.stopWorker k id = .ok ())
include hstop

/-- A successful `stopWorker` logs its call and removes the status. -/
theorem stopIfUnneeded_eq (st : WorkerManager × Option Error) (x : Σ _ : String, WorkerStatus)
    (hx : x.1 ∉ job.tasks) :
    stopIfUnneeded agents job st x =
      ({ workerStatusMap := st.1.workerStatusMap.erase x.1,
         calls := st.1.calls ++ [.stopWorker x.1 x.2.id] }, st.2) := by
  simp [stopIfUnneeded, hx, stopEach, stopWorker, hstop x.1 x.2.id hx]

theorem stopIfUnneeded_view (st : WorkerManager × Option Error)
    (x : Σ _ : String, WorkerStatus) (k : String) :
    taskView (stopIfUnneeded agents job st x) k =
      if k = x.1 ∧ x.1 ∉ job.tasks then (none, (taskView st k).2 ++ [.stopWorker x.1 x.2.id])
      else taskView st k := by
  by_cases hx : x.1 ∈ job.tasks
  · simp [stopIfUnneeded, hx]
  · rw [stopIfUnneeded_eq agents job hstop st x hx]
    by_cases hk : k = x.1
    · subst hk
      simp [taskView, hx, AList.lookup_erase, AgentCall.taskID]
    · simp [taskView, hk, AList.lookup_erase_ne hk, AgentCall.taskID, Ne.symm hk]

/-- After `stopUnneededWorkers`, a task of the job keeps its view, and every other task has
no status and one more call for each status it had: the one that stopped its worker. -/
theorem stopUnneededWorkers_view (wm : WorkerManager) (k : String) :
    taskView (stopUnneededWorkers agents job wm) k =
      if k ∈ job.tasks then taskView (wm, none) k
      else (none, (taskView (wm, none) k).2 ++
        ((wm.workerStatusMap.lookup k).map fun w => AgentCall.stopWorker k w.id).toList) := by
  have hloop := Loop.foldl_pointwise Sigma.fst taskView
    (Q := fun x v v' => v' = if x.1 ∉ job.tasks then (none, v.2 ++ [.stopWorker x.1 x.2.id])
      else v)
    (f := stopIfUnneeded agents job)
    (fun s x => ⟨by rw [stopIfUnneeded_view agents job hstop]; simp,
      fun k hk => by rw [stopIfUnneeded_view agents job hstop]; simp [hk]⟩)
    wm.workerStatusMap.nodupKeys (wm, none)
  cases hk : wm.workerStatusMap.lookup k with
  | none =>
      have hout : k ∉ wm.workerStatusMap.entries.map Sigma.fst := AList.lookup_eq_none.1 hk
      rw [stopUnneededWorkers, hloop.2 k hout]
      split
      · rfl
      · simp [taskView, hk]
  | some w =>
      rw [stopUnneededWorkers, hloop.1 _ (AList.mem_lookup_iff.1 hk)]
      by_cases hkj : k ∈ job.tasks <;> simp [hkj]

theorem stopUnneededWorkers_snd (wm : WorkerManager) :
    (stopUnneededWorkers agents job wm).2 = none :=
  Loop.foldl_inv (P := fun st : WorkerManager × Option Error => st.2 = none)
    (fun st x _ hst => by
      by_cases hx : x.1 ∈ job.tasks
      · simpa [stopIfUnneeded, hx] using hst
      · rw [stopIfUnneeded_eq agents job hstop st x hx]
        exact hst)
    rfl

end Stop

/-- A `CreateWorker` that returns a worker ID logs its call and stores the new status. -/
theorem createWorker_eq {wm : WorkerManager} {taskID : String} {unit : WorkerType}
    {res : List String} (hid : (agents.createWorker taskID unit res).1 ≠ "") :
    createWorker agents now wm taskID unit res =
      ({ workerStatusMap := wm.workerStatusMap.insert taskID
           (initWorkerStatus taskID unit (agents.createWorker taskID unit res).1 now),
         calls := wm.calls ++ [.createWorker taskID unit res] },
       (agents.createWorker taskID unit res).2) := by
  rcases h : agents.createWorker taskID unit res with ⟨id, err⟩
  rw [h] at hid
  have hlen : id.length ≠ 0 := fun h0 => hid (String.length_eq_zero_iff.1 h0)
  simp [createWorker, h, hlen, updateWorkerStatus, initWorkerStatus]

/-- What the loop of `checkAndScheduleWorkers` makes of the view of the task `x`: it keeps
the worker, or creates one at the unit `decideUnit` picked, with its resources. -/
def Scheduled (x : Σ _ : String, Task) (v v' : Option WorkerStatus × List AgentCall) : Prop :=
  (decideUnit agents.isFresh x.2 v.1 = .ok (.ok none) ∧ v' = v) ∨
    ∃ u res, decideUnit agents.isFresh x.2 v.1 = .ok (.ok (some u)) ∧
      workerResources x.2 u = .ok res ∧
      v' = (some (initWorkerStatus x.1 u (agents.createWorker x.1 u res).1 now),
        v.2 ++ [.createWorker x.1 u res])

/-- The views from which an iteration neither panics nor records an error: the worker is
kept, or a unit and its resources are found and the agent creates the worker. -/
def Schedulable (x : Σ _ : String, Task) (v : Option WorkerStatus × List AgentCall) : Prop :=
  decideUnit agents.isFresh x.2 v.1 = .ok (.ok none) ∨
    ∃ u res, decideUnit agents.isFresh x.2 v.1 = .ok (.ok (some u)) ∧
      workerResources x.2 u = .ok res ∧ (agents.createWorker x.1 u res).1 ≠ "" ∧
      (agents.createWorker x.1 u res).2 = .ok ()

/-- One iteration of the loop, from a schedulable view: it returns, touches the view of its
own task alone, and records no error. -/
theorem scheduleWorker_view (x : Σ _ : String, Task) (st : WorkerManager × Option Error)
    (hx : Schedulable agents x (taskView st x.1)) :
    ∃ st', scheduleWorker agents now x st = (st', .ok ()) ∧
      Scheduled agents now x (taskView st x.1) (taskView st' x.1) ∧
      (∀ k, k ≠ x.1 → taskView st' k = taskView st k) ∧ st'.2 = st.2 := by
  rcases hx with hkeep | ⟨u, res, hu, hres, hid, hok⟩
  · -- the worker runs as expected: nothing changes
    refine ⟨st, ?_, .inl ⟨hkeep, rfl⟩, fun _ _ => rfl, rfl⟩
    simp only [scheduleWorker]
    rw [show decideUnit agents.isFresh x.2 (st.1.workerStatusMap.lookup x.1) = _ from hkeep]
  · have hcreate : createWorker agents now st.1 x.1 u res = _ := createWorker_eq agents now hid
    rw [hok] at hcreate
    refine ⟨({ workerStatusMap := st.1.workerStatusMap.insert x.1
                 (initWorkerStatus x.1 u (agents.createWorker x.1 u res).1 now),
               calls := st.1.calls ++ [.createWorker x.1 u res] }, st.2), ?_, ?_, ?_, rfl⟩
    · simp only [scheduleWorker]
      rw [show decideUnit agents.isFresh x.2 (st.1.workerStatusMap.lookup x.1) = _ from hu]
      simp only [hres, hcreate]
    · exact .inr ⟨u, res, hu, hres, by simp [taskView, AgentCall.taskID]⟩
    · intro k hk
      simp [taskView, AList.lookup_insert_ne hk, AgentCall.taskID, Ne.symm hk]

/-- An iteration whose unit queries and creation answer records no error, whatever it
meets. -/
theorem scheduleWorker_snd (x : Σ _ : String, Task)
    (hfresh : ∀ u, ∃ b, agents.isFresh u x.2 = .ok b)
    (hcreate : ∀ u res, (agents.createWorker x.1 u res).2 = .ok ())
    (st : WorkerManager × Option Error) : (scheduleWorker agents now x st).1.2 = st.2 := by
  unfold scheduleWorker
  split
  · rfl
  · next err herr =>
      -- `getCurrentUnit` fails only when a checkpoint query fails
      exfalso
      cases hv : st.1.workerStatusMap.lookup x.1 with
      | some w =>
          rw [hv] at herr
          simp only [decideUnit] at herr
          split at herr
          · cases herr
          · split at herr <;> cases herr
      | none =>
          rw [hv] at herr
          simp only [decideUnit] at herr
          split at herr
          · cases herr
          · next err' hcur =>
              unfold getCurrentUnit at hcur
              split at hcur
              · cases hcur
              · next seq hseq =>
                  obtain ⟨o, ho, -⟩ := scanCheckpoints_eq_ok hfresh seq.reverse
                  rw [ho] at hcur
                  cases o with
                  | some u => cases hcur
                  | none =>
                      cases seq with
                      | nil => cases hcur
                      | cons w ws => cases hcur
          · cases herr
  · rfl
  · next nextUnit hu =>
      split
      · rfl
      · next resources hres =>
          split
          · next wm err hcw =>
              -- the agent's creation answers without an error
              exfalso
              have hok := hcreate nextUnit resources
              unfold createWorker at hcw
              rcases h : agents.createWorker x.1 nextUnit resources with ⟨id, err'⟩
              rw [h] at hcw hok
              simp only at hok
              subst hok
              dsimp only at hcw
              split at hcw <;> simp at hcw
          · rfl

/-- `checkAndScheduleWorkers` from schedulable views of the tasks of the job, with agents
that answer: it returns without an error, each task of the job is scheduled from its view,
and every other task keeps its view. -/
theorem checkAndScheduleWorkers_eq_ok (wm : WorkerManager)
    (hsched : ∀ x ∈ job.tasks.entries, Schedulable agents x (taskView (wm, none) x.1))
    (hfresh : ∀ x ∈ job.tasks.entries, ∀ u, ∃ b, agents.isFresh u x.2 = .ok b)
    (hcreate : ∀ x ∈ job.tasks.entries, ∀ u res, (agents.createWorker x.1 u res).2 = .ok ()) :
    ∃ wm', checkAndScheduleWorkers agents now job wm = .ok (wm', none) ∧
      (∀ x ∈ job.tasks.entries,
        Scheduled agents now x (taskView (wm, none) x.1) (taskView (wm', none) x.1)) ∧
      ∀ k, k ∉ job.tasks → taskView (wm', none) k = taskView (wm, none) k := by
  have hbody : ∀ x st, Schedulable agents x (taskView st x.1) →
      ∃ st', scheduleWorker agents now x st = (st', .ok ()) ∧
        Scheduled agents now x (taskView st x.1) (taskView st' x.1) ∧
        ∀ k, k ≠ x.1 → taskView st' k = taskView st k :=
    fun x st hx => (scheduleWorker_view agents now x st hx).imp fun _ h => ⟨h.1, h.2.1, h.2.2.1⟩
  obtain ⟨st, hrun, hin, hout⟩ :=
    Loop.forEach_pointwise Sigma.fst taskView hbody job.tasks.nodupKeys (wm, none) hsched
  -- no iteration records an error
  have hinv : ∀ x ∈ job.tasks.entries, ∀ st : WorkerManager × Option Error, st.2 = none →
      (scheduleWorker agents now x st).1.2 = none :=
    fun x hx st hst => (scheduleWorker_snd agents now x (hfresh x hx) (hcreate x hx) st).trans hst
  have hsnd : st.2 = none := by
    have := Loop.forEach_fst_inv (P := fun st : WorkerManager × Option Error => st.2 = none) hinv
      (s := (wm, none)) rfl
    rwa [hrun] at this
  refine ⟨st.1, ?_, hin, fun k hk => hout k fun h => hk (AList.mem_keys.2 h)⟩
  rw [checkAndScheduleWorkers, hrun, ← hsnd]

end Passes

section View

variable {agents : Agents} {now : Nat} {job : Job} {statuses : StatusMap} {wm : WorkerManager}
  (hjob : ∀ k t, job.tasks.lookup k = some t →
    Scheduled agents now ⟨k, t⟩
      ((statuses.lookup k).filter fun w => !(w.isOffline || w.createFailed now), [])
      (taskView (wm, none) k))
  (hother : ∀ k, k ∉ job.tasks → (taskView (wm, none) k).1 = none ∧
    ∀ c ∈ (taskView (wm, none) k).2, ∃ id, c = .stopWorker k id)

/-- The status a task reaches the scheduling loop with: its status, if that is neither
offline nor create-failed. -/
theorem surviving_eq_some (now : Nat) (statuses : StatusMap) (k : String) (w : WorkerStatus) :
    (statuses.lookup k).filter (fun w => !(w.isOffline || w.createFailed now)) = some w ↔
      statuses.lookup k = some w ∧ w.isOffline = false ∧ w.createFailed now = false := by
  rw [Option.filter_eq_some_iff]
  simp

include hjob in
/-- A task of the job ends with a status, and with no call or its one creation. -/
theorem view_calls {k : String} {t : Task} (hk : job.tasks.lookup k = some t) :
    (taskView (wm, none) k).1.isSome ∧ ((taskView (wm, none) k).2 = [] ∨
      ∃ u res, (taskView (wm, none) k).2 = [.createWorker k u res]) := by
  rcases hjob k t hk with ⟨hkeep, hv⟩ | ⟨u, res, -, -, hv⟩
  · rw [hv]
    refine ⟨?_, .inl rfl⟩
    cases ho : (statuses.lookup k).filter fun w => !(w.isOffline || w.createFailed now) with
    | none => exact absurd (ho ▸ hkeep) decideUnit_none_ne
    | some w => rfl
  · rw [hv]
    exact ⟨rfl, .inr ⟨u, res, rfl⟩⟩

include hjob hother in
/-- The tasks with a status after the tick are the tasks of the job. -/
theorem keys_of_view (k : String) : k ∈ wm.workerStatusMap ↔ k ∈ job.tasks := by
  constructor
  · intro hk
    -- a task outside the job has no status
    by_contra hkj
    exact AList.lookup_eq_none.1 (hother k hkj).1 hk
  · intro hk
    obtain ⟨t, ht⟩ := Option.isSome_iff_exists.1 (AList.lookup_isSome.2 hk)
    exact AList.lookup_isSome.1 (view_calls hjob ht).1

include hjob in
/-- A task whose worker runs as expected at the unit it should keeps its status, and no call
is made for it. -/
theorem kept_of_view {k : String} {t : Task} {w : WorkerStatus}
    (hk : job.tasks.lookup k = some t) (hsw : statuses.lookup k = some w)
    (hoff : w.isOffline = false) (hfail : w.createFailed now = false)
    (hr : w.runAsExpected = true) (hnext : getNextUnit t w = .ok w.unit) :
    wm.workerStatusMap.lookup k = some w ∧ ∀ c ∈ wm.calls, c.taskID ≠ k := by
  have hkeep : decideUnit agents.isFresh t (some w) = .ok (.ok none) :=
    decideUnit_some_eq_none.2 ⟨hr, hnext⟩
  have hprior := (surviving_eq_some now statuses k w).2 ⟨hsw, hoff, hfail⟩
  rcases hjob k t hk with ⟨-, hv⟩ | ⟨u, res, hdec, -, -⟩
  · rw [hprior] at hv
    simp only [taskView, Prod.mk.injEq] at hv
    refine ⟨hv.1, fun c hc hck => ?_⟩
    have : c ∈ wm.calls.filter fun c => c.taskID == k :=
      List.mem_filter.2 ⟨hc, by simp [hck]⟩
    rw [hv.2] at this
    cases this
  · rw [hprior, hkeep] at hdec
    cases hdec

include hjob in
/-- Every other task of the job gets one `CreateWorker` and a `Creating` status for the new
worker, at the unit of the surviving status or of the checkpoints, with the DM local resource
unless the unit is the first of its task mode. -/
theorem created_of_view {k : String} {t : Task} (hk : job.tasks.lookup k = some t)
    (hnot : ¬ ∃ w, statuses.lookup k = some w ∧ w.isOffline = false ∧
      w.createFailed now = false ∧ w.runAsExpected = true ∧ getNextUnit t w = .ok w.unit) :
    ∃ u res, wm.workerStatusMap.lookup k =
        some (initWorkerStatus k u (agents.createWorker k u res).1 now) ∧
      wm.calls.filter (fun c => c.taskID == k) = [.createWorker k u res] ∧
      ((∃ w, statuses.lookup k = some w ∧ w.isOffline = false ∧
          w.createFailed now = false ∧ getNextUnit t w = .ok u) ∨
        ((∀ w, statuses.lookup k = some w → (w.isOffline || w.createFailed now) = true) ∧
          getCurrentUnit agents.isFresh t = .ok (.ok u))) ∧
      res = if workerIdxInSeq t.cfg.taskMode u = .ok 0 then []
        else [newDMResourceID t.cfg.name (t.cfg.upstreams.headD "")] := by
  rcases hjob k t hk with ⟨hkeep, -⟩ | ⟨u, res, hdec, hres, hv⟩
  · -- a kept worker is one the claim keeps
    exfalso
    cases ho : (statuses.lookup k).filter fun w => !(w.isOffline || w.createFailed now) with
    | none => exact decideUnit_none_ne (ho ▸ hkeep)
    | some w =>
        rw [ho] at hkeep
        obtain ⟨hsw, hoff, hfail⟩ := (surviving_eq_some now statuses k w).1 ho
        obtain ⟨hr, hnext⟩ := decideUnit_some_eq_none.1 hkeep
        exact hnot ⟨w, hsw, hoff, hfail, hr, hnext⟩
  · simp only [taskView, Prod.mk.injEq, List.nil_append] at hv
    refine ⟨u, res, hv.1, hv.2, ?_, workerResources_eq_ok hres⟩
    cases ho : (statuses.lookup k).filter fun w => !(w.isOffline || w.createFailed now) with
    | none =>
        rw [ho] at hdec
        refine .inr ⟨fun w hw => ?_, decideUnit_none_eq_some hdec⟩
        rw [Option.filter_eq_none_iff] at ho
        have hbad := ho w hw
        revert hbad
        cases w.isOffline <;> cases w.createFailed now <;> simp
    | some w =>
        rw [ho] at hdec
        obtain ⟨hsw, hoff, hfail⟩ := (surviving_eq_some now statuses k w).1 ho
        exact .inl ⟨w, hsw, hoff, hfail, decideUnit_some_eq_some hdec⟩

include hjob hother in
/-- Workers are created only for tasks of the job and stopped only for other tasks. -/
theorem calls_of_view : ∀ c ∈ wm.calls, match c with
    | .createWorker k _ _ => k ∈ job.tasks
    | .stopWorker k _ => k ∉ job.tasks := by
  -- each call is among the calls about its own task
  intro c hc
  have hcf : c ∈ (taskView (wm, none) c.taskID).2 := List.mem_filter.2 ⟨hc, by simp⟩
  cases c with
  | createWorker k u res =>
      show k ∈ job.tasks
      by_contra hk
      obtain ⟨id, hid⟩ := (hother k hk).2 _ hcf
      cases hid
  | stopWorker k id =>
      show k ∉ job.tasks
      intro hk
      change AgentCall.stopWorker k id ∈ (taskView (wm, none) k).2 at hcf
      obtain ⟨t, ht⟩ := Option.isSome_iff_exists.1 (AList.lookup_isSome.2 hk)
      rcases (view_calls hjob ht).2 with h | ⟨u, res, h⟩
      · rw [h] at hcf
        cases hcf
      · rw [h, List.mem_singleton] at hcf
        cases hcf

end View

section Tick

variable (agents : Agents) (now : Nat) (job : Job) (statuses : StatusMap)
  (hmode : ∀ k t, job.tasks.lookup k = some t → (workerSeqMap t.cfg.taskMode).isSome)
  (hunit : ∀ k t w, job.tasks.lookup k = some t → statuses.lookup k = some w →
    w.isOffline = false → w.createFailed now = false → w.stage = .workerFinished →
    w.unit ∈ (workerSeqMap t.cfg.taskMode).getD [])
  (hup : ∀ k t, job.tasks.lookup k = some t → t.cfg.upstreams ≠ [])
  (hcreate : ∀ k u res, k ∈ job.tasks →
    (agents.createWorker k u res).1 ≠ "" ∧ (agents.createWorker k u res).2 = .ok ())
  (hstop : ∀ k id, k ∉ job.tasks → agents.stopWorker k id = .ok ())
  (hfresh : ∀ k t u, job.tasks.lookup k = some t → ∃ b, agents.isFresh u t = .ok b)
include hmode hunit hup hcreate hstop hfresh

/-- The view a tick leaves of each task: a task of the job is scheduled from the status
`removeOfflineWorkers` left it, and every other task has no status and only calls that stop
its worker. -/
theorem tickImpl_view :
    ∃ wm, tickImpl agents now (.ok job) ⟨statuses, []⟩ = .ok (wm, .ok ()) ∧
      (∀ k t, job.tasks.lookup k = some t →
        Scheduled agents now ⟨k, t⟩
          ((statuses.lookup k).filter fun w => !(w.isOffline || w.createFailed now), [])
          (taskView (wm, none) k)) ∧
      ∀ k, k ∉ job.tasks → (taskView (wm, none) k).1 = none ∧
        ∀ c ∈ (taskView (wm, none) k).2, ∃ id, c = .stopWorker k id := by
  set wm1 := removeOfflineWorkers now ⟨statuses, []⟩
  set st2 := stopUnneededWorkers agents job wm1
  have hL1 : ∀ k, wm1.workerStatusMap.lookup k =
      (statuses.lookup k).filter fun w => !(w.isOffline || w.createFailed now) :=
    removeOfflineWorkers_lookup now ⟨statuses, []⟩
  have hC1 : wm1.calls = [] := removeOfflineWorkers_calls now _
  have hview2 := stopUnneededWorkers_view agents job hstop wm1
  -- a task of the job reaches the loop with the status `removeOfflineWorkers` left it
  have hjob2 : ∀ k t, job.tasks.lookup k = some t → taskView (st2.1, none) k =
      ((statuses.lookup k).filter fun w => !(w.isOffline || w.createFailed now), []) := by
    intro k t hk
    have hkj : k ∈ job.tasks := Map.mem_of_lookup_eq_some hk
    change taskView st2 k = _
    rw [hview2, if_pos hkj]
    simp only [taskView, hC1, List.filter_nil]
    rw [hL1]
  have hsched : ∀ x ∈ job.tasks.entries, Schedulable agents x (taskView (st2.1, none) x.1) := by
    rintro ⟨k, t⟩ hx
    have hk : job.tasks.lookup k = some t := AList.mem_lookup_iff.2 hx
    obtain ⟨workerSeq, hseq⟩ := Option.isSome_iff_exists.1 (hmode k t hk)
    rw [hjob2 k t hk]
    -- the surviving status is not offline, and a finished one has a unit of the task mode
    have hprior : ∀ w,
        (statuses.lookup k).filter (fun w => !(w.isOffline || w.createFailed now)) = some w →
          w.isOffline = false ∧ (w.stage = .workerFinished → w.unit ∈ workerSeq) := by
      intro w hw
      obtain ⟨hsw, hgood⟩ := Option.filter_eq_some_iff.1 hw
      simp only [Bool.not_or, Bool.and_eq_true, Bool.not_eq_eq_eq_not, Bool.not_true] at hgood
      refine ⟨hgood.1, fun hfin => ?_⟩
      simpa [hseq] using hunit k t w hk hsw hgood.1 hgood.2 hfin
    rcases decideUnit_eq_ok hseq (hfresh k t · hk) hprior with hkeep | ⟨u, hu, hdec⟩
    · exact .inl hkeep
    · obtain ⟨res, hres⟩ := workerResources_isOk hseq hu (hup k t hk)
      obtain ⟨hid, hok⟩ := hcreate k u res (Map.mem_of_lookup_eq_some hk)
      exact .inr ⟨u, res, hdec, hres, hid, hok⟩
  obtain ⟨wm3, hcheck, hin, hout⟩ := checkAndScheduleWorkers_eq_ok agents now job st2.1 hsched
    (fun x hx u => hfresh x.1 x.2 u (AList.mem_lookup_iff.2 hx))
    (fun x hx u res => (hcreate x.1 u res (AList.mem_keys.2 (List.mem_map_of_mem hx))).2)
  refine ⟨wm3, ?_, fun k t hk => ?_, fun k hk => ?_⟩
  · have hst2 : st2 = (st2.1, none) := Prod.ext rfl (stopUnneededWorkers_snd agents job hstop wm1)
    simp only [tickImpl]
    rw [show stopUnneededWorkers agents job (removeOfflineWorkers now ⟨statuses, []⟩) =
      (st2.1, none) from hst2, hcheck]
    rfl
  · rw [← hjob2 k t hk]
    exact hin ⟨k, t⟩ (AList.mem_lookup_iff.1 hk)
  · -- a task outside the job keeps what `stopUnneededWorkers` left it
    rw [hout k hk]
    change (taskView st2 k).1 = none ∧ ∀ c ∈ (taskView st2 k).2, ∃ id, c = .stopWorker k id
    rw [hview2, if_neg hk]
    refine ⟨rfl, fun c hc => ?_⟩
    simp only [taskView, hC1, List.filter_nil, List.nil_append] at hc
    cases hw : wm1.workerStatusMap.lookup k with
    | none => simp [hw] at hc
    | some w =>
        simp only [hw, Option.map_some, Option.toList_some, List.mem_singleton] at hc
        exact ⟨w.id, hc⟩

/-- On a well-formed job, with agents that answer, a tick leaves a status exactly for the
tasks of the job. A task whose worker runs as expected at the unit it should keeps its
status and no call is made for it. Every other task of the job gets one `CreateWorker`: at
the unit `getNextUnit` gives for the status that survived `removeOfflineWorkers`, or at
`getCurrentUnit` without one; with the DM local resource unless the unit is the first of
its task mode; and it gets a `Creating` status for the new worker. Workers are stopped only
for tasks outside the job. -/
theorem tickImpl_schedules_job_tasks :
    ∃ wm, tickImpl agents now (.ok job) ⟨statuses, []⟩ = .ok (wm, .ok ()) ∧
      (∀ k, k ∈ wm.workerStatusMap ↔ k ∈ job.tasks) ∧
      (∀ k t w, job.tasks.lookup k = some t → statuses.lookup k = some w →
        w.isOffline = false → w.createFailed now = false → w.runAsExpected = true →
        getNextUnit t w = .ok w.unit →
        wm.workerStatusMap.lookup k = some w ∧ ∀ c ∈ wm.calls, c.taskID ≠ k) ∧
      (∀ k t, job.tasks.lookup k = some t →
        (¬ ∃ w, statuses.lookup k = some w ∧ w.isOffline = false ∧
          w.createFailed now = false ∧ w.runAsExpected = true ∧
          getNextUnit t w = .ok w.unit) →
        ∃ u res, wm.workerStatusMap.lookup k =
            some (initWorkerStatus k u (agents.createWorker k u res).1 now) ∧
          wm.calls.filter (fun c => c.taskID == k) = [.createWorker k u res] ∧
          ((∃ w, statuses.lookup k = some w ∧ w.isOffline = false ∧
              w.createFailed now = false ∧ getNextUnit t w = .ok u) ∨
            ((∀ w, statuses.lookup k = some w → (w.isOffline || w.createFailed now) = true) ∧
              getCurrentUnit agents.isFresh t = .ok (.ok u))) ∧
          res = if workerIdxInSeq t.cfg.taskMode u = .ok 0 then []
            else [newDMResourceID t.cfg.name (t.cfg.upstreams.headD "")]) ∧
      (∀ c ∈ wm.calls, match c with
        | .createWorker k _ _ => k ∈ job.tasks
        | .stopWorker k _ => k ∉ job.tasks) := by
  obtain ⟨wm, htick, hjob, hother⟩ :=
    tickImpl_view agents now job statuses hmode hunit hup hcreate hstop hfresh
  exact ⟨wm, htick, keys_of_view hjob hother, fun _ _ _ hk => kept_of_view hjob hk,
    fun _ _ hk => created_of_view hjob hk, calls_of_view hjob hother⟩

end Tick

end WorkerManager

/-! ## A job and statuses to run a tick on -/

/-- Agents that answer every call: a new worker `"worker"`, a stopped worker, and no
checkpoint. -/
def answeringAgents : Agents where
  createWorker _ _ _ := ("worker", .ok ())
  stopWorker _ _ := .ok ()
  isFresh _ _ := .ok true

/-- A job of one task, `"task"`, in the task mode `mode`. -/
def oneTaskJob (mode : String) : Job :=
  ⟨(∅ : AList fun _ : String => Task).insert "task" ⟨⟨"job", mode, ["source"]⟩⟩⟩

/-- The status of the finished dump worker of `"task"`. -/
def finishedDump : StatusMap :=
  (∅ : StatusMap).insert "task" ⟨"task", "dump-worker", .workerDMDump, .workerFinished, 0⟩

/-- A job whose mode was changed to incremental while a dump worker of its task had
finished: the status is not offline and the agents answer every call, and the tick panics
in `workerIdxInSeq`. -/
theorem tickImpl_panics_on_unit_outside_mode :
    (∀ k u res, (answeringAgents.createWorker k u res).1 ≠ "" ∧
      (answeringAgents.createWorker k u res).2 = .ok ()) ∧
    (∀ k id, answeringAgents.stopWorker k id = .ok ()) ∧
    (∀ u t, ∃ b, answeringAgents.isFresh u t = .ok b) ∧
    (finishedDump.lookup "task").map (fun w => (w.isOffline, w.createFailed 0)) =
      some (false, false) ∧
    WorkerManager.tickImpl answeringAgents 0 (.ok (oneTaskJob modeIncrement))
      ⟨finishedDump, []⟩ = .error (.workerNotFound modeIncrement .workerDMDump) :=
  ⟨fun _ _ _ => ⟨by simp [answeringAgents], rfl⟩, fun _ _ => rfl, fun _ _ => ⟨true, rfl⟩,
    rfl, rfl⟩

theorem lookup_oneTaskJob {mode k : String} {t : Task}
    (h : (oneTaskJob mode).tasks.lookup k = some t) :
    k = "task" ∧ t = ⟨⟨"job", mode, ["source"]⟩⟩ := by
  rcases Map.lookup_insert_eq_some h with ⟨rfl, rfl⟩ | ⟨-, h⟩
  · exact ⟨rfl, rfl⟩
  · simp at h

/-- A status of a task that is no longer in the job, beside the finished dump worker. -/
def staleAndFinishedDump : StatusMap :=
  finishedDump.insert "old" ⟨"old", "old-worker", .workerDMSync, .workerOnline, 0⟩

theorem lookup_staleAndFinishedDump_task {w : WorkerStatus}
    (h : staleAndFinishedDump.lookup "task" = some w) :
    w = ⟨"task", "dump-worker", .workerDMDump, .workerFinished, 0⟩ := by
  rw [staleAndFinishedDump, AList.lookup_insert_ne (by decide), finishedDump,
    AList.lookup_insert] at h
  exact (Option.some.inj h).symm

/-- The tick on a job in the mode `all` whose dump worker has finished, beside the worker of a
task that left the job. -/
theorem tickImpl_schedules_oneTaskJob :
    (∀ k t, (oneTaskJob modeAll).tasks.lookup k = some t →
      (workerSeqMap t.cfg.taskMode).isSome) ∧
    (∀ k t w, (oneTaskJob modeAll).tasks.lookup k = some t →
      staleAndFinishedDump.lookup k = some w → w.isOffline = false →
      w.createFailed 0 = false → w.stage = .workerFinished →
      w.unit ∈ (workerSeqMap t.cfg.taskMode).getD []) ∧
    (∀ k t, (oneTaskJob modeAll).tasks.lookup k = some t → t.cfg.upstreams ≠ []) ∧
    (∀ k u res, k ∈ (oneTaskJob modeAll).tasks →
      (answeringAgents.createWorker k u res).1 ≠ "" ∧
        (answeringAgents.createWorker k u res).2 = .ok ()) ∧
    (∀ k id, k ∉ (oneTaskJob modeAll).tasks → answeringAgents.stopWorker k id = .ok ()) ∧
    (∀ k t u, (oneTaskJob modeAll).tasks.lookup k = some t →
      ∃ b, answeringAgents.isFresh u t = .ok b) ∧
    ∃ wm, WorkerManager.tickImpl answeringAgents 0 (.ok (oneTaskJob modeAll))
        ⟨staleAndFinishedDump, []⟩ = .ok (wm, .ok ()) ∧
      (∀ k, k ∈ wm.workerStatusMap ↔ k ∈ (oneTaskJob modeAll).tasks) ∧
      (∀ k t w, (oneTaskJob modeAll).tasks.lookup k = some t →
        staleAndFinishedDump.lookup k = some w →
        w.isOffline = false → w.createFailed 0 = false → w.runAsExpected = true →
        getNextUnit t w = .ok w.unit →
        wm.workerStatusMap.lookup k = some w ∧ ∀ c ∈ wm.calls, c.taskID ≠ k) ∧
      (∀ k t, (oneTaskJob modeAll).tasks.lookup k = some t →
        (¬ ∃ w, staleAndFinishedDump.lookup k = some w ∧ w.isOffline = false ∧
          w.createFailed 0 = false ∧ w.runAsExpected = true ∧ getNextUnit t w = .ok w.unit) →
        ∃ u res, wm.workerStatusMap.lookup k =
            some (initWorkerStatus k u (answeringAgents.createWorker k u res).1 0) ∧
          wm.calls.filter (fun c => c.taskID == k) = [.createWorker k u res] ∧
          ((∃ w, staleAndFinishedDump.lookup k = some w ∧ w.isOffline = false ∧
              w.createFailed 0 = false ∧ getNextUnit t w = .ok u) ∨
            ((∀ w, staleAndFinishedDump.lookup k = some w →
                (w.isOffline || w.createFailed 0) = true) ∧
              getCurrentUnit answeringAgents.isFresh t = .ok (.ok u))) ∧
          res = if workerIdxInSeq t.cfg.taskMode u = .ok 0 then []
            else [newDMResourceID t.cfg.name (t.cfg.upstreams.headD "")]) ∧
      (∀ c ∈ wm.calls, match c with
        | .createWorker k _ _ => k ∈ (oneTaskJob modeAll).tasks
        | .stopWorker k _ => k ∉ (oneTaskJob modeAll).tasks) := by
  have hmode : ∀ k t, (oneTaskJob modeAll).tasks.lookup k = some t →
      (workerSeqMap t.cfg.taskMode).isSome := by
    intro k t h
    obtain ⟨-, rfl⟩ := lookup_oneTaskJob h
    rfl
  have hunit : ∀ k t w, (oneTaskJob modeAll).tasks.lookup k = some t →
      staleAndFinishedDump.lookup k = some w → w.isOffline = false →
      w.createFailed 0 = false → w.stage = .workerFinished →
      w.unit ∈ (workerSeqMap t.cfg.taskMode).getD [] := by
    intro k t w h hw _ _ _
    obtain ⟨rfl, rfl⟩ := lookup_oneTaskJob h
    rw [lookup_staleAndFinishedDump_task hw]
    decide
  have hup : ∀ k t, (oneTaskJob modeAll).tasks.lookup k = some t → t.cfg.upstreams ≠ [] := by
    intro k t h
    obtain ⟨-, rfl⟩ := lookup_oneTaskJob h
    simp
  have hcreate : ∀ k u res, k ∈ (oneTaskJob modeAll).tasks →
      (answeringAgents.createWorker k u res).1 ≠ "" ∧
        (answeringAgents.createWorker k u res).2 = .ok () :=
    fun _ _ _ _ => ⟨by simp [answeringAgents], rfl⟩
  have hstop : ∀ k id, k ∉ (oneTaskJob modeAll).tasks →
      answeringAgents.stopWorker k id = .ok () := fun _ _ _ => rfl
  have hfresh : ∀ k t u, (oneTaskJob modeAll).tasks.lookup k = some t →
      ∃ b, answeringAgents.isFresh u t = .ok b := fun _ _ _ _ => ⟨true, rfl⟩
  exact ⟨hmode, hunit, hup, hcreate, hstop, hfresh,
    WorkerManager.tickImpl_schedules_job_tasks answeringAgents 0 (oneTaskJob modeAll)
      staleAndFinishedDump hmode hunit hup hcreate hstop hfresh⟩

end Dm

end Jobmaster

end Microcosm
