import Microcosm.Jobmaster.Dm.Metadata.JobStore
import Microcosm.Lib.Model.Topic
import Microcosm.Library.Machine

/-!
# The task manager of the DM job master

`TaskManager` of `jobmaster/dm/task_manager.go`. Its `TickImpl` reads the job from the job
store, forgets the statuses of the tasks the job no longer has (`removeTaskStatus`, or all of
them in `onJobNotExist` when the job cannot be read), and checks every task of the job
against the status its worker last reported (`checkAndOperateTasks`). A task with no status,
or whose worker is offline, is an error; a task at another stage than the job's is asked to
move there through the message agent, whose `OperateTask` (`jobmaster/dm/message_agent.go`)
sends an `OperateTaskMessage` to the worker of the task. The loop goes on after an error and
returns the last one. The statuses, and the agent's handles of the workers, come from the
callbacks `OnWorkerOnline` and `OnWorkerOffline` of `jobmaster/dm/dm_jobmaster.go`.

A task status keeps the two fields the task manager reads (`GetTask`, `GetStage`); its unit
is only logged. A send handle is the ID of its worker, and whether `SendMessage` succeeds is
a part of the tick. A `range` over a map visits its entries in the order of the list, as in
the worker manager, and the messages the agent sends are kept, in order, as a ghost.

The messages a check sends and whether it fails do not depend on the order of the job's map
(`tickImpl_perm`), and a check sends nothing and succeeds exactly when every task of the job
reports the job's stage (`tickImpl_quiet_iff`). Since `taskAsExpected` compares the stages
alone, once the worker of a task goes offline, also when it finished, every later check
fails while the job still has the task unfinished and no worker of it comes online
(`tick_fails_after_offline`).
-/

namespace Microcosm

namespace Jobmaster

namespace Dm

open Metadata

/-- `runtime.TaskStatus`, by the fields the task manager reads. -/
structure TaskStatus where
  task : String
  stage : TaskStage
  deriving DecidableEq, Repr

/-- `runtime.NewOfflineStatus`. -/
def newOfflineStatus (taskID : String) : TaskStatus :=
  ⟨taskID, .stageUnscheduled⟩

/-- `dm.OperateTaskMessage`. -/
structure OperateTaskMessage where
  taskID : String
  stage : TaskStage
  deriving DecidableEq, Repr

/-- A message the agent sent: to the worker of a handle, under a topic. -/
structure Sent where
  worker : WorkerID
  topic : Lib.Topic
  message : OperateTaskMessage
  deriving DecidableEq, Repr

/-- The errors a check of the task manager records. -/
inductive TaskError
  /-- "get task running status failed". -/
  | getTaskRunningStatusFailed
  /-- "invalid expected stage %d for task %s", of the agent. -/
  | invalidExpectedStage (stage : TaskStage) (taskID : String)
  /-- "worker for task %s not exist", of the agent. -/
  | workerNotExist (taskID : String)
  /-- An error of `SendMessage`. -/
  | sendMessage
  /-- An error of the job store's `Get`. -/
  | store (err : StoreError)
  deriving DecidableEq, Repr

/-- `MessageAgent`, by its ID and its `sendHandles`, each by the ID of its worker. -/
structure MessageAgent where
  id : WorkerID
  sendHandles : AList fun _ : String => WorkerID

namespace MessageAgent

/-- `UpdateWorkerHandle`: no handle deletes the task's. -/
def updateWorkerHandle (agent : MessageAgent) (taskID : String) (sendHandle : Option WorkerID) :
    MessageAgent :=
  match sendHandle with
  | none => { agent with sendHandles := agent.sendHandles.erase taskID }
  | some handle => { agent with sendHandles := agent.sendHandles.insert taskID handle }

/-- `OperateTask`, with `sendOk` whether `SendMessage` succeeds: the message it sent. -/
def operateTask (agent : MessageAgent) (sendOk : Bool) (taskID : String) (stage : TaskStage) :
    Except TaskError Sent :=
  if stage ≠ .stageRunning ∧ stage ≠ .stagePaused then .error (.invalidExpectedStage stage taskID)
  else
    match agent.sendHandles.lookup taskID with
    | none => .error (.workerNotExist taskID)
    | some handle =>
        if sendOk then .ok ⟨handle, Lib.operateTaskMessageTopic agent.id taskID, ⟨taskID, stage⟩⟩
        else .error .sendMessage

end MessageAgent

/-- The task manager, by its `tasks`: the status each worker last reported. -/
structure TaskManager where
  tasks : AList fun _ : String => TaskStatus

namespace TaskManager

/-- `UpdateTaskStatus`. -/
def updateTaskStatus (tm : TaskManager) (taskStatus : TaskStatus) : TaskManager :=
  ⟨tm.tasks.insert taskStatus.task taskStatus⟩

/-- `NewTaskManager`. -/
def newTaskManager (initTaskStatus : List TaskStatus) : TaskManager :=
  initTaskStatus.foldl updateTaskStatus ⟨∅⟩

/-- The callback of the `Range` of `removeTaskStatus` and `onJobNotExist`: the status of a
task that `p` names is deleted. -/
def deleteIf (p : String → Bool) (tm : TaskManager) (x : Σ _ : String, TaskStatus) :
    TaskManager :=
  if p x.1 then ⟨tm.tasks.erase x.1⟩ else tm

/-- `removeTaskStatus`: the statuses of the tasks the job does not have are deleted. -/
def removeTaskStatus (tm : TaskManager) (job : Metadata.Job) : TaskManager :=
  tm.tasks.entries.foldl (deleteIf fun taskID => !decide (taskID ∈ job.tasks)) tm

/-- `onJobNotExist`: every status is deleted. -/
def onJobNotExist (tm : TaskManager) : TaskManager :=
  tm.tasks.entries.foldl (deleteIf fun _ => true) tm

/-- `taskAsExpected`. -/
def taskAsExpected (persistentTask : Metadata.Task) (taskStatus : TaskStatus) : Bool :=
  persistentTask.stage == taskStatus.stage

/-- One iteration of the loop of `checkAndOperateTasks`, with the messages sent so far and
`recordError`. -/
def checkAndOperateTask (agent : MessageAgent) (sendOk : String → Bool) (tm : TaskManager)
    (st : List Sent × Option TaskError) (x : Σ _ : String, Metadata.Task) :
    List Sent × Option TaskError :=
  match tm.tasks.lookup x.1 with
  -- the task is unbound, or its worker is offline
  | none => (st.1, some .getTaskRunningStatusFailed)
  | some runningTask =>
      if runningTask.stage = .stageUnscheduled then (st.1, some .getTaskRunningStatusFailed)
      else if taskAsExpected x.2 runningTask then st
      else
        match agent.operateTask (sendOk x.1) x.1 x.2.stage with
        | .error err => (st.1, some err)
        | .ok sent => (st.1 ++ [sent], st.2)

/-- `checkAndOperateTasks`: the messages sent, and the last error recorded. -/
def checkAndOperateTasks (agent : MessageAgent) (sendOk : String → Bool) (tm : TaskManager)
    (job : Metadata.Job) : List Sent × Option TaskError :=
  job.tasks.entries.foldl (tm.checkAndOperateTask agent sendOk) ([], none)

/-- What the check of one task sends on its own. -/
def sentFor (agent : MessageAgent) (sendOk : String → Bool) (tm : TaskManager)
    (x : Σ _ : String, Metadata.Task) : List Sent :=
  (tm.checkAndOperateTask agent sendOk ([], none) x).1

/-- The error the check of one task records on its own. -/
def errorFor (agent : MessageAgent) (sendOk : String → Bool) (tm : TaskManager)
    (x : Σ _ : String, Metadata.Task) : Option TaskError :=
  (tm.checkAndOperateTask agent sendOk ([], none) x).2

/-- `TickImpl`, on what the job store's `Get` returned. -/
def tickImpl (agent : MessageAgent) (sendOk : String → Bool) (tm : TaskManager)
    (state : Except StoreError Metadata.Job) : TaskManager × List Sent × Option TaskError :=
  match state with
  | .error err => (tm.onJobNotExist, [], some (.store err))
  | .ok job =>
      let tm := tm.removeTaskStatus job
      let r := tm.checkAndOperateTasks agent sendOk job
      (tm, r.1, r.2)

/-! ### The statuses a tick keeps -/

/-- The `Range` of `deleteIf p` deletes the status of every task `p` names and keeps every
other. -/
theorem lookup_foldl_deleteIf (p : String → Bool) (tm : TaskManager) (k : String) :
    (tm.tasks.entries.foldl (deleteIf p) tm).tasks.lookup k =
      if p k then none else tm.tasks.lookup k := by
  -- the callback at an entry touches the status of its own task only
  have hloop := Loop.foldl_pointwise Sigma.fst (fun (tm : TaskManager) k => tm.tasks.lookup k)
    (Q := fun x old new => new = if p x.1 then none else old) (f := deleteIf p)
    (fun s x => ⟨by unfold deleteIf; split_ifs <;> simp_all [AList.lookup_erase],
      fun k hk => by unfold deleteIf; split_ifs <;> simp [AList.lookup_erase_ne hk]⟩)
    tm.tasks.nodupKeys tm
  obtain ⟨hin, hout⟩ := hloop
  by_cases hk : k ∈ tm.tasks.entries.map Sigma.fst
  · obtain ⟨x, hx, rfl⟩ := List.mem_map.1 hk
    exact hin x hx
  · have hnone : tm.tasks.lookup k = none := AList.lookup_eq_none.2 (by
      rw [AList.mem_keys]
      exact hk)
    rw [hout k hk, hnone]
    split <;> rfl

theorem lookup_removeTaskStatus (tm : TaskManager) (job : Metadata.Job) (k : String) :
    (tm.removeTaskStatus job).tasks.lookup k = if k ∈ job.tasks then tm.tasks.lookup k else none := by
  rw [removeTaskStatus, lookup_foldl_deleteIf]
  by_cases hk : k ∈ job.tasks <;> simp [hk]

/-- A task of the job keeps its status through `removeTaskStatus`. -/
theorem lookup_removeTaskStatus_of_lookup (tm : TaskManager) {job : Metadata.Job} {k : String}
    {t : Metadata.Task} (hk : job.tasks.lookup k = some t) :
    (tm.removeTaskStatus job).tasks.lookup k = tm.tasks.lookup k := by
  rw [lookup_removeTaskStatus, if_pos (Map.mem_of_lookup_eq_some hk)]

theorem lookup_onJobNotExist (tm : TaskManager) (k : String) :
    tm.onJobNotExist.tasks.lookup k = none := by
  rw [onJobNotExist, lookup_foldl_deleteIf, if_pos rfl]

/-! ### The check of one task -/

variable (agent : MessageAgent) (sendOk : String → Bool) (tm : TaskManager)
  (st : List Sent × Option TaskError) {x : Σ _ : String, Metadata.Task}
  {runningTask : TaskStatus}

theorem checkAndOperateTask_of_none (h : tm.tasks.lookup x.1 = none) :
    tm.checkAndOperateTask agent sendOk st x = (st.1, some .getTaskRunningStatusFailed) := by
  simp only [checkAndOperateTask, h]

theorem checkAndOperateTask_of_unscheduled (h : tm.tasks.lookup x.1 = some runningTask)
    (hu : runningTask.stage = .stageUnscheduled) :
    tm.checkAndOperateTask agent sendOk st x = (st.1, some .getTaskRunningStatusFailed) := by
  simp only [checkAndOperateTask, h, hu, if_true]

theorem checkAndOperateTask_of_expected (h : tm.tasks.lookup x.1 = some runningTask)
    (hu : runningTask.stage ≠ .stageUnscheduled) (he : runningTask.stage = x.2.stage) :
    tm.checkAndOperateTask agent sendOk st x = st := by
  have he' : taskAsExpected x.2 runningTask = true := by simp [taskAsExpected, he]
  simp only [checkAndOperateTask, h]
  rw [if_neg hu, if_pos he']

theorem checkAndOperateTask_of_unexpected (h : tm.tasks.lookup x.1 = some runningTask)
    (hu : runningTask.stage ≠ .stageUnscheduled) (he : runningTask.stage ≠ x.2.stage) :
    tm.checkAndOperateTask agent sendOk st x =
      match agent.operateTask (sendOk x.1) x.1 x.2.stage with
      | .error err => (st.1, some err)
      | .ok sent => (st.1 ++ [sent], st.2) := by
  have he' : taskAsExpected x.2 runningTask = false := by
    simp only [taskAsExpected, beq_eq_false_iff_ne, ne_eq]
    exact fun hs => he hs.symm
  simp only [checkAndOperateTask, h]
  rw [if_neg hu, if_neg (by simp [he'])]

/-- The check of a task emits what it sends on its own and records its own error over the
one before: the loop of `checkAndOperateTasks` is a loop of `Loop.record`. -/
theorem checkAndOperateTask_eq_record (x : Σ _ : String, Metadata.Task) :
    tm.checkAndOperateTask agent sendOk st x =
      Loop.record (tm.sentFor agent sendOk) (tm.errorFor agent sendOk) st x := by
  unfold sentFor errorFor Loop.record
  cases h : tm.tasks.lookup x.1 with
  | none => simp [checkAndOperateTask_of_none _ _ _ _ h]
  | some runningTask =>
      by_cases hu : runningTask.stage = .stageUnscheduled
      · simp [checkAndOperateTask_of_unscheduled _ _ _ _ h hu]
      by_cases he : runningTask.stage = x.2.stage
      · simp [checkAndOperateTask_of_expected _ _ _ _ h hu he]
      dsimp only
      rw [checkAndOperateTask_of_unexpected _ _ _ _ h hu he,
        checkAndOperateTask_of_unexpected _ _ _ _ h hu he]
      cases agent.operateTask (sendOk x.1) x.1 x.2.stage <;> simp

theorem checkAndOperateTasks_eq (job : Metadata.Job) :
    tm.checkAndOperateTasks agent sendOk job =
      job.tasks.entries.foldl (Loop.record (tm.sentFor agent sendOk) (tm.errorFor agent sendOk))
        ([], none) := by
  have hstep : tm.checkAndOperateTask agent sendOk =
      Loop.record (tm.sentFor agent sendOk) (tm.errorFor agent sendOk) :=
    funext fun st => funext fun x => checkAndOperateTask_eq_record agent sendOk tm st x
  rw [checkAndOperateTasks, hstep]

/-- The check of a task sends nothing and records no error exactly when the task reports
the job's stage from a worker that is not offline. -/
theorem quiet_iff (x : Σ _ : String, Metadata.Task) :
    (tm.sentFor agent sendOk x = [] ∧ tm.errorFor agent sendOk x = none) ↔
      ∃ st, tm.tasks.lookup x.1 = some st ∧ st.stage ≠ .stageUnscheduled ∧
        st.stage = x.2.stage := by
  unfold sentFor errorFor
  cases h : tm.tasks.lookup x.1 with
  | none => simp [checkAndOperateTask_of_none _ _ _ _ h]
  | some runningTask =>
      by_cases hu : runningTask.stage = .stageUnscheduled
      · simp [checkAndOperateTask_of_unscheduled _ _ _ _ h hu, hu]
      by_cases he : runningTask.stage = x.2.stage
      · simp only [checkAndOperateTask_of_expected _ _ _ _ h hu he, and_self, true_iff]
        exact ⟨runningTask, rfl, hu, he⟩
      rw [checkAndOperateTask_of_unexpected _ _ _ _ h hu he]
      cases agent.operateTask (sendOk x.1) x.1 x.2.stage <;> simp [he]

/-- The check of a task whose worker the agent holds no handle of fails, unless the task
reports the job's stage from a worker that is not offline. -/
theorem errorFor_isSome_of_not_mem (x : Σ _ : String, Metadata.Task)
    (hk : x.1 ∉ agent.sendHandles)
    (hst : ∀ st, tm.tasks.lookup x.1 = some st →
      st.stage = .stageUnscheduled ∨ st.stage ≠ x.2.stage) :
    (tm.errorFor agent sendOk x).isSome = true := by
  have hnone : agent.sendHandles.lookup x.1 = none := AList.lookup_eq_none.2 hk
  unfold errorFor
  cases h : tm.tasks.lookup x.1 with
  | none => simp [checkAndOperateTask_of_none _ _ _ _ h]
  | some runningTask =>
      by_cases hu : runningTask.stage = .stageUnscheduled
      · simp [checkAndOperateTask_of_unscheduled _ _ _ _ h hu]
      have he : runningTask.stage ≠ x.2.stage := (hst runningTask h).resolve_left hu
      -- the agent refuses the stage, or finds no worker to send to
      have ho : ∃ err, agent.operateTask (sendOk x.1) x.1 x.2.stage = .error err := by
        unfold MessageAgent.operateTask
        by_cases hstage : x.2.stage ≠ .stageRunning ∧ x.2.stage ≠ .stagePaused
        · rw [if_pos hstage]
          exact ⟨_, rfl⟩
        · rw [if_neg hstage, hnone]
          exact ⟨_, rfl⟩
      obtain ⟨err, ho⟩ := ho
      rw [checkAndOperateTask_of_unexpected _ _ _ _ h hu he, ho]
      rfl

/-! ### A tick -/

/-- A tick forgets the same statuses, sends the same messages and fails alike, whatever the
order in which Go's `range` visits the tasks of the job. -/
theorem tickImpl_perm {job job' : Metadata.Job} (h : job.tasks.entries.Perm job'.tasks.entries) :
    (tm.tickImpl agent sendOk (.ok job)).1 = (tm.tickImpl agent sendOk (.ok job')).1 ∧
      (tm.tickImpl agent sendOk (.ok job)).2.1.Perm (tm.tickImpl agent sendOk (.ok job')).2.1 ∧
      (tm.tickImpl agent sendOk (.ok job)).2.2.isSome =
        (tm.tickImpl agent sendOk (.ok job')).2.2.isSome := by
  -- the two maps have the same tasks, so the same statuses are forgotten
  have hmem : ∀ k, k ∈ job.tasks ↔ k ∈ job'.tasks := fun k => by
    simp only [AList.mem_keys, AList.keys, List.keys]
    exact (h.map Sigma.fst).mem_iff
  have hp : (fun taskID => !decide (taskID ∈ job.tasks)) =
      fun taskID => !decide (taskID ∈ job'.tasks) :=
    funext fun k => congrArg (!·) (decide_eq_decide.2 (hmem k))
  have hrm : tm.removeTaskStatus job = tm.removeTaskStatus job' := by
    rw [removeTaskStatus, removeTaskStatus, hp]
  have hloop := Loop.foldl_record_perm ((tm.removeTaskStatus job).sentFor agent sendOk)
    ((tm.removeTaskStatus job).errorFor agent sendOk) h
  simp only [tickImpl, checkAndOperateTasks_eq]
  rw [← hrm]
  exact ⟨rfl, hloop⟩

/-- A tick on a job sends nothing and returns no error exactly when every task of the job
reports, from a worker that is not offline, the stage the job gives it. -/
theorem tickImpl_quiet_iff (job : Metadata.Job) :
    (tm.tickImpl agent sendOk (.ok job)).2 = ([], none) ↔
      ∀ k t, job.tasks.lookup k = some t →
        ∃ st, tm.tasks.lookup k = some st ∧ st.stage ≠ .stageUnscheduled ∧ st.stage = t.stage := by
  have h2 : (tm.tickImpl agent sendOk (.ok job)).2 =
      (tm.removeTaskStatus job).checkAndOperateTasks agent sendOk job := rfl
  rw [h2, checkAndOperateTasks_eq, Loop.foldl_record_eq_nil_none]
  constructor
  · intro h k t hk
    have hx := (quiet_iff agent sendOk _ ⟨k, t⟩).1 (h ⟨k, t⟩ (AList.mem_lookup_iff.1 hk))
    rwa [lookup_removeTaskStatus_of_lookup tm hk] at hx
  · intro h x hx
    have hk : job.tasks.lookup x.1 = some x.2 := AList.mem_lookup_iff.2 hx
    rw [quiet_iff, lookup_removeTaskStatus_of_lookup tm hk]
    exact h x.1 x.2 hk

end TaskManager

/-- The task side of the DM job master: its task manager and message agent, and as a ghost
the messages the agent sent. -/
structure World where
  tm : TaskManager
  agent : MessageAgent
  sent : List Sent

/-- `OnWorkerOnline`, with the status the worker carries. -/
def onWorkerOnline (w : World) (workerID : WorkerID) (taskStatus : TaskStatus) : World :=
  { w with
    tm := w.tm.updateTaskStatus taskStatus
    agent := w.agent.updateWorkerHandle taskStatus.task (some workerID) }

/-- `OnWorkerOffline`, and `onWorkerFinished` for a worker whose task finished. -/
def onWorkerOffline (w : World) (taskStatus : TaskStatus) : World :=
  if taskStatus.stage = .stageFinished then
    { w with
      tm := w.tm.updateTaskStatus taskStatus
      agent := w.agent.updateWorkerHandle taskStatus.task none }
  else
    { w with
      tm := w.tm.updateTaskStatus (newOfflineStatus taskStatus.task)
      agent := w.agent.updateWorkerHandle taskStatus.task none }

/-- The calls on the task side: a `TickImpl` on what the job store's `Get` returned, with the
tasks whose `SendMessage` fails, and the two callbacks. -/
inductive Action
  | tick (state : Except StoreError Metadata.Job) (sendFails : List String)
  | workerOnline (workerID : WorkerID) (taskStatus : TaskStatus)
  | workerOffline (taskStatus : TaskStatus)
  deriving DecidableEq

/-- One call, answered by the error it returns. -/
def step (w : World) : Action → World × Option TaskError
  | .tick state sendFails =>
      let r := w.tm.tickImpl w.agent (fun taskID => !decide (taskID ∈ sendFails)) state
      ({ w with tm := r.1, sent := w.sent ++ r.2.1 }, r.2.2)
  | .workerOnline workerID taskStatus => (onWorkerOnline w workerID taskStatus, none)
  | .workerOffline taskStatus => (onWorkerOffline w taskStatus, none)

theorem onWorkerOffline_sendHandles (w : World) (taskStatus : TaskStatus) :
    (onWorkerOffline w taskStatus).agent.sendHandles = w.agent.sendHandles.erase taskStatus.task := by
  unfold onWorkerOffline
  split <;> rfl

theorem lookup_onWorkerOffline_ne (w : World) (taskStatus : TaskStatus) {k : String}
    (hk : k ≠ taskStatus.task) :
    (onWorkerOffline w taskStatus).tm.tasks.lookup k = w.tm.tasks.lookup k := by
  unfold onWorkerOffline
  split <;> exact AList.lookup_insert_ne hk

/-- The status a worker leaves when it goes offline: finished, or offline. -/
theorem lookup_onWorkerOffline_self (w : World) (taskStatus : TaskStatus) :
    ∃ st, (onWorkerOffline w taskStatus).tm.tasks.lookup taskStatus.task = some st ∧
      (st.stage = .stageFinished ∨ st.stage = .stageUnscheduled) := by
  unfold onWorkerOffline
  split
  · rename_i hfin
    exact ⟨taskStatus, AList.lookup_insert _, .inl hfin⟩
  · exact ⟨newOfflineStatus taskStatus.task, AList.lookup_insert _, .inr rfl⟩

/-! ## A task whose worker went offline -/

/-- No worker of the task `k` is held, and its status, if it has one, is of a worker that
finished or is offline. -/
def World.FinishedAt (k : String) (w : World) : Prop :=
  k ∉ w.agent.sendHandles ∧ ∀ st, w.tm.tasks.lookup k = some st →
    st.stage = .stageFinished ∨ st.stage = .stageUnscheduled

/-- The calls that leave the task `k` so: a tick reads no job, or a job that has the task
unfinished, and no worker of the task comes online. -/
def Action.keepsFinished (k : String) : Action → Bool
  | .tick (.ok job) _ => (job.tasks.lookup k).any fun t => t.stage != .stageFinished
  | .tick (.error _) _ => true
  | .workerOnline _ taskStatus => taskStatus.task != k
  | .workerOffline _ => true

/-- Whether a call is a tick. -/
def Action.isTick : Action → Bool
  | .tick _ _ => true
  | _ => false

theorem finishedAt_onWorkerOffline (w : World) (taskStatus : TaskStatus) :
    (onWorkerOffline w taskStatus).FinishedAt taskStatus.task := by
  refine ⟨?_, fun st hst => ?_⟩
  · rw [onWorkerOffline_sendHandles, AList.mem_erase]
    exact fun hk => hk.1 rfl
  · obtain ⟨st', hst', hstage⟩ := lookup_onWorkerOffline_self w taskStatus
    rw [hst'] at hst
    cases hst
    exact hstage

theorem World.FinishedAt.step {k : String} {w : World} (hw : w.FinishedAt k) {a : Action}
    (ha : a.keepsFinished k = true) : (Dm.step w a).1.FinishedAt k := by
  cases a with
  | tick state sendFails =>
      refine ⟨hw.1, fun st hst => hw.2 st ?_⟩
      cases state with
      | error err =>
          -- `onJobNotExist` leaves no status
          simp [Dm.step, TaskManager.tickImpl, TaskManager.lookup_onJobNotExist] at hst
      | ok job =>
          obtain ⟨t, ht, -⟩ := (Option.any_eq_true _ _).1 ha
          rw [← TaskManager.lookup_removeTaskStatus_of_lookup w.tm ht]
          exact hst
  | workerOnline workerID taskStatus =>
      -- the worker that comes online is of another task
      have hne : k ≠ taskStatus.task := by
        have := ha
        simp only [Action.keepsFinished, bne_iff_ne, ne_eq] at this
        exact fun hk => this hk.symm
      refine ⟨?_, fun st hst => hw.2 st ?_⟩
      · show k ∉ (w.agent.sendHandles.insert taskStatus.task workerID)
        rw [AList.mem_insert]
        exact fun hk => hk.elim hne hw.1
      · change (w.tm.tasks.insert taskStatus.task taskStatus).lookup k = some st at hst
        rwa [AList.lookup_insert_ne hne] at hst
  | workerOffline taskStatus =>
      refine ⟨?_, fun st hst => ?_⟩
      · show k ∉ (onWorkerOffline w taskStatus).agent.sendHandles
        rw [onWorkerOffline_sendHandles, AList.mem_erase]
        exact fun hk => hw.1 hk.2
      · change (onWorkerOffline w taskStatus).tm.tasks.lookup k = some st at hst
        by_cases hk : k = taskStatus.task
        · subst hk
          exact (finishedAt_onWorkerOffline w taskStatus).2 st hst
        · rw [lookup_onWorkerOffline_ne w taskStatus hk] at hst
          exact hw.2 st hst

/-- A tick fails while the task `k` has no worker: its check finds no status, an offline
worker, or a status at another stage with no worker to send to. -/
theorem World.FinishedAt.tick_fails {k : String} {w : World} (hw : w.FinishedAt k)
    {a : Action} (ha : a.keepsFinished k = true) (htick : a.isTick = true) :
    (Dm.step w a).2.isSome = true := by
  cases a with
  | tick state sendFails =>
      cases state with
      | error err => rfl
      | ok job =>
          obtain ⟨t, ht, hfin⟩ := (Option.any_eq_true _ _).1 ha
          have hfin : t.stage ≠ .stageFinished := by simpa using hfin
          show ((w.tm.removeTaskStatus job).checkAndOperateTasks w.agent
            (fun taskID => !decide (taskID ∈ sendFails)) job).2.isSome = true
          rw [TaskManager.checkAndOperateTasks_eq, Loop.foldl_record_isSome]
          refine ⟨⟨k, t⟩, AList.mem_lookup_iff.1 ht, ?_⟩
          apply TaskManager.errorFor_isSome_of_not_mem _ _ _ _ hw.1
          intro st hst
          rw [TaskManager.lookup_removeTaskStatus_of_lookup w.tm ht] at hst
          rcases hw.2 st hst with h | h
          · exact .inr (by rw [h]; exact Ne.symm hfin)
          · exact .inl h
  | workerOnline _ _ => cases htick
  | workerOffline _ => cases htick

/-- Once the worker of a task goes offline, also when its task finished, every later check of
the task manager fails while each job it reads has the task unfinished, or no job is read,
and no worker of the task comes online. -/
theorem tick_fails_after_offline (w : World) (taskStatus : TaskStatus) {calls : List Action}
    (hcalls : ∀ a ∈ calls, a.keepsFinished taskStatus.task = true) :
    ∀ p ∈ calls.zip (Machine.answers step (onWorkerOffline w taskStatus) calls),
      p.1.isTick = true → p.2.isSome = true := by
  -- the task stays without a worker, and each tick from there fails
  have hI : ∀ (s : World) (a : Action), a.keepsFinished taskStatus.task = true →
      s.FinishedAt taskStatus.task → (Dm.step s a).1.FinishedAt taskStatus.task :=
    fun _ _ ha hw => hw.step ha
  have hQ : ∀ (s : World) (a : Action), a.keepsFinished taskStatus.task = true →
      s.FinishedAt taskStatus.task → a.isTick = true → (Dm.step s a).2.isSome = true :=
    fun _ _ ha hw htick => hw.tick_fails ha htick
  exact Machine.answers_inv (Q := fun (a : Action) (r : Option TaskError) =>
    a.isTick = true → r.isSome = true) hI hQ hcalls (finishedAt_onWorkerOffline w taskStatus)

/-- A DM job of two sources. -/
def twoSourceJob : Metadata.Job :=
  newJob ⟨"dm-task", modeFull, ["source-1", "source-2"]⟩

/-- The task side before any worker: no status and no handle. -/
def emptyTaskSide : World :=
  ⟨⟨∅⟩, ⟨"dm-jobmaster", ∅⟩, []⟩

/-- After the worker of `source-1` finished: a tick, the worker of `source-2` coming online,
a tick, a tick that reads no job, and a tick. -/
def afterFinishCalls : List Action :=
  [.tick (.ok twoSourceJob) [], .workerOnline "worker-2" ⟨"source-2", .stageRunning⟩,
    .tick (.ok twoSourceJob) [], .tick (.error .metastore) [], .tick (.ok twoSourceJob) []]

theorem source1_checks_fail :
    (∀ a ∈ afterFinishCalls, a.keepsFinished "source-1" = true) ∧
      ∀ p ∈ afterFinishCalls.zip (Machine.answers step
          (onWorkerOffline emptyTaskSide ⟨"source-1", .stageFinished⟩) afterFinishCalls),
        p.1.isTick = true → p.2.isSome = true :=
  ⟨by decide,
    tick_fails_after_offline emptyTaskSide ⟨"source-1", .stageFinished⟩ (by decide)⟩

/-- `twoSourceJob`, with its sources the other way round. -/
def twoSourceJobSwapped : Metadata.Job :=
  newJob ⟨"dm-task", modeFull, ["source-2", "source-1"]⟩

/-- A task manager that holds `source-1` paused. -/
def pausedSource1 : TaskManager :=
  ⟨(∅ : AList fun _ : String => TaskStatus).insert "source-1" ⟨"source-1", .stagePaused⟩⟩

/-- A message agent that holds the worker of `source-1`. -/
def agentOfSource1 : MessageAgent :=
  ⟨"dm-jobmaster", (∅ : AList fun _ : String => WorkerID).insert "source-1" "worker-1"⟩

theorem swapped_job_ticks_alike :
    twoSourceJob.tasks.entries.Perm twoSourceJobSwapped.tasks.entries ∧
      (pausedSource1.tickImpl agentOfSource1 (fun _ => true) (.ok twoSourceJob)).1 =
          (pausedSource1.tickImpl agentOfSource1 (fun _ => true) (.ok twoSourceJobSwapped)).1 ∧
        (pausedSource1.tickImpl agentOfSource1 (fun _ => true) (.ok twoSourceJob)).2.1.Perm
          (pausedSource1.tickImpl agentOfSource1 (fun _ => true) (.ok twoSourceJobSwapped)).2.1 ∧
        (pausedSource1.tickImpl agentOfSource1 (fun _ => true) (.ok twoSourceJob)).2.2.isSome =
          (pausedSource1.tickImpl agentOfSource1 (fun _ => true)
            (.ok twoSourceJobSwapped)).2.2.isSome := by
  have h : twoSourceJob.tasks.entries.Perm twoSourceJobSwapped.tasks.entries := by decide
  exact ⟨h, TaskManager.tickImpl_perm agentOfSource1 (fun _ => true) pausedSource1 h⟩

end Dm

end Jobmaster

end Microcosm
