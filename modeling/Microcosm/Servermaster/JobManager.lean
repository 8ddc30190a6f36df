import Microcosm.Lib.CreateWorker
import Microcosm.Servermaster.JobFsm

/-!
# The job manager of the server master

`JobManagerImplV2` of `servermaster/jobmanager.go` over its `DefaultBaseMaster`: the job
state machine, the worker manager, the calls of `SubmitJob` in progress and the
goroutines that `CreateWorker` launched. `SubmitJob` runs on a gRPC goroutine in three
steps, `StoreMasterMeta`, `CreateWorker` and `JobDispatched`; the goroutines of
`CreateWorker`, the workers' heartbeats and status messages and the background checker
of the worker manager run beside it. The leader loop of the server master polls the job
manager: `Poll` runs `WorkerManager.Tick`, which hands each queued event to the job
manager's callbacks, and an error of a callback fails `Poll` and stops the leader loop
(`pollFailed`).

Two ghost fields record the jobs `SubmitJob` has put into `waitAckJobs` (`dispatched`)
and the workers an online, offline or dispatch-failed event has been delivered for
(`touched`). `notFound_of_step` says when a callback fails with `ErrWorkerNotFound`:
only for a job whose `SubmitJob` has not called `JobDispatched` yet, or whose worker has
already had such an event delivered. The first case is reachable: the goroutine of
`CreateWorker` may abort, and `Tick` deliver the abort, before `SubmitJob` gets to
`JobDispatched`.

`Tick` of the job manager itself (`IterPendingJobs`, `IterWaitAckJobs`) and the failover
path of `OnMasterRecovered` are not part of this model.
-/

namespace Microcosm

namespace Servermaster

open Master Lib

/-- `pb.JobType`. -/
inductive JobType
  | cvsDemo
  | dm
  | cdc
  | fakeJob
  deriving DecidableEq, Repr

/-- Where a call of `SubmitJob` is. -/
inductive SubmitPhase
  /-- About to call `StoreMasterMeta` for a job master of type `tp`. -/
  | storeMasterMeta (tp : WorkerType)
  /-- The metadata is stored; about to call `CreateWorker`. -/
  | createWorker (tp : WorkerType)
  /-- `CreateWorker` returned `id`; about to call `JobDispatched`. -/
  | jobDispatched (id : WorkerID)
  /-- `SubmitJob` returned the job ID, or the error of its response. -/
  | returned (resp : Except Error MasterID)
  deriving DecidableEq, Repr

/-- A call of `SubmitJob` and the metadata it built. -/
structure SubmitCall where
  masterMeta : MasterMetaKVData
  phase : SubmitPhase
  deriving DecidableEq, Repr

/-- The start of `SubmitJob`: the metadata gets the ID `uuid`, and the job type decides
the type of its job master. `configDecodes` says whether the request's config decodes as
a CVS config, which only a CVS job checks. -/
def submitJob (tp : JobType) (configDecodes : Bool) (uuid : MasterID) : SubmitCall :=
  let masterMeta : MasterMetaKVData := ⟨uuid⟩
  match tp with
  | .cvsDemo =>
      if configDecodes then ⟨masterMeta, .storeMasterMeta .cvsJobMaster⟩
      else ⟨masterMeta, .returned (.error .errBuildJobFailed)⟩
  | .dm => ⟨masterMeta, .storeMasterMeta .dmJobMaster⟩
  | .fakeJob => ⟨masterMeta, .storeMasterMeta .fakeJobMaster⟩
  | .cdc => ⟨masterMeta, .returned (.error .errBuildJobFailed)⟩

/-- The job manager, its base master's worker manager, and the goroutines around them. -/
structure JobManager where
  fsm : JobFsm
  wm : WorkerManager
  calls : List SubmitCall
  creations : List Creation
  /-- Ghost: the job IDs `SubmitJob` has handed to `JobDispatched`. -/
  dispatched : List MasterID
  /-- Ghost: the workers an online, offline or dispatch-failed event was delivered for. -/
  touched : List WorkerID

/-- The steps of the goroutines around the job manager. -/
inductive JobManagerAction
  /-- A call of `SubmitJob` starts; `uuid` is the job ID drawn for it. -/
  | submitJob (tp : JobType) (configDecodes : Bool) (uuid : MasterID)
  /-- `StoreMasterMeta` of the `i`-th call returned. -/
  | storeMasterMeta (i : Nat) (result : Except Error Unit)
  /-- `CreateWorker` of the `i`-th call ran at `now`. -/
  | createWorker (i : Nat) (quotaAcquired : Bool) (uuid : WorkerID) (now : Nat)
  /-- The `i`-th call runs `JobDispatched`. -/
  | jobDispatched (i : Nat)
  /-- A step of the `j`-th goroutine of `CreateWorker`. -/
  | creation (j : Nat) (ev : CreationEvent)
  | handleHeartbeat (msg : HeartbeatPingMessage) (fromNode : ExecutorID) (now : Nat)
  | onWorkerStatusUpdateMessage (msg : WorkerStatusMessage)
  | checkWorkerEntriesOnce (now : Nat) (order : List WorkerID)
  /-- One iteration of `WorkerManager.Tick` in `Poll`; `cleanTombstone` is the outcome of the
  metastore's `Remove` if the callback cleans a tombstone. -/
  | tick (cleanTombstone : Except String Bool)

/-- What stops the leader loop: a panic, or an error returned by `Poll`. -/
inductive JobManagerFailure
  | creation (p : CreationPanic)
  | master (p : Master.Panic)
  | pollFailed (err : Error)
  deriving DecidableEq, Repr

namespace JobManager

/-- A job manager that has run nothing yet, over the worker manager `wm`. -/
def init (wm : WorkerManager) : JobManager :=
  { fsm := newJobFsm, wm, calls := [], creations := [], dispatched := [], touched := [] }

/-- `CleanTombstone` of the tombstone of `workerID`, after the metastore's `Remove`
returned whether it removed the worker's status, or failed with a message. -/
def cleanTombstone (wm : WorkerManager) (workerID : WorkerID) :
    Except String Bool → Except JobManagerFailure WorkerManager
  | .error msg => .error (.pollFailed (.other msg))
  | .ok false => .ok wm
  | .ok true =>
      match wm.removeTombstoneEntry workerID with
      | .error p => .error (.master p)
      | .ok wm' => .ok wm'

/-- The base master's callback for an event `Tick` delivers, into `OnWorkerOnline`,
`OnWorkerOffline`, `OnWorkerStatusUpdated` or `OnWorkerDispatched` of the job manager. -/
def deliver (s : JobManager) (ev : MasterEvent) (cleanResult : Except String Bool) :
    Except JobManagerFailure JobManager :=
  match ev.tp with
  | .workerOnlineEvent =>
      match s.fsm.jobOnline ev.handle with
      | .error err => .error (.pollFailed err)
      | .ok fsm => .ok { s with fsm, touched := s.touched ++ [ev.handle.id] }
  | .workerOfflineEvent =>
      -- a job master that finished or was stopped needs no failover
      let needFailover := !(ev.err == some .errWorkerFinish || ev.err == some .errWorkerStop)
      match cleanTombstone s.wm ev.handle.id cleanResult with
      | .error f => .error f
      | .ok wm =>
          .ok { s with
            wm
            fsm := s.fsm.jobOffline ev.handle needFailover
            touched := s.touched ++ [ev.handle.id] }
  | .workerStatusUpdatedEvent =>
      -- the base master reads `handle.Status()` for `OnWorkerStatusUpdated`, which does
      -- nothing else
      match ev.handle.status s.wm with
      | .error p => .error (.master p)
      | .ok _ => .ok s
  | .workerDispatchFailedEvent =>
      match ev.err with
      | none => .ok s
      | some _ =>
          match s.fsm.jobDispatchFailed ev.handle with
          | .error err => .error (.pollFailed err)
          | .ok fsm => .ok { s with fsm, touched := s.touched ++ [ev.handle.id] }

/-- A step of the worker manager alone. -/
def withManager (s : JobManager) : Except Master.Panic WorkerManager →
    Except JobManagerFailure JobManager
  | .error p => .error (.master p)
  | .ok wm => .ok { s with wm }

/-- One step. A step of a call or a goroutine that is not there, or not waiting for it,
changes nothing. -/
def step (s : JobManager) : JobManagerAction → Except JobManagerFailure JobManager
  | .submitJob tp configDecodes uuid =>
      .ok { s with calls := s.calls ++ [submitJob tp configDecodes uuid] }
  | .storeMasterMeta i result =>
      match s.calls[i]? with
      | some ⟨masterMeta, .storeMasterMeta tp⟩ =>
          let phase : SubmitPhase :=
            match result with
            | .ok () => .createWorker tp
            | .error err => .returned (.error err)
          .ok { s with calls := s.calls.set i ⟨masterMeta, phase⟩ }
      | _ => .ok s
  | .createWorker i quotaAcquired uuid now =>
      match s.calls[i]? with
      | some ⟨masterMeta, .createWorker tp⟩ =>
          match Lib.createWorker tp (.masterMeta masterMeta.id) quotaAcquired uuid now with
          -- `DeleteMasterMeta` follows, and its failure is only logged
          | .error err => .ok { s with calls := s.calls.set i ⟨masterMeta, .returned (.error err)⟩ }
          | .ok (id, g) =>
              .ok { s with
                calls := s.calls.set i ⟨masterMeta, .jobDispatched id⟩
                creations := s.creations ++ [g] }
      | _ => .ok s
  | .jobDispatched i =>
      match s.calls[i]? with
      | some ⟨masterMeta, .jobDispatched id⟩ =>
          .ok { s with
            fsm := s.fsm.jobDispatched masterMeta false
            calls := s.calls.set i ⟨masterMeta, .returned (.ok id)⟩
            dispatched := s.dispatched ++ [masterMeta.id] }
      | _ => .ok s
  | .creation j ev =>
      match s.creations[j]? with
      | some g =>
          match Creation.step (g, s.wm) ev with
          | .error p => .error (.creation p)
          | .ok (g', wm) => .ok { s with wm, creations := s.creations.set j g' }
      | none => .ok s
  | .handleHeartbeat msg fromNode now => s.withManager (s.wm.handleHeartbeat msg fromNode now)
  | .onWorkerStatusUpdateMessage msg => s.withManager (s.wm.onWorkerStatusUpdateMessage msg)
  | .checkWorkerEntriesOnce now order =>
      match s.wm.checkWorkerEntriesOnce now order with
      | .error p => .error (.master p)
      | .ok (wm, none) => .ok { s with wm }
      | .ok (wm, some err) => .ok { s with wm := wm.onError err }
  | .tick cleanResult =>
      match s.wm.tickOne with
      | .error p => .error (.master p)
      | .ok .idle => .ok s
      | .ok (.cancelled wm) => .ok { s with wm }
      | .ok (.deliver wm ev) => deliver { s with wm } ev cleanResult

-- Many proofs below unfold this definition, and Lean elaborates them in parallel: the empty
-- section generates its equation lemmas here, once, so that the proofs do not all wait on it.
-- The simp set outside the section is unchanged.
section
attribute [local simp] step
end

/-- The iteration order of `checkWorkerEntriesOnce` enumerates the map. -/
def allowed (s : JobManager) : JobManagerAction → Bool
  | .checkWorkerEntriesOnce _ order => order.isPerm s.wm.workerEntries.keys
  | _ => true

/-- The states reachable from a job manager over the worker manager `wm`. -/
def Reachable (wm : WorkerManager) : JobManager → Prop :=
  Transition.Reachable step allowed (init wm)

/-- A job `SubmitJob` has handed to `JobDispatched` waits for acknowledgement until an
event for its worker is delivered. -/
def Inv (s : JobManager) : Prop :=
  ∀ id ∈ s.dispatched, id ∉ s.touched → id ∈ s.fsm.waitAckJobs

/-- What one successful step does to the ghost fields and to the jobs waiting for
acknowledgement. -/
inductive Effect (s s' : JobManager) : Prop
  /-- Neither the machine nor the ghost fields change. -/
  | frame : s'.fsm = s.fsm → s'.dispatched = s.dispatched → s'.touched = s.touched →
      Effect s s'
  /-- `JobDispatched` of a call of `SubmitJob`. -/
  | dispatch (masterMeta : MasterMetaKVData) : s'.fsm = s.fsm.jobDispatched masterMeta false →
      s'.dispatched = s.dispatched ++ [masterMeta.id] → s'.touched = s.touched → Effect s s'
  /-- A callback for the worker `w`, which moves no other job. -/
  | touch (w : WorkerID) :
      (∀ x, x ≠ w → (x ∈ s'.fsm.waitAckJobs ↔ x ∈ s.fsm.waitAckJobs)) →
      s'.dispatched = s.dispatched → s'.touched = s.touched ++ [w] → Effect s s'

theorem Effect.refl (s : JobManager) : Effect s s := .frame rfl rfl rfl

theorem deliver_effect {s s' : JobManager} {ev : MasterEvent} {cleanResult : Except String Bool}
    (h : s.deliver ev cleanResult = .ok s') : Effect s s' := by
  unfold deliver at h
  split at h
  · split at h
    · cases h
    · rename_i fsm hon
      cases h
      exact .touch _ (fun x hx => JobFsm.mem_waitAck_jobOnline hon hx) rfl rfl
  · split at h
    · cases h
    · cases h
      exact .touch _ (fun x hx => JobFsm.mem_waitAck_jobOffline _ _ hx) rfl rfl
  · split at h
    · cases h
    · cases h
      exact .refl s
  · split at h
    · cases h
      exact .refl s
    · split at h
      · cases h
      · rename_i fsm hdf
        cases h
        exact .touch _ (fun x hx => JobFsm.mem_waitAck_jobDispatchFailed hdf hx) rfl rfl

theorem withManager_effect {s s' : JobManager} {x : Except Master.Panic WorkerManager}
    (h : s.withManager x = .ok s') : Effect s s' := by
  cases x with
  | error p => cases h
  | ok wm =>
      cases h
      exact .frame rfl rfl rfl

/-- Every successful step is one of the `Effect`s. -/
theorem step_effect {s s' : JobManager} {a : JobManagerAction} (h : s.step a = .ok s') :
    Effect s s' := by
  cases a with
  | submitJob => cases h; exact .frame rfl rfl rfl
  | storeMasterMeta i result =>
      simp only [step] at h
      split at h <;> (cases h; exact .frame rfl rfl rfl)
  | createWorker i quotaAcquired uuid now =>
      simp only [step] at h
      split at h
      · split at h <;> (cases h; exact .frame rfl rfl rfl)
      · cases h
        exact .refl s
  | jobDispatched i =>
      simp only [step] at h
      split at h
      · rename_i masterMeta id _
        cases h
        exact .dispatch masterMeta rfl rfl rfl
      · cases h
        exact .refl s
  | creation j ev =>
      simp only [step] at h
      split at h
      · split at h
        · cases h
        · cases h
          exact .frame rfl rfl rfl
      · cases h
        exact .refl s
  | handleHeartbeat => exact withManager_effect h
  | onWorkerStatusUpdateMessage => exact withManager_effect h
  | checkWorkerEntriesOnce now order =>
      simp only [step] at h
      split at h
      · cases h
      · cases h
        exact .frame rfl rfl rfl
      · cases h
        exact .frame rfl rfl rfl
  | tick cleanResult =>
      simp only [step] at h
      split at h
      · cases h
      · cases h
        exact .refl s
      · cases h
        exact .frame rfl rfl rfl
      · have he := deliver_effect h
        cases he with
        | frame hf hd ht => exact .frame hf hd ht
        | dispatch masterMeta hf hd ht => exact .dispatch masterMeta hf hd ht
        | touch w hw hd ht => exact .touch w hw hd ht

/-- Every step keeps the invariant. -/
theorem Inv.effect {s s' : JobManager} (hinv : s.Inv) (he : Effect s s') : s'.Inv := by
  intro id hd ht
  cases he with
  | frame hf hd' ht' =>
      rw [hf]
      rw [hd'] at hd
      rw [ht'] at ht
      exact hinv id hd ht
  | dispatch masterMeta hf hd' ht' =>
      rw [hf, JobFsm.mem_waitAck_jobDispatched]
      rw [hd', List.mem_append, List.mem_singleton] at hd
      rw [ht'] at ht
      rcases hd with hd | rfl
      · exact .inr (hinv id hd ht)
      · exact .inl rfl
  | touch w hw hd' ht' =>
      rw [ht', List.mem_append, List.mem_singleton, not_or] at ht
      rw [hd'] at hd
      exact (hw id ht.2).2 (hinv id hd ht.1)

theorem inv_of_reachable {wm₀ : WorkerManager} {s : JobManager} (hr : Reachable wm₀ s) :
    s.Inv :=
  Transition.Reachable.inv (fun id hd => by simp [init] at hd)
    (fun _ _ _ hinv _ hs => hinv.effect (step_effect hs)) hr

theorem deliver_eq_notFound {s : JobManager} {ev : MasterEvent}
    {cleanResult : Except String Bool} {id : WorkerID}
    (h : s.deliver ev cleanResult = .error (.pollFailed (.errWorkerNotFound id))) :
    id ∉ s.fsm.waitAckJobs := by
  unfold deliver at h
  split at h
  · split at h
    · rename_i err hon
      cases h
      obtain ⟨he, hnot⟩ := JobFsm.jobOnline_eq_error hon
      cases he
      exact hnot
    · cases h
  · split at h
    · rename_i f hclean
      cases h
      unfold cleanTombstone at hclean
      split at hclean
      · cases hclean
      · cases hclean
      · split at hclean <;> cases hclean
    · cases h
  · split at h <;> cases h
  · split at h
    · cases h
    · split at h
      · rename_i err hdf
        cases h
        obtain ⟨he, hnot⟩ := JobFsm.jobDispatchFailed_eq_error hdf
        cases he
        exact hnot
      · cases h

/-- `ErrWorkerNotFound` comes only from the callbacks, for a worker whose job is not
waiting for acknowledgement. -/
theorem step_eq_notFound {s : JobManager} {a : JobManagerAction} {id : WorkerID}
    (h : s.step a = .error (.pollFailed (.errWorkerNotFound id))) :
    id ∉ s.fsm.waitAckJobs := by
  cases a with
  | tick cleanResult =>
      simp only [step] at h
      split at h
      · cases h
      · cases h
      · cases h
      · rename_i wm ev _
        exact deliver_eq_notFound (s := { s with wm }) h
  | submitJob => cases h
  | storeMasterMeta i result =>
      simp only [step] at h
      split at h <;> cases h
  | createWorker i quotaAcquired uuid now =>
      simp only [step] at h
      split at h
      · split at h <;> cases h
      · cases h
  | jobDispatched i =>
      simp only [step] at h
      split at h <;> cases h
  | creation j ev =>
      simp only [step] at h
      split at h
      · split at h <;> cases h
      · cases h
  | handleHeartbeat msg fromNode now =>
      simp only [step, withManager] at h
      split at h <;> cases h
  | onWorkerStatusUpdateMessage msg =>
      simp only [step, withManager] at h
      split at h <;> cases h
  | checkWorkerEntriesOnce now order =>
      simp only [step] at h
      split at h <;> cases h

end JobManager

/-- In every run, `Poll` fails with `ErrWorkerNotFound` only for a worker whose job
`SubmitJob` has not yet handed to `JobDispatched`, or whose worker has already had an
online, offline or dispatch-failed event delivered. -/
theorem notFound_of_step {wm₀ : WorkerManager} {s : JobManager}
    (hr : JobManager.Reachable wm₀ s) {a : JobManagerAction} {id : WorkerID}
    (h : s.step a = .error (.pollFailed (.errWorkerNotFound id))) :
    id ∉ s.dispatched ∨ id ∈ s.touched := by
  by_contra hc
  rw [not_or, not_not] at hc
  exact JobManager.step_eq_notFound h (JobManager.inv_of_reachable hr id hc.1 hc.2)

/-- `SubmitJob` of a fake job `job-1`: the metadata is stored, `CreateWorker` returns
`job-1`, and its goroutine finds `ScheduleTask` failing with `Unavailable` and calls
`AbortCreatingWorker`, all before `SubmitJob` calls `JobDispatched`. -/
def abortBeforeJobDispatched : List JobManagerAction :=
  [.submitJob .fakeJob true "job-1", .storeMasterMeta 0 (.ok ()),
    .createWorker 0 true "uuid-1" 0,
    .creation 0 (.scheduleTaskReturned (.error (.status .unavailable)))]

/-- The state after `abortBeforeJobDispatched`. -/
def afterAbortBeforeJobDispatched : JobManager :=
  match Transition.run JobManager.step (JobManager.init freshManager) abortBeforeJobDispatched with
  | .ok s => s
  | .error _ => JobManager.init freshManager

theorem reachable_afterAbortBeforeJobDispatched :
    JobManager.Reachable freshManager afterAbortBeforeJobDispatched := by
  have hrun : Transition.run JobManager.step (JobManager.init freshManager)
      abortBeforeJobDispatched = .ok afterAbortBeforeJobDispatched := rfl
  exact Transition.reachable_run .init (by decide) hrun

/-- The call of `SubmitJob` for `job-1` is still before `JobDispatched` when `Tick`
delivers the dispatch-failed event, so `JobDispatchFailed` does not find `job-1` and
`Poll` fails with `ErrWorkerNotFound`. -/
theorem dispatch_failed_before_job_dispatched :
    JobManager.Reachable freshManager afterAbortBeforeJobDispatched ∧
      afterAbortBeforeJobDispatched.calls = [⟨⟨"job-1"⟩, .jobDispatched "job-1"⟩] ∧
      afterAbortBeforeJobDispatched.step (.tick (.ok true)) =
        .error (.pollFailed (.errWorkerNotFound "job-1")) :=
  ⟨reachable_afterAbortBeforeJobDispatched, rfl, rfl⟩

end Servermaster

end Microcosm
