import Mathlib.Data.List.AList
import Microcosm.Library.Transition
import Microcosm.Library.Map
import Microcosm.Lib.Master.WorkerManager

/-!
# The job state machine of the server master

`servermaster/job_fsm.go`. The job manager keeps each job master it runs in one of three
maps, by job ID: `pendingJobs` (waiting to be created again), `waitAckJobs` (created, no
first heartbeat yet) and `onlineJobs`. The maps are `AList`s, and the pointers of the
source are values: a job's `MasterMetaKVData` is only ever in one map, and the only write
through a pointer, `job.ID = id` in `IterPendingJobs`, is applied to the value that moves.

Of `MasterMetaKVData` the machine reads only `ID`; of a worker handle only `ID()`.

`JobFsm.WF` says that a job ID is a key of at most one map and that each job's `ID` is its
key. Every operation keeps it and moves jobs between the maps without losing or adding
one (`conserves`): only `JobDispatched` adds its ID and only `JobOffline` without
failover removes the worker's ID. The two iterations take the order of the Go map as an
argument and may stop at a failed dispatch.
-/

namespace Microcosm

namespace Servermaster

open Master

/-- `libModel.MasterMetaKVData`, restricted to the field the machine reads. -/
structure MasterMetaKVData where
  id : MasterID
  deriving DecidableEq, Repr

/-- `jobHolder`: the handle of an online job, the job's metadata, and whether the job was
loaded from the metastore on a failover. -/
structure JobHolder where
  worker : Option WorkerHandle
  masterMetaKVData : MasterMetaKVData
  addFromFailover : Bool
  deriving DecidableEq, Repr

/-- `JobFsm`, without its statistics interface and mutex. -/
structure JobFsm where
  pendingJobs : AList (fun _ : MasterID => MasterMetaKVData)
  waitAckJobs : AList (fun _ : MasterID => JobHolder)
  onlineJobs : AList (fun _ : MasterID => JobHolder)

/-- `NewJobFsm`. -/
def newJobFsm : JobFsm :=
  { pendingJobs := ∅, waitAckJobs := ∅, onlineJobs := ∅ }

namespace JobFsm

/-- `JobDispatched`. -/
def jobDispatched (fsm : JobFsm) (job : MasterMetaKVData) (addFromFailover : Bool) : JobFsm :=
  { fsm with waitAckJobs := fsm.waitAckJobs.insert job.id ⟨none, job, addFromFailover⟩ }

/-- The loop of `IterPendingJobs`, over the keys of `pendingJobs` in `order`. A failed
dispatch ends it with the error, the jobs dispatched so far having moved. -/
def iterPendingJobsLoop (dispatchJobFn : MasterMetaKVData → Except Error MasterID) :
    JobFsm → List MasterID → JobFsm × Option Error
  | fsm, [] => (fsm, none)
  | fsm, oldJobID :: rest =>
      match fsm.pendingJobs.lookup oldJobID with
      | none => iterPendingJobsLoop dispatchJobFn fsm rest
      | some job =>
          match dispatchJobFn job with
          | .error err => (fsm, some err)
          | .ok id =>
              let job := { job with id }
              iterPendingJobsLoop dispatchJobFn
                { fsm with
                  pendingJobs := fsm.pendingJobs.erase oldJobID
                  waitAckJobs := fsm.waitAckJobs.insert id ⟨none, job, false⟩ }
                rest

/-- `IterPendingJobs`, visiting the pending jobs in `order`. -/
def iterPendingJobs (fsm : JobFsm) (order : List MasterID)
    (dispatchJobFn : MasterMetaKVData → Except Error MasterID) : JobFsm × Option Error :=
  iterPendingJobsLoop dispatchJobFn fsm order

/-- The loop of `IterWaitAckJobs`: each job loaded on a failover is created again and
loses its mark. -/
def iterWaitAckJobsLoop (dispatchJobFn : MasterMetaKVData → Except Error MasterID) :
    JobFsm → List MasterID → JobFsm × Option Error
  | fsm, [] => (fsm, none)
  | fsm, id :: rest =>
      match fsm.waitAckJobs.lookup id with
      | none => iterWaitAckJobsLoop dispatchJobFn fsm rest
      | some job =>
          if !job.addFromFailover then iterWaitAckJobsLoop dispatchJobFn fsm rest
          else
            match dispatchJobFn job.masterMetaKVData with
            | .error err => (fsm, some err)
            | .ok _ =>
                iterWaitAckJobsLoop dispatchJobFn
                  { fsm with
                    waitAckJobs :=
                      fsm.waitAckJobs.insert id { job with addFromFailover := false } }
                  rest

/-- `IterWaitAckJobs`, visiting the jobs waiting for acknowledgement in `order`. -/
def iterWaitAckJobs (fsm : JobFsm) (order : List MasterID)
    (dispatchJobFn : MasterMetaKVData → Except Error MasterID) : JobFsm × Option Error :=
  iterWaitAckJobsLoop dispatchJobFn fsm order

/-- `JobOnline`. -/
def jobOnline (fsm : JobFsm) (worker : WorkerHandle) : Except Error JobFsm :=
  match fsm.waitAckJobs.lookup worker.id with
  | none => .error (.errWorkerNotFound worker.id)
  | some job =>
      .ok { fsm with
        onlineJobs :=
          fsm.onlineJobs.insert worker.id ⟨some worker, job.masterMetaKVData, false⟩
        waitAckJobs := fsm.waitAckJobs.erase worker.id }

/-- `JobOffline`: an online job, or else a job waiting for acknowledgement, leaves its map,
and goes back to the pending jobs if it needs a failover. An unknown worker is ignored. -/
def jobOffline (fsm : JobFsm) (worker : WorkerHandle) (needFailover : Bool) : JobFsm :=
  match fsm.onlineJobs.lookup worker.id with
  | some job =>
      let fsm := { fsm with onlineJobs := fsm.onlineJobs.erase worker.id }
      if needFailover then
        { fsm with pendingJobs := fsm.pendingJobs.insert worker.id job.masterMetaKVData }
      else fsm
  | none =>
      match fsm.waitAckJobs.lookup worker.id with
      | none => fsm
      | some job =>
          let fsm := { fsm with waitAckJobs := fsm.waitAckJobs.erase worker.id }
          if needFailover then
            { fsm with pendingJobs := fsm.pendingJobs.insert worker.id job.masterMetaKVData }
          else fsm

/-- `JobDispatchFailed`. -/
def jobDispatchFailed (fsm : JobFsm) (worker : WorkerHandle) : Except Error JobFsm :=
  match fsm.waitAckJobs.lookup worker.id with
  | none => .error (.errWorkerNotFound worker.id)
  | some job =>
      .ok { fsm with
        pendingJobs := fsm.pendingJobs.insert worker.id job.masterMetaKVData
        waitAckJobs := fsm.waitAckJobs.erase worker.id }

/-- The job IDs the machine holds, in any of its maps. -/
def HasJob (fsm : JobFsm) (id : MasterID) : Prop :=
  id ∈ fsm.pendingJobs ∨ id ∈ fsm.waitAckJobs ∨ id ∈ fsm.onlineJobs

instance (fsm : JobFsm) (id : MasterID) : Decidable (fsm.HasJob id) :=
  inferInstanceAs (Decidable (_ ∨ _ ∨ _))

/-- A job ID is a key of at most one map, and each job's `ID` is its key. -/
structure WF (fsm : JobFsm) : Prop where
  pending_waitAck : ∀ id, id ∈ fsm.pendingJobs → id ∉ fsm.waitAckJobs
  pending_online : ∀ id, id ∈ fsm.pendingJobs → id ∉ fsm.onlineJobs
  waitAck_online : ∀ id, id ∈ fsm.waitAckJobs → id ∉ fsm.onlineJobs
  pending_id : ∀ id job, fsm.pendingJobs.lookup id = some job → job.id = id
  waitAck_id : ∀ id job, fsm.waitAckJobs.lookup id = some job → job.masterMetaKVData.id = id
  online_id : ∀ id job, fsm.onlineJobs.lookup id = some job → job.masterMetaKVData.id = id

namespace WF

variable {fsm : JobFsm}

theorem newJobFsm : newJobFsm.WF := by
  constructor <;> simp [Servermaster.newJobFsm]

/-! Each operation erases a key from one map and inserts it into another; the invariant
survives an erase, and an insert of a key the machine does not hold with a job of that
ID. -/

theorem eraseWaitAck (hwf : fsm.WF) (k : MasterID) :
    ({ fsm with waitAckJobs := fsm.waitAckJobs.erase k } : JobFsm).WF where
  pending_waitAck id hid hw := hwf.pending_waitAck id hid (AList.mem_erase.1 hw).2
  pending_online := hwf.pending_online
  waitAck_online id hw := hwf.waitAck_online id (AList.mem_erase.1 hw).2
  pending_id := hwf.pending_id
  waitAck_id id j hj := hwf.waitAck_id id j (Map.lookup_erase_eq_some hj).2
  online_id := hwf.online_id

theorem eraseOnline (hwf : fsm.WF) (k : MasterID) :
    ({ fsm with onlineJobs := fsm.onlineJobs.erase k } : JobFsm).WF where
  pending_waitAck := hwf.pending_waitAck
  pending_online id hid ho := hwf.pending_online id hid (AList.mem_erase.1 ho).2
  waitAck_online id hw ho := hwf.waitAck_online id hw (AList.mem_erase.1 ho).2
  pending_id := hwf.pending_id
  waitAck_id := hwf.waitAck_id
  online_id id j hj := hwf.online_id id j (Map.lookup_erase_eq_some hj).2

theorem insertPending (hwf : fsm.WF) {k : MasterID} (hk : ¬ fsm.HasJob k)
    {job : MasterMetaKVData} (hid : job.id = k) :
    ({ fsm with pendingJobs := fsm.pendingJobs.insert k job } : JobFsm).WF := by
  simp only [HasJob, not_or] at hk
  refine ⟨fun id hp => ?_, fun id hp => ?_, hwf.waitAck_online, fun id j hj => ?_,
    hwf.waitAck_id, hwf.online_id⟩
  · rcases (AList.mem_insert _).1 hp with rfl | hp
    · exact hk.2.1
    · exact hwf.pending_waitAck id hp
  · rcases (AList.mem_insert _).1 hp with rfl | hp
    · exact hk.2.2
    · exact hwf.pending_online id hp
  · rcases Map.lookup_insert_eq_some hj with ⟨rfl, rfl⟩ | ⟨_, hj⟩
    · exact hid
    · exact hwf.pending_id id j hj

theorem insertWaitAck (hwf : fsm.WF) {k : MasterID} (hk : ¬ fsm.HasJob k) {job : JobHolder}
    (hid : job.masterMetaKVData.id = k) :
    ({ fsm with waitAckJobs := fsm.waitAckJobs.insert k job } : JobFsm).WF := by
  simp only [HasJob, not_or] at hk
  refine ⟨fun id hp hw => ?_, hwf.pending_online, fun id hw => ?_, hwf.pending_id,
    fun id j hj => ?_, hwf.online_id⟩
  · rcases (AList.mem_insert _).1 hw with rfl | hw
    · exact hk.1 hp
    · exact hwf.pending_waitAck id hp hw
  · rcases (AList.mem_insert _).1 hw with rfl | hw
    · exact hk.2.2
    · exact hwf.waitAck_online id hw
  · rcases Map.lookup_insert_eq_some hj with ⟨rfl, rfl⟩ | ⟨_, hj⟩
    · exact hid
    · exact hwf.waitAck_id id j hj

theorem insertOnline (hwf : fsm.WF) {k : MasterID} (hk : ¬ fsm.HasJob k) {job : JobHolder}
    (hid : job.masterMetaKVData.id = k) :
    ({ fsm with onlineJobs := fsm.onlineJobs.insert k job } : JobFsm).WF := by
  simp only [HasJob, not_or] at hk
  refine ⟨hwf.pending_waitAck, fun id hp ho => ?_, fun id hw ho => ?_, hwf.pending_id,
    hwf.waitAck_id, fun id j hj => ?_⟩
  · rcases (AList.mem_insert _).1 ho with rfl | ho
    · exact hk.1 hp
    · exact hwf.pending_online id hp ho
  · rcases (AList.mem_insert _).1 ho with rfl | ho
    · exact hk.2.1 hw
    · exact hwf.waitAck_online id hw ho
  · rcases Map.lookup_insert_eq_some hj with ⟨rfl, rfl⟩ | ⟨_, hj⟩
    · exact hid
    · exact hwf.online_id id j hj

/-- After a job waiting for acknowledgement leaves its map, the machine no longer holds it. -/
theorem not_hasJob_eraseWaitAck (hwf : fsm.WF) {k : MasterID} (hk : k ∈ fsm.waitAckJobs) :
    ¬ ({ fsm with waitAckJobs := fsm.waitAckJobs.erase k } : JobFsm).HasJob k := by
  rintro (hp | hw | ho)
  · exact hwf.pending_waitAck k hp hk
  · exact (AList.mem_erase.1 hw).1 rfl
  · exact hwf.waitAck_online k hk ho

/-- After an online job leaves its map, the machine no longer holds it. -/
theorem not_hasJob_eraseOnline (hwf : fsm.WF) {k : MasterID} (hk : k ∈ fsm.onlineJobs) :
    ¬ ({ fsm with onlineJobs := fsm.onlineJobs.erase k } : JobFsm).HasJob k := by
  rintro (hp | hw | ho)
  · exact hwf.pending_online k hp hk
  · exact hwf.waitAck_online k hw hk
  · exact (AList.mem_erase.1 ho).1 rfl

theorem erasePending (hwf : fsm.WF) (k : MasterID) :
    ({ fsm with pendingJobs := fsm.pendingJobs.erase k } : JobFsm).WF where
  pending_waitAck id hp := hwf.pending_waitAck id (AList.mem_erase.1 hp).2
  pending_online id hp := hwf.pending_online id (AList.mem_erase.1 hp).2
  waitAck_online := hwf.waitAck_online
  pending_id id j hj := hwf.pending_id id j (Map.lookup_erase_eq_some hj).2
  waitAck_id := hwf.waitAck_id
  online_id := hwf.online_id

/-- After a pending job leaves its map, the machine no longer holds it. -/
theorem not_hasJob_erasePending (hwf : fsm.WF) {k : MasterID} (hk : k ∈ fsm.pendingJobs) :
    ¬ ({ fsm with pendingJobs := fsm.pendingJobs.erase k } : JobFsm).HasJob k := by
  rintro (hp | hw | ho)
  · exact (AList.mem_erase.1 hp).1 rfl
  · exact hwf.pending_waitAck k hk hw
  · exact hwf.pending_online k hk ho

/-- Overwriting the holder of a job waiting for acknowledgement with one of the same job. -/
theorem setWaitAck (hwf : fsm.WF) {k : MasterID} (hk : k ∈ fsm.waitAckJobs) {job : JobHolder}
    (hid : job.masterMetaKVData.id = k) :
    ({ fsm with waitAckJobs := fsm.waitAckJobs.insert k job } : JobFsm).WF := by
  refine ⟨fun id hp hw => ?_, hwf.pending_online, fun id hw => ?_, hwf.pending_id,
    fun id j hj => ?_, hwf.online_id⟩
  · rcases (AList.mem_insert _).1 hw with rfl | hw
    · exact hwf.pending_waitAck id hp hk
    · exact hwf.pending_waitAck id hp hw
  · rcases (AList.mem_insert _).1 hw with rfl | hw
    · exact hwf.waitAck_online id hk
    · exact hwf.waitAck_online id hw
  · rcases Map.lookup_insert_eq_some hj with ⟨rfl, rfl⟩ | ⟨_, hj⟩
    · exact hid
    · exact hwf.waitAck_id id j hj

theorem jobDispatched (hwf : fsm.WF) {job : MasterMetaKVData} (hnew : ¬ fsm.HasJob job.id)
    (b : Bool) : (fsm.jobDispatched job b).WF :=
  hwf.insertWaitAck hnew rfl

theorem jobOnline (hwf : fsm.WF) {worker : WorkerHandle} {fsm' : JobFsm}
    (h : fsm.jobOnline worker = .ok fsm') : fsm'.WF := by
  unfold JobFsm.jobOnline at h
  split at h
  · cases h
  · rename_i job hjob
    cases h
    have hk := Map.mem_of_lookup_eq_some hjob
    exact (hwf.eraseWaitAck worker.id).insertOnline (hwf.not_hasJob_eraseWaitAck hk)
      (hwf.waitAck_id worker.id job hjob)

theorem jobDispatchFailed (hwf : fsm.WF) {worker : WorkerHandle} {fsm' : JobFsm}
    (h : fsm.jobDispatchFailed worker = .ok fsm') : fsm'.WF := by
  unfold JobFsm.jobDispatchFailed at h
  split at h
  · cases h
  · rename_i job hjob
    cases h
    have hk := Map.mem_of_lookup_eq_some hjob
    exact (hwf.eraseWaitAck worker.id).insertPending (hwf.not_hasJob_eraseWaitAck hk)
      (hwf.waitAck_id worker.id job hjob)

theorem jobOffline (hwf : fsm.WF) (worker : WorkerHandle) (needFailover : Bool) :
    (fsm.jobOffline worker needFailover).WF := by
  unfold JobFsm.jobOffline
  split
  · -- an online job
    rename_i job hjob
    have hk := Map.mem_of_lookup_eq_some hjob
    dsimp only
    split
    · exact (hwf.eraseOnline worker.id).insertPending (hwf.not_hasJob_eraseOnline hk)
        (hwf.online_id worker.id job hjob)
    · exact hwf.eraseOnline worker.id
  · split
    · exact hwf
    · -- a job waiting for acknowledgement
      rename_i job hjob
      have hk := Map.mem_of_lookup_eq_some hjob
      dsimp only
      split
      · exact (hwf.eraseWaitAck worker.id).insertPending (hwf.not_hasJob_eraseWaitAck hk)
          (hwf.waitAck_id worker.id job hjob)
      · exact hwf.eraseWaitAck worker.id

end WF


section Ops

variable {fsm : JobFsm}

theorem hasJob_jobOnline {worker : WorkerHandle} {fsm' : JobFsm}
    (h : fsm.jobOnline worker = .ok fsm') (x : MasterID) : fsm'.HasJob x ↔ fsm.HasJob x := by
  unfold JobFsm.jobOnline at h
  split at h
  · cases h
  · rename_i job hjob
    cases h
    have hk := Map.mem_of_lookup_eq_some hjob
    simp only [HasJob, AList.mem_insert, AList.mem_erase]
    by_cases hx : x = worker.id
    · subst hx
      simp [hk]
    · simp [hx]

theorem hasJob_jobDispatchFailed {worker : WorkerHandle} {fsm' : JobFsm}
    (h : fsm.jobDispatchFailed worker = .ok fsm') (x : MasterID) :
    fsm'.HasJob x ↔ fsm.HasJob x := by
  unfold JobFsm.jobDispatchFailed at h
  split at h
  · cases h
  · rename_i job hjob
    cases h
    have hk := Map.mem_of_lookup_eq_some hjob
    simp only [HasJob, AList.mem_insert, AList.mem_erase]
    by_cases hx : x = worker.id
    · subst hx
      simp [hk]
    · simp [hx]

/-- `JobOffline` removes the worker's job unless it needs a failover; a job of that ID that
is pending stays. -/
theorem hasJob_jobOffline (hwf : fsm.WF) (worker : WorkerHandle) (needFailover : Bool)
    (x : MasterID) :
    (fsm.jobOffline worker needFailover).HasJob x ↔
      fsm.HasJob x ∧ (needFailover = false → x = worker.id → x ∈ fsm.pendingJobs) := by
  unfold JobFsm.jobOffline
  split
  · rename_i job hjob
    have hk := Map.mem_of_lookup_eq_some hjob
    have hp : worker.id ∉ fsm.pendingJobs := fun hp => hwf.pending_online _ hp hk
    have hw : worker.id ∉ fsm.waitAckJobs := fun hw => hwf.waitAck_online _ hw hk
    dsimp only
    by_cases hx : x = worker.id
    · subst hx
      split <;> simp_all [HasJob, AList.mem_insert, AList.mem_erase]
    · split <;> simp_all [HasJob, AList.mem_insert, AList.mem_erase]
  · rename_i hnone
    have ho : worker.id ∉ fsm.onlineJobs := AList.lookup_eq_none.1 hnone
    split
    · rename_i hnone'
      have hw : worker.id ∉ fsm.waitAckJobs := AList.lookup_eq_none.1 hnone'
      by_cases hx : x = worker.id
      · subst hx
        simp only [HasJob, hw, ho, or_false]
        exact ⟨fun hp => ⟨hp, fun _ _ => hp⟩, fun h => h.1⟩
      · simp [hx]
    · rename_i job hjob
      have hk := Map.mem_of_lookup_eq_some hjob
      have hp : worker.id ∉ fsm.pendingJobs := fun hp => hwf.pending_waitAck _ hp hk
      dsimp only
      by_cases hx : x = worker.id
      · subst hx
        split <;> simp_all [HasJob, AList.mem_insert, AList.mem_erase]
      · split <;> simp_all [HasJob, AList.mem_insert, AList.mem_erase]

/-! The callbacks act on the worker's own job only: every other job keeps its place among
the jobs waiting for acknowledgement, and a callback fails only when the worker's job is
not waiting. -/

@[simp] theorem mem_waitAck_jobDispatched (job : MasterMetaKVData) (addFromFailover : Bool)
    (x : MasterID) :
    x ∈ (fsm.jobDispatched job addFromFailover).waitAckJobs ↔ x = job.id ∨ x ∈ fsm.waitAckJobs :=
  AList.mem_insert _

theorem mem_waitAck_jobOnline {worker : WorkerHandle} {fsm' : JobFsm}
    (h : fsm.jobOnline worker = .ok fsm') {x : MasterID} (hx : x ≠ worker.id) :
    x ∈ fsm'.waitAckJobs ↔ x ∈ fsm.waitAckJobs := by
  unfold JobFsm.jobOnline at h
  split at h
  · cases h
  · cases h
    simp [AList.mem_erase, hx]

theorem mem_waitAck_jobDispatchFailed {worker : WorkerHandle} {fsm' : JobFsm}
    (h : fsm.jobDispatchFailed worker = .ok fsm') {x : MasterID} (hx : x ≠ worker.id) :
    x ∈ fsm'.waitAckJobs ↔ x ∈ fsm.waitAckJobs := by
  unfold JobFsm.jobDispatchFailed at h
  split at h
  · cases h
  · cases h
    simp [AList.mem_erase, hx]

theorem mem_waitAck_jobOffline (worker : WorkerHandle) (needFailover : Bool) {x : MasterID}
    (hx : x ≠ worker.id) :
    x ∈ (fsm.jobOffline worker needFailover).waitAckJobs ↔ x ∈ fsm.waitAckJobs := by
  unfold JobFsm.jobOffline
  split
  · split <;> rfl
  · split
    · rfl
    · split <;> simp [AList.mem_erase, hx]

theorem jobOnline_eq_error {worker : WorkerHandle} {err : Error}
    (h : fsm.jobOnline worker = .error err) :
    err = .errWorkerNotFound worker.id ∧ worker.id ∉ fsm.waitAckJobs := by
  unfold JobFsm.jobOnline at h
  split at h
  · rename_i hnone
    cases h
    exact ⟨rfl, AList.lookup_eq_none.1 hnone⟩
  · cases h

theorem jobDispatchFailed_eq_error {worker : WorkerHandle} {err : Error}
    (h : fsm.jobDispatchFailed worker = .error err) :
    err = .errWorkerNotFound worker.id ∧ worker.id ∉ fsm.waitAckJobs := by
  unfold JobFsm.jobDispatchFailed at h
  split at h
  · rename_i hnone
    cases h
    exact ⟨rfl, AList.lookup_eq_none.1 hnone⟩
  · cases h

/-- `IterPendingJobs` moves each job it dispatches from the pending jobs to the jobs
waiting for acknowledgement, under its own ID, and stops at a failed dispatch. -/
theorem iterPendingJobsLoop_inv {dispatchJobFn : MasterMetaKVData → Except Error MasterID}
    (hfn : ∀ job id, dispatchJobFn job = .ok id → id = job.id) :
    ∀ (order : List MasterID) {fsm : JobFsm}, fsm.WF →
      (iterPendingJobsLoop dispatchJobFn fsm order).1.WF ∧
        ∀ x, (iterPendingJobsLoop dispatchJobFn fsm order).1.HasJob x ↔ fsm.HasJob x
  | [], fsm, hwf => ⟨hwf, fun _ => Iff.rfl⟩
  | oldJobID :: rest, fsm, hwf => by
      unfold iterPendingJobsLoop
      split
      · exact iterPendingJobsLoop_inv hfn rest hwf
      · rename_i job hjob
        split
        · exact ⟨hwf, fun _ => Iff.rfl⟩
        · rename_i id hid
          have hk := Map.mem_of_lookup_eq_some hjob
          -- the dispatch returns the job's own ID, which is its key
          have hown : id = oldJobID := (hfn job id hid).trans (hwf.pending_id _ _ hjob)
          subst hown
          have hwf₁ := (hwf.erasePending id).insertWaitAck (hwf.not_hasJob_erasePending hk)
            (show (⟨none, { job with id }, false⟩ : JobHolder).masterMetaKVData.id = id from rfl)
          obtain ⟨hwf₂, hjobs⟩ := iterPendingJobsLoop_inv hfn rest hwf₁
          refine ⟨hwf₂, fun x => (hjobs x).trans ?_⟩
          simp only [HasJob, AList.mem_insert, AList.mem_erase]
          by_cases hx : x = id
          · subst hx
            simp [hk]
          · simp [hx]

/-- `IterWaitAckJobs` only clears the failover mark of the jobs it creates again. -/
theorem iterWaitAckJobsLoop_inv (dispatchJobFn : MasterMetaKVData → Except Error MasterID) :
    ∀ (order : List MasterID) {fsm : JobFsm}, fsm.WF →
      (iterWaitAckJobsLoop dispatchJobFn fsm order).1.WF ∧
        ∀ x, (iterWaitAckJobsLoop dispatchJobFn fsm order).1.HasJob x ↔ fsm.HasJob x
  | [], fsm, hwf => ⟨hwf, fun _ => Iff.rfl⟩
  | id :: rest, fsm, hwf => by
      unfold iterWaitAckJobsLoop
      split
      · exact iterWaitAckJobsLoop_inv dispatchJobFn rest hwf
      · rename_i job hjob
        split
        · exact iterWaitAckJobsLoop_inv dispatchJobFn rest hwf
        split
        · exact ⟨hwf, fun _ => Iff.rfl⟩
        · have hk := Map.mem_of_lookup_eq_some hjob
          have hwf₁ := hwf.setWaitAck hk
            (show ({ job with addFromFailover := false } : JobHolder).masterMetaKVData.id = id from
              hwf.waitAck_id id job hjob)
          obtain ⟨hwf₂, hjobs⟩ := iterWaitAckJobsLoop_inv dispatchJobFn rest hwf₁
          refine ⟨hwf₂, fun x => (hjobs x).trans ?_⟩
          simp only [HasJob, AList.mem_insert]
          by_cases hx : x = id
          · subst hx
            simp [hk]
          · simp [hx]

end Ops

end JobFsm

/-- A dispatch function as `IterPendingJobs` is given it: on success it returns the ID of
the job master it creates, which is the job's own ID. -/
structure DispatchFn where
  run : MasterMetaKVData → Except Error MasterID
  returns_own_id : ∀ job id, run job = .ok id → id = job.id

/-- The calls of the job manager on its `JobFsm`. -/
inductive JobFsmOp
  | jobDispatched (job : MasterMetaKVData) (addFromFailover : Bool)
  | iterPendingJobs (order : List MasterID) (dispatchJobFn : DispatchFn)
  | iterWaitAckJobs (order : List MasterID)
      (dispatchJobFn : MasterMetaKVData → Except Error MasterID)
  | jobOnline (worker : WorkerHandle)
  | jobOffline (worker : WorkerHandle) (needFailover : Bool)
  | jobDispatchFailed (worker : WorkerHandle)

namespace JobFsm

/-- The machine after a call; an error the call returns leaves what it had done. -/
def apply (fsm : JobFsm) : JobFsmOp → JobFsm
  | .jobDispatched job addFromFailover => fsm.jobDispatched job addFromFailover
  | .iterPendingJobs order dispatchJobFn => (fsm.iterPendingJobs order dispatchJobFn.run).1
  | .iterWaitAckJobs order dispatchJobFn => (fsm.iterWaitAckJobs order dispatchJobFn).1
  | .jobOnline worker =>
      match fsm.jobOnline worker with
      | .ok fsm' => fsm'
      | .error _ => fsm
  | .jobOffline worker needFailover => fsm.jobOffline worker needFailover
  | .jobDispatchFailed worker =>
      match fsm.jobDispatchFailed worker with
      | .ok fsm' => fsm'
      | .error _ => fsm

-- Many proofs below unfold this definition, and Lean elaborates them in parallel: the empty
-- section generates its equation lemmas here, once, so that the proofs do not all wait on it.
-- The simp set outside the section is unchanged.
section
attribute [local simp] apply
end

/-- `JobDispatched` is only called with a job the machine does not hold. -/
def allowed (fsm : JobFsm) : JobFsmOp → Bool
  | .jobDispatched job _ => !decide (fsm.HasJob job.id)
  | _ => true

/-- The machines reachable from `NewJobFsm`. -/
def Reachable : JobFsm → Prop :=
  Transition.Reachable (fun fsm op => (.ok (fsm.apply op) : Except Empty JobFsm)) allowed
    newJobFsm

end JobFsm

/-- The jobs the machine may hold after a call: `JobDispatched` adds its job, `JobOffline`
without failover removes the worker's job unless that job is pending, and every other
call keeps the set. -/
def JobFsmOp.HasJobAfter : JobFsmOp → JobFsm → MasterID → Prop
  | .jobDispatched job _, fsm, x => x = job.id ∨ fsm.HasJob x
  | .jobOffline worker needFailover, fsm, x =>
      fsm.HasJob x ∧ (needFailover = false → x = worker.id → x ∈ fsm.pendingJobs)
  | _, fsm, x => fsm.HasJob x

namespace JobFsm

variable {fsm : JobFsm}

theorem WF.apply (hwf : fsm.WF) (op : JobFsmOp) (hal : fsm.allowed op = true) :
    (fsm.apply op).WF := by
  cases op with
  | jobDispatched job b =>
      simp only [allowed, Bool.not_eq_eq_eq_not, Bool.not_true, decide_eq_false_iff_not] at hal
      exact hwf.jobDispatched hal b
  | iterPendingJobs order fn => exact (iterPendingJobsLoop_inv fn.returns_own_id order hwf).1
  | iterWaitAckJobs order fn => exact (iterWaitAckJobsLoop_inv fn order hwf).1
  | jobOnline worker =>
      simp only [JobFsm.apply]
      split
      · rename_i fsm' h
        exact hwf.jobOnline h
      · exact hwf
  | jobOffline worker needFailover => exact hwf.jobOffline worker needFailover
  | jobDispatchFailed worker =>
      simp only [JobFsm.apply]
      split
      · rename_i fsm' h
        exact hwf.jobDispatchFailed h
      · exact hwf

theorem hasJob_apply (hwf : fsm.WF) (op : JobFsmOp) (x : MasterID) :
    (fsm.apply op).HasJob x ↔ op.HasJobAfter fsm x := by
  cases op with
  | jobDispatched job b =>
      simp only [JobFsm.apply, JobFsmOp.HasJobAfter, JobFsm.jobDispatched, HasJob,
        AList.mem_insert]
      tauto
  | iterPendingJobs order fn => exact (iterPendingJobsLoop_inv fn.returns_own_id order hwf).2 x
  | iterWaitAckJobs order fn => exact (iterWaitAckJobsLoop_inv fn order hwf).2 x
  | jobOnline worker =>
      simp only [JobFsm.apply, JobFsmOp.HasJobAfter]
      split
      · rename_i fsm' h
        exact hasJob_jobOnline h x
      · exact Iff.rfl
  | jobOffline worker needFailover => exact hasJob_jobOffline hwf worker needFailover x
  | jobDispatchFailed worker =>
      simp only [JobFsm.apply, JobFsmOp.HasJobAfter]
      split
      · rename_i fsm' h
        exact hasJob_jobDispatchFailed h x
      · exact Iff.rfl

theorem wf_of_reachable (hr : fsm.Reachable) : fsm.WF :=
  Transition.Reachable.inv WF.newJobFsm
    (fun _ op _ hwf hal hs => by
      cases hs
      exact hwf.apply op hal) hr

end JobFsm

end Servermaster

end Microcosm
