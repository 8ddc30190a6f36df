import Microcosm.Library.Map
import Microcosm.Lib.CreateWorker

/-!
# The CVS job master

`JobMaster` of `jobmaster/cvsJob/cvsJobMaster.go`: a job that copies `FileNum` files, one
worker of type `CvsTask` for each file index. Three maps hold its bookkeeping:
`FileInfos`, the progress of each index, which is persisted; `syncFilesInfo`, whether an
index needs a new worker and the handle of its worker once that worker is online; and
`launchedWorkers`, the index of each worker the job master knows. `Tick` creates a worker
for every index that needs one and reads the progress of the others; the callbacks of the
framework put an index back to "needs a worker" when its worker could not be dispatched or
went offline.

`Consistent` is what the bookkeeping keeps: the first two maps have the same indices, no
two workers of `launchedWorkers` share an index, and an index that needs a worker has
none. Every method keeps it, `OnWorkerOnline` once the master is ready and
`OnMasterRecovered` before any worker was launched. It says nothing of the workers the
framework knows and the job master does not: `OnMasterRecovered` marks every index as
needing a worker, whatever workers survived the failover.

Statuses are JSON in the source; `json.Unmarshal` of a task's status is the parameter
`decodeTaskStatus`. The counter of `Tick`, the rate limiter of its log, its write of the
job status to the metastore (whose failure is only logged) and the messages
`OnJobManagerMessage` sends to the workers are not modelled.
-/

namespace Microcosm

namespace Cvs

open Master Lib

/-- `cvsTask.Status`, by the two fields the job master reads: the index of the task's
config and the task's current location. -/
structure TaskStatus where
  idx : Nat
  currentLoc : String
  deriving DecidableEq, Repr

/-- `WorkerInfo`. -/
structure WorkerInfo where
  handle : Option WorkerHandle
  needCreate : Bool
  deriving DecidableEq, Repr

/-- `JobMaster`, by the fields its methods read and write. The status code is `none` until
it is first set, as the zero `WorkerStatusCode` is none of the named codes. -/
structure JobMaster where
  /-- `jobStatus.Config.FileNum`. -/
  fileNum : Int
  /-- `jobStatus.FileInfos`, by the `Location` of each index. -/
  fileInfos : AList (fun _ : Nat => String)
  syncFilesInfo : AList (fun _ : Nat => WorkerInfo)
  launchedWorkers : AList (fun _ : WorkerID => Nat)
  statusCode : Option WorkerStatusCode

/-- The panics of the job master. -/
inductive Panic
  /-- "failed worker not found" in `OnWorkerDispatched`. -/
  | failedWorkerNotFound (workerID : WorkerID)
  /-- "offline worker not found" in `OnWorkerOffline`. -/
  | offlineWorkerNotFound (workerID : WorkerID)
  /-- "job master has ready and a new worker has been created, brain split occurs!" in
  `OnWorkerOnline`. -/
  | brainSplit
  /-- The Go runtime's nil pointer dereference: an index missing from `syncFilesInfo` or
  `FileInfos`, or a `nil` status. -/
  | nilPointerDereference
  /-- The Go runtime's index out of range, on `resp.Kvs[0]`. -/
  | indexOutOfRange
  deriving DecidableEq, Repr

/-- How a method of the job master fails: it returns an error, it panics, or the framework
panics in a call it makes. -/
inductive Failure
  | error (err : Error)
  | panic (p : Panic)
  | master (p : Master.Panic)
  deriving DecidableEq, Repr

/-- `NewCVSJobMaster` for a config of `fileNum` files. -/
def newCVSJobMaster (fileNum : Int) : JobMaster :=
  { fileNum, fileInfos := ∅, syncFilesInfo := ∅, launchedWorkers := ∅, statusCode := none }

namespace JobMaster

/-- One iteration of the loop of `InitImpl`: the index `idx` has made no progress and needs
a worker. -/
def addFile (jm : JobMaster) (idx : Nat) : JobMaster :=
  { jm with
    fileInfos := jm.fileInfos.insert idx ""
    syncFilesInfo := jm.syncFilesInfo.insert idx ⟨none, true⟩ }

/-- `InitImpl`; `putResult` is the outcome of writing the job status to the metastore. -/
def initImpl (jm : JobMaster) (putResult : Except Error Unit) : Except Error JobMaster :=
  if jm.fileNum = 0 then .error (.other "no file found under the folder")
  else
    let jm := (List.range jm.fileNum.toNat).foldl addFile { jm with statusCode := some .init }
    match putResult with
    | .error err => .error err
    | .ok () => .ok { jm with statusCode := some .normal }

/-- The loop of `OnMasterRecovered`: each of `ids` gets a fresh `WorkerInfo` that needs a
worker. -/
def markNeedCreate (syncFilesInfo : AList (fun _ : Nat => WorkerInfo)) (ids : List Nat) :
    AList (fun _ : Nat => WorkerInfo) :=
  ids.foldl (fun m id => m.insert id ⟨none, true⟩) syncFilesInfo

/-- `OnMasterRecovered`. `resp` is the outcome of reading the job master's key from the
metastore: the values found, each as `json.Unmarshal` decodes it into the `FileInfos` of a
`Status`. -/
def onMasterRecovered (jm : JobMaster)
    (resp : Except Error (List (Except Error (AList (fun _ : Nat => String))))) :
    Except Failure JobMaster :=
  match resp with
  | .error err => .error (.error err)
  | .ok [] => .error (.panic .indexOutOfRange)
  | .ok (.error err :: _) => .error (.error err)
  | .ok (.ok decoded :: _) =>
      -- `json.Unmarshal` into the existing map adds the decoded entries to it
      let fileInfos := decoded ∪ jm.fileInfos
      .ok { jm with fileInfos, syncFilesInfo := markNeedCreate jm.syncFilesInfo fileInfos.keys }

/-- `syncFilesInfo[id].needCreate.Store(true)` and `syncFilesInfo[id].handle.Store(nil)`. -/
def resetWorkerInfo (jm : JobMaster) (id : Nat) : Except Failure JobMaster :=
  match jm.syncFilesInfo.lookup id with
  | none => .error (.panic .nilPointerDereference)
  | some _ => .ok { jm with syncFilesInfo := jm.syncFilesInfo.insert id ⟨none, true⟩ }

/-- `launchedWorkers.Delete(workerID)`. -/
def deleteLaunched (jm : JobMaster) (workerID : WorkerID) : JobMaster :=
  { jm with launchedWorkers := jm.launchedWorkers.erase workerID }

/-- `OnWorkerDispatched`. -/
def onWorkerDispatched (jm : JobMaster) (worker : WorkerHandle) (err : Option Error) :
    Except Failure JobMaster :=
  match err with
  | none => .ok jm
  | some _ =>
      match jm.launchedWorkers.lookup worker.id with
      | none => .error (.panic (.failedWorkerNotFound worker.id))
      | some id => (jm.deleteLaunched worker.id).resetWorkerInfo id

/-- The index `OnWorkerOnline` files the worker under: the one recorded for it or, while
the master is not ready, the index of the task config in the worker's status. -/
def onlineIndex (jm : JobMaster) (wm : WorkerManager)
    (decodeTaskStatus : List UInt8 → Except Error TaskStatus) (worker : WorkerHandle) :
    Except Failure Nat :=
  match jm.launchedWorkers.lookup worker.id with
  | some id => .ok id
  | none =>
      if wm.isInitialized then .error (.panic .brainSplit)
      else
        match worker.status wm with
        | .error p => .error (.master p)
        | .ok none => .error (.panic .nilPointerDereference)
        | .ok (some status) =>
            match decodeTaskStatus status.extBytes with
            | .error err => .error (.error err)
            | .ok taskStatus => .ok taskStatus.idx

/-- `OnWorkerOnline`. -/
def onWorkerOnline (jm : JobMaster) (wm : WorkerManager)
    (decodeTaskStatus : List UInt8 → Except Error TaskStatus) (worker : WorkerHandle) :
    Except Failure JobMaster :=
  match jm.onlineIndex wm decodeTaskStatus worker with
  | .error f => .error f
  | .ok id =>
      match jm.syncFilesInfo.lookup id with
      | none => .error (.panic .nilPointerDereference)
      | some _ =>
          .ok { jm with
            syncFilesInfo := jm.syncFilesInfo.insert id ⟨some worker, false⟩
            launchedWorkers := jm.launchedWorkers.insert worker.id id }

/-- `OnWorkerOffline`: an index whose worker finished is dropped, any other index needs a
new worker. -/
def onWorkerOffline (jm : JobMaster) (wm : WorkerManager) (worker : WorkerHandle)
    (reason : Option Error) : Except Failure JobMaster :=
  match jm.launchedWorkers.lookup worker.id with
  | none => .error (.panic (.offlineWorkerNotFound worker.id))
  | some id =>
      let jm := jm.deleteLaunched worker.id
      if reason = some .errWorkerFinish then
        -- the log line of this branch reads `worker.Status()`
        match worker.status wm with
        | .error p => .error (.master p)
        | .ok _ =>
            .ok { jm with
              syncFilesInfo := jm.syncFilesInfo.erase id
              fileInfos := jm.fileInfos.erase id }
      else jm.resetWorkerInfo id

/-- `OnJobManagerMessage` for a `StatusChangeRequest` that expects `expectState`. -/
def onJobManagerMessage (jm : JobMaster) (expectState : WorkerStatusCode) : JobMaster :=
  if expectState = .stopped then { jm with statusCode := some .stopped } else jm

/-- `getTaskConfig`, by what it reads of the job master: the location of the index, where
the task starts. -/
def getTaskConfig (jm : JobMaster) (id : Nat) : Except Failure String :=
  match jm.fileInfos.lookup id with
  | none => .error (.panic .nilPointerDereference)
  | some location => .ok location

end JobMaster

/-- The state of the loop of `Tick`: the job master, the outcomes of `CreateWorker` not
used yet, whether the quota was acquired and which UUID was drawn, and the workers created
so far, each with its index and the goroutine `CreateWorker` launched for it. -/
structure TickAcc where
  jm : JobMaster
  creates : List (Bool × WorkerID)
  created : List (Nat × Creation)

namespace JobMaster

variable (wm : WorkerManager) (decodeTaskStatus : List UInt8 → Except Error TaskStatus)
  (now : Nat)

/-- The status codes whose status `Tick` reads the progress of a task from. -/
def readsProgress : WorkerStatusCode → Bool
  | .normal | .finished | .stopped => true
  | _ => false

/-- The branch of the loop of `Tick` for an index that needs a worker. A call of
`CreateWorker` beyond the outcomes given does not get the quota. -/
def createFor (acc : TickAcc) (idx : Nat) (info : WorkerInfo) : Except Failure TickAcc :=
  match acc.jm.getTaskConfig idx with
  | .error f => .error f
  | .ok _ =>
      let outcome := acc.creates.headD (false, "")
      match createWorker .cvsTask (.user none) outcome.1 outcome.2 now with
      -- "create worker failed, try next time"
      | .error _ => .ok { acc with creates := acc.creates.tail }
      | .ok (workerID, g) =>
          .ok { jm := { acc.jm with
                  launchedWorkers := acc.jm.launchedWorkers.insert workerID idx
                  syncFilesInfo := acc.jm.syncFilesInfo.insert idx { info with needCreate := false } }
                creates := acc.creates.tail
                created := acc.created ++ [(idx, g)] }

/-- The branch of the loop of `Tick` that reads the progress of the index from the status
of its worker. -/
def readProgress (acc : TickAcc) (idx : Nat) (handle : WorkerHandle) : Except Failure TickAcc :=
  match handle.status wm with
  | .error p => .error (.master p)
  | .ok none => .error (.panic .nilPointerDereference)
  | .ok (some status) =>
      if readsProgress status.code then
        match decodeTaskStatus status.extBytes with
        | .error err => .error (.error err)
        | .ok taskStatus =>
            match acc.jm.fileInfos.lookup idx with
            | none => .error (.panic .nilPointerDereference)
            | some _ =>
                .ok { acc with
                  jm := { acc.jm with fileInfos := acc.jm.fileInfos.insert idx taskStatus.currentLoc } }
      else .ok acc

/-- One iteration of the loop of `Tick`, for the index `idx`. -/
def tickIndex (acc : TickAcc) (idx : Nat) : Except Failure TickAcc :=
  match acc.jm.syncFilesInfo.lookup idx with
  | none => .ok acc
  | some info =>
      if info.needCreate then createFor now acc idx info
      else
        match info.handle with
        -- still awaiting online
        | none => .ok acc
        | some handle => readProgress wm decodeTaskStatus acc idx handle

/-- The loop of `Tick` over the indices in `order`. -/
def tickLoop : TickAcc → List Nat → Except Failure TickAcc
  | acc, [] => .ok acc
  | acc, idx :: rest =>
      match tickIndex wm decodeTaskStatus now acc idx with
      | .error f => .error f
      | .ok acc => tickLoop acc rest

/-- `Tick`, visiting the indices of `syncFilesInfo` in `order`: the job master and the
workers it created. `Exit` ends with `ErrWorkerFinish` once it has written the final
status, and `Poll` returns that error. -/
def tick (jm : JobMaster) (order : List Nat) (creates : List (Bool × WorkerID)) :
    Except Failure (JobMaster × List (Nat × Creation)) :=
  if !wm.isInitialized then .ok (jm, [])
  else if jm.fileInfos.entries.length = 0 then .error (.error .errWorkerFinish)
  else
    match tickLoop wm decodeTaskStatus now ⟨jm, creates, []⟩ order with
    | .error f => .error f
    | .ok acc =>
        if acc.jm.statusCode = some .stopped then .error (.error .errWorkerFinish)
        else .ok (acc.jm, acc.created)

/-- What one iteration of the loop of `Tick` can do. -/
inductive TickIndexMoves (acc : TickAcc) (idx : Nat) : TickAcc → Prop
  /-- Nothing changes but the outcomes left. -/
  | skip (creates : List (Bool × WorkerID)) : TickIndexMoves acc idx { acc with creates }
  /-- `CreateWorker` returned the worker of `g` for the index, which needed a worker. -/
  | create (info : WorkerInfo) (g : Creation) (creates : List (Bool × WorkerID)) :
      acc.jm.syncFilesInfo.lookup idx = some info → info.needCreate = true →
      TickIndexMoves acc idx
        { jm := { acc.jm with
            launchedWorkers := acc.jm.launchedWorkers.insert g.workerID idx
            syncFilesInfo := acc.jm.syncFilesInfo.insert idx { info with needCreate := false } }
          creates
          created := acc.created ++ [(idx, g)] }
  /-- The location of the index is read from its worker's status. -/
  | progress (location : String) : idx ∈ acc.jm.fileInfos →
      TickIndexMoves acc idx
        { acc with jm := { acc.jm with fileInfos := acc.jm.fileInfos.insert idx location } }

/-- What the bookkeeping of the job master keeps. -/
structure Consistent (jm : JobMaster) : Prop where
  /-- `FileInfos` and `syncFilesInfo` have the same indices. -/
  sameIndices : ∀ idx, idx ∈ jm.fileInfos ↔ idx ∈ jm.syncFilesInfo
  /-- No index is recorded for two workers. -/
  uniqueWorker : Map.Injective jm.launchedWorkers
  /-- An index that needs a worker is recorded for none. -/
  needCreate_free : ∀ idx info, jm.syncFilesInfo.lookup idx = some info →
    info.needCreate = true → ∀ w, jm.launchedWorkers.lookup w ≠ some idx

theorem consistent_newCVSJobMaster (fileNum : Int) : (newCVSJobMaster fileNum).Consistent where
  sameIndices idx := by simp [newCVSJobMaster]
  uniqueWorker := Map.injective_empty
  needCreate_free idx info h := by simp [newCVSJobMaster] at h

/-- The status code plays no part in the bookkeeping. -/
theorem Consistent.withStatusCode {jm : JobMaster} (h : jm.Consistent)
    (statusCode : Option WorkerStatusCode) : ({ jm with statusCode } : JobMaster).Consistent :=
  ⟨h.sameIndices, h.uniqueWorker, h.needCreate_free⟩

theorem Consistent.addFile {jm : JobMaster} (h : jm.Consistent) (hl : jm.launchedWorkers = ∅)
    (idx : Nat) : (jm.addFile idx).Consistent where
  sameIndices i := by simp only [JobMaster.addFile, AList.mem_insert, h.sameIndices i]
  uniqueWorker := h.uniqueWorker
  needCreate_free i info _ _ w := by simp [JobMaster.addFile, hl]

theorem Consistent.foldl_addFile {jm : JobMaster} (h : jm.Consistent)
    (hl : jm.launchedWorkers = ∅) (ids : List Nat) :
    (ids.foldl JobMaster.addFile jm).Consistent ∧
      (ids.foldl JobMaster.addFile jm).launchedWorkers = ∅ := by
  induction ids generalizing jm with
  | nil => exact ⟨h, hl⟩
  | cons idx ids ih => exact ih (h.addFile hl idx) hl

/-- `InitImpl` on a job master that has launched no worker. -/
theorem initImpl_consistent {jm jm' : JobMaster} {putResult : Except Error Unit}
    (h : jm.Consistent) (hl : jm.launchedWorkers = ∅) (hi : jm.initImpl putResult = .ok jm') :
    jm'.Consistent := by
  unfold initImpl at hi
  split at hi
  · cases hi
  · obtain ⟨hf, -⟩ := (h.withStatusCode (some .init)).foldl_addFile hl (List.range jm.fileNum.toNat)
    dsimp only at hi
    split at hi
    · cases hi
    · cases hi
      exact hf.withStatusCode _

theorem mem_markNeedCreate {m : AList (fun _ : Nat => WorkerInfo)} {ids : List Nat} {idx : Nat} :
    idx ∈ markNeedCreate m ids ↔ idx ∈ m ∨ idx ∈ ids := by
  induction ids generalizing m with
  | nil => simp [markNeedCreate]
  | cons id ids ih =>
      simp only [markNeedCreate, List.foldl_cons] at ih ⊢
      rw [ih, AList.mem_insert, List.mem_cons]
      tauto

/-- `OnMasterRecovered` on a job master that has launched no worker. -/
theorem onMasterRecovered_consistent {jm jm' : JobMaster}
    {resp : Except Error (List (Except Error (AList (fun _ : Nat => String))))}
    (h : jm.Consistent) (hl : jm.launchedWorkers = ∅) (hr : jm.onMasterRecovered resp = .ok jm') :
    jm'.Consistent := by
  rcases resp with err | _ | ⟨err | decoded, _⟩ <;> simp only [onMasterRecovered] at hr <;>
    cases hr
  refine ⟨fun idx => ?_, by rw [hl]; exact Map.injective_empty, fun idx info _ _ w => by simp [hl]⟩
  -- the recovered indices are those of the merged `FileInfos`
  show idx ∈ decoded ∪ jm.fileInfos ↔
    idx ∈ markNeedCreate jm.syncFilesInfo (decoded ∪ jm.fileInfos).keys
  rw [mem_markNeedCreate, ← h.sameIndices idx]
  exact ⟨fun hm => .inr (AList.mem_keys.2 hm),
    fun hm => hm.elim (fun hf => AList.mem_union.2 (.inr hf)) AList.mem_keys.1⟩

theorem resetWorkerInfo_eq_ok {jm jm' : JobMaster} {id : Nat} (h : jm.resetWorkerInfo id = .ok jm') :
    id ∈ jm.syncFilesInfo ∧ jm' = { jm with syncFilesInfo := jm.syncFilesInfo.insert id ⟨none, true⟩ } := by
  unfold resetWorkerInfo at h
  split at h
  · cases h
  · rename_i hinfo
    cases h
    exact ⟨Map.mem_of_lookup_eq_some hinfo, rfl⟩

/-- Deleting a worker and resetting its index, as `OnWorkerDispatched` and `OnWorkerOffline`
do: once the worker is deleted, its index is recorded for no worker. -/
theorem Consistent.release {jm jm' : JobMaster} {w : WorkerID} {id : Nat} (h : jm.Consistent)
    (hw : jm.launchedWorkers.lookup w = some id)
    (hr : (jm.deleteLaunched w).resetWorkerInfo id = .ok jm') : jm'.Consistent := by
  obtain ⟨hmem, rfl⟩ := resetWorkerInfo_eq_ok hr
  refine ⟨fun idx => ?_, h.uniqueWorker.erase w, fun idx info hidx hneed w' => ?_⟩
  · rw [Map.mem_insert_of_mem hmem]
    exact h.sameIndices idx
  · rcases Map.lookup_insert_eq_some hidx with ⟨rfl, -⟩ | ⟨-, hidx⟩
    · exact h.uniqueWorker.lookup_erase_ne hw w'
    · exact fun hw' => h.needCreate_free idx info hidx hneed w' (Map.lookup_erase_eq_some hw').2

/-- Deleting a worker that finished, and its index. -/
theorem Consistent.release_finished {jm : JobMaster} {w : WorkerID} {id : Nat}
    (h : jm.Consistent) :
    ({ jm.deleteLaunched w with
        syncFilesInfo := jm.syncFilesInfo.erase id, fileInfos := jm.fileInfos.erase id } :
      JobMaster).Consistent := by
  refine ⟨fun idx => ?_, h.uniqueWorker.erase w, fun idx info hidx hneed w' hw' => ?_⟩
  · simp only [AList.mem_erase, h.sameIndices idx]
  · exact h.needCreate_free idx info (Map.lookup_erase_eq_some hidx).2 hneed w'
      (Map.lookup_erase_eq_some hw').2

theorem onWorkerDispatched_consistent {jm jm' : JobMaster} {worker : WorkerHandle}
    {err : Option Error} (h : jm.Consistent) (hd : jm.onWorkerDispatched worker err = .ok jm') :
    jm'.Consistent := by
  unfold onWorkerDispatched at hd
  split at hd
  · cases hd
    exact h
  · split at hd
    · cases hd
    · exact h.release ‹_› hd

theorem onWorkerOffline_consistent {jm jm' : JobMaster} {wm : WorkerManager}
    {worker : WorkerHandle} {reason : Option Error} (h : jm.Consistent)
    (ho : jm.onWorkerOffline wm worker reason = .ok jm') : jm'.Consistent := by
  unfold onWorkerOffline at ho
  split at ho
  · cases ho
  · rename_i id hw
    dsimp only at ho
    split at ho
    · split at ho
      · cases ho
      · cases ho
        exact h.release_finished
    · exact h.release hw ho

/-- `OnWorkerOnline` of a ready master: only a worker it recorded gets through, and it is
filed under its own index again. -/
theorem onWorkerOnline_consistent {jm jm' : JobMaster} {wm : WorkerManager}
    {decodeTaskStatus : List UInt8 → Except Error TaskStatus} {worker : WorkerHandle}
    (h : jm.Consistent) (hready : wm.isInitialized = true)
    (ho : jm.onWorkerOnline wm decodeTaskStatus worker = .ok jm') : jm'.Consistent := by
  unfold onWorkerOnline at ho
  split at ho
  · cases ho
  · rename_i id hid
    have hw : jm.launchedWorkers.lookup worker.id = some id := by
      unfold onlineIndex at hid
      split at hid
      · cases hid
        assumption
      · rw [if_pos hready] at hid
        cases hid
    split at ho
    · cases ho
    · rename_i hinfo
      cases ho
      have hsame := Map.lookup_insert_self hw
      refine ⟨fun idx => ?_, fun a a' v ha ha' => ?_, fun idx info hidx hneed w' => ?_⟩
      · rw [Map.mem_insert_of_mem (Map.mem_of_lookup_eq_some hinfo)]
        exact h.sameIndices idx
      · rw [hsame] at ha ha'
        exact h.uniqueWorker a a' v ha ha'
      · rcases Map.lookup_insert_eq_some hidx with ⟨rfl, rfl⟩ | ⟨-, hidx⟩
        · cases hneed
        · rw [hsame]
          exact h.needCreate_free idx info hidx hneed w'

theorem onJobManagerMessage_consistent {jm : JobMaster} (h : jm.Consistent)
    (expectState : WorkerStatusCode) : (jm.onJobManagerMessage expectState).Consistent := by
  unfold onJobManagerMessage
  split
  · exact h.withStatusCode _
  · exact h

/-- One iteration of the loop of `Tick` keeps the bookkeeping: a worker is created only for
an index that needs one, which no worker holds. -/
theorem TickIndexMoves.consistent {acc acc' : TickAcc} {idx : Nat} (h : acc.jm.Consistent)
    (hm : TickIndexMoves acc idx acc') : acc'.jm.Consistent := by
  cases hm with
  | skip creates => exact h
  | create info g creates hinfo hneed =>
      refine ⟨fun i => ?_, h.uniqueWorker.insert (h.needCreate_free idx info hinfo hneed),
        fun i info' hi hneed' w => ?_⟩
      · rw [Map.mem_insert_of_mem (Map.mem_of_lookup_eq_some hinfo)]
        exact h.sameIndices i
      · rcases Map.lookup_insert_eq_some hi with ⟨rfl, rfl⟩ | ⟨hne, hi⟩
        · simp at hneed'
        · intro hw
          rcases Map.lookup_insert_eq_some hw with ⟨-, rfl⟩ | ⟨-, hw⟩
          · exact hne rfl
          · exact h.needCreate_free i info' hi hneed' w hw
  | progress location hmem =>
      refine ⟨fun i => ?_, h.uniqueWorker, h.needCreate_free⟩
      rw [Map.mem_insert_of_mem hmem]
      exact h.sameIndices i

theorem createFor_moves {acc acc' : TickAcc} {idx : Nat} {info : WorkerInfo}
    (hinfo : acc.jm.syncFilesInfo.lookup idx = some info) (hneed : info.needCreate = true)
    (h : createFor now acc idx info = .ok acc') : TickIndexMoves acc idx acc' := by
  unfold createFor at h
  split at h
  · cases h
  · dsimp only at h
    split at h
    · cases h
      exact .skip _
    · rename_i workerID g hc
      cases h
      obtain ⟨hid, -⟩ := createWorker_eq_ok hc
      rw [← hid]
      exact .create info g _ hinfo hneed

theorem readProgress_moves {acc acc' : TickAcc} {idx : Nat} {handle : WorkerHandle}
    (h : readProgress wm decodeTaskStatus acc idx handle = .ok acc') :
    TickIndexMoves acc idx acc' := by
  unfold readProgress at h
  split at h
  · cases h
  · cases h
  · split at h
    · split at h
      · cases h
      · split at h
        · cases h
        · rename_i hloc
          cases h
          exact .progress _ (Map.mem_of_lookup_eq_some hloc)
    · cases h
      exact .skip acc.creates

theorem tickIndex_moves {acc acc' : TickAcc} {idx : Nat}
    (h : tickIndex wm decodeTaskStatus now acc idx = .ok acc') : TickIndexMoves acc idx acc' := by
  unfold tickIndex at h
  split at h
  · cases h
    exact .skip acc.creates
  · rename_i info hinfo
    split at h
    · exact createFor_moves now hinfo ‹_› h
    · split at h
      · cases h
        exact .skip acc.creates
      · exact readProgress_moves wm decodeTaskStatus h

theorem tickLoop_consistent {acc acc' : TickAcc} {order : List Nat} (h : acc.jm.Consistent)
    (ht : tickLoop wm decodeTaskStatus now acc order = .ok acc') : acc'.jm.Consistent := by
  induction order generalizing acc with
  | nil =>
      cases ht
      exact h
  | cons idx rest ih =>
      simp only [tickLoop] at ht
      split at ht
      · cases ht
      · rename_i acc₁ h₁
        exact ih ((tickIndex_moves wm decodeTaskStatus now h₁).consistent h) ht

/-- `Tick` keeps the bookkeeping. -/
theorem tick_consistent {jm jm' : JobMaster} {order : List Nat} {creates : List (Bool × WorkerID)}
    {created : List (Nat × Creation)} (h : jm.Consistent)
    (ht : tick wm decodeTaskStatus now jm order creates = .ok (jm', created)) : jm'.Consistent := by
  unfold tick at ht
  split at ht
  · cases ht
    exact h
  · split at ht
    · cases ht
    · split at ht
      · cases ht
      · rename_i acc hacc
        split at ht
        · cases ht
        · cases ht
          exact tickLoop_consistent wm decodeTaskStatus now h hacc

/-! Which workers `launchedWorkers` holds after each method: `Tick` and `OnWorkerOnline` only
add workers, and the other two callbacks only delete the worker they are called for. -/

theorem TickIndexMoves.launched_mono {acc acc' : TickAcc} {idx : Nat}
    (hm : TickIndexMoves acc idx acc') {w : WorkerID} (hw : w ∈ acc.jm.launchedWorkers) :
    w ∈ acc'.jm.launchedWorkers := by
  cases hm with
  | create => exact (AList.mem_insert _).2 (.inr hw)
  | skip | progress => exact hw

theorem TickIndexMoves.created_mem {acc acc' : TickAcc} {idx : Nat}
    (hm : TickIndexMoves acc idx acc') {p : Nat × Creation} (hp : p ∈ acc'.created) :
    p ∈ acc.created ∨ p.2.workerID ∈ acc'.jm.launchedWorkers := by
  cases hm with
  | create info g creates =>
      rcases List.mem_append.1 hp with hp | hp
      · exact .inl hp
      · rw [List.mem_singleton.1 hp]
        exact .inr ((AList.mem_insert _).2 (.inl rfl))
  | skip | progress => exact .inl hp

theorem tickLoop_launched {acc acc' : TickAcc} {order : List Nat}
    (ht : tickLoop wm decodeTaskStatus now acc order = .ok acc') :
    (∀ w ∈ acc.jm.launchedWorkers, w ∈ acc'.jm.launchedWorkers) ∧
      ∀ p ∈ acc'.created, p ∈ acc.created ∨ p.2.workerID ∈ acc'.jm.launchedWorkers := by
  induction order generalizing acc with
  | nil =>
      cases ht
      exact ⟨fun _ hw => hw, fun _ hp => .inl hp⟩
  | cons idx rest ih =>
      simp only [tickLoop] at ht
      split at ht
      · cases ht
      · rename_i acc₁ h₁
        have hm := tickIndex_moves wm decodeTaskStatus now h₁
        obtain ⟨hmono, hcreated⟩ := ih ht
        refine ⟨fun w hw => hmono w (hm.launched_mono hw), fun p hp => ?_⟩
        rcases hcreated p hp with hp₁ | hp₁
        · rcases hm.created_mem hp₁ with hp₀ | hp₀
          · exact .inl hp₀
          · exact .inr (hmono _ hp₀)
        · exact .inr hp₁

/-- `Tick` keeps every worker it knew and records every worker it created. -/
theorem tick_launched {jm jm' : JobMaster} {order : List Nat} {creates : List (Bool × WorkerID)}
    {created : List (Nat × Creation)}
    (ht : tick wm decodeTaskStatus now jm order creates = .ok (jm', created)) :
    (∀ w ∈ jm.launchedWorkers, w ∈ jm'.launchedWorkers) ∧
      ∀ p ∈ created, p.2.workerID ∈ jm'.launchedWorkers := by
  unfold tick at ht
  split at ht
  · cases ht
    exact ⟨fun _ hw => hw, fun _ hp => by cases hp⟩
  · split at ht
    · cases ht
    · split at ht
      · cases ht
      · rename_i acc hacc
        split at ht
        · cases ht
        · cases ht
          obtain ⟨hmono, hcreated⟩ := tickLoop_launched wm decodeTaskStatus now hacc
          exact ⟨hmono, fun p hp => (hcreated p hp).resolve_left (by simp)⟩

theorem resetWorkerInfo_launchedWorkers {jm jm' : JobMaster} {id : Nat}
    (h : jm.resetWorkerInfo id = .ok jm') : jm'.launchedWorkers = jm.launchedWorkers := by
  obtain ⟨-, rfl⟩ := resetWorkerInfo_eq_ok h
  rfl

theorem mem_deleteLaunched {jm : JobMaster} {w x : WorkerID} (hx : x ≠ w) :
    x ∈ (jm.deleteLaunched w).launchedWorkers ↔ x ∈ jm.launchedWorkers := by
  simp [deleteLaunched, AList.mem_erase, hx]

theorem onWorkerDispatched_launched {jm jm' : JobMaster} {worker : WorkerHandle}
    {err : Option Error} (hd : jm.onWorkerDispatched worker err = .ok jm') {x : WorkerID}
    (hx : x ≠ worker.id) (hmem : x ∈ jm.launchedWorkers) : x ∈ jm'.launchedWorkers := by
  unfold onWorkerDispatched at hd
  split at hd
  · cases hd
    exact hmem
  · split at hd
    · cases hd
    · rw [resetWorkerInfo_launchedWorkers hd, mem_deleteLaunched hx]
      exact hmem

theorem onWorkerOffline_launched {jm jm' : JobMaster} {wm : WorkerManager}
    {worker : WorkerHandle} {reason : Option Error}
    (ho : jm.onWorkerOffline wm worker reason = .ok jm') {x : WorkerID} (hx : x ≠ worker.id)
    (hmem : x ∈ jm.launchedWorkers) : x ∈ jm'.launchedWorkers := by
  unfold onWorkerOffline at ho
  split at ho
  · cases ho
  · dsimp only at ho
    split at ho
    · split at ho
      · cases ho
      · cases ho
        exact (mem_deleteLaunched hx).2 hmem
    · rw [resetWorkerInfo_launchedWorkers ho, mem_deleteLaunched hx]
      exact hmem

theorem onWorkerOnline_launched {jm jm' : JobMaster} {wm : WorkerManager}
    {decodeTaskStatus : List UInt8 → Except Error TaskStatus} {worker : WorkerHandle}
    (ho : jm.onWorkerOnline wm decodeTaskStatus worker = .ok jm') :
    (∀ x ∈ jm.launchedWorkers, x ∈ jm'.launchedWorkers) ∧ worker.id ∈ jm'.launchedWorkers := by
  unfold onWorkerOnline at ho
  split at ho
  · cases ho
  · split at ho
    · cases ho
    · cases ho
      exact ⟨fun x hx => (AList.mem_insert _).2 (.inr hx), (AList.mem_insert _).2 (.inl rfl)⟩

/-- The panics of `OnWorkerDispatched`: "failed worker not found", for a worker
`launchedWorkers` does not hold, or a missing index. -/
theorem onWorkerDispatched_eq_panic {jm : JobMaster} {worker : WorkerHandle}
    {err : Option Error} {p : Panic} (hd : jm.onWorkerDispatched worker err = .error (.panic p)) :
    (p = .failedWorkerNotFound worker.id ∧ worker.id ∉ jm.launchedWorkers) ∨
      p = .nilPointerDereference := by
  unfold onWorkerDispatched at hd
  split at hd
  · cases hd
  · split at hd
    · rename_i hnone
      cases hd
      exact .inl ⟨rfl, AList.lookup_eq_none.1 hnone⟩
    · rw [resetWorkerInfo] at hd
      split at hd
      · cases hd
        exact .inr rfl
      · cases hd

/-- The panics of `OnWorkerOffline`: "offline worker not found", for a worker
`launchedWorkers` does not hold, or a missing index. -/
theorem onWorkerOffline_eq_panic {jm : JobMaster} {wm : WorkerManager}
    {worker : WorkerHandle} {reason : Option Error} {p : Panic}
    (ho : jm.onWorkerOffline wm worker reason = .error (.panic p)) :
    (p = .offlineWorkerNotFound worker.id ∧ worker.id ∉ jm.launchedWorkers) ∨
      p = .nilPointerDereference := by
  unfold onWorkerOffline at ho
  split at ho
  · rename_i hnone
    cases ho
    exact .inl ⟨rfl, AList.lookup_eq_none.1 hnone⟩
  · dsimp only at ho
    split at ho
    · split at ho <;> cases ho
    · rw [resetWorkerInfo] at ho
      split at ho
      · cases ho
        exact .inr rfl
      · cases ho

/-- The panics of `OnWorkerOnline`: "brain split", or a missing index or status. -/
theorem onWorkerOnline_eq_panic {jm : JobMaster} {wm : WorkerManager}
    {decodeTaskStatus : List UInt8 → Except Error TaskStatus} {worker : WorkerHandle} {p : Panic}
    (ho : jm.onWorkerOnline wm decodeTaskStatus worker = .error (.panic p)) :
    p = .brainSplit ∨ p = .nilPointerDereference := by
  unfold onWorkerOnline at ho
  split at ho
  · rename_i f hf
    cases ho
    unfold onlineIndex at hf
    split at hf
    · cases hf
    · split at hf
      · cases hf
        exact .inl rfl
      · split at hf
        · cases hf
        · cases hf
          exact .inr rfl
        · split at hf <;> cases hf
  · split at ho
    · cases ho
      exact .inr rfl
    · cases ho

@[simp] theorem onJobManagerMessage_launchedWorkers (jm : JobMaster)
    (expectState : WorkerStatusCode) :
    (jm.onJobManagerMessage expectState).launchedWorkers = jm.launchedWorkers := by
  unfold onJobManagerMessage
  split <;> rfl

end JobMaster

end Cvs

end Microcosm
