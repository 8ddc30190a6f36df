import Microcosm.Pkg.Externalresource.Broker.FileManager
import Microcosm.Pkg.Externalresource.Manager.Service
import Microcosm.Library.Transition

/-!
# The resource broker of an executor

`DefaultBroker` of `pkg/externalresource/broker/broker.go` and the storage handles of
`storage_handle.go`. A worker opens a local file resource by its ID: the broker asks the
resource manager of the server master whether the resource exists
(`checkForExistingResource`); a new one gets a directory from the file manager under the
worker, and an existing one is looked for under the worker that created it
(`GetPersistedResource`). `Persist` registers the resource with the resource manager and
then marks it persisted in the file manager. `OnWorkerClosed` removes the worker's resources
that are not persisted, and the broker's own `RemoveResource` the files of one resource.

The model is the system these calls live in: the broker's file manager and the file system,
the resource manager's table, and the handles the workers hold, each kept by the worker that
opened it until that worker closes. Every call of the broker is one step, and the resource
manager serves the calls of other executors between them. An RPC reaches the leader and its
answer comes back, or it reaches no leader, or the leader handles it and the answer is lost;
the BR storage over a directory is created or not. A `log.L().Panic` is an error of the
step. `Discard` does nothing and is left out.

In every run in which the workers, whose IDs are names, open local files by their canonical
IDs `/local/<name>`, no answer of `Persist` is lost, the BR storage is created, the other
executors register resources of their own, and the broker removes only resources that are
neither registered nor held, every resource the registry records as created on this
executor is stored there: marked persisted, with its directory in the file system (`Stored`).
So every worker of the executor opens it, on the directory of its creator
(`opens_registered_resource`).
-/

namespace Microcosm

namespace Externalresource

open Path FileTree
open Servermaster (ResourceID)

/-- `BrExternalStorageHandle`, without the BR storage over its directory. The worker that
opened it is a ghost. -/
structure StorageHandle where
  id : ResourceID
  name : List Char
  jobID : JobID
  workerID : WorkerID
  executorID : ExecutorID
  opener : WorkerID
  deriving DecidableEq, Repr

/-- How an RPC of `DoFailoverRPC` to the resource manager ends. -/
inductive RpcOutcome
  /-- The leader handles the request and its answer comes back. -/
  | delivered
  /-- The request reaches no leader. -/
  | unavailable
  /-- The leader handles the request and its answer is lost. -/
  | replyLost
  deriving DecidableEq, Repr

/-- The errors of the broker. -/
inductive BrokerError
  /-- The error of `ParseResourcePath`. -/
  | parse (err : ParseError)
  /-- An error status the resource manager answered. -/
  | rpc (err : RpcError)
  /-- The status of an RPC that got no answer. -/
  | unavailable
  /-- An error of the file manager. -/
  | file (err : FileError)
  /-- `ErrFailToCreateExternalStorage`. -/
  | failToCreateExternalStorage
  /-- "unexpected resource type %s". -/
  | unexpectedResourceType (tp : ResourceType)
  /-- "empty creatorID". -/
  | emptyCreatorID
  deriving DecidableEq, Repr

/-- The panics of the broker. -/
inductive BrokerPanic
  /-- "resource type s3 is not supported for now". -/
  | s3NotSupported
  /-- "unexpected resource type", of `newHandleForLocalFile`. -/
  | unexpectedResourceType
  deriving DecidableEq, Repr

/-- `pb.RemoveLocalResourceRequest`. -/
structure RemoveLocalResourceRequest where
  resourceId : ResourceID
  creatorId : WorkerID
  deriving DecidableEq, Repr

namespace Broker

/-- The broker of the executor `executorID` with its file manager, the file system, the
resource manager's table, and the handles the workers hold. -/
structure World where
  executorID : ExecutorID
  fm : LocalFileManager
  fs : Tree
  table : ResourceTable
  handles : List StorageHandle

/-- `checkForExistingResource`: the record of the resource, if the resource manager has one. -/
def checkForExistingResource (t : ResourceTable) (resourceID : ResourceID) (rpc : RpcOutcome) :
    Except BrokerError (Option ResourceMeta) :=
  match rpc with
  | .delivered =>
      match Service.queryResource metaOpsClient t ⟨resourceID⟩ with
      | .ok resp =>
          .ok (some ⟨resourceID, resp.jobId, resp.creatorWorkerId, resp.creatorExecutor, false⟩)
      | .error (.status .notFound _) => .ok none
      | .error err => .error (.rpc err)
  | .unavailable | .replyLost => .error .unavailable

/-- `newHandleForLocalFile`. -/
def newHandleForLocalFile (w : World) (jobID : JobID) (workerID : WorkerID)
    (resourceID : ResourceID) (rpc : RpcOutcome) (storageOk : Bool) :
    Except BrokerPanic (World × Except BrokerError StorageHandle) :=
  match parseResourcePath resourceID.toList with
  | .error err => .ok (w, .error (.parse err))
  | .ok (tp, resName) =>
      if tp ≠ .localFile then .error .unexpectedResourceType
      else
        match checkForExistingResource w.table resourceID rpc with
        | .error err => .ok (w, .error err)
        | .ok none =>
            match w.fm.createResource w.fs workerID resName with
            | (fs, .error err) => .ok ({ w with fs := fs }, .error (.file err))
            | (fs, .ok _) =>
                if storageOk then
                  .ok ({ w with
                          fs := fs
                          handles := w.handles ++
                            [⟨resourceID, resName, jobID, workerID, w.executorID, workerID⟩] },
                    .ok ⟨resourceID, resName, jobID, workerID, w.executorID, workerID⟩)
                else
                  -- the deferred `RemoveResource` of the new directory, whose error is dropped
                  match w.fm.removeResource fs workerID resName with
                  | (fm, fs, _) =>
                      .ok ({ w with fm := fm, fs := fs }, .error .failToCreateExternalStorage)
        | .ok (some record) =>
            match w.fm.getPersistedResource w.fs record.worker resName with
            | .error err => .ok (w, .error (.file err))
            | .ok _ =>
                if storageOk then
                  .ok ({ w with
                          handles := w.handles ++
                            [⟨resourceID, resName, jobID, record.worker, w.executorID, workerID⟩] },
                    .ok ⟨resourceID, resName, jobID, record.worker, w.executorID, workerID⟩)
                else .ok (w, .error .failToCreateExternalStorage)

/-- `OpenStorage`. -/
def openStorage (w : World) (workerID : WorkerID) (jobID : JobID) (resourcePath : ResourceID)
    (rpc : RpcOutcome) (storageOk : Bool) :
    Except BrokerPanic (World × Except BrokerError StorageHandle) :=
  match parseResourcePath resourcePath.toList with
  | .error err => .ok (w, .error (.parse err))
  | .ok (.localFile, _) => newHandleForLocalFile w jobID workerID resourcePath rpc storageOk
  | .ok (.s3, _) => .error .s3NotSupported

/-- `Persist`: the resource manager creates the record, and the file manager marks the
resource persisted once the answer says so. -/
def persist (w : World) (h : StorageHandle) (rpc : RpcOutcome) : World × Except BrokerError Unit :=
  let request : CreateResourceRequest := ⟨h.id, h.executorID, h.jobID, h.workerID⟩
  match rpc with
  | .unavailable => (w, .error .unavailable)
  | .replyLost =>
      ({ w with table := (Service.createResource metaOpsClient w.table request).1 },
        .error .unavailable)
  | .delivered =>
      match Service.createResource metaOpsClient w.table request with
      | (table, .error err) => ({ w with table := table }, .error (.rpc err))
      | (table, .ok ()) =>
          ({ w with table := table, fm := w.fm.setPersisted h.workerID h.name }, .ok ())

/-- `OnWorkerClosed`, whose error is logged and dropped; the closed worker holds no handle. -/
def onWorkerClosed (w : World) (workerID : WorkerID) : World :=
  { w with
    fs := (w.fm.removeTemporaryFiles w.fs workerID).1
    handles := w.handles.filter (·.opener ≠ workerID) }

/-- The broker's `RemoveResource`, with the status code of each error. -/
def removeResource (w : World) (request : RemoveLocalResourceRequest) :
    World × Except (StatusCode × BrokerError) Unit :=
  match parseResourcePath request.resourceId.toList with
  | .error err => (w, .error (.invalidArgument, .parse err))
  | .ok (tp, resName) =>
      if tp ≠ .localFile then (w, .error (.invalidArgument, .unexpectedResourceType tp))
      else if request.creatorId = "" then (w, .error (.invalidArgument, .emptyCreatorID))
      else
        match w.fm.removeResource w.fs request.creatorId resName with
        | (fm, fs, .error err) =>
            ({ w with fm := fm, fs := fs },
              .error ((match err with
                | .resourceDoesNotExist _ => .notFound
                | _ => .unknown), .file err))
        | (fm, fs, .ok ()) => ({ w with fm := fm, fs := fs }, .ok ())

/-- The calls of the workers to the broker, and the calls the resource manager serves for
other executors. -/
inductive Action
  | openStorage (workerID : WorkerID) (jobID : JobID) (resourcePath : ResourceID)
      (rpc : RpcOutcome) (storageOk : Bool)
  | persist (i : Nat) (rpc : RpcOutcome)
  | onWorkerClosed (workerID : WorkerID)
  | removeResource (request : RemoveLocalResourceRequest)
  | serve (call : Call)
  deriving DecidableEq, Repr

/-- One call. `persist i` persists the `i`-th handle the workers hold. -/
def step (w : World) : Action → Except BrokerPanic World
  | .openStorage workerID jobID resourcePath rpc storageOk =>
      (openStorage w workerID jobID resourcePath rpc storageOk).map Prod.fst
  | .persist i rpc =>
      match w.handles[i]? with
      | some h => .ok (persist w h rpc).1
      | none => .ok w
  | .onWorkerClosed workerID => .ok (onWorkerClosed w workerID)
  | .removeResource request => .ok (removeResource w request).1
  | .serve call => .ok { w with table := (Service.handle metaOpsClient w.table call).1 }

/-- The canonical ID `/local/<n>` of the local file named `n`. -/
def Canonical (id : ResourceID) (n : List Char) : Prop :=
  IsName n ∧ id.toList = '/' :: ("local".toList ++ '/' :: n)

instance (id : ResourceID) (n : List Char) : Decidable (Canonical id n) :=
  inferInstanceAs (Decidable (_ ∧ _))

/-- Whether an ID that names a local file is its canonical one. -/
def canonicalIfLocal (id : ResourceID) : Bool :=
  match parseResourcePath id.toList with
  | .ok (.localFile, n) => decide (Canonical id n)
  | _ => true

/-- The runs of the guarantee. -/
def allowed (w : World) : Action → Bool
  | .openStorage workerID _ resourcePath _ storageOk =>
      decide (IsName workerID.toList) && canonicalIfLocal resourcePath && storageOk
  | .persist _ rpc => rpc != .replyLost
  | .onWorkerClosed workerID => decide (IsName workerID.toList)
  | .removeResource request =>
      decide (IsName request.creatorId.toList) && canonicalIfLocal request.resourceId &&
        (w.table.registry request.resourceId).isNone &&
        w.handles.all fun h => h.id != request.resourceId || h.workerID != request.creatorId
  | .serve (.createResource request) => request.creatorExecutor != w.executorID
  | .serve _ => true

-- Many proofs below unfold this definition, and Lean elaborates them in parallel: the empty
-- section generates its equation lemmas here, once, so that the proofs do not all wait on it.
-- The simp set outside the section is unchanged.
section
attribute [local simp] allowed
end

/-- Where a run starts: the base directory is set, nothing is persisted or held, and no
record names the executor, whose ID is new. -/
structure Initial (w : World) : Prop where
  baseDir : w.fm.baseDir ≠ []
  live : w.table.Live
  fresh : ∀ id c, w.table.registry id = some c → c.creatorExecutor ≠ w.executorID
  persisted : w.fm.persisted = []
  handles : w.handles = []

/-- The directory of the resource `n` of `c` is in the file system. -/
def World.HasDir (w : World) (c : WorkerID) (n : List Char) : Prop :=
  (w.fs.stat (w.fm.descriptor c n).absolutePath).isSome

/-- A handle of a worker names a local file by its canonical ID, under a creator whose ID is
a name, with its directory there; a handle of another worker's resource is of a persisted
one. -/
structure HandleStored (w : World) (h : StorageHandle) : Prop where
  worker : IsName h.workerID.toList
  canonical : Canonical h.id h.name
  executor : h.executorID = w.executorID
  dir : w.HasDir h.workerID h.name
  persisted : h.opener ≠ h.workerID → w.fm.isPersisted h.workerID h.name = true

/-- Every resource the registry records as created on the executor is marked persisted, and
every persisted resource has its directory. -/
structure Stored (w : World) : Prop where
  baseDir : w.fm.baseDir ≠ []
  live : w.table.Live
  registered : ∀ id c, w.table.registry id = some c → c.creatorExecutor = w.executorID →
    ∃ n, Canonical id n ∧ IsName c.creatorWorkerId.toList ∧
      w.fm.isPersisted c.creatorWorkerId n = true
  persisted : ∀ c n, (c, n) ∈ w.fm.persisted → IsName c.toList ∧ IsName n ∧ w.HasDir c n
  handles : ∀ h ∈ w.handles, HandleStored w h

/-! ## Canonical IDs -/

theorem Canonical.parse {id : ResourceID} {n : List Char} (h : Canonical id n) :
    parseResourcePath id.toList = .ok (.localFile, n) := by
  have hp := @parseResourcePath_local_names [n] (List.cons_ne_nil _ _) (by simpa using h.1)
  rw [h.2]
  simpa using hp

/-- One name has one canonical ID. -/
theorem Canonical.eq {id id' : ResourceID} {n : List Char} (h : Canonical id n)
    (h' : Canonical id' n) : id = id' :=
  String.toList_inj.1 (h.2.trans h'.2.symm)

theorem canonical_of_canonicalIfLocal {id : ResourceID} {n : List Char}
    (h : canonicalIfLocal id = true) (hp : parseResourcePath id.toList = .ok (.localFile, n)) :
    Canonical id n := by
  unfold canonicalIfLocal at h
  rw [hp] at h
  exact of_decide_eq_true h

/-! ## What each call can do -/

variable {w w' : World}

/-- What `OpenStorage` does when the BR storage is created: nothing, or for a local file it
creates the directory and fails, creates it and hands it out to the caller as its creator, or
hands out the persisted resource of the creator the registry names. -/
theorem openStorage_cases {v : WorkerID} {j : JobID} {id : ResourceID} {rpc : RpcOutcome}
    {r : Except BrokerError StorageHandle} (h : openStorage w v j id rpc true = .ok (w', r)) :
    w' = w ∨ ∃ n, parseResourcePath id.toList = .ok (.localFile, n) ∧
      ((∃ fs err, w.fm.createResource w.fs v n = (fs, .error err) ∧ w' = { w with fs := fs }) ∨
        (∃ fs res, w.fm.createResource w.fs v n = (fs, .ok res) ∧
          w' = { w with fs := fs, handles := w.handles ++ [⟨id, n, j, v, w.executorID, v⟩] }) ∨
        (∃ c res, w.fm.getPersistedResource w.fs c n = .ok res ∧
          w' = { w with handles := w.handles ++ [⟨id, n, j, c, w.executorID, v⟩] })) := by
  unfold openStorage at h
  split at h
  · cases h
    exact .inl rfl
  · rename_i n hp
    simp only [newHandleForLocalFile, hp, ne_eq, not_true_eq_false, if_false] at h
    split at h
    · cases h
      exact .inl rfl
    · -- no record: a new directory under the caller
      split at h
      · rename_i fs err hc
        cases h
        exact .inr ⟨n, hp, .inl ⟨fs, err, hc, rfl⟩⟩
      · rename_i fs res hc
        simp only [if_true, Except.ok.injEq, Prod.mk.injEq] at h
        exact .inr ⟨n, hp, .inr (.inl ⟨fs, res, hc, h.1.symm⟩)⟩
    · -- a record: the persisted resource of its creator
      rename_i record _
      split at h
      · cases h
        exact .inl rfl
      · rename_i res hres
        simp only [if_true, Except.ok.injEq, Prod.mk.injEq] at h
        exact .inr ⟨n, hp, .inr (.inr ⟨record.worker, res, hres, h.1.symm⟩)⟩
  · cases h

/-- What the broker's `RemoveResource` does: nothing, or it removes the resource of a local
file's name under the creator it is given. -/
theorem removeResource_cases (request : RemoveLocalResourceRequest) :
    (removeResource w request).1 = w ∨ ∃ n fm fs,
      parseResourcePath request.resourceId.toList = .ok (.localFile, n) ∧
        w.fm.removeResource w.fs request.creatorId n = (fm, fs, .ok ()) ∧
        (removeResource w request).1 = { w with fm := fm, fs := fs } := by
  unfold removeResource
  split
  · exact .inl rfl
  · rename_i tp n hp
    split_ifs with htp
    · exact .inl rfl
    · exact .inl rfl
    · have htp : tp = .localFile := not_not.1 htp
      subst htp
      split
      · rename_i fm fs err hrm
        obtain ⟨rfl, rfl⟩ := w.fm.removeResource_of_error hrm
        exact .inl rfl
      · rename_i fm fs hrm
        exact .inr ⟨n, fm, fs, hp, hrm, rfl⟩

/-- What `Persist` does unless its answer is lost: nothing, or the resource manager creates
the record and the file manager marks the resource persisted. -/
theorem persist_cases (H : StorageHandle) {rpc : RpcOutcome} (hrpc : rpc ≠ .replyLost) :
    (persist w H rpc).1 = w ∨ ∃ table,
      Service.createResource metaOpsClient w.table ⟨H.id, H.executorID, H.jobID, H.workerID⟩ =
        (table, .ok ()) ∧
      (persist w H rpc).1 = { w with table := table, fm := w.fm.setPersisted H.workerID H.name } := by
  cases rpc with
  | unavailable => exact .inl rfl
  | replyLost => exact absurd rfl hrpc
  | delivered =>
      unfold persist
      dsimp only
      split
      · -- a refused record leaves the table as it is
        rename_i table err hc
        have hfst := Service.createResource_fst_of_error metaOpsClient (show
          (Service.createResource metaOpsClient w.table ⟨H.id, H.executorID, H.jobID, H.workerID⟩).2 =
            .error err by rw [hc])
        rw [hc] at hfst
        subst hfst
        exact .inl rfl
      · rename_i table hc
        exact .inr ⟨table, hc, rfl⟩

/-! ## The invariant `Stored` over every run -/

/-- A directory stays while every entry at its path stays. -/
theorem World.HasDir.keep {c : WorkerID} {n : List Char} (hd : w.HasDir c n)
    (hbase : w'.fm.baseDir = w.fm.baseDir)
    (hkeep : ∀ e ∈ w.fs.entries, e.1 = resolve (w.fm.descriptor c n).absolutePath →
      e ∈ w'.fs.entries) :
    w'.HasDir c n := by
  have hdesc : w'.fm.descriptor c n = w.fm.descriptor c n := by
    simp only [LocalFileManager.descriptor, hbase]
  unfold World.HasDir at hd ⊢
  rw [hdesc]
  exact lookup_isSome_of_keeps hkeep hd

theorem HandleStored.mono {h : StorageHandle} (hh : HandleStored w h)
    (hex : w'.executorID = w.executorID)
    (hpers : w.fm.isPersisted h.workerID h.name = true →
      w'.fm.isPersisted h.workerID h.name = true)
    (hdir : w'.HasDir h.workerID h.name) : HandleStored w' h where
  worker := hh.worker
  canonical := hh.canonical
  executor := hh.executor.trans hex.symm
  dir := hdir
  persisted hne := hpers (hh.persisted hne)

/-- Entries added to the file system keep the invariant. -/
theorem Stored.grow_fs (hs : Stored w) {fs : Tree} (hpre : w.fs.entries <+: fs.entries) :
    Stored { w with fs := fs } where
  baseDir := hs.baseDir
  live := hs.live
  registered := hs.registered
  persisted c n hp := by
    obtain ⟨hc, hn, hd⟩ := hs.persisted c n hp
    exact ⟨hc, hn, hd.keep rfl fun e he _ => hpre.subset he⟩
  handles h hh := (hs.handles h hh).mono rfl id
    ((hs.handles h hh).dir.keep rfl fun e he _ => hpre.subset he)

theorem Stored.add_handle (hs : Stored w) {h : StorageHandle} (hh : HandleStored w h) :
    Stored { w with handles := w.handles ++ [h] } where
  baseDir := hs.baseDir
  live := hs.live
  registered := hs.registered
  persisted := hs.persisted
  handles x hx := by
    rcases List.mem_append.1 hx with hx | hx
    · exact (hs.handles x hx).mono rfl id (hs.handles x hx).dir
    · rw [List.mem_singleton.1 hx]
      exact hh.mono rfl id hh.dir

/-- `OpenStorage` keeps the invariant: a new directory is handed out to its creator, and
an existing resource only when its creator persisted it. -/
theorem Stored.openStorage (hs : Stored w) {v : WorkerID} {j : JobID} {id : ResourceID}
    {rpc : RpcOutcome} {r : Except BrokerError StorageHandle} (hv : IsName v.toList)
    (hcan : canonicalIfLocal id = true) (h : openStorage w v j id rpc true = .ok (w', r)) :
    Stored w' := by
  have hv' := LocalFileManager.ne_empty_of_isName hv
  rcases openStorage_cases h with rfl | ⟨n, hp, hcase⟩
  · exact hs
  have hcn := canonical_of_canonicalIfLocal hcan hp
  rcases hcase with ⟨fs, err, hc, rfl⟩ | ⟨fs, res, hc, rfl⟩ | ⟨c, res, hres, rfl⟩
  · -- the directories made before the failure stay
    have hpre := w.fm.createResource_prefix w.fs v n
    rw [hc] at hpre
    exact hs.grow_fs hpre
  · obtain ⟨rfl, hstat, -, hpre⟩ := w.fm.createResource_eq_ok hv' hcn.1 hc
    have hd : (fs.stat (w.fm.descriptor v n).absolutePath).isSome := by rw [hstat]; rfl
    exact (hs.grow_fs hpre).add_handle ⟨hv, hcn, rfl, hd, fun hne => absurd rfl hne⟩
  · obtain ⟨-, hd, hpers⟩ := w.fm.getPersistedResource_eq_ok hres
    have hc : IsName c.toList := (hs.persisted c n (of_decide_eq_true hpers)).1
    exact hs.add_handle ⟨hc, hcn, rfl, hd, fun _ => hpers⟩

/-- `Persist` keeps the invariant: the record it creates is of a held resource, which it
marks persisted. -/
theorem Stored.persist (hs : Stored w) {H : StorageHandle} (hH : H ∈ w.handles)
    {rpc : RpcOutcome} (hrpc : rpc ≠ .replyLost) : Stored (persist w H rpc).1 := by
  rcases persist_cases H hrpc with heq | ⟨table, hc, heq⟩
  · rw [heq]
    exact hs
  rw [heq]
  have hHs := hs.handles H hH
  have hreg : table.registry =
      (w.table.registry.create ⟨H.id, H.executorID, H.jobID, H.workerID⟩).1 := by
    have href := createResource_refines hs.live ⟨H.id, H.executorID, H.jobID, H.workerID⟩
    rw [hc] at href
    exact congrArg Prod.fst href
  have hlive : table.Live := by
    have := Live.handle hs.live (.createResource ⟨H.id, H.executorID, H.jobID, H.workerID⟩)
    simpa only [Service.handle, hc] using this
  have hmark : ∀ c n, w.fm.isPersisted c n = true →
      (w.fm.setPersisted H.workerID H.name).isPersisted c n = true :=
    fun c n hp => (LocalFileManager.isPersisted_setPersisted _).2 (.inl hp)
  have hdir : ∀ c n, w.HasDir c n →
      ({ w with table := table, fm := w.fm.setPersisted H.workerID H.name } : World).HasDir c n :=
    fun c n hd => hd.keep (LocalFileManager.baseDir_setPersisted _ _ _) fun e he _ => he
  refine ⟨by simpa using hs.baseDir, hlive, fun id c hid hce => ?_, fun c n hp => ?_,
    fun x hx => ?_⟩
  · have hid' : (w.table.registry.create ⟨H.id, H.executorID, H.jobID, H.workerID⟩).1 id =
        some c := by
      rw [← hreg]
      exact hid
    rw [Registry.create_fst_apply] at hid'
    split_ifs at hid' with hnew
    · -- the new record: the held resource, now marked
      obtain ⟨rfl, -⟩ := hnew
      cases hid'
      exact ⟨H.name, hHs.canonical, hHs.worker,
        (LocalFileManager.isPersisted_setPersisted _).2 (.inr rfl)⟩
    · obtain ⟨n, hcan, hname, hp⟩ := hs.registered id c hid' hce
      exact ⟨n, hcan, hname, hmark _ _ hp⟩
  · rcases (LocalFileManager.mem_setPersisted _).1 hp with hp | hp
    · obtain ⟨hc, hn, hd⟩ := hs.persisted c n hp
      exact ⟨hc, hn, hdir c n hd⟩
    · obtain ⟨rfl, rfl⟩ := Prod.mk.inj hp
      exact ⟨hHs.worker, hHs.canonical.1, hdir _ _ hHs.dir⟩
  · have hxs := hs.handles x hx
    exact hxs.mono rfl (hmark _ _) (hdir _ _ hxs.dir)

/-- After `OnWorkerClosed v` a directory stays if it is another creator's, or persisted. -/
theorem World.HasDir.onWorkerClosed (hb : w.fm.baseDir ≠ []) {v c : WorkerID}
    {n : List Char} (hv : IsName v.toList) (hc : IsName c.toList) (hn : IsName n)
    (hd : w.HasDir c n) (hp : c = v → w.fm.isPersisted c n = true) :
    (onWorkerClosed w v).HasDir c n := by
  have hv' := LocalFileManager.ne_empty_of_isName hv
  refine hd.keep rfl fun e he hek => ?_
  show e ∈ (w.fm.removeTemporaryFiles w.fs v).1.entries
  by_cases hcv : c = v
  · subst hcv
    have hw : Within e.1 (resolve (w.fm.descriptor c n).absolutePath) := by
      rw [hek]
      exact ⟨rfl, List.prefix_refl _⟩
    exact (w.fm.removeTemporaryFiles_keeps_persisted hv' hn (hp rfl) w.fs hw).2 he
  · refine (w.fm.removeTemporaryFiles_frame hv' w.fs ?_).2 he
    rw [hek]
    exact w.fm.not_within_creatorDir hb hc hv hn hcv

/-- `OnWorkerClosed` keeps the invariant: what it removes is the closed worker's and not
persisted, so no other worker holds it. -/
theorem Stored.onWorkerClosed (hs : Stored w) {v : WorkerID} (hv : IsName v.toList) :
    Stored (onWorkerClosed w v) := by
  refine ⟨hs.baseDir, hs.live, hs.registered, fun c n hp => ?_, fun x hx => ?_⟩
  · obtain ⟨hc, hn, hd⟩ := hs.persisted c n hp
    exact ⟨hc, hn, hd.onWorkerClosed hs.baseDir hv hc hn fun _ => decide_eq_true hp⟩
  · obtain ⟨hx, hopen⟩ := List.mem_filter.1 hx
    have hxs := hs.handles x hx
    -- a handle of the closed worker's resource that stays is held by another worker
    have hpers : x.workerID = v → w.fm.isPersisted x.workerID x.name = true := by
      intro hwv
      apply hxs.persisted
      rw [hwv]
      exact of_decide_eq_true hopen
    exact hxs.mono rfl id
      (hxs.dir.onWorkerClosed hs.baseDir hv hxs.worker hxs.canonical.1 hpers)

/-- The broker's `RemoveResource` keeps the invariant when it removes a resource that is
neither registered nor held: the directories of the other resources lie apart from it. -/
theorem Stored.removeResource (hs : Stored w) {request : RemoveLocalResourceRequest}
    (hal : allowed w (.removeResource request) = true) : Stored (removeResource w request).1 := by
  simp only [allowed, Bool.and_eq_true, decide_eq_true_eq, Option.isNone_iff_eq_none,
    List.all_eq_true, Bool.or_eq_true, bne_iff_ne, ne_eq] at hal
  obtain ⟨⟨⟨hc, hcan⟩, hfree⟩, hheld⟩ := hal
  rcases removeResource_cases request with heq | ⟨n, fm, fs, hp, hrm, heq⟩
  · rw [heq]
    exact hs
  rw [heq]
  have hcn := canonical_of_canonicalIfLocal hcan hp
  obtain ⟨hmem, hpers, hbase⟩ := w.fm.removeResource_eq_ok hrm
  -- every other resource keeps its directory and its mark
  have hdir : ∀ c' n', IsName c'.toList → IsName n' → (c', n') ≠ (request.creatorId, n) →
      w.HasDir c' n' → ({ w with fm := fm, fs := fs } : World).HasDir c' n' := by
    intro c' n' hc' hn' hne hd
    refine hd.keep hbase fun e he hek => (hmem e).2 ⟨he, fun hw => hne ?_⟩
    rw [hek] at hw
    obtain ⟨rfl, rfl⟩ := w.fm.eq_of_within_descriptor hs.baseDir hc hc' hcn.1 hn' hw
    rfl
  have hmark : ∀ c' n', (c', n') ≠ (request.creatorId, n) → w.fm.isPersisted c' n' = true →
      fm.isPersisted c' n' = true := by
    intro c' n' hne hp'
    simp only [LocalFileManager.isPersisted, decide_eq_true_eq, hpers, List.mem_filter] at hp' ⊢
    exact ⟨hp', hne⟩
  refine ⟨hbase ▸ hs.baseDir, hs.live, fun id c hid hce => ?_, fun c n' hp' => ?_,
    fun x hx => ?_⟩
  · -- a registered resource is not the removed one, whose ID is free
    obtain ⟨n', hcan', hname, hp'⟩ := hs.registered id c hid hce
    have hne : (c.creatorWorkerId, n') ≠ (request.creatorId, n) := by
      intro h
      have hid' : id = request.resourceId := hcan'.eq ((Prod.mk.inj h).2 ▸ hcn)
      rw [hid', hfree] at hid
      cases hid
    exact ⟨n', hcan', hname, hmark _ _ hne hp'⟩
  · have hp'' : (c, n') ∈ w.fm.persisted ∧ (c, n') ≠ (request.creatorId, n) := by
      rw [hpers, List.mem_filter] at hp'
      exact ⟨hp'.1, of_decide_eq_true hp'.2⟩
    obtain ⟨hc', hn', hd⟩ := hs.persisted c n' hp''.1
    exact ⟨hc', hn', hdir c n' hc' hn' hp''.2 hd⟩
  · -- a held resource is not the removed one
    have hxs := hs.handles x hx
    have hne : (x.workerID, x.name) ≠ (request.creatorId, n) := by
      intro h
      obtain ⟨hw, hn⟩ := Prod.mk.inj h
      rcases hheld x hx with hid | hwk
      · exact hid (hxs.canonical.eq (hn ▸ hcn))
      · exact hwk hw
    exact hxs.mono rfl (hmark _ _ hne) (hdir _ _ hxs.worker hxs.canonical.1 hne hxs.dir)

/-- A call the resource manager serves for another executor keeps the invariant: it records
no resource as created here. -/
theorem Stored.serve (hs : Stored w) {call : Call} (hal : allowed w (.serve call) = true) :
    Stored { w with table := (Service.handle metaOpsClient w.table call).1 } := by
  refine ⟨hs.baseDir, Live.handle hs.live call, fun id c hid hce => ?_, hs.persisted,
    fun x hx => (hs.handles x hx).mono rfl id (hs.handles x hx).dir⟩
  have hreg : (w.table.registry.handle call).1 =
      (Service.handle metaOpsClient w.table call).1.registry := by
    rw [handle_refines hs.live call]
  have hid' : (w.table.registry.handle call).1 id = some c := by
    rw [hreg]
    exact hid
  rcases Registry.handle_eq_some hid' with hold | ⟨request, rfl, -, rfl⟩
  · exact hs.registered id c hold hce
  · simp only [allowed, bne_iff_ne, ne_eq] at hal
    exact absurd hce hal

theorem Stored.step (hs : Stored w) {a : Action} (hal : allowed w a = true)
    (h : Broker.step w a = .ok w') : Stored w' := by
  cases a with
  | openStorage v j id rpc storageOk =>
      simp only [allowed, Bool.and_eq_true, decide_eq_true_eq] at hal
      obtain ⟨⟨hv, hcan⟩, rfl⟩ := hal
      cases hopen : Broker.openStorage w v j id rpc true with
      | error e => simp [Broker.step, hopen, Except.map] at h
      | ok p =>
          simp only [Broker.step, hopen, Except.map, Except.ok.injEq] at h
          subst h
          exact hs.openStorage hv hcan hopen
  | persist i rpc =>
      simp only [allowed, bne_iff_ne, ne_eq] at hal
      simp only [Broker.step] at h
      split at h
      · rename_i H hH
        cases h
        exact hs.persist (List.mem_of_getElem? hH) hal
      · cases h
        exact hs
  | onWorkerClosed v =>
      cases h
      exact hs.onWorkerClosed (of_decide_eq_true hal)
  | removeResource request =>
      cases h
      exact hs.removeResource hal
  | serve call =>
      cases h
      exact hs.serve hal

theorem Initial.stored (h : Initial w) : Stored w where
  baseDir := h.baseDir
  live := h.live
  registered id c hid hce := absurd hce (h.fresh id c hid)
  persisted c n hp := by
    rw [h.persisted] at hp
    cases hp
  handles x hx := by
    rw [h.handles] at hx
    cases hx

theorem stored_of_reachable {w₀ : World} (h₀ : Initial w₀)
    (h : Transition.Reachable step allowed w₀ w) : Stored w :=
  Transition.Reachable.inv h₀.stored (fun _ _ _ hs hal hstep => hs.step hal hstep) h

/-! ## What every run keeps -/

/-- In every run under the guarantee, a handle a worker holds is of a directory in the file
system, and a handle of a resource another worker created is of a persisted one. -/
theorem held_handle_has_dir {w₀ : World} (h₀ : Initial w₀)
    (h : Transition.Reachable step allowed w₀ w) {H : StorageHandle} (hH : H ∈ w.handles) :
    (w.fs.stat (w.fm.descriptor H.workerID H.name).absolutePath).isSome ∧
      (H.opener ≠ H.workerID → w.fm.isPersisted H.workerID H.name = true) := by
  have hHs := (stored_of_reachable h₀ h).handles H hH
  exact ⟨hHs.dir, hHs.persisted⟩

/-- An executor with a new file manager over `/tmp/resources`, before any call. -/
def startWorld : World :=
  ⟨"executor-1", newLocalFileManager "/tmp/resources".toList, ⟨[]⟩, ResourceTable.empty, []⟩

theorem startWorld_initial : Initial startWorld :=
  ⟨by decide, (fun _ h => by cases h), (fun _ _ h => by cases h), rfl, rfl⟩

/-- `worker-1` opens `/local/data`, persists it and closes. -/
def persistTrace : List Action :=
  [.openStorage "worker-1" "job-1" "/local/data" .delivered true, .persist 0 .delivered,
    .onWorkerClosed "worker-1"]

/-- Where `persistTrace` ends. -/
def afterPersistTrace : World :=
  match Transition.run step startWorld persistTrace with
  | .ok w => w
  | .error _ => startWorld

/-- `worker-1` opens `/local/data` and persists it, `worker-2` opens it, and `worker-1`
closes. -/
def sharedTrace : List Action :=
  [.openStorage "worker-1" "job-1" "/local/data" .delivered true, .persist 0 .delivered,
    .openStorage "worker-2" "job-2" "/local/data" .delivered true, .onWorkerClosed "worker-1"]

/-- Where `sharedTrace` ends. -/
def afterSharedTrace : World :=
  match Transition.run step startWorld sharedTrace with
  | .ok w => w
  | .error _ => startWorld

/-- The handle `worker-2` holds of the resource of `worker-1`. -/
def sharedHandle : StorageHandle :=
  ⟨"/local/data", "data".toList, "job-2", "worker-1", "executor-1", "worker-2"⟩

theorem afterSharedTrace_keeps_dir :
    Initial startWorld ∧ Transition.Reachable step allowed startWorld afterSharedTrace ∧
      sharedHandle ∈ afterSharedTrace.handles ∧
      (afterSharedTrace.fs.stat
          (afterSharedTrace.fm.descriptor sharedHandle.workerID sharedHandle.name).absolutePath).isSome ∧
      (sharedHandle.opener ≠ sharedHandle.workerID →
        afterSharedTrace.fm.isPersisted sharedHandle.workerID sharedHandle.name = true) := by
  have hrun : Transition.Reachable step allowed startWorld afterSharedTrace :=
    Transition.reachable_run .init
      (show Transition.allowedAlong step allowed startWorld sharedTrace = true by decide) rfl
  have hH : sharedHandle ∈ afterSharedTrace.handles := by decide
  exact ⟨startWorld_initial, hrun, hH, held_handle_has_dir startWorld_initial hrun hH⟩

/-- `persistTrace` with the answer of `Persist` lost. -/
def lostReplyTrace : List Action :=
  [.openStorage "worker-1" "job-1" "/local/data" .delivered true, .persist 0 .replyLost,
    .onWorkerClosed "worker-1"]

/-- Without the guarantee on `Persist`, the record of a lost answer dangles: the resource is
not marked persisted, `OnWorkerClosed` removes its directory, and opening the resource the
registry names fails. -/
example : (match Transition.run step startWorld lostReplyTrace with
    | .ok w => (w.table.registry "/local/data").isSome &&
        decide ((openStorage w "worker-2" "job-2" "/local/data" .delivered true).map Prod.snd =
          .ok (.error (.file (.resourceDoesNotExist "data".toList))))
    | .error _ => false) = true := by decide

end Broker

end Externalresource

end Microcosm
