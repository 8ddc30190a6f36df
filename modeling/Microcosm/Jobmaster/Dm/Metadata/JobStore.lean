import Mathlib.Data.List.AList
import Microcosm.Library.Loop
import Microcosm.Library.Map
import Microcosm.Library.Transition
import Microcosm.Jobmaster.Dm.WorkerManager

/-!
# The job store of the DM job master

`metadata.Job`, `metadata.Task`, `NewJob` and `JobStore.UpdateStages` of
`jobmaster/dm/metadata/job.go`, the `TomlStore` of `metadata/state.go` that `JobStore`
embeds (`Put`, `Delete`, and `Get` with its double-checked load), and
`TaskManager.OperateTask` of `jobmaster/dm/task_manager.go`, which turns a user request into
one call on the store.

`TomlStore` keeps the cached `state` and the value of its key in the metastore. The
metastore value is written only by this store and TOML decoding gives back what `Put`
encoded, so the value is kept decoded, as an `Option` of the state, and `cloneState` is the
value itself. The store's `RWMutex` makes each of its critical sections one step: the
read-locked section of `Get`, its write-locked section, `Put` and `Delete`. A caller of
`UpdateStages` runs the first section of `Get`, perhaps the second, changes its clone and
calls `Put`; any number of callers interleave between these steps (`World`, `step`). The
metastore's answers are parts of the actions: whether its `Get` succeeds and whether the
transaction of `Put` or `Delete` commits.

Two ghost fields say what a caller read: `commits` counts the commits of the store, and a
caller between its `Get` and its `Put` keeps the job `Get` returned and the number of
commits made when it read it.
-/

namespace Microcosm

namespace Jobmaster

namespace Dm

namespace Metadata

/-- `metadata.TaskStage`. -/
inductive TaskStage
  | stageInit
  | stageRunning
  | stagePaused
  | stageFinished
  /-- The task is not scheduled, usually because its worker is offline. -/
  | stageUnscheduled
  deriving DecidableEq, Repr

/-- `metadata.Task`. -/
structure Task where
  cfg : TaskCfg
  stage : TaskStage
  deriving DecidableEq, Repr

/-- `metadata.Job`, by its map from task IDs to tasks. -/
structure Job where
  tasks : AList (fun _ : String => Task)
  deriving DecidableEq

/-- `NewTask`: a new task is running. -/
def newTask (taskCfg : TaskCfg) : Task :=
  { cfg := taskCfg, stage := .stageRunning }

/-- `JobCfg.ToTaskConfigs`: one task for each upstream, under its source ID, whose config is
the job's with that upstream alone (`config.TaskCfg` is `JobCfg`). -/
def toTaskConfigs (jobCfg : TaskCfg) : AList (fun _ : String => TaskCfg) :=
  jobCfg.upstreams.foldl
    (fun taskCfgs sourceID => taskCfgs.insert sourceID { jobCfg with upstreams := [sourceID] })
    ∅

/-- `NewJob`. -/
def newJob (jobCfg : TaskCfg) : Job :=
  ⟨(toTaskConfigs jobCfg).entries.foldl (fun tasks x => tasks.insert x.1 (newTask x.2)) ∅⟩

/-- A new job has a task for each upstream of its config, and every one of them is running:
an `Update` puts back to running every task it keeps. -/
theorem newJob_spec (jobCfg : TaskCfg) :
    (∀ k, k ∈ (newJob jobCfg).tasks ↔ k ∈ jobCfg.upstreams) ∧
      ∀ k t, (newJob jobCfg).tasks.lookup k = some t → t.stage = .stageRunning := by
  refine ⟨fun k => ?_, fun k t h => ?_⟩
  · have hcfgs : k ∈ toTaskConfigs jobCfg ↔ k ∈ jobCfg.upstreams := by
      rw [toTaskConfigs, Map.mem_foldl_insert (fun sourceID => sourceID)]
      simp
    rw [newJob, Map.mem_foldl_insert Sigma.fst, ← hcfgs,
      AList.mem_keys (s := toTaskConfigs jobCfg), AList.keys, List.keys, List.mem_map]
    simp
  · rcases Map.lookup_foldl_insert Sigma.fst (fun x : (_ : String) × TaskCfg => newTask x.2) h
      with h | ⟨x, -, -, rfl⟩
    · simp at h
    · rfl

/-- The errors the calls on the store return. -/
inductive StoreError
  /-- An error of the metastore client, passed on through `errors.Trace`. -/
  | metastore
  /-- "state not found": the metastore holds nothing at the store's key. -/
  | stateNotFound
  /-- "task %s not found". -/
  | taskNotFound (taskID : String)
  deriving DecidableEq, Repr

/-! ## The store -/

/-- `TomlStore`: the cached `state`, and the metastore's value at `Key()`. -/
structure TomlStore (σ : Type) where
  state : Option σ
  kv : Option σ
  deriving DecidableEq, Repr

namespace TomlStore

variable {σ : Type}

/-- `NewTomlStore`: nothing is cached, whatever the metastore holds. -/
def new (kv : Option σ) : TomlStore σ :=
  ⟨none, kv⟩

/-- `Put`, under the write lock: a transaction that commits writes the metastore, and then
the cache. -/
def put (ds : TomlStore σ) (state : σ) (commitOk : Bool) :
    TomlStore σ × Except StoreError Unit :=
  if commitOk then (⟨some state, some state⟩, .ok ()) else (ds, .error .metastore)

/-- `Delete`, under the write lock. With nothing cached it returns at once. -/
def delete (ds : TomlStore σ) (commitOk : Bool) : TomlStore σ × Except StoreError Unit :=
  match ds.state with
  | none => (ds, .ok ())
  | some _ => if commitOk then (⟨none, none⟩, .ok ()) else (ds, .error .metastore)

/-- The read-locked section of `Get`: the clone of the cached state, if there is one. -/
def getRLocked (ds : TomlStore σ) : Option σ :=
  ds.state

/-- The write-locked section of `Get`: the cache is checked again; otherwise the metastore
is read (`kvOk`: its `Get` succeeds) and its value is cached. -/
def getLocked (ds : TomlStore σ) (kvOk : Bool) : TomlStore σ × Except StoreError σ :=
  match ds.state with
  | some state => (ds, .ok state)
  | none =>
      if kvOk then
        match ds.kv with
        | some state => ({ ds with state := some state }, .ok state)
        | none => (ds, .error .stateNotFound)
      else (ds, .error .metastore)

/-- The cache, when it holds a state, holds the metastore's value. -/
def Coherent (ds : TomlStore σ) : Prop :=
  ds.state = none ∨ ds.state = ds.kv

variable {ds : TomlStore σ}

theorem coherent_new (kv : Option σ) : (new kv).Coherent :=
  .inl rfl

theorem Coherent.kv_of_getRLocked (h : ds.Coherent) {state : σ}
    (hget : ds.getRLocked = some state) : ds.kv = some state := by
  rcases h with h | h
  · simp [getRLocked, h] at hget
  · rw [← h]
    exact hget

theorem put_true (state : σ) : ds.put state true = (⟨some state, some state⟩, .ok ()) :=
  rfl

theorem put_false (state : σ) : ds.put state false = (ds, .error .metastore) :=
  rfl

theorem coherent_put (state : σ) (commitOk : Bool) (h : ds.Coherent) :
    (ds.put state commitOk).1.Coherent := by
  cases commitOk
  · exact h
  · exact .inr rfl

/-- `Delete` either leaves the store as it is, with nothing cached or a transaction that
fails, or commits and clears both the metastore and the cache. -/
theorem delete_cases (ds : TomlStore σ) (commitOk : Bool) :
    ((ds.state.isSome && commitOk) = false ∧ (ds.delete commitOk).1 = ds) ∨
      ((ds.state.isSome && commitOk) = true ∧ (ds.delete commitOk).1 = ⟨none, none⟩) := by
  cases hs : ds.state with
  | none => simp [delete, hs]
  | some _ => cases commitOk <;> simp [delete, hs]

/-- The write-locked section of `Get` leaves the metastore alone, keeps the cache coherent,
and returns the metastore's value. -/
theorem getLocked_spec (h : ds.Coherent) (kvOk : Bool) :
    (ds.getLocked kvOk).1.kv = ds.kv ∧ (ds.getLocked kvOk).1.Coherent ∧
      ∀ state, (ds.getLocked kvOk).2 = .ok state → ds.kv = some state := by
  cases hs : ds.state with
  | some state =>
      have hkv : ds.kv = some state := h.kv_of_getRLocked hs
      refine ⟨by simp [getLocked, hs], by simpa [getLocked, hs] using h, fun _ hok => ?_⟩
      simp only [getLocked, hs, Except.ok.injEq] at hok
      rw [hkv, hok]
  | none =>
      cases kvOk
      · exact ⟨by simp [getLocked, hs], by simpa [getLocked, hs] using h,
          fun _ hok => by simp [getLocked, hs] at hok⟩
      · cases hkv : ds.kv with
        | none =>
            exact ⟨by simp [getLocked, hs, hkv], by simpa [getLocked, hs, hkv] using h,
              fun _ hok => by simp [getLocked, hs, hkv] at hok⟩
        | some state =>
            -- the value read from the metastore is cached
            refine ⟨by simp [getLocked, hs, hkv], .inr (by simp [getLocked, hs, hkv]),
              fun _ hok => ?_⟩
            simp only [getLocked, hs, hkv, if_true, Except.ok.injEq] at hok
            rw [hok]

end TomlStore

/-! ## The loop of `UpdateStages` -/

/-- One iteration of the loop of `UpdateStages` over its clone `job`: an unknown task ID
returns "task %s not found", and a known one gets the new stage. -/
def setStage (stage : TaskStage) (taskID : String) (job : Job) : Job × Except StoreError Unit :=
  match job.tasks.lookup taskID with
  | none => (job, .error (.taskNotFound taskID))
  | some t => (⟨job.tasks.insert taskID { t with stage := stage }⟩, .ok ())

/-- The task at `k` once the tasks of `taskIDs` have the stage `stage`. -/
def withStage (stage : TaskStage) (taskIDs : List String) (job : Job) (k : String) :
    Option Task :=
  if k ∈ taskIDs then (job.tasks.lookup k).map fun t => { t with stage := stage }
  else job.tasks.lookup k

/-- A loop that returns without error met only known task IDs, and it leaves each task of
`taskIDs` with the new stage and every other task as it was. -/
theorem setStages_of_eq_ok {stage : TaskStage} {taskIDs : List String} {job job' : Job}
    (h : Loop.forEach (setStage stage) taskIDs job = (job', .ok ())) :
    (∀ taskID ∈ taskIDs, taskID ∈ job.tasks) ∧
      ∀ k, job'.tasks.lookup k = withStage stage taskIDs job k := by
  induction taskIDs generalizing job with
  | nil =>
      obtain rfl : job = job' := congrArg Prod.fst h
      exact ⟨by simp, fun k => by simp [withStage]⟩
  | cons taskID rest ih =>
      cases ht : job.tasks.lookup taskID with
      | none =>
          have hstep : setStage stage taskID job = (job, .error (.taskNotFound taskID)) := by
            simp [setStage, ht]
          rw [Loop.forEach_cons_of_error rest hstep] at h
          cases h
      | some t =>
          have hstep : setStage stage taskID job =
              (⟨job.tasks.insert taskID { t with stage := stage }⟩, .ok ()) := by
            simp [setStage, ht]
          rw [Loop.forEach_cons_of_ok rest hstep] at h
          obtain ⟨hmem, hlookup⟩ := ih h
          have hid : taskID ∈ job.tasks := Map.mem_of_lookup_eq_some ht
          refine ⟨fun x hx => ?_, fun k => ?_⟩
          · rcases List.mem_cons.1 hx with rfl | hx
            · exact hid
            · exact (Map.mem_insert_of_mem hid).1 (hmem x hx)
          · rw [hlookup k]
            by_cases hk : k = taskID
            · -- the new stage is set once more if the ID comes again
              subst hk
              by_cases hr : k ∈ rest <;> simp [withStage, hr, ht, AList.lookup_insert]
            · simp [withStage, hk, AList.lookup_insert_ne hk]

/-- A loop over known task IDs returns without error. -/
theorem setStages_eq_ok {stage : TaskStage} {taskIDs : List String} {job : Job}
    (h : ∀ taskID ∈ taskIDs, taskID ∈ job.tasks) :
    ∃ job', Loop.forEach (setStage stage) taskIDs job = (job', .ok ()) := by
  -- every iteration meets a known ID, and the keys of the clone only grow
  have hbody : ∀ x ∈ taskIDs, ∀ j : Job, (∀ y ∈ taskIDs, y ∈ j.tasks) →
      (setStage stage x j).2 = .ok () ∧
        ∀ y ∈ taskIDs, y ∈ (setStage stage x j).1.tasks := by
    intro x hx j hj
    obtain ⟨t, ht⟩ := Option.isSome_iff_exists.1 (AList.lookup_isSome.2 (hj x hx))
    simp only [setStage, ht, true_and]
    exact fun y hy => (AList.mem_insert _).2 (.inr (hj y hy))
  exact ⟨_, Prod.ext rfl (Loop.forEach_ok_of hbody h).1⟩

/-- The tasks of `taskIDs` all have the stage `stage` in `job`. -/
def HasStages (job : Job) (taskIDs : List String) (stage : TaskStage) : Prop :=
  ∀ k ∈ taskIDs, (job.tasks.lookup k).map Task.stage = some stage

instance (job : Job) (taskIDs : List String) (stage : TaskStage) :
    Decidable (HasStages job taskIDs stage) :=
  inferInstanceAs (Decidable (∀ k ∈ taskIDs, _))

/-- After the loop, its own tasks have the new stage. -/
theorem hasStages_withStage {stage : TaskStage} {taskIDs : List String} {job job' : Job}
    (h : Loop.forEach (setStage stage) taskIDs job = (job', .ok ())) :
    HasStages job' taskIDs stage := by
  obtain ⟨hmem, hlookup⟩ := setStages_of_eq_ok h
  intro k hk
  obtain ⟨t, ht⟩ := Option.isSome_iff_exists.1 (AList.lookup_isSome.2 (hmem k hk))
  simp [hlookup k, withStage, hk, ht]

/-- The loop keeps the stages of the tasks it does not name. -/
theorem hasStages_of_disjoint {stage stage' : TaskStage} {taskIDs taskIDs' : List String}
    {job job' : Job} (h : Loop.forEach (setStage stage) taskIDs job = (job', .ok ()))
    (hdisj : ∀ k ∈ taskIDs', k ∉ taskIDs) (hold : HasStages job taskIDs' stage') :
    HasStages job' taskIDs' stage' := by
  intro k hk
  rw [(setStages_of_eq_ok h).2 k, withStage, if_neg (hdisj k hk)]
  exact hold k hk

/-! ## The callers of the store -/

/-- A call on the job store: `UpdateStages` with its task IDs and stage, a `Put` of a whole
job (what `OperateTask` does for `Create` and `Update`), or `Delete`. -/
inductive Call
  | updateStages (taskIDs : List String) (stage : TaskStage)
  | put (job : Job)
  | delete
  deriving DecidableEq

/-- `OperateType`. -/
inductive OperateType
  | create
  | pause
  | resume
  | update
  | delete
  deriving DecidableEq, Repr

/-- `TaskManager.OperateTask`: the call on the job store a user request makes. -/
def operateTask (op : OperateType) (jobCfg : TaskCfg) (tasks : List String) : Call :=
  match op with
  | .create | .update => .put (newJob jobCfg)
  | .delete => .delete
  | .resume => .updateStages tasks .stageRunning
  | .pause => .updateStages tasks .stagePaused

/-- Where a call stands. -/
inductive CallPc
  /-- Not started. -/
  | idle
  /-- `Get` found nothing cached under the read lock and waits for the write lock. -/
  | loading
  /-- `UpdateStages` between its `Get` and its `Put`: `Get` returned `read` after `readAt`
  commits, and the loop made `job` of it; `read` and `readAt` are ghosts. -/
  | putting (read job : Job) (readAt : Nat)
  | returned (result : Except StoreError Unit)
  deriving DecidableEq

/-- The store and its callers. `commits` counts the commits of `Put` and `Delete` (a ghost). -/
structure World where
  store : TomlStore Job
  calls : List Call
  pc : Nat → CallPc
  commits : Nat

namespace World

/-- Call `i` moves to `p`. -/
def setPc (w : World) (i : Nat) (p : CallPc) : World :=
  { w with pc := Function.update w.pc i p }

@[simp] theorem setPc_store (w : World) (i : Nat) (p : CallPc) : (w.setPc i p).store = w.store :=
  rfl

@[simp] theorem setPc_calls (w : World) (i : Nat) (p : CallPc) : (w.setPc i p).calls = w.calls :=
  rfl

@[simp] theorem setPc_commits (w : World) (i : Nat) (p : CallPc) :
    (w.setPc i p).commits = w.commits :=
  rfl

@[simp] theorem setPc_pc_self (w : World) (i : Nat) (p : CallPc) : (w.setPc i p).pc i = p := by
  simp [setPc]

theorem setPc_pc_of_ne (w : World) {i j : Nat} (p : CallPc) (h : j ≠ i) :
    (w.setPc i p).pc j = w.pc j := by
  simp [setPc, Function.update_of_ne h]

/-- The rest of `UpdateStages` once its `Get` returned the clone `job`: the loop over the
task IDs, which returns at the first unknown one; otherwise the call goes on to `Put`. -/
def afterGet (w : World) (i : Nat) (taskIDs : List String) (stage : TaskStage) (job : Job) :
    World :=
  match Loop.forEach (setStage stage) taskIDs job with
  | (job', .ok ()) => w.setPc i (.putting job job' w.commits)
  | (_, .error err) => w.setPc i (.returned (.error err))

/-- The `Put` of `job` by call `i`, which returns what `Put` returns. -/
def commit (w : World) (i : Nat) (job : Job) (commitOk : Bool) : World :=
  { w with store := (w.store.put job commitOk).1,
           commits := if commitOk then w.commits + 1 else w.commits }.setPc i
    (.returned (w.store.put job commitOk).2)

/-- The read-locked section of `Get` in the `UpdateStages` call `i`. -/
def getRLocked (w : World) (i : Nat) : World :=
  match w.calls[i]?, w.pc i with
  | some (.updateStages taskIDs stage), .idle =>
      match w.store.getRLocked with
      | some job => w.afterGet i taskIDs stage job
      | none => w.setPc i .loading
  | _, _ => w

/-- The write-locked section of `Get` in the `UpdateStages` call `i`. -/
def getLocked (w : World) (i : Nat) (kvOk : Bool) : World :=
  match w.calls[i]?, w.pc i with
  | some (.updateStages taskIDs stage), .loading =>
      match w.store.getLocked kvOk with
      | (ds, .ok job) => { w with store := ds }.afterGet i taskIDs stage job
      | (ds, .error err) => { w with store := ds }.setPc i (.returned (.error err))
  | _, _ => w

/-- The `Put` of call `i`: the end of an `UpdateStages`, or a `Put` of its own. -/
def put (w : World) (i : Nat) (commitOk : Bool) : World :=
  match w.calls[i]?, w.pc i with
  | some (.updateStages _ _), .putting _ job _ => w.commit i job commitOk
  | some (.put job), .idle => w.commit i job commitOk
  | _, _ => w

/-- The `Delete` of call `i`. -/
def delete (w : World) (i : Nat) (commitOk : Bool) : World :=
  match w.calls[i]?, w.pc i with
  | some .delete, .idle =>
      { w with store := (w.store.delete commitOk).1,
               commits := if (w.store.state.isSome && commitOk) = true then w.commits + 1
                 else w.commits }.setPc i (.returned (w.store.delete commitOk).2)
  | _, _ => w

end World

/-- One critical section of one call; the environment chooses the call and the metastore's
answers. -/
inductive Action
  | getRLocked (i : Nat)
  /-- `kvOk`: the metastore's `Get` succeeds. -/
  | getLocked (i : Nat) (kvOk : Bool)
  /-- `commitOk`: the transaction commits. -/
  | put (i : Nat) (commitOk : Bool)
  /-- `commitOk`: the transaction commits. -/
  | delete (i : Nat) (commitOk : Bool)
  deriving DecidableEq, Repr

/-- One step of the store. Nothing in it panics, so no step fails. -/
def step (w : World) : Action → Except Empty World
  | .getRLocked i => .ok (w.getRLocked i)
  | .getLocked i kvOk => .ok (w.getLocked i kvOk)
  | .put i commitOk => .ok (w.put i commitOk)
  | .delete i commitOk => .ok (w.delete i commitOk)

/-- Every call may take its next step at any time. -/
def allowed (_ : World) (_ : Action) : Bool :=
  true

/-- A fresh `JobStore` (`NewJobStore`: nothing cached) over the metastore value `kv`, and the
calls `calls`, none of them started. -/
def init (kv : Option Job) (calls : List Call) : World :=
  ⟨TomlStore.new kv, calls, fun _ => .idle, 0⟩

/-! ## What every run keeps -/

/-- What call `i` holds in `w` between its `Get` and its `Put`: it is an `UpdateStages`
whose loop made `job` of the clone `read`; `read` was taken after `readAt` commits, and it is
the stored job as long as no commit has followed. -/
structure Pending (w : World) (i : Nat) (read job : Job) (readAt : Nat) : Prop where
  call : ∃ taskIDs stage, w.calls[i]? = some (.updateStages taskIDs stage) ∧
    Loop.forEach (setStage stage) taskIDs read = (job, .ok ())
  le : readAt ≤ w.commits
  fresh : readAt = w.commits → w.store.kv = some read

/-- The invariant of the store and its callers. -/
structure Inv (w : World) : Prop where
  coherent : w.store.Coherent
  pending : ∀ i read job readAt, w.pc i = .putting read job readAt → Pending w i read job readAt

section Steps

variable {w : World} {i : Nat} {read job : Job} {readAt : Nat}

theorem inv_init (kv : Option Job) (calls : List Call) : Inv (init kv calls) where
  coherent := TomlStore.coherent_new kv
  pending := fun _ _ _ _ h => by cases h

/-- What a caller read stays pending while the calls, the commits and the metastore stay. -/
theorem Pending.of_kv {w' : World} (h : Pending w i read job readAt) (hcalls : w'.calls = w.calls)
    (hcommits : w'.commits = w.commits) (hkv : w'.store.kv = w.store.kv) :
    Pending w' i read job readAt where
  call := by rw [hcalls]; exact h.call
  le := hcommits ▸ h.le
  fresh := fun hr => by rw [hkv]; exact h.fresh (hcommits ▸ hr)

/-- A commit leaves every read behind. -/
theorem Pending.of_commit {w' : World} (h : Pending w i read job readAt)
    (hcalls : w'.calls = w.calls) (hcommits : w'.commits = w.commits + 1) :
    Pending w' i read job readAt where
  call := by rw [hcalls]; exact h.call
  le := by rw [hcommits]; exact Nat.le_succ_of_le h.le
  fresh := fun hr => absurd h.le (by omega)

/-- Moving call `i` keeps the invariant when, if it moves to `putting`, what it holds is
pending. -/
theorem Inv.setPc (hw : Inv w) {p : CallPc}
    (hp : ∀ read job readAt, p = .putting read job readAt → Pending w i read job readAt) :
    Inv (w.setPc i p) where
  coherent := hw.coherent
  pending := fun j read job readAt hj => by
    by_cases hji : j = i
    · subst hji
      simp only [World.setPc_pc_self] at hj
      exact (hp read job readAt hj).of_kv rfl rfl rfl
    · rw [World.setPc_pc_of_ne w p hji] at hj
      exact (hw.pending j read job readAt hj).of_kv rfl rfl rfl

/-- A new store with the same metastore value keeps the invariant if it is coherent. -/
theorem Inv.withStore (hw : Inv w) {ds : TomlStore Job} (hkv : ds.kv = w.store.kv)
    (hds : ds.Coherent) : Inv { w with store := ds } where
  coherent := hds
  pending := fun j read job readAt hj => (hw.pending j read job readAt hj).of_kv rfl rfl hkv

/-- The rest of `UpdateStages` after a `Get` that returned the stored job. -/
theorem Inv.afterGet (hw : Inv w) {taskIDs : List String} {stage : TaskStage}
    (hcall : w.calls[i]? = some (.updateStages taskIDs stage)) (hkv : w.store.kv = some read) :
    Inv (w.afterGet i taskIDs stage read) := by
  rcases hloop : Loop.forEach (setStage stage) taskIDs read with ⟨job', ⟨err⟩ | ⟨⟩⟩
  · simp only [World.afterGet, hloop]
    exact hw.setPc fun _ _ _ h => by cases h
  · simp only [World.afterGet, hloop]
    refine hw.setPc fun read' job readAt h => ?_
    obtain ⟨rfl, rfl, rfl⟩ := CallPc.putting.inj h
    exact ⟨⟨taskIDs, stage, hcall, hloop⟩, le_rfl, fun _ => hkv⟩

/-- A `Put` keeps the invariant: a commit writes the cache and the metastore alike. -/
theorem Inv.commit (hw : Inv w) (job : Job) (commitOk : Bool) : Inv (w.commit i job commitOk) := by
  unfold World.commit
  refine Inv.setPc ⟨TomlStore.coherent_put job commitOk hw.coherent, fun j read job' readAt hj =>
    ?_⟩ fun _ _ _ h => by cases h
  have hp := hw.pending j read job' readAt hj
  cases commitOk
  · exact hp.of_kv rfl rfl rfl
  · exact hp.of_commit rfl rfl

theorem Inv.getRLocked (hw : Inv w) (i : Nat) : Inv (w.getRLocked i) := by
  unfold World.getRLocked
  split
  · rename_i taskIDs stage hcall _
    cases hget : w.store.getRLocked with
    | none => exact hw.setPc fun _ _ _ h => by cases h
    | some job => exact hw.afterGet hcall (hw.coherent.kv_of_getRLocked hget)
  · exact hw

theorem Inv.getLocked (hw : Inv w) (i : Nat) (kvOk : Bool) : Inv (w.getLocked i kvOk) := by
  unfold World.getLocked
  split
  · rename_i taskIDs stage hcall _
    obtain ⟨hkv, hcoh, hread⟩ := TomlStore.getLocked_spec hw.coherent kvOk
    have hw' := hw.withStore hkv hcoh
    rcases hget : w.store.getLocked kvOk with ⟨ds, ⟨err⟩ | ⟨job⟩⟩
    · rw [hget] at hw'
      exact hw'.setPc fun _ _ _ h => by cases h
    · rw [hget] at hw' hkv hread
      exact hw'.afterGet hcall (hkv.trans (hread job rfl))
  · exact hw

theorem Inv.put (hw : Inv w) (i : Nat) (commitOk : Bool) : Inv (w.put i commitOk) := by
  unfold World.put
  split
  · exact hw.commit _ commitOk
  · exact hw.commit _ commitOk
  · exact hw

theorem Inv.delete (hw : Inv w) (i : Nat) (commitOk : Bool) : Inv (w.delete i commitOk) := by
  unfold World.delete
  split
  · rcases TomlStore.delete_cases w.store commitOk with ⟨hc, h⟩ | ⟨hc, h⟩
    · -- nothing is deleted and nothing committed
      refine Inv.setPc ⟨by simpa only [h] using hw.coherent, fun j read job readAt hj => ?_⟩
        fun _ _ _ h => by cases h
      exact (hw.pending j read job readAt hj).of_kv rfl (if_neg (by simp [hc])) (by simp only [h])
    · -- the commit clears the metastore and the cache
      refine Inv.setPc ⟨by simp only [h]; exact .inl rfl, fun j read job readAt hj => ?_⟩
        fun _ _ _ h => by cases h
      exact (hw.pending j read job readAt hj).of_commit rfl (if_pos hc)
  · exact hw

/-- The step lemma: every step keeps the invariant. -/
theorem Inv.step (hw : Inv w) {a : Action} {w' : World} (h : step w a = .ok w') : Inv w' := by
  cases a with
  | getRLocked i => cases h; exact hw.getRLocked i
  | getLocked i kvOk => cases h; exact hw.getLocked i kvOk
  | put i commitOk => cases h; exact hw.put i commitOk
  | delete i commitOk => cases h; exact hw.delete i commitOk

/-- The run lemma: the invariant holds in every reachable state. -/
theorem inv_of_reachable {kv : Option Job} {calls : List Call}
    (hr : Transition.Reachable step allowed (init kv calls) w) : Inv w :=
  Transition.Reachable.inv (inv_init kv calls) (fun _ _ _ hs _ h => hs.step h) hr

/-! ## Updates over every schedule -/

variable {kv : Option Job} {calls : List Call}

/-- Over every schedule, the `Put` of an `UpdateStages` that commits writes its own clone, to
the metastore and to the cache alike, and the call returns nil: each task it names has the
new stage over the job its `Get` returned, and every other task is as in that job, whatever
was committed since. The job its `Get` returned is the job the `Put` replaces only if nothing
was committed in between. -/
theorem put_writes_read_job (hr : Transition.Reachable step allowed (init kv calls) w)
    (hpc : w.pc i = .putting read job readAt) :
    ∃ taskIDs stage, w.calls[i]? = some (.updateStages taskIDs stage) ∧
      (w.put i true).store = ⟨some job, some job⟩ ∧
      (w.put i true).pc i = .returned (.ok ()) ∧
      (∀ k, job.tasks.lookup k = withStage stage taskIDs read k) ∧
      (readAt = w.commits → w.store.kv = some read) := by
  have hp := (inv_of_reachable hr).pending i read job readAt hpc
  obtain ⟨taskIDs, stage, hcall, hloop⟩ := hp.call
  have hput : w.put i true = w.commit i job true := by
    simp only [World.put, hcall, hpc]
  refine ⟨taskIDs, stage, hcall, ?_, ?_, (setStages_of_eq_ok hloop).2, hp.fresh⟩
  · rw [hput]
    rfl
  · rw [hput, World.commit, World.setPc_pc_self, TomlStore.put_true]

/-- No update is lost by a `Put` whose `Get` read the latest commit: the stages that the
stored job has for tasks the call does not name are still there after its `Put`, next to its
own. So `UpdateStages` calls whose `Get` follows the other's `Put` keep both changes. -/
theorem put_after_latest_read_keeps_stages
    (hr : Transition.Reachable step allowed (init kv calls) w)
    (hpc : w.pc i = .putting read job readAt) (hfresh : readAt = w.commits) {stored : Job}
    (hkv : w.store.kv = some stored) {taskIDs taskIDs' : List String} {stage stage' : TaskStage}
    (hcall : w.calls[i]? = some (.updateStages taskIDs stage))
    (hdisj : ∀ k ∈ taskIDs', k ∉ taskIDs) (hold : HasStages stored taskIDs' stage') :
    (w.put i true).store = ⟨some job, some job⟩ ∧ HasStages job taskIDs stage ∧
      HasStages job taskIDs' stage' := by
  have hp := (inv_of_reachable hr).pending i read job readAt hpc
  obtain ⟨taskIDs₀, stage₀, hcall₀, hloop⟩ := hp.call
  -- the call is the `UpdateStages` the hypotheses name, and it read the stored job
  obtain ⟨rfl, rfl⟩ : taskIDs = taskIDs₀ ∧ stage = stage₀ := by
    simpa [hcall] using hcall₀
  obtain rfl : read = stored := Option.some.inj ((hp.fresh hfresh).symm.trans hkv)
  obtain ⟨-, -, -, hstore, -⟩ := put_writes_read_job hr hpc
  exact ⟨hstore, hasStages_withStage hloop, hasStages_of_disjoint hloop hdisj hold⟩

end Steps

/-! ## A lost update -/

/-- A job configuration with the upstreams `a` and `b`. -/
def jobCfgAB : TaskCfg :=
  ⟨"job", "all", ["a", "b"]⟩

/-- The same job, updated to the upstreams `a` and `c`. -/
def jobCfgAC : TaskCfg :=
  ⟨"job", "all", ["a", "c"]⟩

/-- An interleaving loses a change that returned nil, for two `UpdateStages` on the tasks
`a` and `b`, and for an `UpdateStages` beside the `Put` of an `Update`. In the first, both
calls read the job and the one that commits last writes `a` back as it read it; in the
second, `UpdateStages` reads the job before the `Update` puts the new one with the task `c`,
and its `Put` writes the old job back. -/
theorem updateStages_loses_update :
    (∃ w, Transition.Reachable step allowed (init (some (newJob jobCfgAB))
        [.updateStages ["a"] .stagePaused, .updateStages ["b"] .stagePaused]) w ∧
      w.pc 0 = .returned (.ok ()) ∧ w.pc 1 = .returned (.ok ()) ∧
      ∃ job, w.store = ⟨some job, some job⟩ ∧ HasStages job ["a"] .stageRunning ∧
        HasStages job ["b"] .stagePaused) ∧
    (∃ w, Transition.Reachable step allowed (init (some (newJob jobCfgAB))
        [.updateStages ["a"] .stagePaused, operateTask .update jobCfgAC []]) w ∧
      w.pc 0 = .returned (.ok ()) ∧ w.pc 1 = .returned (.ok ()) ∧
      ∃ job, w.store = ⟨some job, some job⟩ ∧ "c" ∉ job.tasks ∧
        HasStages job ["a"] .stagePaused) :=
  ⟨⟨_, Transition.reachable_run .init rfl
      (show Transition.run step _ [.getRLocked 0, .getLocked 0 true, .getRLocked 1, .put 0 true,
        .put 1 true] = .ok _ from rfl), rfl, rfl, _, rfl, by decide, by decide⟩,
    ⟨_, Transition.reachable_run .init rfl
      (show Transition.run step _ [.getRLocked 0, .getLocked 0 true, .put 1 true,
        .put 0 true] = .ok _ from rfl), rfl, rfl, _, rfl, by decide, by decide⟩⟩

end Metadata

end Dm

end Jobmaster

end Microcosm
