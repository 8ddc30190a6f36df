import Microcosm.Jobmaster.CvsJob.CvsJobMaster

/-!
# The CVS job master on its base master

`DefaultBaseJobMaster` of `lib/base_jobmaster.go` running the CVS job master: the job
master, the worker manager of its base master, and the goroutines `CreateWorker`
launched. `Init` is `doInit` (which on a failover runs `InitAfterRecover`: the load of the
persisted workers, the wait for their heartbeats, and the tombstoning of those that sent
none) followed by `InitImpl` or `OnMasterRecovered`. Once `Init` has returned, `Poll` runs
`WorkerManager.Tick`, whose every iteration hands one event to a callback of the job
master, and then the job master's `Tick`. The workers' heartbeats and status messages,
the background checker of the worker manager, the goroutines of `CreateWorker` and the
job manager's messages interleave with all of it.

Three ghost fields: the file index each worker works on (`assigned`: the index `Tick`
created it for, or the index of the task config in the status a recovered worker
persisted), the workers ever recorded in `launchedWorkers`, and the workers an offline or
dispatch-failed event was delivered for.

`inv_of_reachable` says what holds in every run, from a first start or a failover: the
bookkeeping of the job master is `Consistent`, and a worker recorded in `launchedWorkers`
stays there until an offline or dispatch-failed event for it is delivered. So the
"not found" panics of `OnWorkerOffline` and `OnWorkerDispatched` are only reached for a
worker the job master never recorded or one that already had such an event
(`notFound_of_step`). After a failover there are such workers: `InitAfterRecover` marks
every recovered worker that sends a heartbeat online without an online event, and
`OnMasterRecovered` marks every index as needing a worker.
-/

namespace Microcosm

namespace Cvs

open Master Lib

/-- The job master, its base master's worker manager, the goroutines of `CreateWorker`,
and the ghost fields. -/
structure BaseJobMaster where
  impl : JobMaster
  wm : WorkerManager
  creations : List Creation
  /-- Whether `doInit` found the job master's first start. -/
  isInit : Bool
  /-- `Init` has returned. -/
  initialized : Bool
  /-- Ghost: the file index each worker works on. -/
  assigned : AList (fun _ : WorkerID => Nat)
  /-- Ghost: the workers ever recorded in `launchedWorkers`. -/
  launched : List WorkerID
  /-- Ghost: the workers an offline or dispatch-failed event was delivered for. -/
  touched : List WorkerID

/-- The steps of the job master and of the goroutines around it. -/
inductive BaseJobMasterAction
  /-- `InitImpl` on a first start; `putResult` is the outcome of its metastore write. -/
  | initImpl (putResult : Except Error Unit)
  /-- `LoadAllWorkers` of `InitAfterRecover` returned. -/
  | initAfterRecoverLoad (loaded : Except Error (AList (fun _ : WorkerID => WorkerStatus)))
  /-- The wait of `InitAfterRecover` ended: every worker sent a heartbeat, or the timeout
  passed. -/
  | initAfterRecoverFinish
  /-- `OnMasterRecovered`, after `InitAfterRecover`. -/
  | onMasterRecovered (resp : Except Error (List (Except Error (AList (fun _ : Nat => String)))))
  /-- A step of the `j`-th goroutine of `CreateWorker`. -/
  | creation (j : Nat) (ev : CreationEvent)
  | handleHeartbeat (msg : HeartbeatPingMessage) (fromNode : ExecutorID) (now : Nat)
  | onWorkerStatusUpdateMessage (msg : WorkerStatusMessage)
  | checkWorkerEntriesOnce (now : Nat) (order : List WorkerID)
  /-- One iteration of the loop of `WorkerManager.Tick` in `Poll`. -/
  | pollEvent
  /-- The job master's `Tick` in `Poll`, visiting the indices in `order`. -/
  | tick (order : List Nat) (creates : List (Bool × WorkerID)) (now : Nat)
  /-- A `StatusChangeRequest` from the job manager. -/
  | onJobManagerMessage (expectState : WorkerStatusCode)

/-- What ends the job master: a failure of `Init`, of a callback or of `Tick`; an error of
the error center, which fails `Poll`; a panic of the worker manager or of a goroutine of
`CreateWorker`. -/
inductive Stop
  | init (f : Failure)
  | callback (f : Failure)
  | tick (f : Failure)
  | pollFailed (err : Error)
  | master (p : Master.Panic)
  | creation (p : CreationPanic)
  deriving DecidableEq, Repr

/-- The worker manager holds an entry for the worker that has not gone offline. -/
def liveWorker (wm : WorkerManager) (workerID : WorkerID) : Bool :=
  match wm.workerEntries.lookup workerID with
  | some ref => (wm.entry ref).state != .offline && (wm.entry ref).state != .tombstone
  | none => false

/-- Each file index has at most one live worker assigned to it. -/
def OneLiveWorkerPerIndex (s : BaseJobMaster) : Prop :=
  ∀ w w' idx, liveWorker s.wm w = true → liveWorker s.wm w' = true →
    s.assigned.lookup w = some idx → s.assigned.lookup w' = some idx → w = w'

/-- Ghost: the index of each recovered worker, from the task config in the status it
persisted. -/
def recoveredIndices (decodeTaskStatus : List UInt8 → Except Error TaskStatus)
    (persisted : AList (fun _ : WorkerID => WorkerStatus))
    (assigned : AList (fun _ : WorkerID => Nat)) : AList (fun _ : WorkerID => Nat) :=
  persisted.entries.foldl
    (fun a p =>
      match decodeTaskStatus p.2.extBytes with
      | .ok taskStatus => a.insert p.1 taskStatus.idx
      | .error _ => a)
    assigned

namespace BaseJobMaster

/-- A job master created with a config of `fileNum` files, whose base master found the
epoch `epoch` and, by `isInit`, whether this is its first start. -/
def init (fileNum : Int) (masterID : MasterID) (epoch : Epoch) (isInit : Bool)
    (timeouts : TimeoutConfig) : BaseJobMaster :=
  { impl := newCVSJobMaster fileNum
    wm := newWorkerManager masterID epoch isInit timeouts
    creations := []
    isInit
    initialized := false
    assigned := ∅
    launched := []
    touched := [] }

/-- A step of the worker manager alone. -/
def withManager (s : BaseJobMaster) : Except Master.Panic WorkerManager →
    Except Stop BaseJobMaster
  | .error p => .error (.master p)
  | .ok wm => .ok { s with wm }

variable (decodeTaskStatus : List UInt8 → Except Error TaskStatus)

/-- The callbacks of the base master, into those of the job master. -/
def deliver (s : BaseJobMaster) (ev : MasterEvent) : Except Stop BaseJobMaster :=
  match ev.tp with
  | .workerOnlineEvent =>
      match s.impl.onWorkerOnline s.wm decodeTaskStatus ev.handle with
      | .error f => .error (.callback f)
      | .ok impl => .ok { s with impl, launched := s.launched ++ [ev.handle.id] }
  | .workerOfflineEvent =>
      match s.impl.onWorkerOffline s.wm ev.handle ev.err with
      | .error f => .error (.callback f)
      | .ok impl => .ok { s with impl, touched := s.touched ++ [ev.handle.id] }
  | .workerStatusUpdatedEvent =>
      -- the base master reads `handle.Status()` for `OnWorkerStatusUpdated`, which does
      -- nothing else
      match ev.handle.status s.wm with
      | .error p => .error (.master p)
      | .ok _ => .ok s
  | .workerDispatchFailedEvent =>
      match s.impl.onWorkerDispatched ev.handle ev.err with
      | .error f => .error (.callback f)
      | .ok impl => .ok { s with impl, touched := s.touched ++ [ev.handle.id] }

/-- One step. `Init` calls `InitAfterRecover` once, on a manager created for a failover,
and then `InitImpl` or `OnMasterRecovered`; `Poll` and the job manager's messages only
come once `Init` has returned. A step of a goroutine that is not there changes nothing. -/
def step (s : BaseJobMaster) : BaseJobMasterAction → Except Stop BaseJobMaster
  | .initImpl putResult =>
      if s.isInit ∧ ¬ s.initialized then
        match s.impl.initImpl putResult with
        | .error err => .error (.init (.error err))
        | .ok impl => .ok { s with impl, initialized := true }
      else .ok s
  | .initAfterRecoverLoad loaded =>
      if s.isInit ∨ s.wm.state ≠ .loadingMeta then .ok s
      else
        match loaded with
        | .error err => .error (.init (.error err))
        | .ok persisted =>
            match s.wm.initAfterRecoverLoad persisted with
            | .error p => .error (.master p)
            | .ok wm =>
                .ok { s with wm, assigned := recoveredIndices decodeTaskStatus persisted s.assigned }
  | .initAfterRecoverFinish =>
      if s.wm.state = .waitingHeartbeat then s.withManager s.wm.initAfterRecoverFinish
      else .ok s
  | .onMasterRecovered resp =>
      if ¬ s.isInit ∧ ¬ s.initialized ∧ s.wm.state = .ready then
        match s.impl.onMasterRecovered resp with
        | .error f => .error (.init f)
        | .ok impl => .ok { s with impl, initialized := true }
      else .ok s
  | .creation j ev =>
      match s.creations[j]? with
      | some g =>
          match Creation.step (g, s.wm) ev with
          | .error p => .error (.creation p)
          | .ok (g', wm) => .ok { s with wm, creations := s.creations.set j g' }
      | none => .ok s
  | .handleHeartbeat msg fromNode now => s.withManager (s.wm.handleHeartbeat msg fromNode now)
  | .onWorkerStatusUpdateMessage msg => s.withManager (s.wm.onWorkerStatusUpdateMessage msg)
  | .checkWorkerEntriesOnce now order =>
      match s.wm.checkWorkerEntriesOnce now order with
      | .error p => .error (.master p)
      | .ok (wm, none) => .ok { s with wm }
      | .ok (wm, some err) => .ok { s with wm := wm.onError err }
  | .pollEvent =>
      if ¬ s.initialized then .ok s
      else
        match s.wm.errCenter with
        | some err => .error (.pollFailed err)
        | none =>
            match s.wm.tickOne with
            | .error p => .error (.master p)
            | .ok .idle => .ok s
            | .ok (.cancelled wm) => .ok { s with wm }
            | .ok (.deliver wm ev) => deliver decodeTaskStatus { s with wm } ev
  | .tick order creates now =>
      if ¬ s.initialized then .ok s
      else
        match JobMaster.tick s.wm decodeTaskStatus now s.impl order creates with
        | .error f => .error (.tick f)
        | .ok (impl, created) =>
            .ok { s with
              impl
              creations := s.creations ++ created.map (·.2)
              assigned := created.foldl (fun a p => a.insert p.2.workerID p.1) s.assigned
              launched := s.launched ++ created.map (·.2.workerID) }
  | .onJobManagerMessage expectState =>
      if s.initialized then .ok { s with impl := s.impl.onJobManagerMessage expectState }
      else .ok s

-- Many proofs below unfold this definition, and Lean elaborates them in parallel: the empty
-- section generates its equation lemmas here, once, so that the proofs do not all wait on it.
-- The simp set outside the section is unchanged.
section
attribute [local simp] step
end

/-- The iteration orders of `checkWorkerEntriesOnce` and of `Tick` enumerate their maps. -/
def allowed (s : BaseJobMaster) : BaseJobMasterAction → Bool
  | .checkWorkerEntriesOnce _ order => order.isPerm s.wm.workerEntries.keys
  | .tick order _ _ => order.isPerm s.impl.syncFilesInfo.keys
  | _ => true

/-- The states reachable from a newly created job master. -/
def Reachable (fileNum : Int) (masterID : MasterID) (epoch : Epoch) (isInit : Bool)
    (timeouts : TimeoutConfig) : BaseJobMaster → Prop :=
  Transition.Reachable (step decodeTaskStatus) allowed (init fileNum masterID epoch isInit timeouts)

theorem withManager_eq_ok {s s' : BaseJobMaster} {x : Except Master.Panic WorkerManager}
    (h : s.withManager x = .ok s') : ∃ wm, x = .ok wm ∧ s' = { s with wm } := by
  cases x with
  | error p => cases h
  | ok wm =>
      cases h
      exact ⟨wm, rfl, rfl⟩

/-- What holds in every reachable state. -/
structure Inv (s : BaseJobMaster) : Prop where
  /-- The manager of a first start is ready from the start, any manager once `Init` has
  returned. -/
  ready : s.isInit = true ∨ s.initialized = true → s.wm.state = .ready
  /-- Before `Init` returns, the job master has recorded no worker. -/
  fresh : s.initialized = false → s.impl.launchedWorkers = ∅ ∧ s.launched = []
  consistent : s.impl.Consistent
  /-- A recorded worker stays in `launchedWorkers` until an offline or dispatch-failed
  event for it is delivered. -/
  recorded : ∀ w ∈ s.launched, w ∉ s.touched → w ∈ s.impl.launchedWorkers

theorem inv_init (fileNum : Int) (masterID : MasterID) (epoch : Epoch) (isInit : Bool)
    (timeouts : TimeoutConfig) : (init fileNum masterID epoch isInit timeouts).Inv where
  ready h := by
    rcases h with h | h
    · simp only [init] at h
      simp [init, newWorkerManager, h]
    · cases h
  fresh _ := ⟨rfl, rfl⟩
  consistent := JobMaster.consistent_newCVSJobMaster fileNum
  recorded _ hw := by cases hw

/-- A step that keeps the job master, the ghost fields and the state of the manager. -/
theorem Inv.frame {s s' : BaseJobMaster} (hi : s.Inv) (hstate : s'.wm.state = s.wm.state)
    (hisInit : s'.isInit = s.isInit) (hinit : s'.initialized = s.initialized)
    (himpl : s'.impl = s.impl) (hl : s'.launched = s.launched) (ht : s'.touched = s.touched) :
    s'.Inv where
  ready h := by
    rw [hisInit, hinit] at h
    rw [hstate, hi.ready h]
  fresh h := by
    rw [himpl, hl]
    exact hi.fresh (hinit ▸ h)
  consistent := himpl ▸ hi.consistent
  recorded w hw hnt := by
    rw [himpl]
    exact hi.recorded w (hl ▸ hw) (ht ▸ hnt)

/-- A step of the manager alone that keeps its state. -/
theorem Inv.withManager {s : BaseJobMaster} (hi : s.Inv) {wm : WorkerManager}
    (hstate : wm.state = s.wm.state) : ({ s with wm } : BaseJobMaster).Inv :=
  hi.frame hstate rfl rfl rfl rfl rfl

/-- The first return of `Init`, by `InitImpl` or `OnMasterRecovered`, on a ready manager: the
job master recorded nothing before it, so the new one is consistent if the callback keeps
consistency from an empty `launchedWorkers`. -/
theorem Inv.initReturns {s : BaseJobMaster} (hi : s.Inv) (hninit : s.initialized = false)
    (hready : s.wm.state = .ready) {impl : JobMaster}
    (hc : s.impl.launchedWorkers = ∅ → impl.Consistent) :
    ({ s with impl, initialized := true } : BaseJobMaster).Inv := by
  obtain ⟨hl, hlaunched⟩ := hi.fresh hninit
  refine ⟨fun _ => hready, (fun h => by cases h), hc hl, fun w hw => ?_⟩
  rw [hlaunched] at hw
  cases hw

/-- A step of the job master after `Init`, which keeps the state of the manager. -/
theorem Inv.of_impl {s s' : BaseJobMaster} (hi : s.Inv) (hinit : s.initialized = true)
    (hstate : s'.wm.state = s.wm.state) (hinit' : s'.initialized = true)
    (hc : s'.impl.Consistent)
    (hrec : ∀ w ∈ s'.launched, w ∉ s'.touched → w ∈ s'.impl.launchedWorkers) : s'.Inv where
  ready _ := hstate.trans (hi.ready (.inr hinit))
  fresh h := by
    rw [hinit'] at h
    cases h
  consistent := hc
  recorded := hrec

/-- A callback for `w` that deletes at most `w` keeps every other recorded worker. -/
theorem Inv.recorded_touch {s : BaseJobMaster} (hi : s.Inv) {impl : JobMaster} {w : WorkerID}
    (hkeep : ∀ {x}, x ≠ w → x ∈ s.impl.launchedWorkers → x ∈ impl.launchedWorkers) :
    ∀ x ∈ s.launched, x ∉ s.touched ++ [w] → x ∈ impl.launchedWorkers := by
  intro x hx hnt
  have hne : x ≠ w := fun h => hnt (List.mem_append_right _ (List.mem_singleton.2 h))
  exact hkeep hne (hi.recorded x hx fun h => hnt (List.mem_append_left _ h))

/-- A step that records the workers `ws` and deletes none. -/
theorem Inv.recorded_record {s : BaseJobMaster} (hi : s.Inv) {impl : JobMaster}
    {ws : List WorkerID} (hmono : ∀ x ∈ s.impl.launchedWorkers, x ∈ impl.launchedWorkers)
    (hws : ∀ x ∈ ws, x ∈ impl.launchedWorkers) :
    ∀ x ∈ s.launched ++ ws, x ∉ s.touched → x ∈ impl.launchedWorkers := by
  intro x hx hnt
  rcases List.mem_append.1 hx with hx | hx
  · exact hmono x (hi.recorded x hx hnt)
  · exact hws x hx

theorem Inv.of_deliver {s s' : BaseJobMaster} {ev : MasterEvent} (hi : s.Inv)
    (hinit : s.initialized = true) (hd : deliver decodeTaskStatus s ev = .ok s') : s'.Inv := by
  have hready : s.wm.isInitialized = true := by
    simp [WorkerManager.isInitialized, hi.ready (.inr hinit)]
  unfold deliver at hd
  split at hd
  · split at hd
    · cases hd
    · rename_i impl ho
      cases hd
      obtain ⟨hmono, hmem⟩ := JobMaster.onWorkerOnline_launched ho
      exact hi.of_impl hinit rfl hinit (JobMaster.onWorkerOnline_consistent hi.consistent hready ho)
        (hi.recorded_record hmono (by simpa using hmem))
  · split at hd
    · cases hd
    · rename_i impl ho
      cases hd
      exact hi.of_impl hinit rfl hinit (JobMaster.onWorkerOffline_consistent hi.consistent ho)
        (hi.recorded_touch (JobMaster.onWorkerOffline_launched ho))
  · split at hd
    · cases hd
    · cases hd
      exact hi
  · split at hd
    · cases hd
    · rename_i impl ho
      cases hd
      exact hi.of_impl hinit rfl hinit (JobMaster.onWorkerDispatched_consistent hi.consistent ho)
        (hi.recorded_touch (JobMaster.onWorkerDispatched_launched ho))

theorem Inv.of_step {s s' : BaseJobMaster} {a : BaseJobMasterAction} (hi : s.Inv)
    (h : step decodeTaskStatus s a = .ok s') : s'.Inv := by
  cases a with
  | initImpl putResult =>
      simp only [step] at h
      split at h
      · rename_i hg
        split at h
        · cases h
        · rename_i impl himpl
          cases h
          exact hi.initReturns (by simpa using hg.2) (hi.ready (.inl hg.1))
            fun hl => JobMaster.initImpl_consistent hi.consistent hl himpl
      · cases h
        exact hi
  | initAfterRecoverLoad loaded =>
      simp only [step] at h
      split at h
      · cases h
        exact hi
      · rename_i hg
        obtain ⟨hni, hload⟩ := not_or.1 hg
        split at h
        · cases h
        · split at h
          · cases h
          · cases h
            -- the manager is still loading, so `Init` has not returned
            refine ⟨fun hr => ?_, hi.fresh, hi.consistent, hi.recorded⟩
            rcases hr with hr | hr
            · exact absurd hr hni
            · exact absurd (hi.ready (.inr hr)) (by rw [not_not.1 hload]; decide)
  | initAfterRecoverFinish =>
      simp only [step] at h
      split at h
      · obtain ⟨wm, hwm, rfl⟩ := withManager_eq_ok h
        exact ⟨fun _ => WorkerManager.initAfterRecoverFinish_state hwm, hi.fresh, hi.consistent,
          hi.recorded⟩
      · cases h
        exact hi
  | onMasterRecovered resp =>
      simp only [step] at h
      split at h
      · rename_i hg
        split at h
        · cases h
        · rename_i impl himpl
          cases h
          exact hi.initReturns (by simpa using hg.2.1) hg.2.2
            fun hl => JobMaster.onMasterRecovered_consistent hi.consistent hl himpl
      · cases h
        exact hi
  | creation j ev =>
      simp only [step] at h
      split at h
      · split at h
        · cases h
        · rename_i hs
          cases h
          exact hi.frame (Creation.step_steps hs).frame.state rfl rfl rfl rfl rfl
      · cases h
        exact hi
  | handleHeartbeat msg fromNode now =>
      obtain ⟨wm, hwm, rfl⟩ := withManager_eq_ok h
      exact hi.withManager (WorkerManager.handleHeartbeat_frame hwm).state
  | onWorkerStatusUpdateMessage msg =>
      obtain ⟨wm, hwm, rfl⟩ := withManager_eq_ok h
      exact hi.withManager (WorkerManager.onWorkerStatusUpdateMessage_frame hwm).state
  | checkWorkerEntriesOnce now order =>
      simp only [step] at h
      split at h
      · cases h
      · rename_i hc
        cases h
        exact hi.withManager (WorkerManager.checkWorkerEntriesOnce_frame hc).state
      · rename_i hc
        cases h
        exact hi.withManager ((WorkerManager.onError_state _ _).trans
          (WorkerManager.checkWorkerEntriesOnce_frame hc).state)
  | pollEvent =>
      simp only [step] at h
      split at h
      · cases h
        exact hi
      · rename_i hinit
        have hinit : s.initialized = true := by simpa using hinit
        split at h
        · cases h
        · split at h
          · cases h
          · cases h
            exact hi
          · rename_i hc
            cases h
            exact hi.withManager (WorkerManager.tickOne_cancelled_frame hc).state
          · rename_i wm ev hc
            exact (hi.withManager (WorkerManager.tickOne_deliver_frame hc).state).of_deliver
              decodeTaskStatus hinit h
  | tick order creates now =>
      simp only [step] at h
      split at h
      · cases h
        exact hi
      · rename_i hinit
        have hinit : s.initialized = true := by simpa using hinit
        split at h
        · cases h
        · rename_i impl created ht
          cases h
          obtain ⟨hmono, hcreated⟩ := JobMaster.tick_launched s.wm decodeTaskStatus now ht
          refine hi.of_impl hinit rfl hinit
            (JobMaster.tick_consistent s.wm decodeTaskStatus now hi.consistent ht)
            (hi.recorded_record hmono ?_)
          intro x hx
          obtain ⟨p, hp, rfl⟩ := List.mem_map.1 hx
          exact hcreated p hp
  | onJobManagerMessage expectState =>
      simp only [step] at h
      split at h
      · rename_i hinit
        cases h
        exact hi.of_impl hinit rfl hinit (JobMaster.onJobManagerMessage_consistent hi.consistent _)
          (by simpa using hi.recorded)
      · cases h
        exact hi

/-- The invariant holds in every run, from a first start or a failover. -/
theorem inv_of_reachable {fileNum : Int} {masterID : MasterID} {epoch : Epoch} {isInit : Bool}
    {timeouts : TimeoutConfig} {s : BaseJobMaster}
    (hr : Reachable decodeTaskStatus fileNum masterID epoch isInit timeouts s) : s.Inv :=
  Transition.Reachable.inv (inv_init fileNum masterID epoch isInit timeouts)
    (fun _ _ _ hi _ hs => hi.of_step decodeTaskStatus hs) hr

theorem withManager_ne_callback (s : BaseJobMaster) (x : Except Master.Panic WorkerManager)
    (f : Failure) : s.withManager x ≠ .error (.callback f) := by
  cases x <;> simp [withManager]

/-- A callback fails only in `Poll`, on the event `WorkerManager.Tick` hands over. -/
theorem step_eq_callback {s : BaseJobMaster} {a : BaseJobMasterAction} {f : Failure}
    (h : step decodeTaskStatus s a = .error (.callback f)) :
    ∃ wm ev, s.wm.tickOne = .ok (.deliver wm ev) ∧
      deliver decodeTaskStatus { s with wm } ev = .error (.callback f) := by
  cases a with
  | pollEvent =>
      simp only [step] at h
      split at h
      · cases h
      · split at h
        · cases h
        · split at h
          · cases h
          · cases h
          · cases h
          · exact ⟨_, _, ‹_›, h⟩
  | handleHeartbeat msg fromNode now => exact absurd h (withManager_ne_callback _ _ _)
  | onWorkerStatusUpdateMessage msg => exact absurd h (withManager_ne_callback _ _ _)
  | initAfterRecoverFinish =>
      simp only [step] at h
      split at h
      · exact absurd h (withManager_ne_callback _ _ _)
      · cases h
  -- the other steps fail, if at all, in `Init`, in `Tick`, in the manager or in a goroutine
  | initImpl | initAfterRecoverLoad | onMasterRecovered | creation | checkWorkerEntriesOnce
  | tick | onJobManagerMessage =>
      simp only [step] at h
      repeat' (first | (split at h) | cases h)

/-- The two "not found" panics of the callbacks are for a worker `launchedWorkers` does not
hold. -/
theorem deliver_eq_notFound {s : BaseJobMaster} {ev : MasterEvent} {w : WorkerID}
    (h : deliver decodeTaskStatus s ev = .error (.callback (.panic (.offlineWorkerNotFound w))) ∨
      deliver decodeTaskStatus s ev = .error (.callback (.panic (.failedWorkerNotFound w)))) :
    w ∉ s.impl.launchedWorkers := by
  unfold deliver at h
  split at h
  · split at h
    · rename_i f ho
      rcases h with h | h <;> cases h <;>
        rcases JobMaster.onWorkerOnline_eq_panic ho with hp | hp <;> cases hp
    · rcases h with h | h <;> cases h
  · split at h
    · rename_i f ho
      rcases h with h | h <;> cases h <;>
        rcases JobMaster.onWorkerOffline_eq_panic ho with ⟨hp, hmem⟩ | hp <;> cases hp
      assumption
    · rcases h with h | h <;> cases h
  · split at h <;> rcases h with h | h <;> cases h
  · split at h
    · rename_i f hd
      rcases h with h | h <;> cases h <;>
        rcases JobMaster.onWorkerDispatched_eq_panic hd with ⟨hp, hmem⟩ | hp <;> cases hp
      assumption
    · rcases h with h | h <;> cases h

/-- In every run, from a first start or a failover, "offline worker not found" and "failed
worker not found" are only reached for a worker that was never recorded in
`launchedWorkers`, or whose offline or dispatch-failed event was already delivered. -/
theorem notFound_of_step {fileNum : Int} {masterID : MasterID} {epoch : Epoch} {isInit : Bool}
    {timeouts : TimeoutConfig} {s : BaseJobMaster}
    (hr : Reachable decodeTaskStatus fileNum masterID epoch isInit timeouts s)
    {a : BaseJobMasterAction} {w : WorkerID}
    (h : step decodeTaskStatus s a = .error (.callback (.panic (.offlineWorkerNotFound w))) ∨
      step decodeTaskStatus s a = .error (.callback (.panic (.failedWorkerNotFound w)))) :
    w ∉ s.launched ∨ w ∈ s.touched := by
  have hnot : w ∉ s.impl.launchedWorkers := by
    rcases h with h | h <;> obtain ⟨wm, ev, -, hd⟩ := step_eq_callback decodeTaskStatus h
    · exact deliver_eq_notFound (s := { s with wm }) decodeTaskStatus (.inl hd)
    · exact deliver_eq_notFound (s := { s with wm }) decodeTaskStatus (.inr hd)
  by_cases hl : w ∈ s.launched
  · by_cases ht : w ∈ s.touched
    · exact .inr ht
    · exact absurd ((inv_of_reachable decodeTaskStatus hr).recorded w hl ht) hnot
  · exact .inl hl

/-- In every run the job master's own books hold at most one worker for each index. -/
theorem launched_one_worker_per_index {fileNum : Int} {masterID : MasterID} {epoch : Epoch}
    {isInit : Bool} {timeouts : TimeoutConfig} {s : BaseJobMaster}
    (hr : Reachable decodeTaskStatus fileNum masterID epoch isInit timeouts s) (w w' : WorkerID)
    (idx : Nat) (hw : s.impl.launchedWorkers.lookup w = some idx)
    (hw' : s.impl.launchedWorkers.lookup w' = some idx) : w = w' :=
  (inv_of_reachable decodeTaskStatus hr).consistent.uniqueWorker w w' idx hw hw'

end BaseJobMaster

/-! A failover of a job of one file. The worker `worker-0` of the previous incarnation
sends its heartbeat while `InitAfterRecover` waits, and is marked online with no online
event. `OnMasterRecovered` marks index `0` as needing a worker, so the first `Tick` creates
`worker-1` for it, which is dispatched. When `worker-0` later times out, its offline event
reaches `OnWorkerOffline`, which has never heard of it. -/

/-- Every task status decodes as that of the task of index `0`. -/
def taskOfIndexZero : List UInt8 → Except Error TaskStatus := fun _ => .ok ⟨0, ""⟩

/-- The job master `cvs-job` of one file, restarted after a failover in epoch `2`. -/
def failoverStart : BaseJobMaster :=
  BaseJobMaster.init 1 "cvs-job" 2 false TimeoutConfig.defaultTimeoutConfig

/-- The status `worker-0` persisted before the failover. -/
def persistedWorker : AList (fun _ : WorkerID => WorkerStatus) :=
  (∅ : AList (fun _ : WorkerID => WorkerStatus)).insert "worker-0" { code := .normal }

/-- The failover, up to the dispatch of `worker-1`. -/
def failoverTrace : List BaseJobMasterAction :=
  [.initAfterRecoverLoad (.ok persistedWorker),
    .handleHeartbeat ⟨0, "worker-0", 2, false⟩ "executor-0" 1000,
    .initAfterRecoverFinish,
    .onMasterRecovered (.ok [.ok ((∅ : AList (fun _ : Nat => String)).insert 0 "")]),
    .tick [0] [(true, "worker-1")] 2000,
    .creation 0 (.scheduleTaskReturned (.ok "executor-1")),
    .creation 0 (.addExecutorReturned (.ok ())),
    .creation 0 (.dispatch (.proceed "request-1") 2000),
    .creation 0 (.dispatch (.reply (.ok ()) 2100) 2100)]

/-- The failover, and the background checker after `worker-0` has stopped sending
heartbeats. -/
def recoveredTimeoutTrace : List BaseJobMasterAction :=
  failoverTrace ++ [.checkWorkerEntriesOnce 21500 ["worker-0", "worker-1"]]

/-- The state after `failoverTrace`. -/
def afterSecondWorker : BaseJobMaster :=
  match Transition.run (BaseJobMaster.step taskOfIndexZero) failoverStart failoverTrace with
  | .ok s => s
  | .error _ => failoverStart

/-- The state after `recoveredTimeoutTrace`. -/
def afterRecoveredTimeout : BaseJobMaster :=
  match Transition.run (BaseJobMaster.step taskOfIndexZero) failoverStart recoveredTimeoutTrace with
  | .ok s => s
  | .error _ => failoverStart

theorem reachable_afterSecondWorker :
    BaseJobMaster.Reachable taskOfIndexZero 1 "cvs-job" 2 false TimeoutConfig.defaultTimeoutConfig
      afterSecondWorker := by
  have hrun : Transition.run (BaseJobMaster.step taskOfIndexZero) failoverStart failoverTrace =
      .ok afterSecondWorker := rfl
  exact Transition.reachable_run .init (by decide) hrun

theorem reachable_afterRecoveredTimeout :
    BaseJobMaster.Reachable taskOfIndexZero 1 "cvs-job" 2 false TimeoutConfig.defaultTimeoutConfig
      afterRecoveredTimeout := by
  have hrun : Transition.run (BaseJobMaster.step taskOfIndexZero) failoverStart
      recoveredTimeoutTrace = .ok afterRecoveredTimeout := rfl
  exact Transition.reachable_run .init (by decide) hrun

/-- After a failover, two live workers are assigned index `0`, the recovered one and the
one `Tick` created; and the offline event of the recovered worker, which the job master
never recorded, ends in the panic "offline worker not found". -/
theorem recovered_worker_duplicated :
    BaseJobMaster.Reachable taskOfIndexZero 1 "cvs-job" 2 false TimeoutConfig.defaultTimeoutConfig
        afterSecondWorker ∧
      ¬ OneLiveWorkerPerIndex afterSecondWorker ∧
      BaseJobMaster.Reachable taskOfIndexZero 1 "cvs-job" 2 false
        TimeoutConfig.defaultTimeoutConfig afterRecoveredTimeout ∧
      "worker-0" ∉ afterRecoveredTimeout.launched ∧
      BaseJobMaster.step taskOfIndexZero afterRecoveredTimeout .pollEvent =
        .error (.callback (.panic (.offlineWorkerNotFound "worker-0"))) := by
  refine ⟨reachable_afterSecondWorker, fun h => ?_, reachable_afterRecoveredTimeout, by decide, rfl⟩
  -- `worker-0` is online and `worker-1` dispatched, both for index `0`
  have hsame := h "worker-0" "worker-1" 0 (by decide) (by decide) (by decide) (by decide)
  exact absurd hsame (by decide)

end Cvs

end Microcosm
