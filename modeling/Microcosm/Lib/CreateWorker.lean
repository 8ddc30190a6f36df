import Microcosm.Library.Transition
import Microcosm.Lib.Master.WorkerManager
import Microcosm.Client.TaskDispatcher

/-!
# Creating a worker

`DefaultBaseMaster.CreateWorker` of `lib/master.go`. The call takes a unit of the
create-worker quota, derives the worker ID from the config and returns it, after it has
launched a goroutine that asks the server master to schedule the task (`ScheduleTask`),
connects to the executor chosen (`AddExecutor`) and dispatches the task there
(`DispatchTask`), with the worker manager's `BeforeStartingWorker` and
`AbortCreatingWorker` as the dispatcher's two callbacks.

The goroutine is a process of its own, `Creation`. Its steps are the returns of its
three calls and, inside `DispatchTask`, the steps of a `DispatchTaskCall`; the outcome of
every call is chosen by the environment, and the only other party it acts on is the
worker manager. `createWorker_outcome` says what the goroutine has left in the worker
manager when it ends: everything its caller's comment "All cleaning up should have been
done in AbortCreatingWorker" relies on, except after a failed `PreDispatchTask`, where
`DispatchTask` returns without calling either callback and the manager is left as it was.
-/

namespace Microcosm

namespace Lib

open Master Client

/-- `WorkerType`, numbered from `1` in this order in `lib/common.go`. -/
inductive WorkerType
  | jobManager
  | cvsJobMaster
  | fakeJobMaster
  | dmJobMaster
  | cdcJobMaster
  | cvsTask
  | fakeTask
  | dmTask
  | cdcTask
  | workerDMDump
  | workerDMLoad
  | workerDMSync
  deriving DecidableEq, Repr

/-- The `WorkerConfig` handed to `CreateWorker`, an `interface{}`: the metadata of a job
master, which carries the job master's pre-allocated ID, or a config of the user's own
type, on which the encoder fails with `encodeErr`, if it fails. -/
inductive WorkerConfig
  | masterMeta (id : MasterID)
  | user (encodeErr : Option Error)
  deriving DecidableEq, Repr

/-- `prepareWorkerConfig`, for the worker ID it returns; `uuid` is the next string of the
master's UUID generator. The encoded config only travels to the executor. -/
def prepareWorkerConfig (workerType : WorkerType) (config : WorkerConfig) (uuid : WorkerID) :
    Except Error WorkerID :=
  match workerType, config with
  | .cvsJobMaster, .masterMeta id | .fakeJobMaster, .masterMeta id
  | .dmJobMaster, .masterMeta id => .ok id
  | .cvsJobMaster, .user _ | .fakeJobMaster, .user _ | .dmJobMaster, .user _ =>
      .error .errMasterInvalidMeta
  -- the DM workers encode with TOML and every other type with JSON; both encoders accept
  -- the metadata struct
  | _, .user (some err) => .error err
  | _, _ => .ok uuid

/-- `createWorkerTimeout`, the timeout of the goroutine's request context. -/
def createWorkerTimeout : Nat := 10 * second

/-- Where the goroutine of `CreateWorker` is. -/
inductive CreationPhase
  /-- Waiting for `ScheduleTask`. -/
  | scheduleTask
  /-- Waiting for `AddExecutor` on the executor `ScheduleTask` chose. -/
  | addExecutor (executorID : ExecutorID)
  /-- In `DispatchTask` on the executor. -/
  | dispatchTask (executorID : ExecutorID) (call : DispatchTaskCall)
  /-- `ScheduleTask` or `AddExecutor` failed: `AbortCreatingWorker` was called and the
  goroutine returned. -/
  | aborted
  deriving DecidableEq, Repr

/-- The goroutine launched by `CreateWorker` for `workerID`, whose request context ends
at `deadline`. -/
structure Creation where
  workerID : WorkerID
  deadline : Nat
  phase : CreationPhase
  deriving DecidableEq, Repr

/-- `CreateWorker` at time `now`: `quotaAcquired` says whether `createWorkerQuota.Consume`
got a unit before `createWorkerWaitQuotaTimeout`. It returns the worker ID and the
goroutine it launched. -/
def createWorker (workerType : WorkerType) (config : WorkerConfig) (quotaAcquired : Bool)
    (uuid : WorkerID) (now : Nat) : Except Error (WorkerID × Creation) :=
  if quotaAcquired then
    match prepareWorkerConfig workerType config uuid with
    | .error err => .error err
    | .ok workerID => .ok (workerID, ⟨workerID, now + createWorkerTimeout, .scheduleTask⟩)
  else .error .errMasterConcurrencyExceeded

/-- The events the goroutine reacts to. -/
inductive CreationEvent
  /-- `ScheduleTask` returned the executor chosen, or an error. -/
  | scheduleTaskReturned (reply : Except Error ExecutorID)
  /-- `AddExecutor` returned. -/
  | addExecutorReturned (result : Except Error Unit)
  /-- An event of the call of `DispatchTask`; `now` is the clock reading. -/
  | dispatch (ev : DispatchEvent) (now : Nat)
  deriving DecidableEq, Repr

/-- A panic of the goroutine: of the worker manager in a callback, or of the
dispatcher. -/
inductive CreationPanic
  | master (p : Master.Panic)
  | dispatcher (p : DispatchPanic)
  deriving DecidableEq, Repr

/-- The two closures handed to `DispatchTask`, run on the worker manager at `now`. -/
def runCallback (workerID : WorkerID) (executorID : ExecutorID) (now : Nat)
    (wm : WorkerManager) : Callback → Except Master.Panic WorkerManager
  | .startWorkerTimer => wm.beforeStartingWorker workerID executorID now
  | .abortWorker err => .ok (wm.abortCreatingWorker workerID err)

/-- The callbacks one step of `DispatchTask` makes, in order. -/
def runCallbacks (workerID : WorkerID) (executorID : ExecutorID) (now : Nat) :
    WorkerManager → List Callback → Except Master.Panic WorkerManager
  | wm, [] => .ok wm
  | wm, cb :: cbs =>
      match runCallback workerID executorID now wm cb with
      | .ok wm' => runCallbacks workerID executorID now wm' cbs
      | .error p => .error p

section
attribute [local simp] runCallbacks
end

theorem runCallbacks_frame {workerID : WorkerID} {executorID : ExecutorID} {now : Nat}
    {wm wm' : WorkerManager} {cbs : List Callback}
    (h : runCallbacks workerID executorID now wm cbs = .ok wm') : WorkerManager.Frame wm wm' := by
  induction cbs generalizing wm with
  | nil =>
      cases h
      rfl
  | cons cb cbs ih =>
      simp only [runCallbacks] at h
      split at h
      · rename_i wm'' hcb
        refine WorkerManager.Frame.trans ?_ (ih h)
        cases cb with
        | startWorkerTimer => exact WorkerManager.beforeStartingWorker_frame hcb
        | abortWorker err =>
            cases hcb
            exact WorkerManager.frame_enqueueOrReport wm _
      · cases h

namespace Creation

/-- The call of `DispatchTask` the goroutine makes on `executorID`, with the dispatcher's
retry interval and the deadline of its request context. -/
def dispatchCall (g : Creation) : DispatchTaskCall :=
  .start ⟨g.workerID⟩ preDispatchTaskRetryInterval (some g.deadline)

/-- One step of the goroutine together with the worker manager it calls into. An event
the goroutine is not waiting for changes nothing. -/
def step : Creation × WorkerManager → CreationEvent →
    Except CreationPanic (Creation × WorkerManager)
  | (g, wm), .scheduleTaskReturned reply =>
      match g.phase, reply with
      | .scheduleTask, .error err =>
          .ok ({ g with phase := .aborted }, wm.abortCreatingWorker g.workerID err)
      | .scheduleTask, .ok executorID => .ok ({ g with phase := .addExecutor executorID }, wm)
      | _, _ => .ok (g, wm)
  | (g, wm), .addExecutorReturned result =>
      match g.phase, result with
      | .addExecutor _, .error err =>
          .ok ({ g with phase := .aborted }, wm.abortCreatingWorker g.workerID err)
      | .addExecutor executorID, .ok () =>
          .ok ({ g with phase := .dispatchTask executorID g.dispatchCall }, wm)
      | _, _ => .ok (g, wm)
  | (g, wm), .dispatch ev now =>
      match g.phase with
      | .dispatchTask executorID call =>
          match call.step ev with
          | .error p => .error (.dispatcher p)
          | .ok (call', _, cbs) =>
              match runCallbacks g.workerID executorID now wm cbs with
              | .error p => .error (.master p)
              | .ok wm' => .ok ({ g with phase := .dispatchTask executorID call' }, wm')
      | _ => .ok (g, wm)

-- Many proofs below unfold this definition, and Lean elaborates them in parallel: the empty
-- section generates its equation lemmas here, once, so that the proofs do not all wait on it.
-- The simp set outside the section is unchanged.
section
attribute [local simp] step
end

/-- The states of the goroutine and the worker manager reachable from `(g₀, wm₀)`. -/
def Reachable (g₀ : Creation) (wm₀ : WorkerManager) : Creation × WorkerManager → Prop :=
  Transition.Reachable step (fun _ _ => true) (g₀, wm₀)

/-- The goroutine has returned. -/
def ended (g : Creation) : Bool :=
  match g.phase with
  | .aborted => true
  | .dispatchTask _ call => (call.phase matches .returned _)
  | _ => false

/-- The goroutine returned because `DispatchTask` failed with
`ErrExecutorPreDispatchFailed`. -/
def preDispatchFailed (g : Creation) : Bool :=
  match g.phase with
  | .dispatchTask _ call =>
      (call.phase matches .returned (.error (.errExecutorPreDispatchFailed _)))
  | _ => false

/-- What one step of the goroutine can do. -/
inductive Steps (g : Creation) (wm : WorkerManager) : Creation → WorkerManager → Prop
  | idle : Steps g wm g wm
  /-- `ScheduleTask` or `AddExecutor` failed. -/
  | abort (err : Error) : (g.phase = .scheduleTask ∨ ∃ e, g.phase = .addExecutor e) →
      Steps g wm { g with phase := .aborted } (wm.abortCreatingWorker g.workerID err)
  | scheduled (executorID : ExecutorID) : g.phase = .scheduleTask →
      Steps g wm { g with phase := .addExecutor executorID } wm
  | connected (executorID : ExecutorID) : g.phase = .addExecutor executorID →
      Steps g wm { g with phase := .dispatchTask executorID g.dispatchCall } wm
  /-- A step of `DispatchTask` and the callbacks it makes. -/
  | dispatch (executorID : ExecutorID) (call call' : DispatchTaskCall) (ev : DispatchEvent)
      (now : Nat) (sends : List ExecutorRequest) (cbs : List Callback) (wm' : WorkerManager) :
      g.phase = .dispatchTask executorID call → call.Moves ev call' sends cbs →
      runCallbacks g.workerID executorID now wm cbs = .ok wm' →
      Steps g wm { g with phase := .dispatchTask executorID call' } wm'

/-- Every step of the goroutine is one of the `Steps`. -/
theorem step_steps {g g' : Creation} {wm wm' : WorkerManager} {ev : CreationEvent}
    (h : step (g, wm) ev = .ok (g', wm')) : Steps g wm g' wm' := by
  cases ev with
  | scheduleTaskReturned reply =>
      simp only [step] at h
      split at h
      · cases h
        exact .abort _ (.inl ‹_›)
      · cases h
        exact .scheduled _ ‹_›
      · cases h
        exact .idle
  | addExecutorReturned result =>
      simp only [step] at h
      split at h
      · cases h
        exact .abort _ (.inr ⟨_, ‹_›⟩)
      · cases h
        exact .connected _ ‹_›
      · cases h
        exact .idle
  | dispatch ev now =>
      simp only [step] at h
      split at h
      · rename_i executorID call hphase
        split at h
        · cases h
        · rename_i call' sends cbs hcall
          split at h
          · cases h
          · rename_i hcbs
            cases h
            exact .dispatch executorID call call' ev now sends cbs _ hphase
              (DispatchTaskCall.step_moves hcall) hcbs
      · cases h
        exact .idle

/-- The goroutine never changes the worker ID it works for. -/
theorem Steps.workerID {g g' : Creation} {wm wm' : WorkerManager} (h : Steps g wm g' wm') :
    g'.workerID = g.workerID := by
  cases h <;> rfl

/-- The goroutine never changes the state, the epoch or the timeouts of the worker
manager. -/
theorem Steps.frame {g g' : Creation} {wm wm' : WorkerManager} (h : Steps g wm g' wm') :
    WorkerManager.Frame wm wm' := by
  cases h with
  | abort err _ => exact WorkerManager.frame_enqueueOrReport wm _
  | dispatch _ _ _ _ _ _ _ _ _ _ hcbs => exact runCallbacks_frame hcbs
  | _ => rfl

end Creation

/-- The worker manager knows `workerID`: it holds an entry for it, or a dispatch-failed
event for it is queued. -/
def Accounted (wm : WorkerManager) (workerID : WorkerID) : Prop :=
  workerID ∈ wm.workerEntries ∨
    ∃ ev ∈ wm.eventQueue, ev.tp = .workerDispatchFailedEvent ∧ ev.workerID = workerID

instance (wm : WorkerManager) (workerID : WorkerID) : Decidable (Accounted wm workerID) :=
  inferInstanceAs (Decidable (_ ∨ _))

/-- The phases of `DispatchTask` in which `startWorkerTimer` has not been called:
before a request was accepted, and after `PreDispatchTask` failed. -/
def NotStarted (p : DispatchPhase) : Prop :=
  p.BeforeConfirm ∨ ∃ err, p = .returned (.error (.errExecutorPreDispatchFailed err))

/-- The phases of `DispatchTask` after `startWorkerTimer` was called. -/
def Started (p : DispatchPhase) : Prop :=
  (∃ requestID, p = .confirming requestID) ∨ p = .returned (.ok ()) ∨
    ∃ err, p = .returned (.error (.errExecutorConfirmDispatchFailed err))

theorem not_started_of_notStarted {p : DispatchPhase} (h : NotStarted p) : ¬ Started p := by
  rcases h with h | ⟨err, rfl⟩
  · rintro (⟨r, rfl⟩ | rfl | ⟨err, rfl⟩) <;> exact h
  · rintro (⟨r, h⟩ | h | ⟨err', h⟩) <;> cases h

/-- What the goroutine has done to the worker manager, which was `wm₀` when the goroutine
started: nothing until `startWorkerTimer`, then an entry for the worker; after an early
failure, `AbortCreatingWorker`. -/
def CreationInv (wm₀ : WorkerManager) (g : Creation) (wm : WorkerManager) : Prop :=
  match g.phase with
  | .scheduleTask | .addExecutor _ => wm = wm₀ ∧ g.workerID ∉ wm₀.workerEntries
  | .dispatchTask _ call =>
      NotStarted call.phase ∧ wm = wm₀ ∧ g.workerID ∉ wm₀.workerEntries ∨
        Started call.phase ∧ g.workerID ∈ wm.workerEntries
  | .aborted => Accounted wm g.workerID ∨ wm.errCenter.isSome

namespace CreationInv

variable {wm₀ : WorkerManager}

/-- Before a request is accepted the goroutine has not touched the manager, so a move of the
call to a phase where it still has not keeps the first case of the invariant. -/
theorem of_beforeConfirm {p p' : DispatchPhase} {wm : WorkerManager} {fresh held : Prop}
    (hinv : NotStarted p ∧ wm = wm₀ ∧ fresh ∨ Started p ∧ held) (hp : p.BeforeConfirm)
    (hp' : NotStarted p') : NotStarted p' ∧ wm = wm₀ ∧ fresh ∨ Started p' ∧ held := by
  rcases hinv with ⟨-, hq⟩ | ⟨hs, -⟩
  · exact .inl ⟨hp', hq⟩
  · exact absurd hs (not_started_of_notStarted (.inl hp))

/-- A step of `DispatchTask` keeps the invariant, through the `Moves` of the call. -/
theorem dispatch {g : Creation} {wm wm' : WorkerManager} {executorID : ExecutorID}
    {call call' : DispatchTaskCall} {ev : DispatchEvent} {now : Nat}
    {sends : List ExecutorRequest} {cbs : List Callback}
    (hinv : CreationInv wm₀ { g with phase := .dispatchTask executorID call } wm)
    (hmv : call.Moves ev call' sends cbs)
    (hcbs : runCallbacks g.workerID executorID now wm cbs = .ok wm') :
    CreationInv wm₀ { g with phase := .dispatchTask executorID call' } wm' := by
  simp only [CreationInv] at hinv ⊢
  cases hmv with
  | idle =>
      cases hcbs
      exact hinv
  | cancel err =>
      cases hcbs
      exact hinv
  | giveUp _ err hbefore =>
      cases hcbs
      -- `startWorkerTimer` was never called, so the manager is the one the goroutine
      -- started from
      exact of_beforeConfirm hinv hbefore (.inr ⟨err, rfl⟩)
  | wait requestID _ hp =>
      cases hcbs
      exact of_beforeConfirm hinv (by rw [hp]; trivial) (.inl trivial)
  | retry hp =>
      cases hcbs
      exact of_beforeConfirm hinv (by rw [hp]; trivial) (.inl trivial)
  | send requestID hp _ =>
      cases hcbs
      exact of_beforeConfirm hinv (by rw [hp]; trivial) (.inl trivial)
  | accepted requestID _ hp =>
      -- the only call of `BeforeStartingWorker`: the manager has no entry for the worker
      -- yet, so the entry is made
      rcases hinv with ⟨-, rfl, hnew⟩ | ⟨hs, -⟩
      · simp only [runCallbacks, runCallback] at hcbs
        split at hcbs
        · rename_i wm'' hb
          cases hcbs
          exact .inr ⟨.inl ⟨requestID, rfl⟩, WorkerManager.beforeStartingWorker_mem hb⟩
        · rename_i hb
          obtain ⟨_, hok⟩ := WorkerManager.beforeStartingWorker_eq_ok executorID now hnew
          rw [hok] at hb
          cases hb
      · exact absurd hs (not_started_of_notStarted (.inl (by rw [hp]; trivial)))
  | confirmed requestID _ _ hp =>
      cases hcbs
      rcases hinv with ⟨hn, -⟩ | ⟨-, hmem⟩
      · exact absurd (.inl ⟨requestID, hp⟩) (not_started_of_notStarted hn)
      · exact .inr ⟨.inr (.inl rfl), hmem⟩
  | aborted requestID err _ hp _ =>
      simp only [runCallbacks, runCallback] at hcbs
      cases hcbs
      rcases hinv with ⟨hn, -⟩ | ⟨-, hmem⟩
      · exact absurd (.inl ⟨requestID, hp⟩) (not_started_of_notStarted hn)
      · refine .inr ⟨.inr (.inr ⟨err, rfl⟩), ?_⟩
        rwa [WorkerManager.abortCreatingWorker_workerEntries]

/-- Every step of the goroutine keeps the invariant. -/
theorem step {g g' : Creation} {wm wm' : WorkerManager} (hinv : CreationInv wm₀ g wm)
    (h : Creation.Steps g wm g' wm') : CreationInv wm₀ g' wm' := by
  cases h with
  | idle => exact hinv
  | abort err _ =>
      simp only [CreationInv]
      rcases WorkerManager.abortCreatingWorker_reported wm g.workerID err with h | h
      · exact .inl (.inr h)
      · exact .inr h
  | scheduled executorID hp =>
      simp only [CreationInv, hp] at hinv ⊢
      exact hinv
  | connected executorID hp =>
      simp only [CreationInv, hp] at hinv ⊢
      exact .inl ⟨.inl trivial, hinv⟩
  | dispatch executorID call call' ev now sends cbs wm' hp hmv hcbs =>
      have hg : g = { g with phase := .dispatchTask executorID call } := by
        cases g
        cases hp
        rfl
      rw [hg] at hinv
      exact CreationInv.dispatch hinv hmv hcbs

end CreationInv

theorem createWorker_eq_ok {workerType : WorkerType} {config : WorkerConfig}
    {quotaAcquired : Bool} {uuid : WorkerID} {now : Nat} {workerID : WorkerID} {g₀ : Creation}
    (h : createWorker workerType config quotaAcquired uuid now = .ok (workerID, g₀)) :
    g₀.workerID = workerID ∧ g₀.phase = .scheduleTask := by
  unfold createWorker at h
  split at h
  · split at h
    · cases h
    · cases h
      exact ⟨rfl, rfl⟩
  · cases h

namespace Creation

/-- The invariant holds in every state reached from a goroutine that has not called
`ScheduleTask` yet, for a worker the manager does not know. -/
theorem inv_of_reachable {g₀ : Creation} {wm₀ : WorkerManager} (h₀ : g₀.phase = .scheduleTask)
    (hnew : g₀.workerID ∉ wm₀.workerEntries) {s : Creation × WorkerManager}
    (hr : Reachable g₀ wm₀ s) : CreationInv wm₀ s.1 s.2 ∧ s.1.workerID = g₀.workerID := by
  refine Transition.Reachable.inv
    (P := fun s => CreationInv wm₀ s.1 s.2 ∧ s.1.workerID = g₀.workerID) ?_ ?_ hr
  · refine ⟨?_, rfl⟩
    simpa [CreationInv, h₀] using hnew
  · rintro ⟨g, wm⟩ ev ⟨g', wm'⟩ ⟨hinv, hid⟩ - hs
    have hst := step_steps hs
    exact ⟨hinv.step hst, hst.workerID.trans hid⟩

/-- The only failure of a step in the worker manager is that of a callback. -/
theorem step_eq_error_master {g : Creation} {wm : WorkerManager} {ev : CreationEvent}
    {p : Master.Panic} (h : step (g, wm) ev = .error (.master p)) :
    ∃ executorID call call' ev' now sends cbs, g.phase = .dispatchTask executorID call ∧
      call.Moves ev' call' sends cbs ∧ runCallbacks g.workerID executorID now wm cbs = .error p := by
  cases ev with
  | scheduleTaskReturned reply => simp only [step] at h; split at h <;> cases h
  | addExecutorReturned result => simp only [step] at h; split at h <;> cases h
  | dispatch ev now =>
      simp only [step] at h
      split at h
      · rename_i executorID call hphase
        split at h
        · cases h
        · rename_i call' sends cbs hcall
          split at h
          · rename_i p' hcbs
            cases h
            exact ⟨executorID, call, call', ev, now, sends, cbs, hphase,
              DispatchTaskCall.step_moves hcall, hcbs⟩
          · cases h
      · cases h

end Creation

/-- The phase `DispatchTask` returned in tells a failed `PreDispatchTask` from the other
outcomes. -/
theorem preDispatchFailed_of_notStarted {g : Creation} {executorID : ExecutorID}
    {call : DispatchTaskCall} (hp : g.phase = .dispatchTask executorID call)
    (hn : NotStarted call.phase) (hend : g.ended = true) : g.preDispatchFailed = true := by
  rcases hn with hb | ⟨err, he⟩
  · simp only [Creation.ended, hp] at hend
    revert hb hend
    cases call.phase <;> simp [DispatchPhase.BeforeConfirm]
  · simp [Creation.preDispatchFailed, hp, he]

theorem not_preDispatchFailed_of_started {g : Creation} {executorID : ExecutorID}
    {call : DispatchTaskCall} (hp : g.phase = .dispatchTask executorID call)
    (hs : Started call.phase) : g.preDispatchFailed = false := by
  rcases hs with ⟨r, he⟩ | he | ⟨err, he⟩ <;> simp [Creation.preDispatchFailed, hp, he]

/-- What the goroutine of `CreateWorker` leaves in the worker manager when it ends, over
every outcome of `ScheduleTask`, `AddExecutor` and each step of `DispatchTask`: after a
failed `PreDispatchTask` the manager is exactly as the goroutine found it; otherwise it
holds an entry for the worker ID `CreateWorker` returned, or a dispatch-failed event for
it, or the error of a full event queue was reported. -/
theorem createWorker_outcome {workerType : WorkerType} {config : WorkerConfig}
    {quotaAcquired : Bool} {uuid : WorkerID} {now : Nat} {workerID : WorkerID} {g₀ : Creation}
    (hc : createWorker workerType config quotaAcquired uuid now = .ok (workerID, g₀))
    {wm₀ : WorkerManager} (hnew : workerID ∉ wm₀.workerEntries) {g : Creation}
    {wm : WorkerManager} (hr : Creation.Reachable g₀ wm₀ (g, wm)) (hend : g.ended = true) :
    (g.preDispatchFailed = true → wm = wm₀) ∧
      (g.preDispatchFailed = false → Accounted wm workerID ∨ wm.errCenter.isSome) := by
  obtain ⟨hid₀, hp₀⟩ := createWorker_eq_ok hc
  obtain ⟨hinv, hid⟩ := Creation.inv_of_reachable hp₀ (hid₀ ▸ hnew) hr
  dsimp only at hinv hid
  rw [hid₀] at hid
  subst hid
  cases hp : g.phase with
  | scheduleTask => simp [Creation.ended, hp] at hend
  | addExecutor _ => simp [Creation.ended, hp] at hend
  | aborted =>
      simp only [CreationInv, hp] at hinv
      exact ⟨fun h => by simp [Creation.preDispatchFailed, hp] at h, fun _ => hinv⟩
  | dispatchTask executorID call =>
      simp only [CreationInv, hp] at hinv
      rcases hinv with ⟨hn, rfl, -⟩ | ⟨hs, hmem⟩
      · have hf := preDispatchFailed_of_notStarted hp hn hend
        exact ⟨fun _ => rfl, fun h => by simp [hf] at h⟩
      · have hf := not_preDispatchFailed_of_started hp hs
        exact ⟨fun h => by simp [hf] at h, fun _ => .inl (.inl hmem)⟩

/-- The goroutine never reaches the panic of `BeforeStartingWorker` for a worker ID the
manager did not know: `startWorkerTimer` is called at most once, and only before any
other change to the manager. -/
theorem createWorker_no_master_panic {g₀ : Creation} {wm₀ : WorkerManager}
    (h₀ : g₀.phase = .scheduleTask) (hnew : g₀.workerID ∉ wm₀.workerEntries) :
    ¬ Transition.PanicReachable Creation.step (fun _ _ => true) (g₀, wm₀)
      (fun e => ∃ p, e = .master p) := by
  refine Transition.not_panicReachable (fun s hs => Creation.inv_of_reachable h₀ hnew hs) ?_
  rintro ⟨g, wm⟩ ev e ⟨hinv, -⟩ - he ⟨p, rfl⟩
  obtain ⟨executorID, call, call', ev', now, sends, cbs, hp, hmv, hcbs⟩ :=
    Creation.step_eq_error_master he
  simp only [CreationInv, hp] at hinv
  -- only `accepted` makes a callback that can fail, and it happens before `startWorkerTimer`
  cases hmv with
  | accepted requestID _ hpre =>
      rcases hinv with ⟨-, rfl, hnew'⟩ | ⟨hs, -⟩
      · obtain ⟨_, hok⟩ := WorkerManager.beforeStartingWorker_eq_ok executorID now hnew'
        simp only [runCallbacks, runCallback, hok] at hcbs
        cases hcbs
      · exact not_started_of_notStarted (.inl (by simp [hpre, DispatchPhase.BeforeConfirm])) hs
  | aborted => simp [runCallbacks, runCallback] at hcbs
  | idle | cancel | giveUp | wait | retry | send | confirmed => cases hcbs

/-- The goroutine `CreateWorker` launches at time `0` for the job master `job-1`. -/
def jobMasterCreation : Creation := ⟨"job-1", createWorkerTimeout, .scheduleTask⟩

/-- A fresh worker manager of the master `jm`. -/
def freshManager : WorkerManager :=
  newWorkerManager "jm" 1 true TimeoutConfig.defaultTimeoutConfig

/-- `ScheduleTask` picks `executor-1`, `AddExecutor` succeeds, and the executor answers the
first `PreDispatchTask` with `Aborted`, as it does when its `makeTask` fails. -/
def preDispatchAborted : List CreationEvent :=
  [.scheduleTaskReturned (.ok "executor-1"), .addExecutorReturned (.ok ()),
    .dispatch (.proceed "request-1") 0, .dispatch (.reply (.error (.status .aborted)) 1) 1]

/-- The goroutine and the manager after `preDispatchAborted`. -/
def afterPreDispatchAborted : Creation × WorkerManager :=
  match Transition.run Creation.step (jobMasterCreation, freshManager) preDispatchAborted with
  | .ok s => s
  | .error _ => (jobMasterCreation, freshManager)

theorem reachable_afterPreDispatchAborted :
    Creation.Reachable jobMasterCreation freshManager afterPreDispatchAborted := by
  have hrun : Transition.run Creation.step (jobMasterCreation, freshManager)
      preDispatchAborted = .ok afterPreDispatchAborted := rfl
  exact Transition.reachable_run .init (by decide) hrun

/-- `CreateWorker` returns `job-1`, and its goroutine ends with the worker manager knowing
nothing of `job-1`: no entry, no dispatch-failed event, no error reported. -/
theorem preDispatch_failure_leaves_worker_unknown :
    createWorker .fakeJobMaster (.masterMeta "job-1") true "uuid-1" 0 =
        .ok ("job-1", jobMasterCreation) ∧
      Creation.Reachable jobMasterCreation freshManager afterPreDispatchAborted ∧
      afterPreDispatchAborted.1.ended = true ∧
      afterPreDispatchAborted.1.preDispatchFailed = true ∧
      ¬ Accounted afterPreDispatchAborted.2 "job-1" ∧
      afterPreDispatchAborted.2.errCenter = none :=
  ⟨rfl, reachable_afterPreDispatchAborted, by decide, by decide, by decide, by decide⟩

end Lib

end Microcosm
