import Microcosm.Library.Transition
import Microcosm.Lib.Master.WorkerManager

/-!
# The worker manager among its goroutines

A `WorkerManager` is driven by several goroutines: the message handlers call
`HandleHeartbeat` and `OnWorkerStatusUpdateMessage`, the create-worker goroutines call
`BeforeStartingWorker` and `AbortCreatingWorker`, the background checker calls
`checkWorkerEntriesOnce`, the master's `Init` runs `InitAfterRecover`, and the master's
`Poll` runs `Tick` and the callbacks, which may call `Status()` on the handle they
receive or `CleanTombstone` on a tombstone handle. `Action` lists these calls and
`Harness.step` performs one of them; any interleaving is a list of actions.

The harness records the events handed to the callbacks, in order (`delivered`). A
callback that reads the status of its handle, as the DM job master's `OnWorkerOnline`
and `OnWorkerOffline` and the framework's status callback do, is the action
`tick true`: the read is made at delivery, and its panic is the step's.

The one contract the step does not check itself is the iteration order of
`checkWorkerEntriesOnce`: it must list the IDs of the map, each once (`allowed`).
-/

namespace Microcosm

namespace Master

/-- The calls made on a `WorkerManager` by the goroutines around it. -/
inductive Action
  | beforeStartingWorker (workerID : WorkerID) (executorID : ExecutorID) (now : Nat)
  | abortCreatingWorker (workerID : WorkerID) (err : Error)
  | handleHeartbeat (msg : HeartbeatPingMessage) (fromNode : ExecutorID) (now : Nat)
  | onWorkerStatusUpdateMessage (msg : WorkerStatusMessage)
  | checkWorkerEntriesOnce (now : Nat) (order : List WorkerID)
  | initAfterRecoverLoad
      (loaded : Except Error (AList (fun _ : WorkerID => WorkerStatus)))
  | initAfterRecoverFinish
  | tick (readsStatus : Bool)
  | removeTombstoneEntry (workerID : WorkerID)

/-- A worker manager and the events its callbacks have received. -/
structure Harness where
  wm : WorkerManager
  delivered : List MasterEvent

namespace Harness

/-- The harness around a manager that has delivered nothing yet. -/
def init (wm : WorkerManager) : Harness :=
  { wm, delivered := [] }

/-- Replace the manager. -/
def withManager (h : Harness) (wm : WorkerManager) : Harness :=
  { h with wm }

/-- Performing one call. `InitAfterRecover` is two steps, around its wait for
heartbeats; its first step fails when the metastore read fails, and its second step
only follows a first step that entered the waiting period. The background checker hands
the error of a failed enqueue to `errCenter`. -/
def step (h : Harness) : Action → Except Panic Harness
  | .beforeStartingWorker workerID executorID now =>
      (h.wm.beforeStartingWorker workerID executorID now).map h.withManager
  | .abortCreatingWorker workerID err => .ok (h.withManager (h.wm.abortCreatingWorker workerID err))
  | .handleHeartbeat msg fromNode now =>
      (h.wm.handleHeartbeat msg fromNode now).map h.withManager
  | .onWorkerStatusUpdateMessage msg => (h.wm.onWorkerStatusUpdateMessage msg).map h.withManager
  | .checkWorkerEntriesOnce now order =>
      match h.wm.checkWorkerEntriesOnce now order with
      | .error p => .error p
      | .ok (wm, none) => .ok (h.withManager wm)
      | .ok (wm, some err) => .ok (h.withManager (wm.onError err))
  | .initAfterRecoverLoad (.ok persisted) =>
      (h.wm.initAfterRecoverLoad persisted).map h.withManager
  | .initAfterRecoverLoad (.error err) =>
      if h.wm.state ≠ .loadingMeta then .error .initAfterRecoverUnreachable
      else .ok (h.withManager (h.wm.onError err))
  | .initAfterRecoverFinish =>
      if h.wm.state = .waitingHeartbeat then h.wm.initAfterRecoverFinish.map h.withManager
      else .ok h
  | .tick readsStatus =>
      match h.wm.tickOne with
      | .error p => .error p
      | .ok .idle => .ok h
      | .ok (.cancelled wm) => .ok (h.withManager wm)
      | .ok (.deliver wm event) =>
          if readsStatus then
            match event.handle.status wm with
            | .error p => .error p
            | .ok _ => .ok { wm, delivered := h.delivered ++ [event] }
          else .ok { wm, delivered := h.delivered ++ [event] }
  | .removeTombstoneEntry workerID => (h.wm.removeTombstoneEntry workerID).map h.withManager

-- Many proofs below unfold this definition, and Lean elaborates them in parallel: the empty
-- section generates its equation lemmas here, once, so that the proofs do not all wait on it.
-- The simp set outside the section is unchanged.
section
attribute [local simp] step
end

@[simp] theorem withManager_wm (h : Harness) (wm : WorkerManager) :
    (h.withManager wm).wm = wm := rfl

theorem map_withManager_eq_ok {h h' : Harness} {x : Except Panic WorkerManager}
    (hx : x.map h.withManager = .ok h') : ∃ wm, x = .ok wm ∧ h' = h.withManager wm := by
  cases x with
  | error p => cases hx
  | ok wm =>
      cases hx
      exact ⟨wm, rfl, rfl⟩

theorem map_withManager_eq_error {h : Harness} {x : Except Panic WorkerManager} {p : Panic}
    (hx : x.map h.withManager = .error p) : x = .error p := by
  cases x with
  | error p' =>
      cases hx
      rfl
  | ok wm => cases hx

/-- The iteration order given to `checkWorkerEntriesOnce` enumerates the map. -/
def allowed (h : Harness) : Action → Bool
  | .checkWorkerEntriesOnce _ order => order.isPerm h.wm.workerEntries.keys
  | _ => true

/-- The harnesses reachable from a newly created manager. -/
def Reachable (masterID : MasterID) (epoch : Epoch) (isInit : Bool)
    (timeouts : TimeoutConfig) : Harness → Prop :=
  Transition.Reachable step allowed (init (newWorkerManager masterID epoch isInit timeouts))

end Harness

end Master

end Microcosm
