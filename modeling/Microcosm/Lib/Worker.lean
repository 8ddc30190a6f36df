import Mathlib.Logic.Function.Basic
import Microcosm.Lib.Statusutil.Writer

/-!
# The worker's side of the heartbeat

`masterClient` and the two goroutines of `DefaultBaseWorker` that use it, from
`lib/worker.go`. The heartbeat goroutine (`runHeartbeatWorker`) sends a ping on every tick
of a `WorkerHeartbeatInterval` ticker, stamped with the worker's monotonic clock
(`SendHeartBeat`). The master answers a ping with a pong that carries the stamp back, and
the worker keeps the stamp of the last pong of the current epoch (`HandleHeartbeat`). The
watchdog (`runWatchDog`) checks on a second ticker of the same interval how long ago that
stamp was sent (`CheckMasterTimeout`): within twice the interval all is well, below
`WorkerTimeoutDuration` the worker reloads the master's record from the metastore
(`RefreshMasterInfo`), and beyond it the watchdog calls `ForceExit`.

Monotonic times are milliseconds, like every time of the model. The stamp the client
starts with is the `initTime` of `doPreInit`, which a later module takes apart.

The second part is the worker's status: `UpdateStatus`, `Exit` and the end of `doPostInit`
write the code, the error message and the extra bytes of their argument into the worker's
own `workerStatus` object, and hand that object to the `statusutil.Writer`. The writer
stores the object, so that from the second call on it compares the object with itself
(`sendStatus_of_holds`), and no later status reaches the metastore
(`status_update_not_persisted`).
-/

namespace Microcosm

namespace Lib

/-- `masterClient`, without the sender and the metastore client it calls through. -/
structure MasterClient where
  masterNode : ExecutorID
  masterEpoch : Epoch
  workerID : WorkerID
  lastMasterAckedPingTime : Nat
  /-- Whether the master has acknowledged that the worker finished. -/
  masterSideClosed : Bool
  timeoutConfig : TimeoutConfig
  deriving DecidableEq, Repr

/-- `newMasterClient`: no master node or epoch until `InitMasterInfoFromMeta`. -/
def newMasterClient (workerID : WorkerID) (initTime : Nat) : MasterClient :=
  { masterNode := ""
    masterEpoch := 0
    workerID
    lastMasterAckedPingTime := initTime
    masterSideClosed := false
    timeoutConfig := TimeoutConfig.defaultTimeoutConfig }

/-- What `CheckMasterTimeout` hands back to `runWatchDog`. -/
inductive WatchDogStep
  /-- `isNormal`: wait for the next tick. -/
  | next
  /-- `!isNormal`: `ForceExit` with `ErrWorkerSuicide`, and the goroutine returns. -/
  | forceExit (err : Error)
  /-- `CheckMasterTimeout` failed: the goroutine returns the error to `onError`. -/
  | failed (err : Error)
  deriving DecidableEq, Repr

namespace MasterClient

/-- `InitMasterInfoFromMeta`, with the master's node and epoch the metastore returned. -/
def initMasterInfoFromMeta (m : MasterClient) (masterMeta : Except Error (ExecutorID × Epoch)) :
    Except Error MasterClient :=
  match masterMeta with
  | .error err => .error err
  | .ok (node, epoch) => .ok { m with masterNode := node, masterEpoch := epoch }

/-- `HandleHeartbeat`, on a pong from `sender`. -/
def handleHeartbeat (m : MasterClient) (sender : ExecutorID) (msg : HeartbeatPongMessage) :
    MasterClient :=
  -- a pong of an older master is dropped; one of a newer master is adopted
  if msg.epoch < m.masterEpoch then m
  else
    let m := if msg.epoch > m.masterEpoch then { m with masterEpoch := msg.epoch, masterNode := sender }
      else m
    let m := if msg.isFinished then { m with masterSideClosed := true } else m
    { m with lastMasterAckedPingTime := msg.sendTime }

/-- `RefreshMasterInfo`, with what the metastore returned and what `onMasterFailOver`
(the worker's `OnMasterFailover`) returns if it is called. The client is changed in place
before the callback runs, so it is returned also when the call fails. -/
def refreshMasterInfo (m : MasterClient) (masterMeta : Except Error (ExecutorID × Epoch))
    (onMasterFailOver : Except Error Unit) : MasterClient × Except Error Unit :=
  match masterMeta with
  | .error err => (m, .error err)
  | .ok (node, epoch) =>
      let m := { m with masterNode := node }
      if m.masterEpoch < epoch then ({ m with masterEpoch := epoch }, onMasterFailOver)
      else (m, .ok ())

/-- `CheckMasterTimeout` at the monotonic reading `mono`. -/
def checkMasterTimeout (m : MasterClient) (mono : Nat)
    (masterMeta : Except Error (ExecutorID × Epoch)) (onMasterFailOver : Except Error Unit) :
    MasterClient × Except Error Bool :=
  let sinceLastAcked : Int := (mono : Int) - m.lastMasterAckedPingTime
  if sinceLastAcked ≤ 2 * m.timeoutConfig.workerHeartbeatInterval then (m, .ok true)
  else if sinceLastAcked < m.timeoutConfig.workerTimeoutDuration then
    match m.refreshMasterInfo masterMeta onMasterFailOver with
    | (m, .error err) => (m, .error err)
    | (m, .ok ()) => (m, .ok true)
  else (m, .ok false)

/-- `SendHeartBeat` at the monotonic reading `mono`: the ping, sent to `masterNode`. -/
def sendHeartBeat (m : MasterClient) (mono : Nat) (isFinished : Bool) : HeartbeatPingMessage :=
  { sendTime := mono, fromWorkerID := m.workerID, epoch := m.masterEpoch, isFinished }

/-- One iteration of the loop of `runWatchDog`, after its ticker fired. -/
def runWatchDogOnce (m : MasterClient) (masterID : MasterID) (mono : Nat)
    (masterMeta : Except Error (ExecutorID × Epoch)) (onMasterFailOver : Except Error Unit) :
    MasterClient × WatchDogStep :=
  match m.checkMasterTimeout mono masterMeta onMasterFailOver with
  | (m, .error err) => (m, .failed err)
  | (m, .ok true) => (m, .next)
  | (m, .ok false) => (m, .forceExit (.errWorkerSuicide masterID))

/-! The stamp is written only by a pong, and read only by the watchdog. -/

@[simp] theorem refreshMasterInfo_lastMasterAckedPingTime (m : MasterClient)
    (masterMeta : Except Error (ExecutorID × Epoch)) (onMasterFailOver : Except Error Unit) :
    (m.refreshMasterInfo masterMeta onMasterFailOver).1.lastMasterAckedPingTime =
      m.lastMasterAckedPingTime := by
  unfold refreshMasterInfo
  split
  · rfl
  · dsimp only
    split <;> rfl

/-- `CheckMasterTimeout` changes the client only through `RefreshMasterInfo`. -/
theorem checkMasterTimeout_fst (m : MasterClient) (mono : Nat)
    (masterMeta : Except Error (ExecutorID × Epoch)) (onMasterFailOver : Except Error Unit) :
    (m.checkMasterTimeout mono masterMeta onMasterFailOver).1 = m ∨
      (m.checkMasterTimeout mono masterMeta onMasterFailOver).1 =
        (m.refreshMasterInfo masterMeta onMasterFailOver).1 := by
  unfold checkMasterTimeout
  dsimp only
  split
  · exact .inl rfl
  · split
    · right
      split <;> rename_i h <;> rw [h]
    · exact .inl rfl

theorem runWatchDogOnce_fst (m : MasterClient) (masterID : MasterID) (mono : Nat)
    (masterMeta : Except Error (ExecutorID × Epoch)) (onMasterFailOver : Except Error Unit) :
    (m.runWatchDogOnce masterID mono masterMeta onMasterFailOver).1 =
      (m.checkMasterTimeout mono masterMeta onMasterFailOver).1 := by
  unfold runWatchDogOnce
  split <;> rename_i h <;> rw [h]

@[simp] theorem checkMasterTimeout_lastMasterAckedPingTime (m : MasterClient) (mono : Nat)
    (masterMeta : Except Error (ExecutorID × Epoch)) (onMasterFailOver : Except Error Unit) :
    (m.checkMasterTimeout mono masterMeta onMasterFailOver).1.lastMasterAckedPingTime =
      m.lastMasterAckedPingTime := by
  rcases checkMasterTimeout_fst m mono masterMeta onMasterFailOver with h | h <;> rw [h]
  exact refreshMasterInfo_lastMasterAckedPingTime m masterMeta onMasterFailOver

@[simp] theorem runWatchDogOnce_lastMasterAckedPingTime (m : MasterClient) (masterID : MasterID)
    (mono : Nat) (masterMeta : Except Error (ExecutorID × Epoch))
    (onMasterFailOver : Except Error Unit) :
    (m.runWatchDogOnce masterID mono masterMeta onMasterFailOver).1.lastMasterAckedPingTime =
      m.lastMasterAckedPingTime := by
  rw [runWatchDogOnce_fst, checkMasterTimeout_lastMasterAckedPingTime]

/-! The worker's ID is fixed, and a metastore that returns no newer epoch leaves the epoch. -/

@[simp] theorem refreshMasterInfo_workerID (m : MasterClient)
    (masterMeta : Except Error (ExecutorID × Epoch)) (onMasterFailOver : Except Error Unit) :
    (m.refreshMasterInfo masterMeta onMasterFailOver).1.workerID = m.workerID := by
  unfold refreshMasterInfo
  split
  · rfl
  · dsimp only
    split <;> rfl

@[simp] theorem refreshMasterInfo_timeoutConfig (m : MasterClient)
    (masterMeta : Except Error (ExecutorID × Epoch)) (onMasterFailOver : Except Error Unit) :
    (m.refreshMasterInfo masterMeta onMasterFailOver).1.timeoutConfig = m.timeoutConfig := by
  unfold refreshMasterInfo
  split
  · rfl
  · dsimp only
    split <;> rfl

theorem refreshMasterInfo_masterEpoch {m : MasterClient}
    {masterMeta : Except Error (ExecutorID × Epoch)} (onMasterFailOver : Except Error Unit)
    (hmeta : ∀ p, masterMeta = .ok p → p.2 ≤ m.masterEpoch) :
    (m.refreshMasterInfo masterMeta onMasterFailOver).1.masterEpoch = m.masterEpoch := by
  unfold refreshMasterInfo
  split
  · rfl
  · rename_i node epoch
    dsimp only
    rw [if_neg (Int.not_lt.2 (hmeta _ rfl))]

@[simp] theorem runWatchDogOnce_workerID (m : MasterClient) (masterID : MasterID) (mono : Nat)
    (masterMeta : Except Error (ExecutorID × Epoch)) (onMasterFailOver : Except Error Unit) :
    (m.runWatchDogOnce masterID mono masterMeta onMasterFailOver).1.workerID = m.workerID := by
  rw [runWatchDogOnce_fst]
  rcases checkMasterTimeout_fst m mono masterMeta onMasterFailOver with h | h <;> rw [h]
  exact refreshMasterInfo_workerID m masterMeta onMasterFailOver

theorem runWatchDogOnce_masterEpoch {m : MasterClient} (masterID : MasterID) (mono : Nat)
    {masterMeta : Except Error (ExecutorID × Epoch)} (onMasterFailOver : Except Error Unit)
    (hmeta : ∀ p, masterMeta = .ok p → p.2 ≤ m.masterEpoch) :
    (m.runWatchDogOnce masterID mono masterMeta onMasterFailOver).1.masterEpoch =
      m.masterEpoch := by
  rw [runWatchDogOnce_fst]
  rcases checkMasterTimeout_fst m mono masterMeta onMasterFailOver with h | h <;> rw [h]
  exact refreshMasterInfo_masterEpoch onMasterFailOver hmeta

@[simp] theorem runWatchDogOnce_timeoutConfig (m : MasterClient) (masterID : MasterID)
    (mono : Nat) (masterMeta : Except Error (ExecutorID × Epoch))
    (onMasterFailOver : Except Error Unit) :
    (m.runWatchDogOnce masterID mono masterMeta onMasterFailOver).1.timeoutConfig =
      m.timeoutConfig := by
  rw [runWatchDogOnce_fst]
  rcases checkMasterTimeout_fst m mono masterMeta onMasterFailOver with h | h <;> rw [h]
  exact refreshMasterInfo_timeoutConfig m masterMeta onMasterFailOver

@[simp] theorem handleHeartbeat_workerID (m : MasterClient) (sender : ExecutorID)
    (msg : HeartbeatPongMessage) : (m.handleHeartbeat sender msg).workerID = m.workerID := by
  unfold handleHeartbeat
  split
  · rfl
  · dsimp only
    split <;> split <;> rfl

@[simp] theorem handleHeartbeat_timeoutConfig (m : MasterClient) (sender : ExecutorID)
    (msg : HeartbeatPongMessage) :
    (m.handleHeartbeat sender msg).timeoutConfig = m.timeoutConfig := by
  unfold handleHeartbeat
  split
  · rfl
  · dsimp only
    split <;> split <;> rfl

/-- The epoch of the client only moves to the epoch of a pong or of the metastore. -/
theorem handleHeartbeat_masterEpoch (m : MasterClient) (sender : ExecutorID)
    (msg : HeartbeatPongMessage) :
    (m.handleHeartbeat sender msg).masterEpoch = m.masterEpoch ∨
      (m.handleHeartbeat sender msg).masterEpoch = msg.epoch := by
  unfold handleHeartbeat
  split
  · exact .inl rfl
  · dsimp only
    split <;> split <;> simp

/-- A pong of the client's epoch, or of a newer one, sets the stamp to the pong's. -/
theorem handleHeartbeat_lastMasterAckedPingTime (m : MasterClient) (sender : ExecutorID)
    (msg : HeartbeatPongMessage) :
    (m.handleHeartbeat sender msg).lastMasterAckedPingTime =
      if msg.epoch < m.masterEpoch then m.lastMasterAckedPingTime else msg.sendTime := by
  unfold handleHeartbeat
  split
  · rfl
  · rfl

/-- The check answers "not normal" only when the stamp is at least `WorkerTimeoutDuration`
old. -/
theorem checkMasterTimeout_eq_false {m : MasterClient} {mono : Nat}
    {masterMeta : Except Error (ExecutorID × Epoch)} {onMasterFailOver : Except Error Unit}
    (h : (m.checkMasterTimeout mono masterMeta onMasterFailOver).2 = .ok false) :
    (m.timeoutConfig.workerTimeoutDuration : Int) ≤ (mono : Int) - m.lastMasterAckedPingTime := by
  unfold checkMasterTimeout at h
  dsimp only at h
  split at h
  · cases h
  · split at h
    · split at h <;> cases h
    · omega

/-- The watchdog fires only when the stamp is at least `WorkerTimeoutDuration` old. -/
theorem runWatchDogOnce_eq_forceExit {m m' : MasterClient} {masterID : MasterID} {mono : Nat}
    {masterMeta : Except Error (ExecutorID × Epoch)} {onMasterFailOver : Except Error Unit}
    {err : Error}
    (h : m.runWatchDogOnce masterID mono masterMeta onMasterFailOver = (m', .forceExit err)) :
    (m.timeoutConfig.workerTimeoutDuration : Int) ≤ (mono : Int) - m.lastMasterAckedPingTime := by
  unfold runWatchDogOnce at h
  split at h
  · cases h
  · cases h
  · rename_i hc
    exact checkMasterTimeout_eq_false (by rw [hc])

/-- Below `WorkerTimeoutDuration` the watchdog does not fire. -/
theorem runWatchDogOnce_ne_forceExit {m : MasterClient} (masterID : MasterID) {mono : Nat}
    (masterMeta : Except Error (ExecutorID × Epoch)) (onMasterFailOver : Except Error Unit)
    (h : (mono : Int) - m.lastMasterAckedPingTime < m.timeoutConfig.workerTimeoutDuration) :
    ∀ err, (m.runWatchDogOnce masterID mono masterMeta onMasterFailOver).2 ≠ .forceExit err := by
  intro err hfire
  have := runWatchDogOnce_eq_forceExit (Prod.ext rfl hfire)
  omega

/-- A stamp at most twice the heartbeat interval old: the watchdog waits for its next tick
and leaves the client as it is. -/
theorem runWatchDogOnce_of_le {m : MasterClient} (masterID : MasterID) {mono : Nat}
    (masterMeta : Except Error (ExecutorID × Epoch)) (onMasterFailOver : Except Error Unit)
    (h : (mono : Int) - m.lastMasterAckedPingTime ≤ 2 * m.timeoutConfig.workerHeartbeatInterval) :
    m.runWatchDogOnce masterID mono masterMeta onMasterFailOver = (m, .next) := by
  simp [runWatchDogOnce, checkMasterTimeout, h]

/-- The watchdog waits for its next tick only while the stamp is at most twice the
heartbeat interval old, or younger than `WorkerTimeoutDuration`. -/
theorem runWatchDogOnce_eq_next {m m' : MasterClient} {masterID : MasterID} {mono : Nat}
    {masterMeta : Except Error (ExecutorID × Epoch)} {onMasterFailOver : Except Error Unit}
    (h : m.runWatchDogOnce masterID mono masterMeta onMasterFailOver = (m', .next)) :
    (mono : Int) - m.lastMasterAckedPingTime ≤ 2 * m.timeoutConfig.workerHeartbeatInterval ∨
      (mono : Int) - m.lastMasterAckedPingTime < m.timeoutConfig.workerTimeoutDuration := by
  unfold runWatchDogOnce at h
  split at h
  · cases h
  · rename_i hc
    unfold checkMasterTimeout at hc
    dsimp only at hc
    split at hc
    · exact .inl ‹_›
    · split at hc
      · exact .inr ‹_›
      · cases hc
  · cases h

end MasterClient

/-! ## Status updates -/

/-- The part of `DefaultBaseWorker` that its status calls use: the heap of status objects,
the address of the worker's `workerStatus`, its `statusSender`, and the worker's row of the
metastore. -/
structure StatusSide where
  heap : Nat → WorkerStatus
  workerStatus : Nat
  statusSender : Writer
  row : Option WorkerStatus

/-- A status call of a running worker, with the outcomes of its persisting write and of its
notification. -/
inductive StatusCall
  /-- `UpdateStatus(ctx, status)`. -/
  | updateStatus (status : WorkerStatus) (persist send : Except Error Unit)
  /-- `Exit(ctx, status, err)`. -/
  | exit (status : WorkerStatus) (err : Option Error) (persist send : Except Error Unit)

namespace StatusSide

/-- The worker of `NewBaseWorker`, whose `workerStatus` is the object at `ptr`. -/
def create (heap : Nat → WorkerStatus) (ptr : Nat) : StatusSide :=
  { heap, workerStatus := ptr, statusSender := newWriter, row := none }

/-- The object `w.workerStatus`. -/
def current (s : StatusSide) : WorkerStatus :=
  s.heap s.workerStatus

/-- The assignments to `w.workerStatus.Code`, `.ErrorMessage` and `.ExtBytes`. -/
def assign (s : StatusSide) (status : WorkerStatus) : StatusSide :=
  { s with
    heap := Function.update s.heap s.workerStatus
      { s.current with
        code := status.code, errorMessage := status.errorMessage, extBytes := status.extBytes } }

/-- `w.statusSender.UpdateStatus(ctx, w.workerStatus)`. -/
def sendStatus (s : StatusSide) (persist send : Except Error Unit) :
    StatusSide × Except Error Unit :=
  let r := s.statusSender.updateStatus s.heap s.row s.workerStatus persist send
  ({ s with statusSender := r.1, row := r.2.1 }, r.2.2)

/-- The status part of `doPostInit`: `UpsertWorker` of the object, then the code
`WorkerStatusInit` and the first `UpdateStatus`. -/
def doPostInit (s : StatusSide) (upsert persist send : Except Error Unit) :
    StatusSide × Except Error Unit :=
  match upsert with
  | .error err => (s, .error err)
  | .ok () =>
      let s := { s with row := some s.current }
      let s := { s with
        heap := Function.update s.heap s.workerStatus { s.current with code := .init } }
      s.sendStatus persist send

/-- `UpdateStatus`. -/
def updateStatus (s : StatusSide) (status : WorkerStatus) (persist send : Except Error Unit) :
    StatusSide × Except Error Unit :=
  (s.assign status).sendStatus persist send

/-- `Exit`: with an error the code is `WorkerStatusError`; once the status is sent, the call
returns `ErrWorkerFinish`. -/
def exit (s : StatusSide) (status : WorkerStatus) (err : Option Error)
    (persist send : Except Error Unit) : StatusSide × Except Error Unit :=
  let status := if err.isSome then { status with code := .error } else status
  match (s.assign status).sendStatus persist send with
  | (s, .error err₁) => (s, .error err₁)
  | (s, .ok ()) => (s, .error .errWorkerFinish)

/-- One status call. -/
def call (s : StatusSide) : StatusCall → StatusSide × Except Error Unit
  | .updateStatus status persist send => s.updateStatus status persist send
  | .exit status err persist send => s.exit status err persist send

/-- A sequence of status calls, each on the state the previous one left. -/
def runCalls : StatusSide → List StatusCall → StatusSide
  | s, [] => s
  | s, c :: cs => (s.call c).1.runCalls cs

/-- The worker after an `Init` whose upsert and first persisting write succeed. -/
def afterInit (heap : Nat → WorkerStatus) (ptr : Nat) (send : Except Error Unit) : StatusSide :=
  ((create heap ptr).doPostInit (.ok ()) (.ok ()) send).1

/-- The writer holds the worker's own object. -/
def Holds (s : StatusSide) : Prop :=
  s.statusSender.lastStatus = some s.workerStatus

@[simp] theorem assign_statusSender (s : StatusSide) (status : WorkerStatus) :
    (s.assign status).statusSender = s.statusSender := rfl

@[simp] theorem assign_workerStatus (s : StatusSide) (status : WorkerStatus) :
    (s.assign status).workerStatus = s.workerStatus := rfl

@[simp] theorem assign_row (s : StatusSide) (status : WorkerStatus) :
    (s.assign status).row = s.row := rfl

/-- Once the writer holds the worker's own object, handing it over again persists nothing:
the writer compares the object with itself. -/
theorem sendStatus_of_holds {s : StatusSide} (h : s.Holds) (persist send : Except Error Unit) :
    s.sendStatus persist send = (s, send) := by
  obtain ⟨heap, ptr, ⟨last⟩, row⟩ := s
  simp only [Holds] at h
  subst h
  simp only [sendStatus, Writer.updateStatus_same_object]

/-- A status call keeps the writer and the row of a worker whose writer holds its object,
and so keeps it holding the object. -/
theorem call_of_holds {s : StatusSide} (h : s.Holds) (c : StatusCall) :
    (s.call c).1.Holds ∧ (s.call c).1.row = s.row := by
  have hassign : ∀ status, (s.assign status).Holds := fun status => h
  cases c with
  | updateStatus status persist send =>
      simp only [call, updateStatus, sendStatus_of_holds (hassign status)]
      exact ⟨hassign status, rfl⟩
  | exit status err persist send =>
      simp only [call, exit, sendStatus_of_holds (hassign _)]
      cases send with
      | error e => exact ⟨hassign _, rfl⟩
      | ok u => exact ⟨hassign _, rfl⟩

/-- Over every sequence of calls, the row stays as it was when the writer took the worker's
object. -/
theorem runCalls_of_holds {s : StatusSide} (h : s.Holds) (calls : List StatusCall) :
    (s.runCalls calls).Holds ∧ (s.runCalls calls).row = s.row := by
  induction calls generalizing s with
  | nil => exact ⟨h, rfl⟩
  | cons c cs ih =>
      obtain ⟨hc, hrow⟩ := call_of_holds h c
      obtain ⟨hcs, hrow'⟩ := ih hc
      exact ⟨hcs, hrow'.trans hrow⟩

/-- `Init` leaves the row with the code `WorkerStatusInit`, and the writer holding the
worker's object. -/
theorem afterInit_holds (heap : Nat → WorkerStatus) (ptr : Nat) (send : Except Error Unit) :
    (afterInit heap ptr send).Holds ∧
      (afterInit heap ptr send).row = some { heap ptr with code := .init } := by
  simp [afterInit, create, doPostInit, sendStatus, Writer.updateStatus, Writer.changed,
    newWriter, updateWorker, current, Holds]

/-- After `Init` and any sequence of status calls, `UpdateStatus` with any status returns
without an error once its notification is delivered, whatever its persisting write would
do, and `Exit` returns `ErrWorkerFinish`; both leave the row with the code
`WorkerStatusInit`. -/
theorem status_update_not_persisted (heap : Nat → WorkerStatus) (ptr : Nat)
    (send₀ : Except Error Unit) (calls : List StatusCall) (status : WorkerStatus)
    (err : Option Error) (persist : Except Error Unit) :
    let s := (afterInit heap ptr send₀).runCalls calls
    (s.updateStatus status persist (.ok ())).2 = .ok () ∧
      (s.updateStatus status persist (.ok ())).1.row.map (·.code) = some .init ∧
      (s.exit status err persist (.ok ())).2 = .error .errWorkerFinish ∧
      (s.exit status err persist (.ok ())).1.row.map (·.code) = some .init := by
  intro s
  obtain ⟨hinit, hrow₀⟩ := afterInit_holds heap ptr send₀
  obtain ⟨hs, hrow⟩ := runCalls_of_holds hinit calls
  have hassign : ∀ status, (s.assign status).Holds := fun _ => hs
  have hcode : s.row.map (·.code) = some .init := by
    rw [hrow, hrow₀]
    rfl
  have hu : s.updateStatus status persist (.ok ()) = (s.assign status, .ok ()) :=
    sendStatus_of_holds (hassign status) persist _
  have he : s.exit status err persist (.ok ()) =
      (s.assign (if err.isSome then { status with code := .error } else status),
        .error .errWorkerFinish) := by
    simp only [exit, sendStatus_of_holds (hassign _)]
  rw [hu, he]
  exact ⟨rfl, hcode, rfl, hcode⟩

end StatusSide

end Lib

end Microcosm
