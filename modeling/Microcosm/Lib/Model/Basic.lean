import Microcosm.Pkg.Errors

/-!
# The data model of the master-worker framework

Identifiers, worker statuses, the heartbeat and status messages, and the timeout
configuration, from `lib/model`, `lib/statusutil/message.go` and `lib/config`.

Identifiers are strings, as in the source. Times and durations are natural numbers of
milliseconds: the code only adds durations to times and compares times, and every
duration it uses is a whole number of milliseconds. A `time.Time{}` is the time `0`.

`WorkerStatus` keeps the three fields the framework reads and writes (`Code`,
`ErrorMessage`, `ExtBytes`); the identity fields filled in by the metastore layer
(`ProjectID`, `JobID`, `ID`, `Type` and the ORM columns) are not read by any modelled
function.
-/

namespace Microcosm

/-- `libModel.WorkerID`. -/
abbrev WorkerID := String

/-- `libModel.MasterID`. -/
abbrev MasterID := String

/-- `model.ExecutorID`, which is also the `p2p.NodeID` of the executor. -/
abbrev ExecutorID := String

/-- `libModel.Epoch`, an `int64`. -/
abbrev Epoch := Int

/-- `time.Second`, in milliseconds. -/
def second : Nat := 1000

/-- `libModel.WorkerStatusCode`, numbered from `1` in this order in the source. -/
inductive WorkerStatusCode
  | normal
  | created
  | init
  | error
  | finished
  | stopped
  deriving DecidableEq, Repr

/-- `libModel.WorkerStatus`, restricted to the fields the framework reads. -/
structure WorkerStatus where
  code : WorkerStatusCode
  errorMessage : String := ""
  extBytes : List UInt8 := []
  deriving DecidableEq, Repr

namespace WorkerStatus

/-- `(*WorkerStatus).HasSignificantChange`: the code or the error message differ. -/
def hasSignificantChange (s other : WorkerStatus) : Bool :=
  s.code != other.code || s.errorMessage != other.errorMessage

theorem hasSignificantChange_eq_false_iff {s other : WorkerStatus} :
    s.hasSignificantChange other = false ↔
      s.code = other.code ∧ s.errorMessage = other.errorMessage := by
  simp [hasSignificantChange]

@[simp] theorem hasSignificantChange_self (s : WorkerStatus) : s.hasSignificantChange s = false :=
  hasSignificantChange_eq_false_iff.2 ⟨rfl, rfl⟩

theorem hasSignificantChange_trans {a b c : WorkerStatus} (hab : a.hasSignificantChange b = false)
    (hbc : b.hasSignificantChange c = false) : a.hasSignificantChange c = false := by
  rw [hasSignificantChange_eq_false_iff] at hab hbc ⊢
  exact ⟨hab.1.trans hbc.1, hab.2.trans hbc.2⟩

/-- `(*WorkerStatus).InTerminateState`. -/
def inTerminateState (s : WorkerStatus) : Bool :=
  match s.code with
  | .finished | .stopped | .error => true
  | _ => false

end WorkerStatus

/-- `libModel.HeartbeatPingMessage`. -/
structure HeartbeatPingMessage where
  sendTime : Nat
  fromWorkerID : WorkerID
  epoch : Epoch
  isFinished : Bool
  deriving DecidableEq, Repr

/-- `libModel.HeartbeatPongMessage`. -/
structure HeartbeatPongMessage where
  sendTime : Nat
  replyTime : Nat
  toWorkerID : WorkerID
  epoch : Epoch
  isFinished : Bool
  deriving DecidableEq, Repr

/-- `statusutil.WorkerStatusMessage`. -/
structure WorkerStatusMessage where
  worker : WorkerID
  masterEpoch : Epoch
  status : Option WorkerStatus
  deriving DecidableEq, Repr

/-- `config.TimeoutConfig`. -/
structure TimeoutConfig where
  workerTimeoutDuration : Nat
  workerTimeoutGracefulDuration : Nat
  workerHeartbeatInterval : Nat
  workerReportStatusInterval : Nat
  masterHeartbeatCheckLoopInterval : Nat
  deriving DecidableEq, Repr

namespace TimeoutConfig

/-- `TimeoutConfig.Adjust`: the worker timeout is raised to at least twice the
heartbeat interval plus three seconds. -/
def adjust (config : TimeoutConfig) : TimeoutConfig :=
  if config.workerTimeoutDuration < 2 * config.workerHeartbeatInterval + second * 3 then
    { config with
      workerTimeoutDuration := 2 * config.workerHeartbeatInterval + second * 3 }
  else config

/-- `defaultTimeoutConfig`, adjusted as in the source. -/
def defaultTimeoutConfig : TimeoutConfig :=
  adjust
    { workerTimeoutDuration := second * 15
      workerTimeoutGracefulDuration := second * 5
      workerHeartbeatInterval := second * 3
      workerReportStatusInterval := second * 3
      masterHeartbeatCheckLoopInterval := second * 1 }

@[simp] theorem defaultTimeoutConfig_workerTimeoutDuration :
    defaultTimeoutConfig.workerTimeoutDuration = 15000 := rfl

@[simp] theorem defaultTimeoutConfig_workerTimeoutGracefulDuration :
    defaultTimeoutConfig.workerTimeoutGracefulDuration = 5000 := rfl

@[simp] theorem defaultTimeoutConfig_workerHeartbeatInterval :
    defaultTimeoutConfig.workerHeartbeatInterval = 3000 := rfl

/-- The adjusted timeout always exceeds twice the heartbeat interval. -/
theorem two_mul_heartbeat_lt_adjust (config : TimeoutConfig) :
    2 * config.workerHeartbeatInterval < (adjust config).workerTimeoutDuration := by
  unfold adjust
  split
  · simp [second]
  · rename_i hge
    have hsec : 0 < second := by decide
    omega

end TimeoutConfig

end Microcosm
