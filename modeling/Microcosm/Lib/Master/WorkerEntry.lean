import Microcosm.Lib.Model.Basic

/-!
# Worker entries

`lib/master/worker_entry.go`. A `workerEntry` is the record the `WorkerManager` keeps
for one worker. Its state follows the diagram of the source:

```
workerEntryCreated --heartbeat--> workerEntryNormal <--heartbeat-- workerEntryWait
      |                                |                                 |
   timeout                          timeout                           timeout
      v                                v                                 v
workerEntryOffline ----------------callback---------------------> workerEntryTombstone
```

The three `Mark` methods panic with "Unreachable" on any state the diagram does not
allow them to leave; `markAsTombstone` also accepts an entry that has received a
heartbeat with `IsFinished`. A panic is the error of an `Except Panic`; `Panic` names
every panic site of the package, so that the properties of the manager can say which
panic they exclude.

The abstract layer is `WorkerEntryState.rank`: every state change the methods make
raises the rank, so an entry passes through each state at most once. The manager's
event-ordering results rest on this.
-/

namespace Microcosm

namespace Master

/-- `workerEntryState`, numbered from `1` in this order in the source. -/
inductive WorkerEntryState
  | wait
  | created
  | normal
  | offline
  | tombstone
  deriving DecidableEq, Repr

/-- The panics of `lib/master`, by their call site. -/
inductive Panic
  /-- "Unreachable" in `workerEntry.MarkAsTombstone`. -/
  | markAsTombstoneUnreachable
  /-- "Unreachable" in `workerEntry.MarkAsOnline`. -/
  | markAsOnlineUnreachable
  /-- "Unreachable" in `workerEntry.MarkAsOffline`. -/
  | markAsOfflineUnreachable
  /-- "Unreachable: not a tombstone" in `WorkerManager.removeTombstoneEntry`. -/
  | notATombstone
  /-- "Using a stale handle" in `runningHandleImpl.Status` and
  `tombstoneHandleImpl.Status`. -/
  | staleHandle
  /-- "worker already exists" in `WorkerManager.BeforeStartingWorker`. -/
  | workerAlreadyExists
  /-- "We are a stale master still running" in `checkMasterEpochMatch`. -/
  | staleMaster
  /-- "Unreachable" in `WorkerManager.InitAfterRecover`, called twice. -/
  | initAfterRecoverUnreachable
  /-- The Go runtime's "close of closed channel", on `allWorkersReady`. -/
  | closeOfClosedChannel
  deriving DecidableEq, Repr

/-- `workerEntry`. The mutexes of the source only make each method atomic. -/
structure WorkerEntry where
  id : WorkerID
  executorID : ExecutorID
  expireAt : Nat
  state : WorkerEntryState
  receivedFinish : Bool
  status : Option WorkerStatus
  deriving DecidableEq, Repr

instance : Inhabited WorkerEntry :=
  ⟨{ id := "", executorID := "", expireAt := 0, state := .wait, receivedFinish := false,
     status := none }⟩

/-- `newWorkerEntry`. -/
def newWorkerEntry (id : WorkerID) (executorID : ExecutorID) (expireAt : Nat)
    (state : WorkerEntryState) (initWorkerStatus : Option WorkerStatus) : WorkerEntry :=
  { id, executorID, expireAt, state, receivedFinish := false, status := initWorkerStatus }

/-- `newWaitingWorkerEntry`: no executor yet and the zero expiry time. -/
def newWaitingWorkerEntry (id : WorkerID) (lastStatus : Option WorkerStatus) :
    WorkerEntry :=
  newWorkerEntry id "" 0 .wait lastStatus

namespace WorkerEntry

/-- `MarkAsTombstone`. -/
def markAsTombstone (e : WorkerEntry) : Except Panic WorkerEntry :=
  if e.state = .wait ∨ e.state = .offline ∨ e.receivedFinish = true then
    .ok { e with state := .tombstone }
  else .error .markAsTombstoneUnreachable

/-- `IsTombstone`. -/
def isTombstone (e : WorkerEntry) : Bool :=
  e.state == .tombstone

/-- `MarkAsOnline`. -/
def markAsOnline (e : WorkerEntry) (executor : ExecutorID) (expireAt : Nat) :
    Except Panic WorkerEntry :=
  if e.state = .created ∨ e.state = .wait then
    .ok { e with state := .normal, expireAt, executorID := executor }
  else .error .markAsOnlineUnreachable

/-- `MarkAsOffline`. -/
def markAsOffline (e : WorkerEntry) : Except Panic WorkerEntry :=
  if e.state = .created ∨ e.state = .normal then .ok { e with state := .offline }
  else .error .markAsOfflineUnreachable

/-- `UpdateStatus`. -/
def updateStatus (e : WorkerEntry) (status : Option WorkerStatus) : WorkerEntry :=
  { e with status }

/-- `SetExpireTime`. -/
def setExpireTime (e : WorkerEntry) (expireAt : Nat) : WorkerEntry :=
  { e with expireAt }

/-- `SetFinished`. -/
def setFinished (e : WorkerEntry) : WorkerEntry :=
  { e with receivedFinish := true }

/-- `IsFinished`. -/
def isFinished (e : WorkerEntry) : Bool :=
  e.receivedFinish

theorem markAsTombstone_eq_ok {e e' : WorkerEntry} :
    e.markAsTombstone = .ok e' ↔
      (e.state = .wait ∨ e.state = .offline ∨ e.receivedFinish = true) ∧
        e' = { e with state := .tombstone } := by
  unfold markAsTombstone
  split
  · rename_i h
    simp only [Except.ok.injEq, h, true_and]
    exact eq_comm
  · rename_i h
    simp [h]

theorem markAsOnline_eq_ok {e e' : WorkerEntry} {executor : ExecutorID} {t : Nat} :
    e.markAsOnline executor t = .ok e' ↔
      (e.state = .created ∨ e.state = .wait) ∧
        e' = { e with state := .normal, expireAt := t, executorID := executor } := by
  unfold markAsOnline
  split <;> simp_all [eq_comm]

theorem markAsOffline_eq_ok {e e' : WorkerEntry} :
    e.markAsOffline = .ok e' ↔
      (e.state = .created ∨ e.state = .normal) ∧ e' = { e with state := .offline } := by
  unfold markAsOffline
  split <;> simp_all [eq_comm]

theorem markAsTombstone_eq_error {e : WorkerEntry} {p : Panic} :
    e.markAsTombstone = .error p ↔
      ¬ (e.state = .wait ∨ e.state = .offline ∨ e.receivedFinish = true) ∧
        p = .markAsTombstoneUnreachable := by
  unfold markAsTombstone
  split
  · rename_i h
    simp [h]
  · rename_i h
    simp only [Except.error.injEq, h, not_false_eq_true, true_and]
    exact eq_comm

theorem markAsOnline_eq_error {e : WorkerEntry} {executor : ExecutorID} {t : Nat}
    {p : Panic} :
    e.markAsOnline executor t = .error p ↔
      ¬ (e.state = .created ∨ e.state = .wait) ∧ p = .markAsOnlineUnreachable := by
  unfold markAsOnline
  split <;> simp_all [eq_comm]

theorem markAsOffline_eq_error {e : WorkerEntry} {p : Panic} :
    e.markAsOffline = .error p ↔
      ¬ (e.state = .created ∨ e.state = .normal) ∧ p = .markAsOfflineUnreachable := by
  unfold markAsOffline
  split <;> simp_all [eq_comm]

@[simp] theorem isTombstone_eq_true {e : WorkerEntry} :
    e.isTombstone = true ↔ e.state = .tombstone := by
  simp [isTombstone]

@[simp] theorem updateStatus_state (e : WorkerEntry) (s : Option WorkerStatus) :
    (e.updateStatus s).state = e.state := rfl

@[simp] theorem updateStatus_status (e : WorkerEntry) (s : Option WorkerStatus) :
    (e.updateStatus s).status = s := rfl

@[simp] theorem updateStatus_receivedFinish (e : WorkerEntry) (s : Option WorkerStatus) :
    (e.updateStatus s).receivedFinish = e.receivedFinish := rfl

@[simp] theorem setExpireTime_state (e : WorkerEntry) (t : Nat) :
    (e.setExpireTime t).state = e.state := rfl

@[simp] theorem setExpireTime_receivedFinish (e : WorkerEntry) (t : Nat) :
    (e.setExpireTime t).receivedFinish = e.receivedFinish := rfl

@[simp] theorem setExpireTime_status (e : WorkerEntry) (t : Nat) :
    (e.setExpireTime t).status = e.status := rfl

@[simp] theorem setFinished_state (e : WorkerEntry) :
    e.setFinished.state = e.state := rfl

@[simp] theorem setFinished_receivedFinish (e : WorkerEntry) :
    e.setFinished.receivedFinish = true := rfl

@[simp] theorem setFinished_status (e : WorkerEntry) :
    e.setFinished.status = e.status := rfl

end WorkerEntry

namespace WorkerEntryState

/-- The position of a state in the diagram: waiting or created entries come first, then
normal, offline and tombstone ones. -/
def rank : WorkerEntryState → Nat
  | .wait => 0
  | .created => 0
  | .normal => 1
  | .offline => 2
  | .tombstone => 3

-- Many proofs below unfold this definition, and Lean elaborates them in parallel: the empty
-- section generates its equation lemmas here, once, so that the proofs do not all wait on it.
-- The simp set outside the section is unchanged.
section
attribute [local simp] rank
end

end WorkerEntryState

namespace WorkerEntry

/-- Every state change of the `Mark` methods moves an entry forward in the diagram. -/
theorem rank_lt_of_markAsTombstone {e e' : WorkerEntry} (h : e.markAsTombstone = .ok e')
    (hne : e.state ≠ .tombstone) : e.state.rank < e'.state.rank := by
  obtain ⟨-, rfl⟩ := markAsTombstone_eq_ok.1 h
  cases hs : e.state <;> simp_all [WorkerEntryState.rank]

theorem rank_lt_of_markAsOnline {e e' : WorkerEntry} {executor : ExecutorID} {t : Nat}
    (h : e.markAsOnline executor t = .ok e') : e.state.rank < e'.state.rank := by
  obtain ⟨hs, rfl⟩ := markAsOnline_eq_ok.1 h
  rcases hs with hs | hs <;> simp [hs, WorkerEntryState.rank]

theorem rank_lt_of_markAsOffline {e e' : WorkerEntry} (h : e.markAsOffline = .ok e') :
    e.state.rank < e'.state.rank := by
  obtain ⟨hs, rfl⟩ := markAsOffline_eq_ok.1 h
  rcases hs with hs | hs <;> simp [hs, WorkerEntryState.rank]

end WorkerEntry

end Master

end Microcosm
