import Mathlib.Data.List.AList
import Microcosm.Lib.Master.WorkerEntry

/-!
# The worker manager

`lib/master/worker_manager.go`, `events.go` and the handles of `worker_handle.go`.

`workerEntries` maps worker IDs to `*workerEntry` pointers. The model keeps the
pointers: `workerEntries` is an `AList` from IDs to addresses and `heap` holds the entry
at each address, so that a hook that captured an entry keeps acting on that entry
after the map has dropped or replaced it, as in the source. Addresses are handed out by
`putNew` in increasing order.

The closures stored as `beforeHook` are named by their bodies (`BeforeHook`): the
dispatch-failed hook of `AbortCreatingWorker` deletes the ID from the map, the offline
hook of `checkWorkerEntriesOnce` marks its captured entry as a tombstone, and the
status hook of `OnWorkerStatusUpdateMessage` updates its captured entry unless that
entry is a tombstone.

Each method runs with `m.mu` held, so each is one atomic step here. `Tick` is not: it
releases the queue between events, so the model gives one loop iteration, `tickOne`,
which pops an event, runs its hook and hands it over for delivery. Go maps are iterated
in an unspecified order; `checkWorkerEntriesOnce` takes the order as an argument.

`enqueueEvent` waits up to a second for room in a channel of capacity 1024 and then
fails; the model fails exactly when the queue is full. Events carry one ghost field,
`origin`, the address of the entry whose transition produced them, which the
per-worker properties of the manager are stated with.
-/

namespace Microcosm

namespace Master

/-- `workerManagerState`, numbered from `1` in this order in the source. -/
inductive WorkerManagerState
  | ready
  | loadingMeta
  | waitingHeartbeat
  deriving DecidableEq, Repr

/-- `masterEventType`, numbered from `1` in this order in the source. -/
inductive MasterEventType
  | workerOnlineEvent
  | workerOfflineEvent
  | workerStatusUpdatedEvent
  | workerDispatchFailedEvent
  deriving DecidableEq, Repr

/-- The two handle implementations: `runningHandleImpl` and `tombstoneHandleImpl`. -/
inductive WorkerHandle
  | running (workerID : WorkerID) (executorID : ExecutorID)
  | tombstone (workerID : WorkerID)
  deriving DecidableEq, Repr

/-- `ID()` of both handles. -/
def WorkerHandle.id : WorkerHandle → WorkerID
  | .running workerID _ => workerID
  | .tombstone workerID => workerID

/-- The closures stored in `masterEvent.beforeHook`, by their bodies. The addresses are
those of the entries the closures captured. -/
inductive BeforeHook
  | deleteEntry (workerID : WorkerID)
  | markAsTombstone (entry : Nat)
  | updateStatus (entry : Nat) (status : Option WorkerStatus)
  deriving DecidableEq, Repr

/-- `masterEvent`, with the ghost field `origin`. -/
structure MasterEvent where
  tp : MasterEventType
  handle : WorkerHandle
  workerID : WorkerID
  err : Option Error
  beforeHook : Option BeforeHook
  /-- Ghost: the entry whose transition produced the event. -/
  origin : Option Nat
  deriving DecidableEq, Repr

/-- The capacity of `eventQueue`. -/
def eventQueueCapacity : Nat := 1024

/-- `WorkerManager`, without its channels to the background goroutine, its metastore
client and its callbacks, which the model handles as separate steps. -/
structure WorkerManager where
  workerEntries : AList (fun _ : WorkerID => Nat)
  heap : Nat → WorkerEntry
  nextRef : Nat
  state : WorkerManagerState
  masterID : MasterID
  epoch : Epoch
  eventQueue : List MasterEvent
  /-- The first error given to `errCenter.OnError`. -/
  errCenter : Option Error
  /-- Whether `allWorkersReady` has been closed. -/
  allWorkersReady : Bool
  timeouts : TimeoutConfig

/-- `NewWorkerManager`. -/
def newWorkerManager (masterID : MasterID) (epoch : Epoch) (isInit : Bool)
    (timeouts : TimeoutConfig) : WorkerManager :=
  { workerEntries := ∅
    heap := fun _ => default
    nextRef := 0
    state := if isInit then .ready else .loadingMeta
    masterID, epoch
    eventQueue := []
    errCenter := none
    allWorkersReady := false
    timeouts }

/-- The error a worker goes offline with, from the status stored in its entry. -/
def offlineError (workerID : WorkerID) : Option WorkerStatus → Option Error
  | none => none
  | some status =>
      match status.code with
      | .finished => some .errWorkerFinish
      | .stopped => some .errWorkerStop
      | _ => some (.errWorkerOffline workerID)

namespace WorkerManager

/-- Dereference an entry address. -/
def entry (m : WorkerManager) (ref : Nat) : WorkerEntry :=
  m.heap ref

/-- Write through an entry address. -/
def setEntry (m : WorkerManager) (ref : Nat) (e : WorkerEntry) : WorkerManager :=
  { m with heap := Function.update m.heap ref e }

/-- `m.workerEntries[workerID] = e` for a newly created entry `e`: the entry gets the
next free address. -/
def putNew (m : WorkerManager) (workerID : WorkerID) (e : WorkerEntry) : WorkerManager :=
  { m with
    workerEntries := m.workerEntries.insert workerID m.nextRef
    heap := Function.update m.heap m.nextRef e
    nextRef := m.nextRef + 1 }

/-- `errCenter.OnError`: only the first error is kept. -/
def onError (m : WorkerManager) (err : Error) : WorkerManager :=
  { m with errCenter := m.errCenter.or (some err) }

/-- `nextExpireTime`, with `now` the clock reading. -/
def nextExpireTime (m : WorkerManager) (now : Nat) : Nat :=
  now + (m.timeouts.workerTimeoutDuration + m.timeouts.workerTimeoutGracefulDuration)

/-- `checkMasterEpochMatch`. -/
def checkMasterEpochMatch (m : WorkerManager) (msgEpoch : Epoch) : Except Panic Bool :=
  if msgEpoch > m.epoch then .error .staleMaster
  else if msgEpoch < m.epoch then .ok false
  else .ok true

/-- `enqueueEvent`. -/
def enqueueEvent (m : WorkerManager) (event : MasterEvent) : Except Error WorkerManager :=
  if m.eventQueue.length < eventQueueCapacity then
    .ok { m with eventQueue := m.eventQueue ++ [event] }
  else .error .errMasterTooManyPendingEvents

/-- The pattern `if err := m.enqueueEvent(e); err != nil { m.errCenter.OnError(err) }`. -/
def enqueueOrReport (m : WorkerManager) (event : MasterEvent) : WorkerManager :=
  match m.enqueueEvent event with
  | .ok m' => m'
  | .error err => m.onError err

/-- `BeforeStartingWorker`. -/
def beforeStartingWorker (m : WorkerManager) (workerID : WorkerID)
    (executorID : ExecutorID) (now : Nat) : Except Panic WorkerManager :=
  if workerID ∈ m.workerEntries then .error .workerAlreadyExists
  else
    .ok (m.putNew workerID (newWorkerEntry workerID executorID (m.nextExpireTime now)
      .created (some { code := .created })))

/-- `AbortCreatingWorker`. -/
def abortCreatingWorker (m : WorkerManager) (workerID : WorkerID) (errIn : Error) :
    WorkerManager :=
  m.enqueueOrReport
    { tp := .workerDispatchFailedEvent
      workerID
      handle := .tombstone workerID
      err := some errIn
      beforeHook := some (.deleteEntry workerID)
      origin := none }

/-- `OnWorkerStatusUpdateMessage`. -/
def onWorkerStatusUpdateMessage (m : WorkerManager) (msg : WorkerStatusMessage) :
    Except Panic WorkerManager :=
  match m.checkMasterEpochMatch msg.masterEpoch with
  | .error p => .error p
  | .ok false => .ok m
  | .ok true =>
      match m.workerEntries.lookup msg.worker with
      | none => .ok m
      | some ref =>
          .ok <| m.enqueueOrReport
            { tp := .workerStatusUpdatedEvent
              handle := .running msg.worker (m.entry ref).executorID
              workerID := msg.worker
              err := none
              beforeHook := some (.updateStatus ref msg.status)
              origin := some ref }

/-- The scan of `HandleHeartbeat` for the end of the waiting period: no entry is still
waiting for its first heartbeat. -/
def noEntryWaiting (m : WorkerManager) : Bool :=
  m.workerEntries.entries.all fun p => (m.entry p.2).state != .wait

/-- `close(m.allWorkersReady)`. -/
def closeAllWorkersReady (m : WorkerManager) : Except Panic WorkerManager :=
  if m.allWorkersReady then .error .closeOfClosedChannel
  else .ok { m with allWorkersReady := true }

/-- The part of `HandleHeartbeat` after the entry has been refreshed: mark the entry
online on its first heartbeat, then either end the waiting period or report the worker
online. -/
def onFirstHeartbeat (m : WorkerManager) (workerID : WorkerID) (ref : Nat)
    (fromNode : ExecutorID) (now : Nat) : Except Panic WorkerManager :=
  let e := m.entry ref
  if m.state = .waitingHeartbeat then
    if e.state ≠ .wait then .ok m
    else
      match e.markAsOnline fromNode (m.nextExpireTime now) with
      | .error p => .error p
      | .ok e' =>
          let m := m.setEntry ref e'
          if m.noEntryWaiting then m.closeAllWorkersReady else .ok m
  else
    if e.state ≠ .created then .ok m
    else
      match e.markAsOnline fromNode (m.nextExpireTime now) with
      | .error p => .error p
      | .ok e' =>
          .ok <| (m.setEntry ref e').enqueueOrReport
            { tp := .workerOnlineEvent
              workerID
              handle := .running workerID fromNode
              err := none
              beforeHook := none
              origin := some ref }

/-- `HandleHeartbeat`, with `now` the clock reading. -/
def handleHeartbeat (m : WorkerManager) (msg : HeartbeatPingMessage)
    (fromNode : ExecutorID) (now : Nat) : Except Panic WorkerManager :=
  if m.state = .loadingMeta then .ok m
  else
    match m.checkMasterEpochMatch msg.epoch with
    | .error p => .error p
    | .ok false => .ok m
    | .ok true =>
        match m.workerEntries.lookup msg.fromWorkerID with
        | none => .ok m
        | some ref =>
            let e := m.entry ref
            let e := if msg.isFinished then e.setFinished else e
            let m := m.setEntry ref (e.setExpireTime (m.nextExpireTime now))
            m.onFirstHeartbeat msg.fromWorkerID ref fromNode now

/-- The loop of `checkWorkerEntriesOnce` over the IDs in `order`. It stops at the first
failed enqueue and returns its error. -/
def checkWorkerEntriesLoop (now : Nat) :
    WorkerManager → List WorkerID → Except Panic (WorkerManager × Option Error)
  | m, [] => .ok (m, none)
  | m, workerID :: rest =>
      match m.workerEntries.lookup workerID with
      | none => checkWorkerEntriesLoop now m rest
      | some ref =>
          let e := m.entry ref
          if e.state = .offline ∨ e.state = .tombstone then checkWorkerEntriesLoop now m rest
          else if ¬ (e.expireAt < now ∨ e.isFinished = true) then
            checkWorkerEntriesLoop now m rest
          else
            match e.markAsOffline with
            | .error p => .error p
            | .ok e' =>
                let m := m.setEntry ref e'
                match m.enqueueEvent
                    { tp := .workerOfflineEvent
                      workerID
                      handle := .tombstone workerID
                      err := offlineError workerID e'.status
                      beforeHook := some (.markAsTombstone ref)
                      origin := some ref } with
                | .error err => .ok (m, some err)
                | .ok m => checkWorkerEntriesLoop now m rest

/-- `checkWorkerEntriesOnce`, visiting the entries in `order`. -/
def checkWorkerEntriesOnce (m : WorkerManager) (now : Nat) (order : List WorkerID) :
    Except Panic (WorkerManager × Option Error) :=
  if m.state ≠ .ready then .ok (m, none) else checkWorkerEntriesLoop now m order

/-- The critical section of `InitAfterRecover` after `LoadAllWorkers` returned the
persisted workers: every worker that has not finished gets a waiting entry. -/
def initAfterRecoverLoad (m : WorkerManager)
    (allPersistedWorkers : AList (fun _ : WorkerID => WorkerStatus)) :
    Except Panic WorkerManager :=
  if m.state ≠ .loadingMeta then .error .initAfterRecoverUnreachable
  else
    let m := allPersistedWorkers.entries.foldl
      (fun m p =>
        if p.2.code = .finished then m
        else m.putNew p.1 (newWaitingWorkerEntry p.1 (some p.2)))
      m
    if m.workerEntries.entries = [] then .ok { m with state := .ready }
    else .ok { m with state := .waitingHeartbeat }

/-- The loop of the last critical section of `InitAfterRecover`: every entry still
waiting, or that has reported that it finished, becomes a tombstone. -/
def markRecoveredTombstones (m : WorkerManager) :
    List Nat → Except Panic WorkerManager
  | [] => .ok m
  | ref :: rest =>
      let e := m.entry ref
      if e.state = .wait ∨ e.isFinished = true then
        match e.markAsTombstone with
        | .error p => .error p
        | .ok e' => markRecoveredTombstones (m.setEntry ref e') rest
      else markRecoveredTombstones m rest

/-- The last critical section of `InitAfterRecover`, after the wait for heartbeats. -/
def initAfterRecoverFinish (m : WorkerManager) : Except Panic WorkerManager :=
  match m.markRecoveredTombstones (m.workerEntries.entries.map (·.2)) with
  | .error p => .error p
  | .ok m => .ok { m with state := .ready }

/-- One iteration of the loop of `Tick`. -/
inductive TickStep
  /-- The `default` branch: the queue is empty and `Tick` returns. -/
  | idle
  /-- The event's `beforeHook` returned `false`. -/
  | cancelled (m : WorkerManager)
  /-- The event is handed to its callback. -/
  | deliver (m : WorkerManager) (event : MasterEvent)

/-- Running a `beforeHook`. -/
def runBeforeHook (m : WorkerManager) : BeforeHook → Except Panic (WorkerManager × Bool)
  | .deleteEntry workerID => .ok ({ m with workerEntries := m.workerEntries.erase workerID }, true)
  | .markAsTombstone ref =>
      match (m.entry ref).markAsTombstone with
      | .error p => .error p
      | .ok e => .ok (m.setEntry ref e, true)
  | .updateStatus ref status =>
      if (m.entry ref).isTombstone then .ok (m, false)
      else .ok (m.setEntry ref ((m.entry ref).updateStatus status), true)

/-- One iteration of the loop of `Tick`: pop the oldest event and run its hook. -/
def tickOne (m : WorkerManager) : Except Panic TickStep :=
  match m.eventQueue with
  | [] => .ok .idle
  | event :: rest =>
      let m := { m with eventQueue := rest }
      match event.beforeHook with
      | none => .ok (.deliver m event)
      | some hook =>
          match m.runBeforeHook hook with
          | .error p => .error p
          | .ok (m, true) => .ok (.deliver m event)
          | .ok (m, false) => .ok (.cancelled m)

/-- `removeTombstoneEntry`. -/
def removeTombstoneEntry (m : WorkerManager) (id : WorkerID) : Except Panic WorkerManager :=
  match m.workerEntries.lookup id with
  | none => .ok m
  | some ref =>
      if (m.entry ref).isTombstone then .ok { m with workerEntries := m.workerEntries.erase id }
      else .error .notATombstone

/-- `GetWorkers`. -/
def getWorkers (m : WorkerManager) : List (WorkerID × WorkerHandle) :=
  m.workerEntries.entries.map fun p =>
    if (m.entry p.2).isTombstone then (p.1, .tombstone p.1)
    else (p.1, .running p.1 (m.entry p.2).executorID)

/-- `IsInitialized`. -/
def isInitialized (m : WorkerManager) : Bool :=
  m.state == .ready

/-- The entry at `ref` is the entry of some worker in the map. -/
def IsLive (m : WorkerManager) (ref : Nat) : Prop :=
  ∃ id, m.workerEntries.lookup id = some ref

@[simp] theorem entry_setEntry_self (m : WorkerManager) (ref : Nat) (e : WorkerEntry) :
    (m.setEntry ref e).entry ref = e := by
  simp [setEntry, entry]

@[simp] theorem entry_setEntry_of_ne (m : WorkerManager) {ref ref' : Nat} (e : WorkerEntry)
    (h : ref' ≠ ref) : (m.setEntry ref e).entry ref' = m.entry ref' := by
  simp [setEntry, entry, Function.update_of_ne h]

theorem entry_setEntry (m : WorkerManager) (ref ref' : Nat) (e : WorkerEntry) :
    (m.setEntry ref e).entry ref' = if ref' = ref then e else m.entry ref' := by
  by_cases h : ref' = ref
  · subst h
    simp
  · simp [h]

@[simp] theorem setEntry_workerEntries (m : WorkerManager) (ref : Nat) (e : WorkerEntry) :
    (m.setEntry ref e).workerEntries = m.workerEntries := rfl

@[simp] theorem setEntry_eventQueue (m : WorkerManager) (ref : Nat) (e : WorkerEntry) :
    (m.setEntry ref e).eventQueue = m.eventQueue := rfl

@[simp] theorem setEntry_state (m : WorkerManager) (ref : Nat) (e : WorkerEntry) :
    (m.setEntry ref e).state = m.state := rfl

@[simp] theorem setEntry_nextRef (m : WorkerManager) (ref : Nat) (e : WorkerEntry) :
    (m.setEntry ref e).nextRef = m.nextRef := rfl

@[simp] theorem setEntry_allWorkersReady (m : WorkerManager) (ref : Nat) (e : WorkerEntry) :
    (m.setEntry ref e).allWorkersReady = m.allWorkersReady := rfl

@[simp] theorem setEntry_epoch (m : WorkerManager) (ref : Nat) (e : WorkerEntry) :
    (m.setEntry ref e).epoch = m.epoch := rfl

@[simp] theorem setEntry_timeouts (m : WorkerManager) (ref : Nat) (e : WorkerEntry) :
    (m.setEntry ref e).timeouts = m.timeouts := rfl

@[simp] theorem putNew_entry_self (m : WorkerManager) (workerID : WorkerID)
    (e : WorkerEntry) : (m.putNew workerID e).entry m.nextRef = e := by
  simp [putNew, entry]

theorem putNew_entry_of_lt (m : WorkerManager) (workerID : WorkerID) (e : WorkerEntry)
    {ref : Nat} (h : ref < m.nextRef) : (m.putNew workerID e).entry ref = m.entry ref := by
  simp [putNew, entry, Function.update_of_ne (Nat.ne_of_lt h)]

@[simp] theorem putNew_workerEntries (m : WorkerManager) (workerID : WorkerID)
    (e : WorkerEntry) :
    (m.putNew workerID e).workerEntries = m.workerEntries.insert workerID m.nextRef := rfl

@[simp] theorem putNew_nextRef (m : WorkerManager) (workerID : WorkerID) (e : WorkerEntry) :
    (m.putNew workerID e).nextRef = m.nextRef + 1 := rfl

@[simp] theorem putNew_eventQueue (m : WorkerManager) (workerID : WorkerID)
    (e : WorkerEntry) : (m.putNew workerID e).eventQueue = m.eventQueue := rfl

@[simp] theorem putNew_state (m : WorkerManager) (workerID : WorkerID) (e : WorkerEntry) :
    (m.putNew workerID e).state = m.state := rfl

@[simp] theorem putNew_allWorkersReady (m : WorkerManager) (workerID : WorkerID)
    (e : WorkerEntry) : (m.putNew workerID e).allWorkersReady = m.allWorkersReady := rfl

theorem isLive_setEntry {m : WorkerManager} {ref ref' : Nat} {e : WorkerEntry} :
    (m.setEntry ref e).IsLive ref' ↔ m.IsLive ref' := Iff.rfl

theorem mem_refs_of_isLive {m : WorkerManager} {ref : Nat} (h : m.IsLive ref) :
    ref ∈ m.workerEntries.entries.map (·.2) := by
  obtain ⟨id, hid⟩ := h
  exact List.mem_map.2 ⟨⟨id, ref⟩, AList.mem_lookup_iff.1 hid, rfl⟩

theorem isLive_insert {m : WorkerManager} {id : WorkerID} {r ref : Nat}
    (h : ∃ i, (m.workerEntries.insert id r).lookup i = some ref) : ref = r ∨ m.IsLive ref := by
  obtain ⟨i, hi⟩ := h
  by_cases hid : i = id
  · subst hid
    rw [AList.lookup_insert, Option.some.injEq] at hi
    exact .inl hi.symm
  · rw [AList.lookup_insert_ne hid] at hi
    exact .inr ⟨i, hi⟩

theorem isLive_erase {m : WorkerManager} {id : WorkerID} {ref : Nat}
    (h : ∃ i, (m.workerEntries.erase id).lookup i = some ref) : m.IsLive ref := by
  obtain ⟨i, hi⟩ := h
  by_cases hid : i = id
  · subst hid
    simp at hi
  · rw [AList.lookup_erase_ne hid] at hi
    exact ⟨i, hi⟩

@[simp] theorem onError_workerEntries (m : WorkerManager) (err : Error) :
    (m.onError err).workerEntries = m.workerEntries := rfl

@[simp] theorem onError_heap (m : WorkerManager) (err : Error) :
    (m.onError err).heap = m.heap := rfl

@[simp] theorem onError_eventQueue (m : WorkerManager) (err : Error) :
    (m.onError err).eventQueue = m.eventQueue := rfl

@[simp] theorem onError_state (m : WorkerManager) (err : Error) :
    (m.onError err).state = m.state := rfl

@[simp] theorem onError_nextRef (m : WorkerManager) (err : Error) :
    (m.onError err).nextRef = m.nextRef := rfl

@[simp] theorem onError_allWorkersReady (m : WorkerManager) (err : Error) :
    (m.onError err).allWorkersReady = m.allWorkersReady := rfl

theorem enqueueEvent_eq_ok {m m' : WorkerManager} {ev : MasterEvent} :
    m.enqueueEvent ev = .ok m' ↔
      m.eventQueue.length < eventQueueCapacity ∧
        m' = { m with eventQueue := m.eventQueue ++ [ev] } := by
  unfold enqueueEvent
  split
  · rename_i h
    simp only [Except.ok.injEq, h, true_and]
    exact eq_comm
  · rename_i h
    simp [h]

theorem checkMasterEpochMatch_eq_error {m : WorkerManager} {msgEpoch : Epoch} {p : Panic}
    (h : m.checkMasterEpochMatch msgEpoch = .error p) : p = .staleMaster := by
  unfold checkMasterEpochMatch at h
  split at h
  · cases h
    rfl
  · split at h <;> cases h

theorem beforeStartingWorker_eq_error {m : WorkerManager} {workerID : WorkerID}
    {executorID : ExecutorID} {now : Nat} {p : Panic}
    (h : m.beforeStartingWorker workerID executorID now = .error p) :
    p = .workerAlreadyExists := by
  unfold beforeStartingWorker at h
  split at h
  · cases h
    rfl
  · cases h

theorem onWorkerStatusUpdateMessage_eq_error {m : WorkerManager} {msg : WorkerStatusMessage}
    {p : Panic} (h : m.onWorkerStatusUpdateMessage msg = .error p) : p = .staleMaster := by
  unfold onWorkerStatusUpdateMessage at h
  split at h
  · rename_i hep
    cases h
    exact checkMasterEpochMatch_eq_error hep
  · cases h
  · split at h <;> cases h

theorem initAfterRecoverLoad_eq_error {m : WorkerManager}
    {persisted : AList (fun _ : WorkerID => WorkerStatus)} {p : Panic}
    (h : m.initAfterRecoverLoad persisted = .error p) : p = .initAfterRecoverUnreachable := by
  unfold initAfterRecoverLoad at h
  split at h
  · cases h
    rfl
  · dsimp only at h
    split at h <;> cases h

theorem removeTombstoneEntry_eq_error {m : WorkerManager} {id : WorkerID} {p : Panic}
    (h : m.removeTombstoneEntry id = .error p) : p = .notATombstone := by
  unfold removeTombstoneEntry at h
  split at h
  · cases h
  · split at h
    · cases h
    · cases h
      rfl

/-- `noEntryWaiting` is the statement that no entry of the map is waiting. -/
theorem noEntryWaiting_iff {m : WorkerManager} :
    m.noEntryWaiting = true ↔ ∀ ref, m.IsLive ref → (m.entry ref).state ≠ .wait := by
  simp only [noEntryWaiting, List.all_eq_true, bne_iff_ne, ne_eq, IsLive]
  constructor
  · rintro h ref ⟨id, hid⟩
    exact h ⟨id, ref⟩ (AList.mem_lookup_iff.1 hid)
  · rintro h ⟨id, ref⟩ hmem
    exact h ref ⟨id, AList.mem_lookup_iff.2 hmem⟩

/-- `enqueueOrReport` either appends the event or only records an error. -/
theorem enqueueOrReport_cases (m : WorkerManager) (ev : MasterEvent) :
    m.enqueueOrReport ev = { m with eventQueue := m.eventQueue ++ [ev] } ∨
      ∃ err, m.enqueueOrReport ev = m.onError err := by
  unfold enqueueOrReport
  split
  · rename_i m' h
    exact .inl (enqueueEvent_eq_ok.1 h).2
  · rename_i err _
    exact .inr ⟨err, rfl⟩

theorem beforeStartingWorker_mem {m m' : WorkerManager} {workerID : WorkerID}
    {executorID : ExecutorID} {now : Nat}
    (h : m.beforeStartingWorker workerID executorID now = .ok m') :
    workerID ∈ m'.workerEntries := by
  unfold beforeStartingWorker at h
  split at h
  · cases h
  · cases h
    simp [AList.mem_insert]

theorem beforeStartingWorker_eq_ok {m : WorkerManager} {workerID : WorkerID}
    (executorID : ExecutorID) (now : Nat) (h : workerID ∉ m.workerEntries) :
    ∃ m', m.beforeStartingWorker workerID executorID now = .ok m' := by
  simp [beforeStartingWorker, h]

@[simp] theorem abortCreatingWorker_workerEntries (m : WorkerManager) (workerID : WorkerID)
    (errIn : Error) : (m.abortCreatingWorker workerID errIn).workerEntries = m.workerEntries := by
  unfold abortCreatingWorker
  rcases enqueueOrReport_cases m _ with h | ⟨err, h⟩
  · rw [h]
  · rw [h, onError_workerEntries]

/-- `AbortCreatingWorker` leaves a dispatch-failed event for the worker in the queue, or
reports to the error center that the queue was full. -/
theorem abortCreatingWorker_reported (m : WorkerManager) (workerID : WorkerID) (errIn : Error) :
    (∃ ev ∈ (m.abortCreatingWorker workerID errIn).eventQueue,
        ev.tp = .workerDispatchFailedEvent ∧ ev.workerID = workerID) ∨
      (m.abortCreatingWorker workerID errIn).errCenter.isSome := by
  unfold abortCreatingWorker
  rcases enqueueOrReport_cases m _ with h | ⟨err, h⟩ <;> rw [h]
  · exact .inl ⟨_, List.mem_append_right _ List.mem_cons_self, rfl, rfl⟩
  · right
    cases m.errCenter <;> simp [onError]

/-! Only `InitAfterRecover` changes the state of the manager, and no call changes its
epoch or its timeouts: every other call is a `Frame` step. -/

/-- The fields of the manager that every call but `InitAfterRecover` keeps. -/
structure Frame (m m' : WorkerManager) : Prop where
  state : m'.state = m.state
  epoch : m'.epoch = m.epoch
  timeouts : m'.timeouts = m.timeouts

@[refl] theorem Frame.refl (m : WorkerManager) : Frame m m := ⟨rfl, rfl, rfl⟩

theorem Frame.trans {m₁ m₂ m₃ : WorkerManager} (h₁ : Frame m₁ m₂) (h₂ : Frame m₂ m₃) :
    Frame m₁ m₃ :=
  ⟨h₂.state.trans h₁.state, h₂.epoch.trans h₁.epoch, h₂.timeouts.trans h₁.timeouts⟩

theorem frame_setEntry (m : WorkerManager) (ref : Nat) (e : WorkerEntry) :
    Frame m (m.setEntry ref e) := ⟨rfl, rfl, rfl⟩

theorem frame_onError (m : WorkerManager) (err : Error) : Frame m (m.onError err) :=
  ⟨rfl, rfl, rfl⟩

theorem enqueueEvent_frame {m m' : WorkerManager} {ev : MasterEvent}
    (h : m.enqueueEvent ev = .ok m') : Frame m m' := by
  rw [(enqueueEvent_eq_ok.1 h).2]
  exact ⟨rfl, rfl, rfl⟩

theorem frame_enqueueOrReport (m : WorkerManager) (ev : MasterEvent) :
    Frame m (m.enqueueOrReport ev) := by
  rcases enqueueOrReport_cases m ev with h | ⟨err, h⟩ <;> rw [h]
  · exact ⟨rfl, rfl, rfl⟩
  · exact frame_onError m err

@[simp] theorem enqueueOrReport_state (m : WorkerManager) (ev : MasterEvent) :
    (m.enqueueOrReport ev).state = m.state :=
  (frame_enqueueOrReport m ev).state

@[simp] theorem abortCreatingWorker_state (m : WorkerManager) (workerID : WorkerID)
    (errIn : Error) : (m.abortCreatingWorker workerID errIn).state = m.state :=
  enqueueOrReport_state m _

theorem beforeStartingWorker_frame {m m' : WorkerManager} {workerID : WorkerID}
    {executorID : ExecutorID} {now : Nat}
    (h : m.beforeStartingWorker workerID executorID now = .ok m') : Frame m m' := by
  unfold beforeStartingWorker at h
  split at h
  · cases h
  · cases h
    exact ⟨rfl, rfl, rfl⟩

theorem onWorkerStatusUpdateMessage_frame {m m' : WorkerManager} {msg : WorkerStatusMessage}
    (h : m.onWorkerStatusUpdateMessage msg = .ok m') : Frame m m' := by
  unfold onWorkerStatusUpdateMessage at h
  split at h
  · cases h
  · cases h
    rfl
  · split at h <;> cases h
    · rfl
    · exact frame_enqueueOrReport m _

/-- What a successful first heartbeat does: nothing, or mark the entry online with the next
expiry time, and then, in the waiting period, close `allWorkersReady` once no entry waits,
or, in the ready state, report the worker online. -/
theorem onFirstHeartbeat_eq_ok {m m' : WorkerManager} {workerID : WorkerID} {ref : Nat}
    {fromNode : ExecutorID} {now : Nat}
    (h : m.onFirstHeartbeat workerID ref fromNode now = .ok m') :
    m' = m ∨ ∃ e', (m.entry ref).markAsOnline fromNode (m.nextExpireTime now) = .ok e' ∧
      ((m.state = .waitingHeartbeat ∧ (m.entry ref).state = .wait ∧
          (m' = m.setEntry ref e' ∨
            (m.setEntry ref e').noEntryWaiting = true ∧ m.allWorkersReady = false ∧
              m' = { m.setEntry ref e' with allWorkersReady := true })) ∨
        (m.state ≠ .waitingHeartbeat ∧ (m.entry ref).state = .created ∧
          m' = (m.setEntry ref e').enqueueOrReport
            { tp := .workerOnlineEvent, workerID, handle := .running workerID fromNode,
              err := none, beforeHook := none, origin := some ref })) := by
  unfold onFirstHeartbeat at h
  split at h
  · rename_i hwait
    dsimp only at h
    split at h
    · cases h
      exact .inl rfl
    · rename_i hne
      split at h
      · cases h
      · rename_i e' hon
        refine .inr ⟨e', hon, .inl ⟨hwait, not_not.1 hne, ?_⟩⟩
        split at h
        · rename_i hall
          unfold closeAllWorkersReady at h
          split at h
          · cases h
          · rename_i hopen
            cases h
            exact .inr ⟨hall, by simpa using hopen, rfl⟩
        · cases h
          exact .inl rfl
  · rename_i hwait
    dsimp only at h
    split at h
    · cases h
      exact .inl rfl
    · rename_i hne
      split at h
      · cases h
      · rename_i e' hon
        cases h
        exact .inr ⟨e', hon, .inr ⟨hwait, not_not.1 hne, rfl⟩⟩

theorem onFirstHeartbeat_frame {m m' : WorkerManager} {workerID : WorkerID} {ref : Nat}
    {fromNode : ExecutorID} {now : Nat}
    (h : m.onFirstHeartbeat workerID ref fromNode now = .ok m') : Frame m m' := by
  -- every branch changes the entry and then the channel or the queue, never the frame
  rcases onFirstHeartbeat_eq_ok h with rfl | ⟨e', -, ⟨-, -, rfl | ⟨-, -, rfl⟩⟩ | ⟨-, -, rfl⟩⟩
  · rfl
  · exact frame_setEntry m _ _
  · exact ⟨rfl, rfl, rfl⟩
  · exact (frame_setEntry m _ _).trans (frame_enqueueOrReport _ _)

/-- What a successful heartbeat does: nothing, or refresh the worker's entry, with its
finished flag and the next expiry time, and go on with its first heartbeat. -/
theorem handleHeartbeat_eq_ok {m m' : WorkerManager} {msg : HeartbeatPingMessage}
    {fromNode : ExecutorID} {now : Nat} (h : m.handleHeartbeat msg fromNode now = .ok m') :
    m' = m ∨ ∃ ref, m.workerEntries.lookup msg.fromWorkerID = some ref ∧
      (m.setEntry ref ((if msg.isFinished then (m.entry ref).setFinished
        else m.entry ref).setExpireTime (m.nextExpireTime now))).onFirstHeartbeat
          msg.fromWorkerID ref fromNode now = .ok m' := by
  unfold handleHeartbeat at h
  split at h
  · cases h
    exact .inl rfl
  · split at h
    · cases h
    · cases h
      exact .inl rfl
    · split at h
      · cases h
        exact .inl rfl
      · rename_i ref href
        exact .inr ⟨ref, href, h⟩

theorem handleHeartbeat_frame {m m' : WorkerManager} {msg : HeartbeatPingMessage}
    {fromNode : ExecutorID} {now : Nat} (h : m.handleHeartbeat msg fromNode now = .ok m') :
    Frame m m' := by
  rcases handleHeartbeat_eq_ok h with rfl | ⟨ref, -, h⟩
  · rfl
  · exact (frame_setEntry m _ _).trans (onFirstHeartbeat_frame h)

/-- What the background check may do: keep the frame and the map, and leave each entry
as it is or mark it offline, which it does only to an entry that is not offline yet and has
expired or reported that it finished. -/
structure CheckEffect (now : Nat) (m m' : WorkerManager) : Prop where
  frame : Frame m m'
  workerEntries : m'.workerEntries = m.workerEntries
  entry : ∀ ref, m'.entry ref = m.entry ref ∨
    ((m.entry ref).state ≠ .offline ∧
      ((m.entry ref).expireAt < now ∨ (m.entry ref).isFinished = true) ∧
      m'.entry ref = { m.entry ref with state := .offline })

theorem CheckEffect.refl (now : Nat) (m : WorkerManager) : CheckEffect now m m :=
  ⟨Frame.refl m, rfl, fun _ => .inl rfl⟩

/-- An entry marked offline is not marked again, so the effects of two checks compose. -/
theorem CheckEffect.trans {now : Nat} {m₁ m₂ m₃ : WorkerManager} (h₁ : CheckEffect now m₁ m₂)
    (h₂ : CheckEffect now m₂ m₃) : CheckEffect now m₁ m₃ := by
  refine ⟨h₁.frame.trans h₂.frame, h₂.workerEntries.trans h₁.workerEntries, fun ref => ?_⟩
  rcases h₁.entry ref with h1 | ⟨hne, hwhy, h1⟩
  · rw [← h1]
    exact h₂.entry ref
  · rcases h₂.entry ref with h2 | ⟨hne2, -, -⟩
    · exact .inr ⟨hne, hwhy, h2.trans h1⟩
    · exact (hne2 (by rw [h1])).elim

theorem checkEffect_markAsOffline {now : Nat} (m : WorkerManager) {ref : Nat}
    {e' : WorkerEntry} (hne : (m.entry ref).state ≠ .offline)
    (hwhy : (m.entry ref).expireAt < now ∨ (m.entry ref).isFinished = true)
    (he' : (m.entry ref).markAsOffline = .ok e') : CheckEffect now m (m.setEntry ref e') := by
  refine ⟨frame_setEntry m ref e', rfl, fun r => ?_⟩
  by_cases hr : r = ref
  · subst hr
    exact .inr ⟨hne, hwhy, by rw [entry_setEntry_self, (WorkerEntry.markAsOffline_eq_ok.1 he').2]⟩
  · exact .inl (entry_setEntry_of_ne m e' hr)

theorem checkEffect_enqueueEvent {now : Nat} {m m' : WorkerManager} {ev : MasterEvent}
    (h : m.enqueueEvent ev = .ok m') : CheckEffect now m m' := by
  rw [(enqueueEvent_eq_ok.1 h).2]
  exact ⟨⟨rfl, rfl, rfl⟩, rfl, fun _ => .inl rfl⟩

theorem checkEffect_onError (now : Nat) (m : WorkerManager) (err : Error) :
    CheckEffect now m (m.onError err) :=
  ⟨frame_onError m err, rfl, fun _ => .inl rfl⟩

theorem checkWorkerEntriesLoop_checkEffect {now : Nat} {m m' : WorkerManager}
    {order : List WorkerID} {err : Option Error}
    (h : checkWorkerEntriesLoop now m order = .ok (m', err)) : CheckEffect now m m' := by
  induction order generalizing m with
  | nil =>
      cases h
      exact CheckEffect.refl now _
  | cons workerID rest ih =>
      unfold checkWorkerEntriesLoop at h
      split at h
      · exact ih h
      · dsimp only at h
        split at h
        · exact ih h
        · rename_i hlive
          split at h
          · exact ih h
          · rename_i hdue
            split at h
            · cases h
            · rename_i e' he'
              have hmark := @checkEffect_markAsOffline now m _ _
                (fun h => hlive (.inl h)) (not_not.1 hdue) he'
              split at h
              · cases h
                exact hmark
              · rename_i m'' henq
                exact hmark.trans ((checkEffect_enqueueEvent henq).trans (ih h))

/-- The check of one ID marks its entry offline once it has expired, when the queue has room
for the offline event. -/
theorem checkWorkerEntriesLoop_marks {now : Nat} {m : WorkerManager} {workerID : WorkerID}
    {ref : Nat} (href : m.workerEntries.lookup workerID = some ref)
    (hlive : (m.entry ref).state = .created ∨ (m.entry ref).state = .normal)
    (hdue : (m.entry ref).expireAt < now) (hroom : m.eventQueue.length < eventQueueCapacity) :
    ∃ m', checkWorkerEntriesLoop now m [workerID] = .ok (m', none) ∧
      m'.workerEntries = m.workerEntries ∧ m'.entry ref = { m.entry ref with state := .offline } := by
  have hnot : ¬ ((m.entry ref).state = .offline ∨ (m.entry ref).state = .tombstone) := by
    rcases hlive with h | h <;> rw [h] <;> simp
  have hmark : (m.entry ref).markAsOffline = .ok { m.entry ref with state := .offline } :=
    WorkerEntry.markAsOffline_eq_ok.2 ⟨hlive, rfl⟩
  unfold checkWorkerEntriesLoop
  rw [href]
  dsimp only
  rw [if_neg hnot, if_neg (not_not.2 (.inl hdue)), hmark]
  dsimp only
  rw [(enqueueEvent_eq_ok.2 ⟨by simpa using hroom, rfl⟩ :
    (m.setEntry ref _).enqueueEvent _ = .ok _)]
  exact ⟨_, rfl, rfl, entry_setEntry_self m ref _⟩

theorem checkWorkerEntriesOnce_checkEffect {m m' : WorkerManager} {now : Nat}
    {order : List WorkerID} {err : Option Error}
    (h : m.checkWorkerEntriesOnce now order = .ok (m', err)) : CheckEffect now m m' := by
  unfold checkWorkerEntriesOnce at h
  split at h
  · cases h
    exact CheckEffect.refl now _
  · exact checkWorkerEntriesLoop_checkEffect h

theorem checkWorkerEntriesLoop_frame {now : Nat} {m m' : WorkerManager} {order : List WorkerID}
    {err : Option Error} (h : checkWorkerEntriesLoop now m order = .ok (m', err)) :
    Frame m m' :=
  (checkWorkerEntriesLoop_checkEffect h).frame

theorem checkWorkerEntriesOnce_frame {m m' : WorkerManager} {now : Nat} {order : List WorkerID}
    {err : Option Error} (h : m.checkWorkerEntriesOnce now order = .ok (m', err)) :
    Frame m m' :=
  (checkWorkerEntriesOnce_checkEffect h).frame

theorem runBeforeHook_frame {m m' : WorkerManager} {hook : BeforeHook} {ok : Bool}
    (h : m.runBeforeHook hook = .ok (m', ok)) : Frame m m' := by
  cases hook with
  | deleteEntry workerID =>
      cases h
      exact ⟨rfl, rfl, rfl⟩
  | markAsTombstone ref =>
      simp only [runBeforeHook] at h
      split at h
      · cases h
      · cases h
        exact frame_setEntry m _ _
  | updateStatus ref status =>
      simp only [runBeforeHook] at h
      split at h <;> cases h
      · rfl
      · exact frame_setEntry m _ _

theorem initAfterRecoverFinish_state {m m' : WorkerManager}
    (h : m.initAfterRecoverFinish = .ok m') : m'.state = .ready := by
  unfold initAfterRecoverFinish at h
  split at h
  · cases h
  · cases h
    rfl

/-- Popping the head of the queue, before its hook runs. -/
theorem frame_pop (m : WorkerManager) (rest : List MasterEvent) :
    Frame m { m with eventQueue := rest } := ⟨rfl, rfl, rfl⟩

theorem tickOne_deliver_frame {m m' : WorkerManager} {ev : MasterEvent}
    (h : m.tickOne = .ok (.deliver m' ev)) : Frame m m' := by
  unfold tickOne at h
  split at h
  · cases h
  · dsimp only at h
    split at h
    · cases h
      exact frame_pop m _
    · split at h
      · cases h
      · rename_i hhook
        cases h
        exact (frame_pop m _).trans (runBeforeHook_frame hhook)
      · cases h

theorem tickOne_cancelled_frame {m m' : WorkerManager} (h : m.tickOne = .ok (.cancelled m')) :
    Frame m m' := by
  unfold tickOne at h
  split at h
  · cases h
  · dsimp only at h
    split at h
    · cases h
    · split at h
      · cases h
      · cases h
      · rename_i hhook
        cases h
        exact (frame_pop m _).trans (runBeforeHook_frame hhook)

/-! The expiry times of the entries. `BeforeStartingWorker` sets the first one, a heartbeat
of the master's epoch sets it again, and nothing else moves it: marking an entry offline
keeps it. -/

/-- The expiry time in the entry of `workerID`, if the map holds one. -/
def expireAtOf (m : WorkerManager) (workerID : WorkerID) : Option Nat :=
  (m.workerEntries.lookup workerID).map fun ref => (m.entry ref).expireAt

theorem mem_of_expireAtOf {m : WorkerManager} {workerID : WorkerID} {t : Nat}
    (h : m.expireAtOf workerID = some t) : workerID ∈ m.workerEntries := by
  unfold expireAtOf at h
  cases hl : m.workerEntries.lookup workerID with
  | none => simp [hl] at h
  | some ref => exact AList.lookup_isSome.1 (by simp [hl])

/-- Writing an entry with the same expiry time keeps every expiry time. -/
theorem expireAtOf_setEntry {m : WorkerManager} {ref : Nat} {e : WorkerEntry}
    (h : e.expireAt = (m.entry ref).expireAt) : (m.setEntry ref e).expireAtOf = m.expireAtOf := by
  funext workerID
  simp only [expireAtOf, setEntry_workerEntries]
  cases m.workerEntries.lookup workerID with
  | none => rfl
  | some r =>
      simp only [Option.map_some, Option.some.injEq]
      by_cases hr : r = ref
      · subst hr
        rw [entry_setEntry_self, h]
      · rw [entry_setEntry_of_ne _ _ hr]

@[simp] theorem expireAtOf_onError (m : WorkerManager) (err : Error) :
    (m.onError err).expireAtOf = m.expireAtOf := rfl

@[simp] theorem expireAtOf_enqueueOrReport (m : WorkerManager) (ev : MasterEvent) :
    (m.enqueueOrReport ev).expireAtOf = m.expireAtOf := by
  rcases enqueueOrReport_cases m ev with h | ⟨err, h⟩ <;> rw [h]
  · rfl
  · rfl

theorem expireAtOf_beforeStartingWorker {m m' : WorkerManager} {workerID : WorkerID}
    {executorID : ExecutorID} {now : Nat}
    (h : m.beforeStartingWorker workerID executorID now = .ok m') :
    m'.expireAtOf workerID = some (m.nextExpireTime now) := by
  unfold beforeStartingWorker at h
  split at h
  · cases h
  · cases h
    simp [expireAtOf, putNew, entry, newWorkerEntry]

/-- Past the refresh of the expiry time, the first heartbeat moves it to the same time. -/
theorem onFirstHeartbeat_expireAtOf {m m' : WorkerManager} {workerID : WorkerID} {ref : Nat}
    {fromNode : ExecutorID} {now : Nat}
    (h : m.onFirstHeartbeat workerID ref fromNode now = .ok m')
    (hexp : (m.entry ref).expireAt = m.nextExpireTime now) : m'.expireAtOf = m.expireAtOf := by
  rcases onFirstHeartbeat_eq_ok h with rfl | ⟨e', hon, hcases⟩
  · rfl
  · have hset := expireAtOf_setEntry (m := m) (e := e')
      (show e'.expireAt = (m.entry ref).expireAt by
        rw [(WorkerEntry.markAsOnline_eq_ok.1 hon).2, hexp])
    rcases hcases with ⟨-, -, rfl | ⟨-, -, rfl⟩⟩ | ⟨-, -, rfl⟩
    · exact hset
    · exact hset
    · rw [expireAtOf_enqueueOrReport]
      exact hset

/-- A heartbeat of the master's epoch from a worker with an entry, once the manager has
loaded its workers, moves the worker's expiry time to `nextExpireTime`. -/
theorem handleHeartbeat_expireAtOf {m m' : WorkerManager} {msg : HeartbeatPingMessage}
    {fromNode : ExecutorID} {now : Nat} (hs : m.state ≠ .loadingMeta) (he : msg.epoch = m.epoch)
    (hmem : msg.fromWorkerID ∈ m.workerEntries) (h : m.handleHeartbeat msg fromNode now = .ok m') :
    m'.expireAtOf msg.fromWorkerID = some (m.nextExpireTime now) := by
  obtain ⟨ref, href⟩ := Option.isSome_iff_exists.1 (AList.lookup_isSome.2 hmem)
  have hmatch : m.checkMasterEpochMatch msg.epoch = .ok true := by
    simp [checkMasterEpochMatch, he]
  simp only [handleHeartbeat, hs, if_false, hmatch, href] at h
  rw [onFirstHeartbeat_expireAtOf h (by simp [nextExpireTime, WorkerEntry.setExpireTime])]
  simp [expireAtOf, href, WorkerEntry.setExpireTime]

/-- Marking entries offline keeps every expiry time. -/
theorem CheckEffect.expireAtOf {now : Nat} {m m' : WorkerManager} (h : CheckEffect now m m') :
    m'.expireAtOf = m.expireAtOf := by
  funext workerID
  simp only [WorkerManager.expireAtOf, h.workerEntries]
  cases m.workerEntries.lookup workerID with
  | none => rfl
  | some r =>
      rcases h.entry r with he | ⟨-, -, he⟩ <;> simp [he]

/-- The entry under `workerID`, if the map holds one. -/
def entryOf (m : WorkerManager) (workerID : WorkerID) : Option WorkerEntry :=
  (m.workerEntries.lookup workerID).map m.entry

theorem expireAtOf_eq_map_entryOf (m : WorkerManager) (workerID : WorkerID) :
    m.expireAtOf workerID = (m.entryOf workerID).map (·.expireAt) := by
  simp [expireAtOf, entryOf, Option.map_map, Function.comp_def]

@[simp] theorem entryOf_onError (m : WorkerManager) (err : Error) :
    (m.onError err).entryOf = m.entryOf := rfl

/-- Under the check, the entry of an ID stays, or is marked offline after it expired or
finished. -/
theorem CheckEffect.entryOf {now : Nat} {m m' : WorkerManager} (h : CheckEffect now m m')
    (workerID : WorkerID) :
    m'.entryOf workerID = m.entryOf workerID ∨
      ∃ e, m.entryOf workerID = some e ∧ e.state ≠ .offline ∧
        (e.expireAt < now ∨ e.isFinished = true) ∧
        m'.entryOf workerID = some { e with state := .offline } := by
  simp only [WorkerManager.entryOf, h.workerEntries]
  cases m.workerEntries.lookup workerID with
  | none => exact .inl rfl
  | some r =>
      rcases h.entry r with he | ⟨hne, hwhy, he⟩
      · exact .inl (by simp [he])
      · exact .inr ⟨m.entry r, rfl, hne, hwhy, by simp [he]⟩

/-- The background check marks entries offline and keeps every expiry time. -/
theorem checkWorkerEntriesLoop_expireAtOf {now : Nat} {m m' : WorkerManager}
    {order : List WorkerID} {err : Option Error}
    (h : checkWorkerEntriesLoop now m order = .ok (m', err)) : m'.expireAtOf = m.expireAtOf :=
  (checkWorkerEntriesLoop_checkEffect h).expireAtOf

theorem checkWorkerEntriesOnce_expireAtOf {m m' : WorkerManager} {now : Nat}
    {order : List WorkerID} {err : Option Error}
    (h : m.checkWorkerEntriesOnce now order = .ok (m', err)) : m'.expireAtOf = m.expireAtOf :=
  (checkWorkerEntriesOnce_checkEffect h).expireAtOf

end WorkerManager

/-- `Status()` of both handles: the status of the entry now under the handle's ID. -/
def WorkerHandle.status (h : WorkerHandle) (m : WorkerManager) :
    Except Panic (Option WorkerStatus) :=
  match m.workerEntries.lookup h.id with
  | none => .error .staleHandle
  | some ref => .ok (m.entry ref).status

theorem WorkerHandle.status_eq_error {h : WorkerHandle} {m : WorkerManager} {p : Panic}
    (hs : h.status m = .error p) : p = .staleHandle := by
  unfold WorkerHandle.status at hs
  split at hs
  · cases hs
    rfl
  · cases hs

end Master

end Microcosm
