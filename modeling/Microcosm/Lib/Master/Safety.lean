import Microcosm.Lib.Master.Harness

/-!
# Which panics of the worker manager can be reached

The three `Mark` methods of a worker entry and the `close(allWorkersReady)` of
`HandleHeartbeat` are never reached with a bad argument, over every interleaving of the
manager's calls, from a manager created with or without `isInit`. The reason is
`SafetyInv`:

* in the ready state no entry of the map is still waiting, because `InitAfterRecover`
  turns every waiting entry into a tombstone before it declares the manager ready;
* each queued offline hook is the only one for its entry, and that entry is offline:
  `checkWorkerEntriesOnce` skips offline entries, so it queues one hook per entry;
* once `allWorkersReady` is closed no entry of the map is waiting, so no later
  heartbeat can close it again.

The "Using a stale handle" panic, on the other hand, is reached: an entry whose creation
was aborted for sure, and whose lease runs out before `Tick` runs the abort, is deleted
by the dispatch-failed hook and then delivered offline on a handle whose `Status()`
finds no entry (`stale_handle_after_abort_then_timeout`).
-/

namespace Microcosm

namespace Master

/-- The address captured by an offline hook. -/
def MasterEvent.tombstoneRef (ev : MasterEvent) : Option Nat :=
  match ev.beforeHook with
  | some (.markAsTombstone ref) => some ref
  | _ => none

/-- The address captured by any hook. -/
def MasterEvent.hookRef (ev : MasterEvent) : Option Nat :=
  match ev.beforeHook with
  | some (.markAsTombstone ref) => some ref
  | some (.updateStatus ref _) => some ref
  | _ => none

/-- The addresses of the queued offline hooks, oldest first. -/
def WorkerManager.tombstoneRefs (m : WorkerManager) : List Nat :=
  m.eventQueue.filterMap MasterEvent.tombstoneRef

/-- The invariant that keeps the `Mark` methods and the closing of `allWorkersReady`
away from their panics. -/
structure SafetyInv (m : WorkerManager) : Prop where
  live_lt : ∀ ref, m.IsLive ref → ref < m.nextRef
  hook_lt : ∀ ev ∈ m.eventQueue, ∀ ref ∈ ev.hookRef, ref < m.nextRef
  ready_live_ne_wait : m.state = .ready → ∀ ref, m.IsLive ref → (m.entry ref).state ≠ .wait
  tombstone_offline : ∀ ref ∈ m.tombstoneRefs, (m.entry ref).state = .offline
  tombstone_nodup : m.tombstoneRefs.Nodup
  tombstone_ready : m.state ≠ .ready → m.tombstoneRefs = []
  closed_no_wait : m.allWorkersReady = true →
    m.state ≠ .loadingMeta ∧ ∀ ref, m.IsLive ref → (m.entry ref).state ≠ .wait

/-- The panics this file excludes. -/
def IsMarkOrClosePanic (p : Panic) : Prop :=
  p = .markAsTombstoneUnreachable ∨ p = .markAsOnlineUnreachable ∨
    p = .markAsOfflineUnreachable ∨ p = .closeOfClosedChannel

namespace SafetyInv

theorem newWorkerManager (masterID : MasterID) (epoch : Epoch) (isInit : Bool)
    (timeouts : TimeoutConfig) : SafetyInv (newWorkerManager masterID epoch isInit timeouts) where
  live_lt := by
    rintro ref ⟨id, hid⟩
    simp [Master.newWorkerManager] at hid
  hook_lt := by simp [Master.newWorkerManager]
  ready_live_ne_wait := by
    rintro - ref ⟨id, hid⟩
    simp [Master.newWorkerManager] at hid
  tombstone_offline := by simp [WorkerManager.tombstoneRefs, Master.newWorkerManager]
  tombstone_nodup := by simp [WorkerManager.tombstoneRefs, Master.newWorkerManager]
  tombstone_ready := by simp [WorkerManager.tombstoneRefs, Master.newWorkerManager]
  closed_no_wait := by simp [Master.newWorkerManager]

/-- The invariant only reads the map, the counter, the queue, the state, the channel and
the state of each entry. -/
theorem of_states_eq {m m' : WorkerManager} (h : SafetyInv m)
    (hmap : m'.workerEntries = m.workerEntries) (hnext : m'.nextRef = m.nextRef)
    (hqueue : m'.eventQueue = m.eventQueue) (hstate : m'.state = m.state)
    (hclosed : m'.allWorkersReady = m.allWorkersReady)
    (hentries : ∀ ref, (m'.entry ref).state = (m.entry ref).state) : SafetyInv m' := by
  have hlive : ∀ ref, m'.IsLive ref ↔ m.IsLive ref := by
    intro ref
    simp only [WorkerManager.IsLive, hmap]
  have hrefs : m'.tombstoneRefs = m.tombstoneRefs := by
    simp only [WorkerManager.tombstoneRefs, hqueue]
  refine ⟨?_, ?_, ?_, ?_, ?_, ?_, ?_⟩
  · intro ref hr
    rw [hnext]
    exact h.live_lt ref ((hlive ref).1 hr)
  · intro ev hev ref href
    rw [hnext]
    exact h.hook_lt ev (hqueue ▸ hev) ref href
  · intro hs ref hr
    rw [hentries]
    exact h.ready_live_ne_wait (hstate ▸ hs) ref ((hlive ref).1 hr)
  · intro ref hr
    rw [hentries]
    exact h.tombstone_offline ref (hrefs ▸ hr)
  · rw [hrefs]
    exact h.tombstone_nodup
  · intro hs
    rw [hrefs]
    exact h.tombstone_ready (hstate ▸ hs)
  · intro hc
    obtain ⟨hs, hw⟩ := h.closed_no_wait (hclosed ▸ hc)
    refine ⟨hstate ▸ hs, fun ref hr => ?_⟩
    rw [hentries]
    exact hw ref ((hlive ref).1 hr)

/-- A write that keeps the state of the entry, such as `SetFinished`, `SetExpireTime`
or `UpdateStatus`. -/
theorem setEntry_of_state_eq {m : WorkerManager} (h : SafetyInv m) {ref : Nat}
    {e : WorkerEntry} (he : e.state = (m.entry ref).state) : SafetyInv (m.setEntry ref e) := by
  refine h.of_states_eq rfl rfl rfl rfl rfl (fun ref' => ?_)
  by_cases hr : ref' = ref
  · subst hr
    simpa using he
  · simp [hr]

theorem onError {m : WorkerManager} (h : SafetyInv m) (err : Error) :
    SafetyInv (m.onError err) :=
  h.of_states_eq rfl rfl rfl rfl rfl (fun _ => rfl)

/-- A state change of an entry that no queued offline hook refers to, to a state other
than waiting. -/
theorem setEntry_of_not_mem {m : WorkerManager} (h : SafetyInv m) {ref : Nat}
    {e : WorkerEntry} (hnot : ref ∉ m.tombstoneRefs) (hne : e.state ≠ .wait) :
    SafetyInv (m.setEntry ref e) := by
  have hstate : ∀ ref', ((m.setEntry ref e).entry ref').state ≠ .wait ↔
      ref' = ref ∨ (m.entry ref').state ≠ .wait := by
    intro ref'
    by_cases hr : ref' = ref
    · subst hr
      simpa using hne
    · simp [hr]
  refine ⟨h.live_lt, h.hook_lt, ?_, ?_, h.tombstone_nodup, h.tombstone_ready, ?_⟩
  · intro hs ref' hr
    exact (hstate ref').2 (.inr (h.ready_live_ne_wait hs ref' hr))
  · intro ref' hr
    have hne' : ref' ≠ ref := fun heq => hnot (heq ▸ hr)
    simpa [hne'] using h.tombstone_offline ref' hr
  · intro hc
    obtain ⟨hs, hw⟩ := h.closed_no_wait hc
    exact ⟨hs, fun ref' hr => (hstate ref').2 (.inr (hw ref' hr))⟩

/-- An entry that is not offline has no queued offline hook. -/
theorem not_mem_of_ne_offline {m : WorkerManager} (h : SafetyInv m) {ref : Nat}
    (hne : (m.entry ref).state ≠ .offline) : ref ∉ m.tombstoneRefs :=
  fun hr => hne (h.tombstone_offline ref hr)

theorem tombstoneRefs_append (m : WorkerManager) (ev : MasterEvent) :
    ({ m with eventQueue := m.eventQueue ++ [ev] } : WorkerManager).tombstoneRefs =
      m.tombstoneRefs ++ ev.tombstoneRef.toList := by
  simp only [WorkerManager.tombstoneRefs, List.filterMap_append, List.filterMap_cons,
    List.filterMap_nil]
  cases ev.tombstoneRef <;> rfl

/-- Queueing an event without an offline hook. -/
theorem enqueue {m : WorkerManager} (h : SafetyInv m) {ev : MasterEvent}
    (hnone : ev.tombstoneRef = none) (hlt : ∀ ref ∈ ev.hookRef, ref < m.nextRef) :
    SafetyInv { m with eventQueue := m.eventQueue ++ [ev] } := by
  have hrefs := tombstoneRefs_append m ev
  rw [hnone, Option.toList_none, List.append_nil] at hrefs
  refine ⟨h.live_lt, ?_, h.ready_live_ne_wait, ?_, ?_, ?_, h.closed_no_wait⟩
  · intro ev' hev' ref href
    rcases List.mem_append.1 hev' with hold | hnew
    · exact h.hook_lt ev' hold ref href
    · rw [List.mem_singleton.1 hnew] at href
      exact hlt ref href
  · rw [hrefs]
    exact h.tombstone_offline
  · rw [hrefs]
    exact h.tombstone_nodup
  · intro hs
    rw [hrefs]
    exact h.tombstone_ready hs

theorem enqueueOrReport {m : WorkerManager} (h : SafetyInv m) {ev : MasterEvent}
    (hnone : ev.tombstoneRef = none) (hlt : ∀ ref ∈ ev.hookRef, ref < m.nextRef) :
    SafetyInv (m.enqueueOrReport ev) := by
  rcases m.enqueueOrReport_cases ev with heq | ⟨err, heq⟩
  · rw [heq]
    exact h.enqueue hnone hlt
  · rw [heq]
    exact h.onError err

/-- Queueing the offline hook of an offline entry that has none queued yet. -/
theorem enqueue_offline {m : WorkerManager} (h : SafetyInv m) {ev : MasterEvent}
    {ref : Nat} (hev : ev.tombstoneRef = some ref) (hhook : ev.hookRef = some ref)
    (hlt : ref < m.nextRef) (hoff : (m.entry ref).state = .offline)
    (hnot : ref ∉ m.tombstoneRefs) (hready : m.state = .ready) :
    SafetyInv { m with eventQueue := m.eventQueue ++ [ev] } := by
  have hrefs := tombstoneRefs_append m ev
  rw [hev, Option.toList_some] at hrefs
  refine ⟨h.live_lt, ?_, h.ready_live_ne_wait, ?_, ?_, ?_, h.closed_no_wait⟩
  · intro ev' hev' ref' href
    rcases List.mem_append.1 hev' with hold | hnew
    · exact h.hook_lt ev' hold ref' href
    · rw [List.mem_singleton.1 hnew, hhook, Option.mem_some_iff] at href
      exact href ▸ hlt
  · intro ref' hr
    rw [hrefs] at hr
    rcases List.mem_append.1 hr with hold | hnew
    · exact h.tombstone_offline ref' hold
    · rw [List.mem_singleton.1 hnew]
      exact hoff
  · rw [hrefs]
    exact List.nodup_append.2 ⟨h.tombstone_nodup, List.nodup_singleton ref,
      fun a ha b hb heq => hnot (by rw [List.mem_singleton.1 hb] at heq; exact heq ▸ ha)⟩
  · intro hs
    exact absurd hready hs

/-- Putting a newly created entry under an ID. -/
theorem putNew {m : WorkerManager} (h : SafetyInv m) (id : WorkerID) {e : WorkerEntry}
    (hready : m.state = .ready → e.state ≠ .wait)
    (hclosed : m.allWorkersReady = true → e.state ≠ .wait) :
    SafetyInv (m.putNew id e) := by
  have hrefs : (m.putNew id e).tombstoneRefs = m.tombstoneRefs := rfl
  refine ⟨?_, ?_, ?_, ?_, ?_, ?_, ?_⟩
  · intro ref hr
    rcases WorkerManager.isLive_insert hr with heq | hlive
    · simp [heq]
    · exact Nat.lt_succ_of_lt (h.live_lt ref hlive)
  · intro ev hev ref href
    exact Nat.lt_succ_of_lt (h.hook_lt ev hev ref href)
  · intro hs ref hr
    rcases WorkerManager.isLive_insert hr with heq | hlive
    · subst heq
      rw [WorkerManager.putNew_entry_self]
      exact hready hs
    · rw [WorkerManager.putNew_entry_of_lt m id e (h.live_lt ref hlive)]
      exact h.ready_live_ne_wait hs ref hlive
  · intro ref hr
    rw [hrefs] at hr
    have hlt : ref < m.nextRef := by
      obtain ⟨ev, hev, hev'⟩ := List.mem_filterMap.1 hr
      refine h.hook_lt ev hev ref ?_
      simp only [MasterEvent.tombstoneRef] at hev'
      simp only [MasterEvent.hookRef]
      split at hev' <;> simp_all
    rw [WorkerManager.putNew_entry_of_lt m id e hlt]
    exact h.tombstone_offline ref hr
  · exact h.tombstone_nodup
  · exact h.tombstone_ready
  · intro hc
    obtain ⟨hs, hw⟩ := h.closed_no_wait hc
    refine ⟨hs, fun ref hr => ?_⟩
    rcases WorkerManager.isLive_insert hr with heq | hlive
    · subst heq
      rw [WorkerManager.putNew_entry_self]
      exact hclosed hc
    · rw [WorkerManager.putNew_entry_of_lt m id e (h.live_lt ref hlive)]
      exact hw ref hlive

/-- Deleting an ID from the map. -/
theorem erase {m : WorkerManager} (h : SafetyInv m) (id : WorkerID) :
    SafetyInv { m with workerEntries := m.workerEntries.erase id } :=
  ⟨fun ref hr => h.live_lt ref (WorkerManager.isLive_erase hr), h.hook_lt,
    fun hs ref hr => h.ready_live_ne_wait hs ref (WorkerManager.isLive_erase hr),
    h.tombstone_offline, h.tombstone_nodup, h.tombstone_ready,
    fun hc => ⟨(h.closed_no_wait hc).1,
      fun ref hr => (h.closed_no_wait hc).2 ref (WorkerManager.isLive_erase hr)⟩⟩

/-- Popping the oldest event. -/
theorem pop {m : WorkerManager} (h : SafetyInv m) {ev : MasterEvent} {rest : List MasterEvent}
    (hq : m.eventQueue = ev :: rest) : SafetyInv { m with eventQueue := rest } := by
  have hrefs : m.tombstoneRefs = ev.tombstoneRef.toList ++
      ({ m with eventQueue := rest } : WorkerManager).tombstoneRefs := by
    simp only [WorkerManager.tombstoneRefs, hq, List.filterMap_cons]
    cases ev.tombstoneRef <;> rfl
  refine ⟨h.live_lt, fun ev' hev' => h.hook_lt ev' (by rw [hq]; exact .tail _ hev'),
    h.ready_live_ne_wait, ?_, ?_, ?_, h.closed_no_wait⟩
  · intro ref hr
    exact h.tombstone_offline ref (hrefs ▸ List.mem_append_right _ hr)
  · have hn := h.tombstone_nodup
    rw [hrefs] at hn
    exact (List.nodup_append.1 hn).2.1
  · intro hs
    have he := h.tombstone_ready hs
    rw [hrefs] at he
    exact (List.append_eq_nil_iff.1 he).2

/-- Changing the manager's state: offline hooks are only queued in the ready state, the
channel is only closed after metadata is loaded, and in the ready state no entry of the
map is waiting. -/
theorem setState {m : WorkerManager} (h : SafetyInv m) (st : WorkerManagerState)
    (hrefs : st ≠ .ready → m.tombstoneRefs = [])
    (hclosed : m.allWorkersReady = true → st ≠ .loadingMeta)
    (hready : st = .ready → ∀ ref, m.IsLive ref → (m.entry ref).state ≠ .wait) :
    SafetyInv { m with state := st } :=
  ⟨h.live_lt, h.hook_lt, hready, h.tombstone_offline, h.tombstone_nodup, hrefs,
    fun hc => ⟨hclosed hc, (h.closed_no_wait hc).2⟩⟩

/-- The channel is open while metadata is loading. -/
theorem open_of_loadingMeta {m : WorkerManager} (h : SafetyInv m)
    (hs : m.state = .loadingMeta) : m.allWorkersReady = false := by
  cases hc : m.allWorkersReady
  · rfl
  · exact absurd hs (h.closed_no_wait hc).1

end SafetyInv


namespace SafetyInv

theorem beforeStartingWorker {m m' : WorkerManager} (h : SafetyInv m) {workerID : WorkerID}
    {executorID : ExecutorID} {now : Nat}
    (hs : m.beforeStartingWorker workerID executorID now = .ok m') : SafetyInv m' := by
  unfold WorkerManager.beforeStartingWorker at hs
  split at hs
  · cases hs
  · cases hs
    exact h.putNew workerID (by simp [newWorkerEntry]) (by simp [newWorkerEntry])

theorem abortCreatingWorker {m : WorkerManager} (h : SafetyInv m) (workerID : WorkerID)
    (err : Error) : SafetyInv (m.abortCreatingWorker workerID err) :=
  h.enqueueOrReport rfl (by simp [MasterEvent.hookRef])

theorem onWorkerStatusUpdateMessage {m m' : WorkerManager} (h : SafetyInv m)
    {msg : WorkerStatusMessage} (hs : m.onWorkerStatusUpdateMessage msg = .ok m') :
    SafetyInv m' := by
  unfold WorkerManager.onWorkerStatusUpdateMessage at hs
  split at hs
  · cases hs
  · cases hs
    exact h
  · split at hs
    · cases hs
      exact h
    · rename_i ref hlookup
      cases hs
      refine h.enqueueOrReport rfl ?_
      intro r hr
      simp only [MasterEvent.hookRef, Option.mem_some_iff] at hr
      exact hr ▸ h.live_lt ref ⟨msg.worker, hlookup⟩

/-- The first heartbeat of an entry: waiting entries are marked online and may end the
waiting period, created entries are marked online and reported. -/
theorem onFirstHeartbeat {m m' : WorkerManager} (h : SafetyInv m) {workerID : WorkerID}
    {ref : Nat} {fromNode : ExecutorID} {now : Nat}
    (hs : m.onFirstHeartbeat workerID ref fromNode now = .ok m') : SafetyInv m' := by
  rcases WorkerManager.onFirstHeartbeat_eq_ok hs with rfl | ⟨e', hon, hcases⟩
  · exact h
  · obtain ⟨hlive, he'⟩ := WorkerEntry.markAsOnline_eq_ok.1 hon
    have hoff : (m.entry ref).state ≠ .offline := by
      rcases hlive with hl | hl <;> simp [hl]
    have h₂ : SafetyInv (m.setEntry ref e') :=
      h.setEntry_of_not_mem (h.not_mem_of_ne_offline hoff) (by simp [he'])
    rcases hcases with ⟨hwait, -, rfl | ⟨hall, -, rfl⟩⟩ | ⟨-, -, rfl⟩
    · exact h₂
    · -- the channel is closed only once no live entry waits
      refine ⟨h₂.live_lt, h₂.hook_lt, h₂.ready_live_ne_wait, h₂.tombstone_offline,
        h₂.tombstone_nodup, h₂.tombstone_ready, fun _ => ⟨?_, ?_⟩⟩
      · simp [hwait]
      · exact WorkerManager.noEntryWaiting_iff.1 hall
    · exact h₂.enqueueOrReport rfl (by simp [MasterEvent.hookRef])

theorem handleHeartbeat {m m' : WorkerManager} (h : SafetyInv m) {msg : HeartbeatPingMessage}
    {fromNode : ExecutorID} {now : Nat} (hs : m.handleHeartbeat msg fromNode now = .ok m') :
    SafetyInv m' := by
  rcases WorkerManager.handleHeartbeat_eq_ok hs with rfl | ⟨ref, -, hs⟩
  · exact h
  · -- refreshing the entry keeps its state
    refine SafetyInv.onFirstHeartbeat ?_ hs
    refine h.setEntry_of_state_eq ?_
    split <;> simp

/-- The loop of `checkWorkerEntriesOnce` in the ready state always finishes, and keeps
the invariant and the ready state. -/
theorem checkWorkerEntriesLoop (now : Nat) :
    ∀ (order : List WorkerID) {m : WorkerManager}, SafetyInv m → m.state = .ready →
      ∃ m' err, m.checkWorkerEntriesLoop now order = .ok (m', err) ∧ SafetyInv m' ∧
        m'.state = .ready
  | [], m, h, hready => ⟨m, none, rfl, h, hready⟩
  | workerID :: rest, m, h, hready => by
      unfold WorkerManager.checkWorkerEntriesLoop
      cases hlookup : m.workerEntries.lookup workerID with
      | none => exact checkWorkerEntriesLoop now rest h hready
      | some ref =>
          dsimp only
          have hlive : m.IsLive ref := ⟨workerID, hlookup⟩
          by_cases hskip : (m.entry ref).state = .offline ∨ (m.entry ref).state = .tombstone
          · rw [if_pos hskip]
            exact checkWorkerEntriesLoop now rest h hready
          rw [if_neg hskip]
          by_cases hlive' : ¬ ((m.entry ref).expireAt < now ∨ (m.entry ref).isFinished = true)
          · rw [if_pos hlive']
            exact checkWorkerEntriesLoop now rest h hready
          rw [if_neg hlive']
          -- in the ready state a visited entry is created or normal, so it goes offline
          have hwait := h.ready_live_ne_wait hready ref hlive
          have hstate : (m.entry ref).state = .created ∨ (m.entry ref).state = .normal := by
            cases hst : (m.entry ref).state <;> simp_all
          have hoff : (m.entry ref).markAsOffline = .ok { m.entry ref with state := .offline } :=
            WorkerEntry.markAsOffline_eq_ok.2 ⟨hstate, rfl⟩
          rw [hoff]
          dsimp only
          have hnot : ref ∉ m.tombstoneRefs :=
            h.not_mem_of_ne_offline (by rcases hstate with hst | hst <;> simp [hst])
          have h₁ : SafetyInv (m.setEntry ref { m.entry ref with state := .offline }) :=
            h.setEntry_of_not_mem hnot (by simp)
          split
          · exact ⟨_, _, rfl, h₁, hready⟩
          · rename_i m₂ henq
            obtain ⟨-, rfl⟩ := WorkerManager.enqueueEvent_eq_ok.1 henq
            refine checkWorkerEntriesLoop now rest (h₁.enqueue_offline rfl rfl
              (h.live_lt ref hlive) (by simp) hnot hready) hready

/-- The checker never panics, and keeps the invariant. -/
theorem checkWorkerEntriesOnce {m : WorkerManager} (h : SafetyInv m) (now : Nat)
    (order : List WorkerID) :
    ∃ m' err, m.checkWorkerEntriesOnce now order = .ok (m', err) ∧ SafetyInv m' := by
  unfold WorkerManager.checkWorkerEntriesOnce
  split
  · exact ⟨m, none, rfl, h⟩
  · rename_i hready
    obtain ⟨m₁, err₁, hrun, h₁, -⟩ := checkWorkerEntriesLoop now order h (not_not.1 hready)
    exact ⟨m₁, err₁, hrun, h₁⟩

/-- The loop of `InitAfterRecover` that creates waiting entries, while metadata is
loading. -/
theorem putWaiting :
    ∀ (ps : List (Sigma fun _ : WorkerID => WorkerStatus)) {m : WorkerManager},
      SafetyInv m → m.state = .loadingMeta →
      SafetyInv (ps.foldl (fun m p =>
          if p.2.code = .finished then m
          else m.putNew p.1 (newWaitingWorkerEntry p.1 (some p.2))) m) ∧
        (ps.foldl (fun m p =>
          if p.2.code = .finished then m
          else m.putNew p.1 (newWaitingWorkerEntry p.1 (some p.2))) m).state = .loadingMeta ∧
        (ps.foldl (fun m p =>
          if p.2.code = .finished then m
          else m.putNew p.1 (newWaitingWorkerEntry p.1 (some p.2))) m).eventQueue = m.eventQueue ∧
        (ps.foldl (fun m p =>
          if p.2.code = .finished then m
          else m.putNew p.1 (newWaitingWorkerEntry p.1 (some p.2))) m).allWorkersReady =
            m.allWorkersReady
  | [], m, h, hs => ⟨h, hs, rfl, rfl⟩
  | p :: ps, m, h, hs => by
      simp only [List.foldl_cons]
      split
      · exact putWaiting ps h hs
      · have h₁ := h.putNew p.1 (e := newWaitingWorkerEntry p.1 (some p.2))
          (fun hr => absurd hr (by simp [hs]))
          (fun hc => absurd hc (by simp [h.open_of_loadingMeta hs]))
        obtain ⟨h₂, hs₂, hq₂, hc₂⟩ := putWaiting ps h₁ (by simp [hs])
        exact ⟨h₂, hs₂, hq₂, hc₂⟩

theorem initAfterRecoverLoad {m m' : WorkerManager} (h : SafetyInv m)
    {persisted : AList (fun _ : WorkerID => WorkerStatus)}
    (hs : m.initAfterRecoverLoad persisted = .ok m') : SafetyInv m' := by
  unfold WorkerManager.initAfterRecoverLoad at hs
  split at hs
  · cases hs
  · rename_i hload
    obtain ⟨h₁, hs₁, -, -⟩ := putWaiting persisted.entries h (not_not.1 hload)
    have hrefs := h₁.tombstone_ready (by simp [hs₁])
    dsimp only at hs
    split at hs
    · rename_i hnil
      cases hs
      -- an empty map has no waiting entry
      refine h₁.setState .ready (fun hne => absurd rfl hne) (fun _ => by simp) ?_
      intro _ ref hlive
      have hmem := WorkerManager.mem_refs_of_isLive hlive
      simp [hnil] at hmem
    · cases hs
      exact h₁.setState .waitingHeartbeat (fun _ => hrefs) (fun _ => by simp) (by simp)

/-- The loop of the last critical section of `InitAfterRecover` never panics: each entry
it marks is waiting or has finished. Afterwards an entry waits only if it waited before
and was not visited. -/
theorem markRecoveredTombstones :
    ∀ (refs : List Nat) {m : WorkerManager}, SafetyInv m → m.tombstoneRefs = [] →
      ∃ m', m.markRecoveredTombstones refs = .ok m' ∧ SafetyInv m' ∧
        m'.workerEntries = m.workerEntries ∧ m'.tombstoneRefs = [] ∧ m'.state = m.state ∧
        ∀ ref, (m'.entry ref).state = .wait → (m.entry ref).state = .wait ∧ ref ∉ refs
  | [], m, h, hrefs => ⟨m, rfl, h, rfl, hrefs, rfl, fun _ hw => ⟨hw, List.not_mem_nil⟩⟩
  | r :: rest, m, h, hrefs => by
      unfold WorkerManager.markRecoveredTombstones
      dsimp only
      by_cases hsel : (m.entry r).state = .wait ∨ (m.entry r).isFinished = true
      · rw [if_pos hsel]
        have htomb : (m.entry r).markAsTombstone = .ok { m.entry r with state := .tombstone } :=
          WorkerEntry.markAsTombstone_eq_ok.2
            ⟨hsel.elim .inl (fun hf => .inr (.inr hf)), rfl⟩
        rw [htomb]
        have h₁ : SafetyInv (m.setEntry r { m.entry r with state := .tombstone }) :=
          h.setEntry_of_not_mem (by simp [hrefs]) (by simp)
        obtain ⟨m', hrun, h', hmap, hrefs', hst, hwait⟩ := markRecoveredTombstones rest h₁ hrefs
        refine ⟨m', hrun, h', hmap, hrefs', hst, fun ref hw => ?_⟩
        obtain ⟨hw₁, hnot⟩ := hwait ref hw
        -- the visited entry is a tombstone now, so the waiting one is another
        have hne : ref ≠ r := by
          rintro rfl
          simp at hw₁
        rw [WorkerManager.entry_setEntry_of_ne _ _ hne] at hw₁
        exact ⟨hw₁, by simp [hne, hnot]⟩
      · rw [if_neg hsel]
        obtain ⟨m', hrun, h', hmap, hrefs', hst, hwait⟩ := markRecoveredTombstones rest h hrefs
        refine ⟨m', hrun, h', hmap, hrefs', hst, fun ref hw => ?_⟩
        obtain ⟨hw₁, hnot⟩ := hwait ref hw
        have hne : ref ≠ r := by
          rintro rfl
          exact hsel (.inl hw₁)
        exact ⟨hw₁, by simp [hne, hnot]⟩

/-- After the waiting period `InitAfterRecover` always finishes, and no entry of the map
is waiting any more. -/
theorem initAfterRecoverFinish {m : WorkerManager} (h : SafetyInv m)
    (hst : m.state = .waitingHeartbeat) :
    ∃ m', m.initAfterRecoverFinish = .ok m' ∧ SafetyInv m' := by
  have hrefs : m.tombstoneRefs = [] := h.tombstone_ready (by simp [hst])
  obtain ⟨m₁, hrun, h₁, hmap, hrefs₁, -, hwait⟩ :=
    markRecoveredTombstones (m.workerEntries.entries.map (·.2)) h hrefs
  refine ⟨_, by rw [WorkerManager.initAfterRecoverFinish, hrun], ?_⟩
  refine h₁.setState .ready (fun _ => hrefs₁) (fun _ => by simp) ?_
  intro _ ref hlive hw
  have hlive' : m.IsLive ref := by
    obtain ⟨id, hid⟩ := hlive
    exact ⟨id, hmap ▸ hid⟩
  exact (hwait ref hw).2 (WorkerManager.mem_refs_of_isLive hlive')

/-- The hook of the oldest event never panics, and keeps the invariant. An offline hook
finds its entry offline, and no other queued hook refers to that entry. -/
theorem runBeforeHook {m : WorkerManager} (h : SafetyInv m) {ev : MasterEvent}
    {rest : List MasterEvent} (hq : m.eventQueue = ev :: rest) {hook : BeforeHook}
    (hhook : ev.beforeHook = some hook) :
    ∃ m' b, ({ m with eventQueue := rest } : WorkerManager).runBeforeHook hook = .ok (m', b) ∧
      SafetyInv m' := by
  have h₀ := h.pop hq
  cases hook with
  | deleteEntry workerID => exact ⟨_, _, rfl, h₀.erase workerID⟩
  | markAsTombstone ref =>
      have hrefs : m.tombstoneRefs =
          ref :: ({ m with eventQueue := rest } : WorkerManager).tombstoneRefs := by
        simp [WorkerManager.tombstoneRefs, hq, MasterEvent.tombstoneRef, hhook]
      have hoff : (m.entry ref).state = .offline := h.tombstone_offline ref (by simp [hrefs])
      have hnot : ref ∉ ({ m with eventQueue := rest } : WorkerManager).tombstoneRefs := by
        have hnodup := h.tombstone_nodup
        rw [hrefs] at hnodup
        exact (List.nodup_cons.1 hnodup).1
      have htomb : (m.entry ref).markAsTombstone = .ok { m.entry ref with state := .tombstone } :=
        WorkerEntry.markAsTombstone_eq_ok.2 ⟨.inr (.inl hoff), rfl⟩
      refine ⟨_, true, ?_,
        h₀.setEntry_of_not_mem (e := { m.entry ref with state := .tombstone }) hnot (by simp)⟩
      simp only [WorkerManager.runBeforeHook]
      exact htomb ▸ rfl
  | updateStatus ref status =>
      simp only [WorkerManager.runBeforeHook]
      split
      · exact ⟨_, _, rfl, h₀⟩
      · exact ⟨_, _, rfl, h₀.setEntry_of_state_eq (by simp)⟩

/-- A step of `Tick` never panics: it finds the queue empty, or leaves a manager that
keeps the invariant. -/
theorem tickOne {m : WorkerManager} (h : SafetyInv m) :
    m.tickOne = .ok .idle ∨
      ∃ m', SafetyInv m' ∧
        (m.tickOne = .ok (.cancelled m') ∨ ∃ ev, m.tickOne = .ok (.deliver m' ev)) := by
  unfold WorkerManager.tickOne
  cases hq : m.eventQueue with
  | nil => exact .inl rfl
  | cons ev rest =>
      right
      dsimp only
      cases hhook : ev.beforeHook with
      | none => exact ⟨_, h.pop hq, .inr ⟨ev, rfl⟩⟩
      | some hook =>
          obtain ⟨m', b, hrun, h'⟩ := runBeforeHook h hq hhook
          refine ⟨m', h', ?_⟩
          dsimp only
          rw [hrun]
          cases b
          · exact .inl rfl
          · exact .inr ⟨ev, rfl⟩

theorem removeTombstoneEntry {m m' : WorkerManager} (h : SafetyInv m) {id : WorkerID}
    (hs : m.removeTombstoneEntry id = .ok m') : SafetyInv m' := by
  unfold WorkerManager.removeTombstoneEntry at hs
  split at hs
  · cases hs
    exact h
  · split at hs
    · cases hs
      exact h.erase id
    · cases hs

/-- The first heartbeat of a live entry never panics: `MarkAsOnline` is only called on
a waiting or created entry, and the channel is only closed while a live entry waits,
which cannot happen once it is closed. -/
theorem onFirstHeartbeat_no_panic {m : WorkerManager} (h : SafetyInv m)
    {workerID : WorkerID} {ref : Nat} {fromNode : ExecutorID} {now : Nat} {p : Panic}
    (hlive : m.IsLive ref) (hs : m.onFirstHeartbeat workerID ref fromNode now = .error p) :
    False := by
  unfold WorkerManager.onFirstHeartbeat at hs
  split at hs
  · dsimp only at hs
    split at hs
    · cases hs
    · rename_i hne
      have hw : (m.entry ref).state = .wait := not_not.1 hne
      split at hs
      · rename_i hon
        exact (WorkerEntry.markAsOnline_eq_error.1 hon).1 (.inr hw)
      · split at hs
        · unfold WorkerManager.closeAllWorkersReady at hs
          split at hs
          · rename_i hc
            exact (h.closed_no_wait hc).2 ref hlive hw
          · cases hs
        · cases hs
  · dsimp only at hs
    split at hs
    · cases hs
    · rename_i hne
      split at hs
      · rename_i hon
        exact (WorkerEntry.markAsOnline_eq_error.1 hon).1 (.inl (not_not.1 hne))
      · cases hs

/-- The only panic of `HandleHeartbeat` is the stale-master check. -/
theorem handleHeartbeat_eq_error {m : WorkerManager} (h : SafetyInv m)
    {msg : HeartbeatPingMessage} {fromNode : ExecutorID} {now : Nat} {p : Panic}
    (hs : m.handleHeartbeat msg fromNode now = .error p) : p = .staleMaster := by
  unfold WorkerManager.handleHeartbeat at hs
  split at hs
  · cases hs
  · split at hs
    · rename_i hep
      cases hs
      exact WorkerManager.checkMasterEpochMatch_eq_error hep
    · cases hs
    · split at hs
      · cases hs
      · rename_i ref hlookup
        dsimp only at hs
        have h₁ : SafetyInv (m.setEntry ref
            ((if msg.isFinished = true then (m.entry ref).setFinished
              else m.entry ref).setExpireTime (m.nextExpireTime now))) :=
          h.setEntry_of_state_eq (by split <;> simp)
        exact (onFirstHeartbeat_no_panic h₁ ⟨msg.fromWorkerID, hlookup⟩ hs).elim

/-- A successful step of the harness keeps the invariant, whatever the iteration order
given to the checker. -/
theorem step_ok {hs hs' : Harness} {a : Action} (h : SafetyInv hs.wm)
    (he : Harness.step hs a = .ok hs') : SafetyInv hs'.wm := by
  cases a with
  | beforeStartingWorker workerID executorID now =>
      obtain ⟨wm, hwm, rfl⟩ := Harness.map_withManager_eq_ok he
      exact h.beforeStartingWorker hwm
  | abortCreatingWorker workerID err =>
      cases he
      exact h.abortCreatingWorker workerID err
  | handleHeartbeat msg fromNode now =>
      obtain ⟨wm, hwm, rfl⟩ := Harness.map_withManager_eq_ok he
      exact h.handleHeartbeat hwm
  | onWorkerStatusUpdateMessage msg =>
      obtain ⟨wm, hwm, rfl⟩ := Harness.map_withManager_eq_ok he
      exact h.onWorkerStatusUpdateMessage hwm
  | checkWorkerEntriesOnce now order =>
      obtain ⟨m₁, err₁, hrun, h₁⟩ := h.checkWorkerEntriesOnce now order
      simp only [Harness.step, hrun] at he
      cases err₁ with
      | none =>
          cases he
          exact h₁
      | some err =>
          cases he
          exact h₁.onError err
  | initAfterRecoverLoad loaded =>
      cases loaded with
      | ok persisted =>
          obtain ⟨wm, hwm, rfl⟩ := Harness.map_withManager_eq_ok he
          exact h.initAfterRecoverLoad hwm
      | error err =>
          simp only [Harness.step] at he
          split at he
          · cases he
          · cases he
            exact h.onError err
  | initAfterRecoverFinish =>
      simp only [Harness.step] at he
      split at he
      · rename_i hst
        obtain ⟨wm, hwm, rfl⟩ := Harness.map_withManager_eq_ok he
        obtain ⟨m', hf, h'⟩ := h.initAfterRecoverFinish hst
        rw [hf, Except.ok.injEq] at hwm
        exact hwm ▸ h'
      · cases he
        exact h
  | tick readsStatus =>
      simp only [Harness.step] at he
      rcases h.tickOne with hidle | ⟨m', h', hc | ⟨ev, hd⟩⟩
      · rw [hidle] at he
        cases he
        exact h
      · rw [hc] at he
        cases he
        exact h'
      · rw [hd] at he
        dsimp only at he
        split at he
        · split at he
          · cases he
          · cases he
            exact h'
        · cases he
          exact h'
  | removeTombstoneEntry workerID =>
      obtain ⟨wm, hwm, rfl⟩ := Harness.map_withManager_eq_ok he
      exact h.removeTombstoneEntry hwm

/-- The panics a step of the harness can reach, from a manager with the invariant: a
worker created twice, a stale master, a second `InitAfterRecover`, a stale handle, and
the cleaning of an entry that is not a tombstone. -/
theorem step_error {hs : Harness} {a : Action} {p : Panic} (h : SafetyInv hs.wm)
    (he : Harness.step hs a = .error p) :
    p = .workerAlreadyExists ∨ p = .staleMaster ∨ p = .initAfterRecoverUnreachable ∨
      p = .staleHandle ∨ p = .notATombstone := by
  cases a with
  | beforeStartingWorker workerID executorID now =>
      exact .inl (WorkerManager.beforeStartingWorker_eq_error
        (Harness.map_withManager_eq_error he))
  | abortCreatingWorker workerID err => cases he
  | handleHeartbeat msg fromNode now =>
      exact .inr (.inl (h.handleHeartbeat_eq_error (Harness.map_withManager_eq_error he)))
  | onWorkerStatusUpdateMessage msg =>
      exact .inr (.inl (WorkerManager.onWorkerStatusUpdateMessage_eq_error
        (Harness.map_withManager_eq_error he)))
  | checkWorkerEntriesOnce now order =>
      -- the checker only panics in `MarkAsOffline`, which the invariant rules out
      obtain ⟨m₁, err₁, hrun, -⟩ := h.checkWorkerEntriesOnce now order
      simp only [Harness.step, hrun] at he
      cases err₁ <;> cases he
  | initAfterRecoverLoad loaded =>
      cases loaded with
      | ok persisted =>
          exact .inr (.inr (.inl (WorkerManager.initAfterRecoverLoad_eq_error
            (Harness.map_withManager_eq_error he))))
      | error err =>
          simp only [Harness.step] at he
          split at he
          · cases he
            exact .inr (.inr (.inl rfl))
          · cases he
  | initAfterRecoverFinish =>
      simp only [Harness.step] at he
      split at he
      · rename_i hst
        obtain ⟨m', hf, -⟩ := h.initAfterRecoverFinish hst
        rw [hf] at he
        cases he
      · cases he
  | tick readsStatus =>
      simp only [Harness.step] at he
      rcases h.tickOne with hidle | ⟨m', -, hc | ⟨ev, hd⟩⟩
      · rw [hidle] at he
        cases he
      · rw [hc] at he
        cases he
      · rw [hd] at he
        dsimp only at he
        split at he
        · split at he
          · rename_i hst
            cases he
            exact .inr (.inr (.inr (.inl (WorkerHandle.status_eq_error hst))))
          · cases he
        · cases he
  | removeTombstoneEntry workerID =>
      exact .inr (.inr (.inr (.inr (WorkerManager.removeTombstoneEntry_eq_error
        (Harness.map_withManager_eq_error he)))))

end SafetyInv

/-- Every reachable manager has the invariant. -/
theorem safetyInv_of_reachable {masterID : MasterID} {epoch : Epoch} {isInit : Bool}
    {timeouts : TimeoutConfig} {hs : Harness}
    (h : Harness.Reachable masterID epoch isInit timeouts hs) : SafetyInv hs.wm :=
  Transition.Reachable.inv (P := fun hs => SafetyInv hs.wm)
    (SafetyInv.newWorkerManager masterID epoch isInit timeouts)
    (fun _ _ _ hinv _ he => SafetyInv.step_ok hinv he) h

/-- No interleaving reaches the "Unreachable" panics of the `Mark` methods or closes
`allWorkersReady` twice. -/
theorem no_mark_or_close_panic (masterID : MasterID) (epoch : Epoch) (isInit : Bool)
    (timeouts : TimeoutConfig) :
    ¬ Transition.PanicReachable Harness.step Harness.allowed
      (Harness.init (newWorkerManager masterID epoch isInit timeouts)) IsMarkOrClosePanic := by
  refine Transition.not_panicReachable (P := fun hs => SafetyInv hs.wm)
    (fun _ hr => safetyInv_of_reachable hr) ?_
  intro hs a p h _ he hbad
  rcases SafetyInv.step_error h he with rfl | rfl | rfl | rfl | rfl <;>
    simp [IsMarkOrClosePanic] at hbad

/-- A worker is created and its creation aborted; its lease runs out before `Tick` runs,
so the checker queues an offline event behind the dispatch-failed one. The first tick
deletes the entry, the second marks the old entry a tombstone and hands the offline
event to a callback that reads the status of its handle. -/
def abortThenTimeout : List Action :=
  [.beforeStartingWorker "w" "e" 0, .abortCreatingWorker "w" (.status .aborted),
    .checkWorkerEntriesOnce 20001 ["w"], .tick false, .tick true]

theorem stale_handle_after_abort_then_timeout :
    Transition.PanicReachable Harness.step Harness.allowed
      (Harness.init (newWorkerManager "jm" 1 true TimeoutConfig.defaultTimeoutConfig))
      (· = .staleHandle) := by
  have hrun : Transition.run Harness.step
      (Harness.init (newWorkerManager "jm" 1 true TimeoutConfig.defaultTimeoutConfig))
      abortThenTimeout = .error .staleHandle := rfl
  exact Transition.panicReachable_run .init (by decide) hrun rfl

end Master

end Microcosm
