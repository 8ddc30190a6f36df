import Microcosm.Lib.Master.EntryHistory
import Microcosm.Lib.Master.Safety

/-!
# The manager refines the histories of its entries

Each call of the manager moves the history of every entry by moves of `EntryHistory`
(`Evolves`): the history of the entry at address `r` is its state and the kinds of the
events whose ghost `origin` is `r`, delivered and queued. So the events delivered for
one entry, from its creation by `BeforeStartingWorker` or `InitAfterRecover` on, have
the guarantees of `EntryHistory.Inv.delivered`, over every interleaving
(`delivered_per_entry`).

Two facts about the queue carry the argument (`QueueInv`): every queued event was
produced by an entry already allocated, so that a new entry starts with no event; and
every queued event carries the hook of its kind for its own entry, so that `Tick` only
changes the state of the entry an event belongs to.
-/

namespace Microcosm

namespace Master

open EntryHistory

/-- The kinds of the events of `evs` produced by the entry at `r`, oldest first. -/
def kindsOf (evs : List MasterEvent) (r : Nat) : List MasterEventType :=
  (evs.filter fun ev => ev.origin == some r).map (·.tp)

@[simp] theorem kindsOf_nil (r : Nat) : kindsOf [] r = [] := rfl

@[simp] theorem kindsOf_append (l₁ l₂ : List MasterEvent) (r : Nat) :
    kindsOf (l₁ ++ l₂) r = kindsOf l₁ r ++ kindsOf l₂ r := by
  simp [kindsOf]

theorem kindsOf_singleton_of_eq {ev : MasterEvent} {r : Nat} (h : ev.origin = some r) :
    kindsOf [ev] r = [ev.tp] := by
  simp [kindsOf, h]

theorem kindsOf_singleton_of_ne {ev : MasterEvent} {r : Nat} (h : ev.origin ≠ some r) :
    kindsOf [ev] r = [] := by
  simp [kindsOf, h]

theorem kindsOf_cons (ev : MasterEvent) (l : List MasterEvent) (r : Nat) :
    kindsOf (ev :: l) r = kindsOf [ev] r ++ kindsOf l r := by
  rw [← kindsOf_append, List.singleton_append]

/-- An address no event was produced by has no kinds. -/
theorem kindsOf_eq_nil {evs : List MasterEvent} {n r : Nat}
    (h : ∀ ev ∈ evs, ∀ r' ∈ ev.origin, r' < n) (hr : n ≤ r) : kindsOf evs r = [] := by
  simp only [kindsOf, List.map_eq_nil_iff, List.filter_eq_nil_iff, beq_iff_eq]
  intro ev hev horigin
  have := h ev hev r (by simp [horigin])
  omega

/-- The hook each kind of event is queued with: the offline and status hooks act on the
entry the event belongs to, the dispatch-failed hook on the map only. -/
def MasterEvent.Fits (ev : MasterEvent) : Prop :=
  match ev.tp with
  | .workerOnlineEvent => ev.beforeHook = none
  | .workerOfflineEvent => ∃ r, ev.origin = some r ∧ ev.beforeHook = some (.markAsTombstone r)
  | .workerStatusUpdatedEvent =>
      ∃ r s, ev.origin = some r ∧ ev.beforeHook = some (.updateStatus r s)
  | .workerDispatchFailedEvent =>
      ev.origin = none ∧ ∃ id, ev.beforeHook = some (.deleteEntry id)

namespace WorkerManager

/-- The history of the entry at `r`, given the kinds of its delivered events. -/
def history (m : WorkerManager) (d : List MasterEventType) (r : Nat) : EntryHistory :=
  ⟨(m.entry r).state, d, kindsOf m.eventQueue r⟩

/-- Every queued event was produced by an allocated entry and has the hook of its kind. -/
structure QueueInv (m : WorkerManager) : Prop where
  origin_lt : ∀ ev ∈ m.eventQueue, ∀ r ∈ ev.origin, r < m.nextRef
  fits : ∀ ev ∈ m.eventQueue, ev.Fits

/-- `m'` keeps the queue invariant, and each entry's history goes from its history in `m`
to its history in `m'` by moves; an entry allocated on the way starts from nothing. -/
structure Evolves (m m' : WorkerManager) : Prop where
  queueInv : m'.QueueInv
  next_le : m.nextRef ≤ m'.nextRef
  moves : ∀ r d, (m.nextRef ≤ r → d = []) →
    Relation.ReflTransGen Move (m.history d r) (m'.history d r)

@[simp] theorem history_setEntry_self (m : WorkerManager) (ref : Nat) (e : WorkerEntry)
    (d : List MasterEventType) :
    (m.setEntry ref e).history d ref = ⟨e.state, d, kindsOf m.eventQueue ref⟩ := by
  simp [history]

@[simp] theorem history_setEntry_of_ne (m : WorkerManager) {ref r : Nat} (e : WorkerEntry)
    (d : List MasterEventType) (h : r ≠ ref) :
    (m.setEntry ref e).history d r = m.history d r := by
  simp [history, h]

theorem history_enqueue_self (m : WorkerManager) {ev : MasterEvent} (d : List MasterEventType)
    {r : Nat} (h : ev.origin = some r) :
    ({ m with eventQueue := m.eventQueue ++ [ev] } : WorkerManager).history d r =
      ⟨(m.entry r).state, d, kindsOf m.eventQueue r ++ [ev.tp]⟩ := by
  simp [history, entry, kindsOf_singleton_of_eq h]

theorem history_enqueue_of_ne (m : WorkerManager) {ev : MasterEvent} (d : List MasterEventType)
    {r : Nat} (h : ev.origin ≠ some r) :
    ({ m with eventQueue := m.eventQueue ++ [ev] } : WorkerManager).history d r =
      m.history d r := by
  simp [history, entry, kindsOf_singleton_of_ne h]

@[simp] theorem history_onError (m : WorkerManager) (err : Error) (d : List MasterEventType)
    (r : Nat) : (m.onError err).history d r = m.history d r := rfl

theorem QueueInv.setEntry {m : WorkerManager} (hq : m.QueueInv) (ref : Nat) (e : WorkerEntry) :
    (m.setEntry ref e).QueueInv :=
  ⟨hq.origin_lt, hq.fits⟩

theorem QueueInv.enqueue {m : WorkerManager} (hq : m.QueueInv) {ev : MasterEvent}
    (hlt : ∀ r ∈ ev.origin, r < m.nextRef) (hfits : ev.Fits) :
    ({ m with eventQueue := m.eventQueue ++ [ev] } : WorkerManager).QueueInv := by
  constructor
  · intro ev' hev'
    rcases List.mem_append.1 hev' with hev' | hev'
    · exact hq.origin_lt ev' hev'
    · rw [List.mem_singleton.1 hev']
      exact hlt
  · intro ev' hev'
    rcases List.mem_append.1 hev' with hev' | hev'
    · exact hq.fits ev' hev'
    · rw [List.mem_singleton.1 hev']
      exact hfits

namespace Evolves

theorem refl {m : WorkerManager} (hq : m.QueueInv) : Evolves m m :=
  ⟨hq, le_rfl, fun _ _ _ => .refl⟩

theorem trans {m₁ m₂ m₃ : WorkerManager} (h₁ : Evolves m₁ m₂) (h₂ : Evolves m₂ m₃) :
    Evolves m₁ m₃ := by
  refine ⟨h₂.queueInv, Nat.le_trans h₁.next_le h₂.next_le, fun r d hd => ?_⟩
  have hd₂ : m₂.nextRef ≤ r → d = [] := fun hr => hd (Nat.le_trans h₁.next_le hr)
  exact (h₁.moves r d hd).trans (h₂.moves r d hd₂)

/-- A call that changes no history. -/
theorem of_history_eq {m m' : WorkerManager} (hq : m'.QueueInv) (hn : m.nextRef ≤ m'.nextRef)
    (h : ∀ r d, m'.history d r = m.history d r) : Evolves m m' :=
  ⟨hq, hn, fun r d _ => h r d ▸ .refl⟩

/-- A call that moves the history of one entry and leaves the others. -/
theorem of_one {m m' : WorkerManager} (ref : Nat) (hq : m'.QueueInv)
    (hn : m.nextRef ≤ m'.nextRef) (hother : ∀ r d, r ≠ ref → m'.history d r = m.history d r)
    (hmove : ∀ d, Move (m.history d ref) (m'.history d ref)) : Evolves m m' := by
  refine ⟨hq, hn, fun r d _ => ?_⟩
  by_cases hr : r = ref
  · subst hr
    exact .single (hmove d)
  · exact hother r d hr ▸ .refl

theorem onError {m : WorkerManager} (hq : m.QueueInv) (err : Error) :
    Evolves m (m.onError err) :=
  of_history_eq ⟨hq.origin_lt, hq.fits⟩ le_rfl (fun _ _ => rfl)

/-- `enqueueOrReport` after a write: if the enqueue fails, only the write happened. -/
theorem enqueueOrReport {m m₁ : WorkerManager} {ev : MasterEvent}
    (happ : Evolves m { m₁ with eventQueue := m₁.eventQueue ++ [ev] })
    (herr : Evolves m m₁) : Evolves m (m₁.enqueueOrReport ev) := by
  rcases m₁.enqueueOrReport_cases ev with heq | ⟨err, heq⟩
  · rw [heq]
    exact happ
  · rw [heq]
    exact herr.trans (onError herr.queueInv err)

/-- A new entry starts from nothing: no event was produced at the next address. -/
theorem putNew {m : WorkerManager} (hq : m.QueueInv) (id : WorkerID) (e : WorkerEntry) :
    Evolves m (m.putNew id e) := by
  have hq' : (m.putNew id e).QueueInv :=
    ⟨fun ev hev r hr => Nat.lt_succ_of_lt (hq.origin_lt ev hev r hr), hq.fits⟩
  refine ⟨hq', by simp, fun r d hd => ?_⟩
  by_cases hr : r = m.nextRef
  · subst hr
    obtain rfl := hd le_rfl
    have hpend : kindsOf m.eventQueue m.nextRef = [] := kindsOf_eq_nil hq.origin_lt le_rfl
    have hnew : (m.putNew id e).history [] m.nextRef = ⟨e.state, [], []⟩ := by
      simp [history, hpend]
    exact hnew ▸ .single (Move.alloc e.state rfl hpend)
  · have hentry : (m.putNew id e).entry r = m.entry r :=
      Function.update_of_ne hr _ _
    have hhist : (m.putNew id e).history d r = m.history d r := by
      simp [history, hentry]
    exact hhist ▸ .refl

/-- A write to one entry, moving its history. -/
theorem setEntry {m : WorkerManager} (hq : m.QueueInv) {ref : Nat} {e : WorkerEntry}
    (hmove : ∀ d, Move (m.history d ref) ⟨e.state, d, kindsOf m.eventQueue ref⟩) :
    Evolves m (m.setEntry ref e) :=
  of_one ref (hq.setEntry ref e) le_rfl (fun _ d hne => m.history_setEntry_of_ne e d hne)
    (fun d => by rw [history_setEntry_self]; exact hmove d)

/-- A write to one entry that keeps its state. -/
theorem setEntry_of_state_eq {m : WorkerManager} (hq : m.QueueInv) {ref : Nat}
    {e : WorkerEntry} (he : e.state = (m.entry ref).state) : Evolves m (m.setEntry ref e) := by
  refine of_history_eq (hq.setEntry ref e) le_rfl (fun r d => ?_)
  by_cases hr : r = ref
  · subst hr
    rw [history_setEntry_self, he]
    rfl
  · exact m.history_setEntry_of_ne e d hr

/-- An event that belongs to no entry. -/
theorem enqueue_of_none {m : WorkerManager} (hq : m.QueueInv) {ev : MasterEvent}
    (hnone : ev.origin = none) (hfits : ev.Fits) :
    Evolves m { m with eventQueue := m.eventQueue ++ [ev] } :=
  of_history_eq (hq.enqueue (by simp [hnone]) hfits) le_rfl
    (fun _ d => m.history_enqueue_of_ne d (by simp [hnone]))

/-- An event of an allocated entry, moving its history. -/
theorem enqueue_self {m : WorkerManager} (hq : m.QueueInv) {ref : Nat} {ev : MasterEvent}
    (hr : ref < m.nextRef) (horigin : ev.origin = some ref) (hfits : ev.Fits)
    (hmove : ∀ d, Move (m.history d ref)
      ⟨(m.entry ref).state, d, kindsOf m.eventQueue ref ++ [ev.tp]⟩) :
    Evolves m { m with eventQueue := m.eventQueue ++ [ev] } := by
  refine of_one ref (hq.enqueue (by simp [horigin, hr]) hfits) le_rfl (fun r d hne => ?_)
    (fun d => by rw [m.history_enqueue_self d horigin]; exact hmove d)
  exact m.history_enqueue_of_ne d (by simp [horigin, Ne.symm hne])

/-- A write to an allocated entry followed by an event of that entry. -/
theorem setEntry_enqueue {m : WorkerManager} (hq : m.QueueInv) {ref : Nat} {e : WorkerEntry}
    {ev : MasterEvent} (hr : ref < m.nextRef) (horigin : ev.origin = some ref)
    (hfits : ev.Fits)
    (hmove : ∀ d, Move (m.history d ref) ⟨e.state, d, kindsOf m.eventQueue ref ++ [ev.tp]⟩) :
    Evolves m { m.setEntry ref e with eventQueue := (m.setEntry ref e).eventQueue ++ [ev] } := by
  refine of_one ref ((hq.setEntry ref e).enqueue (by simp [horigin, hr]) hfits) le_rfl
    (fun r d hne => ?_) (fun d => ?_)
  · rw [(m.setEntry ref e).history_enqueue_of_ne d (by simp [horigin, Ne.symm hne])]
    exact m.history_setEntry_of_ne e d hne
  · rw [(m.setEntry ref e).history_enqueue_self d horigin, entry_setEntry_self,
      setEntry_eventQueue]
    exact hmove d

theorem beforeStartingWorker {m m' : WorkerManager} (hq : m.QueueInv) {workerID : WorkerID}
    {executorID : ExecutorID} {now : Nat}
    (hs : m.beforeStartingWorker workerID executorID now = .ok m') : Evolves m m' := by
  unfold WorkerManager.beforeStartingWorker at hs
  split at hs
  · cases hs
  · cases hs
    exact putNew hq _ _

theorem abortCreatingWorker {m : WorkerManager} (hq : m.QueueInv) (workerID : WorkerID)
    (err : Error) : Evolves m (m.abortCreatingWorker workerID err) :=
  enqueueOrReport (enqueue_of_none hq rfl ⟨rfl, workerID, rfl⟩) (refl hq)

theorem onWorkerStatusUpdateMessage {m m' : WorkerManager} (hq : m.QueueInv)
    (hlt : ∀ ref, m.IsLive ref → ref < m.nextRef) {msg : WorkerStatusMessage}
    (hs : m.onWorkerStatusUpdateMessage msg = .ok m') : Evolves m m' := by
  unfold WorkerManager.onWorkerStatusUpdateMessage at hs
  split at hs
  · cases hs
  · cases hs
    exact refl hq
  · split at hs
    · cases hs
      exact refl hq
    · rename_i ref hlookup
      cases hs
      exact enqueueOrReport (enqueue_self hq (hlt ref ⟨msg.worker, hlookup⟩) rfl
        ⟨ref, msg.status, rfl, rfl⟩ (fun _ => .status)) (refl hq)

theorem onFirstHeartbeat {m m' : WorkerManager} (hq : m.QueueInv) {workerID : WorkerID}
    {ref : Nat} {fromNode : ExecutorID} {now : Nat} (hr : ref < m.nextRef)
    (hs : m.onFirstHeartbeat workerID ref fromNode now = .ok m') : Evolves m m' := by
  rcases WorkerManager.onFirstHeartbeat_eq_ok hs with rfl | ⟨e', hon, hcases⟩
  · exact refl hq
  · have he' := (WorkerEntry.markAsOnline_eq_ok.1 hon).2
    rcases hcases with ⟨-, hw, hwait⟩ | ⟨-, hc, rfl⟩
    · -- the waiting period: a waiting entry goes online without an event
      have h₁ : Evolves m (m.setEntry ref e') := setEntry hq (fun _ => by
        rw [he']
        exact .markOnline (.inr hw))
      rcases hwait with rfl | ⟨-, -, rfl⟩
      · exact h₁
      · exact h₁.trans (of_history_eq ⟨h₁.queueInv.origin_lt, h₁.queueInv.fits⟩ le_rfl
          (fun _ _ => rfl))
    · -- the ready state: a created entry goes online and is reported
      refine enqueueOrReport (setEntry_enqueue hq hr rfl rfl (fun _ => ?_))
        (setEntry hq (fun _ => ?_))
      · rw [he']
        exact .online hc
      · rw [he']
        exact .markOnline (.inl hc)

theorem handleHeartbeat {m m' : WorkerManager} (hq : m.QueueInv)
    (hlt : ∀ ref, m.IsLive ref → ref < m.nextRef) {msg : HeartbeatPingMessage}
    {fromNode : ExecutorID} {now : Nat} (hs : m.handleHeartbeat msg fromNode now = .ok m') :
    Evolves m m' := by
  rcases WorkerManager.handleHeartbeat_eq_ok hs with rfl | ⟨ref, hlookup, hs⟩
  · exact refl hq
  · -- refreshing the entry keeps its state
    have h₁ : Evolves m (m.setEntry ref
        ((if msg.isFinished = true then (m.entry ref).setFinished
          else m.entry ref).setExpireTime (m.nextExpireTime now))) :=
      setEntry_of_state_eq hq (by split <;> simp)
    exact h₁.trans (onFirstHeartbeat h₁.queueInv (hlt ref ⟨msg.fromWorkerID, hlookup⟩) hs)

/-- The checker's loop: each entry it takes offline gets its offline event, or, when the
queue is full, goes offline without one and the loop stops. -/
theorem checkWorkerEntriesLoop (now : Nat) :
    ∀ (order : List WorkerID) {m m' : WorkerManager} {err : Option Error}, m.QueueInv →
      (∀ ref, m.IsLive ref → ref < m.nextRef) →
      m.checkWorkerEntriesLoop now order = .ok (m', err) → Evolves m m'
  | [], m, m', err, hq, _, hs => by
      cases hs
      exact refl hq
  | workerID :: rest, m, m', err, hq, hlt, hs => by
      unfold WorkerManager.checkWorkerEntriesLoop at hs
      split at hs
      · exact checkWorkerEntriesLoop now rest hq hlt hs
      · rename_i ref hlookup
        have hr : ref < m.nextRef := hlt ref ⟨workerID, hlookup⟩
        dsimp only at hs
        split at hs
        · exact checkWorkerEntriesLoop now rest hq hlt hs
        split at hs
        · exact checkWorkerEntriesLoop now rest hq hlt hs
        split at hs
        · cases hs
        · rename_i e' hoff
          obtain ⟨hst, he'⟩ := WorkerEntry.markAsOffline_eq_ok.1 hoff
          split at hs
          · -- the queue is full: the entry is offline, with no event
            cases hs
            exact setEntry hq (fun _ => by rw [he']; exact .markOffline hst)
          · rename_i m₂ henq
            obtain ⟨-, rfl⟩ := WorkerManager.enqueueEvent_eq_ok.1 henq
            have h₂ := checkWorkerEntriesLoop now rest
              ((hq.setEntry ref e').enqueue (by simp [hr]) (by exact ⟨ref, rfl, rfl⟩))
              (fun r' h' => hlt r' h') hs
            exact (setEntry_enqueue hq hr rfl (by exact ⟨ref, rfl, rfl⟩)
              (fun _ => by rw [he']; exact .offline hst)).trans h₂

theorem checkWorkerEntriesOnce {m m' : WorkerManager} (hq : m.QueueInv)
    (hlt : ∀ ref, m.IsLive ref → ref < m.nextRef) {now : Nat} {order : List WorkerID}
    {err : Option Error} (hs : m.checkWorkerEntriesOnce now order = .ok (m', err)) :
    Evolves m m' := by
  unfold WorkerManager.checkWorkerEntriesOnce at hs
  split at hs
  · cases hs
    exact refl hq
  · exact checkWorkerEntriesLoop now order hq hlt hs

/-- The loop of `InitAfterRecover` that creates waiting entries. -/
theorem putWaiting :
    ∀ (ps : List (Sigma fun _ : WorkerID => WorkerStatus)) {m : WorkerManager}, m.QueueInv →
      Evolves m (ps.foldl (fun m p =>
          if p.2.code = .finished then m
          else m.putNew p.1 (newWaitingWorkerEntry p.1 (some p.2))) m)
  | [], m, hq => refl hq
  | p :: ps, m, hq => by
      simp only [List.foldl_cons]
      split
      · exact putWaiting ps hq
      · have h₁ := putNew hq p.1 (newWaitingWorkerEntry p.1 (some p.2))
        exact h₁.trans (putWaiting ps h₁.queueInv)

/-- Changing the manager's state changes no history. -/
theorem setState {m : WorkerManager} (hq : m.QueueInv) (st : WorkerManagerState) :
    Evolves m { m with state := st } :=
  of_history_eq ⟨hq.origin_lt, hq.fits⟩ le_rfl (fun _ _ => rfl)

theorem initAfterRecoverLoad {m m' : WorkerManager} (hq : m.QueueInv)
    {persisted : AList (fun _ : WorkerID => WorkerStatus)}
    (hs : m.initAfterRecoverLoad persisted = .ok m') : Evolves m m' := by
  unfold WorkerManager.initAfterRecoverLoad at hs
  split at hs
  · cases hs
  · have h₁ := putWaiting persisted.entries hq
    dsimp only at hs
    split at hs
    · cases hs
      exact h₁.trans (setState h₁.queueInv .ready)
    · cases hs
      exact h₁.trans (setState h₁.queueInv .waitingHeartbeat)

theorem markRecoveredTombstones :
    ∀ (refs : List Nat) {m m' : WorkerManager}, m.QueueInv →
      m.markRecoveredTombstones refs = .ok m' → Evolves m m'
  | [], m, m', hq, hs => by
      cases hs
      exact refl hq
  | r :: rest, m, m', hq, hs => by
      unfold WorkerManager.markRecoveredTombstones at hs
      dsimp only at hs
      split at hs
      · split at hs
        · cases hs
        · rename_i e' htomb
          have he' := (WorkerEntry.markAsTombstone_eq_ok.1 htomb).2
          have h₁ : Evolves m (m.setEntry r e') :=
            setEntry hq (fun _ => by rw [he']; exact .markTombstone)
          exact h₁.trans (markRecoveredTombstones rest h₁.queueInv hs)
      · exact markRecoveredTombstones rest hq hs

theorem initAfterRecoverFinish {m m' : WorkerManager} (hq : m.QueueInv)
    (hs : m.initAfterRecoverFinish = .ok m') : Evolves m m' := by
  unfold WorkerManager.initAfterRecoverFinish at hs
  split at hs
  · cases hs
  · rename_i m₁ hrun
    cases hs
    have h₁ := markRecoveredTombstones _ hq hrun
    exact h₁.trans (setState h₁.queueInv .ready)

theorem removeTombstoneEntry {m m' : WorkerManager} (hq : m.QueueInv) {id : WorkerID}
    (hs : m.removeTombstoneEntry id = .ok m') : Evolves m m' := by
  unfold WorkerManager.removeTombstoneEntry at hs
  split at hs
  · cases hs
    exact refl hq
  · split at hs
    · cases hs
      exact of_history_eq ⟨hq.origin_lt, hq.fits⟩ le_rfl (fun _ _ => rfl)
    · cases hs

end Evolves

/-- What running the hook of `ev` did to the manager, `b` being the hook's answer: only the
entry of the event may change, and only into a tombstone; an offline event is delivered
on a tombstone, a status event on an entry that is not one, and only a status event on a
tombstone is dropped. -/
structure HookEffect (m m₁ : WorkerManager) (ev : MasterEvent) (b : Bool) : Prop where
  queue_eq : m₁.eventQueue = m.eventQueue
  next_eq : m₁.nextRef = m.nextRef
  other : ∀ r, ev.origin ≠ some r → (m₁.entry r).state = (m.entry r).state
  own : ∀ r, ev.origin = some r →
    (m₁.entry r).state = (m.entry r).state ∨ (m₁.entry r).state = .tombstone
  delivered : b = true → ∀ r, ev.origin = some r →
    (ev.tp = .workerOfflineEvent → (m₁.entry r).state = .tombstone) ∧
    (ev.tp = .workerStatusUpdatedEvent → (m₁.entry r).state ≠ .tombstone)
  cancelled : b = false → ev.tp = .workerStatusUpdatedEvent ∧ ∀ r, ev.origin = some r →
    (m.entry r).state = .tombstone ∧ (m₁.entry r).state = (m.entry r).state

theorem hookEffect_none {m : WorkerManager} {ev : MasterEvent} (hfits : ev.Fits)
    (hh : ev.beforeHook = none) : HookEffect m m ev true := by
  -- without a hook the event is an online event
  have htp : ev.tp = .workerOnlineEvent := by
    unfold MasterEvent.Fits at hfits
    split at hfits
    · assumption
    · obtain ⟨_, _, hk⟩ := hfits
      simp [hh] at hk
    · obtain ⟨_, _, _, hk⟩ := hfits
      simp [hh] at hk
    · obtain ⟨_, _, hk⟩ := hfits
      simp [hh] at hk
  refine ⟨rfl, rfl, fun _ _ => rfl, fun _ _ => .inl rfl, fun _ _ _ => ?_, nofun⟩
  simp [htp]

theorem hookEffect_some {m m₁ : WorkerManager} {ev : MasterEvent} {hook : BeforeHook}
    {b : Bool} (hfits : ev.Fits) (hh : ev.beforeHook = some hook)
    (hrun : m.runBeforeHook hook = .ok (m₁, b)) : HookEffect m m₁ ev b := by
  unfold MasterEvent.Fits at hfits
  split at hfits
  · rw [hh] at hfits
    cases hfits
  · -- the offline hook makes its entry a tombstone
    rename_i htp
    obtain ⟨r₀, hor, hk⟩ := hfits
    rw [hh, Option.some.injEq] at hk
    subst hk
    simp only [runBeforeHook] at hrun
    split at hrun
    · cases hrun
    · rename_i e he
      cases hrun
      have he' := (WorkerEntry.markAsTombstone_eq_ok.1 he).2
      refine ⟨rfl, rfl, fun r hr => ?_, fun r hr => ?_, fun _ r hr => ?_, (fun h => by cases h)⟩
      · have hne : r ≠ r₀ := fun h => hr (h ▸ hor)
        simp [hne]
      · obtain rfl : r₀ = r := Option.some.inj (hor.symm.trans hr)
        simp [he']
      · obtain rfl : r₀ = r := Option.some.inj (hor.symm.trans hr)
        simp [he', htp]
  · -- the status hook writes the status unless its entry is a tombstone
    rename_i htp
    obtain ⟨r₀, st, hor, hk⟩ := hfits
    rw [hh, Option.some.injEq] at hk
    subst hk
    simp only [runBeforeHook] at hrun
    split at hrun
    · rename_i htomb
      cases hrun
      refine ⟨rfl, rfl, fun _ _ => rfl, fun _ _ => .inl rfl, (fun h => by cases h),
        fun _ => ⟨htp, fun r hr => ?_⟩⟩
      obtain rfl : r₀ = r := Option.some.inj (hor.symm.trans hr)
      exact ⟨WorkerEntry.isTombstone_eq_true.1 htomb, rfl⟩
    · rename_i htomb
      cases hrun
      refine ⟨rfl, rfl, fun r hr => ?_, fun r hr => ?_, fun _ r hr => ?_, (fun h => by cases h)⟩
      · have hne : r ≠ r₀ := fun h => hr (h ▸ hor)
        simp [hne]
      · obtain rfl : r₀ = r := Option.some.inj (hor.symm.trans hr)
        simp
      · obtain rfl : r₀ = r := Option.some.inj (hor.symm.trans hr)
        simp only [entry_setEntry_self, WorkerEntry.updateStatus_state, htp]
        exact ⟨(fun h => by cases h), fun _ h => htomb (WorkerEntry.isTombstone_eq_true.2 h)⟩
  · -- the dispatch-failed hook only deletes the ID from the map
    obtain ⟨hnone, id, hk⟩ := hfits
    rw [hh, Option.some.injEq] at hk
    subst hk
    cases hrun
    refine ⟨rfl, rfl, fun _ _ => rfl, fun r hr => ?_, fun _ r hr => ?_, (fun h => by cases h)⟩
    · simp [hnone] at hr
    · simp [hnone] at hr

/-- `Tick` finds the queue empty, or pops the oldest event, runs its hook and delivers or
drops it. -/
theorem tickOne_cases {m : WorkerManager} (hq : m.QueueInv) {t : TickStep}
    (ht : m.tickOne = .ok t) :
    t = .idle ∨ ∃ ev rest, m.eventQueue = ev :: rest ∧
      ((∃ m₁, t = .deliver m₁ ev ∧ HookEffect { m with eventQueue := rest } m₁ ev true) ∨
        ∃ m₁, t = .cancelled m₁ ∧ HookEffect { m with eventQueue := rest } m₁ ev false) := by
  unfold tickOne at ht
  split at ht
  · cases ht
    exact .inl rfl
  · rename_i ev rest hqe
    have hfits := hq.fits ev (by simp [hqe])
    refine .inr ⟨ev, rest, hqe, ?_⟩
    dsimp only at ht
    split at ht
    · rename_i hh
      cases ht
      exact .inl ⟨_, rfl, hookEffect_none hfits hh⟩
    · rename_i hook hh
      split at ht
      · cases ht
      · rename_i m₁ hrun
        cases ht
        exact .inl ⟨m₁, rfl, hookEffect_some hfits hh hrun⟩
      · rename_i m₁ hrun
        cases ht
        exact .inr ⟨m₁, rfl, hookEffect_some hfits hh hrun⟩

namespace HookEffect

variable {m₀ m₁ : WorkerManager} {ev : MasterEvent}

/-- Delivering the oldest event moves it from the queued to the delivered events of its
entry. -/
theorem moves_deliver (he : HookEffect m₀ m₁ ev true) (r : Nat) (d : List MasterEventType) :
    Relation.ReflTransGen Move ⟨(m₀.entry r).state, d, kindsOf (ev :: m₀.eventQueue) r⟩
      ⟨(m₁.entry r).state, d ++ kindsOf [ev] r, kindsOf m₁.eventQueue r⟩ := by
  rw [kindsOf_cons, he.queue_eq]
  by_cases hr : ev.origin = some r
  · rw [kindsOf_singleton_of_eq hr]
    exact deliver_after_hook (he.own r hr) (he.delivered rfl r hr).1 (he.delivered rfl r hr).2
  · rw [kindsOf_singleton_of_ne hr, he.other r hr, List.nil_append, List.append_nil]

/-- Dropping a status event removes it from the queued events of its tombstone entry. -/
theorem moves_cancel (he : HookEffect m₀ m₁ ev false) (r : Nat) (d : List MasterEventType) :
    Relation.ReflTransGen Move ⟨(m₀.entry r).state, d, kindsOf (ev :: m₀.eventQueue) r⟩
      ⟨(m₁.entry r).state, d, kindsOf m₁.eventQueue r⟩ := by
  obtain ⟨htp, hown⟩ := he.cancelled rfl
  rw [kindsOf_cons, he.queue_eq]
  by_cases hr : ev.origin = some r
  · rw [kindsOf_singleton_of_eq hr, htp, (hown r hr).2]
    exact .single (Move.cancel rfl (hown r hr).1)
  · rw [kindsOf_singleton_of_ne hr, he.other r hr, List.nil_append]

theorem queueInv (he : HookEffect m₀ m₁ ev b) {m : WorkerManager} (hq : m.QueueInv)
    (hqe : m.eventQueue = ev :: m₀.eventQueue) (hnext : m₀.nextRef = m.nextRef) :
    m₁.QueueInv := by
  constructor
  · intro ev' hev' r hr
    rw [he.queue_eq] at hev'
    rw [he.next_eq, hnext]
    exact hq.origin_lt ev' (by simp [hqe, hev']) r hr
  · intro ev' hev'
    rw [he.queue_eq] at hev'
    exact hq.fits ev' (by simp [hqe, hev'])

end HookEffect

end WorkerManager

end Master

end Microcosm
