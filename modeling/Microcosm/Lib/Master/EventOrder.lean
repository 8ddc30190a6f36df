import Microcosm.Lib.Master.Delivery

/-!
# The events delivered for one worker

Over every interleaving of the manager's calls, the events `Tick` hands to the callbacks
for one worker entry, from its creation on, contain at most one online and one offline
event, the online event first, and no status event after the offline event, whose hook
runs just before it is handed over (`delivered_per_entry`). The events of an entry are
those its own transitions produced (the ghost `origin`), so an entry created again under
the same ID starts a history of its own.

The proof is the invariant `DeliveryInv` over the harness: the histories of all entries
satisfy `EntryHistory.Inv`, because every step of the harness moves them by moves of
`EntryHistory` (`Delivery.lean`).

The offline event does not always carry the error of a graceful exit. The checker takes
a worker offline on its finished heartbeat and computes the error from the status stored
in the entry, while the final status message of the worker is only stored when `Tick`
runs the hook of its status event; in between, the stored status is the old one
(`offline_error_after_graceful_exit`).
-/

namespace Microcosm

namespace Master

open Word EntryHistory WorkerManager

namespace Harness

/-- The history of the entry at `r`, with the events the callbacks have received. -/
def history (hs : Harness) (r : Nat) : EntryHistory :=
  hs.wm.history (kindsOf hs.delivered r) r

/-- Every delivered event was produced by an allocated entry, the queue invariant holds,
and the history of every entry has the invariant of `EntryHistory`. -/
structure DeliveryInv (hs : Harness) : Prop where
  delivered_lt : ∀ ev ∈ hs.delivered, ∀ r ∈ ev.origin, r < hs.wm.nextRef
  queueInv : hs.wm.QueueInv
  history_inv : ∀ r, (hs.history r).Inv

namespace DeliveryInv

variable {hs : Harness}

theorem init (masterID : MasterID) (epoch : Epoch) (isInit : Bool)
    (timeouts : TimeoutConfig) :
    DeliveryInv (Harness.init (newWorkerManager masterID epoch isInit timeouts)) where
  delivered_lt := by simp [Harness.init]
  queueInv := ⟨by simp [Harness.init, newWorkerManager],
    by simp [Harness.init, newWorkerManager]⟩
  history_inv r := inv_empty _

/-- A call of the manager that does not deliver. -/
theorem evolve (h : DeliveryInv hs) {wm : WorkerManager} (he : Evolves hs.wm wm) :
    DeliveryInv (hs.withManager wm) where
  delivered_lt ev hev r hr := Nat.lt_of_lt_of_le (h.delivered_lt ev hev r hr) he.next_le
  queueInv := he.queueInv
  history_inv r :=
    (h.history_inv r).of_reflTransGen
      (he.moves r _ (fun hr => kindsOf_eq_nil h.delivered_lt hr))

/-- `Tick` delivers the oldest event. -/
theorem deliver (h : DeliveryInv hs) {ev : MasterEvent} {rest : List MasterEvent}
    {wm : WorkerManager} (hqe : hs.wm.eventQueue = ev :: rest)
    (he : HookEffect { hs.wm with eventQueue := rest } wm ev true) :
    DeliveryInv { wm, delivered := hs.delivered ++ [ev] } where
  delivered_lt ev' hev' r hr := by
    rw [he.next_eq]
    rcases List.mem_append.1 hev' with hev' | hev'
    · exact h.delivered_lt ev' hev' r hr
    · rw [List.mem_singleton.1 hev'] at hr
      exact h.queueInv.origin_lt ev (by simp [hqe]) r hr
  queueInv := he.queueInv h.queueInv hqe rfl
  history_inv r := by
    have hmove := he.moves_deliver r (kindsOf hs.delivered r)
    rw [← hqe] at hmove
    refine (h.history_inv r).of_reflTransGen ?_
    simp only [history, WorkerManager.history, kindsOf_append]
    exact hmove

/-- `Tick` drops the oldest event. -/
theorem cancel (h : DeliveryInv hs) {ev : MasterEvent} {rest : List MasterEvent}
    {wm : WorkerManager} (hqe : hs.wm.eventQueue = ev :: rest)
    (he : HookEffect { hs.wm with eventQueue := rest } wm ev false) :
    DeliveryInv (hs.withManager wm) where
  delivered_lt ev' hev' r hr := by
    rw [withManager_wm, he.next_eq]
    exact h.delivered_lt ev' hev' r hr
  queueInv := he.queueInv h.queueInv hqe rfl
  history_inv r := by
    have hmove := he.moves_cancel r (kindsOf hs.delivered r)
    rw [← hqe] at hmove
    exact (h.history_inv r).of_reflTransGen hmove

/-- Every step of the harness keeps the invariant. -/
theorem step (h : DeliveryInv hs) (hsafe : SafetyInv hs.wm) {a : Action} {hs' : Harness}
    (he : Harness.step hs a = .ok hs') : DeliveryInv hs' := by
  have hlt := hsafe.live_lt
  cases a with
  | beforeStartingWorker workerID executorID now =>
      obtain ⟨wm, hwm, rfl⟩ := map_withManager_eq_ok he
      exact h.evolve (Evolves.beforeStartingWorker h.queueInv hwm)
  | abortCreatingWorker workerID err =>
      cases he
      exact h.evolve (Evolves.abortCreatingWorker h.queueInv workerID err)
  | handleHeartbeat msg fromNode now =>
      obtain ⟨wm, hwm, rfl⟩ := map_withManager_eq_ok he
      exact h.evolve (Evolves.handleHeartbeat h.queueInv hlt hwm)
  | onWorkerStatusUpdateMessage msg =>
      obtain ⟨wm, hwm, rfl⟩ := map_withManager_eq_ok he
      exact h.evolve (Evolves.onWorkerStatusUpdateMessage h.queueInv hlt hwm)
  | checkWorkerEntriesOnce now order =>
      simp only [Harness.step] at he
      split at he
      · cases he
      · rename_i wm hc
        cases he
        exact h.evolve (Evolves.checkWorkerEntriesOnce h.queueInv hlt hc)
      · rename_i wm err hc
        cases he
        have h₁ := Evolves.checkWorkerEntriesOnce h.queueInv hlt hc
        exact h.evolve (h₁.trans (Evolves.onError h₁.queueInv err))
  | initAfterRecoverLoad loaded =>
      cases loaded with
      | ok persisted =>
          obtain ⟨wm, hwm, rfl⟩ := map_withManager_eq_ok he
          exact h.evolve (Evolves.initAfterRecoverLoad h.queueInv hwm)
      | error err =>
          simp only [Harness.step] at he
          split at he
          · cases he
          · cases he
            exact h.evolve (Evolves.onError h.queueInv err)
  | initAfterRecoverFinish =>
      simp only [Harness.step] at he
      split at he
      · obtain ⟨wm, hwm, rfl⟩ := map_withManager_eq_ok he
        exact h.evolve (Evolves.initAfterRecoverFinish h.queueInv hwm)
      · cases he
        exact h
  | tick readsStatus =>
      simp only [Harness.step] at he
      cases ht : hs.wm.tickOne with
      | error p =>
          rw [ht] at he
          cases he
      | ok t =>
          rw [ht] at he
          rcases tickOne_cases h.queueInv ht with
            rfl | ⟨ev, rest, hqe, ⟨wm, rfl, heff⟩ | ⟨wm, rfl, heff⟩⟩
          · cases he
            exact h
          · -- the event is delivered, after the callback's read of the status if any
            dsimp only at he
            split at he
            · split at he
              · cases he
              · cases he
                exact h.deliver hqe heff
            · cases he
              exact h.deliver hqe heff
          · cases he
            exact h.cancel hqe heff
  | removeTombstoneEntry workerID =>
      obtain ⟨wm, hwm, rfl⟩ := map_withManager_eq_ok he
      exact h.evolve (Evolves.removeTombstoneEntry h.queueInv hwm)

end DeliveryInv

theorem deliveryInv_of_reachable {masterID : MasterID} {epoch : Epoch} {isInit : Bool}
    {timeouts : TimeoutConfig} {hs : Harness}
    (hr : Harness.Reachable masterID epoch isInit timeouts hs) : DeliveryInv hs :=
  Transition.Reachable.inv_of (I := fun hs => SafetyInv hs.wm) (P := DeliveryInv)
    (fun _ hr' => safetyInv_of_reachable hr') (DeliveryInv.init masterID epoch isInit timeouts)
    (fun _ _ _ hsafe hinv _ hs => hinv.step hsafe hs) hr

end Harness

theorem delivered_per_entry {masterID : MasterID} {epoch : Epoch} {isInit : Bool}
    {timeouts : TimeoutConfig} {hs : Harness}
    (hr : Harness.Reachable masterID epoch isInit timeouts hs) (r : Nat) :
    (kindsOf hs.delivered r).count .workerOnlineEvent ≤ 1 ∧
      (kindsOf hs.delivered r).count .workerOfflineEvent ≤ 1 ∧
      ¬ Precedes .workerOfflineEvent .workerOnlineEvent (kindsOf hs.delivered r) ∧
      ¬ Precedes .workerOfflineEvent .workerStatusUpdatedEvent (kindsOf hs.delivered r) :=
  ((Harness.deliveryInv_of_reachable hr).history_inv r).delivered

/-- A worker comes online, then exits with `Finished`: its final status message arrives,
then its first heartbeat with `IsFinished`. The checker runs before `Tick`, and the three
events are delivered to callbacks that read the status of their handle. -/
def exitThenCheck : List Action :=
  [.beforeStartingWorker "w" "e" 0,
    .handleHeartbeat { sendTime := 1, fromWorkerID := "w", epoch := 1, isFinished := false } "e" 1,
    .onWorkerStatusUpdateMessage
      { worker := "w", masterEpoch := 1, status := some { code := .finished } },
    .handleHeartbeat { sendTime := 2, fromWorkerID := "w", epoch := 1, isFinished := true } "e" 2,
    .checkWorkerEntriesOnce 3 ["w"], .tick true, .tick true, .tick true]

/-- The harness after `exitThenCheck`. -/
def afterExitThenCheck : Harness :=
  match Transition.run Harness.step
      (Harness.init (newWorkerManager "jm" 1 true TimeoutConfig.defaultTimeoutConfig))
      exitThenCheck with
  | .ok hs => hs
  | .error _ => Harness.init (newWorkerManager "jm" 1 true TimeoutConfig.defaultTimeoutConfig)

theorem reachable_afterExitThenCheck :
    Harness.Reachable "jm" 1 true TimeoutConfig.defaultTimeoutConfig afterExitThenCheck := by
  have hrun : Transition.run Harness.step
      (Harness.init (newWorkerManager "jm" 1 true TimeoutConfig.defaultTimeoutConfig))
      exitThenCheck = .ok afterExitThenCheck := rfl
  exact Transition.reachable_run .init (by decide) hrun

theorem delivered_per_entry_after_exit :
    Harness.Reachable "jm" 1 true TimeoutConfig.defaultTimeoutConfig afterExitThenCheck ∧
      (kindsOf afterExitThenCheck.delivered 0).count .workerOnlineEvent ≤ 1 ∧
      (kindsOf afterExitThenCheck.delivered 0).count .workerOfflineEvent ≤ 1 ∧
      ¬ Precedes .workerOfflineEvent .workerOnlineEvent (kindsOf afterExitThenCheck.delivered 0) ∧
      ¬ Precedes .workerOfflineEvent .workerStatusUpdatedEvent
        (kindsOf afterExitThenCheck.delivered 0) :=
  ⟨reachable_afterExitThenCheck, delivered_per_entry reachable_afterExitThenCheck 0⟩

theorem offline_error_after_graceful_exit :
    Harness.Reachable "jm" 1 true TimeoutConfig.defaultTimeoutConfig afterExitThenCheck ∧
      (afterExitThenCheck.wm.entry 0).status = some { code := .finished } ∧
      afterExitThenCheck.delivered.map (fun ev => (ev.tp, ev.workerID, ev.err)) =
        [(.workerOnlineEvent, "w", none), (.workerStatusUpdatedEvent, "w", none),
          (.workerOfflineEvent, "w", some (.errWorkerOffline "w"))] :=
  ⟨reachable_afterExitThenCheck, by decide, by decide⟩

end Master

end Microcosm
