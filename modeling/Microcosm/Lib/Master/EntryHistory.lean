import Mathlib.Logic.Relation
import Microcosm.Library.Word
import Microcosm.Lib.Master.WorkerManager

/-!
# The events of one worker entry

What the callbacks of a master learn about one worker entry: the kinds of the events its
own transitions produced, in the order `Tick` hands them over. `EntryHistory` is that
view of one entry, its state with the events already delivered and those still queued;
`Move` lists what one call of the manager can do to it:

* a first heartbeat in the ready state takes a created entry online and queues an
  online event, a timeout or a finished heartbeat takes it offline and queues an
  offline event, a status message queues a status event whatever the state;
* a failed enqueue, the waiting period of a recovered master and recovery itself
  change the state without an event;
* `Tick` delivers the oldest queued event. An offline event is delivered after its hook
  has made the entry a tombstone; a status event is delivered only if the entry is not a
  tombstone and is dropped otherwise;
* a new entry starts from nothing.

`Inv` holds along every sequence of moves (`Inv.of_reflTransGen`), and gives the
ordering guarantees of the delivered events (`Inv.delivered`): at most one online and
one offline event, the online one first, and no status event after the offline one.
-/

namespace Microcosm

namespace Master

open Word

/-- One entry seen through its events: its state, and the kinds of the events it
produced that are delivered and still queued, oldest first. -/
structure EntryHistory where
  state : WorkerEntryState
  delivered : List MasterEventType
  pending : List MasterEventType

namespace EntryHistory

/-- Every event the entry produced and `Tick` did not drop. -/
def produced (h : EntryHistory) : List MasterEventType :=
  h.delivered ++ h.pending

/-- What one call of the manager can do to the history of an entry. -/
inductive Move : EntryHistory → EntryHistory → Prop
  | online {h : EntryHistory} : h.state = .created →
      Move h ⟨.normal, h.delivered, h.pending ++ [.workerOnlineEvent]⟩
  | offline {h : EntryHistory} : h.state = .created ∨ h.state = .normal →
      Move h ⟨.offline, h.delivered, h.pending ++ [.workerOfflineEvent]⟩
  | status {h : EntryHistory} :
      Move h ⟨h.state, h.delivered, h.pending ++ [.workerStatusUpdatedEvent]⟩
  | markOnline {h : EntryHistory} : h.state = .created ∨ h.state = .wait →
      Move h ⟨.normal, h.delivered, h.pending⟩
  | markOffline {h : EntryHistory} : h.state = .created ∨ h.state = .normal →
      Move h ⟨.offline, h.delivered, h.pending⟩
  | markTombstone {h : EntryHistory} : Move h ⟨.tombstone, h.delivered, h.pending⟩
  | deliver {h : EntryHistory} {x : MasterEventType} {rest : List MasterEventType} :
      h.pending = x :: rest → (x = .workerOfflineEvent → h.state = .tombstone) →
      (x = .workerStatusUpdatedEvent → h.state ≠ .tombstone) →
      Move h ⟨h.state, h.delivered ++ [x], rest⟩
  | cancel {h : EntryHistory} {rest : List MasterEventType} :
      h.pending = .workerStatusUpdatedEvent :: rest → h.state = .tombstone →
      Move h ⟨h.state, h.delivered, rest⟩
  | alloc {h : EntryHistory} (s : WorkerEntryState) : h.delivered = [] → h.pending = [] →
      Move h ⟨s, [], []⟩

/-- The invariant of an entry's events. -/
structure Inv (h : EntryHistory) : Prop where
  online_le : h.produced.count .workerOnlineEvent ≤ 1
  offline_le : h.produced.count .workerOfflineEvent ≤ 1
  online_not_yet : h.state = .created ∨ h.state = .wait →
    .workerOnlineEvent ∉ h.produced
  offline_not_yet : h.state = .created ∨ h.state = .normal ∨ h.state = .wait →
    .workerOfflineEvent ∉ h.produced
  online_first : ¬ Precedes .workerOfflineEvent .workerOnlineEvent h.produced
  delivered_tombstone : .workerOfflineEvent ∈ h.delivered → h.state = .tombstone
  status_first : ¬ Precedes .workerOfflineEvent .workerStatusUpdatedEvent h.delivered

@[simp] theorem produced_mk (s : WorkerEntryState) (d p : List MasterEventType) :
    (⟨s, d, p⟩ : EntryHistory).produced = d ++ p := rfl

theorem inv_empty (s : WorkerEntryState) : Inv ⟨s, [], []⟩ where
  online_le := by simp
  offline_le := by simp
  online_not_yet := by simp
  offline_not_yet := by simp
  online_first := not_precedes_of_not_mem (by simp)
  delivered_tombstone := by simp
  status_first := not_precedes_of_not_mem (by simp)

/-- `Tick` on the oldest queued event of an entry: its hook leaves the entry as it was or
makes it a tombstone, and the event is then delivered. -/
theorem deliver_after_hook {s s' : WorkerEntryState} {x : MasterEventType}
    {d ks : List MasterEventType} (hs : s' = s ∨ s' = .tombstone)
    (hoff : x = .workerOfflineEvent → s' = .tombstone)
    (hst : x = .workerStatusUpdatedEvent → s' ≠ .tombstone) :
    Relation.ReflTransGen Move ⟨s, d, x :: ks⟩ ⟨s', d ++ [x], ks⟩ := by
  rcases hs with rfl | rfl
  · exact .single (Move.deliver rfl hoff hst)
  · exact .tail (.single Move.markTombstone) (Move.deliver rfl hoff hst)

namespace Inv

variable {h : EntryHistory}

theorem online (hinv : Inv h) (hc : h.state = .created) :
    Inv ⟨.normal, h.delivered, h.pending ++ [.workerOnlineEvent]⟩ := by
  have hon : .workerOnlineEvent ∉ h.produced := hinv.online_not_yet (.inl hc)
  have hoff : .workerOfflineEvent ∉ h.produced := hinv.offline_not_yet (.inl hc)
  have hword : (⟨.normal, h.delivered, h.pending ++ [.workerOnlineEvent]⟩ :
      EntryHistory).produced = h.produced ++ [.workerOnlineEvent] := by
    simp [produced]
  refine ⟨?_, ?_, by simp, ?_, ?_, ?_, hinv.status_first⟩
  · rw [hword, List.count_append, List.count_eq_zero.2 hon]
    simp
  · rw [hword, List.count_append, List.count_eq_zero.2 hoff]
    simp
  · intro _
    rw [hword]
    simp [hoff]
  · rw [hword]
    exact not_precedes_append_singleton hinv.online_first (fun hm => absurd hm hoff)
  · intro hd
    exact absurd (List.mem_append_left _ hd) hoff

theorem offline (hinv : Inv h) (hs : h.state = .created ∨ h.state = .normal) :
    Inv ⟨.offline, h.delivered, h.pending ++ [.workerOfflineEvent]⟩ := by
  have hoff : .workerOfflineEvent ∉ h.produced :=
    hinv.offline_not_yet (hs.elim .inl (fun hn => .inr (.inl hn)))
  have hword : (⟨.offline, h.delivered, h.pending ++ [.workerOfflineEvent]⟩ :
      EntryHistory).produced = h.produced ++ [.workerOfflineEvent] := by
    simp [produced]
  refine ⟨?_, ?_, by simp, by simp, ?_, ?_, hinv.status_first⟩
  · rw [hword, List.count_append]
    simpa using hinv.online_le
  · rw [hword, List.count_append, List.count_eq_zero.2 hoff]
    simp
  · rw [hword]
    exact not_precedes_append_singleton hinv.online_first (fun _ => by decide)
  · intro hd
    exact absurd (List.mem_append_left _ hd) hoff

theorem status (hinv : Inv h) :
    Inv ⟨h.state, h.delivered, h.pending ++ [.workerStatusUpdatedEvent]⟩ := by
  have hword : (⟨h.state, h.delivered, h.pending ++ [.workerStatusUpdatedEvent]⟩ :
      EntryHistory).produced = h.produced ++ [.workerStatusUpdatedEvent] := by
    simp [produced]
  refine ⟨?_, ?_, ?_, ?_, ?_, hinv.delivered_tombstone, hinv.status_first⟩
  · rw [hword, List.count_append]
    simpa using hinv.online_le
  · rw [hword, List.count_append]
    simpa using hinv.offline_le
  · intro hs
    rw [hword]
    simpa using hinv.online_not_yet hs
  · intro hs
    rw [hword]
    simpa using hinv.offline_not_yet hs
  · rw [hword]
    exact not_precedes_append_singleton hinv.online_first (fun _ => by decide)

theorem markOnline (hinv : Inv h) (hs : h.state = .created ∨ h.state = .wait) :
    Inv ⟨.normal, h.delivered, h.pending⟩ := by
  have hoff : .workerOfflineEvent ∉ h.produced :=
    hinv.offline_not_yet (hs.elim .inl (fun hw => .inr (.inr hw)))
  exact ⟨hinv.online_le, hinv.offline_le, by simp, fun _ => hoff, hinv.online_first,
    fun hd => absurd (List.mem_append_left _ hd) hoff, hinv.status_first⟩

theorem markOffline (hinv : Inv h) (hs : h.state = .created ∨ h.state = .normal) :
    Inv ⟨.offline, h.delivered, h.pending⟩ := by
  have hoff : .workerOfflineEvent ∉ h.produced :=
    hinv.offline_not_yet (hs.elim .inl (fun hn => .inr (.inl hn)))
  exact ⟨hinv.online_le, hinv.offline_le, by simp, by simp, hinv.online_first,
    fun hd => absurd (List.mem_append_left _ hd) hoff, hinv.status_first⟩

theorem markTombstone (hinv : Inv h) : Inv ⟨.tombstone, h.delivered, h.pending⟩ :=
  ⟨hinv.online_le, hinv.offline_le, by simp, by simp, hinv.online_first, fun _ => rfl,
    hinv.status_first⟩

theorem deliver (hinv : Inv h) {x : MasterEventType} {rest : List MasterEventType}
    (hp : h.pending = x :: rest) (hoff : x = .workerOfflineEvent → h.state = .tombstone)
    (hst : x = .workerStatusUpdatedEvent → h.state ≠ .tombstone) :
    Inv ⟨h.state, h.delivered ++ [x], rest⟩ := by
  -- delivering moves a letter from the queued part to the delivered part
  have hword : (⟨h.state, h.delivered ++ [x], rest⟩ : EntryHistory).produced = h.produced := by
    simp [produced, hp]
  refine ⟨hword ▸ hinv.online_le, hword ▸ hinv.offline_le,
    fun hs => hword ▸ hinv.online_not_yet hs, fun hs => hword ▸ hinv.offline_not_yet hs,
    hword ▸ hinv.online_first, ?_, ?_⟩
  · intro hd
    rcases List.mem_append.1 hd with hd | hd
    · exact hinv.delivered_tombstone hd
    · exact hoff (List.mem_singleton.1 hd).symm
  · refine not_precedes_append_singleton hinv.status_first ?_
    rintro hd rfl
    exact hst rfl (hinv.delivered_tombstone hd)

theorem cancel (hinv : Inv h) {rest : List MasterEventType}
    (hp : h.pending = .workerStatusUpdatedEvent :: rest) :
    Inv ⟨h.state, h.delivered, rest⟩ := by
  -- dropping a queued letter only shortens the word
  have hsub : (⟨h.state, h.delivered, rest⟩ : EntryHistory).produced.Sublist h.produced := by
    simp only [produced, hp]
    exact List.Sublist.append_left (List.sublist_cons_self _ _) _
  exact {
    online_le := Nat.le_trans (hsub.count_le _) hinv.online_le
    offline_le := Nat.le_trans (hsub.count_le _) hinv.offline_le
    online_not_yet := fun hs hm => hinv.online_not_yet hs (hsub.subset hm)
    offline_not_yet := fun hs hm => hinv.offline_not_yet hs (hsub.subset hm)
    online_first := fun hpre => hinv.online_first (hpre.mono hsub)
    delivered_tombstone := hinv.delivered_tombstone
    status_first := hinv.status_first }

theorem move {h' : EntryHistory} (hinv : Inv h) (hm : Move h h') : Inv h' := by
  cases hm with
  | online hc => exact hinv.online hc
  | offline hs => exact hinv.offline hs
  | status => exact hinv.status
  | markOnline hs => exact hinv.markOnline hs
  | markOffline hs => exact hinv.markOffline hs
  | markTombstone => exact hinv.markTombstone
  | deliver hp hoff hst => exact hinv.deliver hp hoff hst
  | cancel hp _ => exact hinv.cancel hp
  | alloc s _ _ => exact inv_empty s

theorem of_reflTransGen {h' : EntryHistory} (hinv : Inv h)
    (hm : Relation.ReflTransGen Move h h') : Inv h' := by
  induction hm with
  | refl => exact hinv
  | tail _ hstep ih => exact ih.move hstep

/-- The guarantees on the delivered events of an entry. -/
theorem delivered (hinv : Inv h) :
    h.delivered.count .workerOnlineEvent ≤ 1 ∧ h.delivered.count .workerOfflineEvent ≤ 1 ∧
      ¬ Precedes .workerOfflineEvent .workerOnlineEvent h.delivered ∧
      ¬ Precedes .workerOfflineEvent .workerStatusUpdatedEvent h.delivered := by
  have hsub : h.delivered.Sublist h.produced := List.sublist_append_left _ _
  exact ⟨Nat.le_trans (hsub.count_le _) hinv.online_le,
    Nat.le_trans (hsub.count_le _) hinv.offline_le,
    fun hpre => hinv.online_first (hpre.mono hsub), hinv.status_first⟩

end Inv

end EntryHistory

end Master

end Microcosm
