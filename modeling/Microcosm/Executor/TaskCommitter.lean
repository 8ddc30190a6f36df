import Mathlib.Data.List.AList
import Microcosm.Library.Transition
import Microcosm.Library.Map
import Microcosm.Library.Word
import Microcosm.Pkg.Errors

/-!
# The executor's side of two-phase dispatch

`executor/worker/task_committer.go`, `TaskRunner.addWrappedTask` and `Run`, and the two
gRPC handlers of `executor/server.go` that call the committer. `PreDispatchTask` records
a request under its ID and under the ID of its task, dropping an older request for the
same task; `ConfirmDispatchTask` removes a pending request and hands its task to the
runner; `checkTTLOnce` removes the requests whose expiry time has passed.

`TaskCommitter.WF` says that the two maps index the same requests; under it
`removeRequestByID` is only called on a pending request and its "Unreachable" panics
cannot happen. The committer also keeps a ghost log of what it did (`history`), and
`Awaiting` reads the log as the specification of the pending requests: a request is
pending exactly when it is the last request accepted for its task and has neither
expired nor been confirmed since. Every task the runner has received was confirmed
while its request was awaiting confirmation. Both facts hold in every reachable state
of the executor (`inv_of_reachable`).
-/

namespace Microcosm

namespace Executor

/-- `requestID`: a UUID chosen by the dispatcher. -/
abbrev RequestID := String

/-- `RunnableID`: the worker ID of a task. -/
abbrev RunnableID := String

/-- `Runnable`, by its `ID()`, the only method the committer calls. -/
structure Runnable where
  id : RunnableID
  deriving DecidableEq, Repr

/-- `internal.RunnableContainer`: a task with its submit time, and, as a ghost, the
request that carried it to the executor. -/
structure RunnableContainer where
  runnable : Runnable
  submitTime : Nat
  origin : RequestID
  deriving DecidableEq, Repr

/-- `requestEntry`. -/
structure RequestEntry where
  requestID : RequestID
  expireAt : Nat
  task : RunnableContainer
  deriving DecidableEq, Repr

/-- `requestEntry.TaskID`. -/
def RequestEntry.taskID (r : RequestEntry) : RunnableID :=
  r.task.runnable.id

/-- `TaskRunner`, by its incoming queue of capacity `inQueueSize` and the tasks its `Run`
loop has taken from the queue. -/
structure TaskRunner where
  inQueue : List RunnableContainer
  inQueueSize : Nat
  launched : List RunnableContainer

namespace TaskRunner

/-- `addWrappedTask`: a send on `inQueue` that fails instead of blocking. -/
def addWrappedTask (r : TaskRunner) (task : RunnableContainer) : Except Error TaskRunner :=
  if r.inQueue.length < r.inQueueSize then .ok { r with inQueue := r.inQueue ++ [task] }
  else .error .errRuntimeIncomingQueueFull

/-- One iteration of `Run`: the oldest queued task is taken and launched. -/
def runOnce (r : TaskRunner) : TaskRunner :=
  match r.inQueue with
  | [] => r
  | task :: rest => { r with inQueue := rest, launched := r.launched ++ [task] }

/-- The tasks the runner has received, launched or still queued. -/
def received (r : TaskRunner) : List RunnableContainer :=
  r.launched ++ r.inQueue

theorem received_runOnce (r : TaskRunner) : r.runOnce.received = r.received := by
  unfold runOnce received
  split <;> simp_all

theorem received_addWrappedTask {r r' : TaskRunner} {task : RunnableContainer}
    (h : r.addWrappedTask task = .ok r') : r'.received = r.received ++ [task] := by
  unfold addWrappedTask at h
  split at h
  · cases h
    simp [received]
  · cases h

end TaskRunner

/-- The ghost log of the committer. -/
inductive CommitterEvent
  /-- `PreDispatchTask` accepted request `rID` for the task `taskID`. -/
  | accepted (rID : RequestID) (taskID : RunnableID)
  /-- `checkTTLOnce` removed request `rID`. -/
  | expired (rID : RequestID)
  /-- `ConfirmDispatchTask` found request `rID` pending and removed it. -/
  | confirmed (rID : RequestID)
  deriving DecidableEq, Repr

/-- The request ID an event accepts. -/
def CommitterEvent.acceptedID : CommitterEvent → Option RequestID
  | .accepted rID _ => some rID
  | _ => none

/-- The events after which request `rID` for `taskID` is no longer pending: a newer
request for the same task overwrites it, and it can expire or be confirmed. -/
def CommitterEvent.Closes (rID : RequestID) (taskID : RunnableID) : CommitterEvent → Prop
  | .accepted _ t => t = taskID
  | .expired r => r = rID
  | .confirmed r => r = rID

/-- Request `rID` is the last request the committer accepted for `taskID` and has
neither expired nor been confirmed since. -/
def Awaiting (history : List CommitterEvent) (rID : RequestID) (taskID : RunnableID) :
    Prop :=
  Word.Since (.accepted rID taskID) (CommitterEvent.Closes rID taskID) history

/-- The panics of the committer. -/
inductive Panic
  /-- `log.L().Panic("Unreachable")` in `removeRequestByID`. -/
  | unreachable
  deriving DecidableEq, Repr

/-- `TaskCommitter`, without its mutex, clock and TTL goroutine, which the model replaces by
clock readings passed to the operations and by `checkTTLOnce` as an operation of its own. -/
structure TaskCommitter where
  runner : TaskRunner
  pendingRequests : AList (fun _ : RequestID => RequestEntry)
  requestsByTaskID : AList (fun _ : RunnableID => RequestEntry)
  requestTTL : Nat
  /-- Ghost: what the committer did, oldest first. -/
  history : List CommitterEvent

/-- `NewTaskCommitter`. -/
def newTaskCommitter (runner : TaskRunner) (requestTTL : Nat) : TaskCommitter :=
  { runner, pendingRequests := ∅, requestsByTaskID := ∅, requestTTL, history := [] }

namespace TaskCommitter

/-- `removeRequestByID`. -/
def removeRequestByID (c : TaskCommitter) (id : RequestID) : Except Panic TaskCommitter :=
  match c.pendingRequests.lookup id with
  | none => .error .unreachable
  | some request =>
      if request.taskID ∈ c.requestsByTaskID then
        .ok { c with
          pendingRequests := c.pendingRequests.erase id
          requestsByTaskID := c.requestsByTaskID.erase request.taskID }
      else .error .unreachable

/-- The block of `PreDispatchTask` that overwrites a stale request for the same task. -/
def removeStaleRequest (c : TaskCommitter) (taskID : RunnableID) :
    Except Panic TaskCommitter :=
  match c.requestsByTaskID.lookup taskID with
  | some request => c.removeRequestByID request.requestID
  | none => .ok c

/-- `PreDispatchTask`, with `now` the clock reading. -/
def preDispatchTask (c : TaskCommitter) (rID : RequestID) (task : Runnable) (now : Nat) :
    Except Panic (TaskCommitter × Bool) :=
  if rID ∈ c.pendingRequests then .ok (c, false)
  else
    match c.removeStaleRequest task.id with
    | .error p => .error p
    | .ok c =>
        let request : RequestEntry :=
          { requestID := rID, expireAt := now + c.requestTTL, task := ⟨task, now, rID⟩ }
        .ok ({ c with
          pendingRequests := c.pendingRequests.insert rID request
          requestsByTaskID := c.requestsByTaskID.insert task.id request
          history := c.history ++ [.accepted rID task.id] }, true)

/-- `ConfirmDispatchTask`: `ok true` on success, `ok false` for a request that is not
pending, and the runner's error if it has no room. The task ID is only logged. -/
def confirmDispatchTask (c : TaskCommitter) (rID : RequestID) (_taskID : RunnableID) :
    Except Panic (TaskCommitter × Except Error Bool) :=
  match c.pendingRequests.lookup rID with
  | none => .ok (c, .ok false)
  | some request =>
      match c.removeRequestByID rID with
      | .error p => .error p
      | .ok c =>
          let c : TaskCommitter := { c with history := c.history ++ [.confirmed rID] }
          match c.runner.addWrappedTask request.task with
          | .error err => .ok (c, .error err)
          | .ok runner => .ok ({ c with runner }, .ok true)

/-- The loop of `checkTTLOnce` over the keys of `pendingRequests` in `order`, with `now`
the clock reading. A key removed before the loop reaches it is skipped, as a Go map
iteration skips deleted keys. -/
def checkTTLLoop (now : Nat) : TaskCommitter → List RequestID → Except Panic TaskCommitter
  | c, [] => .ok c
  | c, rID :: rest =>
      match c.pendingRequests.lookup rID with
      | none => checkTTLLoop now c rest
      | some request =>
          if now > request.expireAt then
            match c.removeRequestByID rID with
            | .error p => .error p
            | .ok c => checkTTLLoop now { c with history := c.history ++ [.expired rID] } rest
          else checkTTLLoop now c rest

/-- `checkTTLOnce`. -/
def checkTTLOnce (c : TaskCommitter) (now : Nat) (order : List RequestID) :
    Except Panic TaskCommitter :=
  checkTTLLoop now c order

/-- Request `rID` is pending for the task `taskID`. -/
def PendingFor (c : TaskCommitter) (rID : RequestID) (taskID : RunnableID) : Prop :=
  ∃ e, c.pendingRequests.lookup rID = some e ∧ e.taskID = taskID

/-- The two maps index the same requests, each under its own IDs. -/
structure WF (c : TaskCommitter) : Prop where
  pending_key : ∀ r e, c.pendingRequests.lookup r = some e → e.requestID = r
  pending_origin : ∀ r e, c.pendingRequests.lookup r = some e → e.task.origin = r
  pending_byTask : ∀ r e, c.pendingRequests.lookup r = some e →
    c.requestsByTaskID.lookup e.taskID = some e
  byTask_pending : ∀ t e, c.requestsByTaskID.lookup t = some e →
    c.pendingRequests.lookup e.requestID = some e ∧ e.taskID = t

/-- The invariant of the executor: the maps are consistent, the pending requests are the
awaiting ones of the log, and every received task was confirmed while awaiting. -/
structure Inv (c : TaskCommitter) : Prop where
  wf : c.WF
  pending_iff : ∀ r t, c.PendingFor r t ↔ Awaiting c.history r t
  received_confirmed : ∀ task ∈ c.runner.received, ∃ pre post,
    c.history = pre ++ .confirmed task.origin :: post ∧
      Awaiting pre task.origin task.runnable.id

section Lemmas

variable {c c' : TaskCommitter}

theorem WF.pendingFor_unique (hwf : c.WF) {r r' : RequestID} {t : RunnableID}
    (h : c.PendingFor r t) (h' : c.PendingFor r' t) : r = r' := by
  obtain ⟨e, he, rfl⟩ := h
  obtain ⟨e', he', hte⟩ := h'
  have hb := hwf.pending_byTask r e he
  have hb' := hwf.pending_byTask r' e' he'
  rw [hte, hb] at hb'
  cases hb'
  rw [← hwf.pending_key r e he, hwf.pending_key r' e he']

/-- Removing a pending request keeps the maps consistent and removes exactly it. -/
theorem WF.removeRequestByID (hwf : c.WF) {r : RequestID} {e : RequestEntry}
    (he : c.pendingRequests.lookup r = some e) :
    ∃ c', c.removeRequestByID r = .ok c' ∧ c'.WF ∧
      (∀ r' t, c'.PendingFor r' t ↔ c.PendingFor r' t ∧ r' ≠ r) ∧
      c'.runner = c.runner ∧ c'.requestTTL = c.requestTTL ∧ c'.history = c.history := by
  have hb := hwf.pending_byTask r e he
  have hr := hwf.pending_key r e he
  refine ⟨{ c with
      pendingRequests := c.pendingRequests.erase r
      requestsByTaskID := c.requestsByTaskID.erase e.taskID },
    by simp [TaskCommitter.removeRequestByID, he, Map.mem_of_lookup_eq_some hb],
    ⟨fun r' e' h' => ?_, fun r' e' h' => ?_, fun r' e' h' => ?_, fun t e' h' => ?_⟩,
    fun r' t => ?_, rfl, rfl, rfl⟩
  · exact hwf.pending_key r' e' (Map.lookup_erase_eq_some h').2
  · exact hwf.pending_origin r' e' (Map.lookup_erase_eq_some h').2
  · obtain ⟨hne, h'⟩ := Map.lookup_erase_eq_some h'
    have hb' := hwf.pending_byTask r' e' h'
    -- the erased task key is `e`'s, and `e'` is another request
    have ht : e'.taskID ≠ e.taskID := by
      intro ht
      rw [ht, hb] at hb'
      cases hb'
      exact hne ((hwf.pending_key r' e h').symm.trans hr)
    simpa [AList.lookup_erase_ne ht] using hb'
  · obtain ⟨hne, h'⟩ := Map.lookup_erase_eq_some h'
    obtain ⟨hp, ht⟩ := hwf.byTask_pending t e' h'
    have hid : e'.requestID ≠ r := by
      intro hid
      rw [hid, he] at hp
      cases hp
      exact hne ht.symm
    exact ⟨by simpa [AList.lookup_erase_ne hid] using hp, ht⟩
  · constructor
    · rintro ⟨e', h', rfl⟩
      obtain ⟨hne, h'⟩ := Map.lookup_erase_eq_some h'
      exact ⟨⟨e', h', rfl⟩, hne⟩
    · rintro ⟨⟨e', h', rfl⟩, hne⟩
      exact ⟨e', by rwa [AList.lookup_erase_ne hne], rfl⟩

/-- The overwrite block removes the request of the task, if there is one. -/
theorem WF.removeStaleRequest (hwf : c.WF) (taskID : RunnableID) :
    ∃ c', c.removeStaleRequest taskID = .ok c' ∧ c'.WF ∧
      (∀ r' t, c'.PendingFor r' t ↔ c.PendingFor r' t ∧ t ≠ taskID) ∧
      c'.runner = c.runner ∧ c'.requestTTL = c.requestTTL ∧ c'.history = c.history := by
  unfold TaskCommitter.removeStaleRequest
  split
  · rename_i request hreq
    obtain ⟨hp, ht⟩ := hwf.byTask_pending taskID request hreq
    obtain ⟨c', hc', hwf', hpend, hrun⟩ := hwf.removeRequestByID hp
    refine ⟨c', hc', hwf', fun r' t => ?_, hrun⟩
    rw [hpend]
    -- the request of `taskID` is the only pending request for it
    have hmine : c.PendingFor request.requestID taskID := ⟨request, hp, ht⟩
    constructor
    · rintro ⟨h, hne⟩
      exact ⟨h, fun htk => hne (hwf.pendingFor_unique h (htk ▸ hmine))⟩
    · rintro ⟨h, hne⟩
      refine ⟨h, fun hr => hne ?_⟩
      obtain ⟨e, he, rfl⟩ := h
      rw [hr, hp] at he
      cases he
      exact ht
  · rename_i hnone
    refine ⟨c, rfl, hwf, fun r' t => ⟨fun h => ⟨h, ?_⟩, fun h => h.1⟩, rfl, rfl, rfl⟩
    rintro rfl
    obtain ⟨e, he, rfl⟩ := h
    rw [hwf.pending_byTask r' e he] at hnone
    cases hnone

theorem PendingFor.mem {r : RequestID} {t : RunnableID} (h : c.PendingFor r t) :
    r ∈ c.pendingRequests := by
  obtain ⟨e, he, -⟩ := h
  exact Map.mem_of_lookup_eq_some he

theorem pendingFor_of_mem {r : RequestID} (h : r ∈ c.pendingRequests) :
    ∃ t, c.PendingFor r t := by
  obtain ⟨e, he⟩ := Option.isSome_iff_exists.1 (AList.lookup_isSome.2 h)
  exact ⟨e.taskID, e, he, rfl⟩

theorem pendingFor_insert {r r' : RequestID} {e : RequestEntry} {t : RunnableID} :
    ({ c with pendingRequests := c.pendingRequests.insert r e } : TaskCommitter).PendingFor r' t ↔
      (r' = r ∧ e.taskID = t) ∨ (r' ≠ r ∧ c.PendingFor r' t) := by
  unfold PendingFor
  by_cases hr : r' = r
  · subst hr
    simp
  · simp [AList.lookup_insert_ne hr, hr]

/-- What `PreDispatchTask` does on a consistent committer: it rejects a pending request
ID, and otherwise accepts the request, which replaces the request of its task. -/
theorem WF.preDispatchTask (hwf : c.WF) (r : RequestID) (task : Runnable) (now : Nat) :
    (r ∈ c.pendingRequests ∧ c.preDispatchTask r task now = .ok (c, false)) ∨
    (r ∉ c.pendingRequests ∧ ∃ c', c.preDispatchTask r task now = .ok (c', true) ∧ c'.WF ∧
      (∀ r' t, c'.PendingFor r' t ↔ (r' = r ∧ t = task.id) ∨ (c.PendingFor r' t ∧ t ≠ task.id)) ∧
      c'.runner = c.runner ∧ c'.requestTTL = c.requestTTL ∧
      c'.history = c.history ++ [.accepted r task.id]) := by
  by_cases hr : r ∈ c.pendingRequests
  · exact .inl ⟨hr, by simp [TaskCommitter.preDispatchTask, hr]⟩
  right
  obtain ⟨c₁, hc₁, hwf₁, hpend₁, hrun, httl, hhist⟩ := hwf.removeStaleRequest task.id
  -- after the overwrite, neither the request ID nor the task has a pending request
  have hr₁ : r ∉ c₁.pendingRequests := fun h => by
    obtain ⟨t, ht⟩ := pendingFor_of_mem h
    exact hr ((hpend₁ r t).1 ht).1.mem
  have htask : ∀ r' e', c₁.pendingRequests.lookup r' = some e' → e'.taskID ≠ task.id :=
    fun r' e' h' ht => ((hpend₁ r' task.id).1 ⟨e', h', ht⟩).2 rfl
  let req : RequestEntry :=
    { requestID := r, expireAt := now + c₁.requestTTL, task := ⟨task, now, r⟩ }
  refine ⟨hr, { c₁ with
      pendingRequests := c₁.pendingRequests.insert r req
      requestsByTaskID := c₁.requestsByTaskID.insert task.id req
      history := c₁.history ++ [.accepted r task.id] },
    by simp [TaskCommitter.preDispatchTask, hr, hc₁, req],
    ⟨fun r' e' h' => ?_, fun r' e' h' => ?_, fun r' e' h' => ?_, fun t e' h' => ?_⟩,
    fun r' t => ?_, hrun, httl, by rw [hhist]⟩
  · rcases Map.lookup_insert_eq_some h' with ⟨rfl, rfl⟩ | ⟨-, h'⟩
    · rfl
    · exact hwf₁.pending_key r' e' h'
  · rcases Map.lookup_insert_eq_some h' with ⟨rfl, rfl⟩ | ⟨-, h'⟩
    · rfl
    · exact hwf₁.pending_origin r' e' h'
  · rcases Map.lookup_insert_eq_some h' with ⟨rfl, rfl⟩ | ⟨-, h'⟩
    · exact AList.lookup_insert _
    · rw [AList.lookup_insert_ne (htask r' e' h')]
      exact hwf₁.pending_byTask r' e' h'
  · rcases Map.lookup_insert_eq_some h' with ⟨rfl, rfl⟩ | ⟨hne, h'⟩
    · exact ⟨AList.lookup_insert _, rfl⟩
    · obtain ⟨hp, ht⟩ := hwf₁.byTask_pending t e' h'
      have hid : e'.requestID ≠ r := fun hid => hr₁ (hid ▸ Map.mem_of_lookup_eq_some hp)
      exact ⟨by rwa [AList.lookup_insert_ne hid], ht⟩
  · change ({ c₁ with pendingRequests := c₁.pendingRequests.insert r req } :
      TaskCommitter).PendingFor r' t ↔ _
    rw [pendingFor_insert, hpend₁]
    constructor
    · rintro (⟨rfl, rfl⟩ | ⟨-, h⟩)
      · exact .inl ⟨rfl, rfl⟩
      · exact .inr h
    · rintro (⟨rfl, rfl⟩ | h)
      · exact .inl ⟨rfl, rfl⟩
      · exact .inr ⟨fun hr' => hr (hr' ▸ h.1.mem), h⟩

/-- What `ConfirmDispatchTask` does on a consistent committer: a request that is not
pending is reported, a pending one is removed and its task handed to the runner, which
may have no room for it. -/
theorem WF.confirmDispatchTask (hwf : c.WF) (r : RequestID) (t : RunnableID) :
    (r ∉ c.pendingRequests ∧ c.confirmDispatchTask r t = .ok (c, .ok false)) ∨
    ∃ e, c.pendingRequests.lookup r = some e ∧ ∃ c₁ : TaskCommitter, c₁.WF ∧
      (∀ r' t, c₁.PendingFor r' t ↔ c.PendingFor r' t ∧ r' ≠ r) ∧
      c₁.runner = c.runner ∧ c₁.requestTTL = c.requestTTL ∧
      c₁.history = c.history ++ [.confirmed r] ∧
      ((∃ err, c.runner.addWrappedTask e.task = .error err ∧
          c.confirmDispatchTask r t = .ok (c₁, .error err)) ∨
        ∃ runner, c.runner.addWrappedTask e.task = .ok runner ∧
          c.confirmDispatchTask r t = .ok ({ c₁ with runner }, .ok true)) := by
  cases he : c.pendingRequests.lookup r with
  | none =>
      refine .inl ⟨fun h => ?_, by simp [TaskCommitter.confirmDispatchTask, he]⟩
      rw [← AList.lookup_isSome, he] at h
      cases h
  | some e =>
      right
      obtain ⟨c₁, hc₁, hwf₁, hpend₁, hrun, httl, hhist⟩ := hwf.removeRequestByID he
      refine ⟨e, rfl, { c₁ with history := c₁.history ++ [.confirmed r] },
        ⟨hwf₁.1, hwf₁.2, hwf₁.3, hwf₁.4⟩, hpend₁, hrun, httl, by rw [hhist], ?_⟩
      cases hadd : c.runner.addWrappedTask e.task with
      | error err =>
          exact .inl ⟨err, rfl, by simp [TaskCommitter.confirmDispatchTask, he, hc₁, hrun, hadd]⟩
      | ok runner =>
          exact .inr ⟨runner, rfl,
            by simp [TaskCommitter.confirmDispatchTask, he, hc₁, hrun, hadd]⟩

/-- A round of the TTL checker removes requests through `removeRequestByID` only, so on a
consistent committer it never panics and keeps the maps consistent. -/
theorem WF.checkTTLLoop (now : Nat) : ∀ (order : List RequestID) {c : TaskCommitter},
    c.WF → ∃ c', c.checkTTLLoop now order = .ok c' ∧ c'.WF
  | [], c, hwf => ⟨c, rfl, hwf⟩
  | rID :: rest, c, hwf => by
      cases he : c.pendingRequests.lookup rID with
      | none =>
          obtain ⟨c', hc', hwf'⟩ := WF.checkTTLLoop now rest hwf
          exact ⟨c', by simp [TaskCommitter.checkTTLLoop, he, hc'], hwf'⟩
      | some request =>
          by_cases hexp : now > request.expireAt
          · obtain ⟨c₁, hc₁, hwf₁, -⟩ := hwf.removeRequestByID he
            obtain ⟨c', hc', hwf'⟩ := WF.checkTTLLoop now rest
              (c := { c₁ with history := c₁.history ++ [.expired rID] })
              ⟨hwf₁.1, hwf₁.2, hwf₁.3, hwf₁.4⟩
            exact ⟨c', by simp [TaskCommitter.checkTTLLoop, he, hexp, hc₁, hc'], hwf'⟩
          · obtain ⟨c', hc', hwf'⟩ := WF.checkTTLLoop now rest hwf
            exact ⟨c', by simp [TaskCommitter.checkTTLLoop, he, hexp, hc'], hwf'⟩

theorem WF.newTaskCommitter (runner : TaskRunner) (requestTTL : Nat) :
    (Executor.newTaskCommitter runner requestTTL).WF := by
  constructor <;> simp [Executor.newTaskCommitter]

/-- The log records every change of the pending requests, so `Inv` only needs the maps
to change as the new letters of the log say. -/
theorem Inv.of_history {c' : TaskCommitter} (hinv : c.Inv) (hwf : c'.WF)
    (new : List CommitterEvent) (hh : c'.history = c.history ++ new)
    (hpend : ∀ r t, c'.PendingFor r t ↔ Awaiting (c.history ++ new) r t)
    (hrec : c'.runner.received = c.runner.received) : c'.Inv where
  wf := hwf
  pending_iff r t := hh ▸ hpend r t
  received_confirmed task htask := by
    obtain ⟨pre, post, hpre, haw⟩ := hinv.received_confirmed task (hrec ▸ htask)
    exact ⟨pre, post ++ new, by rw [hh, hpre]; simp, haw⟩

theorem Inv.preDispatchTask (hinv : c.Inv) {r : RequestID} {task : Runnable} {now : Nat}
    {b : Bool} (h : c.preDispatchTask r task now = .ok (c', b)) : c'.Inv := by
  rcases hinv.wf.preDispatchTask r task now with ⟨-, hc⟩ | ⟨hr, c₁, hc, hwf, hpend, hrun, -, hh⟩
  · rw [hc] at h
    cases h
    exact hinv
  · rw [hc] at h
    cases h
    refine hinv.of_history hwf _ hh (fun r' t => ?_) (by rw [hrun])
    -- the new request opens, and closes the old request of its task
    rw [hpend, Awaiting, Word.since_append_singleton, ← Awaiting, ← hinv.pending_iff]
    simp only [CommitterEvent.accepted.injEq, CommitterEvent.Closes]
    constructor
    · rintro (⟨rfl, rfl⟩ | ⟨h, ht⟩)
      · exact .inl ⟨rfl, rfl⟩
      · exact .inr ⟨h, Ne.symm ht⟩
    · rintro (⟨rfl, rfl⟩ | ⟨h, ht⟩)
      · exact .inl ⟨rfl, rfl⟩
      · exact .inr ⟨h, Ne.symm ht⟩

/-- Expiring or confirming request `r` accepts no request and closes exactly `r`. -/
theorem closes_iff_of_removal {r : RequestID} {ev : CommitterEvent}
    (hev : ev = .expired r ∨ ev = .confirmed r) (r' : RequestID) (t : RunnableID) :
    ev ≠ .accepted r' t ∧ (ev.Closes r' t ↔ r' = r) := by
  rcases hev with rfl | rfl
  · exact ⟨nofun, by simp [CommitterEvent.Closes, eq_comm]⟩
  · exact ⟨nofun, by simp [CommitterEvent.Closes, eq_comm]⟩

/-- Removing a pending request and logging `ev`, an event that closes exactly it. -/
theorem Inv.remove (hinv : c.Inv) {r : RequestID} (ev : CommitterEvent)
    (hev : ∀ r' t, ev ≠ .accepted r' t ∧ (ev.Closes r' t ↔ r' = r)) (hwf : c'.WF)
    (hpend : ∀ r' t, c'.PendingFor r' t ↔ c.PendingFor r' t ∧ r' ≠ r)
    (hh : c'.history = c.history ++ [ev]) (hrec : c'.runner.received = c.runner.received) :
    c'.Inv :=
  hinv.of_history hwf _ hh (fun r' t => by
    rw [hpend, Awaiting, Word.since_append_singleton, ← Awaiting, ← hinv.pending_iff,
      (hev r' t).2]
    simp [(hev r' t).1]) hrec

theorem Inv.confirmDispatchTask (hinv : c.Inv) {r : RequestID} {t : RunnableID}
    {res : Except Error Bool} (h : c.confirmDispatchTask r t = .ok (c', res)) : c'.Inv := by
  rcases hinv.wf.confirmDispatchTask r t with
    ⟨-, hc⟩ | ⟨e, he, c₁, hwf, hpend, hrun, -, hh, ⟨err, -, hc⟩ | ⟨runner, hadd, hc⟩⟩
  · rw [hc] at h
    cases h
    exact hinv
  · rw [hc] at h
    cases h
    exact hinv.remove (.confirmed r) (closes_iff_of_removal (.inr rfl)) hwf hpend hh
      (by rw [hrun])
  · rw [hc] at h
    cases h
    have hwf' : ({ c₁ with runner } : TaskCommitter).WF := ⟨hwf.1, hwf.2, hwf.3, hwf.4⟩
    refine ⟨hwf', fun r' t => ?_, fun task htask => ?_⟩
    · exact (hinv.remove (.confirmed r) (closes_iff_of_removal (.inr rfl)) hwf hpend hh
        (by rw [hrun])).pending_iff r' t
    · rw [TaskRunner.received_addWrappedTask hadd, List.mem_append] at htask
      rcases htask with htask | htask
      · obtain ⟨pre, post, hpre, haw⟩ := hinv.received_confirmed task htask
        exact ⟨pre, post ++ [.confirmed r], by rw [hh, hpre]; simp, haw⟩
      · -- the new task is the confirmed request's, which was awaiting
        rw [List.mem_singleton.1 htask, hinv.wf.pending_origin r e he]
        exact ⟨c.history, [], by rw [hh], (hinv.pending_iff r e.taskID).1 ⟨e, he, rfl⟩⟩

theorem Inv.checkTTLLoop (now : Nat) : ∀ (order : List RequestID) {c : TaskCommitter},
    c.Inv → ∃ c', c.checkTTLLoop now order = .ok c' ∧ c'.Inv ∧ c'.runner = c.runner ∧
      ∀ r t, .accepted r t ∈ c'.history → .accepted r t ∈ c.history
  | [], c, hinv => ⟨c, rfl, hinv, rfl, fun _ _ h => h⟩
  | rID :: rest, c, hinv => by
      cases he : c.pendingRequests.lookup rID with
      | none =>
          obtain ⟨c', hc', hinv', hrun, hacc⟩ := Inv.checkTTLLoop now rest hinv
          exact ⟨c', by simp [TaskCommitter.checkTTLLoop, he, hc'], hinv', hrun, hacc⟩
      | some request =>
          by_cases hexp : now > request.expireAt
          · obtain ⟨c₁, hc₁, hwf, hpend, hrun, -, hh⟩ := hinv.wf.removeRequestByID he
            have hinv₁ : ({ c₁ with history := c₁.history ++ [.expired rID] } :
                TaskCommitter).Inv :=
              hinv.remove (.expired rID) (closes_iff_of_removal (.inl rfl))
                ⟨hwf.1, hwf.2, hwf.3, hwf.4⟩ hpend (by rw [hh]) (by rw [hrun])
            obtain ⟨c', hc', hinv', hrun', hacc⟩ := Inv.checkTTLLoop now rest hinv₁
            refine ⟨c', by simp [TaskCommitter.checkTTLLoop, he, hexp, hc₁, hc'], hinv',
              hrun'.trans hrun, fun r t h => ?_⟩
            have h' := hacc r t h
            simp only [hh, List.mem_append, List.mem_singleton] at h'
            rcases h' with h' | h'
            · exact h'
            · cases h'
          · obtain ⟨c', hc', hinv', hrun, hacc⟩ := Inv.checkTTLLoop now rest hinv
            exact ⟨c', by simp [TaskCommitter.checkTTLLoop, he, hexp, hc'], hinv', hrun, hacc⟩

theorem Inv.runOnce (hinv : c.Inv) :
    ({ c with runner := c.runner.runOnce } : TaskCommitter).Inv where
  wf := ⟨hinv.wf.1, hinv.wf.2, hinv.wf.3, hinv.wf.4⟩
  pending_iff := hinv.pending_iff
  received_confirmed task htask :=
    hinv.received_confirmed task (by rwa [TaskRunner.received_runOnce] at htask)

theorem Inv.newTaskCommitter (runner : TaskRunner) (requestTTL : Nat)
    (hempty : runner.received = []) : (Executor.newTaskCommitter runner requestTTL).Inv where
  wf := WF.newTaskCommitter runner requestTTL
  pending_iff r t := by
    simp [PendingFor, Awaiting, Executor.newTaskCommitter, Word.not_since_nil]
  received_confirmed task htask := by
    simp [Executor.newTaskCommitter, hempty] at htask

end Lemmas

end TaskCommitter

/-- `pb.PreDispatchTaskRequest`, by the fields the executor reads without `makeTask`. -/
structure PreDispatchTaskRequest where
  workerID : String
  requestID : RequestID
  deriving DecidableEq, Repr

/-- `pb.ConfirmDispatchTaskRequest`. -/
structure ConfirmDispatchTaskRequest where
  workerID : String
  requestID : RequestID
  deriving DecidableEq, Repr

namespace Server

/-- `Server.PreDispatchTask`. `taskMade` says whether `makeTask` built the worker, whose
`ID()` is the request's worker ID; a failure is reported with the code `Aborted`. The
result is the gRPC reply: nothing, or the error. -/
def preDispatchTask (c : TaskCommitter) (req : PreDispatchTaskRequest) (taskMade : Bool)
    (now : Nat) : Except Panic (TaskCommitter × Except Error Unit) :=
  if taskMade then
    match c.preDispatchTask req.requestID ⟨req.workerID⟩ now with
    | .error p => .error p
    | .ok (c, true) => .ok (c, .ok ())
    | .ok (c, false) => .ok (c, .error (.status .alreadyExists))
  else .ok (c, .error (.status .aborted))

/-- `Server.ConfirmDispatchTask`. -/
def confirmDispatchTask (c : TaskCommitter) (req : ConfirmDispatchTaskRequest) :
    Except Panic (TaskCommitter × Except Error Unit) :=
  match c.confirmDispatchTask req.requestID req.workerID with
  | .error p => .error p
  | .ok (c, .error _) => .ok (c, .error (.status .aborted))
  | .ok (c, .ok false) => .ok (c, .error (.status .notFound))
  | .ok (c, .ok true) => .ok (c, .ok ())

end Server

/-- The calls made on an executor: the two handlers, with the outcome of `makeTask` and
the clock reading; a round of the TTL checker, with the iteration order of the map; and
an iteration of the runner's loop. -/
inductive ExecutorOp
  | preDispatchTask (req : PreDispatchTaskRequest) (taskMade : Bool) (now : Nat)
  | confirmDispatchTask (req : ConfirmDispatchTaskRequest)
  | checkTTLOnce (now : Nat) (order : List RequestID)
  | runTask

/-- The request ID of a call, if it has one. -/
def ExecutorOp.requestID? : ExecutorOp → Option RequestID
  | .preDispatchTask req _ _ => some req.requestID
  | .confirmDispatchTask req => some req.requestID
  | _ => none

namespace TaskCommitter

/-- Performing one call on the executor; the replies go back to callers outside it. -/
def step (c : TaskCommitter) : ExecutorOp → Except Panic TaskCommitter
  | .preDispatchTask req taskMade now => (Server.preDispatchTask c req taskMade now).map (·.1)
  | .confirmDispatchTask req => (Server.confirmDispatchTask c req).map (·.1)
  | .checkTTLOnce now order => c.checkTTLOnce now order
  | .runTask => .ok { c with runner := c.runner.runOnce }

-- Many proofs below unfold this definition, and Lean elaborates them in parallel: the empty
-- section generates its equation lemmas here, once, so that the proofs do not all wait on it.
-- The simp set outside the section is unchanged.
section
attribute [local simp] step
end

/-- The TTL checker iterates over the keys of the map. -/
def allowed (c : TaskCommitter) : ExecutorOp → Bool
  | .checkTTLOnce _ order => order.isPerm c.pendingRequests.keys
  | _ => true

/-- The states of an executor started with an empty runner. -/
def Reachable (runner : TaskRunner) (requestTTL : Nat) : TaskCommitter → Prop :=
  Transition.Reachable step allowed (newTaskCommitter runner requestTTL)

section Server

variable {c c' : TaskCommitter}

/-- The handler's reply, from what the committer did. -/
theorem Inv.serverPreDispatchTask (hinv : c.Inv) {req : PreDispatchTaskRequest}
    {taskMade : Bool} {now : Nat} {res : Except Error Unit}
    (h : Server.preDispatchTask c req taskMade now = .ok (c', res)) : c'.Inv := by
  unfold Server.preDispatchTask at h
  split at h
  · split at h
    · cases h
    · rename_i hc
      cases h
      exact hinv.preDispatchTask hc
    · rename_i hc
      cases h
      exact hinv.preDispatchTask hc
  · cases h
    exact hinv

theorem Inv.serverConfirmDispatchTask (hinv : c.Inv) {req : ConfirmDispatchTaskRequest}
    {res : Except Error Unit} (h : Server.confirmDispatchTask c req = .ok (c', res)) :
    c'.Inv := by
  unfold Server.confirmDispatchTask at h
  split at h
  · cases h
  all_goals
    rename_i hc
    cases h
    exact hinv.confirmDispatchTask hc

/-- The handlers never reach a panic of a consistent committer. -/
theorem WF.serverPreDispatchTask_ne_error (hwf : c.WF) (req : PreDispatchTaskRequest)
    (taskMade : Bool) (now : Nat) (p : Panic) :
    Server.preDispatchTask c req taskMade now ≠ .error p := by
  unfold Server.preDispatchTask
  split
  · rcases hwf.preDispatchTask req.requestID ⟨req.workerID⟩ now with
      ⟨-, hc⟩ | ⟨-, c', hc, -⟩ <;> simp [hc]
  · simp

theorem WF.serverConfirmDispatchTask_ne_error (hwf : c.WF) (req : ConfirmDispatchTaskRequest)
    (p : Panic) : Server.confirmDispatchTask c req ≠ .error p := by
  unfold Server.confirmDispatchTask
  rcases hwf.confirmDispatchTask req.requestID req.workerID with
    ⟨-, hc⟩ | ⟨e, -, c₁, -, -, -, -, -, ⟨err, -, hc⟩ | ⟨runner, -, hc⟩⟩ <;> simp [hc]

/-- The reply to `PreDispatchTask`: only a request ID that is pending is rejected as a
duplicate, and only the request's own ID is accepted. -/
theorem Inv.serverPreDispatchTask_reply (hinv : c.Inv) (req : PreDispatchTaskRequest)
    (taskMade : Bool) (now : Nat) :
    ∃ c' reply, Server.preDispatchTask c req taskMade now = .ok (c', reply) ∧
      c'.runner = c.runner ∧
      (∀ r t, .accepted r t ∈ c'.history → .accepted r t ∈ c.history ∨ r = req.requestID) ∧
      (reply = .error (.status .alreadyExists) → req.requestID ∈ c.pendingRequests) := by
  unfold Server.preDispatchTask
  cases taskMade with
  | false => exact ⟨c, .error (.status .aborted), rfl, rfl, fun r t h => .inl h, nofun⟩
  | true =>
      rcases hinv.wf.preDispatchTask req.requestID ⟨req.workerID⟩ now with
        ⟨hr, hc⟩ | ⟨-, c', hc, -, -, hrun, -, hh⟩
      · exact ⟨c, .error (.status .alreadyExists), by simp [hc], rfl, fun r t h => .inl h,
          fun _ => hr⟩
      · refine ⟨c', .ok (), by simp [hc], hrun, fun r t h => ?_, nofun⟩
        rw [hh, List.mem_append, List.mem_singleton] at h
        rcases h with h | h
        · exact .inl h
        · cases h
          exact .inr rfl

/-- The reply to `ConfirmDispatchTask`: success hands over one task, carried by the
confirmed request; `Aborted` and `NotFound` hand over nothing. -/
theorem Inv.serverConfirmDispatchTask_reply (hinv : c.Inv) (req : ConfirmDispatchTaskRequest) :
    ∃ c' reply, Server.confirmDispatchTask c req = .ok (c', reply) ∧
      (∀ r t, .accepted r t ∈ c'.history → .accepted r t ∈ c.history) ∧
      ((reply = .ok () ∧ ∃ task : RunnableContainer, task.origin = req.requestID ∧
          c'.runner.received = c.runner.received ++ [task]) ∨
        ((reply = .error (.status .aborted) ∨ reply = .error (.status .notFound)) ∧
          c'.runner.received = c.runner.received)) := by
  unfold Server.confirmDispatchTask
  rcases hinv.wf.confirmDispatchTask req.requestID req.workerID with
    ⟨-, hc⟩ | ⟨e, he, c₁, -, -, hrun, -, hh, ⟨err, -, hc⟩ | ⟨runner, hadd, hc⟩⟩
  · exact ⟨c, .error (.status .notFound), by simp [hc], fun r t h => h, .inr ⟨.inr rfl, rfl⟩⟩
  · refine ⟨c₁, .error (.status .aborted), by simp [hc], fun r t h => ?_,
      .inr ⟨.inl rfl, by rw [hrun]⟩⟩
    simpa [hh] using h
  · refine ⟨{ c₁ with runner }, .ok (), by simp [hc], fun r t h => ?_,
      .inl ⟨rfl, e.task, hinv.wf.pending_origin _ e he, ?_⟩⟩
    · simpa [hh] using h
    · exact TaskRunner.received_addWrappedTask hadd

/-- A request ID that the committer never accepted is not pending. -/
theorem Inv.not_mem_of_not_accepted (hinv : c.Inv) {r : RequestID}
    (h : ∀ t, .accepted r t ∉ c.history) : r ∉ c.pendingRequests := by
  intro hr
  obtain ⟨t, ht⟩ := pendingFor_of_mem hr
  exact h t ((hinv.pending_iff r t).1 ht).mem

/-- Every task the runner received was carried by a request the committer accepted. -/
theorem Inv.origin_accepted (hinv : c.Inv) {task : RunnableContainer}
    (h : task ∈ c.runner.received) : .accepted task.origin task.runnable.id ∈ c.history := by
  obtain ⟨pre, post, hh, haw⟩ := hinv.received_confirmed task h
  rw [hh]
  exact List.mem_append_left _ haw.mem

end Server

section Run

variable {c c' : TaskCommitter}

/-- Every call on a consistent committer succeeds and leaves it consistent, whatever the
request and task IDs, the outcome of `addWrappedTask` and the clock. -/
theorem WF.step (hwf : c.WF) (op : ExecutorOp) : ∃ c', c.step op = .ok c' ∧ c'.WF := by
  cases op with
  | preDispatchTask req taskMade now =>
      cases taskMade with
      | false => exact ⟨c, by simp [TaskCommitter.step, Server.preDispatchTask, Except.map], hwf⟩
      | true =>
          rcases hwf.preDispatchTask req.requestID ⟨req.workerID⟩ now with
            ⟨-, hc⟩ | ⟨-, c', hc, hwf', -⟩
          · exact ⟨c, by simp [TaskCommitter.step, Server.preDispatchTask, hc, Except.map], hwf⟩
          · exact ⟨c', by simp [TaskCommitter.step, Server.preDispatchTask, hc, Except.map],
              hwf'⟩
  | confirmDispatchTask req =>
      rcases hwf.confirmDispatchTask req.requestID req.workerID with
        ⟨-, hc⟩ | ⟨e, -, c₁, hwf₁, -, -, -, -, ⟨err, -, hc⟩ | ⟨runner, -, hc⟩⟩
      · exact ⟨c, by simp [TaskCommitter.step, Server.confirmDispatchTask, hc, Except.map], hwf⟩
      · exact ⟨c₁, by simp [TaskCommitter.step, Server.confirmDispatchTask, hc, Except.map],
          hwf₁⟩
      · -- the runner is no part of the maps
        exact ⟨{ c₁ with runner },
          by simp [TaskCommitter.step, Server.confirmDispatchTask, hc, Except.map],
          ⟨hwf₁.1, hwf₁.2, hwf₁.3, hwf₁.4⟩⟩
  | checkTTLOnce now order => exact hwf.checkTTLLoop now order
  | runTask => exact ⟨_, rfl, ⟨hwf.1, hwf.2, hwf.3, hwf.4⟩⟩

theorem Inv.step (hinv : c.Inv) {op : ExecutorOp} (h : c.step op = .ok c') : c'.Inv := by
  cases op with
  | preDispatchTask req taskMade now =>
      cases hs : Server.preDispatchTask c req taskMade now with
      | error p => simp [TaskCommitter.step, hs, Except.map] at h
      | ok p =>
          simp only [TaskCommitter.step, hs, Except.map, Except.ok.injEq] at h
          subst h
          exact hinv.serverPreDispatchTask hs
  | confirmDispatchTask req =>
      cases hs : Server.confirmDispatchTask c req with
      | error p => simp [TaskCommitter.step, hs, Except.map] at h
      | ok p =>
          simp only [TaskCommitter.step, hs, Except.map, Except.ok.injEq] at h
          subst h
          exact hinv.serverConfirmDispatchTask hs
  | checkTTLOnce now order =>
      obtain ⟨c'', hc, hinv', -⟩ := hinv.checkTTLLoop now order
      simp only [TaskCommitter.step, checkTTLOnce, hc, Except.ok.injEq] at h
      exact h ▸ hinv'
  | runTask =>
      simp only [TaskCommitter.step, Except.ok.injEq] at h
      exact h ▸ hinv.runOnce

/-- What a call does to the log and to the runner: only a `PreDispatchTask` accepts, and
only its own ID; only a `ConfirmDispatchTask` hands over a task, and only one carried by
its own request. -/
theorem Inv.step_effect (hinv : c.Inv) {op : ExecutorOp} (h : c.step op = .ok c') :
    (∀ r t, .accepted r t ∈ c'.history → .accepted r t ∈ c.history ∨ some r = op.requestID?) ∧
      ∃ new, c'.runner.received = c.runner.received ++ new ∧
        ∀ task ∈ new, some task.origin = op.requestID? := by
  cases op with
  | preDispatchTask req taskMade now =>
      obtain ⟨c'', reply, hs, hrun, hacc, -⟩ := hinv.serverPreDispatchTask_reply req taskMade now
      simp only [TaskCommitter.step, hs, Except.map, Except.ok.injEq] at h
      subst h
      refine ⟨fun r t hr => ?_, [], by simp [hrun], by simp⟩
      rcases hacc r t hr with hr | rfl
      · exact .inl hr
      · exact .inr rfl
  | confirmDispatchTask req =>
      obtain ⟨c'', reply, hs, hacc, hrec⟩ := hinv.serverConfirmDispatchTask_reply req
      simp only [TaskCommitter.step, hs, Except.map, Except.ok.injEq] at h
      subst h
      refine ⟨fun r t hr => .inl (hacc r t hr), ?_⟩
      rcases hrec with ⟨-, task, horigin, hrec⟩ | ⟨-, hrec⟩
      · exact ⟨[task], hrec, by simp [ExecutorOp.requestID?, horigin]⟩
      · exact ⟨[], by simp [hrec], by simp⟩
  | checkTTLOnce now order =>
      obtain ⟨c'', hc, -, hrun, hacc⟩ := hinv.checkTTLLoop now order
      simp only [TaskCommitter.step, checkTTLOnce, hc, Except.ok.injEq] at h
      subst h
      exact ⟨fun r t hr => .inl (hacc r t hr), [], by simp [hrun], by simp⟩
  | runTask =>
      simp only [TaskCommitter.step, Except.ok.injEq] at h
      subst h
      exact ⟨fun r t hr => .inl hr, [], by simp [TaskRunner.received_runOnce], by simp⟩

/-- A consistent committer performs every call. -/
theorem Inv.step_ne_error (hinv : c.Inv) (op : ExecutorOp) (p : Panic) : c.step op ≠ .error p := by
  obtain ⟨c', hc, -⟩ := hinv.wf.step op
  rw [hc]
  nofun

/-- The maps are consistent in every run, whatever the runner the committer is built on. -/
theorem wf_of_reachable {runner : TaskRunner} {requestTTL : Nat}
    (hr : Reachable runner requestTTL c) : c.WF :=
  Transition.Reachable.inv (WF.newTaskCommitter runner requestTTL)
    (fun _ op _ hwf _ h => by
      obtain ⟨c'', hc, hwf'⟩ := hwf.step op
      rw [hc] at h
      cases h
      exact hwf') hr

theorem inv_of_reachable {runner : TaskRunner} {requestTTL : Nat}
    (hempty : runner.received = []) (hr : Reachable runner requestTTL c) : c.Inv :=
  Transition.Reachable.inv (Inv.newTaskCommitter runner requestTTL hempty)
    (fun _ _ _ hinv _ h => hinv.step h) hr

/-- The "Unreachable" panics of `removeRequestByID` are unreachable. -/
theorem no_unreachable_panic {runner : TaskRunner} {requestTTL : Nat}
    (hempty : runner.received = []) :
    ¬ Transition.PanicReachable step allowed (newTaskCommitter runner requestTTL)
      (· = .unreachable) :=
  Transition.not_panicReachable (fun _ hr => inv_of_reachable hempty hr)
    (fun _ op p hinv _ h _ => hinv.step_ne_error op p h)

end Run

end TaskCommitter

end Executor

end Microcosm
