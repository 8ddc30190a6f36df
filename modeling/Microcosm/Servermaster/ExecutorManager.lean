import Microcosm.Servermaster.Scheduler
import Microcosm.Library.Map
import Microcosm.Library.Transition

/-!
# The executor manager

`servermaster/executor_manager.go` and `servermaster/resource/capacity_impl.go`. The
`ExecutorManagerImpl` keeps the executors that registered, with their status, last heartbeat
and TTL; its `CapRescMgr` keeps their resources, which `CapacitiesForAllExecutors` hands to
the scheduler. `RegisterExec` stores the executor under the manager's mutex and registers its
resources after the unlock; `HandleHeartbeat` refreshes both; the goroutine `checkAlive` marks
the first executor whose TTL has passed `Tombstone` and, after an unlock, removes it from both.

The model is an interleaving semantics of the goroutines that call the manager: the calls of
`RegisterExec` between their unlock and `rescMgr.Register` (`registering`), the heartbeats, and
the checker, whose `checkAliveImpl` is two steps, the loop under the mutex and
`removeExecutorImpl`. `resetExecutor` registers the executors of the metastore before `Start`.
Times are milliseconds and `tick` moves the clock. The map's range visits the executors in an
order the environment chooses among the orders of its keys.

In every run: each executor is in the resource manager or its registration is in flight
(`executor_has_capacity_or_registering`); with the executors' own heartbeats, which report
`Running`, the checker removes an executor only after its TTL has passed
(`checker_removes_only_expired`), and as many rounds of it as there are executors leave none
dead (`checker_rounds_leave_no_dead_executor`). The registration after the unlock lets a
resource entry outlive its executor: once the checker has removed an executor whose
`rescMgr.Register` is still to come, the entry it then registers stays, unchanged, in every
later state (`capacity_outlives_removed_executor`).
-/

namespace Microcosm

namespace Servermaster

/-- `model.ExecutorStatus`, an `int32`; a heartbeat stores the number the executor sends. -/
abbrev ExecutorStatus := Int

/-- `model.Initing`. -/
def ExecutorStatus.initing : ExecutorStatus := 0

/-- `model.Running`. -/
def ExecutorStatus.running : ExecutorStatus := 1

/-- `model.Tombstone`. -/
def ExecutorStatus.tombstone : ExecutorStatus := 3

/-- `model.NodeInfo` of an executor. -/
structure NodeInfo where
  id : ExecutorID
  addr : String
  capability : Int
  deriving DecidableEq, Repr

/-- `pb.RegisterExecutorRequest`. -/
structure RegisterExecutorRequest where
  address : String
  capability : Int
  deriving DecidableEq, Repr

/-- `pb.HeartbeatRequest`. -/
structure HeartbeatRequest where
  executorId : ExecutorID
  resourceUsage : Int
  status : ExecutorStatus
  /-- In milliseconds. -/
  ttl : Nat
  deriving DecidableEq, Repr

/-- The errors of the executor manager and its resource manager. -/
inductive ExecutorError
  /-- `ErrUnknownExecutorID`. -/
  | unknownExecutorID (id : ExecutorID)
  /-- `ErrExecutorDupRegister`. -/
  | executorDupRegister
  /-- `ErrTombstoneExecutor`. -/
  | tombstoneExecutor (id : ExecutorID)
  deriving DecidableEq, Repr

/-! ## The resource manager -/

/-- `resource.ExecutorResource`. -/
structure ExecutorResource where
  id : ExecutorID
  capacity : Int
  reserved : Int
  used : Int
  status : ExecutorStatus
  addr : String
  deriving DecidableEq, Repr

/-- The `ExecutorResourceStatus` that the capacity provider copies out of an entry. -/
def ExecutorResource.resourceStatus (r : ExecutorResource) : ExecutorResourceStatus :=
  ⟨r.capacity, r.reserved, r.used⟩

/-- `CapRescMgr`, its map `executors`. -/
abbrev CapRescMgr := AList (fun _ : ExecutorID => ExecutorResource)

namespace CapRescMgr

/-- `Register`. -/
def register (m : CapRescMgr) (id : ExecutorID) (addr : String) (capacity : Int) : CapRescMgr :=
  m.insert id
    { id, capacity, reserved := 0, used := 0, status := ExecutorStatus.initing, addr }

/-- `Unregister`. -/
def unregister (m : CapRescMgr) (id : ExecutorID) : CapRescMgr :=
  m.erase id

/-- `Update`. -/
def update (m : CapRescMgr) (id : ExecutorID) (used reserved : Int) (status : ExecutorStatus) :
    Except ExecutorError CapRescMgr :=
  match m.lookup id with
  | none => .error (.unknownExecutorID id)
  | some exec => .ok (m.insert id { exec with used, reserved, status })

/-- `CapacitiesForAllExecutors`: a copy of the map, written entry by entry into an empty one. -/
def capacitiesForAllExecutors (m : CapRescMgr) : Capacities :=
  m.entries.foldl (fun (ret : Capacities) x => ret.insert x.1 x.2.resourceStatus) ∅

/-- `CapacityForExecutor`. -/
def capacityForExecutor (m : CapRescMgr) (executor : ExecutorID) :
    Option ExecutorResourceStatus :=
  (m.lookup executor).map ExecutorResource.resourceStatus

theorem lookup_capacitiesForAllExecutors (m : CapRescMgr) (id : ExecutorID) :
    (capacitiesForAllExecutors m).lookup id = capacityForExecutor m id :=
  Map.lookup_foldl_insert_entries m _ id

end CapRescMgr

/-! ## The executor manager -/

/-- `Executor`. -/
structure Executor where
  nodeInfo : NodeInfo
  status : ExecutorStatus
  lastUpdateTime : Nat
  heartbeatTTL : Nat
  deriving DecidableEq, Repr

/-- `(*Executor).checkAlive` at time `now`: whether the executor is alive, and the executor
after it, marked `Tombstone` once its TTL has passed. -/
def Executor.checkAlive (e : Executor) (now : Nat) : Bool × Executor :=
  if e.status = ExecutorStatus.tombstone then (false, e)
  else if e.lastUpdateTime + e.heartbeatTTL < now then
    (false, { e with status := ExecutorStatus.tombstone })
  else (true, e)

/-- The map `executors` of `ExecutorManagerImpl`. -/
abbrev Executors := AList (fun _ : ExecutorID => Executor)

/-- Where the goroutine of `checkAlive` is. -/
inductive CheckerPc
  /-- `Start` has not been called: the leader is in `resetExecutor`. -/
  | notStarted
  /-- Between two calls of `checkAliveImpl`. -/
  | idle
  /-- `checkAliveImpl` found `id` dead and unlocked, before `removeExecutorImpl`. -/
  | removing (id : ExecutorID)
  deriving DecidableEq, Repr

/-- `ExecutorManagerImpl`, its goroutines, and the clock. -/
structure World where
  executors : Executors
  rescMgr : CapRescMgr
  initHeartbeatTTL : Nat
  /-- The calls of `RegisterExec` past their unlock, before `rescMgr.Register`. -/
  registering : List NodeInfo
  checker : CheckerPc
  now : Nat
  deriving DecidableEq

/-- `NewExecutorManagerImpl` at time `now`. -/
def init (initHeartbeatTTL now : Nat) : World :=
  ⟨∅, ∅, initHeartbeatTTL, [], .notStarted, now⟩

/-- `RegisterExec` up to its unlock. -/
def World.registerExec (w : World) (info : NodeInfo) : World :=
  { w with
    executors := w.executors.insert info.id
      { nodeInfo := info, status := ExecutorStatus.initing, lastUpdateTime := w.now,
        heartbeatTTL := w.initHeartbeatTTL }
    registering := w.registering ++ [info] }

/-- `AllocateNewExec`, the UUID generator having returned `id`, up to the unlock of its
`RegisterExec`: the new executor's `NodeInfo`, or `ErrExecutorDupRegister`. -/
def World.allocateNewExec (w : World) (id : ExecutorID) (req : RegisterExecutorRequest) :
    Except ExecutorError (NodeInfo × World) :=
  let info : NodeInfo := ⟨id, req.address, req.capability⟩
  match w.executors.lookup id with
  | some _ => .error .executorDupRegister
  | none => .ok (info, w.registerExec info)

/-- What `HandleHeartbeat` answers. -/
inductive HeartbeatResult
  /-- A response without error. -/
  | ok
  /-- A response that carries an error. -/
  | respErr (err : ExecutorError)
  /-- An error returned instead of a response. -/
  | err (err : ExecutorError)
  deriving DecidableEq, Repr

/-- `HandleHeartbeat`: its answer, and the manager after it. -/
def World.handleHeartbeat (w : World) (req : HeartbeatRequest) : HeartbeatResult × World :=
  match w.executors.lookup req.executorId with
  | none => (.respErr (.unknownExecutorID req.executorId), w)
  | some exec =>
      if exec.status = ExecutorStatus.tombstone then
        (.respErr (.tombstoneExecutor req.executorId), w)
      else
        let exec' : Executor :=
          { exec with lastUpdateTime := w.now, heartbeatTTL := req.ttl, status := req.status }
        let w' : World := { w with executors := w.executors.insert req.executorId exec' }
        -- the usage is passed as the reserved resources too
        match w.rescMgr.update exec.nodeInfo.id req.resourceUsage req.resourceUsage req.status with
        | .error err => (.err err, w')
        | .ok m => (.ok, { w' with rescMgr := m })

/-- `removeExecutorImpl`. -/
def World.removeExecutorImpl (w : World) (id : ExecutorID) : Except ExecutorError World :=
  match w.executors.lookup id with
  | none => .error (.unknownExecutorID id)
  | some _ => .ok { w with executors := w.executors.erase id, rescMgr := w.rescMgr.unregister id }

/-- The loop of `checkAliveImpl` under the mutex, over the executors in `order`: the first
that `checkAlive` finds dead, and the map, in which `checkAlive` has marked it. -/
def checkAliveLoop (now : Nat) (executors : Executors) :
    List ExecutorID → Option ExecutorID × Executors
  | [] => (none, executors)
  | id :: rest =>
      match executors.lookup id with
      | none => checkAliveLoop now executors rest
      | some exec =>
          match exec.checkAlive now with
          | (true, _) => checkAliveLoop now executors rest
          | (false, exec') => (some id, executors.insert id exec')

/-- The steps of the goroutines. -/
inductive Action
  /-- `RegisterExec` of `resetExecutor`, for an executor of the metastore, up to its unlock. -/
  | resetExec (info : NodeInfo)
  /-- `AllocateNewExec`, the generator having returned `id`, up to the unlock of its
  `RegisterExec`. -/
  | allocateNewExec (id : ExecutorID) (req : RegisterExecutorRequest)
  /-- The `rescMgr.Register` of the `i`-th registration in flight. -/
  | registerResource (i : Nat)
  | heartbeat (req : HeartbeatRequest)
  | start
  /-- The loop of `checkAliveImpl`, the map's range visiting the executors in `order`. -/
  | checkScan (order : List ExecutorID)
  /-- The `removeExecutorImpl` of `checkAliveImpl`. -/
  | checkRemove
  | tick (d : Nat)
  deriving DecidableEq, Repr

/-- One step; a step of a goroutine that is not where the goroutine is changes nothing. -/
def step (w : World) : Action → Except Empty World
  | .resetExec info =>
      match w.checker with
      | .notStarted => .ok (w.registerExec info)
      | _ => .ok w
  | .allocateNewExec id req =>
      match w.allocateNewExec id req with
      | .ok (_, w') => .ok w'
      | .error _ => .ok w
  | .registerResource i =>
      match w.registering[i]? with
      | some info =>
          .ok { w with rescMgr := w.rescMgr.register info.id info.addr info.capability,
                       registering := w.registering.eraseIdx i }
      | none => .ok w
  | .heartbeat req => .ok (w.handleHeartbeat req).2
  | .start =>
      match w.checker with
      | .notStarted => .ok { w with checker := .idle }
      | _ => .ok w
  | .checkScan order =>
      match w.checker with
      | .idle =>
          match checkAliveLoop w.now w.executors order with
          | (none, executors) => .ok { w with executors }
          | (some id, executors) => .ok { w with executors, checker := .removing id }
      | _ => .ok w
  | .checkRemove =>
      match w.checker with
      | .removing id =>
          -- the error of `removeExecutorImpl` is only logged
          match w.removeExecutorImpl id with
          | .ok w' => .ok { w' with checker := .idle }
          | .error _ => .ok { w with checker := .idle }
      | _ => .ok w
  | .tick d => .ok { w with now := w.now + d }

-- Many proofs below unfold this definition, and Lean elaborates them in parallel: the empty
-- section generates its equation lemmas here, once, so that the proofs do not all wait on it.
-- The simp set outside the section is unchanged.
section
attribute [local simp] step
end

/-- The range of a map visits its keys in some order. -/
def allowed (w : World) : Action → Bool
  | .checkScan order => decide (order.Perm w.executors.keys)
  | _ => true

/-- As `allowed`, the executors reporting `Running` in their heartbeats, as
`executor/server.go` sends. -/
def allowedRunning (w : World) : Action → Bool
  | .heartbeat req => decide (req.status = ExecutorStatus.running)
  | a => allowed w a

/-- The runs from `NewExecutorManagerImpl`. -/
def Reachable (initHeartbeatTTL now : Nat) : World → Prop :=
  Transition.Reachable step allowed (init initHeartbeatTTL now)

/-- The runs in which the executors send their own heartbeats. -/
def ReachableRunning (initHeartbeatTTL now : Nat) : World → Prop :=
  Transition.Reachable step allowedRunning (init initHeartbeatTTL now)

/-! ## What each function does -/

section Spec

variable {w w' : World}

/-- `checkAlive` finds an executor dead when it is a `Tombstone` or past its TTL. -/
theorem Executor.checkAlive_fst_eq_false {e : Executor} {now : Nat} :
    (e.checkAlive now).1 = false ↔
      e.status = ExecutorStatus.tombstone ∨ e.lastUpdateTime + e.heartbeatTTL < now := by
  unfold Executor.checkAlive
  by_cases ht : e.status = ExecutorStatus.tombstone
  · simp [ht]
  · by_cases hl : e.lastUpdateTime + e.heartbeatTTL < now <;> simp [ht, hl]

/-- A dead executor leaves `checkAlive` marked `Tombstone`. -/
theorem Executor.checkAlive_of_dead {e : Executor} {now : Nat}
    (h : (e.checkAlive now).1 = false) :
    e.checkAlive now = (false, { e with status := ExecutorStatus.tombstone }) := by
  unfold Executor.checkAlive at h ⊢
  by_cases ht : e.status = ExecutorStatus.tombstone
  · rw [if_pos ht]
    cases e
    simp_all
  · rw [if_neg ht] at h ⊢
    by_cases hl : e.lastUpdateTime + e.heartbeatTTL < now
    · rw [if_pos hl]
    · rw [if_neg hl] at h
      cases h

/-- The loop finds every executor of `order` alive and changes nothing, or it marks the first
dead one and stops. -/
theorem checkAliveLoop_cases (now : Nat) (ex : Executors) (order : List ExecutorID) :
    (checkAliveLoop now ex order = (none, ex) ∧
      ∀ id ∈ order, ∀ x, ex.lookup id = some x → (x.checkAlive now).1 = true) ∨
    ∃ id x, id ∈ order ∧ ex.lookup id = some x ∧ (x.checkAlive now).1 = false ∧
      checkAliveLoop now ex order =
        (some id, ex.insert id { x with status := ExecutorStatus.tombstone }) := by
  induction order with
  | nil => exact .inl ⟨rfl, fun _ h => by cases h⟩
  | cons id rest ih =>
      cases hx : ex.lookup id with
      | none =>
          have hloop : checkAliveLoop now ex (id :: rest) = checkAliveLoop now ex rest := by
            simp [checkAliveLoop, hx]
          rcases ih with ⟨hnone, hall⟩ | ⟨j, y, hj, hy, hdead, heq⟩
          · refine .inl ⟨hloop.trans hnone, fun j hj y hy => ?_⟩
            rcases List.mem_cons.1 hj with rfl | hj
            · rw [hx] at hy
              cases hy
            · exact hall j hj y hy
          · exact .inr ⟨j, y, List.mem_cons_of_mem _ hj, hy, hdead, hloop.trans heq⟩
      | some x =>
          cases halive : (x.checkAlive now).1 with
          | false =>
              refine .inr ⟨id, x, List.mem_cons_self .., hx, halive, ?_⟩
              simp [checkAliveLoop, hx, Executor.checkAlive_of_dead halive]
          | true =>
              have hsnd : x.checkAlive now = (true, (x.checkAlive now).2) := by
                rw [← halive]
              have hloop : checkAliveLoop now ex (id :: rest) = checkAliveLoop now ex rest := by
                simp only [checkAliveLoop, hx]
                rw [hsnd]
              rcases ih with ⟨hnone, hall⟩ | ⟨j, y, hj, hy, hdead, heq⟩
              · refine .inl ⟨hloop.trans hnone, fun j hj y hy => ?_⟩
                rcases List.mem_cons.1 hj with rfl | hj
                · rw [hx] at hy
                  cases hy
                  exact halive
                · exact hall j hj y hy
              · exact .inr ⟨j, y, List.mem_cons_of_mem _ hj, hy, hdead, hloop.trans heq⟩

/-- The loop keeps the keys of the map. -/
theorem mem_checkAliveLoop (now : Nat) (ex : Executors) (order : List ExecutorID)
    (k : ExecutorID) : k ∈ (checkAliveLoop now ex order).2 ↔ k ∈ ex := by
  rcases checkAliveLoop_cases now ex order with ⟨hloop, -⟩ | ⟨j, x, -, hx, -, hloop⟩
  · rw [hloop]
  · rw [hloop]
    exact Map.mem_insert_of_mem (Map.mem_of_lookup_eq_some hx)

/-- A heartbeat changes nothing, or it refreshes a live executor under its key and updates the
resources registered under its ID, if there are any. -/
theorem World.handleHeartbeat_cases (w : World) (req : HeartbeatRequest) :
    (w.handleHeartbeat req).2 = w ∨
    ∃ exec, w.executors.lookup req.executorId = some exec ∧
      exec.status ≠ ExecutorStatus.tombstone ∧
      (w.handleHeartbeat req).2 =
        { w with
          executors := w.executors.insert req.executorId
            { exec with lastUpdateTime := w.now, heartbeatTTL := req.ttl, status := req.status }
          rescMgr := match w.rescMgr.update exec.nodeInfo.id req.resourceUsage
              req.resourceUsage req.status with
            | .ok m => m
            | .error _ => w.rescMgr } := by
  unfold World.handleHeartbeat
  cases hx : w.executors.lookup req.executorId with
  | none => exact .inl rfl
  | some exec =>
      by_cases ht : exec.status = ExecutorStatus.tombstone
      · exact .inl (by simp [ht])
      · refine .inr ⟨exec, rfl, ht, ?_⟩
        simp only [ht, if_false]
        split
        · rename_i err herr
          rw [herr]
        · rename_i m hm
          rw [hm]

/-- `Update` writes the entry that is there, or fails. -/
theorem CapRescMgr.update_cases (m : CapRescMgr) (id : ExecutorID) (used reserved : Int)
    (status : ExecutorStatus) :
    (match m.update id used reserved status with
      | .ok m' => m'
      | .error _ => m) = m ∨
    ∃ r, m.lookup id = some r ∧
      (match m.update id used reserved status with
        | .ok m' => m'
        | .error _ => m) = m.insert id { r with used, reserved, status } := by
  unfold CapRescMgr.update
  cases h : m.lookup id with
  | none => exact .inl rfl
  | some r => exact .inr ⟨r, rfl, rfl⟩

/-! ### One lemma for each step -/

theorem step_resetExec {info : NodeInfo} (h : step w (.resetExec info) = .ok w') :
    (w.checker = .notStarted ∧ w' = w.registerExec info) ∨ w' = w := by
  simp only [step] at h
  split at h
  · rename_i hc
    cases h
    exact .inl ⟨hc, rfl⟩
  · cases h
    exact .inr rfl

theorem step_allocateNewExec {id : ExecutorID} {req : RegisterExecutorRequest}
    (h : step w (.allocateNewExec id req) = .ok w') :
    (w.executors.lookup id = none ∧ w' = w.registerExec ⟨id, req.address, req.capability⟩) ∨
      w' = w := by
  simp only [step, World.allocateNewExec] at h
  cases hx : w.executors.lookup id with
  | none =>
      rw [hx] at h
      cases h
      exact .inl ⟨rfl, rfl⟩
  | some x =>
      rw [hx] at h
      cases h
      exact .inr rfl

theorem step_registerResource {i : Nat} (h : step w (.registerResource i) = .ok w') :
    (∃ info, w.registering[i]? = some info ∧
      w' = { w with rescMgr := w.rescMgr.register info.id info.addr info.capability,
                    registering := w.registering.eraseIdx i }) ∨ w' = w := by
  simp only [step] at h
  split at h
  · rename_i info hi
    cases h
    exact .inl ⟨info, hi, rfl⟩
  · cases h
    exact .inr rfl

theorem step_heartbeat {req : HeartbeatRequest} (h : step w (.heartbeat req) = .ok w') :
    w' = (w.handleHeartbeat req).2 := by
  simp only [step] at h
  cases h
  rfl

theorem step_start (h : step w .start = .ok w') :
    (w.checker = .notStarted ∧ w' = { w with checker := .idle }) ∨ w' = w := by
  simp only [step] at h
  split at h
  · rename_i hc
    cases h
    exact .inl ⟨hc, rfl⟩
  · cases h
    exact .inr rfl

theorem step_checkScan {order : List ExecutorID} (h : step w (.checkScan order) = .ok w') :
    (w.checker = .idle ∧
      ((checkAliveLoop w.now w.executors order).1 = none ∧
          w' = { w with executors := (checkAliveLoop w.now w.executors order).2 } ∨
        ∃ id, (checkAliveLoop w.now w.executors order).1 = some id ∧
          w' = { w with executors := (checkAliveLoop w.now w.executors order).2,
                        checker := .removing id })) ∨ w' = w := by
  simp only [step] at h
  split at h
  · rename_i hc
    split at h
    · rename_i ex hloop
      cases h
      exact .inl ⟨hc, .inl ⟨by rw [hloop], by rw [hloop]⟩⟩
    · rename_i id ex hloop
      cases h
      exact .inl ⟨hc, .inr ⟨id, by rw [hloop], by rw [hloop]⟩⟩
  · cases h
    exact .inr rfl

theorem step_checkRemove (h : step w .checkRemove = .ok w') :
    (∃ id, w.checker = .removing id ∧
      ((∃ x, w.executors.lookup id = some x) ∧
          w' = { w with executors := w.executors.erase id,
                        rescMgr := w.rescMgr.unregister id, checker := .idle } ∨
        w.executors.lookup id = none ∧ w' = { w with checker := .idle })) ∨ w' = w := by
  simp only [step, World.removeExecutorImpl] at h
  split at h
  · rename_i id hc
    split at h
    · rename_i w₁ hrem
      split at hrem
      · cases hrem
      · rename_i x hx
        cases hrem
        cases h
        exact .inl ⟨id, hc, .inl ⟨⟨x, hx⟩, rfl⟩⟩
    · rename_i e hrem
      split at hrem
      · rename_i hx
        cases h
        exact .inl ⟨id, hc, .inr ⟨hx, rfl⟩⟩
      · cases hrem
  · cases h
    exact .inr rfl

theorem step_tick {d : Nat} (h : step w (.tick d) = .ok w') : w' = { w with now := w.now + d } := by
  simp only [step] at h
  cases h
  rfl

end Spec

/-! ## The invariant -/

/-- What holds in every run: each executor is stored under its own ID, each has its resources
registered or a registration in flight, and the executor the checker is about to remove is a
`Tombstone`. -/
structure Inv (w : World) : Prop where
  keyed : ∀ id x, w.executors.lookup id = some x → x.nodeInfo.id = id
  registered : ∀ id ∈ w.executors, id ∈ w.rescMgr ∨ ∃ info ∈ w.registering, info.id = id
  removing : ∀ id, w.checker = .removing id →
    ∃ x, w.executors.lookup id = some x ∧ x.status = ExecutorStatus.tombstone

theorem inv_init (initHeartbeatTTL now : Nat) : Inv (init initHeartbeatTTL now) where
  keyed _ _ h := by cases h
  registered _ h := absurd h (AList.notMem_empty _)
  removing _ h := by cases h

section Step

variable {w w' : World}

/-- A registration writes an executor under its ID, the one the checker is about to remove
apart. -/
theorem Inv.registerExec (hs : Inv w) {info : NodeInfo}
    (hfree : ∀ id, w.checker = .removing id → id ≠ info.id) : Inv (w.registerExec info) where
  keyed id x hx := by
    rcases Map.lookup_insert_eq_some hx with ⟨rfl, rfl⟩ | ⟨-, hx⟩
    · rfl
    · exact hs.keyed id x hx
  registered id hid := by
    rcases (AList.mem_insert _).1 hid with rfl | hid
    · exact .inr ⟨info, List.mem_append_right _ (List.mem_singleton_self _), rfl⟩
    · rcases hs.registered id hid with h | ⟨info', hinfo', hid'⟩
      · exact .inl h
      · exact .inr ⟨info', List.mem_append_left _ hinfo', hid'⟩
  removing id hc := by
    obtain ⟨x, hx, ht⟩ := hs.removing id hc
    exact ⟨x, by rw [World.registerExec, AList.lookup_insert_ne (hfree id hc)]; exact hx, ht⟩

/-- An element of a list other than the one at `i` is left by `eraseIdx i`. -/
theorem mem_eraseIdx_of_ne {α : Type} {l : List α} {i : Nat} {x y : α} (hx : x ∈ l)
    (hy : l[i]? = some y) (hne : x ≠ y) : x ∈ l.eraseIdx i := by
  obtain ⟨j, hj⟩ := List.mem_iff_getElem?.1 hx
  refine List.mem_eraseIdx_iff_getElem?.2 ⟨j, fun hji => ?_, hj⟩
  rw [hji, hy] at hj
  exact hne (Option.some.inj hj).symm

theorem Inv.registerResource (hs : Inv w) {i : Nat} {info : NodeInfo}
    (hi : w.registering[i]? = some info) :
    Inv { w with rescMgr := w.rescMgr.register info.id info.addr info.capability,
                 registering := w.registering.eraseIdx i } where
  keyed := hs.keyed
  registered id hid := by
    rcases hs.registered id hid with h | ⟨info', hinfo', rfl⟩
    · exact .inl ((AList.mem_insert _).2 (.inr h))
    · by_cases heq : info'.id = info.id
      · exact .inl ((AList.mem_insert _).2 (.inl heq))
      · exact .inr ⟨info', mem_eraseIdx_of_ne hinfo' hi (fun h => heq (h ▸ rfl)), rfl⟩
  removing := hs.removing

theorem Inv.heartbeat (hs : Inv w) (req : HeartbeatRequest) : Inv (w.handleHeartbeat req).2 := by
  rcases w.handleHeartbeat_cases req with h | ⟨exec, hx, ht, h⟩
  · rw [h]
    exact hs
  · rw [h]
    have hkey : req.executorId ∈ w.executors := Map.mem_of_lookup_eq_some hx
    exact {
      keyed := fun id x hy => by
        rcases Map.lookup_insert_eq_some hy with ⟨rfl, rfl⟩ | ⟨-, hy⟩
        · exact hs.keyed _ exec hx
        · exact hs.keyed id x hy
      registered := fun id hid => by
        rw [Map.mem_insert_of_mem hkey] at hid
        rcases hs.registered id hid with h | h
        · refine .inl ?_
          rcases CapRescMgr.update_cases w.rescMgr exec.nodeInfo.id req.resourceUsage
              req.resourceUsage req.status with hm | ⟨r, hr, hm⟩
          · rw [hm]
            exact h
          · rw [hm, Map.mem_insert_of_mem (Map.mem_of_lookup_eq_some hr)]
            exact h
        · exact .inr h
      removing := fun id hc => by
        obtain ⟨x, hxid, hxt⟩ := hs.removing id hc
        -- the executor the checker is about to remove is a `Tombstone`, which a heartbeat skips
        have hne : id ≠ req.executorId := by
          rintro rfl
          rw [hx] at hxid
          cases hxid
          exact ht hxt
        exact ⟨x, by rw [AList.lookup_insert_ne hne]; exact hxid, hxt⟩ }

theorem Inv.checkScan (hs : Inv w) (order : List ExecutorID) :
    Inv { w with executors := (checkAliveLoop w.now w.executors order).2,
                 checker := match (checkAliveLoop w.now w.executors order).1 with
                   | some id => .removing id
                   | none => w.checker } := by
  rcases checkAliveLoop_cases w.now w.executors order with ⟨hloop, -⟩ | ⟨id, x, -, hx, -, hloop⟩
  · rw [hloop]
    exact hs
  · rw [hloop]
    have hkey : id ∈ w.executors := Map.mem_of_lookup_eq_some hx
    exact {
      keyed := fun j y hy => by
        rcases Map.lookup_insert_eq_some hy with ⟨rfl, rfl⟩ | ⟨-, hy⟩
        · exact hs.keyed _ x hx
        · exact hs.keyed j y hy
      registered := fun j hj => hs.registered j ((Map.mem_insert_of_mem hkey).1 hj)
      removing := fun j hj => by
        cases hj
        exact ⟨_, AList.lookup_insert _, rfl⟩ }

theorem Inv.remove (hs : Inv w) (id : ExecutorID) :
    Inv { w with executors := w.executors.erase id, rescMgr := w.rescMgr.unregister id,
                 checker := .idle } where
  keyed j x hx := hs.keyed j x (Map.lookup_erase_eq_some hx).2
  registered j hj := by
    obtain ⟨hne, hj⟩ := AList.mem_erase.1 hj
    rcases hs.registered j hj with h | h
    · exact .inl (AList.mem_erase.2 ⟨hne, h⟩)
    · exact .inr h
  removing _ h := by cases h

theorem Inv.of_step (hs : Inv w) {a : Action} (h : step w a = .ok w') : Inv w' := by
  cases a with
  | resetExec info =>
      rcases step_resetExec h with ⟨hc, rfl⟩ | rfl
      · exact hs.registerExec fun id hr => by rw [hc] at hr; cases hr
      · exact hs
  | allocateNewExec id req =>
      rcases step_allocateNewExec h with ⟨hx, rfl⟩ | rfl
      · refine hs.registerExec fun j hr hj => ?_
        obtain ⟨x, hxj, -⟩ := hs.removing j hr
        rw [hj, hx] at hxj
        cases hxj
      · exact hs
  | registerResource i =>
      rcases step_registerResource h with ⟨info, hi, rfl⟩ | rfl
      · exact hs.registerResource hi
      · exact hs
  | heartbeat req =>
      rw [step_heartbeat h]
      exact hs.heartbeat req
  | start =>
      rcases step_start h with ⟨-, rfl⟩ | rfl
      · exact { hs with removing := fun _ h => by cases h }
      · exact hs
  | checkScan order =>
      rcases step_checkScan h with ⟨-, ⟨hnone, rfl⟩ | ⟨id, hsome, rfl⟩⟩ | rfl
      · have := hs.checkScan order
        rw [hnone] at this
        exact this
      · have := hs.checkScan order
        rw [hsome] at this
        exact this
      · exact hs
  | checkRemove =>
      rcases step_checkRemove h with ⟨id, -, ⟨-, rfl⟩ | ⟨-, rfl⟩⟩ | rfl
      · exact hs.remove id
      · exact { hs with removing := fun _ h => by cases h }
      · exact hs
  | tick d =>
      rw [step_tick h]
      exact { hs with }

end Step

theorem inv_of_reachable {allowed' : World → Action → Bool} {init' w : World} (h0 : Inv init')
    (h : Transition.Reachable step allowed' init' w) : Inv w :=
  Transition.Reachable.inv h0 (fun _ _ _ hs _ hstep => hs.of_step hstep) h

/-- `HasExecutor`. -/
def World.hasExecutor (w : World) (executorID : ExecutorID) : Bool :=
  (w.executors.lookup executorID).isSome

/-- `GetAddr`. -/
def World.getAddr (w : World) (executorID : ExecutorID) : Option String :=
  (w.executors.lookup executorID).map (·.nodeInfo.addr)

/-! ## Every executor is schedulable or being registered -/

section Guarantees

variable {ttl now : Nat} {w w' : World}

/-- Every executor the manager has is in the capacities the scheduler reads, or its
`RegisterExec` is between its unlock and `rescMgr.Register`. -/
theorem executor_has_capacity_or_registering (h : Reachable ttl now w) {id : ExecutorID}
    (hid : w.hasExecutor id = true) :
    ((CapRescMgr.capacitiesForAllExecutors w.rescMgr).lookup id).isSome ∨
      ∃ info ∈ w.registering, info.id = id := by
  have hmem : id ∈ w.executors := AList.lookup_isSome.1 hid
  rcases (inv_of_reachable (inv_init ttl now) h).registered id hmem with hr | hr
  · refine .inl ?_
    rw [CapRescMgr.lookup_capacitiesForAllExecutors, CapRescMgr.capacityForExecutor,
      Option.isSome_map]
    exact AList.lookup_isSome.2 hr
  · exact .inr hr

end Guarantees

/-! ## The checker removes dead executors only -/

theorem ExecutorStatus.initing_ne_tombstone : ExecutorStatus.initing ≠ ExecutorStatus.tombstone := by
  decide

theorem ExecutorStatus.running_ne_tombstone : ExecutorStatus.running ≠ ExecutorStatus.tombstone := by
  decide

/-- Under the executors' own heartbeats a `Tombstone` is an executor past its TTL. -/
def Expired (w : World) : Prop :=
  ∀ id x, w.executors.lookup id = some x → x.status = ExecutorStatus.tombstone →
    x.lastUpdateTime + x.heartbeatTTL < w.now

section Expired

variable {w w' : World}

theorem expired_init (initHeartbeatTTL now : Nat) : Expired (init initHeartbeatTTL now) :=
  fun _ _ h => by cases h

theorem Expired.registerExec (he : Expired w) (info : NodeInfo) : Expired (w.registerExec info) := by
  intro id x hx ht
  rcases Map.lookup_insert_eq_some hx with ⟨-, rfl⟩ | ⟨-, hx⟩
  · exact absurd ht ExecutorStatus.initing_ne_tombstone
  · exact he id x hx ht

/-- A step keeps `Expired` when its heartbeat reports `Running`. -/
theorem Expired.of_step (he : Expired w) {a : Action} (ha : allowedRunning w a = true)
    (h : step w a = .ok w') : Expired w' := by
  cases a with
  | resetExec info =>
      rcases step_resetExec h with ⟨-, rfl⟩ | rfl
      · exact he.registerExec info
      · exact he
  | allocateNewExec id req =>
      rcases step_allocateNewExec h with ⟨-, rfl⟩ | rfl
      · exact he.registerExec _
      · exact he
  | registerResource i =>
      rcases step_registerResource h with ⟨info, -, rfl⟩ | rfl
      · exact he
      · exact he
  | heartbeat req =>
      rw [step_heartbeat h]
      have hrun : req.status = ExecutorStatus.running := of_decide_eq_true ha
      rcases w.handleHeartbeat_cases req with hw | ⟨exec, -, -, hw⟩
      · rw [hw]
        exact he
      · rw [hw]
        intro id x hx ht
        rcases Map.lookup_insert_eq_some hx with ⟨-, rfl⟩ | ⟨-, hx⟩
        · -- the heartbeat stores `Running`
          rw [hrun] at ht
          exact absurd ht ExecutorStatus.running_ne_tombstone
        · exact he id x hx ht
  | start =>
      rcases step_start h with ⟨-, rfl⟩ | rfl
      · exact he
      · exact he
  | checkScan order =>
      rcases step_checkScan h with ⟨-, ⟨hnone, rfl⟩ | ⟨id, hsome, rfl⟩⟩ | rfl
      · rcases checkAliveLoop_cases w.now w.executors order with ⟨hloop, -⟩ | ⟨j, x, -, -, -, hloop⟩
        · rw [hloop]
          exact he
        · rw [hloop] at hnone
          cases hnone
      · rcases checkAliveLoop_cases w.now w.executors order with ⟨hloop, -⟩ | ⟨j, x, -, hx, hdead, hloop⟩
        · rw [hloop] at hsome
          cases hsome
        · rw [hloop]
          intro k y hy ht
          rcases Map.lookup_insert_eq_some hy with ⟨rfl, rfl⟩ | ⟨-, hy⟩
          · -- the executor `checkAlive` marks was a `Tombstone` already or past its TTL
            rcases Executor.checkAlive_fst_eq_false.1 hdead with hxt | hlate
            · exact he k x hx hxt
            · exact hlate
          · exact he k y hy ht
      · exact he
  | checkRemove =>
      rcases step_checkRemove h with ⟨id, -, ⟨-, rfl⟩ | ⟨-, rfl⟩⟩ | rfl
      · exact fun k x hx ht => he k x (Map.lookup_erase_eq_some hx).2 ht
      · exact he
      · exact he
  | tick d =>
      rw [step_tick h]
      exact fun k x hx ht => Nat.lt_of_lt_of_le (he k x hx ht) (Nat.le_add_right _ _)

theorem expired_of_reachableRunning {ttl now : Nat} (h : ReachableRunning ttl now w) :
    Expired w :=
  Transition.Reachable.inv (expired_init ttl now) (fun _ _ _ he ha hstep => he.of_step ha hstep) h

/-- Only the checker's `removeExecutorImpl` takes an executor out of the manager. -/
theorem step_removes_only_checked {a : Action} (h : step w a = .ok w') {id : ExecutorID}
    (hin : id ∈ w.executors) (hout : id ∉ w'.executors) : w.checker = .removing id := by
  cases a with
  | resetExec info =>
      rcases step_resetExec h with ⟨-, rfl⟩ | rfl
      · exact absurd ((AList.mem_insert _).2 (.inr hin)) hout
      · exact absurd hin hout
  | allocateNewExec id' req =>
      rcases step_allocateNewExec h with ⟨-, rfl⟩ | rfl
      · exact absurd ((AList.mem_insert _).2 (.inr hin)) hout
      · exact absurd hin hout
  | registerResource i =>
      rcases step_registerResource h with ⟨info, -, rfl⟩ | rfl
      · exact absurd hin hout
      · exact absurd hin hout
  | heartbeat req =>
      rw [step_heartbeat h] at hout
      rcases w.handleHeartbeat_cases req with hw | ⟨exec, hx, -, hw⟩
      · rw [hw] at hout
        exact absurd hin hout
      · -- the heartbeat writes a key that is there
        rw [hw] at hout
        exact absurd ((Map.mem_insert_of_mem (Map.mem_of_lookup_eq_some hx)).2 hin) hout
  | start =>
      rcases step_start h with ⟨-, rfl⟩ | rfl
      · exact absurd hin hout
      · exact absurd hin hout
  | checkScan order =>
      rcases step_checkScan h with ⟨-, ⟨-, rfl⟩ | ⟨k, -, rfl⟩⟩ | rfl
      · exact absurd ((mem_checkAliveLoop _ _ order id).2 hin) hout
      · exact absurd ((mem_checkAliveLoop _ _ order id).2 hin) hout
      · exact absurd hin hout
  | checkRemove =>
      rcases step_checkRemove h with ⟨k, hc, ⟨-, rfl⟩ | ⟨-, rfl⟩⟩ | rfl
      · -- the one key it deletes is the one the checker found
        by_cases hk : id = k
        · rw [hk]
          exact hc
        · exact absurd (AList.mem_erase.2 ⟨hk, hin⟩) hout
      · exact absurd hin hout
      · exact absurd hin hout
  | tick d =>
      rw [step_tick h] at hout
      exact absurd hin hout

end Expired

/-! ## Rounds of the checker -/

/-- A round of the checker: one call of `checkAliveImpl`, the map's range visiting `order`. -/
def checkRound (order : List ExecutorID) : List Action :=
  [.checkScan order, .checkRemove]

/-- Rounds of the checker, one for each order. -/
def checkRounds (orders : List (List ExecutorID)) : List Action :=
  orders.flatMap checkRound

/-- What rounds of the checker keep from `w` to `w'`: the clock and the checker; the executors
left are executors of `w`, and all those `checkAlive` finds alive are left; no resources are
registered, and those of every executor taken out are unregistered. -/
structure CheckerKept (w w' : World) : Prop where
  checker : w'.checker = w.checker
  now : w'.now = w.now
  sub : ∀ id x, w'.executors.lookup id = some x → w.executors.lookup id = some x
  live : ∀ id x, w.executors.lookup id = some x → (x.checkAlive w.now).1 = true →
    w'.executors.lookup id = some x
  resc : ∀ id, id ∈ w'.rescMgr → id ∈ w.rescMgr
  unregistered : ∀ id, id ∈ w.executors → id ∉ w'.executors → id ∉ w'.rescMgr

section Rounds

variable {w w' w'' : World}

theorem CheckerKept.refl (w : World) : CheckerKept w w where
  checker := rfl
  now := rfl
  sub _ _ h := h
  live _ _ h _ := h
  resc _ h := h
  unregistered _ hin hout := absurd hin hout

theorem CheckerKept.trans (h : CheckerKept w w') (h' : CheckerKept w' w'') : CheckerKept w w'' where
  checker := h'.checker.trans h.checker
  now := h'.now.trans h.now
  sub id x hx := h.sub id x (h'.sub id x hx)
  live id x hx ha := h'.live id x (h.live id x hx ha) (by rw [h.now]; exact ha)
  resc id hid := h.resc id (h'.resc id hid)
  unregistered id hin hout := by
    by_cases hmid : id ∈ w'.executors
    · exact h'.unregistered id hmid hout
    · exact fun hres => h.unregistered id hin hmid (h'.resc id hres)

/-- Taking one dead executor out of both maps. -/
theorem CheckerKept.remove {id : ExecutorID} {x : Executor} (hx : w.executors.lookup id = some x)
    (hdead : (x.checkAlive w.now).1 = false) (hc : w.checker = .idle) :
    CheckerKept w { w with executors := w.executors.erase id,
                           rescMgr := w.rescMgr.unregister id, checker := .idle } where
  checker := hc.symm
  now := rfl
  sub _ _ hy := (Map.lookup_erase_eq_some hy).2
  live j y hy ha := by
    have hne : j ≠ id := by
      rintro rfl
      rw [hx] at hy
      cases hy
      rw [hdead] at ha
      cases ha
    rw [AList.lookup_erase_ne hne]
    exact hy
  resc _ hj := (AList.mem_erase.1 hj).2
  unregistered j hin hout := by
    have hj : j = id := by
      by_contra hne
      exact hout (AList.mem_erase.2 ⟨hne, hin⟩)
    rw [hj]
    exact AList.mem_erase.not.2 fun h => h.1 rfl

/-- A round finds every executor of its order alive and changes nothing, or it takes one that
`checkAlive` finds dead out of both maps. -/
theorem run_checkRound (hc : w.checker = .idle) (order : List ExecutorID) :
    ((∀ id ∈ order, ∀ x, w.executors.lookup id = some x → (x.checkAlive w.now).1 = true) ∧
      Transition.run step w (checkRound order) = .ok w) ∨
    ∃ id x, w.executors.lookup id = some x ∧ (x.checkAlive w.now).1 = false ∧
      Transition.run step w (checkRound order) =
        .ok { w with executors := w.executors.erase id, rescMgr := w.rescMgr.unregister id,
                     checker := .idle } := by
  rcases checkAliveLoop_cases w.now w.executors order with
    ⟨hloop, hall⟩ | ⟨id, x, -, hx, hdead, hloop⟩
  · have h1 : step w (.checkScan order) = .ok w := by
      simp only [step, hc, hloop]
      rw [← hc]
    have h2 : step w .checkRemove = .ok w := by
      simp only [step, hc]
    refine .inl ⟨hall, ?_⟩
    rw [checkRound, Transition.run_cons_ok _ h1, Transition.run_cons_ok _ h2, Transition.run_nil]
  · -- the loop marks the executor, and `removeExecutorImpl` finds it
    have h1 : step w (.checkScan order) =
        .ok { w with executors := w.executors.insert id { x with status := ExecutorStatus.tombstone },
                     checker := .removing id } := by
      simp only [step, hc, hloop]
    have h2 : step { w with executors := w.executors.insert id
                              { x with status := ExecutorStatus.tombstone },
                            checker := .removing id } .checkRemove =
        .ok { w with executors := w.executors.erase id, rescMgr := w.rescMgr.unregister id,
                     checker := .idle } := by
      simp only [step, World.removeExecutorImpl, AList.lookup_insert, Map.erase_insert_self]
    refine .inr ⟨id, x, hx, hdead, ?_⟩
    rw [checkRound, Transition.run_cons_ok _ h1, Transition.run_cons_ok _ h2, Transition.run_nil]

/-- The order of a round enumerates the map. -/
theorem allowed_checkScan {order : List ExecutorID}
    (hal : Transition.allowedAlong step allowed w (checkRound order ++ rest) = true) :
    order.Perm w.executors.keys := by
  simp only [checkRound, List.cons_append, Transition.allowedAlong, Bool.and_eq_true] at hal
  exact of_decide_eq_true hal.1

theorem run_checkRounds_kept : ∀ {orders : List (List ExecutorID)} {w w' : World},
    w.checker = .idle → Transition.run step w (checkRounds orders) = .ok w' → CheckerKept w w'
  | [], w, w', _, hrun => by
      simp only [checkRounds, List.flatMap_nil, Transition.run_nil, Except.ok.injEq] at hrun
      exact hrun ▸ CheckerKept.refl w
  | order :: orders, w, w', hc, hrun => by
      rw [checkRounds, List.flatMap_cons] at hrun
      rcases run_checkRound hc order with ⟨-, h1⟩ | ⟨id, x, hx, hdead, h1⟩
      · rw [Transition.run_append_of_ok h1] at hrun
        exact run_checkRounds_kept hc hrun
      · rw [Transition.run_append_of_ok h1] at hrun
        exact (CheckerKept.remove hx hdead hc).trans (run_checkRounds_kept rfl hrun)

/-- With as many rounds as there are executors, for any orders of the map's range, every
executor left is one `checkAlive` finds alive. -/
theorem run_checkRounds_alive : ∀ {orders : List (List ExecutorID)} {w w' : World},
    w.checker = .idle → w.executors.keys.length ≤ orders.length →
    Transition.allowedAlong step allowed w (checkRounds orders) = true →
    Transition.run step w (checkRounds orders) = .ok w' →
    ∀ id x, w'.executors.lookup id = some x → (x.checkAlive w.now).1 = true
  | [], w, w', _, hlen, _, hrun, id, x, hx => by
      simp only [checkRounds, List.flatMap_nil, Transition.run_nil, Except.ok.injEq] at hrun
      subst hrun
      -- no executor is left: the map is empty
      have hkeys : w.executors.keys = [] := List.eq_nil_of_length_eq_zero (Nat.le_zero.1 hlen)
      have hmem : id ∈ w.executors := Map.mem_of_lookup_eq_some hx
      rw [AList.mem_keys, hkeys] at hmem
      cases hmem
  | order :: orders, w, w', hc, hlen, hal, hrun, id, x, hx => by
      rw [checkRounds, List.flatMap_cons] at hal hrun
      have hperm := allowed_checkScan hal
      rcases run_checkRound hc order with ⟨hall, h1⟩ | ⟨j, y, hy, hdead, h1⟩
      · -- every executor is alive, and the rounds only take executors out
        rw [Transition.run_append_of_ok h1] at hrun
        have hw := (run_checkRounds_kept hc hrun).sub id x hx
        exact hall id (hperm.mem_iff.2 (AList.mem_keys.1 (Map.mem_of_lookup_eq_some hw))) x hw
      · -- one dead executor is gone, and the rest of the rounds suffice for the others
        have hal' := Transition.allowedAlong_append_of_ok h1 _ hal
        rw [Transition.run_append_of_ok h1] at hrun
        have hlen' : (w.executors.erase j).keys.length ≤ orders.length := by
          rw [AList.keys_erase,
            List.length_erase_of_mem (AList.mem_keys.1 (Map.mem_of_lookup_eq_some hy))]
          simp only [List.length_cons] at hlen
          omega
        exact run_checkRounds_alive rfl hlen' hal' hrun id x hx

end Rounds

/-- After as many rounds of the checker as there are executors, whatever orders the map's range
takes, the executors left are exactly those that `checkAlive` found alive, and every executor
taken out has its resources unregistered. -/
theorem checker_rounds_leave_no_dead_executor {w w' : World} (hc : w.checker = .idle)
    {orders : List (List ExecutorID)} (hlen : w.executors.keys.length ≤ orders.length)
    (hal : Transition.allowedAlong step allowed w (checkRounds orders) = true)
    (hrun : Transition.run step w (checkRounds orders) = .ok w') :
    (∀ id x, w'.executors.lookup id = some x ↔
      w.executors.lookup id = some x ∧ (x.checkAlive w.now).1 = true) ∧
    ∀ id, id ∈ w.executors → id ∉ w'.executors → id ∉ w'.rescMgr := by
  have hkept := run_checkRounds_kept hc hrun
  refine ⟨fun id x => ⟨fun hx => ⟨hkept.sub id x hx, ?_⟩, fun ⟨hx, ha⟩ => hkept.live id x hx ha⟩,
    hkept.unregistered⟩
  exact run_checkRounds_alive hc hlen hal hrun id x hx

/-! ## A resource entry that outlives its executor -/

/-- Whether a step stores an executor under `id`. -/
def Action.registers (id : ExecutorID) : Action → Bool
  | .resetExec info => info.id == id
  | .allocateNewExec id' _ => id' == id
  | _ => false

/-- The resources `r` are registered under `id`, and neither an executor `id` nor a
registration of one is left. -/
structure Orphan (w : World) (id : ExecutorID) (r : ExecutorResource) : Prop where
  resource : w.rescMgr.lookup id = some r
  gone : id ∉ w.executors
  unregistering : ∀ info ∈ w.registering, info.id ≠ id

section Orphan

variable {w w' : World} {id : ExecutorID} {r : ExecutorResource}

/-- A step that leaves the entry of `id`, stores no executor `id` and adds no registration of
one keeps an orphan. -/
theorem Orphan.frame (ho : Orphan w id r) (hresc : w'.rescMgr.lookup id = w.rescMgr.lookup id)
    (hex : id ∈ w'.executors → id ∈ w.executors)
    (hreg : ∀ info ∈ w'.registering, info ∈ w.registering ∨ info.id ≠ id) : Orphan w' id r where
  resource := hresc.trans ho.resource
  gone hid := ho.gone (hex hid)
  unregistering info hinfo := by
    rcases hreg info hinfo with hinfo | hne
    · exact ho.unregistering info hinfo
    · exact hne

theorem Orphan.registerExec (ho : Orphan w id r) {info : NodeInfo} (hne : info.id ≠ id) :
    Orphan (w.registerExec info) id r := by
  refine ho.frame rfl (fun hid => ?_) (fun info' hinfo' => ?_)
  · rcases (AList.mem_insert _).1 hid with heq | hid
    · exact absurd heq.symm hne
    · exact hid
  · rcases List.mem_append.1 hinfo' with hinfo' | hinfo'
    · exact .inl hinfo'
    · rw [List.mem_singleton.1 hinfo']
      exact .inr hne

theorem Orphan.registerResource (ho : Orphan w id r) {i : Nat} {info : NodeInfo}
    (hi : w.registering[i]? = some info) :
    Orphan { w with rescMgr := w.rescMgr.register info.id info.addr info.capability,
                    registering := w.registering.eraseIdx i } id r := by
  -- the registration in flight is of another executor
  have hne : id ≠ info.id := (ho.unregistering info (List.mem_of_getElem? hi)).symm
  exact ho.frame (AList.lookup_insert_ne hne) (fun hid => hid)
    (fun info' hinfo' => .inl ((List.eraseIdx_sublist _ i).subset hinfo'))

theorem Orphan.heartbeat (hs : Inv w) (ho : Orphan w id r) (req : HeartbeatRequest) :
    Orphan (w.handleHeartbeat req).2 id r := by
  rcases w.handleHeartbeat_cases req with h | ⟨exec, hx, -, h⟩
  · rw [h]
    exact ho
  · rw [h]
    -- the heartbeat is of a stored executor, whose resources are registered under its own key
    have hkey : req.executorId ∈ w.executors := Map.mem_of_lookup_eq_some hx
    have hne : id ≠ exec.nodeInfo.id := by
      rw [hs.keyed _ exec hx]
      rintro rfl
      exact ho.gone hkey
    refine ho.frame ?_ (Map.mem_insert_of_mem hkey).1 (fun info hinfo => .inl hinfo)
    rcases CapRescMgr.update_cases w.rescMgr exec.nodeInfo.id req.resourceUsage
        req.resourceUsage req.status with hm | ⟨_, -, hm⟩
    · rw [hm]
    · rw [hm, AList.lookup_insert_ne hne]

theorem Orphan.checkScan (ho : Orphan w id r) (order : List ExecutorID) (c : CheckerPc) :
    Orphan { w with executors := (checkAliveLoop w.now w.executors order).2, checker := c } id r :=
  ho.frame rfl (mem_checkAliveLoop _ _ order id).1 (fun _ hinfo => .inl hinfo)

theorem Orphan.remove (ho : Orphan w id r) {j : ExecutorID} (hj : j ∈ w.executors) :
    Orphan { w with executors := w.executors.erase j, rescMgr := w.rescMgr.unregister j,
                    checker := .idle } id r := by
  -- the executor the checker removes is stored, so it is not `id`
  have hne : id ≠ j := fun h => ho.gone (h ▸ hj)
  exact ho.frame (AList.lookup_erase_ne hne) (fun hid => (AList.mem_erase.1 hid).2)
    (fun info hinfo => .inl hinfo)

theorem Orphan.of_step (hs : Inv w) (ho : Orphan w id r) {a : Action}
    (ha : a.registers id = false) (h : step w a = .ok w') : Orphan w' id r := by
  cases a with
  | resetExec info =>
      rcases step_resetExec h with ⟨-, rfl⟩ | rfl
      · exact ho.registerExec (by simpa [Action.registers] using ha)
      · exact ho
  | allocateNewExec j req =>
      rcases step_allocateNewExec h with ⟨-, rfl⟩ | rfl
      · exact ho.registerExec (by simpa [Action.registers] using ha)
      · exact ho
  | registerResource i =>
      rcases step_registerResource h with ⟨info, hi, rfl⟩ | rfl
      · exact ho.registerResource hi
      · exact ho
  | heartbeat req =>
      rw [step_heartbeat h]
      exact ho.heartbeat hs req
  | start =>
      rcases step_start h with ⟨-, rfl⟩ | rfl
      · exact { ho with }
      · exact ho
  | checkScan order =>
      rcases step_checkScan h with ⟨-, ⟨-, rfl⟩ | ⟨j, -, rfl⟩⟩ | rfl
      · exact ho.checkScan order w.checker
      · exact ho.checkScan order (.removing j)
      · exact ho
  | checkRemove =>
      rcases step_checkRemove h with ⟨j, -, ⟨⟨x, hx⟩, rfl⟩ | ⟨-, rfl⟩⟩ | rfl
      · exact ho.remove (Map.mem_of_lookup_eq_some hx)
      · exact { ho with }
      · exact ho
  | tick d =>
      rw [step_tick h]
      exact { ho with }

end Orphan

/-- Once the executor `id` is gone while its resources `r` stay registered, which the checker
causes when it removes an executor whose `rescMgr.Register` is still to come, the entry stays:
in every later state in which no executor `id` has been stored again, the capacities the
scheduler reads still offer `r` under `id`, and `GetAddr` finds no executor there. -/
theorem capacity_outlives_removed_executor {ttl now : Nat} {w w' : World}
    (h : Reachable ttl now w) {id : ExecutorID} {r : ExecutorResource} (ho : Orphan w id r)
    {as : List Action} (hfresh : ∀ a ∈ as, a.registers id = false)
    (hrun : Transition.run step w as = .ok w') :
    (CapRescMgr.capacitiesForAllExecutors w'.rescMgr).lookup id = some r.resourceStatus ∧
      w'.getAddr id = none ∧ Orphan w' id r := by
  have ho' : Orphan w' id r :=
    Transition.run_preserves (I := Inv) (P := fun w => Orphan w id r)
      (fun s a t (hs : Inv s) (hstep : step s a = .ok t) => hs.of_step hstep)
      (fun _ _ _ hs ho ha hstep => ho.of_step hs ha hstep)
      (inv_of_reachable (inv_init ttl now) h) ho hfresh hrun
  refine ⟨?_, ?_, ho'⟩
  · rw [CapRescMgr.lookup_capacitiesForAllExecutors, CapRescMgr.capacityForExecutor,
      ho'.resource]
    rfl
  · rw [World.getAddr, AList.lookup_eq_none.2 ho'.gone]
    rfl

/-! ## Two executors, one past its TTL -/

def e1Info : NodeInfo := ⟨"e1", "addr1", 10⟩

def e2Info : NodeInfo := ⟨"e2", "addr2", 20⟩

def e2Exec : Executor := ⟨e2Info, ExecutorStatus.initing, 5, 10⟩

/-- `e1` marked by the checker. -/
def e1Dead : Executor := ⟨e1Info, ExecutorStatus.tombstone, 0, 10⟩

/-- `e1` stored at time 0, its `rescMgr.Register` still to come; `e2` stored at time 5 with its
resources registered; time 11, past the TTL of `e1` only. -/
def twoExecutors : World where
  executors := (∅ : Executors)
    |>.insert "e1" ⟨e1Info, ExecutorStatus.initing, 0, 10⟩
    |>.insert "e2" e2Exec
  rescMgr := (∅ : CapRescMgr).register "e2" "addr2" 20
  initHeartbeatTTL := 10
  registering := [e1Info]
  checker := .idle
  now := 11

def twoTrace : List Action :=
  [.allocateNewExec "e1" ⟨"addr1", 10⟩, .start, .tick 5, .allocateNewExec "e2" ⟨"addr2", 20⟩,
    .registerResource 1, .tick 6]

theorem reachable_twoExecutors : Reachable 10 0 twoExecutors :=
  Transition.reachable_run .init (by decide)
    (show Transition.run step (init 10 0) twoTrace = .ok twoExecutors from rfl)

theorem twoExecutors_has_capacity_or_registering :
    ((CapRescMgr.capacitiesForAllExecutors twoExecutors.rescMgr).lookup "e1").isSome ∨
      ∃ info ∈ twoExecutors.registering, info.id = "e1" :=
  executor_has_capacity_or_registering reachable_twoExecutors
    (by decide : twoExecutors.hasExecutor "e1" = true)

/-- The loop of the checker has found `e1` dead. -/
def scanned : World :=
  { twoExecutors with executors := twoExecutors.executors.insert "e1" e1Dead,
                      checker := .removing "e1" }

/-- `e1` removed. -/
def afterRounds : World :=
  { twoExecutors with executors := (∅ : Executors).insert "e2" e2Exec }

theorem reachableRunning_scanned : ReachableRunning 10 0 scanned :=
  Transition.reachable_run .init (by decide)
    (show Transition.run step (init 10 0) (twoTrace ++ [.checkScan ["e2", "e1"]]) = .ok scanned
      from rfl)

/-- Two rounds, the second over the one executor left. -/
def twoOrders : List (List ExecutorID) := [["e2", "e1"], ["e2"]]

theorem twoExecutors_rounds_leave_e2 :
    (∀ id x, afterRounds.executors.lookup id = some x ↔
      twoExecutors.executors.lookup id = some x ∧ (x.checkAlive twoExecutors.now).1 = true) ∧
    ∀ id, id ∈ twoExecutors.executors → id ∉ afterRounds.executors → id ∉ afterRounds.rescMgr :=
  checker_rounds_leave_no_dead_executor (by decide) (by decide)
    (by decide : Transition.allowedAlong step allowed twoExecutors (checkRounds twoOrders) = true)
    (show Transition.run step twoExecutors (checkRounds twoOrders) = .ok afterRounds from rfl)

/-- The resources of `e1`, as its late `rescMgr.Register` writes them. -/
def e1Resource : ExecutorResource := ⟨"e1", 10, 0, 0, ExecutorStatus.initing, "addr1"⟩

/-- After the rounds, the `rescMgr.Register` of `e1` comes. -/
def orphaned : World :=
  { afterRounds with rescMgr := afterRounds.rescMgr.register "e1" "addr1" 10, registering := [] }

theorem reachable_orphaned : Reachable 10 0 orphaned :=
  Transition.reachable_run .init (by decide)
    (show Transition.run step (init 10 0)
      (twoTrace ++ checkRounds twoOrders ++ [.registerResource 0]) = .ok orphaned from rfl)

theorem orphan_orphaned : Orphan orphaned "e1" e1Resource :=
  ⟨by decide, by decide, by decide⟩

/-- A heartbeat of `e1`, and a round of the checker after the TTL of `e2`. -/
def drainTrace : List Action :=
  [.heartbeat ⟨"e1", 3, ExecutorStatus.running, 10⟩, .tick 100, .checkScan ["e2"], .checkRemove]

/-- `e2` removed too; the entry of `e1` left. -/
def drained : World :=
  { orphaned with executors := ∅, rescMgr := (∅ : CapRescMgr).register "e1" "addr1" 10,
                  now := 111 }

theorem orphaned_entry_outlives_checker :
    (CapRescMgr.capacitiesForAllExecutors drained.rescMgr).lookup "e1" =
        some e1Resource.resourceStatus ∧
      drained.getAddr "e1" = none ∧ Orphan drained "e1" e1Resource :=
  capacity_outlives_removed_executor reachable_orphaned orphan_orphaned (by decide)
    (show Transition.run step orphaned drainTrace = .ok drained from rfl)

end Servermaster

end Microcosm
