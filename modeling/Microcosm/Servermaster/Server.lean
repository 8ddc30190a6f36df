import Microcosm.Servermaster.ExecutorManager
import Microcosm.Pkg.Externalresource.Manager.Service

/-!
# The server master's ScheduleTask

`Server.ScheduleTask` of `servermaster/server.go`: a job master asks where to run a task that
costs `cost` and needs some external resources. The scheduler that `makeScheduler` builds reads
the capacities of the executor manager and asks the resource manager's
`GetPlacementConstraint` for the executor each resource is bound to; its error is turned into
a gRPC status by `SchedulerErrorToGRPCError`, and the executor it picks is looked up for its
address, which fails when the executor has gone since.

The task goes only to a live executor that admits its cost and that created every local file
the task needs (`scheduleTask_places_on_creator`); and a task whose resources are all local
files of one live executor with room goes to that executor, whatever the order in which the
scheduler visits the others (`scheduleTask_on_creator_of_fits`). Both need that no executor
has the empty ID, which the scheduler reads as "no constraint".
-/

namespace Microcosm

namespace Servermaster

open Externalresource

/-- `pb.ScheduleTaskRequest`. -/
structure ScheduleTaskRequest where
  cost : Int
  resourceRequirements : List ResourceID
  deriving DecidableEq, Repr

/-- `pb.ScheduleTaskResponse`. -/
structure ScheduleTaskResponse where
  executorId : ExecutorID
  executorAddr : String
  deriving DecidableEq, Repr

/-- How `ScheduleTask` fails. -/
inductive ScheduleTaskError
  /-- `status.Error(code, err.Error())` for an error of the scheduler. -/
  | status (code : StatusCode) (err : ScheduleError)
  /-- An error of the scheduler that is returned as it is. -/
  | scheduler (err : ScheduleError)
  /-- `status.Error(codes.Internal, ...)` with `ErrUnknownExecutorID`. -/
  | unknownExecutorID (executorID : ExecutorID)
  deriving DecidableEq, Repr

/-- `SchedulerErrorToGRPCError`. -/
def schedulerErrorToGRPCError : ScheduleError → ScheduleTaskError
  | err@(.resourceConflict ..) => .status .failedPrecondition err
  | err@(.resourceNotFound ..) => .status .notFound err
  | .clusterResourceNotEnough => .status .resourceExhausted .clusterResourceNotEnough
  | err => .scheduler err

/-- The parts of `Server` that `ScheduleTask` reads: the executor manager and the metastore of
the resource manager. -/
structure Server where
  executorManager : World
  resources : ResourceTable

namespace Server

/-- `executorManager.CapacityProvider()`, as the scheduler reads it. -/
def capacityProvider (s : Server) : Capacities :=
  CapRescMgr.capacitiesForAllExecutors s.executorManager.rescMgr

/-- The resource manager as the scheduler's placement constrainer, with the executor manager
answering its `HasExecutor`. -/
def placementConstrainer (s : Server) : Placement :=
  Service.getPlacementConstraint metaOpsClient s.resources s.executorManager.hasExecutor

/-- `ScheduleTask`, with `order` the order in which the scheduler visits the executors. -/
def scheduleTask (s : Server) (order : List ExecutorID) (req : ScheduleTaskRequest) :
    Except ScheduleTaskError ScheduleTaskResponse :=
  let schedulerReq : SchedulerRequest :=
    { cost := req.cost, externalResources := req.resourceRequirements }
  match Servermaster.scheduleTask s.capacityProvider order s.placementConstrainer schedulerReq with
  | .error err => .error (schedulerErrorToGRPCError err)
  | .ok executorID =>
      match s.executorManager.getAddr executorID with
      | none => .error (.unknownExecutorID executorID)
      | some addr => .ok { executorId := executorID, executorAddr := addr }

variable {s : Server} {order : List ExecutorID} {req : ScheduleTaskRequest}

theorem scheduleTask_eq_ok {resp : ScheduleTaskResponse} (h : s.scheduleTask order req = .ok resp) :
    Servermaster.scheduleTask s.capacityProvider order s.placementConstrainer
        ⟨req.cost, req.resourceRequirements⟩ = .ok resp.executorId ∧
      s.executorManager.getAddr resp.executorId = some resp.executorAddr := by
  dsimp only [scheduleTask] at h
  split at h
  · cases h
  · rename_i e he
    split at h
    · cases h
    · rename_i addr haddr
      cases h
      exact ⟨he, haddr⟩

theorem lookup_capacityProvider (e : ExecutorID) :
    s.capacityProvider.lookup e = CapRescMgr.capacityForExecutor s.executorManager.rescMgr e :=
  CapRescMgr.lookup_capacitiesForAllExecutors _ e

theorem namesExecutors_placementConstrainer (hne : s.executorManager.hasExecutor "" = false) :
    NamesExecutors s.placementConstrainer :=
  Service.namesExecutors_getPlacementConstraint metaOpsClient hne

end Server

open Server

variable {s : Server} {order : List ExecutorID} {req : ScheduleTaskRequest}

/-- `ScheduleTask` places a task only on a live executor, at its address, whose capacity
admits the cost, and which created every local file the task needs, by a row of the
resource table that is not marked deleted. -/
theorem scheduleTask_places_on_creator (hne : s.executorManager.hasExecutor "" = false)
    {resp : ScheduleTaskResponse} (h : s.scheduleTask order req = .ok resp) :
    s.executorManager.getAddr resp.executorId = some resp.executorAddr ∧
      (∃ st, CapRescMgr.capacityForExecutor s.executorManager.rescMgr resp.executorId = some st ∧
        req.cost ≤ st.remaining) ∧
      ∀ r ∈ req.resourceRequirements, ∀ name,
        parseResourcePath r.toList = .ok (.localFile, name) →
          ∃ m, s.resources.getResourceByID r = .ok m ∧ m.deleted = false ∧
            m.executor = resp.executorId := by
  obtain ⟨hsched, haddr⟩ := Server.scheduleTask_eq_ok h
  have hnames := namesExecutors_placementConstrainer hne
  obtain ⟨⟨st, hst, hcost⟩, hall⟩ := Servermaster.scheduleTask_eq_ok hnames hsched
  refine ⟨haddr, ⟨st, (lookup_capacityProvider _).symm.trans hst, hcost⟩, ?_⟩
  intro r hr name hp
  -- the scheduler looked the resource up without an error, and a local one is bound to the
  -- executor of its row
  obtain ⟨v, hv⟩ := scheduleTask_lookups_ok hnames hsched r hr
  obtain ⟨m, hm, hdel, -, rfl⟩ := Service.getPlacementConstraint_local_eq_ok metaOpsClient hp hv
  exact ⟨m, hm, hdel, hall r hr m.executor hv⟩

/-- A task whose resources are all local files created by one live executor, by rows that are
not marked deleted, goes to that executor when its capacity admits the cost, whatever the
order in which the scheduler would visit the executors. -/
theorem scheduleTask_on_creator_of_fits (hne : s.executorManager.hasExecutor "" = false)
    {e : ExecutorID} (he : s.executorManager.hasExecutor e = true)
    (hreq : req.resourceRequirements ≠ [])
    (hloc : ∀ r ∈ req.resourceRequirements,
      (∃ name, parseResourcePath r.toList = .ok (.localFile, name)) ∧
        ∃ m, s.resources.getResourceByID r = .ok m ∧ m.deleted = false ∧ m.executor = e)
    (hcap : ∃ st, CapRescMgr.capacityForExecutor s.executorManager.rescMgr e = some st ∧
      req.cost ≤ st.remaining) :
    ∃ addr, s.executorManager.getAddr e = some addr ∧
      s.scheduleTask order req = .ok ⟨e, addr⟩ := by
  have he0 : e ≠ "" := by
    intro h0
    rw [h0, hne] at he
    cases he
  have hall : ∀ r ∈ req.resourceRequirements, s.placementConstrainer r = .ok (e, true) := by
    intro r hr
    obtain ⟨⟨name, hp⟩, m, hm, hdel, hme⟩ := hloc r hr
    rw [← hme] at he ⊢
    exact Service.getPlacementConstraint_of_row metaOpsClient hp hm hdel he
  have hcost : checkCostAllows s.capacityProvider ⟨req.cost, req.resourceRequirements⟩ e = true := by
    rw [checkCostAllows_eq_true, lookup_capacityProvider]
    exact hcap
  have hsched : Servermaster.scheduleTask s.capacityProvider order s.placementConstrainer
      ⟨req.cost, req.resourceRequirements⟩ = .ok e :=
    scheduleTask_of_forall he0 hreq hall hcost
  obtain ⟨x, hx⟩ := Option.isSome_iff_exists.1 he
  refine ⟨x.nodeInfo.addr, by simp [World.getAddr, hx], ?_⟩
  simp [Server.scheduleTask, hsched, World.getAddr, hx]

/-! ## A file of `e2` -/

/-- The file `/local/data` that the worker `worker-1` of `job-1` created on `e2`. -/
def dataRow : ResourceMeta := ⟨"/local/data", "job-1", "worker-1", "e2", false⟩

/-- The executors of `twoExecutors`, and the row of `/local/data`. -/
def dataServer : Server := ⟨twoExecutors, ⟨[dataRow], List.nodup_singleton _⟩⟩

/-- A task that reads `/local/data` and a bucket of S3. -/
def dataTask : ScheduleTaskRequest := ⟨5, ["/local/data", "/s3/bucket"]⟩

theorem dataTask_placed_on_e2 :
    dataServer.executorManager.hasExecutor "" = false ∧
      dataServer.scheduleTask ["e1", "e2"] dataTask = .ok ⟨"e2", "addr2"⟩ ∧
      dataServer.executorManager.getAddr "e2" = some "addr2" ∧
      (∃ st, CapRescMgr.capacityForExecutor dataServer.executorManager.rescMgr "e2" = some st ∧
        dataTask.cost ≤ st.remaining) ∧
      ∀ r ∈ dataTask.resourceRequirements, ∀ name,
        parseResourcePath r.toList = .ok (.localFile, name) →
          ∃ m, dataServer.resources.getResourceByID r = .ok m ∧ m.deleted = false ∧
            m.executor = "e2" :=
  ⟨by decide, by decide, scheduleTask_places_on_creator (by decide)
    (show dataServer.scheduleTask ["e1", "e2"] dataTask = .ok ⟨"e2", "addr2"⟩ by decide)⟩

/-- A task that reads `/local/data` only. -/
def localTask : ScheduleTaskRequest := ⟨5, ["/local/data"]⟩

theorem localTask_goes_to_e2 :
    dataServer.executorManager.hasExecutor "" = false ∧
      dataServer.executorManager.hasExecutor "e2" = true ∧
      (∃ st, CapRescMgr.capacityForExecutor dataServer.executorManager.rescMgr "e2" = some st ∧
        localTask.cost ≤ st.remaining) ∧
      ∃ addr, dataServer.executorManager.getAddr "e2" = some addr ∧
        dataServer.scheduleTask ["e1"] localTask = .ok ⟨"e2", addr⟩ := by
  have hloc : ∀ r ∈ localTask.resourceRequirements,
      (∃ name, parseResourcePath r.toList = .ok (.localFile, name)) ∧
        ∃ m, dataServer.resources.getResourceByID r = .ok m ∧ m.deleted = false ∧
          m.executor = "e2" := by
    intro r hr
    rw [show localTask.resourceRequirements = ["/local/data"] from rfl, List.mem_singleton] at hr
    subst hr
    exact ⟨⟨"data".toList, by decide⟩, dataRow, by decide, rfl, rfl⟩
  have hcap : ∃ st, CapRescMgr.capacityForExecutor dataServer.executorManager.rescMgr "e2" =
      some st ∧ localTask.cost ≤ st.remaining :=
    ⟨⟨20, 0, 0⟩, by decide, by decide⟩
  exact ⟨by decide, by decide, hcap,
    scheduleTask_on_creator_of_fits (by decide) (by decide) (by decide) hloc hcap⟩

/-- Once `e1` has been removed, a task that needs a file `e1` created is refused, though the
entry of `e1` is still among the capacities. -/
example : (⟨orphaned, ⟨[⟨"/local/logs", "job-2", "worker-2", "e1", false⟩], List.nodup_singleton _⟩⟩
      : Server).scheduleTask ["e1", "e2"] ⟨5, ["/local/logs"]⟩ =
    .error (.status .notFound (.resourceNotFound "/local/logs" (.resourceDoesNotExist "/local/logs"))) := by
  decide

end Servermaster

end Microcosm
