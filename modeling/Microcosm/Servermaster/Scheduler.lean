import Mathlib.Data.List.AList
import Microcosm.Lib.Model.Basic

/-!
# The scheduler of the server master

`servermaster/scheduler`: `Scheduler.ScheduleTask` picks an executor for a task. A request
without external resources goes to `ScheduleByCost`, which visits the executors in a
random order and takes the first whose remaining resources exceed the cost. Otherwise
`getConstraint` looks up the placement constraint of every resource in order. Two
resources bound to different executors are a conflict. A resource that does not exist is
reported as not found, and any other error of the constrainer is returned as it is. A
request whose resources carry no constraint goes to `ScheduleByCost` as well. Otherwise the
constrained executor is checked by `checkCostAllows`, which admits a remaining amount equal
to the cost.

The capacity provider is its map from executor IDs to `ExecutorResourceStatus`; the shuffle
of `ScheduleByCost` is a parameter, the order in which the executors are visited. The
placement constrainer is a function from resource IDs to its answer, and
`mockPlacement` is the `MockPlacementConstrainer` over a placement map.
-/

namespace Microcosm

namespace Servermaster

/-- `resourcemeta.ResourceID`. -/
abbrev ResourceID := String

/-- `ExecutorResourceStatus`, in `model.RescUnit`, an `int`. -/
structure ExecutorResourceStatus where
  capacity : Int
  reserved : Int
  used : Int
  deriving DecidableEq, Repr

/-- `Remaining`. -/
def ExecutorResourceStatus.remaining (s : ExecutorResourceStatus) : Int :=
  if s.used > s.reserved then s.capacity - s.used else s.capacity - s.reserved

/-- `SchedulerRequest`. -/
structure SchedulerRequest where
  cost : Int
  externalResources : List ResourceID
  deriving DecidableEq, Repr

/-- The errors of `GetPlacementConstraint`. -/
inductive PlacementError
  /-- `ErrResourceDoesNotExist`. -/
  | resourceDoesNotExist (resourceID : ResourceID)
  | other (err : Error)
  deriving DecidableEq, Repr

/-- The errors of `ScheduleTask`. -/
inductive ScheduleError
  /-- `ErrClusterResourceNotEnough`. -/
  | clusterResourceNotEnough
  /-- `ResourceNotFoundError`. -/
  | resourceNotFound (resourceID : ResourceID) (cause : PlacementError)
  /-- `ResourceConflictError`, with the resource just looked up first. -/
  | resourceConflict (resourceA : ResourceID) (executorA : ExecutorID) (resourceB : ResourceID)
      (executorB : ExecutorID)
  /-- Any other error of the placement constrainer. -/
  | placement (err : PlacementError)
  deriving DecidableEq, Repr

/-- What `CapacitiesForAllExecutors` and `CapacityForExecutor` read. -/
abbrev Capacities := AList (fun _ : ExecutorID => ExecutorResourceStatus)

/-- The answer of `GetPlacementConstraint`: the executor, and whether there is a
constraint. -/
abbrev Placement := ResourceID → Except PlacementError (ExecutorID × Bool)

/-- `MockPlacementConstrainer.GetPlacementConstraint` over the placement map: a resource
bound to `""` has no constraint. -/
def mockPlacement (resourceList : AList (fun _ : ResourceID => ExecutorID)) : Placement :=
  fun id =>
    match resourceList.lookup id with
    | none => .error (.resourceDoesNotExist id)
    | some executorID => if executorID = "" then .ok ("", false) else .ok (executorID, true)

/-- Whether the executor's remaining resources strictly exceed the cost, the test of
`ScheduleByCost`. -/
def exceedsCost (caps : Capacities) (cost : Int) (executorID : ExecutorID) : Bool :=
  match caps.lookup executorID with
  | some st => decide (st.remaining > cost)
  | none => false

/-- `ScheduleByCost`, visiting the executors in `order`, the result of the shuffle. -/
def scheduleByCost (caps : Capacities) (order : List ExecutorID) (cost : Int) :
    Option ExecutorID :=
  order.find? (exceedsCost caps cost)

/-- `scheduleByCostOnly`. -/
def scheduleByCostOnly (caps : Capacities) (order : List ExecutorID)
    (request : SchedulerRequest) : Except ScheduleError ExecutorID :=
  match scheduleByCost caps order request.cost with
  | some target => .ok target
  | none => .error .clusterResourceNotEnough

/-- `checkCostAllows`. -/
def checkCostAllows (caps : Capacities) (request : SchedulerRequest) (target : ExecutorID) :
    Bool :=
  match caps.lookup target with
  | none => false
  | some st => decide (st.remaining ≥ request.cost)

/-- The loop of `getConstraint`, carrying `lastResourceID` and `ret`. -/
def getConstraintLoop (placement : Placement) :
    ResourceID × ExecutorID → List ResourceID → Except ScheduleError ExecutorID
  | (_, ret), [] => .ok ret
  | (lastResourceID, ret), resourceID :: rest =>
      match placement resourceID with
      | .error (.resourceDoesNotExist id) =>
          .error (.resourceNotFound resourceID (.resourceDoesNotExist id))
      | .error err => .error (.placement err)
      | .ok (_, false) => getConstraintLoop placement (lastResourceID, ret) rest
      | .ok (executorID, true) =>
          if ret ≠ "" ∧ ret ≠ executorID then
            .error (.resourceConflict resourceID executorID lastResourceID ret)
          else getConstraintLoop placement (resourceID, executorID) rest

-- Many proofs below unfold this definition, and Lean elaborates them in parallel: the empty
-- section generates its equation lemmas here, once, so that the proofs do not all wait on it.
-- The simp set outside the section is unchanged.
section
attribute [local simp] getConstraintLoop
end

/-- `getConstraint`. -/
def getConstraint (placement : Placement) (resources : List ResourceID) :
    Except ScheduleError ExecutorID :=
  getConstraintLoop placement ("", "") resources

/-- `ScheduleTask`. -/
def scheduleTask (caps : Capacities) (order : List ExecutorID) (placement : Placement)
    (request : SchedulerRequest) : Except ScheduleError ExecutorID :=
  if request.externalResources.length = 0 then scheduleByCostOnly caps order request
  else
    match getConstraint placement request.externalResources with
    | .error err => .error err
    | .ok constraint =>
        if constraint = "" then scheduleByCostOnly caps order request
        else if !checkCostAllows caps request constraint then .error .clusterResourceNotEnough
        else .ok constraint

/-! ## The cost test -/

theorem exceedsCost_eq_true {caps : Capacities} {cost : Int} {e : ExecutorID} :
    exceedsCost caps cost e = true ↔ ∃ st, caps.lookup e = some st ∧ cost < st.remaining := by
  unfold exceedsCost
  cases caps.lookup e <;> simp

theorem checkCostAllows_eq_true {caps : Capacities} {request : SchedulerRequest}
    {e : ExecutorID} :
    checkCostAllows caps request e = true ↔
      ∃ st, caps.lookup e = some st ∧ request.cost ≤ st.remaining := by
  unfold checkCostAllows
  cases caps.lookup e <;> simp

/-- `ScheduleByCost` only returns a registered executor whose remaining resources exceed the
cost. -/
theorem scheduleByCost_eq_some {caps : Capacities} {order : List ExecutorID} {cost : Int}
    {e : ExecutorID} (h : scheduleByCost caps order cost = some e) :
    ∃ st, caps.lookup e = some st ∧ cost < st.remaining :=
  exceedsCost_eq_true.1 (List.find?_some h)

/-- Visiting every executor, `ScheduleByCost` fails exactly when no executor has more
remaining resources than the cost. -/
theorem scheduleByCost_eq_none_iff {caps : Capacities} {order : List ExecutorID} {cost : Int}
    (hperm : order.Perm caps.keys) :
    scheduleByCost caps order cost = none ↔
      ∀ e st, caps.lookup e = some st → st.remaining ≤ cost := by
  unfold scheduleByCost
  rw [List.find?_eq_none]
  constructor
  · intro h e st hst
    have hmem : e ∈ order := hperm.symm.subset (AList.mem_keys.2 (AList.lookup_isSome.1 (by
      simp [hst])))
    have hnot := h e hmem
    rw [exceedsCost_eq_true] at hnot
    by_contra hgt
    exact hnot ⟨st, hst, by omega⟩
  · intro h e _ hex
    obtain ⟨st, hst, hlt⟩ := exceedsCost_eq_true.1 hex
    have hle := h e st hst
    omega

/-! ## The constraint of the resources

The lemmas assume what `mockPlacement` guarantees: a constraint names an executor, never
`""`. -/

/-- Every constraint the constrainer reports names an executor. -/
def NamesExecutors (placement : Placement) : Prop :=
  ∀ r e, placement r = .ok (e, true) → e ≠ ""

theorem namesExecutors_mockPlacement (resourceList : AList (fun _ : ResourceID => ExecutorID)) :
    NamesExecutors (mockPlacement resourceList) := by
  intro r e h
  unfold mockPlacement at h
  split at h
  · cases h
  · split at h
    · cases h
    · cases h
      assumption

/-- The constrained resources of a list all name `c`. -/
def AllName (placement : Placement) (resources : List ResourceID) (c : ExecutorID) : Prop :=
  ∀ r ∈ resources, ∀ e, placement r = .ok (e, true) → e = c

theorem allName_cons {placement : Placement} {r : ResourceID} {rest : List ResourceID}
    {c : ExecutorID} (hr : ∀ e, placement r = .ok (e, true) → e = c)
    (hrest : AllName placement rest c) : AllName placement (r :: rest) c := by
  intro x hx e hx'
  rcases List.mem_cons.1 hx with rfl | hx
  · exact hr e hx'
  · exact hrest x hx e hx'

section Constraint

variable {placement : Placement}

/-- A loop that starts from a constraint keeps it to the end when it succeeds. -/
theorem getConstraintLoop_eq_ok (hne : NamesExecutors placement) {last ret c : ExecutorID}
    {resources : List ResourceID}
    (h : getConstraintLoop placement (last, ret) resources = .ok c) :
    (∀ r ∈ resources, ∃ v, placement r = .ok v) ∧ AllName placement resources c ∧
      (c = ret ∨ ret = "" ∧ ∃ r ∈ resources, placement r = .ok (c, true)) := by
  induction resources generalizing last ret with
  | nil =>
      cases h
      exact ⟨by simp, by simp [AllName], .inl rfl⟩
  | cons r rest ih =>
      unfold getConstraintLoop at h
      split at h
      · cases h
      · cases h
      · -- no constraint on `r`: the loop goes on with the same constraint
        rename_i e hr
        obtain ⟨hok, hall, hc⟩ := ih h
        refine ⟨List.forall_mem_cons.2 ⟨⟨_, hr⟩, hok⟩,
          allName_cons (fun e' he' => by rw [hr] at he'; cases he') hall, ?_⟩
        rcases hc with rfl | ⟨hret, x, hx, hx'⟩
        · exact .inl rfl
        · exact .inr ⟨hret, x, .tail _ hx, hx'⟩
      · -- a constraint on `r` that agrees with the one so far: the loop goes on with it
        rename_i e hr
        split at h
        · cases h
        · rename_i hagree
          obtain ⟨hok, hall, hc⟩ := ih h
          have hce : c = e := hc.resolve_right fun ⟨he, _⟩ => hne r e hr he
          subst hce
          refine ⟨List.forall_mem_cons.2 ⟨⟨_, hr⟩, hok⟩,
            allName_cons (fun e' he' => by rw [hr] at he'; cases he'; rfl) hall, ?_⟩
          by_cases hret : ret = ""
          · exact .inr ⟨hret, r, List.mem_cons_self, hr⟩
          · exact .inl (by simp only [not_and_or, ne_eq, not_not] at hagree; tauto)

/-- The list runs into a conflict: all lookups before it having succeeded, a constrained
resource names another executor than the constraint `ret` held so far or than a constrained
resource before it. -/
def ConflictIn (placement : Placement) (ret : ExecutorID) (resources : List ResourceID) : Prop :=
  ∃ pre r rest e e', resources = pre ++ r :: rest ∧ (∀ x ∈ pre, ∃ v, placement x = .ok v) ∧
    placement r = .ok (e, true) ∧ e' ≠ e ∧
    (ret ≠ "" ∧ e' = ret ∨ ∃ x ∈ pre, placement x = .ok (e', true))

theorem not_conflictIn_nil (ret : ExecutorID) : ¬ ConflictIn placement ret [] := by
  rintro ⟨pre, r, rest, -, -, h, -⟩
  exact absurd h.symm (List.append_ne_nil_of_right_ne_nil _ (List.cons_ne_nil _ _))

/-- A resource whose lookup fails stops every conflict behind it. -/
theorem not_conflictIn_cons_of_error {r : ResourceID} {rest : List ResourceID}
    {ret : ExecutorID} {err : PlacementError} (hr : placement r = .error err) :
    ¬ ConflictIn placement ret (r :: rest) := by
  rintro ⟨pre, r', rest', e, e', hsplit, hok, hr', -, -⟩
  cases pre with
  | nil =>
      cases hsplit
      rw [hr] at hr'
      cases hr'
  | cons x pre =>
      cases hsplit
      obtain ⟨v, hv⟩ := hok _ List.mem_cons_self
      rw [hr] at hv
      cases hv

/-- A constrained resource that disagrees with the constraint held so far is a conflict. -/
theorem conflictIn_cons_head {r : ResourceID} {rest : List ResourceID} {ret e : ExecutorID}
    (hr : placement r = .ok (e, true)) (hconf : ret ≠ "" ∧ ret ≠ e) :
    ConflictIn placement ret (r :: rest) :=
  ⟨[], r, rest, e, ret, rfl, (fun _ h => by cases h), hr, hconf.2, .inl ⟨hconf.1, rfl⟩⟩

/-- An unconstrained resource neither makes nor hides a conflict. -/
theorem conflictIn_cons_unconstrained {r : ResourceID} {rest : List ResourceID}
    {ret e : ExecutorID} (hr : placement r = .ok (e, false)) :
    ConflictIn placement ret (r :: rest) ↔ ConflictIn placement ret rest := by
  constructor
  · rintro ⟨pre, r', rest', e₁, e', hsplit, hok, hr', hne', hfrom⟩
    cases pre with
    | nil =>
        cases hsplit
        rw [hr] at hr'
        cases hr'
    | cons x pre =>
        cases hsplit
        refine ⟨pre, r', rest', e₁, e', rfl, fun y hy => hok y (.tail _ hy), hr', hne', ?_⟩
        rcases hfrom with h | ⟨y, hy, hy'⟩
        · exact .inl h
        · rcases List.mem_cons.1 hy with rfl | hy
          · rw [hr] at hy'
            cases hy'
          · exact .inr ⟨y, hy, hy'⟩
  · rintro ⟨pre, r', rest', e₁, e', rfl, hok, hr', hne', hfrom⟩
    refine ⟨r :: pre, r', rest', e₁, e', rfl, List.forall_mem_cons.2 ⟨⟨_, hr⟩, hok⟩, hr', hne',
      ?_⟩
    rcases hfrom with h | ⟨y, hy, hy'⟩
    · exact .inl h
    · exact .inr ⟨y, .tail _ hy, hy'⟩

/-- A constrained resource that agrees with the constraint held so far becomes the
constraint: the conflicts behind it are those against it. -/
theorem conflictIn_cons_agree (hne : NamesExecutors placement) {r : ResourceID}
    {rest : List ResourceID} {ret e : ExecutorID} (hr : placement r = .ok (e, true))
    (hagree : ¬(ret ≠ "" ∧ ret ≠ e)) :
    ConflictIn placement ret (r :: rest) ↔ ConflictIn placement e rest := by
  have he : e ≠ "" := hne r e hr
  have hret : ret ≠ "" → ret = e := by
    simp only [ne_eq, not_and, not_not] at hagree
    exact hagree
  constructor
  · rintro ⟨pre, r', rest', e₁, e', hsplit, hok, hr', hne', hfrom⟩
    cases pre with
    | nil =>
        -- `r` itself is no conflict, agreeing with the constraint so far
        cases hsplit
        rw [hr] at hr'
        cases hr'
        rcases hfrom with ⟨hne'', rfl⟩ | ⟨y, hy, -⟩
        · exact absurd (hret hne'') hne'
        · cases hy
    | cons x pre =>
        cases hsplit
        refine ⟨pre, r', rest', e₁, e', rfl, fun y hy => hok y (.tail _ hy), hr', hne', ?_⟩
        rcases hfrom with ⟨hne'', rfl⟩ | ⟨y, hy, hy'⟩
        · exact .inl ⟨he, hret hne''⟩
        · rcases List.mem_cons.1 hy with rfl | hy
          · rw [hr] at hy'
            cases hy'
            exact .inl ⟨he, rfl⟩
          · exact .inr ⟨y, hy, hy'⟩
  · rintro ⟨pre, r', rest', e₁, e', rfl, hok, hr', hne', hfrom⟩
    refine ⟨r :: pre, r', rest', e₁, e', rfl, List.forall_mem_cons.2 ⟨⟨_, hr⟩, hok⟩, hr', hne',
      .inr ?_⟩
    rcases hfrom with ⟨-, rfl⟩ | ⟨y, hy, hy'⟩
    · exact ⟨r, List.mem_cons_self, hr⟩
    · exact ⟨y, .tail _ hy, hy'⟩

/-- The loop ends in a conflict exactly when the rest of the list runs into one against the
constraint held so far. -/
theorem getConstraintLoop_eq_conflict_iff (hne : NamesExecutors placement)
    {last ret : ExecutorID} {resources : List ResourceID} :
    (∃ a ea b eb, getConstraintLoop placement (last, ret) resources =
        .error (.resourceConflict a ea b eb)) ↔ ConflictIn placement ret resources := by
  -- one case for each arm of the loop body's match on the lookup
  induction resources generalizing last ret with
  | nil =>
      refine iff_of_false ?_ (not_conflictIn_nil ret)
      rintro ⟨_, _, _, _, h⟩
      cases h
  | cons r rest ih =>
      unfold getConstraintLoop
      split
      · next id hr =>
          refine iff_of_false ?_ (not_conflictIn_cons_of_error hr)
          rintro ⟨_, _, _, _, h⟩
          cases h
      · next err _ hr =>
          refine iff_of_false ?_ (not_conflictIn_cons_of_error hr)
          rintro ⟨_, _, _, _, h⟩
          cases h
      · next e hr =>
          rw [conflictIn_cons_unconstrained hr]
          exact ih
      · next e hr =>
          split
          · next hconf => exact iff_of_true ⟨r, e, last, ret, rfl⟩ (conflictIn_cons_head hr hconf)
          · next hagree =>
              rw [conflictIn_cons_agree hne hr hagree]
              exact ih

/-- `getConstraint` ends in a conflict exactly when, all lookups before it having
succeeded, a constrained resource names another executor than a constrained resource
before it. -/
theorem getConstraint_eq_conflict_iff (hne : NamesExecutors placement)
    {resources : List ResourceID} :
    (∃ a ea b eb, getConstraint placement resources = .error (.resourceConflict a ea b eb)) ↔
      ∃ pre r rest e e', resources = pre ++ r :: rest ∧ (∀ x ∈ pre, ∃ v, placement x = .ok v) ∧
        placement r = .ok (e, true) ∧ e' ≠ e ∧ ∃ x ∈ pre, placement x = .ok (e', true) := by
  rw [getConstraint, getConstraintLoop_eq_conflict_iff hne, ConflictIn]
  simp only [ne_eq, not_true_eq_false, false_and, false_or]

/-- A loop that holds the constraint `e` keeps it over resources that are all bound to `e`. -/
theorem getConstraintLoop_of_forall {e : ExecutorID} :
    ∀ {last : ResourceID} {resources : List ResourceID},
      (∀ r ∈ resources, placement r = .ok (e, true)) →
        getConstraintLoop placement (last, e) resources = .ok e
  | _, [], _ => rfl
  | _, r :: rest, hall => by
      rw [getConstraintLoop, hall r List.mem_cons_self]
      simp only [ne_eq, not_true_eq_false, and_false, if_false]
      exact getConstraintLoop_of_forall fun x hx => hall x (.tail _ hx)

end Constraint

/-! ## Scheduling -/

section Schedule

variable {caps : Capacities} {order : List ExecutorID} {placement : Placement}
  {request : SchedulerRequest}

theorem scheduleByCostOnly_eq_ok {e : ExecutorID}
    (h : scheduleByCostOnly caps order request = .ok e) :
    ∃ st, caps.lookup e = some st ∧ request.cost < st.remaining := by
  unfold scheduleByCostOnly at h
  split at h
  · cases h
    exact scheduleByCost_eq_some ‹_›
  · cases h

theorem scheduleByCostOnly_ne_conflict (a : ResourceID) (ea : ExecutorID) (b : ResourceID)
    (eb : ExecutorID) :
    scheduleByCostOnly caps order request ≠ .error (.resourceConflict a ea b eb) := by
  unfold scheduleByCostOnly
  split <;> simp

/-- `ScheduleTask` returns only a registered executor that admits the cost, and one that
every constrained resource of the request names. -/
theorem scheduleTask_eq_ok (hne : NamesExecutors placement) {e : ExecutorID}
    (h : scheduleTask caps order placement request = .ok e) :
    (∃ st, caps.lookup e = some st ∧ request.cost ≤ st.remaining) ∧
      AllName placement request.externalResources e := by
  unfold scheduleTask at h
  split at h
  · -- no resources: the cost path, and nothing is constrained
    rename_i hlen
    obtain ⟨st, hst, hlt⟩ := scheduleByCostOnly_eq_ok h
    refine ⟨⟨st, hst, Int.le_of_lt hlt⟩, ?_⟩
    rw [List.length_eq_zero_iff.1 hlen]
    simp [AllName]
  · split at h
    · cases h
    · rename_i c hc
      obtain ⟨-, hall, -⟩ := getConstraintLoop_eq_ok hne hc
      split at h
      · -- no constraint: the cost path, and no resource is constrained
        rename_i hempty
        subst hempty
        obtain ⟨st, hst, hlt⟩ := scheduleByCostOnly_eq_ok h
        exact ⟨⟨st, hst, Int.le_of_lt hlt⟩,
          fun r hr e' he' => absurd (hall r hr e' he') (hne r e' he')⟩
      · split at h
        · cases h
        · cases h
          rename_i hallow
          exact ⟨checkCostAllows_eq_true.1 (by simpa using hallow), hall⟩

/-- `ScheduleTask` returns a `ResourceConflictError` exactly when `getConstraint` finds two
constrained resources naming different executors, all lookups up to the second having
succeeded. -/
theorem scheduleTask_eq_conflict_iff (hne : NamesExecutors placement) :
    (∃ a ea b eb, scheduleTask caps order placement request =
        .error (.resourceConflict a ea b eb)) ↔
      ∃ pre r rest e e', request.externalResources = pre ++ r :: rest ∧
        (∀ x ∈ pre, ∃ v, placement x = .ok v) ∧ placement r = .ok (e, true) ∧ e' ≠ e ∧
          ∃ x ∈ pre, placement x = .ok (e', true) := by
  rw [← getConstraint_eq_conflict_iff hne]
  unfold scheduleTask
  split
  · -- no resources: neither the cost path nor the empty loop conflicts
    rename_i hlen
    rw [List.length_eq_zero_iff.1 hlen]
    constructor
    · rintro ⟨a, ea, b, eb, h⟩
      exact absurd h (scheduleByCostOnly_ne_conflict a ea b eb)
    · rintro ⟨a, ea, b, eb, h⟩
      cases h
  · split
    · rename_i err herr
      rw [herr]
    · rename_i c hc
      rw [hc]
      constructor
      · rintro ⟨a, ea, b, eb, h⟩
        split at h
        · exact absurd h (scheduleByCostOnly_ne_conflict a ea b eb)
        · split at h <;> cases h
      · rintro ⟨a, ea, b, eb, h⟩
        cases h

/-- A successful `ScheduleTask` has looked every resource of the request up without an error. -/
theorem scheduleTask_lookups_ok (hne : NamesExecutors placement) {e : ExecutorID}
    (h : scheduleTask caps order placement request = .ok e) :
    ∀ r ∈ request.externalResources, ∃ v, placement r = .ok v := by
  unfold scheduleTask at h
  split at h
  · rename_i hlen
    rw [List.length_eq_zero_iff.1 hlen]
    simp
  · split at h
    · cases h
    · rename_i c hc
      exact (getConstraintLoop_eq_ok hne hc).1

/-- A request whose resources are all bound to `e` goes to `e` when `e` admits its cost. -/
theorem scheduleTask_of_forall {e : ExecutorID} (he : e ≠ "")
    (hres : request.externalResources ≠ [])
    (hall : ∀ r ∈ request.externalResources, placement r = .ok (e, true))
    (hcost : checkCostAllows caps request e = true) :
    scheduleTask caps order placement request = .ok e := by
  obtain ⟨r, rest, hrs⟩ := List.exists_cons_of_ne_nil hres
  -- the first resource sets the constraint, the others keep it
  have hloop : getConstraint placement request.externalResources = .ok e := by
    rw [getConstraint, hrs, getConstraintLoop, hall r (by simp [hrs])]
    simp only [ne_eq, not_true_eq_false, false_and, if_false]
    exact getConstraintLoop_of_forall fun x hx => hall x (by simp [hrs, hx])
  unfold scheduleTask
  rw [if_neg (by simp [hrs]), hloop]
  simp [he, hcost]

end Schedule

theorem mockPlacement_insert_self {r : ResourceID} {e : ExecutorID} (he : e ≠ "") :
    mockPlacement ((∅ : AList _).insert r e) r = .ok (e, true) := by
  unfold mockPlacement
  rw [AList.lookup_insert]
  simp [he]

/-- At the boundary the two admission tests disagree. Take an executor whose remaining
resources equal the cost, with no executor holding more. A request without external
resources is then refused with `ErrClusterResourceNotEnough`, while the same request with a
resource bound to that executor is scheduled on it. -/
theorem admission_differs_at_boundary (caps : Capacities) (order : List ExecutorID)
    (hperm : order.Perm caps.keys) (cost : Int) (e : ExecutorID) (st : ExecutorResourceStatus)
    (he : e ≠ "") (hst : caps.lookup e = some st) (hrem : st.remaining = cost)
    (hmax : ∀ e' st', caps.lookup e' = some st' → st'.remaining ≤ cost) (r : ResourceID) :
    scheduleTask caps order (mockPlacement ∅) ⟨cost, []⟩ = .error .clusterResourceNotEnough ∧
      scheduleTask caps order (mockPlacement ((∅ : AList _).insert r e)) ⟨cost, [r]⟩ =
        .ok e := by
  have hnone : scheduleByCost caps order cost = none := (scheduleByCost_eq_none_iff hperm).2 hmax
  have hc : getConstraint (mockPlacement ((∅ : AList _).insert r e)) [r] = .ok e := by
    simp only [getConstraint, getConstraintLoop, mockPlacement_insert_self he]
    simp
  have hallow : checkCostAllows caps ⟨cost, [r]⟩ e = true :=
    checkCostAllows_eq_true.2 ⟨st, hst, by simp [hrem]⟩
  constructor
  · simp [scheduleTask, scheduleByCostOnly, hnone]
  · unfold scheduleTask
    rw [hc]
    simp [he, hallow]

/-- One executor with capacity `10` and nothing reserved or used. -/
def boundaryCapacities : Capacities :=
  (∅ : Capacities).insert "executor-1" ⟨10, 0, 0⟩

theorem admission_differs_at_ten :
    scheduleTask boundaryCapacities ["executor-1"] (mockPlacement ∅) ⟨10, []⟩ =
        .error .clusterResourceNotEnough ∧
      scheduleTask boundaryCapacities ["executor-1"]
        (mockPlacement ((∅ : AList _).insert "resource-1" "executor-1")) ⟨10, ["resource-1"]⟩ =
        .ok "executor-1" :=
  admission_differs_at_boundary boundaryCapacities ["executor-1"] (by decide) 10 "executor-1"
    ⟨10, 0, 0⟩ (by decide) rfl rfl
    (fun e' st' h => by
      by_cases he' : e' = "executor-1"
      · subst he'
        rw [boundaryCapacities, AList.lookup_insert, Option.some_inj] at h
        subst h
        decide
      · rw [boundaryCapacities, AList.lookup_insert_ne he'] at h
        simp at h)
    "resource-1"

end Servermaster

end Microcosm
