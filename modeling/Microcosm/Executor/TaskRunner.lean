import Mathlib.Data.List.Range
import Microcosm.Library.Count
import Microcosm.Library.Transition
import Microcosm.Executor.TaskCommitter

/-!
# The task runner over all schedules

`TaskRunner.Run`, `cancelAll` and `onNewTask` of `executor/worker/task_runner.go`, with the
goroutine `onNewTask` launches for each task, and the status callbacks `OnInitialized` and
`OnStopped` of `internal.RunnableContainer`.

The state is the goroutine of `Run` at one statement (`RunPc`), every task goroutine at one
statement (`TaskPc`), and the shared fields of the runner: `tasks` (the `sync.Map`, from a
task ID to the arrival whose entry it holds), `taskCount`, the `WaitGroup` counter, `canceled`
and the permits of `initQuotaSema` in use. An action is one statement of one goroutine; an
action whose goroutine is not at its statement leaves the state as it is, so that every
interleaving is a sequence of actions. The outcomes the environment chooses are the actions
themselves: which task arrives, whether `Acquire` succeeds or times out (the queuing timeout
or the runner's context), whether `Init` succeeds (its error and its panic are handled alike
by `runInit`), when `EventLoop` returns (its context cancelled by `cancelAll`, or `Poll`
failing), and when the runner's context ends `Run`.

Each task that arrives is numbered in the order of arrival, and its container is a fresh
`WrapRunnable` at `TaskSubmitted`, as `AddTask` and the committer deliver it; its status is
kept with its goroutine. Every `log.L().Panic` is an error of the step, also the one
`runInit` recovers: what is shown is that none is ever reached. `cancelMu` is not modelled:
`cancelAll` runs only in the deferred call of `Run`, after the last `onNewTask`, so the lock
orders nothing. The acquisitions and releases of each arrival are counted as ghost fields.
-/

namespace Microcosm

namespace Executor

/-- `internal.RunnableStatus`. -/
inductive RunnableStatus
  | taskSubmitted
  | taskRunning
  | taskClosing
  deriving DecidableEq, Repr

/-- The statement of `onNewTask` that `Run` is at for the task it received. -/
inductive NewTaskPc
  /-- `initQuotaSema.Acquire`. -/
  | acquiring
  /-- The check of `canceled` and `tasks.LoadOrStore`. -/
  | storing
  /-- `taskCount.Inc`. -/
  | incrementing
  /-- `wg.Add(1)` and the `go` statement. -/
  | launching
  deriving DecidableEq, Repr

/-- The statement a task goroutine is at. -/
inductive TaskPc
  /-- `runInit`: `Init`, `OnInitialized` and the deferred `Release`. -/
  | runInit
  /-- `EventLoop`. -/
  | eventLoop
  /-- The deferred closure: `Close` and `OnStopped`. -/
  | closing
  /-- The deferred closure: `tasks.LoadAndDelete`. -/
  | deleting
  /-- The deferred `taskCount.Dec`. -/
  | decrementing
  /-- The deferred `wg.Done`. -/
  | leaving
  | finished
  deriving DecidableEq, Repr

/-- The statement `Run` is at. -/
inductive RunPc
  /-- The select on the runner's context and `inQueue`. -/
  | receiving
  /-- `onNewTask` for the task of arrival `i`. -/
  | onNewTask (i : Nat) (task : RunnableContainer) (pc : NewTaskPc)
  /-- The deferred `cancelAll`, before it takes `cancelMu`. -/
  | cancelling
  /-- `wg.Wait` in `cancelAll`. -/
  | waiting
  | stopped
  deriving DecidableEq, Repr

/-- A task goroutine: its container, the container's status, and its statement. -/
structure TaskThread where
  task : RunnableContainer
  status : RunnableStatus
  pc : TaskPc
  deriving DecidableEq, Repr

namespace TaskRunner

/-- The `log.L().Panic` calls and the runtime panics of the runner. -/
inductive Panic
  /-- `OnInitialized` or `OnStopped` found the status. -/
  | unexpectedStatus (status : RunnableStatus)
  /-- The deferred closure of a task goroutine did not find the task. -/
  | taskDoesNotExist (id : RunnableID)
  /-- `semaphore: released more than held`. -/
  | releasedMoreThanHeld
  /-- `sync: negative WaitGroup counter`. -/
  | negativeWaitGroupCounter
  deriving DecidableEq, Repr

/-- The runner during `Run`: the statements of its goroutines, its shared fields, and, as
ghosts, the number of arrivals and the acquisitions and releases of each arrival. -/
structure State where
  run : RunPc
  thread : Nat → Option TaskThread
  tasks : AList fun _ : RunnableID => Nat
  taskCount : Int
  wg : Nat
  canceled : Bool
  held : Nat
  capacity : Nat
  arrivals : Nat
  acquires : Nat → Nat
  releases : Nat → Nat

/-- `NewTaskRunner` with `initConcurrency` permits, at the start of `Run`. -/
def init (initConcurrency : Nat) : State where
  run := .receiving
  thread := fun _ => none
  tasks := ∅
  taskCount := 0
  wg := 0
  canceled := false
  held := 0
  capacity := initConcurrency
  arrivals := 0
  acquires := fun _ => 0
  releases := fun _ => 0

/-- One more at index `i`. -/
def bump (f : Nat → Nat) (i : Nat) : Nat → Nat :=
  fun j => if j = i then f j + 1 else f j

/-- `initQuotaSema.Release(defaultTaskWeight)` for arrival `i`. -/
def State.release (s : State) (i : Nat) : Except Panic State :=
  if s.held = 0 then .error .releasedMoreThanHeld
  else .ok { s with held := s.held - 1, releases := bump s.releases i }

/-- The goroutine of arrival `i` is now `t`. -/
def State.setThread (s : State) (i : Nat) (t : TaskThread) : State :=
  { s with thread := fun j => if j = i then some t else s.thread j }

@[simp] theorem State.setThread_thread (s : State) (i : Nat) (t : TaskThread) (j : Nat) :
    (s.setThread i t).thread j = if j = i then some t else s.thread j :=
  rfl

@[simp] theorem State.setThread_run (s : State) (i : Nat) (t : TaskThread) :
    (s.setThread i t).run = s.run :=
  rfl

@[simp] theorem State.setThread_arrivals (s : State) (i : Nat) (t : TaskThread) :
    (s.setThread i t).arrivals = s.arrivals :=
  rfl

@[simp] theorem State.setThread_acquires (s : State) (i : Nat) (t : TaskThread) :
    (s.setThread i t).acquires = s.acquires :=
  rfl

@[simp] theorem State.setThread_releases (s : State) (i : Nat) (t : TaskThread) :
    (s.setThread i t).releases = s.releases :=
  rfl

@[simp] theorem State.setThread_held (s : State) (i : Nat) (t : TaskThread) :
    (s.setThread i t).held = s.held :=
  rfl

@[simp] theorem State.setThread_tasks (s : State) (i : Nat) (t : TaskThread) :
    (s.setThread i t).tasks = s.tasks :=
  rfl

@[simp] theorem State.setThread_taskCount (s : State) (i : Nat) (t : TaskThread) :
    (s.setThread i t).taskCount = s.taskCount :=
  rfl

@[simp] theorem State.setThread_wg (s : State) (i : Nat) (t : TaskThread) :
    (s.setThread i t).wg = s.wg :=
  rfl

@[simp] theorem State.setThread_canceled (s : State) (i : Nat) (t : TaskThread) :
    (s.setThread i t).canceled = s.canceled :=
  rfl

/-- A statement of the goroutine of arrival `i`: it runs when the goroutine is at `pc`. -/
def State.atThread (s : State) (i : Nat) (pc : TaskPc)
    (f : TaskThread → Except Panic State) : Except Panic State :=
  match s.thread i with
  | some t => if t.pc = pc then f t else .ok s
  | none => .ok s

/-- The statements of the runner's goroutines. -/
inductive Action
  /-- A task is received from `inQueue`. -/
  | receive (task : RunnableContainer)
  /-- The runner's context is done, or `inQueue` gives nil: `Run` returns. -/
  | exitRun
  | acquire
  | acquireTimedOut
  | loadOrStore
  | inc
  | launch
  | cancelAll
  | waitDone
  /-- `runInit` of arrival `i`; `initOk`: `Init` returned nil. -/
  | runInit (i : Nat) (initOk : Bool)
  | eventLoopReturns (i : Nat)
  | onStopped (i : Nat)
  | loadAndDelete (i : Nat)
  | dec (i : Nat)
  | done (i : Nat)
  deriving DecidableEq, Repr

/-- One statement of one goroutine of the runner. -/
def step (s : State) : Action → Except Panic State
  | .receive task =>
      match s.run with
      | .receiving =>
          .ok { s with run := .onNewTask s.arrivals task .acquiring, arrivals := s.arrivals + 1 }
      | _ => .ok s
  | .exitRun =>
      match s.run with
      | .receiving => .ok { s with run := .cancelling }
      | _ => .ok s
  | .acquire =>
      match s.run with
      | .onNewTask i task .acquiring =>
          if s.held < s.capacity then
            .ok { s with run := .onNewTask i task .storing, held := s.held + 1,
                         acquires := bump s.acquires i }
          else .ok s
      | _ => .ok s
  | .acquireTimedOut =>
      match s.run with
      | .onNewTask _ _ .acquiring => .ok { s with run := .receiving }
      | _ => .ok s
  | .loadOrStore =>
      match s.run with
      | .onNewTask i task .storing =>
          -- `ErrRuntimeClosed` and `ErrRuntimeDuplicateTaskID` return an error, and the
          -- deferred handler of `onNewTask` releases the permit
          if s.canceled then { s with run := .receiving }.release i
          else
            match s.tasks.lookup task.runnable.id with
            | some _ => { s with run := .receiving }.release i
            | none =>
                .ok { s with run := .onNewTask i task .incrementing,
                             tasks := s.tasks.insert task.runnable.id i }
      | _ => .ok s
  | .inc =>
      match s.run with
      | .onNewTask i task .incrementing =>
          .ok { s with run := .onNewTask i task .launching, taskCount := s.taskCount + 1 }
      | _ => .ok s
  | .launch =>
      match s.run with
      | .onNewTask i task .launching =>
          .ok { s.setThread i ⟨task, .taskSubmitted, .runInit⟩ with
                run := .receiving, wg := s.wg + 1 }
      | _ => .ok s
  | .cancelAll =>
      match s.run with
      | .cancelling =>
          if s.canceled then .ok { s with run := .stopped }
          else .ok { s with run := .waiting, canceled := true }
      | _ => .ok s
  | .waitDone =>
      match s.run with
      | .waiting => if s.wg = 0 then .ok { s with run := .stopped } else .ok s
      | _ => .ok s
  | .runInit i initOk =>
      s.atThread i .runInit fun t =>
        if initOk then
          -- `OnInitialized` swaps the status to `TaskRunning`
          if t.status = .taskSubmitted then
            (s.setThread i { t with status := .taskRunning, pc := .eventLoop }).release i
          else .error (.unexpectedStatus t.status)
        else (s.setThread i { t with pc := .closing }).release i
  | .eventLoopReturns i =>
      s.atThread i .eventLoop fun t => .ok (s.setThread i { t with pc := .closing })
  | .onStopped i =>
      s.atThread i .closing fun t =>
        if t.status = .taskRunning ∨ t.status = .taskSubmitted then
          .ok (s.setThread i { t with status := .taskClosing, pc := .deleting })
        else .error (.unexpectedStatus t.status)
  | .loadAndDelete i =>
      s.atThread i .deleting fun t =>
        match s.tasks.lookup t.task.runnable.id with
        | some _ =>
            .ok { s.setThread i { t with pc := .decrementing } with
                  tasks := s.tasks.erase t.task.runnable.id }
        | none => .error (.taskDoesNotExist t.task.runnable.id)
  | .dec i =>
      s.atThread i .decrementing fun t =>
        .ok { s.setThread i { t with pc := .leaving } with taskCount := s.taskCount - 1 }
  | .done i =>
      s.atThread i .leaving fun t =>
        if s.wg = 0 then .error .negativeWaitGroupCounter
        else .ok { s.setThread i { t with pc := .finished } with wg := s.wg - 1 }

-- Many proofs below unfold this definition, and Lean elaborates them in parallel: the empty
-- section generates its equation lemmas here, once, so that the proofs do not all wait on it.
-- The simp set outside the section is unchanged.
section
attribute [local simp] step
end

/-- Every statement may run at any time; one whose goroutine is elsewhere changes nothing. -/
def allowed (_ : State) (_ : Action) : Bool :=
  true

/-! ## Where each arrival stands -/

/-- Where the task of an arrival stands: not in `onNewTask` nor in a goroutine (it has not
arrived, or `onNewTask` turned it away), at a statement of `onNewTask`, or in its goroutine. -/
inductive Phase
  | idle
  | onNewTask (pc : NewTaskPc)
  | goroutine (pc : TaskPc)
  deriving DecidableEq, Repr

namespace Phase

/-- The arrival holds a permit of `initQuotaSema` that has not been released. -/
def owes : Phase → Bool
  | .onNewTask .acquiring => false
  | .onNewTask _ => true
  | .goroutine .runInit => true
  | _ => false

/-- The arrival's entry is in `tasks`. -/
def inMap : Phase → Bool
  | .onNewTask .incrementing | .onNewTask .launching => true
  | .goroutine .runInit | .goroutine .eventLoop | .goroutine .closing
  | .goroutine .deleting => true
  | _ => false

/-- `taskCount` counts the arrival. -/
def counted : Phase → Bool
  | .onNewTask .launching => true
  | .goroutine .leaving | .goroutine .finished => false
  | .goroutine _ => true
  | _ => false

/-- The `WaitGroup` counts the arrival's goroutine. -/
def live : Phase → Bool
  | .goroutine .finished => false
  | .goroutine _ => true
  | _ => false

section
attribute [local simp] owes inMap counted live
end

end Phase

/-- The phase of a goroutine slot. -/
def threadPhase : Option TaskThread → Phase
  | some t => .goroutine t.pc
  | none => .idle

/-- Where the task of arrival `j` stands. -/
def State.phase (s : State) (j : Nat) : Phase :=
  match s.run with
  | .onNewTask i _ pc => if i = j then .onNewTask pc else threadPhase (s.thread j)
  | _ => threadPhase (s.thread j)

section
attribute [local simp] State.phase
end

/-- The container of arrival `j`, while `onNewTask` or a goroutine has it. -/
def State.taskAt (s : State) (j : Nat) : Option RunnableContainer :=
  match s.run with
  | .onNewTask i task _ => if i = j then some task else (s.thread j).map (·.task)
  | _ => (s.thread j).map (·.task)

/-- The ID under which `tasks` should hold the entry of arrival `j`. -/
def State.entry (s : State) (j : Nat) : Option RunnableID :=
  if (s.phase j).inMap then (s.taskAt j).map (·.runnable.id) else none

/-- The statuses a container can have at each statement of its goroutine. -/
def statusFits : TaskPc → RunnableStatus → Prop
  | .runInit, st => st = .taskSubmitted
  | .eventLoop, st => st = .taskRunning
  | .closing, st => st = .taskSubmitted ∨ st = .taskRunning
  | _, st => st = .taskClosing

theorem phase_of_run {s : State} {i : Nat} {task : RunnableContainer} {pc : NewTaskPc}
    (h : s.run = .onNewTask i task pc) : s.phase i = .onNewTask pc := by
  simp [State.phase, h]

theorem taskAt_of_run {s : State} {i : Nat} {task : RunnableContainer} {pc : NewTaskPc}
    (h : s.run = .onNewTask i task pc) : s.taskAt i = some task := by
  simp [State.taskAt, h]

/-- Away from the arrival `Run` works on, the phase is the goroutine's. -/
theorem phase_of_thread {s : State} {j : Nat}
    (h : ∀ i task pc, s.run = .onNewTask i task pc → i ≠ j) :
    s.phase j = threadPhase (s.thread j) := by
  unfold State.phase
  split
  · next i task pc hrun => simp [h i task pc hrun]
  · rfl

theorem taskAt_of_thread {s : State} {j : Nat}
    (h : ∀ i task pc, s.run = .onNewTask i task pc → i ≠ j) :
    s.taskAt j = (s.thread j).map (·.task) := by
  unfold State.taskAt
  split
  · next i task pc hrun => simp [h i task pc hrun]
  · rfl

/-! ## The invariant -/

/-- The counters of the runner agree with the views of the arrivals. -/
structure Counts (s : State) : Prop where
  /-- A permit of an arrival is released, or still owed, never both. -/
  balance : ∀ j, s.releases j + (s.phase j).owes.toNat = s.acquires j
  held : s.held = (List.range s.arrivals).countP fun j => (s.phase j).owes
  taskCount : s.taskCount = ((List.range s.arrivals).countP fun j => (s.phase j).counted : Nat)
  wg : s.wg = (List.range s.arrivals).countP fun j => (s.phase j).live

/-- The invariant of the runner. -/
structure Inv (s : State) : Prop extends Counts s where
  beyond : ∀ j, s.arrivals ≤ j → s.thread j = none ∧ s.acquires j = 0
  /-- `Run` works on the latest arrival, which has no goroutine yet. -/
  current : ∀ i task pc, s.run = .onNewTask i task pc → i + 1 = s.arrivals ∧ s.thread i = none
  acquiring : ∀ i task, s.run = .onNewTask i task .acquiring → s.acquires i = 0
  acquires_le : ∀ j, s.acquires j ≤ 1
  entries : ∀ id j, s.tasks.lookup id = some j ↔ s.entry j = some id
  status : ∀ j t, s.thread j = some t → statusFits t.pc t.status
  canceled : s.canceled = true ↔ s.run = .waiting ∨ s.run = .stopped
  stopped : s.run = .stopped → s.wg = 0

theorem inv_init (initConcurrency : Nat) : Inv (init initConcurrency) where
  beyond _ _ := ⟨rfl, rfl⟩
  current _ _ _ h := by cases h
  acquiring _ _ h := by cases h
  acquires_le _ := Nat.zero_le _
  balance j := by simp [init, State.phase, threadPhase, Phase.owes]
  held := by simp [init]
  entries id j := by simp [init, State.entry, State.phase, threadPhase, Phase.inMap]
  taskCount := by simp [init]
  wg := by simp [init]
  status _ _ h := by cases h
  canceled := by simp [init]
  stopped h := by cases h

/-! ## Moving one arrival -/

theorem phase_congr {s s' : State} (hrun : s'.run = s.run) (hthread : s'.thread = s.thread) :
    s'.phase = s.phase := by
  funext j
  simp only [State.phase, hrun, hthread]

theorem taskAt_congr {s s' : State} (hrun : s'.run = s.run) (hthread : s'.thread = s.thread) :
    s'.taskAt = s.taskAt := by
  funext j
  simp only [State.taskAt, hrun, hthread]

theorem entry_congr {s s' : State} (hrun : s'.run = s.run) (hthread : s'.thread = s.thread) :
    s'.entry = s.entry := by
  funext j
  simp only [State.entry, phase_congr hrun hthread, taskAt_congr hrun hthread]

/-- An arrival with a goroutine is not the one `Run` works on. -/
theorem run_ne_of_thread {s : State} (hs : Inv s) {i : Nat} {t : TaskThread}
    (ht : s.thread i = some t) : ∀ i' task pc, s.run = .onNewTask i' task pc → i' ≠ i := by
  rintro i' task pc hrun rfl
  simp [(hs.current i' task pc hrun).2] at ht

theorem lt_of_thread {s : State} (hs : Inv s) {i : Nat} {t : TaskThread}
    (ht : s.thread i = some t) : i < s.arrivals := by
  by_contra hi
  simp [(hs.beyond i (by omega)).1] at ht

theorem phase_setThread {s : State} {i : Nat} (t : TaskThread)
    (hne : ∀ i' task pc, s.run = .onNewTask i' task pc → i' ≠ i) (j : Nat) :
    (s.setThread i t).phase j = if j = i then .goroutine t.pc else s.phase j := by
  by_cases hj : j = i
  · subst hj
    rw [if_pos rfl, phase_of_thread (s := s.setThread j t) hne]
    simp [State.setThread, threadPhase]
  · simp [State.phase, State.setThread, hj]

theorem taskAt_setThread {s : State} {i : Nat} (t : TaskThread)
    (hne : ∀ i' task pc, s.run = .onNewTask i' task pc → i' ≠ i) (j : Nat) :
    (s.setThread i t).taskAt j = if j = i then some t.task else s.taskAt j := by
  by_cases hj : j = i
  · subst hj
    rw [if_pos rfl, taskAt_of_thread (s := s.setThread j t) hne]
    simp [State.setThread]
  · simp [State.taskAt, State.setThread, hj]

/-- `Run` goes on with arrival `i` within `onNewTask`: that arrival alone changes phase. -/
theorem phase_of_newTask_step {s s' : State} {i : Nat} {task : RunnableContainer}
    {pc pc' : NewTaskPc} (hrun : s.run = .onNewTask i task pc)
    (hrun' : s'.run = .onNewTask i task pc') (hthread : s'.thread = s.thread) (j : Nat) :
    s'.phase j = if j = i then .onNewTask pc' else s.phase j := by
  by_cases hj : j = i
  · subst hj
    simp [State.phase, hrun']
  · simp [State.phase, hrun, hrun', hthread, Ne.symm hj, hj]

theorem taskAt_of_newTask_step {s s' : State} {i : Nat} {task : RunnableContainer}
    {pc pc' : NewTaskPc} (hrun : s.run = .onNewTask i task pc)
    (hrun' : s'.run = .onNewTask i task pc') (hthread : s'.thread = s.thread) (j : Nat) :
    s'.taskAt j = s.taskAt j := by
  simp [State.taskAt, hrun, hrun', hthread]

/-- `onNewTask` returns for arrival `i`, which has no goroutine: the arrival is idle again. -/
theorem phase_of_newTask_return {s s' : State} {i : Nat} {task : RunnableContainer}
    {pc : NewTaskPc} (hrun : s.run = .onNewTask i task pc) (hrun' : s'.run = .receiving)
    (hthread : s'.thread = s.thread) (hnone : s.thread i = none) (j : Nat) :
    s'.phase j = if j = i then .idle else s.phase j := by
  by_cases hj : j = i
  · subst hj
    simp [State.phase, hrun', hthread, hnone, threadPhase]
  · simp [State.phase, hrun, hrun', hthread, Ne.symm hj, hj]

theorem taskAt_of_newTask_return {s s' : State} {i : Nat} {task : RunnableContainer}
    {pc : NewTaskPc} (hrun : s.run = .onNewTask i task pc) (hrun' : s'.run = .receiving)
    (hthread : s'.thread = s.thread) (j : Nat) (hj : j ≠ i) : s'.taskAt j = s.taskAt j := by
  simp [State.taskAt, hrun, hrun', hthread, Ne.symm hj]

/-- A step that moves arrival `i` alone to phase `p` moves the count of each view by the
change of the view at `i`. -/
theorem countP_phase_update {s s' : State} {i : Nat} {p : Phase} (v : Phase → Bool)
    (hi : i < s.arrivals) (harr : s'.arrivals = s.arrivals)
    (hph : ∀ j, s'.phase j = if j = i then p else s.phase j) :
    ((List.range s'.arrivals).countP fun j => v (s'.phase j)) + (v (s.phase i)).toNat =
      ((List.range s.arrivals).countP fun j => v (s.phase j)) + (v p).toNat := by
  have hp : s'.phase i = p := by simp [hph]
  rw [harr, ← hp]
  exact Count.countP_range_update (p := fun j => v (s.phase j)) (q := fun j => v (s'.phase j)) hi
    fun j hj => by simp [hph, hj]

/-- The counters after a step that moves arrival `i` alone to phase `p`, each counter moving
by the change of its view at `i`. -/
theorem counts_of_move {s s' : State} {i : Nat} {p : Phase} (hs : Counts s)
    (hi : i < s.arrivals) (harr : s'.arrivals = s.arrivals)
    (hph : ∀ j, s'.phase j = if j = i then p else s.phase j)
    (hacq : ∀ j, j ≠ i → s'.acquires j = s.acquires j)
    (hrel : ∀ j, j ≠ i → s'.releases j = s.releases j)
    (hbal : s'.releases i + p.owes.toNat = s'.acquires i)
    (hheld : s'.held + (s.phase i).owes.toNat = s.held + p.owes.toNat)
    (htc : s'.taskCount + ((s.phase i).counted.toNat : Int) =
      s.taskCount + (p.counted.toNat : Int))
    (hwg : s'.wg + (s.phase i).live.toNat = s.wg + p.live.toNat) : Counts s' where
  balance j := by
    by_cases hj : j = i
    · subst hj
      simpa [hph] using hbal
    · rw [hph j, if_neg hj, hacq j hj, hrel j hj]
      exact hs.balance j
  held := by
    have hc := countP_phase_update Phase.owes hi harr hph
    have := hs.held
    omega
  taskCount := by
    have hc := countP_phase_update Phase.counted hi harr hph
    have := hs.taskCount
    omega
  wg := by
    have hc := countP_phase_update Phase.live hi harr hph
    have := hs.wg
    omega

/-- A move of arrival `i` that takes no permit and gives none back: the balance and `held`
stay, and the task count and the wait group move by their views. -/
theorem Counts.of_move_keeping_permit {s s' : State} {i : Nat} {p : Phase} (hs : Counts s)
    (hi : i < s.arrivals) (harr : s'.arrivals = s.arrivals)
    (hph : ∀ j, s'.phase j = if j = i then p else s.phase j)
    (hacq : s'.acquires = s.acquires) (hrel : s'.releases = s.releases)
    (howes : p.owes = (s.phase i).owes) (hheld : s'.held = s.held)
    (htc : s'.taskCount + ((s.phase i).counted.toNat : Int) =
      s.taskCount + (p.counted.toNat : Int))
    (hwg : s'.wg + (s.phase i).live.toNat = s.wg + p.live.toNat) : Counts s' :=
  counts_of_move hs hi harr hph (fun j _ => by rw [hacq]) (fun j _ => by rw [hrel])
    (by rw [hacq, hrel, howes]; exact hs.balance i) (by rw [hheld, howes]) htc hwg

/-- The entries `tasks` should hold stay when the arrival that moves keeps whether it has
one, and keeps its task while it has one. -/
theorem entry_eq_of_move {s s' : State} {i : Nat} {p : Phase}
    (hph : ∀ j, s'.phase j = if j = i then p else s.phase j)
    (hta : ∀ j, j ≠ i → s'.taskAt j = s.taskAt j) (hin : p.inMap = (s.phase i).inMap)
    (htask : (s.phase i).inMap = true → s'.taskAt i = s.taskAt i) (j : Nat) :
    s'.entry j = s.entry j := by
  unfold State.entry
  by_cases hj : j = i
  · subst hj
    rw [hph, if_pos rfl, hin]
    split
    · next hm => rw [htask hm]
    · rfl
  · rw [hph, if_neg hj, hta j hj]

theorem canceled_eq_false {s : State} (hs : Inv s)
    (hrun : s.run ≠ .waiting ∧ s.run ≠ .stopped) :
    s.canceled = false := by
  cases hc : s.canceled
  · rfl
  · rcases hs.canceled.1 hc with h | h
    · exact absurd h hrun.1
    · exact absurd h hrun.2

/-! ## The statements of `Run` -/

section Run

variable {s s' : State}

theorem inv_receive (hs : Inv s) (hrun : s.run = .receiving) (task : RunnableContainer)
    (hs' : s' = { s with run := .onNewTask s.arrivals task .acquiring,
                         arrivals := s.arrivals + 1 }) : Inv s' := by
  obtain ⟨hnone, hacq⟩ := hs.beyond s.arrivals le_rfl
  have hne : ∀ i task pc, s.run = .onNewTask i task pc → i ≠ s.arrivals := by simp [hrun]
  have hidle : s.phase s.arrivals = .idle := by
    rw [phase_of_thread hne, hnone]
    rfl
  have hph : ∀ j, s'.phase j = if j = s.arrivals then .onNewTask .acquiring else s.phase j := by
    intro j
    subst hs'
    by_cases hj : j = s.arrivals
    · simp [State.phase, hj]
    · simp [State.phase, hrun, hj, Ne.symm hj]
  have hta : ∀ j, j ≠ s.arrivals → s'.taskAt j = s.taskAt j := by
    intro j hj
    subst hs'
    simp [State.taskAt, hrun, Ne.symm hj]
  have harr : s'.arrivals = s.arrivals + 1 := by rw [hs']
  -- the new arrival has none of the views, so each count stays
  have hcount : ∀ v : Phase → Bool, v (.onNewTask .acquiring) = false →
      ((List.range s'.arrivals).countP fun j => v (s'.phase j)) =
        (List.range s.arrivals).countP fun j => v (s.phase j) := by
    intro v hv
    rw [harr, Count.countP_range_succ, hph s.arrivals, if_pos rfl, hv, Bool.toNat_false,
      Nat.add_zero]
    exact Count.countP_range_congr fun j hj => by rw [hph, if_neg (Nat.ne_of_lt hj)]
  have hentry : ∀ j, s'.entry j = s.entry j :=
    entry_eq_of_move hph hta (by rw [hidle]; rfl) (by rw [hidle]; simp [Phase.inMap])
  have hcan := canceled_eq_false hs (by simp [hrun])
  have hbal := hs.balance s.arrivals
  rw [hidle] at hbal
  subst hs'
  exact {
    balance := fun j => by
      rw [hph j]
      split
      · next hj =>
          subst hj
          simpa [Phase.owes] using hbal
      · exact hs.balance j
    held := by rw [hcount Phase.owes rfl]; exact hs.held
    taskCount := by rw [hcount Phase.counted rfl]; exact hs.taskCount
    wg := by rw [hcount Phase.live rfl]; exact hs.wg
    beyond := fun j hj => hs.beyond j (Nat.le_of_succ_le hj)
    current := fun i t pc h => by
      cases h
      exact ⟨rfl, hnone⟩
    acquiring := fun i t h => by
      cases h
      exact hacq
    acquires_le := hs.acquires_le
    entries := fun id j => by
      rw [hentry]
      exact hs.entries id j
    status := hs.status
    canceled := by simp [hcan]
    stopped := fun h => by cases h }

/-- `Run` leaves the loop, and `cancelAll` runs up to and past `wg.Wait`: statements of `Run`
that touch no arrival. -/
theorem inv_setRun (hs : Inv s) {r : RunPc} {c : Bool}
    (hs' : s' = { s with run := r, canceled := c })
    (hrun : ∀ i task pc, s.run ≠ .onNewTask i task pc)
    (hr : ∀ i task pc, r ≠ .onNewTask i task pc)
    (hc : c = true ↔ r = .waiting ∨ r = .stopped) (hstop : r = .stopped → s.wg = 0) :
    Inv s' := by
  have hph : s'.phase = s.phase := by
    funext j
    rw [hs', phase_of_thread (fun i task pc h => absurd h (hr i task pc)),
      phase_of_thread (fun i task pc h => absurd h (hrun i task pc))]
  have hta : s'.taskAt = s.taskAt := by
    funext j
    rw [hs', taskAt_of_thread (fun i task pc h => absurd h (hr i task pc)),
      taskAt_of_thread (fun i task pc h => absurd h (hrun i task pc))]
  have hentry : s'.entry = s.entry := by
    funext j
    simp only [State.entry, hph, hta]
  subst hs'
  exact {
    balance := fun j => by rw [hph]; exact hs.balance j
    held := by rw [hph]; exact hs.held
    taskCount := by rw [hph]; exact hs.taskCount
    wg := by rw [hph]; exact hs.wg
    beyond := hs.beyond
    current := fun i task pc h => absurd h (hr i task pc)
    acquiring := fun i task h => absurd h (hr i task .acquiring)
    acquires_le := hs.acquires_le
    entries := fun id j => by rw [hentry]; exact hs.entries id j
    status := hs.status
    canceled := hc
    stopped := hstop }

/-- `initQuotaSema.Acquire` succeeds: `Run` now holds a permit for its arrival. -/
theorem inv_acquire (hs : Inv s) {i : Nat} {task : RunnableContainer}
    (hrun : s.run = .onNewTask i task .acquiring)
    (hs' : s' = { s with run := .onNewTask i task .storing, held := s.held + 1,
                         acquires := bump s.acquires i }) : Inv s' := by
  obtain ⟨hi, hnone⟩ := hs.current i task .acquiring hrun
  have hph : ∀ j, s'.phase j = if j = i then .onNewTask .storing else s.phase j :=
    phase_of_newTask_step hrun (by rw [hs']) (by rw [hs'])
  have hta : ∀ j, s'.taskAt j = s.taskAt j :=
    taskAt_of_newTask_step hrun (by rw [hs']) (by rw [hs'])
  have hacq := hs.acquiring i task hrun
  have hbal := hs.balance i
  rw [phase_of_run hrun] at hbal
  have hold := phase_of_run hrun
  subst hs'
  exact {
    toCounts := counts_of_move hs.toCounts (by omega) rfl hph
      (fun j hj => by simp [bump, hj]) (fun _ _ => rfl)
      (by simp [bump, Phase.owes] at hbal ⊢; omega)
      (by simp [hold, Phase.owes]) (by simp [hold, Phase.counted]) (by simp [hold, Phase.live])
    beyond := fun j hj => by
      change s.arrivals ≤ j at hj
      simpa [bump, show j ≠ i by omega] using hs.beyond j hj
    current := fun i' t pc h => by
      cases h
      exact ⟨hi, hnone⟩
    acquiring := fun _ _ h => by cases h
    acquires_le := fun j => by
      by_cases hj : j = i
      · simp [bump, hj, hacq]
      · simpa [bump, hj] using hs.acquires_le j
    entries := fun id j => by
      rw [entry_eq_of_move hph (fun j _ => hta j) (by rw [hold]; rfl) (fun _ => hta i)]
      exact hs.entries id j
    status := hs.status
    canceled := by simpa [hrun] using hs.canceled
    stopped := fun h => by cases h }

/-- `Acquire` fails (the queuing timeout, or the runner's context): `onNewTask` returns and the
arrival is turned away holding nothing. -/
theorem inv_acquireTimedOut (hs : Inv s) {i : Nat} {task : RunnableContainer}
    (hrun : s.run = .onNewTask i task .acquiring) (hs' : s' = { s with run := .receiving }) :
    Inv s' := by
  obtain ⟨hi, hnone⟩ := hs.current i task .acquiring hrun
  have hph : ∀ j, s'.phase j = if j = i then .idle else s.phase j :=
    phase_of_newTask_return hrun (by rw [hs']) (by rw [hs']) hnone
  have hta : ∀ j, j ≠ i → s'.taskAt j = s.taskAt j :=
    taskAt_of_newTask_return hrun (by rw [hs']) (by rw [hs'])
  have hold := phase_of_run hrun
  subst hs'
  exact {
    toCounts := hs.toCounts.of_move_keeping_permit (by omega) rfl hph rfl rfl
      (by simp [hold, Phase.owes]) rfl (by simp [hold, Phase.counted]) (by simp [hold, Phase.live])
    beyond := hs.beyond
    current := fun _ _ _ h => by cases h
    acquiring := fun _ _ h => by cases h
    acquires_le := hs.acquires_le
    entries := fun id j => by
      rw [entry_eq_of_move hph hta (by rw [hold]; rfl) (by simp [hold, Phase.inMap])]
      exact hs.entries id j
    status := hs.status
    canceled := by simpa [hrun] using hs.canceled
    stopped := fun h => by cases h }

/-- `onNewTask` returns `ErrRuntimeClosed` or `ErrRuntimeDuplicateTaskID`, and its deferred
handler releases the permit. -/
theorem inv_reject (hs : Inv s) {i : Nat} {task : RunnableContainer}
    (hrun : s.run = .onNewTask i task .storing) (hheld : s.held ≠ 0)
    (hs' : s' = { s with run := .receiving, held := s.held - 1,
                         releases := bump s.releases i }) : Inv s' := by
  obtain ⟨hi, hnone⟩ := hs.current i task .storing hrun
  have hph : ∀ j, s'.phase j = if j = i then .idle else s.phase j :=
    phase_of_newTask_return hrun (by rw [hs']) (by rw [hs']) hnone
  have hta : ∀ j, j ≠ i → s'.taskAt j = s.taskAt j :=
    taskAt_of_newTask_return hrun (by rw [hs']) (by rw [hs'])
  have hold := phase_of_run hrun
  have hbal := hs.balance i
  rw [hold] at hbal
  subst hs'
  exact {
    toCounts := counts_of_move hs.toCounts (by omega) rfl hph (fun _ _ => rfl)
      (fun j hj => by simp [bump, hj])
      (by simp [bump, Phase.owes] at hbal ⊢; omega)
      (by simp [hold, Phase.owes]; omega) (by simp [hold, Phase.counted])
      (by simp [hold, Phase.live])
    beyond := hs.beyond
    current := fun _ _ _ h => by cases h
    acquiring := fun _ _ h => by cases h
    acquires_le := hs.acquires_le
    entries := fun id j => by
      rw [entry_eq_of_move hph hta (by rw [hold]; rfl) (by simp [hold, Phase.inMap])]
      exact hs.entries id j
    status := hs.status
    canceled := by simpa [hrun] using hs.canceled
    stopped := fun h => by cases h }

/-- `tasks.LoadOrStore` stores the entry of the arrival under its task ID. -/
theorem inv_store (hs : Inv s) {i : Nat} {task : RunnableContainer}
    (hrun : s.run = .onNewTask i task .storing) (hfree : s.tasks.lookup task.runnable.id = none)
    (hs' : s' = { s with run := .onNewTask i task .incrementing,
                         tasks := s.tasks.insert task.runnable.id i }) : Inv s' := by
  obtain ⟨hi, hnone⟩ := hs.current i task .storing hrun
  have hph : ∀ j, s'.phase j = if j = i then .onNewTask .incrementing else s.phase j :=
    phase_of_newTask_step hrun (by rw [hs']) (by rw [hs'])
  have hta : ∀ j, s'.taskAt j = s.taskAt j :=
    taskAt_of_newTask_step hrun (by rw [hs']) (by rw [hs'])
  have hold := phase_of_run hrun
  -- the entry of arrival `i` is new; every other arrival keeps its entry
  have hentry : ∀ j, s'.entry j = if j = i then some task.runnable.id else s.entry j := by
    intro j
    by_cases hj : j = i
    · subst hj
      simp [State.entry, hph, hta, taskAt_of_run hrun, Phase.inMap]
    · simp [State.entry, hph, hta, hj]
  subst hs'
  exact {
    toCounts := hs.toCounts.of_move_keeping_permit (by omega) rfl hph rfl rfl
      (by simp [hold, Phase.owes]) rfl (by simp [hold, Phase.counted]) (by simp [hold, Phase.live])
    beyond := hs.beyond
    current := fun i' t pc h => by
      cases h
      exact ⟨hi, hnone⟩
    acquiring := fun _ _ h => by cases h
    acquires_le := hs.acquires_le
    entries := fun id j => by
      rw [hentry j]
      by_cases hid : id = task.runnable.id
      · -- the new key: no other arrival had an entry under it
        subst hid
        simp only [AList.lookup_insert, Option.some.injEq]
        constructor
        · rintro rfl
          simp
        · intro h
          by_contra hj
          rw [if_neg (Ne.symm hj)] at h
          simp [(hs.entries _ j).2 h] at hfree
      · rw [AList.lookup_insert_ne hid, hs.entries id j]
        by_cases hj : j = i
        · subst hj
          simp [State.entry, hold, Phase.inMap, Ne.symm hid]
        · simp [hj]
    status := hs.status
    canceled := by simpa [hrun] using hs.canceled
    stopped := fun h => by cases h }

/-- `taskCount.Inc`. -/
theorem inv_inc (hs : Inv s) {i : Nat} {task : RunnableContainer}
    (hrun : s.run = .onNewTask i task .incrementing)
    (hs' : s' = { s with run := .onNewTask i task .launching,
                         taskCount := s.taskCount + 1 }) : Inv s' := by
  obtain ⟨hi, hnone⟩ := hs.current i task .incrementing hrun
  have hph : ∀ j, s'.phase j = if j = i then .onNewTask .launching else s.phase j :=
    phase_of_newTask_step hrun (by rw [hs']) (by rw [hs'])
  have hta : ∀ j, s'.taskAt j = s.taskAt j :=
    taskAt_of_newTask_step hrun (by rw [hs']) (by rw [hs'])
  have hold := phase_of_run hrun
  subst hs'
  exact {
    toCounts := hs.toCounts.of_move_keeping_permit (by omega) rfl hph rfl rfl
      (by simp [hold, Phase.owes]) rfl (by simp [hold, Phase.counted]) (by simp [hold, Phase.live])
    beyond := hs.beyond
    current := fun i' t pc h => by
      cases h
      exact ⟨hi, hnone⟩
    acquiring := fun _ _ h => by cases h
    acquires_le := hs.acquires_le
    entries := fun id j => by
      rw [entry_eq_of_move hph (fun j _ => hta j) (by rw [hold]; rfl) (fun _ => hta i)]
      exact hs.entries id j
    status := hs.status
    canceled := by simpa [hrun] using hs.canceled
    stopped := fun h => by cases h }

/-- `wg.Add(1)` and the `go` statement: the arrival's goroutine starts at `runInit` with the
permit, the entry and the count `Run` had for it. -/
theorem inv_launch (hs : Inv s) {i : Nat} {task : RunnableContainer}
    (hrun : s.run = .onNewTask i task .launching)
    (hs' : s' = { s.setThread i ⟨task, .taskSubmitted, .runInit⟩ with
                  run := .receiving, wg := s.wg + 1 }) : Inv s' := by
  obtain ⟨hi, hnone⟩ := hs.current i task .launching hrun
  have hph : ∀ j, s'.phase j = if j = i then .goroutine .runInit else s.phase j := by
    intro j
    subst hs'
    by_cases hj : j = i
    · simp [State.phase, State.setThread, hj, threadPhase]
    · simp [State.phase, State.setThread, hrun, Ne.symm hj, hj]
  have hta : ∀ j, s'.taskAt j = s.taskAt j := by
    intro j
    subst hs'
    by_cases hj : j = i
    · simp [State.taskAt, State.setThread, hj, hrun]
    · simp [State.taskAt, State.setThread, hrun, Ne.symm hj, hj]
  have hold := phase_of_run hrun
  subst hs'
  exact {
    toCounts := hs.toCounts.of_move_keeping_permit (by omega) rfl hph rfl rfl
      (by simp [hold, Phase.owes]) rfl (by simp [hold, Phase.counted]) (by simp [hold, Phase.live])
    beyond := fun j hj => by
      change s.arrivals ≤ j at hj
      simpa [show j ≠ i by omega] using hs.beyond j hj
    current := fun _ _ _ h => by cases h
    acquiring := fun _ _ h => by cases h
    acquires_le := hs.acquires_le
    entries := fun id j => by
      rw [entry_eq_of_move hph (fun j _ => hta j) (by rw [hold]; rfl) (fun _ => hta i)]
      exact hs.entries id j
    status := fun j t h => by
      by_cases hj : j = i
      · subst hj
        simp at h
        subst h
        rfl
      · simp [hj] at h
        exact hs.status j t h
    canceled := by
      have := canceled_eq_false hs (by simp [hrun])
      simp [this]
    stopped := fun h => by cases h }

end Run

/-! ## The statements of the task goroutines -/

theorem atThread_eq_ok {s s' : State} {i : Nat} {pc : TaskPc}
    {f : TaskThread → Except Panic State} (h : s.atThread i pc f = .ok s') :
    s' = s ∨ ∃ t, s.thread i = some t ∧ t.pc = pc ∧ f t = .ok s' := by
  unfold State.atThread at h
  split at h
  · next t ht =>
      split at h
      · next hpc => exact .inr ⟨t, ht, hpc, h⟩
      · exact .inl (Except.ok.inj h).symm
  · exact .inl (Except.ok.inj h).symm

theorem atThread_eq_error {s : State} {i : Nat} {pc : TaskPc}
    {f : TaskThread → Except Panic State} {e : Panic} (h : s.atThread i pc f = .error e) :
    ∃ t, s.thread i = some t ∧ t.pc = pc ∧ f t = .error e := by
  unfold State.atThread at h
  split at h
  · next t ht =>
      split at h
      · next hpc => exact ⟨t, ht, hpc, h⟩
      · cases h
  · cases h

theorem release_eq_ok {s s' : State} {i : Nat} (h : s.release i = .ok s') :
    s.held ≠ 0 ∧ s' = { s with held := s.held - 1, releases := bump s.releases i } := by
  unfold State.release at h
  split at h
  · cases h
  · next hheld => exact ⟨hheld, (Except.ok.inj h).symm⟩

theorem held_eq_zero_of_release {s : State} {i : Nat} {e : Panic} (h : s.release i = .error e) :
    s.held = 0 := by
  unfold State.release at h
  split at h
  · assumption
  · cases h

section Goroutine

variable {s s' : State}

/-- A statement of the goroutine of arrival `i` that moves it from `t` to `t'` keeps the
invariant when the shared fields move with the views of its phase. -/
theorem inv_threadMove (hs : Inv s) {i : Nat} {t t' : TaskThread}
    (ht : s.thread i = some t)
    {tasks' : AList fun _ : RunnableID => Nat} {tc' : Int} {wg' held' : Nat} {rel' : Nat → Nat}
    (hs' : s' = { s.setThread i t' with
                  tasks := tasks', taskCount := tc', wg := wg', held := held', releases := rel' })
    (hlive : (Phase.goroutine t.pc).live = true) (hfits : statusFits t'.pc t'.status)
    (hrel : ∀ j, j ≠ i → rel' j = s.releases j)
    (hbal : rel' i + (Phase.goroutine t'.pc).owes.toNat =
      s.releases i + (Phase.goroutine t.pc).owes.toNat)
    (hheld : held' + (Phase.goroutine t.pc).owes.toNat =
      s.held + (Phase.goroutine t'.pc).owes.toNat)
    (htc : tc' + ((Phase.goroutine t.pc).counted.toNat : Int) =
      s.taskCount + ((Phase.goroutine t'.pc).counted.toNat : Int))
    (hwg : wg' + (Phase.goroutine t.pc).live.toNat = s.wg + (Phase.goroutine t'.pc).live.toNat)
    (hentries : ∀ id j, tasks'.lookup id = some j ↔ (s.setThread i t').entry j = some id) :
    Inv s' := by
  have hne := run_ne_of_thread hs ht
  have hi := lt_of_thread hs ht
  have hold : s.phase i = .goroutine t.pc := by
    rw [phase_of_thread hne, ht]
    rfl
  have hph : ∀ j, s'.phase j = if j = i then .goroutine t'.pc else s.phase j := by
    intro j
    subst hs'
    exact phase_setThread t' hne j
  have hbal' := hs.balance i
  rw [hold] at hbal'
  have hwg0 : 0 < s.wg := by
    rw [hs.wg]
    exact Count.countP_range_pos hi (by rw [hold]; exact hlive)
  subst hs'
  exact {
    toCounts := counts_of_move hs.toCounts hi rfl hph (fun _ _ => rfl) hrel (by simp; omega)
      (by rw [hold]; exact hheld) (by rw [hold]; exact htc) (by rw [hold]; exact hwg)
    beyond := fun j hj => by
      change s.arrivals ≤ j at hj
      simpa [show j ≠ i by omega] using hs.beyond j hj
    current := fun i' task pc h => by
      obtain ⟨harr, hnone⟩ := hs.current i' task pc h
      exact ⟨harr, by simpa [hne i' task pc h] using hnone⟩
    acquiring := hs.acquiring
    acquires_le := hs.acquires_le
    entries := hentries
    status := fun j t'' h => by
      by_cases hj : j = i
      · subst hj
        simp at h
        exact h ▸ hfits
      · simp [hj] at h
        exact hs.status j t'' h
    canceled := hs.canceled
    stopped := fun h => by
      have := hs.stopped h
      omega }

/-- A move of a goroutine that keeps its task and whether it has an entry keeps the entries. -/
theorem entries_setThread (hs : Inv s) {i : Nat} {t t' : TaskThread} (ht : s.thread i = some t)
    (htask : t'.task = t.task)
    (hin : (Phase.goroutine t'.pc).inMap = (Phase.goroutine t.pc).inMap) (id : RunnableID)
    (j : Nat) : s.tasks.lookup id = some j ↔ (s.setThread i t').entry j = some id := by
  have hne := run_ne_of_thread hs ht
  have hold : s.phase i = .goroutine t.pc := by
    rw [phase_of_thread hne, ht]
    rfl
  rw [entry_eq_of_move (phase_setThread t' hne) (fun j hj => by simp [taskAt_setThread t' hne, hj])
    (by rw [hold, hin])
    (fun _ => by simp [taskAt_setThread t' hne, taskAt_of_thread hne, ht, htask])]
  exact hs.entries id j

/-- `runInit`: `Init` returns an error or panics, or it succeeds and `OnInitialized` marks the
task running; either way the deferred handler releases the permit. -/
theorem inv_runInit (hs : Inv s) {i : Nat} {initOk : Bool}
    (h : step s (.runInit i initOk) = .ok s') : Inv s' := by
  rcases atThread_eq_ok h with rfl | ⟨t, ht, hpc, h⟩
  · exact hs
  have hsub : t.status = .taskSubmitted := by
    have := hs.status i t ht
    rwa [hpc] at this
  cases initOk with
  | false =>
      obtain ⟨hheld, hs'⟩ := release_eq_ok h
      exact inv_threadMove hs ht hs' (by rw [hpc]; rfl) (Or.inl hsub)
        (fun j hj => by simp [bump, hj]) (by simp [bump, hpc, Phase.owes])
        (by simp [hpc, Phase.owes] at hheld ⊢; omega) (by simp [hpc, Phase.counted])
        (by simp [hpc, Phase.live]) (entries_setThread hs ht rfl (by rw [hpc]; rfl))
  | true =>
      simp only [hsub, if_true] at h
      obtain ⟨hheld, hs'⟩ := release_eq_ok h
      exact inv_threadMove hs ht hs' (by rw [hpc]; rfl) rfl
        (fun j hj => by simp [bump, hj]) (by simp [bump, hpc, Phase.owes])
        (by simp [hpc, Phase.owes] at hheld ⊢; omega) (by simp [hpc, Phase.counted])
        (by simp [hpc, Phase.live]) (entries_setThread hs ht rfl (by rw [hpc]; rfl))

/-- `EventLoop` returns: its context was cancelled, or `Poll` failed. -/
theorem inv_eventLoopReturns (hs : Inv s) {i : Nat}
    (h : step s (.eventLoopReturns i) = .ok s') : Inv s' := by
  rcases atThread_eq_ok h with rfl | ⟨t, ht, hpc, h⟩
  · exact hs
  have hrunning : t.status = .taskRunning := by
    have := hs.status i t ht
    rwa [hpc] at this
  exact inv_threadMove hs ht (Except.ok.inj h).symm (by rw [hpc]; rfl) (Or.inr hrunning)
    (fun _ _ => rfl) (by simp [hpc, Phase.owes]) (by simp [hpc, Phase.owes])
    (by simp [hpc, Phase.counted]) (by simp [hpc, Phase.live])
    (entries_setThread hs ht rfl (by rw [hpc]; rfl))

/-- `Close` and `OnStopped` in the deferred closure: the status becomes `TaskClosing`. -/
theorem inv_onStopped (hs : Inv s) {i : Nat} (h : step s (.onStopped i) = .ok s') : Inv s' := by
  rcases atThread_eq_ok h with rfl | ⟨t, ht, hpc, h⟩
  · exact hs
  have hst : t.status = .taskRunning ∨ t.status = .taskSubmitted := by
    have := hs.status i t ht
    rw [hpc] at this
    exact this.symm
  simp only [hst, if_true] at h
  exact inv_threadMove hs ht (Except.ok.inj h).symm (by rw [hpc]; rfl) rfl (fun _ _ => rfl)
    (by simp [hpc, Phase.owes]) (by simp [hpc, Phase.owes]) (by simp [hpc, Phase.counted])
    (by simp [hpc, Phase.live]) (entries_setThread hs ht rfl (by rw [hpc]; rfl))

/-- The entry `tasks` holds for a goroutine in its deferred closure is its own. -/
theorem lookup_of_deleting (hs : Inv s) {i : Nat} {t : TaskThread} (ht : s.thread i = some t)
    (hpc : t.pc = .deleting) : s.tasks.lookup t.task.runnable.id = some i := by
  have hne := run_ne_of_thread hs ht
  rw [hs.entries]
  simp [State.entry, phase_of_thread hne, taskAt_of_thread hne, ht, threadPhase, hpc,
    Phase.inMap]

/-- `tasks.LoadAndDelete` removes the goroutine's entry. -/
theorem inv_loadAndDelete (hs : Inv s) {i : Nat} (h : step s (.loadAndDelete i) = .ok s') :
    Inv s' := by
  rcases atThread_eq_ok h with rfl | ⟨t, ht, hpc, h⟩
  · exact hs
  have hne := run_ne_of_thread hs ht
  have hlook := lookup_of_deleting hs ht hpc
  simp only [hlook] at h
  have hclosing : t.status = .taskClosing := by
    have := hs.status i t ht
    rwa [hpc] at this
  -- after the move, arrival `i` has no entry and every other arrival keeps its own
  have hentry : ∀ j, (s.setThread i { t with pc := .decrementing }).entry j =
      if j = i then none else s.entry j := by
    intro j
    by_cases hj : j = i
    · simp [State.entry, phase_setThread _ hne, hj, Phase.inMap]
    · simp [State.entry, phase_setThread _ hne, taskAt_setThread _ hne, hj]
  refine inv_threadMove hs ht (Except.ok.inj h).symm (by rw [hpc]; rfl) hclosing
    (fun _ _ => rfl) (by simp [hpc, Phase.owes]) (by simp [hpc, Phase.owes])
    (by simp [hpc, Phase.counted]) (by simp [hpc, Phase.live]) (fun id j => ?_)
  rw [hentry j]
  by_cases hid : id = t.task.runnable.id
  · -- the erased key: only arrival `i` had an entry under it
    subst hid
    rw [AList.lookup_erase]
    simp only [reduceCtorEq, false_iff]
    split
    · simp
    · next hj =>
        intro he
        rw [← hs.entries, hlook] at he
        exact hj (Option.some.inj he).symm
  · rw [AList.lookup_erase_ne hid, hs.entries]
    split
    · next hj =>
        subst hj
        have : s.entry j = some t.task.runnable.id := (hs.entries _ _).1 hlook
        simp only [this, Option.some.injEq, reduceCtorEq, iff_false]
        exact Ne.symm hid
    · rfl

/-- The deferred `taskCount.Dec`. -/
theorem inv_dec (hs : Inv s) {i : Nat} (h : step s (.dec i) = .ok s') : Inv s' := by
  rcases atThread_eq_ok h with rfl | ⟨t, ht, hpc, h⟩
  · exact hs
  have hclosing : t.status = .taskClosing := by
    have := hs.status i t ht
    rwa [hpc] at this
  exact inv_threadMove hs ht (Except.ok.inj h).symm (by rw [hpc]; rfl) hclosing
    (fun _ _ => rfl) (by simp [hpc, Phase.owes]) (by simp [hpc, Phase.owes])
    (by simp [hpc, Phase.counted]) (by simp [hpc, Phase.live])
    (entries_setThread hs ht rfl (by rw [hpc]; rfl))

/-- The deferred `wg.Done`: the goroutine ends. -/
theorem inv_done (hs : Inv s) {i : Nat} (h : step s (.done i) = .ok s') : Inv s' := by
  rcases atThread_eq_ok h with rfl | ⟨t, ht, hpc, h⟩
  · exact hs
  have hclosing : t.status = .taskClosing := by
    have := hs.status i t ht
    rwa [hpc] at this
  split at h
  · cases h
  · next hwg =>
      exact inv_threadMove hs ht (Except.ok.inj h).symm (by rw [hpc]; rfl) hclosing
        (fun _ _ => rfl) (by simp [hpc, Phase.owes]) (by simp [hpc, Phase.owes])
        (by simp [hpc, Phase.counted]) (by simp [hpc, Phase.live]; omega)
        (entries_setThread hs ht rfl (by rw [hpc]; rfl))

end Goroutine

/-! ## Every run -/

theorem held_ne_zero {s : State} (hs : Inv s) {i : Nat} (hi : i < s.arrivals)
    (ho : (s.phase i).owes = true) : s.held ≠ 0 := by
  have := Count.countP_range_pos (p := fun j => (s.phase j).owes) hi ho
  rw [hs.held]
  omega

theorem wg_ne_zero {s : State} (hs : Inv s) {i : Nat} (hi : i < s.arrivals)
    (hl : (s.phase i).live = true) : s.wg ≠ 0 := by
  have := Count.countP_range_pos (p := fun j => (s.phase j).live) hi hl
  rw [hs.wg]
  omega

theorem phase_of_thread_eq {s : State} (hs : Inv s) {i : Nat} {t : TaskThread}
    (ht : s.thread i = some t) : s.phase i = .goroutine t.pc := by
  rw [phase_of_thread (run_ne_of_thread hs ht), ht]
  rfl

/-- Every statement keeps the invariant. -/
theorem inv_step {s s' : State} (hs : Inv s) {a : Action} (h : step s a = .ok s') : Inv s' := by
  cases a with
  | receive task =>
      simp only [step] at h
      split at h
      · next hrun => exact inv_receive hs hrun task (Except.ok.inj h).symm
      · exact Except.ok.inj h ▸ hs
  | exitRun =>
      simp only [step] at h
      split at h
      · next hrun =>
          have hcan := canceled_eq_false hs (by simp [hrun])
          exact inv_setRun hs (Except.ok.inj h).symm (by simp [hrun]) (by simp) (by simp [hcan])
            (by simp)
      · exact Except.ok.inj h ▸ hs
  | acquire =>
      simp only [step] at h
      split at h
      · next i task hrun =>
          split at h
          · exact inv_acquire hs hrun (Except.ok.inj h).symm
          · exact Except.ok.inj h ▸ hs
      · exact Except.ok.inj h ▸ hs
  | acquireTimedOut =>
      simp only [step] at h
      split at h
      · next i task hrun => exact inv_acquireTimedOut hs hrun (Except.ok.inj h).symm
      · exact Except.ok.inj h ▸ hs
  | loadOrStore =>
      simp only [step] at h
      split at h
      · next i task hrun =>
          split at h
          · -- `canceled` is set only by `cancelAll`, after the loop of `Run`
            next hcan => simp [canceled_eq_false hs (by simp [hrun])] at hcan
          · split at h
            · obtain ⟨hheld, hs'⟩ := release_eq_ok h
              exact inv_reject hs hrun hheld hs'
            · next hfree => exact inv_store hs hrun hfree (Except.ok.inj h).symm
      · exact Except.ok.inj h ▸ hs
  | inc =>
      simp only [step] at h
      split at h
      · next i task hrun => exact inv_inc hs hrun (Except.ok.inj h).symm
      · exact Except.ok.inj h ▸ hs
  | launch =>
      simp only [step] at h
      split at h
      · next i task hrun => exact inv_launch hs hrun (Except.ok.inj h).symm
      · exact Except.ok.inj h ▸ hs
  | cancelAll =>
      simp only [step] at h
      split at h
      · next hrun =>
          have hcan := canceled_eq_false hs (by simp [hrun])
          rw [hcan] at h
          exact inv_setRun hs (Except.ok.inj h).symm (by simp [hrun]) (by simp) (by simp)
            (by simp)
      · exact Except.ok.inj h ▸ hs
  | waitDone =>
      simp only [step] at h
      split at h
      · next hrun =>
          split at h
          · next hwg =>
              have hcan : s.canceled = true := hs.canceled.2 (.inl hrun)
              exact inv_setRun hs (Except.ok.inj h).symm (by simp [hrun]) (by simp)
                (by simp [hcan]) (fun _ => hwg)
          · exact Except.ok.inj h ▸ hs
      · exact Except.ok.inj h ▸ hs
  | runInit i initOk => exact inv_runInit hs h
  | eventLoopReturns i => exact inv_eventLoopReturns hs h
  | onStopped i => exact inv_onStopped hs h
  | loadAndDelete i => exact inv_loadAndDelete hs h
  | dec i => exact inv_dec hs h
  | done i => exact inv_done hs h

/-- No statement fails in a state of the invariant. -/
theorem step_ne_error {s : State} (hs : Inv s) (a : Action) (e : Panic) :
    step s a ≠ .error e := by
  intro h
  cases a with
  | loadOrStore =>
      simp only [step] at h
      split at h
      · next i task hrun =>
          -- `Run` holds the permit it releases
          have hpos := held_ne_zero hs (i := i) (by have := (hs.current i task _ hrun).1; omega)
            (by simp [phase_of_run hrun, Phase.owes])
          split at h
          · exact hpos (held_eq_zero_of_release h :)
          · split at h
            · exact hpos (held_eq_zero_of_release h :)
            · cases h
      · cases h
  | runInit i initOk =>
      obtain ⟨t, ht, hpc, h⟩ := atThread_eq_error h
      have hsub : t.status = .taskSubmitted := by
        have := hs.status i t ht
        rwa [hpc] at this
      have hpos := held_ne_zero hs (lt_of_thread hs ht)
        (by simp [phase_of_thread_eq hs ht, hpc, Phase.owes])
      cases initOk with
      | false => exact hpos (held_eq_zero_of_release h :)
      | true =>
          simp only [hsub, if_true] at h
          exact hpos (held_eq_zero_of_release h :)
  | onStopped i =>
      obtain ⟨t, ht, hpc, h⟩ := atThread_eq_error h
      have hst : t.status = .taskRunning ∨ t.status = .taskSubmitted := by
        have := hs.status i t ht
        rw [hpc] at this
        exact this.symm
      simp [hst] at h
  | loadAndDelete i =>
      obtain ⟨t, ht, hpc, h⟩ := atThread_eq_error h
      simp [lookup_of_deleting hs ht hpc] at h
  | done i =>
      obtain ⟨t, ht, hpc, h⟩ := atThread_eq_error h
      have hpos := wg_ne_zero hs (lt_of_thread hs ht)
        (by simp [phase_of_thread_eq hs ht, hpc, Phase.live])
      simp [hpos] at h
  | eventLoopReturns i =>
      obtain ⟨t, ht, hpc, h⟩ := atThread_eq_error h
      cases h
  | dec i =>
      obtain ⟨t, ht, hpc, h⟩ := atThread_eq_error h
      cases h
  | _ =>
      simp only [step] at h
      repeat' split at h
      all_goals cases h

theorem inv_of_reachable (initConcurrency : Nat) {s : State}
    (h : Transition.Reachable step allowed (init initConcurrency) s) : Inv s :=
  Transition.Reachable.inv (inv_init initConcurrency) (fun _ _ _ hs _ hstep => inv_step hs hstep) h

/-- Once `Run` has returned from `cancelAll`, every arrival is turned away or its goroutine has
ended. -/
theorem phase_of_stopped {s : State} (hs : Inv s) (hrun : s.run = .stopped) (j : Nat) :
    (s.phase j).owes = false ∧ (s.phase j).inMap = false ∧ (s.phase j).counted = false := by
  have hthread : s.phase j = threadPhase (s.thread j) := phase_of_thread (by simp [hrun])
  cases ht : s.thread j with
  | none => simp [hthread, ht, threadPhase, Phase.owes, Phase.inMap, Phase.counted]
  | some t =>
      -- no goroutine is left: the `WaitGroup` counter is zero
      have hlive : (s.phase j).live = false := by
        by_contra hl
        exact wg_ne_zero hs (lt_of_thread hs ht) (by simpa using hl) (hs.stopped hrun)
      rw [hthread, ht] at hlive ⊢
      cases hpc : t.pc <;>
        simp_all [threadPhase, Phase.live, Phase.owes, Phase.inMap, Phase.counted]

/-- Between `LoadOrStore` and the `go` statement of `onNewTask`, `tasks` holds the ID of a task
and `taskCount` counts it, while no goroutine runs for it. -/
theorem task_stored_before_goroutine :
    ∃ s, Transition.Reachable step allowed (init 1) s ∧ s.tasks.lookup "a" = some 0 ∧
      s.taskCount = 1 ∧ ∀ j, s.thread j = none :=
  ⟨_, Transition.reachable_run .init rfl
      (show Transition.run step (init 1)
        [.receive ⟨⟨"a"⟩, 0, ""⟩, .acquire, .loadOrStore, .inc] = .ok _ from rfl),
    by decide, rfl, fun _ => rfl⟩

/-- Over every schedule: each permit of `initQuotaSema` is released at most once and is
still owed exactly while it is not released; `tasks` holds the entries of the arrivals from
`LoadOrStore` to `LoadAndDelete`; `taskCount` counts the arrivals from `Inc` to `Dec`; once
`Run` has returned from `cancelAll`, every permit has been released and nothing is left; and
no panic is reached. -/
theorem taskRunner_releases_once_and_tracks_tasks (initConcurrency : Nat) :
    (∀ s, Transition.Reachable step allowed (init initConcurrency) s →
      (∀ j, s.acquires j ≤ 1 ∧ s.releases j + (s.phase j).owes.toNat = s.acquires j) ∧
      (∀ id j, s.tasks.lookup id = some j ↔ s.entry j = some id) ∧
      s.taskCount = ((List.range s.arrivals).countP fun j => (s.phase j).counted : Nat) ∧
      (s.run = .stopped →
        (∀ j, s.releases j = s.acquires j) ∧ (∀ id, s.tasks.lookup id = none) ∧
          s.taskCount = 0)) ∧
    ¬ Transition.PanicReachable step allowed (init initConcurrency) fun _ => True := by
  refine ⟨fun s hr => ?_,
    Transition.not_panicReachable (fun _ => inv_of_reachable initConcurrency)
      fun s a e hs _ h _ => step_ne_error hs a e h⟩
  have hs := inv_of_reachable initConcurrency hr
  refine ⟨fun j => ⟨hs.acquires_le j, hs.balance j⟩, hs.entries, hs.taskCount,
    fun hrun => ⟨fun j => ?_, fun id => ?_, ?_⟩⟩
  · have := hs.balance j
    rw [(phase_of_stopped hs hrun j).1] at this
    simpa using this
  · cases hl : s.tasks.lookup id with
    | none => rfl
    | some j =>
        have := (hs.entries id j).1 hl
        simp [State.entry, (phase_of_stopped hs hrun j).2.1] at this
  · have hzero : ((List.range s.arrivals).countP fun j => (s.phase j).counted) = 0 :=
      List.countP_eq_zero.2 fun j _ => by simp [(phase_of_stopped hs hrun j).2.2]
    rw [hs.taskCount, hzero]
    rfl

end TaskRunner

end Executor

end Microcosm
