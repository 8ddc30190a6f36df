import Microcosm.Library.Transition
import Microcosm.Lib.Master.WorkerManager
import Microcosm.Lib.Worker

/-!
# The heartbeat lease between a master and one of its workers

The master leases its worker for `WorkerTimeoutDuration + WorkerTimeoutGracefulDuration`:
`BeforeStartingWorker` sets the worker's entry to expire that long after the master's clock
reading, and every ping of the worker moves the expiry to that long after its receipt. The
background checker marks the entry offline once the expiry has passed
(`checkWorkerEntriesOnce`), after which the job master may create the worker again. The
worker keeps the send time of the last ping the master answered, starting from the time
the executor took the task (`doPreInit` reads it from the runtime context through
`ToMono`), and its watchdog calls `ForceExit` once that stamp is `WorkerTimeoutDuration`
old (`CheckMasterTimeout`).

`World` puts together the master's `WorkerManager`, the executor's submit time, the
worker's `masterClient` with its two tickers, and the pings and pongs in flight. Time is
real time in milliseconds, and each clock reads real time plus an offset of its own
(`Clocks`), so that all clocks advance at the same rate. A message in flight is received
or lost at any later step, in any order. The tickers fire on time: a tick is handled when
it is due, and time does not pass a due tick (`allowed`). The master's ping handler
answers and calls `HandleHeartbeat` in one step, and `RefreshMasterInfo` returns at once,
with the master's record or with an error.

`lease_safe` is the safety of the lease for a worker whose stamps are read on one clock:
when the master marks the entry offline because it expired, the watchdog has returned or
the worker has not started, provided the executor started the worker within
`leaseDuration - heartbeatInterval` of taking it. The inequality that carries it is
`WorkerInv.stamp`: every stamp the worker holds is the send time of a ping whose receipt
set the expiry to at least `leaseDuration` later.

In the source the stamps are not read on one clock. `ToMono` counts from the Unix epoch,
while `Mono()` of the real clock is `monotime.Now()`, which counts from an unspecified
origin (the boot of the host, on Linux); only the mock clock of the tests reads both from
the epoch. Until the first pong the watchdog computes a negative age and waits, however
long the master has been unreachable (`lease_broken_of_wall_ahead`).
-/

namespace Microcosm

namespace Lease

open Master Lib

/-- The clock readings at real time zero. -/
structure Clocks where
  /-- The master's `clock.Now()`. -/
  master : Nat
  /-- The worker host's `Mono()`. -/
  mono : Nat
  /-- The worker host's `Now()` read through `ToMono`: time since the Unix epoch. -/
  wall : Nat
  deriving DecidableEq, Repr

/-- What stays fixed along a run: the master, the worker, the executor that runs it, and the
clocks. -/
structure Setup where
  masterID : MasterID
  /-- The node of the master, which sends the pongs. -/
  masterNode : ExecutorID
  masterEpoch : Epoch
  workerID : WorkerID
  /-- The executor that runs the worker, which sends the pings. -/
  executorID : ExecutorID
  clocks : Clocks
  deriving DecidableEq, Repr

/-- `WorkerHeartbeatInterval` of `config.DefaultTimeoutConfig()`, the period of both tickers
of the worker. -/
def heartbeatInterval : Nat := TimeoutConfig.defaultTimeoutConfig.workerHeartbeatInterval

/-- How far a heartbeat moves the expiry: `WorkerTimeoutDuration` plus
`WorkerTimeoutGracefulDuration`. -/
def leaseDuration : Nat :=
  TimeoutConfig.defaultTimeoutConfig.workerTimeoutDuration +
    TimeoutConfig.defaultTimeoutConfig.workerTimeoutGracefulDuration

@[simp] theorem heartbeatInterval_eq : heartbeatInterval = 3000 := rfl

@[simp] theorem leaseDuration_eq : leaseDuration = 20000 := rfl

/-- The goroutine of `runWatchDog`. -/
inductive WatchDog
  /-- Waiting for the tick due at `next`. -/
  | waiting (next : Nat)
  /-- `ForceExit` was called and the goroutine returned. -/
  | fired
  /-- `CheckMasterTimeout` failed and the goroutine returned its error to `onError`. -/
  | failed (err : Error)
  deriving DecidableEq, Repr

/-- The watchdog after the iteration of its loop at the tick due at `next`. -/
def WatchDog.after (next : Nat) : WatchDogStep → WatchDog
  | .next => .waiting (next + heartbeatInterval)
  | .forceExit _ => .fired
  | .failed err => .failed err

/-- A started worker: the `masterClient` of `doPreInit`, the due time of the heartbeat
ticker, the watchdog, and the time it was started. -/
structure Worker where
  client : MasterClient
  nextHeartbeat : Nat
  watchDog : WatchDog
  startedAt : Nat
  deriving DecidableEq, Repr

/-- No tick of the worker is due before `t`. -/
def Worker.noTickBefore (wk : Worker) (t : Nat) : Bool :=
  decide (t ≤ wk.nextHeartbeat) &&
    match wk.watchDog with
    | .waiting next => decide (t ≤ next)
    | _ => true

theorem Worker.noTickBefore_iff {wk : Worker} {t : Nat} :
    wk.noTickBefore t = true ↔
      t ≤ wk.nextHeartbeat ∧ ∀ next, wk.watchDog = .waiting next → t ≤ next := by
  unfold noTickBefore
  cases wk.watchDog <;> simp

/-- The tick of the watchdog is due at `t`. -/
def Worker.watchDogDue (wk : Worker) (t : Nat) : Bool :=
  match wk.watchDog with
  | .waiting next => decide (t = next)
  | _ => false

theorem Worker.watchDogDue_iff {wk : Worker} {t : Nat} :
    wk.watchDogDue t = true ↔ wk.watchDog = .waiting t := by
  unfold watchDogDue
  cases wk.watchDog <;> simp [eq_comm]

structure World where
  now : Nat
  master : WorkerManager
  /-- When the executor's `PreDispatchTask` took the task, stamping its submit time. -/
  submittedAt : Option Nat
  worker : Option Worker
  pings : List HeartbeatPingMessage
  pongs : List HeartbeatPongMessage

/-- The worker has not started, or its watchdog goroutine has returned. -/
def World.watchDogDown (w : World) : Bool :=
  match w.worker with
  | none => true
  | some wk =>
      match wk.watchDog with
      | .waiting _ => false
      | _ => true

/-- The executor started the worker within `leaseDuration - heartbeatInterval` of taking the
task. -/
def World.startedPromptly (w : World) : Bool :=
  match w.worker, w.submittedAt with
  | some wk, some t => decide (wk.startedAt + heartbeatInterval ≤ t + leaseDuration)
  | _, _ => true

/-- The client `doPreInit` builds: created with the submit time read through `ToMono`, then
given the master's node and epoch by `InitMasterInfoFromMeta`. -/
def initClient (σ : Setup) (submitTime : Nat) : Except Error MasterClient :=
  (newMasterClient σ.workerID (submitTime + σ.clocks.wall)).initMasterInfoFromMeta
    (.ok (σ.masterNode, σ.masterEpoch))

theorem initClient_eq (σ : Setup) (submitTime : Nat) :
    initClient σ submitTime =
      .ok { newMasterClient σ.workerID (submitTime + σ.clocks.wall) with
        masterNode := σ.masterNode, masterEpoch := σ.masterEpoch } := rfl

/-- What the metastore answers `RefreshMasterInfo`: the master's record, or the error of a
failed read. -/
def masterMeta (σ : Setup) : Option Error → Except Error (ExecutorID × Epoch)
  | none => .ok (σ.masterNode, σ.masterEpoch)
  | some err => .error err

/-- The pong of the master's ping handler. -/
def pongOf (m : WorkerManager) (ping : HeartbeatPingMessage) (now : Nat) :
    HeartbeatPongMessage :=
  { sendTime := ping.sendTime, replyTime := now, toWorkerID := ping.fromWorkerID,
    epoch := m.epoch, isFinished := ping.isFinished }

inductive Action
  /-- Time passes. -/
  | advance (d : Nat)
  /-- The executor's `PreDispatchTask` wraps the task with the submit time. -/
  | preDispatch
  /-- The master's dispatch callback: `BeforeStartingWorker`. -/
  | beforeStartingWorker
  /-- The executor runs the worker: `doPreInit` starts both tickers and builds the client. -/
  | startWorker
  /-- A tick of the heartbeat ticker: `SendHeartBeat`. -/
  | heartbeatTick (isFinished : Bool)
  /-- A tick of the watchdog ticker, with the failure, if any, of the metastore read. -/
  | watchDogTick (metaErr : Option Error)
  /-- The master's ping handler takes the `i`-th ping in flight. -/
  | receivePing (i : Nat)
  /-- The worker's pong handler takes the `i`-th pong in flight. -/
  | receivePong (i : Nat)
  | losePing (i : Nat)
  | losePong (i : Nat)
  /-- A tick of the master's background checker. -/
  | checkWorkerEntries

/-- The world before the dispatch: a master created with the default timeouts. -/
def init (σ : Setup) : World :=
  { now := 0
    master := newWorkerManager σ.masterID σ.masterEpoch true TimeoutConfig.defaultTimeoutConfig
    submittedAt := none
    worker := none
    pings := []
    pongs := [] }

/-- One step of the world. Only the master's calls can panic. -/
def step (σ : Setup) (w : World) : Action → Except Panic World
  | .advance d => .ok { w with now := w.now + d }
  | .preDispatch => .ok { w with submittedAt := some w.now }
  | .beforeStartingWorker =>
      (w.master.beforeStartingWorker σ.workerID σ.executorID (w.now + σ.clocks.master)).map
        fun m => { w with master := m }
  | .startWorker =>
      match w.submittedAt with
      | none => .ok w
      | some t =>
          match initClient σ t with
          | .error _ => .ok w
          | .ok client =>
              .ok { w with
                worker := some
                  { client
                    nextHeartbeat := w.now + heartbeatInterval
                    watchDog := .waiting (w.now + heartbeatInterval)
                    startedAt := w.now } }
  | .heartbeatTick isFinished =>
      match w.worker with
      | none => .ok w
      | some wk =>
          .ok { w with
            worker := some { wk with nextHeartbeat := wk.nextHeartbeat + heartbeatInterval }
            pings := w.pings ++ [wk.client.sendHeartBeat (w.now + σ.clocks.mono) isFinished] }
  | .watchDogTick metaErr =>
      match w.worker with
      | none => .ok w
      | some wk =>
          match wk.watchDog with
          | .waiting next =>
              let r := wk.client.runWatchDogOnce σ.masterID (w.now + σ.clocks.mono)
                (masterMeta σ metaErr) (.ok ())
              .ok { w with worker := some { wk with client := r.1, watchDog := .after next r.2 } }
          | _ => .ok w
  | .receivePing i =>
      match w.pings[i]? with
      | none => .ok w
      | some ping =>
          (w.master.handleHeartbeat ping σ.executorID (w.now + σ.clocks.master)).map fun m =>
            { w with
              master := m
              pings := w.pings.eraseIdx i
              pongs := w.pongs ++ [pongOf w.master ping (w.now + σ.clocks.master)] }
  | .receivePong i =>
      match w.worker, w.pongs[i]? with
      | some wk, some pong =>
          .ok { w with
            worker := some { wk with client := wk.client.handleHeartbeat σ.masterNode pong }
            pongs := w.pongs.eraseIdx i }
      | _, _ => .ok w
  | .losePing i => .ok { w with pings := w.pings.eraseIdx i }
  | .losePong i => .ok { w with pongs := w.pongs.eraseIdx i }
  | .checkWorkerEntries =>
      match w.master.checkWorkerEntriesOnce (w.now + σ.clocks.master)
          w.master.workerEntries.keys with
      | .error p => .error p
      | .ok (m, none) => .ok { w with master := m }
      | .ok (m, some err) => .ok { w with master := m.onError err }

-- Many proofs below unfold this definition, and Lean elaborates them in parallel: the empty
-- section generates its equation lemmas here, once, so that the proofs do not all wait on it.
-- The simp set outside the section is unchanged.
section
attribute [local simp] step
end

section StepEq

variable {σ : Setup} {w : World}

theorem step_startWorker {t : Nat} (ht : w.submittedAt = some t) :
    step σ w .startWorker = .ok { w with
      worker := some
        { client := { newMasterClient σ.workerID (t + σ.clocks.wall) with
            masterNode := σ.masterNode, masterEpoch := σ.masterEpoch }
          nextHeartbeat := w.now + heartbeatInterval
          watchDog := .waiting (w.now + heartbeatInterval)
          startedAt := w.now } } := by
  rw [step, ht]
  rfl

theorem step_heartbeatTick {wk : Worker} (isFinished : Bool) (hwk : w.worker = some wk) :
    step σ w (.heartbeatTick isFinished) = .ok { w with
      worker := some { wk with nextHeartbeat := wk.nextHeartbeat + heartbeatInterval }
      pings := w.pings ++ [wk.client.sendHeartBeat (w.now + σ.clocks.mono) isFinished] } := by
  rw [step, hwk]

theorem step_watchDogTick {wk : Worker} (metaErr : Option Error) (hwk : w.worker = some wk)
    (hdue : wk.watchDog = .waiting w.now) :
    step σ w (.watchDogTick metaErr) = .ok { w with
      worker := some { wk with
        client := (wk.client.runWatchDogOnce σ.masterID (w.now + σ.clocks.mono)
          (masterMeta σ metaErr) (.ok ())).1
        watchDog := .after w.now (wk.client.runWatchDogOnce σ.masterID (w.now + σ.clocks.mono)
          (masterMeta σ metaErr) (.ok ())).2 } } := by
  rw [step, hwk]
  dsimp only
  rw [hdue]

theorem step_receivePing_none {i : Nat} (hp : w.pings[i]? = none) :
    step σ w (.receivePing i) = .ok w := by
  rw [step, hp]

theorem step_receivePing {i : Nat} {ping : HeartbeatPingMessage} (hp : w.pings[i]? = some ping) :
    step σ w (.receivePing i) =
      (w.master.handleHeartbeat ping σ.executorID (w.now + σ.clocks.master)).map fun m =>
        { w with
          master := m
          pings := w.pings.eraseIdx i
          pongs := w.pongs ++ [pongOf w.master ping (w.now + σ.clocks.master)] } := by
  rw [step, hp]

theorem step_receivePong_of_none {i : Nat} (h : w.worker = none ∨ w.pongs[i]? = none) :
    step σ w (.receivePong i) = .ok w := by
  rcases h with h | h <;> rw [step, h]
  cases w.worker <;> rfl

theorem step_receivePong {wk : Worker} {i : Nat} {pong : HeartbeatPongMessage}
    (hwk : w.worker = some wk) (hq : w.pongs[i]? = some pong) :
    step σ w (.receivePong i) = .ok { w with
      worker := some { wk with client := wk.client.handleHeartbeat σ.masterNode pong }
      pongs := w.pongs.eraseIdx i } := by
  rw [step, hwk, hq]

end StepEq

/-- The order of the dispatch (`PreDispatchTask`, then `BeforeStartingWorker`, then the
run of the worker), and the tickers firing on time. -/
def allowed (σ : Setup) (w : World) : Action → Bool
  | .advance d =>
      match w.worker with
      | none => true
      | some wk => wk.noTickBefore (w.now + d)
  | .preDispatch => w.submittedAt.isNone
  | .beforeStartingWorker =>
      w.submittedAt.isSome && !decide (σ.workerID ∈ w.master.workerEntries)
  | .startWorker => w.worker.isNone && decide (σ.workerID ∈ w.master.workerEntries)
  | .heartbeatTick _ =>
      match w.worker with
      | none => false
      | some wk => decide (w.now = wk.nextHeartbeat)
  | .watchDogTick _ =>
      match w.worker with
      | none => false
      | some wk => wk.watchDogDue w.now
  | _ => true

section
attribute [local simp] allowed
end

/-- The worlds of all runs. -/
def Reachable (σ : Setup) : World → Prop :=
  Transition.Reachable (step σ) (allowed σ) (init σ)

/-- From `m` to `m'` the master marked the worker's entry offline, and no heartbeat had
said that the worker finished: the worker timed out. -/
def timedOut (workerID : WorkerID) (m m' : WorkerManager) : Bool :=
  match m.entryOf workerID, m'.entryOf workerID with
  | some e, some e' => e.state != .offline && e'.state == .offline && !e'.isFinished
  | _, _ => false

/-- A check that times the worker out finds its entry expired. -/
theorem expired_of_timedOut {now : Nat} {m m' : WorkerManager} {workerID : WorkerID}
    (h : WorkerManager.CheckEffect now m m') (ht : timedOut workerID m m' = true) :
    ∃ E, m.expireAtOf workerID = some E ∧ E < now := by
  unfold timedOut at ht
  split at ht
  · rename_i e e' he he'
    simp only [Bool.and_eq_true, bne_iff_ne, ne_eq, beq_iff_eq, Bool.not_eq_eq_eq_not,
      Bool.not_true] at ht
    obtain ⟨⟨hne, hoff⟩, hfin⟩ := ht
    -- the check kept the entry, which is not offline, or marked it offline for a cause
    rcases h.entryOf workerID with heq | ⟨e₀, he₀, -, hwhy, hmark⟩
    · rw [heq, he, Option.some.injEq] at he'
      exact absurd (he' ▸ hoff) hne
    · rw [he, Option.some.injEq] at he₀
      subst he₀
      rw [hmark, Option.some.injEq] at he'
      subst he'
      -- marking keeps `receivedFinish`, so the cause was the expiry
      have hnf : e.isFinished = false := hfin
      refine ⟨e.expireAt, by rw [WorkerManager.expireAtOf_eq_map_entryOf, he]; rfl, ?_⟩
      rcases hwhy with hlt | hfin'
      · exact hlt
      · rw [hnf] at hfin'
        cases hfin'
  · cases ht

/-! ## The lease on one clock -/

/-- The end of the worker's lease on the master's clock, `0` before `BeforeStartingWorker`. -/
def leaseEnd (σ : Setup) (w : World) : Nat :=
  (w.master.expireAtOf σ.workerID).getD 0

/-- A pong in flight answers a ping whose receipt moved the end of the lease `E` to at least
`leaseDuration` after the ping was sent, both read in real time. -/
def PongInv (σ : Setup) (E : Nat) (q : HeartbeatPongMessage) : Prop :=
  q.epoch = σ.masterEpoch ∧ q.sendTime + σ.clocks.master + leaseDuration ≤ E + σ.clocks.mono

/-- The started worker at time `now`, under a lease that ends at `E`. -/
structure WorkerInv (σ : Setup) (now E : Nat) (wk : Worker) : Prop where
  workerID : wk.client.workerID = σ.workerID
  masterEpoch : wk.client.masterEpoch = σ.masterEpoch
  timeoutConfig : wk.client.timeoutConfig = TimeoutConfig.defaultTimeoutConfig
  /-- The stamp is at least `leaseDuration` older than the end of the lease. -/
  stamp : wk.client.lastMasterAckedPingTime + σ.clocks.master + leaseDuration ≤
    E + σ.clocks.mono
  heartbeat : now ≤ wk.nextHeartbeat
  /-- The next tick of the watchdog is due when the lease ends at the latest, unless it is
  the first tick. -/
  watchDog : ∀ next, wk.watchDog = .waiting next →
    now ≤ next ∧ (next = wk.startedAt + heartbeatInterval ∨ next + σ.clocks.master ≤ E)

structure Inv (σ : Setup) (w : World) : Prop where
  state : w.master.state = .ready
  epoch : w.master.epoch = σ.masterEpoch
  timeouts : w.master.timeouts = TimeoutConfig.defaultTimeoutConfig
  submitted : ∀ t, w.submittedAt = some t → t ≤ w.now
  /-- The lease runs out `leaseDuration` after the submit time at the earliest, and
  `leaseDuration` after the present at the latest. -/
  lease : ∀ E, w.master.expireAtOf σ.workerID = some E → ∃ t, w.submittedAt = some t ∧
    t + σ.clocks.master + leaseDuration ≤ E ∧ E ≤ w.now + σ.clocks.master + leaseDuration
  entry : ∀ wk, w.worker = some wk → σ.workerID ∈ w.master.workerEntries
  pings : ∀ p ∈ w.pings, w.worker.isSome ∧ p.fromWorkerID = σ.workerID ∧
    p.epoch = σ.masterEpoch ∧ p.sendTime ≤ w.now + σ.clocks.mono
  pongs : ∀ q ∈ w.pongs, PongInv σ (leaseEnd σ w) q
  worker : ∀ wk, w.worker = some wk → WorkerInv σ w.now (leaseEnd σ w) wk

section OneClock

variable {σ : Setup} {w w' : World}

theorem PongInv.mono {E E' : Nat} {q : HeartbeatPongMessage} (h : PongInv σ E q)
    (hE : E ≤ E') : PongInv σ E' q :=
  ⟨h.1, by have := h.2; omega⟩

theorem WorkerInv.mono {now E E' : Nat} {wk : Worker} (h : WorkerInv σ now E wk)
    (hE : E ≤ E') : WorkerInv σ now E' wk where
  workerID := h.workerID
  masterEpoch := h.masterEpoch
  timeoutConfig := h.timeoutConfig
  stamp := by have := h.stamp; omega
  heartbeat := h.heartbeat
  watchDog next hn := by
    obtain ⟨hle, hfirst | hend⟩ := h.watchDog next hn
    · exact ⟨hle, .inl hfirst⟩
    · exact ⟨hle, .inr (by omega)⟩

theorem leaseEnd_of_expireAtOf {E : Nat} (h : w.master.expireAtOf σ.workerID = some E) :
    leaseEnd σ w = E := by
  simp [leaseEnd, h]

theorem expireAtOf_of_mem (h : σ.workerID ∈ w.master.workerEntries) :
    ∃ E, w.master.expireAtOf σ.workerID = some E := by
  obtain ⟨ref, href⟩ := Option.isSome_iff_exists.1 (AList.lookup_isSome.2 h)
  exact ⟨(w.master.entry ref).expireAt, by simp [WorkerManager.expireAtOf, href]⟩

/-- The master of the world extends a lease by `leaseDuration`. -/
theorem Inv.nextExpireTime (hs : Inv σ w) (now : Nat) :
    w.master.nextExpireTime now = now + leaseDuration := by
  simp [WorkerManager.nextExpireTime, hs.timeouts, leaseDuration]

theorem inv_init : Inv σ (init σ) where
  state := rfl
  epoch := rfl
  timeouts := rfl
  submitted _ h := by cases h
  lease _ h := by simp [init, WorkerManager.expireAtOf, newWorkerManager] at h
  entry _ h := by cases h
  pings _ h := by cases h
  pongs _ h := by cases h
  worker _ h := by cases h

theorem Inv.advance (hs : Inv σ w) {d : Nat} (ha : allowed σ w (.advance d) = true) :
    Inv σ { w with now := w.now + d } where
  state := hs.state
  epoch := hs.epoch
  timeouts := hs.timeouts
  submitted t ht := by have := hs.submitted t ht; dsimp only; omega
  lease E hE := by
    obtain ⟨t, ht, hlo, hhi⟩ := hs.lease E hE
    exact ⟨t, ht, hlo, by dsimp only; omega⟩
  entry := hs.entry
  pings p hp := by
    obtain ⟨h1, h2, h3, h4⟩ := hs.pings p hp
    exact ⟨h1, h2, h3, by dsimp only; omega⟩
  pongs := hs.pongs
  worker wk hwk := by
    have hw := hs.worker wk hwk
    simp only [allowed] at ha
    rw [hwk] at ha
    obtain ⟨hhb, hwd⟩ := Worker.noTickBefore_iff.1 ha
    exact { hw with
      heartbeat := hhb
      watchDog := fun next hn => ⟨hwd next hn, (hw.watchDog next hn).2⟩ }

theorem Inv.preDispatch (hs : Inv σ w) (ha : allowed σ w .preDispatch = true) :
    Inv σ { w with submittedAt := some w.now } where
  state := hs.state
  epoch := hs.epoch
  timeouts := hs.timeouts
  submitted t ht := by cases ht; exact le_refl _
  lease E hE := by
    obtain ⟨t, ht, -⟩ := hs.lease E hE
    simp only [allowed, Option.isNone_iff_eq_none] at ha
    rw [ha] at ht
    cases ht
  entry := hs.entry
  pings := hs.pings
  pongs := hs.pongs
  worker := hs.worker

theorem Inv.withMaster (hs : Inv σ w) {m : WorkerManager}
    (hframe : WorkerManager.Frame w.master m)
    (hentries : m.workerEntries = w.master.workerEntries)
    (hexp : m.expireAtOf = w.master.expireAtOf) : Inv σ { w with master := m } := by
  have hend : leaseEnd σ { w with master := m } = leaseEnd σ w := by
    simp only [leaseEnd, hexp]
  refine ⟨hframe.state.trans hs.state, hframe.epoch.trans hs.epoch,
    hframe.timeouts.trans hs.timeouts, hs.submitted, fun E hE => ?_, fun wk hwk => ?_,
    hs.pings, ?_, ?_⟩
  · dsimp only at hE
    rw [hexp] at hE
    exact hs.lease E hE
  · dsimp only
    rw [hentries]
    exact hs.entry wk hwk
  · rw [hend]
    exact hs.pongs
  · rw [hend]
    exact hs.worker

/-- A step of the worker alone, which leaves it started: the rest of the world stays. -/
theorem Inv.withWorker (hs : Inv σ w) {wk : Worker}
    (hmem : σ.workerID ∈ w.master.workerEntries) (hwk : WorkerInv σ w.now (leaseEnd σ w) wk) :
    Inv σ { w with worker := some wk } := by
  refine ⟨hs.state, hs.epoch, hs.timeouts, hs.submitted, hs.lease, fun _ _ => hmem,
    fun p hp => ?_, hs.pongs, fun wk' hwk' => ?_⟩
  · obtain ⟨-, h2, h3, h4⟩ := hs.pings p hp
    exact ⟨rfl, h2, h3, h4⟩
  · cases hwk'
    exact hwk

theorem Inv.beforeStartingWorker (hs : Inv σ w) (ha : allowed σ w .beforeStartingWorker = true)
    (h : step σ w .beforeStartingWorker = .ok w') : Inv σ w' := by
  simp only [allowed, Bool.and_eq_true, Bool.not_eq_eq_eq_not, Bool.not_true,
    decide_eq_false_iff_not] at ha
  obtain ⟨hsub, hnot⟩ := ha
  obtain ⟨t, ht⟩ := Option.isSome_iff_exists.1 hsub
  simp only [step] at h
  cases hb : w.master.beforeStartingWorker σ.workerID σ.executorID (w.now + σ.clocks.master) with
  | error p =>
      rw [hb] at h
      cases h
  | ok m =>
      rw [hb] at h
      cases h
      have hframe := WorkerManager.beforeStartingWorker_frame hb
      have hexp : m.expireAtOf σ.workerID = some (w.now + σ.clocks.master + leaseDuration) := by
        rw [WorkerManager.expireAtOf_beforeStartingWorker hb, hs.nextExpireTime]
      -- before the dispatch there is no worker, so no ping, and no lease to extend
      have hnone : w.worker = none := by
        cases hwk : w.worker with
        | none => rfl
        | some wk => exact absurd (hs.entry wk hwk) hnot
      have hend : leaseEnd σ w = 0 := by
        simp [leaseEnd, WorkerManager.expireAtOf, AList.lookup_eq_none.2 hnot]
      refine ⟨hframe.state.trans hs.state, hframe.epoch.trans hs.epoch,
        hframe.timeouts.trans hs.timeouts, hs.submitted, fun E hE => ?_, fun wk hwk => ?_,
        fun p hp => ?_, fun q hq => (hs.pongs q hq).mono (by omega), fun wk hwk => ?_⟩
      · dsimp only at hE
        rw [hexp, Option.some.injEq] at hE
        subst hE
        have := hs.submitted t ht
        exact ⟨t, ht, by omega, le_refl _⟩
      · rw [hnone] at hwk
        cases hwk
      · have := (hs.pings p hp).1
        rw [hnone] at this
        cases this
      · rw [hnone] at hwk
        cases hwk

theorem Inv.startWorker (hwall : σ.clocks.wall ≤ σ.clocks.mono) (hs : Inv σ w)
    (ha : allowed σ w .startWorker = true) (h : step σ w .startWorker = .ok w') : Inv σ w' := by
  simp only [allowed, Bool.and_eq_true, Option.isNone_iff_eq_none, decide_eq_true_eq] at ha
  obtain ⟨hnone, hmem⟩ := ha
  obtain ⟨E, hE⟩ := expireAtOf_of_mem hmem
  obtain ⟨t, ht, hlo, -⟩ := hs.lease E hE
  rw [step_startWorker ht] at h
  cases h
  have hend : leaseEnd σ w = E := leaseEnd_of_expireAtOf hE
  refine hs.withWorker hmem ⟨rfl, rfl, rfl, ?_, Nat.le_add_right _ _, fun next hn => ?_⟩
  · -- the stamp is the submit time, which precedes the start of the lease
    dsimp only [newMasterClient]
    omega
  · cases hn
    exact ⟨Nat.le_add_right _ _, .inl rfl⟩

theorem Inv.heartbeatTick (hs : Inv σ w) {isFinished : Bool}
    (ha : allowed σ w (.heartbeatTick isFinished) = true)
    (h : step σ w (.heartbeatTick isFinished) = .ok w') : Inv σ w' := by
  simp only [allowed] at ha
  cases hwk : w.worker with
  | none =>
      rw [hwk] at ha
      cases ha
  | some wk =>
      rw [step_heartbeatTick isFinished hwk] at h
      cases h
      have hw := hs.worker wk hwk
      refine ⟨hs.state, hs.epoch, hs.timeouts, hs.submitted, hs.lease,
        fun _ _ => hs.entry wk hwk, fun p hp => ?_, hs.pongs, fun wk' hwk' => ?_⟩
      · rcases List.mem_append.1 hp with hp | hp
        · obtain ⟨-, h2, h3, h4⟩ := hs.pings p hp
          exact ⟨rfl, h2, h3, h4⟩
        · rw [List.mem_singleton] at hp
          subst hp
          exact ⟨rfl, hw.workerID, hw.masterEpoch, le_refl _⟩
      · cases hwk'
        exact { hw with heartbeat := Nat.le_add_right_of_le hw.heartbeat }

/-- The inequality of the lease: a watchdog that finds at its tick, due at `next`, a stamp
younger than `WorkerTimeoutDuration`, when the stamp is at least `leaseDuration` older than
the end of the lease, waits for a tick due before the lease ends. -/
theorem next_tick_before_leaseEnd {stamp next E : Nat}
    (hstamp : stamp + σ.clocks.master + leaseDuration ≤ E + σ.clocks.mono)
    (hage : ((next + σ.clocks.mono : Nat) : Int) - stamp ≤ 2 * 3000 ∨
      ((next + σ.clocks.mono : Nat) : Int) - stamp < 15000) :
    next + heartbeatInterval + σ.clocks.master ≤ E := by
  rw [leaseDuration_eq] at hstamp
  rw [heartbeatInterval_eq]
  omega

theorem Inv.watchDogTick (hs : Inv σ w) {metaErr : Option Error}
    (ha : allowed σ w (.watchDogTick metaErr) = true)
    (h : step σ w (.watchDogTick metaErr) = .ok w') : Inv σ w' := by
  simp only [allowed] at ha
  cases hwk : w.worker with
  | none =>
      rw [hwk] at ha
      cases ha
  | some wk =>
      rw [hwk] at ha
      rw [step_watchDogTick metaErr hwk (Worker.watchDogDue_iff.1 ha)] at h
      cases h
      have hw := hs.worker wk hwk
      have hmeta : ∀ p, masterMeta σ metaErr = .ok p → p.2 ≤ wk.client.masterEpoch := by
        intro p hp
        cases metaErr with
        | none =>
            cases hp
            simp only [hw.masterEpoch, Int.le_refl]
        | some err => cases hp
      refine hs.withWorker (hs.entry wk hwk) ⟨by simp [hw.workerID], ?_,
        by simp [hw.timeoutConfig], by simpa using hw.stamp, hw.heartbeat, fun next hn => ?_⟩
      · rw [MasterClient.runWatchDogOnce_masterEpoch _ _ _ hmeta, hw.masterEpoch]
      · -- only an iteration that waits leaves the goroutine waiting
        cases hr : (wk.client.runWatchDogOnce σ.masterID (w.now + σ.clocks.mono)
            (masterMeta σ metaErr) (.ok ())).2 with
        | next =>
            rw [hr] at hn
            cases hn
            have hage := MasterClient.runWatchDogOnce_eq_next (Prod.ext rfl hr)
            rw [hw.timeoutConfig] at hage
            simp only [TimeoutConfig.defaultTimeoutConfig_workerHeartbeatInterval,
              TimeoutConfig.defaultTimeoutConfig_workerTimeoutDuration] at hage
            exact ⟨Nat.le_add_right _ _, .inr (next_tick_before_leaseEnd hw.stamp hage)⟩
        | forceExit err =>
            rw [hr] at hn
            cases hn
        | failed err =>
            rw [hr] at hn
            cases hn

theorem Inv.losePing (hs : Inv σ w) (i : Nat) :
    Inv σ { w with pings := w.pings.eraseIdx i } :=
  { hs with pings := fun p hp => hs.pings p (List.mem_of_mem_eraseIdx hp) }

theorem Inv.losePong (hs : Inv σ w) (i : Nat) :
    Inv σ { w with pongs := w.pongs.eraseIdx i } :=
  { hs with pongs := fun q hq => hs.pongs q (List.mem_of_mem_eraseIdx hq) }

theorem Inv.receivePing (hs : Inv σ w) {i : Nat} (h : step σ w (.receivePing i) = .ok w') :
    Inv σ w' := by
  cases hp : w.pings[i]? with
  | none =>
      rw [step_receivePing_none hp] at h
      cases h
      exact hs
  | some p =>
      rw [step_receivePing hp] at h
      cases hm : w.master.handleHeartbeat p σ.executorID (w.now + σ.clocks.master) with
      | error e =>
          rw [hm] at h
          cases h
      | ok m =>
          rw [hm] at h
          cases h
          obtain ⟨hsome, hid, hep, hsend⟩ := hs.pings p (List.mem_of_getElem? hp)
          obtain ⟨wk, hwk⟩ := Option.isSome_iff_exists.1 hsome
          have hmem := hs.entry wk hwk
          obtain ⟨E, hE⟩ := expireAtOf_of_mem hmem
          obtain ⟨t, ht, hlo, hhi⟩ := hs.lease E hE
          have hframe := WorkerManager.handleHeartbeat_frame hm
          -- a ping of the worker, in the master's epoch, moves the expiry to the full lease
          have hexp : m.expireAtOf σ.workerID =
              some (w.now + σ.clocks.master + leaseDuration) := by
            have := WorkerManager.handleHeartbeat_expireAtOf (by rw [hs.state]; decide)
              (hep.trans hs.epoch.symm) (hid ▸ hmem) hm
            rw [hid] at this
            rw [this, hs.nextExpireTime]
          have hend : leaseEnd σ w ≤ w.now + σ.clocks.master + leaseDuration := by
            rw [leaseEnd_of_expireAtOf hE]
            exact hhi
          have hend' : leaseEnd σ { w with
              master := m
              pings := w.pings.eraseIdx i
              pongs := w.pongs ++ [pongOf w.master p (w.now + σ.clocks.master)] } =
              w.now + σ.clocks.master + leaseDuration :=
            leaseEnd_of_expireAtOf hexp
          refine ⟨hframe.state.trans hs.state, hframe.epoch.trans hs.epoch,
            hframe.timeouts.trans hs.timeouts, hs.submitted, fun E' hE' => ?_,
            fun _ _ => WorkerManager.mem_of_expireAtOf hexp, fun q hq => hs.pings q
              (List.mem_of_mem_eraseIdx hq), fun q hq => ?_, fun wk' hwk' => ?_⟩
          · dsimp only at hE'
            rw [hexp, Option.some.injEq] at hE'
            subst hE'
            rw [leaseEnd_of_expireAtOf hE] at hend
            exact ⟨t, ht, Nat.le_trans hlo hend, le_refl _⟩
          · rw [hend']
            rcases List.mem_append.1 hq with hq | hq
            · exact (hs.pongs q hq).mono hend
            · rw [List.mem_singleton] at hq
              subst hq
              exact ⟨hs.epoch, by dsimp only [pongOf]; omega⟩
          · rw [hend']
            exact (hs.worker wk' hwk').mono hend

theorem Inv.receivePong (hs : Inv σ w) {i : Nat} (h : step σ w (.receivePong i) = .ok w') :
    Inv σ w' := by
  cases hwk : w.worker with
  | none =>
      rw [step_receivePong_of_none (.inl hwk)] at h
      cases h
      exact hs
  | some wk =>
      cases hq : w.pongs[i]? with
      | none =>
          rw [step_receivePong_of_none (.inr hq)] at h
          cases h
          exact hs
      | some q =>
          rw [step_receivePong hwk hq] at h
          cases h
          have hw := hs.worker wk hwk
          have hpong : PongInv σ (leaseEnd σ w) q := hs.pongs q (List.mem_of_getElem? hq)
          refine (hs.losePong i).withWorker (hs.entry wk hwk) { hw with
            workerID := by simp [hw.workerID]
            masterEpoch := ?_
            timeoutConfig := by simp [hw.timeoutConfig]
            stamp := ?_ }
          · rcases MasterClient.handleHeartbeat_masterEpoch wk.client σ.masterNode q with
              he | he <;> rw [he]
            · exact hw.masterEpoch
            · exact hpong.1
          · -- the stamp stays, or becomes the send time of the pong
            rw [MasterClient.handleHeartbeat_lastMasterAckedPingTime]
            split
            · exact hw.stamp
            · exact hpong.2

/-- The check step of the world has the effect of `checkWorkerEntriesOnce`, at the master's
clock. -/
theorem checkEffect_of_step (h : step σ w .checkWorkerEntries = .ok w') :
    WorkerManager.CheckEffect (w.now + σ.clocks.master) w.master w'.master := by
  rw [step] at h
  cases hc : w.master.checkWorkerEntriesOnce (w.now + σ.clocks.master)
      w.master.workerEntries.keys with
  | error p =>
      rw [hc] at h
      cases h
  | ok r =>
      obtain ⟨m, err⟩ := r
      have heff := WorkerManager.checkWorkerEntriesOnce_checkEffect hc
      rw [hc] at h
      cases err with
      | none =>
          cases h
          exact heff
      | some err =>
          cases h
          exact heff.trans (WorkerManager.checkEffect_onError _ m err)

theorem Inv.checkWorkerEntries (hs : Inv σ w) (h : step σ w .checkWorkerEntries = .ok w') :
    Inv σ w' := by
  have heff := checkEffect_of_step h
  have hw' : w' = { w with master := w'.master } := by
    rw [step] at h
    split at h <;> cases h <;> rfl
  rw [hw']
  exact hs.withMaster heff.frame heff.workerEntries heff.expireAtOf

theorem Inv.step (hwall : σ.clocks.wall ≤ σ.clocks.mono) (hs : Inv σ w) {a : Action}
    (ha : allowed σ w a = true) (h : Lease.step σ w a = .ok w') : Inv σ w' := by
  cases a with
  | advance d =>
      cases h
      exact hs.advance ha
  | preDispatch =>
      cases h
      exact hs.preDispatch ha
  | beforeStartingWorker => exact hs.beforeStartingWorker ha h
  | startWorker => exact hs.startWorker hwall ha h
  | heartbeatTick isFinished => exact hs.heartbeatTick ha h
  | watchDogTick metaErr => exact hs.watchDogTick ha h
  | receivePing i => exact hs.receivePing h
  | receivePong i => exact hs.receivePong h
  | losePing i =>
      cases h
      exact hs.losePing i
  | losePong i =>
      cases h
      exact hs.losePong i
  | checkWorkerEntries => exact hs.checkWorkerEntries h

theorem inv_of_reachable (hwall : σ.clocks.wall ≤ σ.clocks.mono) (h : Reachable σ w) :
    Inv σ w :=
  Transition.Reachable.inv inv_init (fun _ _ _ hs ha hst => hs.step hwall ha hst) h

/-- The lease is safe on one clock. In every run in which the worker's initial stamp is not
ahead of its monotonic clock and the executor started the worker promptly, a check of the
master that times the worker out finds the worker not started or its watchdog returned. -/
theorem lease_safe (σ : Setup) (hwall : σ.clocks.wall ≤ σ.clocks.mono) {w w' : World}
    (hw : Reachable σ w) (hprompt : w.startedPromptly = true)
    (hcheck : Lease.step σ w .checkWorkerEntries = .ok w')
    (hout : timedOut σ.workerID w.master w'.master = true) : w.watchDogDown = true := by
  have hs := inv_of_reachable hwall hw
  obtain ⟨E, hE, hlt⟩ := expired_of_timedOut (checkEffect_of_step hcheck) hout
  obtain ⟨t, ht, hlo, -⟩ := hs.lease E hE
  have hend := leaseEnd_of_expireAtOf hE
  unfold World.watchDogDown
  cases hwk : w.worker with
  | none => rfl
  | some wk =>
      dsimp only
      cases hwd : wk.watchDog with
      | waiting next =>
          -- a waiting watchdog has its next tick due before the lease ends
          obtain ⟨hnow, hfirst | hnext⟩ := (hs.worker wk hwk).watchDog next hwd
          · rw [World.startedPromptly, hwk, ht] at hprompt
            simp only [decide_eq_true_eq] at hprompt
            omega
          · omega
      | fired => rfl
      | failed err => rfl

/-- A master and its worker on hosts whose clocks all read real time, as the mock clock of the
tests does. -/
def mockSetup : Setup :=
  { masterID := "jobmaster"
    masterNode := "executor-0"
    masterEpoch := 1
    workerID := "worker-0"
    executorID := "executor-1"
    clocks := ⟨0, 0, 0⟩ }

/-- The dispatch of the worker at real time zero: `PreDispatchTask`, `BeforeStartingWorker`,
and the start of the worker. -/
def dispatch : List Action := [.preDispatch, .beforeStartingWorker, .startWorker]

/-- One period of the worker's tickers while no ping reaches the master. -/
def silentRound : List Action :=
  [.advance heartbeatInterval, .heartbeatTick false, .losePing 0, .watchDogTick none]

/-- Five silent periods: the watchdog fires at `15 s`, and the master's checker runs at `21 s`,
past the lease. -/
def firedThenChecked : List Action :=
  dispatch ++ silentRound ++ silentRound ++ silentRound ++ silentRound ++ silentRound ++
    [.advance heartbeatInterval, .heartbeatTick false, .losePing 0, .advance heartbeatInterval]

/-- The world after `firedThenChecked`, just before the check. -/
def afterFired : World :=
  match Transition.run (step mockSetup) (init mockSetup) firedThenChecked with
  | .ok w => w
  | .error _ => init mockSetup

theorem reachable_afterFired : Reachable mockSetup afterFired :=
  Transition.reachable_run .init (by decide) (rfl : Transition.run (step mockSetup)
    (init mockSetup) firedThenChecked = .ok afterFired)

/-- The world after the check of `afterFired`. -/
def checkedAfterFired : World :=
  match step mockSetup afterFired .checkWorkerEntries with
  | .ok w => w
  | .error _ => afterFired

theorem lease_safe_after_fired :
    step mockSetup afterFired .checkWorkerEntries = .ok checkedAfterFired ∧
      timedOut mockSetup.workerID afterFired.master checkedAfterFired.master = true ∧
      afterFired.watchDogDown = true :=
  ⟨rfl, rfl, lease_safe mockSetup (le_refl _) reachable_afterFired rfl rfl rfl⟩

/-- On one clock, a worker that the executor starts `18 s` after taking it has its first
watchdog tick due at `21 s`, after the lease has run out: promptness is needed. -/
def lateStart : List Action :=
  [.preDispatch, .beforeStartingWorker, .advance 18000, .startWorker, .advance 2001]

/-- The world after `lateStart`, at `20.001 s`. -/
def afterLateStart : World :=
  match Transition.run (step mockSetup) (init mockSetup) lateStart with
  | .ok w => w
  | .error _ => init mockSetup

/-- The world after the check of `afterLateStart`. -/
def checkedAfterLateStart : World :=
  match step mockSetup afterLateStart .checkWorkerEntries with
  | .ok w => w
  | .error _ => afterLateStart

theorem lease_needs_prompt_start :
    Reachable mockSetup afterLateStart ∧ afterLateStart.startedPromptly = false ∧
      step mockSetup afterLateStart .checkWorkerEntries = .ok checkedAfterLateStart ∧
      timedOut mockSetup.workerID afterLateStart.master checkedAfterLateStart.master = true ∧
      afterLateStart.watchDogDown = false :=
  ⟨Transition.reachable_run .init (by decide) (rfl : Transition.run (step mockSetup)
    (init mockSetup) lateStart = .ok afterLateStart), by decide, rfl, rfl, rfl⟩

end OneClock

/-! ## The stamp of `ToMono` -/

section WallClock

variable (σ : Setup)

/-- The master once `BeforeStartingWorker` ran at real time zero. -/
def dispatchedMaster : WorkerManager :=
  (init σ).master.putNew σ.workerID
    (newWorkerEntry σ.workerID σ.executorID
      ((init σ).master.nextExpireTime (0 + σ.clocks.master)) .created (some { code := .created }))

/-- The client of a worker started at real time zero, which has handled no pong. -/
def cutOffClient : MasterClient :=
  { newMasterClient σ.workerID (0 + σ.clocks.wall) with
    masterNode := σ.masterNode, masterEpoch := σ.masterEpoch }

/-- The world at time `t` of a worker dispatched and started at real time zero whose pings
have all been lost, when both of its tickers are next due at `t + heartbeatInterval`. -/
def cutOff (t : Nat) : World :=
  { now := t
    master := dispatchedMaster σ
    submittedAt := some 0
    worker := some
      { client := cutOffClient σ
        nextHeartbeat := t + heartbeatInterval
        watchDog := .waiting (t + heartbeatInterval)
        startedAt := 0 }
    pings := []
    pongs := [] }

theorem run_dispatch :
    Transition.allowedAlong (step σ) (allowed σ) (init σ) dispatch = true ∧
      Transition.run (step σ) (init σ) dispatch = .ok (cutOff σ 0) := by
  have h1 : step σ (init σ) .preDispatch = .ok { init σ with submittedAt := some 0 } := rfl
  have h2 : step σ { init σ with submittedAt := some 0 } .beforeStartingWorker =
      .ok { init σ with submittedAt := some 0, master := dispatchedMaster σ } := rfl
  have h3 : step σ { init σ with submittedAt := some 0, master := dispatchedMaster σ }
      .startWorker = .ok (cutOff σ 0) := rfl
  have a3 : allowed σ { init σ with submittedAt := some 0, master := dispatchedMaster σ }
      .startWorker = true := by
    simp [allowed, dispatchedMaster, WorkerManager.putNew, init]
  refine ⟨?_, rfl⟩
  simp only [dispatch, Transition.allowedAlong, h1, h2, h3, a3, Bool.and_true]
  rfl

/-- A silent period: the watchdog finds the stamp, `ToMono` of the submit time, at most twice
the heartbeat interval old on the monotonic clock, and waits. -/
theorem run_silentRound {t : Nat}
    (hgap : t + heartbeatInterval + σ.clocks.mono ≤ σ.clocks.wall + 2 * heartbeatInterval) :
    Transition.allowedAlong (step σ) (allowed σ) (cutOff σ t) silentRound = true ∧
      Transition.run (step σ) (cutOff σ t) silentRound =
        .ok (cutOff σ (t + heartbeatInterval)) := by
  let w₁ : World := { cutOff σ t with now := t + heartbeatInterval }
  let w₂ : World := { w₁ with
    worker := some
      { client := cutOffClient σ
        nextHeartbeat := t + heartbeatInterval + heartbeatInterval
        watchDog := .waiting (t + heartbeatInterval)
        startedAt := 0 }
    pings := [(cutOffClient σ).sendHeartBeat (t + heartbeatInterval + σ.clocks.mono) false] }
  let w₃ : World := { w₂ with pings := [] }
  have h1 : step σ (cutOff σ t) (.advance heartbeatInterval) = .ok w₁ := rfl
  have h2 : step σ w₁ (.heartbeatTick false) = .ok w₂ := rfl
  have h3 : step σ w₂ (.losePing 0) = .ok w₃ := rfl
  have h4 : step σ w₃ (.watchDogTick none) = .ok (cutOff σ (t + heartbeatInterval)) := by
    rw [step_watchDogTick none rfl rfl, MasterClient.runWatchDogOnce_of_le]
    · rfl
    · show ((t + heartbeatInterval + σ.clocks.mono : Nat) : Int) -
          ((0 + σ.clocks.wall : Nat) : Int) ≤
        2 * TimeoutConfig.defaultTimeoutConfig.workerHeartbeatInterval
      rw [heartbeatInterval_eq] at hgap ⊢
      rw [TimeoutConfig.defaultTimeoutConfig_workerHeartbeatInterval]
      omega
  have a1 : allowed σ (cutOff σ t) (.advance heartbeatInterval) = true := by
    simp [allowed, cutOff, Worker.noTickBefore]
  have a2 : allowed σ w₁ (.heartbeatTick false) = true := by
    simp [allowed, w₁, cutOff]
  have a4 : allowed σ w₃ (.watchDogTick none) = true := by
    simp [allowed, w₃, w₂, w₁, Worker.watchDogDue]
  refine ⟨?_, ?_⟩
  · simp only [silentRound, Transition.allowedAlong, h1, h2, h3, h4, a1, a2, a4, Bool.and_true]
    rfl
  · rw [silentRound, Transition.run_cons_ok _ h1, Transition.run_cons_ok _ h2,
      Transition.run_cons_ok _ h3, Transition.run_cons_ok _ h4, Transition.run_nil]

/-- Without a pong, the watchdog waits as long as the worker's wall clock, read from the Unix
epoch, is ahead of its monotonic clock: at every period `n` whose end is within twice the
heartbeat interval of `wall - mono`, the cut-off world is reachable. -/
theorem reachable_cutOff (n : Nat)
    (hgap : heartbeatInterval * n + σ.clocks.mono ≤ σ.clocks.wall + 2 * heartbeatInterval) :
    Reachable σ (cutOff σ (heartbeatInterval * n)) := by
  induction n with
  | zero =>
      obtain ⟨hal, hrun⟩ := run_dispatch σ
      exact Transition.reachable_run .init hal hrun
  | succ n ih =>
      rw [Nat.mul_succ] at hgap ⊢
      obtain ⟨hal, hrun⟩ := run_silentRound σ hgap
      exact Transition.reachable_run (ih (by omega)) hal hrun

/-- Past the lease, the master's check times the cut-off worker out. -/
theorem timedOut_cutOff {t : Nat} (ht : leaseDuration < t) :
    ∃ w', step σ (cutOff σ t) .checkWorkerEntries = .ok w' ∧
      timedOut σ.workerID (cutOff σ t).master w'.master = true := by
  have href : (dispatchedMaster σ).workerEntries.lookup σ.workerID = some 0 :=
    AList.lookup_insert _
  have hexpire : ((dispatchedMaster σ).entry 0).expireAt = σ.clocks.master + leaseDuration := by
    show (init σ).master.nextExpireTime (0 + σ.clocks.master) = _
    simp [WorkerManager.nextExpireTime, init, newWorkerManager, leaseDuration]
  obtain ⟨m, hloop, hentries, hentry⟩ := @WorkerManager.checkWorkerEntriesLoop_marks
    (t + σ.clocks.master) _ _ _ href (.inl rfl) (by rw [hexpire]; omega)
    (show ([] : List MasterEvent).length < eventQueueCapacity by decide)
  have hkeys : (dispatchedMaster σ).workerEntries.keys = [σ.workerID] := rfl
  have hcheck : (dispatchedMaster σ).checkWorkerEntriesOnce (t + σ.clocks.master)
      [σ.workerID] = .ok (m, none) := hloop
  refine ⟨{ cutOff σ t with master := m }, by simp only [step, cutOff, hkeys, hcheck], ?_⟩
  have hold : (dispatchedMaster σ).entryOf σ.workerID = some ((dispatchedMaster σ).entry 0) := by
    simp [WorkerManager.entryOf, href]
  have hnew : m.entryOf σ.workerID =
      some { (dispatchedMaster σ).entry 0 with state := .offline } := by
    simp [WorkerManager.entryOf, hentries, href, hentry]
  simp only [timedOut, cutOff, hold, hnew]
  rfl

/-- The lease breaks on every host whose wall clock, read from the Unix epoch, is ahead of its
monotonic clock by the lease. A worker cut off from its master from the start is timed out at
every period past the lease, while its watchdog still waits, for as long as the gap lasts. -/
theorem lease_broken_of_wall_ahead (n : Nat) (hn : leaseDuration < heartbeatInterval * n)
    (hgap : heartbeatInterval * n + σ.clocks.mono ≤ σ.clocks.wall + 2 * heartbeatInterval) :
    Reachable σ (cutOff σ (heartbeatInterval * n)) ∧
      (∃ w', step σ (cutOff σ (heartbeatInterval * n)) .checkWorkerEntries = .ok w' ∧
        timedOut σ.workerID (cutOff σ (heartbeatInterval * n)).master w'.master = true) ∧
      (cutOff σ (heartbeatInterval * n)).watchDogDown = false :=
  ⟨reachable_cutOff σ n hgap, timedOut_cutOff σ hn, rfl⟩

end WallClock

/-- A host that booted at real time zero, when its wall clock read `1700000000000` ms since the
Unix epoch (November 2023); the master's clock reads real time. -/
def hostSetup : Setup :=
  { mockSetup with clocks := ⟨0, 0, 1700000000000⟩ }

/-- The world after the master's check at `21 s` of the worker cut off on `hostSetup`. -/
def checkedCutOff : World :=
  match step hostSetup (cutOff hostSetup 21000) .checkWorkerEntries with
  | .ok w => w
  | .error _ => cutOff hostSetup 21000

theorem lease_broken_by_wall_clock_stamp :
    Reachable hostSetup (cutOff hostSetup 21000) ∧
      step hostSetup (cutOff hostSetup 21000) .checkWorkerEntries = .ok checkedCutOff ∧
      timedOut hostSetup.workerID (cutOff hostSetup 21000).master checkedCutOff.master = true ∧
      (cutOff hostSetup 21000).watchDogDown = false :=
  ⟨reachable_cutOff hostSetup 7 (by decide), rfl, rfl, rfl⟩

end Lease

end Microcosm
