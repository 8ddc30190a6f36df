import Microcosm.Executor.TaskCommitter

/-!
# The dispatcher's side of two-phase dispatch

`client/task_dispatcher.go`. A call of `DispatchTask` is a process of its own: it sends
`PreDispatchTask` under a fresh request ID, retries after `retryInterval` the errors
that gRPC may have produced itself unless the wait would pass the deadline, and once a
request is accepted calls `startWorkerTimer`, sends `ConfirmDispatchTask` once, and calls
`abortWorker` if the confirmation failed for sure, with a code that only the executor
returns. The context of the call can end at any time.

`DispatchTaskCall.step` performs the call's next action on an event of its environment
and returns the requests it sends and the callbacks it makes. `Moves` lists what one step
can do, and `step_moves` says that `step` does one of these things; the proofs about the
protocol go through `Moves` and never unfold `step`.
-/

namespace Microcosm

namespace Client

open Executor

/-- `DispatchTaskArgs`, by the field the protocol reads. The master ID, worker type and
config only travel to the executor's `makeTask`, whose outcome its model takes as
given. -/
structure DispatchTaskArgs where
  workerID : String
  deriving DecidableEq, Repr

/-- `ExecutorRequest`: a command and its request. -/
inductive ExecutorRequest
  | preDispatchTask (req : PreDispatchTaskRequest)
  | confirmDispatchTask (req : ConfirmDispatchTaskRequest)
  deriving DecidableEq, Repr

/-- The request ID of a request. -/
def ExecutorRequest.requestID : ExecutorRequest → RequestID
  | .preDispatchTask req => req.requestID
  | .confirmDispatchTask req => req.requestID

/-- The request ID of a `PreDispatchTask` request. -/
def ExecutorRequest.preRequestID : ExecutorRequest → Option RequestID
  | .preDispatchTask req => some req.requestID
  | .confirmDispatchTask _ => none

/-- `status.Convert(err).Code()`: an error that is not a gRPC status has code
`Unknown`. -/
def convertCode : Error → Code
  | .status code => code
  | _ => .unknown

/-- The panic of the dispatcher: `log.L().Panic("Unexpected error")` on `AlreadyExists`. -/
inductive DispatchPanic
  | unexpectedError
  deriving DecidableEq, Repr

/-- `preDispatchTaskOnce` after its RPC returned `reply`: whether to retry, and the
error. An error that is not a gRPC status is not retried. -/
def preDispatchTaskOnce (reply : Except Error Unit) : Except DispatchPanic (Bool × Option Error) :=
  match reply with
  | .ok () => .ok (false, none)
  | .error err =>
      match err with
      | .status .aborted => .ok (false, some err)
      | .status .alreadyExists => .error .unexpectedError
      | .status _ => .ok (true, some err)
      | _ => .ok (false, some err)

/-- `confirmDispatchTask` after its RPC returned `reply`: whether the failure is
guaranteed, and the error. -/
def confirmDispatchTask (reply : Except Error Unit) : Bool × Option Error :=
  match reply with
  | .ok () => (false, none)
  | .error err =>
      match convertCode err with
      | .aborted | .notFound => (true, some err)
      | _ => (false, some err)

/-- Where a call of `DispatchTask` is. -/
inductive DispatchPhase
  /-- At the top of the loop of `preDispatchTaskWithRetry`. -/
  | loopTop
  /-- Waiting for the reply to `PreDispatchTask` under `requestID`. -/
  | preDispatching (requestID : RequestID)
  /-- Waiting on the retry timer or the end of the context. -/
  | retryWait
  /-- `startWorkerTimer` was called; waiting for the reply to `ConfirmDispatchTask`. -/
  | confirming (requestID : RequestID)
  /-- `DispatchTask` returned `result`. -/
  | returned (result : Except Error Unit)
  deriving DecidableEq, Repr

/-- The phases before `startWorkerTimer`. -/
def DispatchPhase.BeforeConfirm : DispatchPhase → Prop
  | .loopTop | .preDispatching _ | .retryWait => True
  | _ => False

-- Many proofs below unfold this definition, and Lean elaborates them in parallel: the empty
-- section generates its equation lemmas here, once, so that the proofs do not all wait on it.
-- The simp set outside the section is unchanged.
section
attribute [local simp] DispatchPhase.BeforeConfirm
end

/-- The callbacks a call of `DispatchTask` is given. -/
inductive Callback
  | startWorkerTimer
  | abortWorker (err : Error)
  deriving DecidableEq, Repr

/-- A call of `DispatchTask`: its arguments, the retry interval of the dispatcher, the
deadline and the error of its context, and where it is. -/
structure DispatchTaskCall where
  args : DispatchTaskArgs
  retryInterval : Nat
  deadline : Option Nat
  ctxErr : Option Error
  phase : DispatchPhase
  deriving DecidableEq, Repr

/-- The events a call reacts to. -/
inductive DispatchEvent
  /-- The call runs the top of its loop; `requestID` is the UUID it generates there. -/
  | proceed (requestID : RequestID)
  /-- The pending RPC returned `reply`; `now` is the clock reading after it. -/
  | reply (reply : Except Error Unit) (now : Nat)
  /-- The retry timer fired. -/
  | timerFired
  /-- The wait saw the context done. -/
  | ctxDone
  /-- The context ended with `err`: its deadline passed or it was cancelled. -/
  | cancel (err : Error)
  deriving DecidableEq, Repr

/-- `preDispatchTaskRetryInterval`, the retry interval of `newTaskDispatcher`, in
milliseconds. -/
def preDispatchTaskRetryInterval : Nat := 1000

namespace DispatchTaskCall

/-- The call at the start of `DispatchTask`. -/
def start (args : DispatchTaskArgs) (retryInterval : Nat) (deadline : Option Nat) :
    DispatchTaskCall :=
  { args, retryInterval, deadline, ctxErr := none, phase := .loopTop }

/-- `DispatchTask` returns `result`. -/
def finish (d : DispatchTaskCall) (result : Except Error Unit) : DispatchTaskCall :=
  { d with phase := .returned result }

/-- The deadline check of `preDispatchTaskWithRetry`. -/
def wouldExceedDeadline (d : DispatchTaskCall) (now : Nat) : Bool :=
  match d.deadline with
  | some deadline => now + d.retryInterval > deadline
  | none => false

/-- One step of the call: the new state, the requests sent and the callbacks made. An
event the call is not waiting for changes nothing. -/
def step (d : DispatchTaskCall) :
    DispatchEvent → Except DispatchPanic (DispatchTaskCall × List ExecutorRequest × List Callback)
  | .cancel err => .ok ({ d with ctxErr := d.ctxErr.or (some err) }, [], [])
  | ev =>
      match d.phase, ev with
      | .loopTop, .proceed requestID =>
          match d.ctxErr with
          | some err => .ok (d.finish (.error (.errExecutorPreDispatchFailed err)), [], [])
          | none =>
              .ok ({ d with phase := .preDispatching requestID },
                [.preDispatchTask ⟨d.args.workerID, requestID⟩], [])
      | .preDispatching requestID, .reply reply now =>
          match preDispatchTaskOnce reply with
          | .error p => .error p
          | .ok (_, none) =>
              .ok ({ d with phase := .confirming requestID },
                [.confirmDispatchTask ⟨d.args.workerID, requestID⟩], [.startWorkerTimer])
          | .ok (false, some err) =>
              .ok (d.finish (.error (.errExecutorPreDispatchFailed err)), [], [])
          | .ok (true, some _) =>
              if d.wouldExceedDeadline now then
                .ok (d.finish (.error (.errExecutorPreDispatchFailed .deadlineExceeded)), [], [])
              else .ok ({ d with phase := .retryWait }, [], [])
      | .retryWait, .timerFired => .ok ({ d with phase := .loopTop }, [], [])
      | .retryWait, .ctxDone =>
          match d.ctxErr with
          | some err =>
              .ok (d.finish (.error (.errExecutorPreDispatchFailed
                (.errExecutorPreDispatchFailed err))), [], [])
          | none => .ok (d, [], [])
      | .confirming _, .reply reply _ =>
          match confirmDispatchTask reply with
          | (_, none) => .ok (d.finish (.ok ()), [], [])
          | (true, some err) =>
              .ok (d.finish (.error (.errExecutorConfirmDispatchFailed err)), [],
                [.abortWorker (.errExecutorConfirmDispatchFailed err)])
          -- the undetermined state is treated as success
          | (false, some _) => .ok (d.finish (.ok ()), [], [])
      | _, _ => .ok (d, [], [])

section
attribute [local simp] step
end

/-- The request the call waits for the reply to. -/
def pendingRequest (d : DispatchTaskCall) : Option ExecutorRequest :=
  match d.phase with
  | .preDispatching requestID => some (.preDispatchTask ⟨d.args.workerID, requestID⟩)
  | .confirming requestID => some (.confirmDispatchTask ⟨d.args.workerID, requestID⟩)
  | _ => none

/-- What one step of a call can do. -/
inductive Moves (d : DispatchTaskCall) :
    DispatchEvent → DispatchTaskCall → List ExecutorRequest → List Callback → Prop
  /-- An event that changes nothing. -/
  | idle (ev : DispatchEvent) : Moves d ev d [] []
  /-- The context ends. -/
  | cancel (err : Error) : Moves d (.cancel err) { d with ctxErr := d.ctxErr.or (some err) } [] []
  /-- The loop stops before a request or after a failed one, with `startWorkerTimer`
  never called. -/
  | giveUp (ev : DispatchEvent) (err : Error) : d.phase.BeforeConfirm →
      Moves d ev (d.finish (.error (.errExecutorPreDispatchFailed err))) [] []
  /-- A retried request waits for the timer. -/
  | wait (requestID : RequestID) (ev : DispatchEvent) : d.phase = .preDispatching requestID →
      Moves d ev { d with phase := .retryWait } [] []
  /-- The timer fired. -/
  | retry : d.phase = .retryWait → Moves d .timerFired { d with phase := .loopTop } [] []
  /-- A new `PreDispatchTask` request is sent. -/
  | send (requestID : RequestID) : d.phase = .loopTop → d.ctxErr = none →
      Moves d (.proceed requestID) { d with phase := .preDispatching requestID }
        [.preDispatchTask ⟨d.args.workerID, requestID⟩] []
  /-- The request was accepted: `startWorkerTimer`, then `ConfirmDispatchTask`. -/
  | accepted (requestID : RequestID) (now : Nat) : d.phase = .preDispatching requestID →
      Moves d (.reply (.ok ()) now) { d with phase := .confirming requestID }
        [.confirmDispatchTask ⟨d.args.workerID, requestID⟩] [.startWorkerTimer]
  /-- The confirmation returned, and the call reports success. -/
  | confirmed (requestID : RequestID) (reply : Except Error Unit) (now : Nat) :
      d.phase = .confirming requestID → Moves d (.reply reply now) (d.finish (.ok ())) [] []
  /-- The confirmation failed for sure: `abortWorker`. -/
  | aborted (requestID : RequestID) (err : Error) (now : Nat) :
      d.phase = .confirming requestID → (convertCode err = .aborted ∨ convertCode err = .notFound) →
      Moves d (.reply (.error err) now) (d.finish (.error (.errExecutorConfirmDispatchFailed err))) []
        [.abortWorker (.errExecutorConfirmDispatchFailed err)]

theorem preDispatchTaskOnce_ok_none {reply : Except Error Unit} {b : Bool}
    (h : preDispatchTaskOnce reply = .ok (b, none)) : reply = .ok () := by
  unfold preDispatchTaskOnce at h
  split at h
  · rfl
  · split at h <;> cases h

theorem preDispatchTaskOnce_eq_error {reply : Except Error Unit} {p : DispatchPanic}
    (h : preDispatchTaskOnce reply = .error p) : reply = .error (.status .alreadyExists) := by
  unfold preDispatchTaskOnce at h
  split at h
  · cases h
  · split at h <;> first | rfl | cases h

theorem confirmDispatchTask_true {reply : Except Error Unit} {err : Error}
    (h : confirmDispatchTask reply = (true, some err)) :
    reply = .error err ∧ (convertCode err = .aborted ∨ convertCode err = .notFound) := by
  unfold confirmDispatchTask at h
  split at h
  · cases h
  · rename_i err' _
    split at h
    · cases h
      exact ⟨rfl, .inl ‹_›⟩
    · cases h
      exact ⟨rfl, .inr ‹_›⟩
    · cases h

/-- Every step of a call is one of the `Moves`. -/
theorem step_moves {d d' : DispatchTaskCall} {ev : DispatchEvent}
    {sends : List ExecutorRequest} {cbs : List Callback}
    (h : d.step ev = .ok (d', sends, cbs)) : Moves d ev d' sends cbs := by
  cases ev with
  | cancel err =>
      cases h
      exact .cancel err
  | proceed requestID =>
      cases hp : d.phase with
      | loopTop =>
          simp only [step, hp] at h
          split at h
          · rename_i err _
            cases h
            exact .giveUp _ err (by simp [hp, DispatchPhase.BeforeConfirm])
          · rename_i hc
            cases h
            exact .send requestID hp hc
      | _ => simp only [step, hp] at h; cases h; exact .idle _
  | reply reply now =>
      cases hp : d.phase with
      | preDispatching requestID =>
          simp only [step, hp] at h
          cases ho : preDispatchTaskOnce reply with
          | error p => rw [ho] at h; cases h
          | ok o =>
              rw [ho] at h
              obtain ⟨retry, err⟩ := o
              cases err with
              | none =>
                  obtain rfl := preDispatchTaskOnce_ok_none ho
                  cases h
                  exact .accepted requestID now hp
              | some err =>
                  have hbefore : d.phase.BeforeConfirm := by simp [hp, DispatchPhase.BeforeConfirm]
                  cases retry with
                  | false =>
                      cases h
                      exact .giveUp _ err hbefore
                  | true =>
                      dsimp only at h
                      split at h
                      · cases h
                        exact .giveUp _ _ hbefore
                      · cases h
                        exact .wait requestID _ hp
      | confirming requestID =>
          simp only [step, hp] at h
          cases hc : confirmDispatchTask reply with
          | mk sure err =>
              rw [hc] at h
              cases err with
              | none =>
                  cases h
                  exact .confirmed requestID reply now hp
              | some err =>
                  cases sure with
                  | true =>
                      obtain ⟨rfl, hcode⟩ := confirmDispatchTask_true hc
                      cases h
                      exact .aborted requestID err now hp hcode
                  | false =>
                      cases h
                      exact .confirmed requestID reply now hp
      | _ => simp only [step, hp] at h; cases h; exact .idle _
  | timerFired =>
      cases hp : d.phase with
      | retryWait =>
          simp only [step, hp] at h
          cases h
          exact .retry hp
      | _ => simp only [step, hp] at h; cases h; exact .idle _
  | ctxDone =>
      cases hp : d.phase with
      | retryWait =>
          simp only [step, hp] at h
          split at h
          · cases h
            exact .giveUp _ _ (by simp [hp, DispatchPhase.BeforeConfirm])
          · cases h
            exact .idle _
      | _ => simp only [step, hp] at h; cases h; exact .idle _

/-- The only panic of a call: a `PreDispatchTask` reply `AlreadyExists`. -/
theorem step_eq_error {d : DispatchTaskCall} {ev : DispatchEvent} {p : DispatchPanic}
    (h : d.step ev = .error p) :
    ∃ requestID now, d.phase = .preDispatching requestID ∧
      ev = .reply (.error (.status .alreadyExists)) now := by
  cases ev with
  | cancel err => cases h
  | reply reply now =>
      cases hp : d.phase with
      | preDispatching requestID =>
            simp only [step, hp] at h
            cases ho : preDispatchTaskOnce reply with
            | error p => exact ⟨requestID, now, rfl, by rw [preDispatchTaskOnce_eq_error ho]⟩
            | ok o =>
                rw [ho] at h
                obtain ⟨retry, _ | err⟩ := o
                · cases h
                · cases retry
                  · cases h
                  · dsimp only at h
                    split at h <;> cases h
      | confirming requestID =>
            simp only [step, hp] at h
            split at h <;> cases h
      | _ => simp only [step, hp] at h; cases h
  | proceed requestID =>
      cases hp : d.phase <;> simp only [step, hp] at h <;> (try split at h) <;> cases h
  | timerFired => cases hp : d.phase <;> simp only [step, hp] at h <;> cases h
  | ctxDone =>
      cases hp : d.phase <;> simp only [step, hp] at h <;> (try split at h) <;> cases h

end DispatchTaskCall

end Client

end Microcosm
