import Microcosm.Library.Channel
import Microcosm.Client.TaskDispatcher

/-!
# Two-phase dispatch between a dispatcher and an executor

One call of `DispatchTask` against an executor, over a network that may lose a request,
deliver it late, or lose its reply. The call's requests in flight and the executor's
replies to them are unordered channels. A pending RPC of the call may also fail in gRPC
or in the network with any code that those produce (`Code.fromTransport`), whether or not
the executor has processed or will process the request. Around the call, other
dispatches send their own requests to the same executor, under request IDs that are
not the call's, and the executor's TTL checker and runner do their work
(`ProtocolAction.executor`).

The call generates fresh request IDs: `proceed` is only allowed with an ID that no one
has used. Over every run (`dispatch_delivers_at_most_once`): the runner receives at most
one task carried by a request of the call; each task it receives was confirmed while its
request was the last one accepted for the task and had neither expired nor been
confirmed; and once the call has called `abortWorker`, no task of the call has reached
the runner or ever will. The call never hits its `AlreadyExists` panic, and the executor
none of its panics (`no_protocol_panic`).
-/

namespace Microcosm

namespace Client

open Executor

/-- The panics of the protocol. -/
inductive ProtocolPanic
  | executor (p : Executor.Panic)
  | dispatcher (p : DispatchPanic)
  deriving DecidableEq, Repr

/-- One call of `DispatchTask` and an executor. Ghost fields: the callbacks the call has
made, the request IDs it generated, and the request IDs of the other dispatches. -/
structure Protocol where
  call : DispatchTaskCall
  executor : TaskCommitter
  /-- The call's requests that the executor has not processed. -/
  inFlight : List ExecutorRequest
  /-- The executor's replies to them that the call has not received. -/
  replies : List (ExecutorRequest × Except Error Unit)
  callbacks : List Callback
  ourIDs : List RequestID
  foreignIDs : List RequestID

/-- The steps of the parties. -/
inductive ProtocolAction
  /-- The call runs the top of its loop with the UUID `requestID`. -/
  | proceed (requestID : RequestID)
  /-- The call receives the executor's reply to its pending request. -/
  | receive (now : Nat)
  /-- The call's pending RPC fails in gRPC or in the network. -/
  | transportError (code : Code) (now : Nat)
  | timerFired
  | ctxDone
  | cancel (err : Error)
  /-- The executor processes the `i`-th request of the call in flight. -/
  | serve (i : Nat) (taskMade : Bool) (now : Nat)
  /-- A request of another dispatch, a round of the TTL checker, or a step of the runner. -/
  | executor (op : ExecutorOp)

/-- Whether a request is a `ConfirmDispatchTask`. -/
def ExecutorRequest.isConfirm : ExecutorRequest → Bool
  | .confirmDispatchTask _ => true
  | .preDispatchTask _ => false

/-- The executor's handler for a request. -/
def serveRequest (c : TaskCommitter) (req : ExecutorRequest) (taskMade : Bool) (now : Nat) :
    Except Executor.Panic (TaskCommitter × Except Error Unit) :=
  match req with
  | .preDispatchTask r => Server.preDispatchTask c r taskMade now
  | .confirmDispatchTask r => Server.confirmDispatchTask c r

namespace Protocol

/-- The call at its start against the executor `c`, whose log holds the IDs of the
dispatches before it. -/
def init (args : DispatchTaskArgs) (retryInterval : Nat) (deadline : Option Nat)
    (c : TaskCommitter) : Protocol :=
  { call := .start args retryInterval deadline, executor := c, inFlight := [], replies := []
    callbacks := [], ourIDs := [], foreignIDs := c.history.filterMap CommitterEvent.acceptedID }

/-- A step of the call: its requests go in flight, and the IDs of its `PreDispatchTask`
requests are its own. -/
def callStep (s : Protocol) (ev : DispatchEvent) : Except ProtocolPanic Protocol :=
  match s.call.step ev with
  | .error p => .error (.dispatcher p)
  | .ok (call, sends, cbs) =>
      .ok { s with
        call
        inFlight := s.inFlight ++ sends
        callbacks := s.callbacks ++ cbs
        ourIDs := s.ourIDs ++ sends.filterMap ExecutorRequest.preRequestID }

/-- Performing one step. -/
def step (s : Protocol) : ProtocolAction → Except ProtocolPanic Protocol
  | .proceed requestID => s.callStep (.proceed requestID)
  | .receive now =>
      match s.call.pendingRequest with
      | none => .ok s
      | some req =>
          match Channel.takeFirst (fun x => x.1 == req) s.replies with
          | none => .ok s
          | some ((_, reply), replies) => { s with replies }.callStep (.reply reply now)
  | .transportError code now =>
      match s.call.pendingRequest with
      | none => .ok s
      | some _ => s.callStep (.reply (.error (.status code)) now)
  | .timerFired => s.callStep .timerFired
  | .ctxDone => s.callStep .ctxDone
  | .cancel err => s.callStep (.cancel err)
  | .serve i taskMade now =>
      match Channel.take s.inFlight i with
      | none => .ok s
      | some (req, inFlight) =>
          match serveRequest s.executor req taskMade now with
          | .error p => .error (.executor p)
          | .ok (executor, reply) =>
              .ok { s with executor, inFlight, replies := s.replies ++ [(req, reply)] }
  | .executor op =>
      match s.executor.step op with
      | .error p => .error (.executor p)
      | .ok executor => .ok { s with executor, foreignIDs := s.foreignIDs ++ op.requestID?.toList }

-- Many proofs below unfold this definition, and Lean elaborates them in parallel: the empty
-- section generates its equation lemmas here, once, so that the proofs do not all wait on it.
-- The simp set outside the section is unchanged.
section
attribute [local simp] step
end

/-- The call's request IDs are fresh, the transport produces only its own codes, other
dispatches use other request IDs, and the TTL checker iterates over the map. -/
def allowed (s : Protocol) : ProtocolAction → Bool
  | .proceed requestID => decide (requestID ∉ s.ourIDs ∧ requestID ∉ s.foreignIDs)
  | .transportError code _ => code.fromTransport
  | .executor op =>
      s.executor.allowed op && decide (∀ r ∈ op.requestID?, r ∉ s.ourIDs)
  | _ => true

section
attribute [local simp] allowed
end

/-- The runs of one call against the executor `c`. -/
def Reachable (args : DispatchTaskArgs) (retryInterval : Nat) (deadline : Option Nat)
    (c : TaskCommitter) : Protocol → Prop :=
  Transition.Reachable step allowed (init args retryInterval deadline c)

/-- The tasks the runner received that a request of the call carried. -/
def ourReceived (s : Protocol) : List RunnableContainer :=
  s.executor.runner.received.filter fun task => decide (task.origin ∈ s.ourIDs)

/-- The number of the call's `ConfirmDispatchTask` requests in flight. -/
def confirmsInFlight (s : Protocol) : Nat :=
  (s.inFlight.filter ExecutorRequest.isConfirm).length

/-- The invariant of the protocol. -/
structure Inv (s : Protocol) : Prop where
  executor : s.executor.Inv
  accepted_known : ∀ r t, .accepted r t ∈ s.executor.history → r ∈ s.ourIDs ∨ r ∈ s.foreignIDs
  ours_not_foreign : ∀ r ∈ s.ourIDs, r ∉ s.foreignIDs
  inFlight_ours : ∀ req ∈ s.inFlight, req.requestID ∈ s.ourIDs
  /-- A `PreDispatchTask` in flight has not been accepted, and is the only one of its ID. -/
  inFlight_fresh : ∀ req ∈ s.inFlight, ∀ r ∈ req.preRequestID, ∀ t,
    .accepted r t ∉ s.executor.history
  inFlight_nodup : (s.inFlight.filterMap ExecutorRequest.preRequestID).Nodup
  before_confirm : s.call.phase.BeforeConfirm → s.callbacks = []
  confirming : ∀ r, s.call.phase = .confirming r → s.callbacks = [.startWorkerTimer]
  phase_ours : ∀ r, (s.call.phase = .preDispatching r ∨ s.call.phase = .confirming r) →
    r ∈ s.ourIDs
  callbacks_shape : s.callbacks = [] ∨ s.callbacks = [.startWorkerTimer] ∨
    ∃ err, s.callbacks = [.startWorkerTimer, .abortWorker err]
  /-- One `ConfirmDispatchTask` is sent, after `startWorkerTimer`; it hands over at most
  one task. -/
  count : s.confirmsInFlight + s.ourReceived.length ≤ if s.callbacks = [] then 0 else 1
  no_confirm_reply : s.callbacks = [] → ∀ x ∈ s.replies, x.1.isConfirm = false
  /-- A certain failure of the confirmation was a confirmation that handed over nothing. -/
  failed_reply : ∀ req err, (req, .error err) ∈ s.replies → req.isConfirm = true →
    (convertCode err = .aborted ∨ convertCode err = .notFound) →
      s.ourReceived = [] ∧ s.confirmsInFlight = 0
  aborted : ∀ err, .abortWorker err ∈ s.callbacks → s.ourReceived = [] ∧ s.confirmsInFlight = 0
  no_alreadyExists : ∀ x ∈ s.replies, x.2 ≠ .error (.status .alreadyExists)

section Lemmas

variable {s s' : Protocol}

theorem ExecutorRequest.requestID_of_pre {req : ExecutorRequest} {r : RequestID}
    (h : req.preRequestID = some r) : req.requestID = r := by
  cases req with
  | preDispatchTask req =>
      simp only [ExecutorRequest.preRequestID, Option.some.injEq] at h
      exact h
  | confirmDispatchTask req => cases h

theorem not_mem_ourIDs_of_received (hinv : s.Inv) {r : RequestID} (hr : r ∉ s.ourIDs)
    (hf : r ∉ s.foreignIDs) {task : RunnableContainer} (ht : task ∈ s.executor.runner.received) :
    task.origin ≠ r := by
  rintro rfl
  rcases hinv.accepted_known _ _ (hinv.executor.origin_accepted ht) with h | h
  · exact hr h
  · exact hf h

/-- Adding a fresh ID to the call's IDs adds none of the received tasks. -/
theorem ourReceived_fresh (hinv : s.Inv) {r : RequestID} (hr : r ∉ s.ourIDs)
    (hf : r ∉ s.foreignIDs) :
    s.executor.runner.received.filter (fun task => decide (task.origin ∈ s.ourIDs ++ [r])) =
      s.ourReceived := by
  unfold ourReceived
  apply List.filter_congr
  intro task ht
  simp [not_mem_ourIDs_of_received hinv hr hf ht]

/-- The invariant tells nothing more about a call that has made no callback. -/
theorem Inv.quiet_of_nil (hinv : s.Inv) (h : s.callbacks = []) :
    s.confirmsInFlight = 0 ∧ s.ourReceived = [] := by
  have hc := hinv.count
  rw [if_pos h] at hc
  exact ⟨by omega, List.eq_nil_of_length_eq_zero (by omega)⟩

theorem Inv.init {args : DispatchTaskArgs} {retryInterval : Nat} {deadline : Option Nat}
    {c : TaskCommitter} (hc : c.Inv) : (init args retryInterval deadline c).Inv where
  executor := hc
  accepted_known _ _ h := .inr (List.mem_filterMap.2 ⟨_, h, rfl⟩)
  ours_not_foreign _ h := by simp [Protocol.init] at h
  inFlight_ours _ h := by simp [Protocol.init] at h
  inFlight_fresh _ h := by simp [Protocol.init] at h
  inFlight_nodup := by simp [Protocol.init]
  before_confirm _ := rfl
  confirming _ h := by simp [Protocol.init, DispatchTaskCall.start] at h
  phase_ours _ h := by simp [Protocol.init, DispatchTaskCall.start] at h
  callbacks_shape := .inl rfl
  count := by simp [Protocol.init, confirmsInFlight, ourReceived]
  no_confirm_reply _ _ h := by simp [Protocol.init] at h
  failed_reply _ _ h := by simp [Protocol.init] at h
  aborted _ h := by simp [Protocol.init] at h
  no_alreadyExists _ h := by simp [Protocol.init] at h

/-! ### Steps of the call -/

theorem callStep_eq_ok {ev : DispatchEvent} (h : s.callStep ev = .ok s') :
    ∃ d sends cbs, s.call.step ev = .ok (d, sends, cbs) ∧
      s' = { s with
        call := d
        inFlight := s.inFlight ++ sends
        callbacks := s.callbacks ++ cbs
        ourIDs := s.ourIDs ++ sends.filterMap ExecutorRequest.preRequestID } := by
  unfold callStep at h
  split at h
  · cases h
  · rename_i d sends cbs hs
    cases h
    exact ⟨d, sends, cbs, hs, rfl⟩

/-- A step of the call that sends nothing and makes no callback only moves the call. -/
theorem Inv.withCall (hinv : s.Inv) {d : DispatchTaskCall}
    (hb : d.phase.BeforeConfirm → s.callbacks = [])
    (hc : ∀ r, d.phase = .confirming r → s.callbacks = [.startWorkerTimer])
    (ho : ∀ r, (d.phase = .preDispatching r ∨ d.phase = .confirming r) → r ∈ s.ourIDs) :
    ({ s with
      call := d
      inFlight := s.inFlight ++ []
      callbacks := s.callbacks ++ []
      ourIDs := s.ourIDs ++ ([] : List ExecutorRequest).filterMap ExecutorRequest.preRequestID } :
        Protocol).Inv := by
  simp only [List.append_nil, List.filterMap_nil]
  exact { hinv with before_confirm := hb, confirming := hc, phase_ours := ho }

/-- The call sends `PreDispatchTask` under a fresh ID. -/
theorem Inv.send (hinv : s.Inv) {r : RequestID} (hr : r ∉ s.ourIDs) (hf : r ∉ s.foreignIDs)
    (hp : s.call.phase = .loopTop) :
    ({ s with
      call := { s.call with phase := .preDispatching r }
      inFlight := s.inFlight ++ [.preDispatchTask ⟨s.call.args.workerID, r⟩]
      callbacks := s.callbacks ++ []
      ourIDs := s.ourIDs ++ [ExecutorRequest.preDispatchTask ⟨s.call.args.workerID, r⟩].filterMap
        ExecutorRequest.preRequestID } : Protocol).Inv := by
  simp only [List.append_nil, List.filterMap_cons, ExecutorRequest.preRequestID,
    List.filterMap_nil]
  have hconf : ((s.inFlight ++ [ExecutorRequest.preDispatchTask ⟨s.call.args.workerID, r⟩]).filter
      ExecutorRequest.isConfirm).length = s.confirmsInFlight := by
    simp [confirmsInFlight, ExecutorRequest.isConfirm]
  have hrec := ourReceived_fresh hinv hr hf
  have hnew : ∀ req ∈ s.inFlight ++ [.preDispatchTask ⟨s.call.args.workerID, r⟩],
      req ∈ s.inFlight ∨ req = .preDispatchTask ⟨s.call.args.workerID, r⟩ := by
    simp
  refine
    { executor := hinv.executor
      accepted_known := fun r' t h => (hinv.accepted_known r' t h).imp
        (fun h => List.mem_append_left _ h) id
      ours_not_foreign := fun r' h => ?_
      inFlight_ours := fun req h => ?_
      inFlight_fresh := fun req h r' hr' t => ?_
      inFlight_nodup := ?_
      before_confirm := fun _ => hinv.before_confirm (by simp [hp, DispatchPhase.BeforeConfirm])
      confirming := fun r' h => by cases h
      phase_ours := fun r' h => ?_
      callbacks_shape := hinv.callbacks_shape
      count := ?_
      no_confirm_reply := hinv.no_confirm_reply
      failed_reply := fun req err h hc hcode => ?_
      aborted := fun err h => ?_
      no_alreadyExists := hinv.no_alreadyExists }
  · rcases List.mem_append.1 h with h | h
    · exact hinv.ours_not_foreign r' h
    · rw [List.mem_singleton.1 h]
      exact hf
  · rcases hnew req h with h | rfl
    · exact List.mem_append_left _ (hinv.inFlight_ours req h)
    · simp [ExecutorRequest.requestID]
  · rcases hnew req h with h | rfl
    · exact hinv.inFlight_fresh req h r' hr' t
    · -- the fresh ID was used by no one, so the executor never accepted it
      obtain rfl : r' = r := by simpa [ExecutorRequest.preRequestID] using hr'.symm
      intro hacc
      rcases hinv.accepted_known _ _ hacc with h | h
      · exact hr h
      · exact hf h
  · rw [List.filterMap_append]
    simp only [ExecutorRequest.preRequestID, List.filterMap_cons, List.filterMap_nil]
    refine List.nodup_append.2 ⟨hinv.inFlight_nodup, List.nodup_singleton r, ?_⟩
    intro a ha b hb hab
    obtain ⟨req, hreq, hpre⟩ := List.mem_filterMap.1 ha
    rw [List.mem_singleton.1 hb] at hab
    exact hr (hab ▸ ExecutorRequest.requestID_of_pre hpre ▸ hinv.inFlight_ours req hreq)
  · rcases h with h | h <;> cases h
    exact List.mem_append_right _ (List.mem_singleton_self _)
  · simp only [confirmsInFlight, ourReceived]
    rw [hconf, hrec]
    exact hinv.count
  · simp only [confirmsInFlight, ourReceived]
    rw [hconf, hrec]
    exact hinv.failed_reply req err h hc hcode
  · simp only [confirmsInFlight, ourReceived]
    rw [hconf, hrec]
    exact hinv.aborted err h

/-- The call's request was accepted: `startWorkerTimer`, then `ConfirmDispatchTask`. -/
theorem Inv.accepted (hinv : s.Inv) {r : RequestID} (hp : s.call.phase = .preDispatching r) :
    ({ s with
      call := { s.call with phase := .confirming r }
      inFlight := s.inFlight ++ [.confirmDispatchTask ⟨s.call.args.workerID, r⟩]
      callbacks := s.callbacks ++ [.startWorkerTimer]
      ourIDs := s.ourIDs ++
        [ExecutorRequest.confirmDispatchTask ⟨s.call.args.workerID, r⟩].filterMap
          ExecutorRequest.preRequestID } : Protocol).Inv := by
  simp only [List.filterMap_cons, ExecutorRequest.preRequestID, List.filterMap_nil,
    List.append_nil]
  have hnil := hinv.before_confirm (by simp [hp, DispatchPhase.BeforeConfirm])
  obtain ⟨hconf, hrec⟩ := hinv.quiet_of_nil hnil
  have hconf' : ((s.inFlight ++
      [ExecutorRequest.confirmDispatchTask ⟨s.call.args.workerID, r⟩]).filter
        ExecutorRequest.isConfirm).length = 1 := by
    unfold confirmsInFlight at hconf
    simp [List.filter_append, List.filter_cons, ExecutorRequest.isConfirm, hconf]
  have hnew : ∀ req ∈ s.inFlight ++ [.confirmDispatchTask ⟨s.call.args.workerID, r⟩],
      req ∈ s.inFlight ∨ req = .confirmDispatchTask ⟨s.call.args.workerID, r⟩ := by
    simp
  refine
    { executor := hinv.executor
      accepted_known := hinv.accepted_known
      ours_not_foreign := hinv.ours_not_foreign
      inFlight_ours := fun req h => ?_
      inFlight_fresh := fun req h r' hr' t => ?_
      inFlight_nodup := ?_
      before_confirm := fun h => by cases h
      confirming := fun r' _ => by rw [hnil]; rfl
      phase_ours := fun r' h => ?_
      callbacks_shape := .inr (.inl (by rw [hnil]; rfl))
      count := ?_
      no_confirm_reply := fun h => by simp [hnil] at h
      failed_reply := fun req err h hc _ => ?_
      aborted := fun err h => ?_
      no_alreadyExists := hinv.no_alreadyExists }
  · rcases hnew req h with h | rfl
    · exact hinv.inFlight_ours req h
    · exact hinv.phase_ours r (.inl hp)
  · rcases hnew req h with h | rfl
    · exact hinv.inFlight_fresh req h r' hr' t
    · cases hr'
  · rw [List.filterMap_append]
    simpa [List.filterMap_cons, ExecutorRequest.preRequestID] using hinv.inFlight_nodup
  · rcases h with h | h
    · cases h
    · cases h
      exact hinv.phase_ours r (.inl hp)
  · simp only [confirmsInFlight, ourReceived]
    rw [hconf', show s.executor.runner.received.filter (fun task => decide (task.origin ∈ s.ourIDs))
      = s.ourReceived from rfl, hrec]
    simp [hnil]
  · -- before the confirmation no reply to one exists
    exact absurd hc (by simp [hinv.no_confirm_reply hnil _ h])
  · simp [hnil] at h

/-- The confirmation failed for sure: `abortWorker`. -/
theorem Inv.abort (hinv : s.Inv) {r : RequestID} (hp : s.call.phase = .confirming r)
    {res : Except Error Unit} {err : Error} (hfail : s.ourReceived = [] ∧ s.confirmsInFlight = 0) :
    ({ s with
      call := s.call.finish res
      inFlight := s.inFlight ++ []
      callbacks := s.callbacks ++ [.abortWorker err]
      ourIDs := s.ourIDs ++ ([] : List ExecutorRequest).filterMap ExecutorRequest.preRequestID } :
        Protocol).Inv := by
  simp only [List.append_nil, List.filterMap_nil]
  have hstart := hinv.confirming r hp
  refine
    { hinv with
      before_confirm := fun h => by cases h
      confirming := fun r' h => by cases h
      phase_ours := fun r' h => by rcases h with h | h <;> cases h
      callbacks_shape := .inr (.inr ⟨err, by rw [hstart]; rfl⟩)
      count := ?_
      no_confirm_reply := fun h => by simp at h
      failed_reply := fun _ _ _ _ _ => hfail
      aborted := fun _ _ => hfail }
  change s.confirmsInFlight + s.ourReceived.length ≤ _
  simp [hfail]

/-- Dropping replies keeps the invariant. -/
theorem Inv.dropReplies (hinv : s.Inv) {rest : List (ExecutorRequest × Except Error Unit)}
    (hsub : ∀ x ∈ rest, x ∈ s.replies) : ({ s with replies := rest } : Protocol).Inv :=
  { hinv with
    no_confirm_reply := fun h x hx => hinv.no_confirm_reply h x (hsub x hx)
    failed_reply := fun req err h => hinv.failed_reply req err (hsub _ h)
    no_alreadyExists := fun x hx => hinv.no_alreadyExists x (hsub x hx) }

theorem Inv.callStep (hinv : s.Inv) {ev : DispatchEvent}
    (hfresh : ∀ r, ev = .proceed r → r ∉ s.ourIDs ∧ r ∉ s.foreignIDs)
    (hfail : ∀ r err now, s.call.phase = .confirming r → ev = .reply (.error err) now →
      (convertCode err = .aborted ∨ convertCode err = .notFound) →
        s.ourReceived = [] ∧ s.confirmsInFlight = 0)
    (h : s.callStep ev = .ok s') : s'.Inv := by
  obtain ⟨d, sends, cbs, hs, rfl⟩ := callStep_eq_ok h
  have hb := hinv.before_confirm
  cases DispatchTaskCall.step_moves hs with
  | idle => exact hinv.withCall hb hinv.confirming hinv.phase_ours
  | cancel err => exact hinv.withCall hb hinv.confirming hinv.phase_ours
  | giveUp ev err _ =>
      exact hinv.withCall (fun h => by cases h) (fun r h => by cases h)
        (fun r h => by rcases h with h | h <;> cases h)
  | wait r ev hp =>
      exact hinv.withCall (fun _ => hb (by simp [hp, DispatchPhase.BeforeConfirm]))
        (fun r h => by cases h) (fun r h => by rcases h with h | h <;> cases h)
  | retry hp =>
      exact hinv.withCall (fun _ => hb (by simp [hp, DispatchPhase.BeforeConfirm]))
        (fun r h => by cases h) (fun r h => by rcases h with h | h <;> cases h)
  | confirmed r reply now hp =>
      exact hinv.withCall (fun h => by cases h) (fun r h => by cases h)
        (fun r h => by rcases h with h | h <;> cases h)
  | send r hp _ =>
      obtain ⟨hr, hf⟩ := hfresh r rfl
      exact hinv.send hr hf hp
  | accepted r now hp => exact hinv.accepted hp
  | aborted r err now hp hcode => exact hinv.abort hp (hfail r err now hp rfl hcode)

/-! ### Steps of the executor -/

/-- The executor processes one of the call's `PreDispatchTask` requests. -/
theorem Inv.servePre (hinv : s.Inv) {l₁ l₂ : List ExecutorRequest} {req : PreDispatchTaskRequest}
    (hsplit : s.inFlight = l₁ ++ .preDispatchTask req :: l₂) {taskMade : Bool} {now : Nat}
    {c' : TaskCommitter} {reply : Except Error Unit}
    (hs : Server.preDispatchTask s.executor req taskMade now = .ok (c', reply)) :
    ({ s with
      executor := c'
      inFlight := l₁ ++ l₂
      replies := s.replies ++ [(.preDispatchTask req, reply)] } : Protocol).Inv := by
  obtain ⟨c'', reply', hs', hrun, hacc, hdup⟩ :=
    hinv.executor.serverPreDispatchTask_reply req taskMade now
  rw [hs] at hs'
  cases hs'
  have hmem : ExecutorRequest.preDispatchTask req ∈ s.inFlight := hsplit ▸ Channel.mem_split
  have hours : req.requestID ∈ s.ourIDs := hinv.inFlight_ours _ hmem
  -- the request is the only one of its ID, so the executor has not seen the ID
  have hfresh : ∀ t, CommitterEvent.accepted req.requestID t ∉ s.executor.history :=
    hinv.inFlight_fresh _ hmem req.requestID rfl
  have hreply : reply ≠ .error (.status .alreadyExists) :=
    fun h => hinv.executor.not_mem_of_not_accepted hfresh (hdup h)
  have hold : ∀ x ∈ l₁ ++ l₂, x ∈ s.inFlight := fun x hx => hsplit ▸ Channel.mem_of_mem_split hx
  have hconf : ((l₁ ++ l₂).filter ExecutorRequest.isConfirm).length = s.confirmsInFlight := by
    rw [confirmsInFlight, hsplit, Channel.length_filter_split]
    simp [ExecutorRequest.isConfirm]
  have hrec : c'.runner.received.filter (fun task => decide (task.origin ∈ s.ourIDs)) =
      s.ourReceived := by
    rw [hrun]
    rfl
  have hnew : ∀ x ∈ s.replies ++ [(ExecutorRequest.preDispatchTask req, reply)],
      x ∈ s.replies ∨ x = (.preDispatchTask req, reply) := by
    simp
  refine
    { executor := hinv.executor.serverPreDispatchTask hs
      accepted_known := fun r t h => ?_
      ours_not_foreign := hinv.ours_not_foreign
      inFlight_ours := fun x hx => hinv.inFlight_ours x (hold x hx)
      inFlight_fresh := fun x hx r hr t h => ?_
      inFlight_nodup := Channel.nodup_of_split (hsplit ▸ hinv.inFlight_nodup)
      before_confirm := hinv.before_confirm
      confirming := hinv.confirming
      phase_ours := hinv.phase_ours
      callbacks_shape := hinv.callbacks_shape
      count := ?_
      no_confirm_reply := fun h x hx => ?_
      failed_reply := fun x err h hc hcode => ?_
      aborted := fun err h => ?_
      no_alreadyExists := fun x hx => ?_ }
  · rcases hacc r t h with h | rfl
    · exact hinv.accepted_known r t h
    · exact .inl hours
  · rcases hacc r t h with h | rfl
    · exact hinv.inFlight_fresh x (hold x hx) r hr t h
    · have hnd : ((l₁ ++ ExecutorRequest.preDispatchTask req :: l₂).filterMap
          ExecutorRequest.preRequestID).Nodup := hsplit ▸ hinv.inFlight_nodup
      exact Channel.key_ne_of_nodup hnd rfl hx hr
  · simp only [confirmsInFlight, ourReceived]
    rw [hconf, hrec]
    exact hinv.count
  · rcases hnew x hx with hx | rfl
    · exact hinv.no_confirm_reply h x hx
    · rfl
  · simp only [confirmsInFlight, ourReceived]
    rw [hconf, hrec]
    rcases hnew _ h with h | h
    · exact hinv.failed_reply x err h hc hcode
    · cases h
      cases hc
  · simp only [confirmsInFlight, ourReceived]
    rw [hconf, hrec]
    exact hinv.aborted err h
  · rcases hnew x hx with hx | rfl
    · exact hinv.no_alreadyExists x hx
    · exact hreply

/-- The executor processes the call's `ConfirmDispatchTask` request. -/
theorem Inv.serveConfirm (hinv : s.Inv) {l₁ l₂ : List ExecutorRequest}
    {req : ConfirmDispatchTaskRequest} (hsplit : s.inFlight = l₁ ++ .confirmDispatchTask req :: l₂)
    {c' : TaskCommitter} {reply : Except Error Unit}
    (hs : Server.confirmDispatchTask s.executor req = .ok (c', reply)) :
    ({ s with
      executor := c'
      inFlight := l₁ ++ l₂
      replies := s.replies ++ [(.confirmDispatchTask req, reply)] } : Protocol).Inv := by
  obtain ⟨c'', reply', hs', hacc, hrec⟩ := hinv.executor.serverConfirmDispatchTask_reply req
  rw [hs] at hs'
  cases hs'
  have hmem : ExecutorRequest.confirmDispatchTask req ∈ s.inFlight := hsplit ▸ Channel.mem_split
  have hours : req.requestID ∈ s.ourIDs := hinv.inFlight_ours _ hmem
  have hold : ∀ x ∈ l₁ ++ l₂, x ∈ s.inFlight := fun x hx => hsplit ▸ Channel.mem_of_mem_split hx
  have hconf : s.confirmsInFlight = ((l₁ ++ l₂).filter ExecutorRequest.isConfirm).length + 1 := by
    rw [confirmsInFlight, hsplit, Channel.length_filter_split]
    simp [ExecutorRequest.isConfirm]
  -- the confirmation in flight is the only one, and nothing has been handed over yet
  have hcb : s.callbacks ≠ [] := fun h => by
    have := (hinv.quiet_of_nil h).1
    omega
  have hcount := hinv.count
  rw [if_neg hcb, hconf] at hcount
  have hnone : ((l₁ ++ l₂).filter ExecutorRequest.isConfirm).length = 0 := by omega
  have hnil : s.ourReceived = [] := List.eq_nil_of_length_eq_zero (by omega)
  have hnew : ∀ x ∈ s.replies ++ [(ExecutorRequest.confirmDispatchTask req, reply)],
      x ∈ s.replies ∨ x = (.confirmDispatchTask req, reply) := by
    simp
  -- what the runner received of the call: the task of this request, or nothing
  have hrec' : (reply = .ok () ∧ (c'.runner.received.filter
        (fun task => decide (task.origin ∈ s.ourIDs))).length = 1) ∨
      ((reply = .error (.status .aborted) ∨ reply = .error (.status .notFound)) ∧
        c'.runner.received.filter (fun task => decide (task.origin ∈ s.ourIDs)) = []) := by
    rcases hrec with ⟨hok, task, horigin, hr⟩ | ⟨hfail, hr⟩
    · refine .inl ⟨hok, ?_⟩
      rw [hr, List.filter_append, show s.executor.runner.received.filter
        (fun task => decide (task.origin ∈ s.ourIDs)) = s.ourReceived from rfl, hnil]
      simp [horigin, hours]
    · exact .inr ⟨hfail, by rw [hr]; exact hnil⟩
  refine
    { executor := hinv.executor.serverConfirmDispatchTask hs
      accepted_known := fun r t h => hinv.accepted_known r t (hacc r t h)
      ours_not_foreign := hinv.ours_not_foreign
      inFlight_ours := fun x hx => hinv.inFlight_ours x (hold x hx)
      inFlight_fresh := fun x hx r hr t h => hinv.inFlight_fresh x (hold x hx) r hr t (hacc r t h)
      inFlight_nodup := Channel.nodup_of_split (hsplit ▸ hinv.inFlight_nodup)
      before_confirm := hinv.before_confirm
      confirming := hinv.confirming
      phase_ours := hinv.phase_ours
      callbacks_shape := hinv.callbacks_shape
      count := ?_
      no_confirm_reply := fun h => absurd h hcb
      failed_reply := fun x err h hc hcode => ?_
      aborted := fun err h => ?_
      no_alreadyExists := fun x hx => ?_ }
  · simp only [confirmsInFlight, ourReceived]
    rw [hnone, if_neg hcb]
    rcases hrec' with ⟨-, h⟩ | ⟨-, h⟩ <;> simp [h]
  · simp only [confirmsInFlight, ourReceived]
    rw [hnone]
    rcases hnew _ h with h | h
    · -- an earlier certain failure would leave no confirmation in flight now
      have := (hinv.failed_reply x err h hc hcode).2
      omega
    · cases h
      rcases hrec' with ⟨hok, -⟩ | ⟨-, h⟩
      · cases hok
      · exact ⟨h, rfl⟩
  · have := (hinv.aborted err h).2
    omega
  · rcases hnew x hx with hx | rfl
    · exact hinv.no_alreadyExists x hx
    · rcases hrec with ⟨rfl, -⟩ | ⟨rfl | rfl, -⟩ <;> simp

/-- Another dispatch, the TTL checker or the runner acts on the executor. -/
theorem Inv.executorOp (hinv : s.Inv) {op : ExecutorOp} (hop : ∀ r ∈ op.requestID?, r ∉ s.ourIDs)
    {c' : TaskCommitter} (hs : s.executor.step op = .ok c') :
    ({ s with executor := c', foreignIDs := s.foreignIDs ++ op.requestID?.toList } :
      Protocol).Inv := by
  obtain ⟨hacc, new, hrec, hnew⟩ := hinv.executor.step_effect hs
  -- the tasks handed over now are carried by a request that is not the call's
  have hrec' : c'.runner.received.filter (fun task => decide (task.origin ∈ s.ourIDs)) =
      s.ourReceived := by
    rw [hrec, List.filter_append]
    have : new.filter (fun task => decide (task.origin ∈ s.ourIDs)) = [] := by
      refine List.filter_eq_nil_iff.2 fun task ht => ?_
      simpa using hop task.origin (hnew task ht).symm
    rw [this, List.append_nil]
    rfl
  refine
    { hinv with
      executor := hinv.executor.step hs
      accepted_known := fun r t h => ?_
      ours_not_foreign := fun r hr hf => ?_
      inFlight_fresh := fun x hx r hr t h => ?_
      count := ?_
      failed_reply := fun x err h hc hcode => ?_
      aborted := fun err h => ?_ }
  · rcases hacc r t h with h | h
    · exact (hinv.accepted_known r t h).imp id (fun h => List.mem_append_left _ h)
    · exact .inr (List.mem_append_right _ (by simp [← h]))
  · rcases List.mem_append.1 hf with hf | hf
    · exact hinv.ours_not_foreign r hr hf
    · exact hop r (by simpa using hf) hr
  · rcases hacc r t h with h | h
    · exact hinv.inFlight_fresh x hx r hr t h
    · have hx' := hinv.inFlight_ours x hx
      rw [ExecutorRequest.requestID_of_pre hr] at hx'
      exact hop r h.symm hx'
  · simp only [ourReceived]
    rw [hrec']
    exact hinv.count
  · simp only [ourReceived]
    rw [hrec']
    exact hinv.failed_reply x err h hc hcode
  · simp only [ourReceived]
    rw [hrec']
    exact hinv.aborted err h

theorem callStep_eq_error {ev : DispatchEvent} {p : ProtocolPanic} (h : s.callStep ev = .error p) :
    ∃ p', s.call.step ev = .error p' := by
  unfold callStep at h
  split at h
  · rename_i p' hs
    exact ⟨p', hs⟩
  · cases h

theorem pendingRequest_confirming {d : DispatchTaskCall} {r : RequestID}
    (hp : d.phase = .confirming r) :
    d.pendingRequest = some (.confirmDispatchTask ⟨d.args.workerID, r⟩) := by
  simp [DispatchTaskCall.pendingRequest, hp]

/-- Every allowed step keeps the invariant. -/
theorem Inv.step (hinv : s.Inv) {a : ProtocolAction} (hal : allowed s a = true)
    (h : s.step a = .ok s') : s'.Inv := by
  -- the events of the call other than `proceed` and replies
  have hquiet : ∀ ev : DispatchEvent, (∀ r, ev ≠ .proceed r) →
      (∀ reply now, ev ≠ .reply reply now) → s.callStep ev = .ok s' → s'.Inv := fun _ hp hr h =>
    hinv.callStep (fun r e => absurd e (hp r)) (fun _ _ now _ e => absurd e (hr _ now)) h
  cases a with
  | proceed r =>
      simp only [allowed, decide_eq_true_eq] at hal
      exact hinv.callStep (fun r' e => by cases e; exact hal) (fun _ _ _ _ e => by cases e) h
  | receive now =>
      simp only [Protocol.step] at h
      split at h
      · cases h
        exact hinv
      · rename_i req hreq
        split at h
        · cases h
          exact hinv
        · rename_i req' reply rest htake
          obtain ⟨hkey, l₁, l₂, hsplit, rfl⟩ := Channel.takeFirst_eq_some htake
          have hmem : (req', reply) ∈ s.replies := hsplit ▸ Channel.mem_split
          refine (hinv.dropReplies fun x hx => hsplit ▸ Channel.mem_of_mem_split hx).callStep
            (fun r e => by cases e) (fun r err now' hp e hcode => ?_) h
          -- the reply is the executor's answer to the call's confirmation
          cases e
          have hreq' : req' = req := by simpa using hkey
          rw [pendingRequest_confirming hp] at hreq
          cases hreq
          exact hinv.failed_reply _ err (hreq' ▸ hmem) rfl hcode
  | transportError code now =>
      simp only [allowed] at hal
      simp only [Protocol.step] at h
      split at h
      · cases h
        exact hinv
      · refine hinv.callStep (fun r e => by cases e) (fun r err now' _ e hcode => ?_) h
        -- the transport never produces the codes of a certain failure
        cases e
        rcases hcode with hcode | hcode <;>
          · simp only [convertCode] at hcode
            rw [hcode] at hal
            cases hal
  | timerFired => exact hquiet .timerFired (fun _ h => by cases h) (fun _ _ h => by cases h) h
  | ctxDone => exact hquiet .ctxDone (fun _ h => by cases h) (fun _ _ h => by cases h) h
  | cancel err =>
      exact hquiet (.cancel err) (fun _ h => by cases h) (fun _ _ h => by cases h) h
  | serve i taskMade now =>
      simp only [Protocol.step] at h
      split at h
      · cases h
        exact hinv
      · rename_i req inFlight htake
        obtain ⟨l₁, l₂, hsplit, rfl⟩ := Channel.take_eq_some htake
        split at h
        · cases h
        · rename_i c' reply hs
          cases h
          cases req with
          | preDispatchTask r => exact hinv.servePre hsplit hs
          | confirmDispatchTask r => exact hinv.serveConfirm hsplit hs
  | executor op =>
      simp only [allowed, Bool.and_eq_true, decide_eq_true_eq] at hal
      simp only [Protocol.step] at h
      split at h
      · cases h
      · rename_i c' hs
        cases h
        exact hinv.executorOp hal.2 hs

theorem inv_of_reachable {args : DispatchTaskArgs} {retryInterval : Nat} {deadline : Option Nat}
    {c : TaskCommitter} (hc : c.Inv) (hr : Reachable args retryInterval deadline c s) : s.Inv :=
  Transition.Reachable.inv (Inv.init hc) (fun _ _ _ hinv hal h => hinv.step hal h) hr

/-- The callbacks of the call are only ever extended. -/
theorem callbacks_prefix {a : ProtocolAction} (h : s.step a = .ok s') :
    s.callbacks <+: s'.callbacks := by
  have hcall : ∀ (s₀ : Protocol) (ev : DispatchEvent), s₀.callStep ev = .ok s' →
      s₀.callbacks <+: s'.callbacks := fun _ _ h => by
    obtain ⟨d, sends, cbs, -, rfl⟩ := callStep_eq_ok h
    exact List.prefix_append _ _
  cases a with
  | receive now =>
      simp only [Protocol.step] at h
      split at h
      · cases h
        exact List.prefix_refl _
      · split at h
        · cases h
          exact List.prefix_refl _
        · have := hcall _ _ h
          exact this
  | transportError code now =>
      simp only [Protocol.step] at h
      split at h
      · cases h
        exact List.prefix_refl _
      · exact hcall _ _ h
  | serve i taskMade now =>
      simp only [Protocol.step] at h
      split at h
      · cases h
        exact List.prefix_refl _
      · split at h
        · cases h
        · cases h
          exact List.prefix_refl _
  | executor op =>
      simp only [Protocol.step] at h
      split at h
      · cases h
      · cases h
        exact List.prefix_refl _
  | proceed r => exact hcall s (.proceed r) h
  | timerFired => exact hcall s .timerFired h
  | ctxDone => exact hcall s .ctxDone h
  | cancel err => exact hcall s (.cancel err) h

end Lemmas

end Protocol

open Protocol in
theorem dispatch_delivers_at_most_once {args : DispatchTaskArgs} {retryInterval : Nat}
    {deadline : Option Nat} {c : TaskCommitter} (hc : c.Inv) {s : Protocol}
    (hr : Reachable args retryInterval deadline c s) :
    s.ourReceived.length ≤ 1 ∧
      (∀ task ∈ s.ourReceived, ∃ pre post,
        s.executor.history = pre ++ .confirmed task.origin :: post ∧
          Awaiting pre task.origin task.runnable.id) ∧
      ((∃ err, .abortWorker err ∈ s.callbacks) →
        ∀ (as : List ProtocolAction) (s' : Protocol),
          Transition.allowedAlong Protocol.step Protocol.allowed s as = true →
          Transition.run Protocol.step s as = .ok s' → s'.ourReceived = []) := by
  have hinv := inv_of_reachable hc hr
  refine ⟨?_, fun task ht => hinv.executor.received_confirmed task (List.mem_filter.1 ht).1, ?_⟩
  · have := hinv.count
    split at this <;> omega
  · rintro ⟨err, herr⟩ as s' hal hrun
    -- the later state is reachable, and the call has still called `abortWorker` there
    have hr' := Transition.reachable_run hr hal hrun
    have hpre : s.callbacks <+: s'.callbacks :=
      Transition.run_rel (R := fun a b : Protocol => a.callbacks <+: b.callbacks)
        (fun _ => List.prefix_refl _) (fun _ _ _ h₁ h₂ => h₁.trans h₂)
        (fun _ _ _ h => callbacks_prefix h) hrun
    exact ((inv_of_reachable hc hr').aborted err (hpre.subset herr)).1

open Protocol in
/-- Neither the call nor the executor panics in any run. -/
theorem no_protocol_panic {args : DispatchTaskArgs} {retryInterval : Nat}
    {deadline : Option Nat} {c : TaskCommitter} (hc : c.Inv) :
    ¬ Transition.PanicReachable Protocol.step Protocol.allowed
      (init args retryInterval deadline c) (fun _ => True) := by
  refine Transition.not_panicReachable (fun _ hr => inv_of_reachable hc hr) ?_
  intro s a p hinv hal h _
  -- the call only panics on an `AlreadyExists` reply to its `PreDispatchTask`
  have hcall : ∀ (s₀ : Protocol) (ev : DispatchEvent), s₀.callStep ev = .error p →
      ∃ now, ev = .reply (.error (.status .alreadyExists)) now := fun s₀ ev h => by
    obtain ⟨p', hs⟩ := callStep_eq_error h
    obtain ⟨-, now, -, rfl⟩ := DispatchTaskCall.step_eq_error hs
    exact ⟨now, rfl⟩
  cases a with
  | proceed r => obtain ⟨now, h⟩ := hcall s (.proceed r) h; cases h
  | timerFired => obtain ⟨now, h⟩ := hcall s .timerFired h; cases h
  | ctxDone => obtain ⟨now, h⟩ := hcall s .ctxDone h; cases h
  | cancel err => obtain ⟨now, h⟩ := hcall s (.cancel err) h; cases h
  | receive now =>
      simp only [Protocol.step] at h
      split at h
      · cases h
      · split at h
        · cases h
        · rename_i req' reply rest htake
          obtain ⟨-, l₁, l₂, hsplit, -⟩ := Channel.takeFirst_eq_some htake
          obtain ⟨now', he⟩ := hcall _ _ h
          cases he
          exact hinv.no_alreadyExists _ (hsplit ▸ Channel.mem_split) rfl
  | transportError code now =>
      simp only [allowed] at hal
      simp only [Protocol.step] at h
      split at h
      · cases h
      · obtain ⟨now', he⟩ := hcall _ _ h
        cases he
        cases hal
  | serve i taskMade now =>
      simp only [Protocol.step] at h
      split at h
      · cases h
      · rename_i req inFlight _
        split at h
        · rename_i p' hs
          cases req with
          | preDispatchTask r =>
              exact hinv.executor.wf.serverPreDispatchTask_ne_error r taskMade now p' hs
          | confirmDispatchTask r =>
              exact hinv.executor.wf.serverConfirmDispatchTask_ne_error r p' hs
        · cases h
  | executor op =>
      simp only [Protocol.step] at h
      split at h
      · rename_i p' hs
        exact hinv.executor.step_ne_error op p' hs
      · cases h

/-- An executor with an empty runner that queues up to 256 tasks, and a request TTL of
10 s, in milliseconds. -/
def sampleExecutor : TaskCommitter :=
  newTaskCommitter ⟨[], 256, []⟩ 10000

/-- The call sends `PreDispatchTask`, the executor accepts it, the call receives the reply
and confirms, and the executor hands the task to its runner. -/
def confirmRun : List ProtocolAction :=
  [.proceed "r1", .serve 0 true 5, .receive 6, .serve 0 true 7]

/-- The protocol after `confirmRun`. -/
def afterConfirmRun : Protocol :=
  match Transition.run Protocol.step (Protocol.init ⟨"w"⟩ 1000 (some 10000) sampleExecutor)
      confirmRun with
  | .ok s => s
  | .error _ => Protocol.init ⟨"w"⟩ 1000 (some 10000) sampleExecutor

theorem reachable_afterConfirmRun :
    Protocol.Reachable ⟨"w"⟩ 1000 (some 10000) sampleExecutor afterConfirmRun := by
  have hrun : Transition.run Protocol.step
      (Protocol.init ⟨"w"⟩ 1000 (some 10000) sampleExecutor) confirmRun = .ok afterConfirmRun :=
    rfl
  exact Transition.reachable_run .init (by decide) hrun

theorem dispatch_delivers_after_confirm :
    sampleExecutor.Inv ∧ afterConfirmRun.ourReceived.length = 1 ∧
      afterConfirmRun.ourReceived.length ≤ 1 ∧
      (∀ task ∈ afterConfirmRun.ourReceived, ∃ pre post,
        afterConfirmRun.executor.history = pre ++ .confirmed task.origin :: post ∧
          Awaiting pre task.origin task.runnable.id) ∧
      ((∃ err, .abortWorker err ∈ afterConfirmRun.callbacks) →
        ∀ (as : List ProtocolAction) (s' : Protocol),
          Transition.allowedAlong Protocol.step Protocol.allowed afterConfirmRun as = true →
          Transition.run Protocol.step afterConfirmRun as = .ok s' → s'.ourReceived = []) :=
  have hc : sampleExecutor.Inv := TaskCommitter.Inv.newTaskCommitter _ _ rfl
  ⟨hc, by decide, dispatch_delivers_at_most_once hc reachable_afterConfirmRun⟩

end Client

end Microcosm
