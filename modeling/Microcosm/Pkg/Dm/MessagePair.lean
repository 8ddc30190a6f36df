import Mathlib.Logic.Function.Basic
import Microcosm.Library.BufChan
import Microcosm.Library.Transition

/-!
# Request and response over asynchronous messages

`pkg/dm/message_pair.go`. `SendRequest` takes an ID from the allocator, stores a response
channel of one slot under it in `pendings`, sends the request and waits for a response or the
end of its context; a deferred `Delete` removes the ID on the way out. `OnResponse` loads the
channel stored under the ID of a response and sends into it without blocking.

The model runs any number of `SendRequest` and `OnResponse` calls, each a goroutine numbered
in the order it started, whose statements are separate steps: the `Alloc` (with the `make`),
the `Store`, the `SendMessage` (which may fail), the `select` (a response, or the context
done), and the deferred `Delete`; the `Load`, and the send. IDs are `uint64` and the
allocator wraps around. A channel holds the payload with, as a ghost, the number of the
`OnResponse` call that sent it; an `OnResponse` that sent records, as a ghost, the request
whose channel it sent into.

In every run an entry of `pendings` is the channel of a request of that ID that has stored it
and not yet deleted it (`Inv.entry_pending`), so an `OnResponse` sends only into the channel
of a request of its own ID (`Inv.target_id`), and one whose ID no pending request has fails
its `Load` and changes nothing (`onResponse_of_not_pending`). A request that returns a
response returns the payload of an `OnResponse` of its ID, and no payload is returned twice
(`responses_matched`).
-/

namespace Microcosm

namespace Dm

/-- `MessageIDAllocator`, without its mutex. -/
structure MessageIDAllocator where
  id : UInt64
  deriving DecidableEq, Repr

/-- `Alloc`. -/
def MessageIDAllocator.alloc (a : MessageIDAllocator) : UInt64 × MessageIDAllocator :=
  (a.id + 1, ⟨a.id + 1⟩)

/-- `MessageWithID`, with the response payload of type `P`. -/
structure MessageWithID (P : Type) where
  id : UInt64
  message : P
  deriving DecidableEq, Repr

/-- The errors of `SendRequest` and `OnResponse`. -/
inductive PairError
  /-- The error `SendMessage` returned. -/
  | sendFailed
  /-- `ctx.Err()`. -/
  | ctxErr
  /-- `errors.Errorf("request %d not found", msg.ID)`. -/
  | requestNotFound (id : UInt64)
  /-- `errors.Errorf("duplicated response of request %d, and the last response is not
  consumed", msg.ID)`. -/
  | duplicatedResponse (id : UInt64)
  deriving DecidableEq, Repr

/-- A payload with the number of the `OnResponse` call that sent it. -/
abbrev Delivery (P : Type) := Nat × P

/-- Where a `SendRequest` call is. -/
inductive RequestPc (P : Type)
  /-- After `Alloc` and the `make`, before the `Store`. -/
  | allocated
  /-- After the `Store`, before `SendMessage`. -/
  | stored
  /-- `SendMessage` returned `nil`; in the `select`. -/
  | waiting
  /-- Returning `result`, before the deferred `Delete`. -/
  | deferring (result : Except PairError (Delivery P))
  /-- Returned `result`. -/
  | returned (result : Except PairError (Delivery P))
  deriving DecidableEq, Repr

/-- The request's ID is in `pendings`, as far as its own steps go: from its `Store` to its
`Delete`. -/
def RequestPc.isPending {P : Type} : RequestPc P → Bool
  | .stored | .waiting | .deferring _ => true
  | _ => false

/-- The response the request has taken out of its channel. -/
def RequestPc.received {P : Type} : RequestPc P → List (Delivery P)
  | .deferring (.ok x) | .returned (.ok x) => [x]
  | _ => []

-- Many proofs below unfold this definition, and Lean elaborates them in parallel: the empty
-- section generates its equation lemmas here, once, so that the proofs do not all wait on it.
-- The simp set outside the section is unchanged.
section
attribute [local simp] RequestPc.received
end

/-- A `SendRequest` call: its ID and its response channel. -/
structure Request (P : Type) where
  id : UInt64
  pc : RequestPc P
  respCh : BufChan (Delivery P) 1
  deriving DecidableEq

/-- The responses the request holds: the one it took and the one in its channel. -/
def Request.held {P : Type} (rq : Request P) : List (Delivery P) :=
  rq.pc.received ++ rq.respCh.items

/-- Where an `OnResponse` call is. -/
inductive ResponderPc
  /-- The `Load` found the channel of request `ch`; before the send. -/
  | loaded (ch : Nat)
  /-- Returned `nil`, having sent into the channel of request `ch`. -/
  | delivered (ch : Nat)
  /-- Returned an error. -/
  | failed (err : PairError)
  deriving DecidableEq, Repr

/-- The request whose channel the call loaded. -/
def ResponderPc.target : ResponderPc → Option Nat
  | .loaded ch | .delivered ch => some ch
  | .failed _ => none

/-- An `OnResponse` call. -/
structure Responder (P : Type) where
  msg : MessageWithID P
  pc : ResponderPc
  deriving DecidableEq

/-- The allocator, `pendings` from IDs to the request whose channel is stored, and the calls
by number. -/
structure World (P : Type) where
  allocator : MessageIDAllocator
  pendings : UInt64 → Option Nat
  requests : Nat → Option (Request P)
  nextRequest : Nat
  responders : Nat → Option (Responder P)
  nextResponder : Nat

/-- The steps of the calls. -/
inductive Action (P : Type)
  /-- A new `SendRequest`: its `Alloc` and `make`. -/
  | sendRequest
  /-- Request `r`'s `Store`. -/
  | store (r : Nat)
  /-- Request `r`'s `SendMessage`, which returns `nil` when `ok`. -/
  | sendMessage (r : Nat) (ok : Bool)
  /-- Request `r`'s `select` takes the end of the context. -/
  | ctxDone (r : Nat)
  /-- Request `r`'s `select` takes a response. -/
  | receive (r : Nat)
  /-- Request `r`'s deferred `Delete`. -/
  | deleteDeferred (r : Nat)
  /-- A new `OnResponse(msg)`: its `Load`. -/
  | onResponse (msg : MessageWithID P)
  /-- Call `j`'s send into the channel it loaded. -/
  | onResponseSend (j : Nat)
  deriving DecidableEq

variable {P : Type}

/-- `NewMessagePair`. -/
def init : World P :=
  ⟨⟨0⟩, fun _ => none, fun _ => none, 0, fun _ => none, 0⟩

/-- Request `r` moves on to `pc`. -/
def World.setPc (w : World P) (r : Nat) (rq : Request P) (pc : RequestPc P) : World P :=
  { w with requests := Function.update w.requests r (some { rq with pc := pc }) }

/-- One step. A step of a call that is not where the call is changes nothing. -/
def step (w : World P) : Action P → Except Empty (World P)
  | .sendRequest =>
      match w.allocator.alloc with
      | (id, a) =>
          .ok { w with allocator := a,
                       requests := Function.update w.requests w.nextRequest
                         (some ⟨id, .allocated, .empty⟩),
                       nextRequest := w.nextRequest + 1 }
  | .store r =>
      match w.requests r with
      | some rq =>
          match rq.pc with
          | .allocated =>
              .ok { w.setPc r rq .stored with
                    pendings := Function.update w.pendings rq.id (some r) }
          | _ => .ok w
      | none => .ok w
  | .sendMessage r ok =>
      match w.requests r with
      | some rq =>
          match rq.pc with
          | .stored => .ok (w.setPc r rq (if ok then .waiting else .deferring (.error .sendFailed)))
          | _ => .ok w
      | none => .ok w
  | .ctxDone r =>
      match w.requests r with
      | some rq =>
          match rq.pc with
          | .waiting => .ok (w.setPc r rq (.deferring (.error .ctxErr)))
          | _ => .ok w
      | none => .ok w
  | .receive r =>
      match w.requests r with
      | some rq =>
          match rq.pc, rq.respCh.tryRecv with
          | .waiting, some (x, c) =>
              .ok { w with requests :=
                      Function.update w.requests r (some ⟨rq.id, .deferring (.ok x), c⟩) }
          | _, _ => .ok w
      | none => .ok w
  | .deleteDeferred r =>
      match w.requests r with
      | some rq =>
          match rq.pc with
          | .deferring result =>
              .ok { w.setPc r rq (.returned result) with
                    pendings := Function.update w.pendings rq.id none }
          | _ => .ok w
      | none => .ok w
  | .onResponse msg =>
      let pc : ResponderPc :=
        match w.pendings msg.id with
        | some ch => .loaded ch
        | none => .failed (.requestNotFound msg.id)
      .ok { w with responders := Function.update w.responders w.nextResponder (some ⟨msg, pc⟩),
                   nextResponder := w.nextResponder + 1 }
  | .onResponseSend j =>
      match w.responders j with
      | some ⟨msg, .loaded ch⟩ =>
          match w.requests ch with
          | some rq =>
              match rq.respCh.trySend (j, msg.message) with
              | some c =>
                  .ok { w with requests :=
                                 Function.update w.requests ch (some { rq with respCh := c }),
                               responders := Function.update w.responders j
                                 (some ⟨msg, .delivered ch⟩) }
              | none =>
                  .ok { w with responders := Function.update w.responders j
                                 (some ⟨msg, .failed (.duplicatedResponse msg.id)⟩) }
          | none => .ok w
      | _ => .ok w

section
attribute [local simp] step
end

/-- The runs from `NewMessagePair`. -/
def Reachable (P : Type) : World P → Prop :=
  Transition.Reachable step (fun _ _ => true) init
/-! ## The invariant -/

/-- A lookup after a write to a table is the written entry or an older one. -/
theorem update_eq_some {ι α : Type} [DecidableEq ι] {f : ι → Option α} {r r' : ι} {a b : α}
    (h : Function.update f r (some a) r' = some b) :
    (r' = r ∧ b = a) ∨ (r' ≠ r ∧ f r' = some b) := by
  rw [Function.update_apply] at h
  split at h
  · exact .inl ⟨‹_›, (Option.some.inj h).symm⟩
  · exact .inr ⟨‹_›, h⟩

/-- In every run: calls are numbered below the counters; an entry of `pendings` is the channel
of a request of that ID between its `Store` and its `Delete`; an `OnResponse` past its `Load`
targets a request of its ID; and each response a request holds was sent by an `OnResponse` of
the request's ID into this request's channel, no two of them by the same call. -/
structure Inv (w : World P) : Prop where
  requests_fresh : ∀ r, w.nextRequest ≤ r → w.requests r = none
  responders_fresh : ∀ j, w.nextResponder ≤ j → w.responders j = none
  entry_pending : ∀ k r, w.pendings k = some r →
    ∃ rq, w.requests r = some rq ∧ rq.id = k ∧ rq.pc.isPending = true
  target_id : ∀ j rs ch, w.responders j = some rs → rs.pc.target = some ch →
    ∃ rq, w.requests ch = some rq ∧ rq.id = rs.msg.id
  held_from : ∀ r rq, w.requests r = some rq → ∀ x ∈ rq.held,
    ∃ rs, w.responders x.1 = some rs ∧ rs.msg = ⟨rq.id, x.2⟩ ∧ rs.pc = .delivered r
  held_nodup : ∀ r rq, w.requests r = some rq → (rq.held.map Prod.fst).Nodup

variable {w : World P}

theorem inv_init : Inv (init : World P) where
  requests_fresh _ _ := rfl
  responders_fresh _ _ := rfl
  entry_pending _ _ h := by cases h
  target_id _ _ _ h := by cases h
  held_from _ _ h := by cases h
  held_nodup _ _ h := by cases h

/-- A call of a table whose numbers from `n` on are fresh is numbered below `n`. -/
theorem lt_of_fresh {α : Type} {f : Nat → Option α} {n r : Nat} {a : α}
    (hfresh : ∀ r, n ≤ r → f r = none) (h : f r = some a) : r < n := by
  by_contra hle
  rw [hfresh r (Nat.le_of_not_lt hle)] at h
  cases h

/-- A new call numbered `n` leaves the older calls as they are. -/
theorem update_fresh_of_some {α : Type} {f : Nat → Option α} {n r : Nat} {a : α}
    (hfresh : ∀ r, n ≤ r → f r = none) (h : f r = some a) (v : Option α) :
    Function.update f n v r = some a := by
  rw [Function.update_of_ne (Nat.ne_of_lt (lt_of_fresh hfresh h)), h]

/-- After a new call numbered `n`, the numbers from `n + 1` on are fresh. -/
theorem fresh_update {α : Type} {f : Nat → Option α} {n : Nat}
    (hfresh : ∀ r, n ≤ r → f r = none) (v : Option α) :
    ∀ r, n + 1 ≤ r → Function.update f n v r = none := by
  intro r hr
  rw [Function.update_of_ne (by omega)]
  exact hfresh r (by omega)

theorem Inv.lt_nextRequest (hs : Inv w) {r : Nat} {rq : Request P} (hr : w.requests r = some rq) :
    r < w.nextRequest :=
  lt_of_fresh hs.requests_fresh hr

theorem Inv.lt_nextResponder (hs : Inv w) {j : Nat} {rs : Responder P}
    (hj : w.responders j = some rs) : j < w.nextResponder :=
  lt_of_fresh hs.responders_fresh hj

/-- A responder that holds a response of a request has delivered it. -/
theorem Inv.not_held_of_loaded (hs : Inv w) {j ch : Nat} {rs : Responder P}
    (hj : w.responders j = some rs) (hpc : rs.pc = .loaded ch) {r : Nat} {rq : Request P}
    (hr : w.requests r = some rq) : j ∉ rq.held.map Prod.fst := by
  intro hmem
  obtain ⟨x, hx, rfl⟩ := List.mem_map.1 hmem
  obtain ⟨rs', hj', -, hpc'⟩ := hs.held_from r rq hr x hx
  rw [hj] at hj'
  cases hj'
  rw [hpc] at hpc'
  cases hpc'

/-- A `SendRequest` call starts with a fresh number and an empty channel. -/
theorem Inv.sendRequest (hs : Inv w) :
    Inv { w with allocator := w.allocator.alloc.2,
                 requests := Function.update w.requests w.nextRequest
                   (some ⟨w.allocator.alloc.1, .allocated, .empty⟩),
                 nextRequest := w.nextRequest + 1 } := by
  -- the old calls are unchanged, being numbered below the new one, which holds nothing
  refine ⟨fresh_update hs.requests_fresh _, hs.responders_fresh, fun k r hk => ?_,
    fun j rs ch hj ht => ?_, fun r rq hr => ?_, fun r rq hr => ?_⟩ <;> dsimp only at *
  · obtain ⟨rq, hr, hid, hp⟩ := hs.entry_pending k r hk
    exact ⟨rq, update_fresh_of_some hs.requests_fresh hr _, hid, hp⟩
  · obtain ⟨rq, hr, hid⟩ := hs.target_id j rs ch hj ht
    exact ⟨rq, update_fresh_of_some hs.requests_fresh hr _, hid⟩
  · rcases update_eq_some hr with ⟨-, rfl⟩ | ⟨-, hr⟩
    · intro x hx
      simp [Request.held, RequestPc.received] at hx
    · exact hs.held_from r rq hr
  · rcases update_eq_some hr with ⟨-, rfl⟩ | ⟨-, hr⟩
    · simp [Request.held, RequestPc.received]
    · exact hs.held_nodup r rq hr
/-- A move of request `r` that keeps its ID and the responses it holds keeps the invariant,
when every entry of the new `pendings` is the channel of a pending request of its ID. -/
theorem Inv.replaceRequest (hs : Inv w) {r : Nat} {rq rq' : Request P}
    (hr : w.requests r = some rq) (hid : rq'.id = rq.id) (hheld : rq'.held = rq.held)
    {pendings' : UInt64 → Option Nat}
    (hent : ∀ k r', pendings' k = some r' →
      ∃ rq'', Function.update w.requests r (some rq') r' = some rq'' ∧ rq''.id = k ∧
        rq''.pc.isPending = true) :
    Inv { w with pendings := pendings', requests := Function.update w.requests r (some rq') } := by
  have hlt := hs.lt_nextRequest hr
  refine ⟨fun r₁ h₁ => ?_, hs.responders_fresh, hent, fun j rs ch hj ht => ?_,
    fun r₁ rq₁ h₁ => ?_, fun r₁ rq₁ h₁ => ?_⟩ <;> dsimp only at *
  · rw [Function.update_of_ne (by omega)]
    exact hs.requests_fresh r₁ h₁
  · obtain ⟨rq₀, h₀, hid₀⟩ := hs.target_id j rs ch hj ht
    by_cases hch : ch = r
    · subst hch
      rw [hr] at h₀
      cases h₀
      exact ⟨rq', Function.update_self _ _ _, hid.trans hid₀⟩
    · exact ⟨rq₀, by rw [Function.update_of_ne hch, h₀], hid₀⟩
  · rcases update_eq_some h₁ with ⟨rfl, rfl⟩ | ⟨-, h₁⟩
    · rw [hheld, hid]
      exact hs.held_from r₁ rq hr
    · exact hs.held_from r₁ rq₁ h₁
  · rcases update_eq_some h₁ with ⟨rfl, rfl⟩ | ⟨-, h₁⟩
    · rw [hheld]
      exact hs.held_nodup r₁ rq hr
    · exact hs.held_nodup r₁ rq₁ h₁

/-- The entries of `pendings` stay channels of pending requests of their IDs when request `r`
keeps its ID and, if it was pending, stays pending. -/
theorem Inv.entry_kept (hs : Inv w) {r : Nat} {rq rq' : Request P} (hr : w.requests r = some rq)
    (hid : rq'.id = rq.id) (hpend : rq.pc.isPending = true → rq'.pc.isPending = true) :
    ∀ k r', w.pendings k = some r' → ∃ rq'', Function.update w.requests r (some rq') r' =
      some rq'' ∧ rq''.id = k ∧ rq''.pc.isPending = true := by
  intro k r' hk
  obtain ⟨rq'', h'', hid'', hp⟩ := hs.entry_pending k r' hk
  by_cases hr' : r' = r
  · subst hr'
    rw [hr] at h''
    cases h''
    exact ⟨rq', Function.update_self _ _ _, hid.trans hid'', hpend hp⟩
  · exact ⟨rq'', by rw [Function.update_of_ne hr', h''], hid'', hp⟩

/-- A move of request `r` from one pending place to another, with nothing taken out of its
channel. -/
theorem Inv.setPc (hs : Inv w) {r : Nat} {rq : Request P} (hr : w.requests r = some rq)
    {pc : RequestPc P} (hpend : pc.isPending = true) (hrec : pc.received = rq.pc.received) :
    Inv (w.setPc r rq pc) := by
  have hid : ({ rq with pc := pc } : Request P).id = rq.id := rfl
  exact hs.replaceRequest hr hid (by simp [Request.held, hrec])
    (hs.entry_kept hr hid fun _ => hpend)

/-- The `Store` puts the request's own channel under its ID. -/
theorem Inv.store (hs : Inv w) {r : Nat} {rq : Request P} (hr : w.requests r = some rq)
    (hpc : rq.pc = .allocated) :
    Inv { w.setPc r rq .stored with pendings := Function.update w.pendings rq.id (some r) } := by
  have hid : ({ rq with pc := .stored } : Request P).id = rq.id := rfl
  refine hs.replaceRequest hr hid (by simp [Request.held, hpc, RequestPc.received])
    fun k r' hk => ?_
  rcases update_eq_some hk with ⟨rfl, rfl⟩ | ⟨-, hk⟩
  · exact ⟨_, Function.update_self _ _ _, rfl, rfl⟩
  · -- no older entry is the channel of a request that has not stored it yet
    exact hs.entry_kept hr hid (fun hp => by rw [hpc] at hp; cases hp) k r' hk

/-- The `select` takes the response in the channel. -/
theorem Inv.receive (hs : Inv w) {r : Nat} {rq : Request P} (hr : w.requests r = some rq)
    (hpc : rq.pc = .waiting) {x : Delivery P} {c : BufChan (Delivery P) 1}
    (hc : rq.respCh.tryRecv = some (x, c)) :
    Inv { w with requests :=
                   Function.update w.requests r (some ⟨rq.id, .deferring (.ok x), c⟩) } := by
  have hitems := BufChan.tryRecv_eq_some.1 hc
  have hid : (⟨rq.id, .deferring (.ok x), c⟩ : Request P).id = rq.id := rfl
  exact hs.replaceRequest hr hid (by simp [Request.held, hpc, RequestPc.received, hitems])
    (hs.entry_kept hr hid fun _ => rfl)

/-- The deferred `Delete` removes the request's ID, and with it every entry of its channel. -/
theorem Inv.deleteDeferred (hs : Inv w) {r : Nat} {rq : Request P} (hr : w.requests r = some rq)
    {result : Except PairError (Delivery P)} (hpc : rq.pc = .deferring result) :
    Inv { w.setPc r rq (.returned result) with
          pendings := Function.update w.pendings rq.id none } := by
  refine hs.replaceRequest hr
    (rfl : ({ rq with pc := .returned result } : Request P).id = rq.id)
    (by cases result <;> simp [Request.held, hpc, RequestPc.received]) fun k r' hk => ?_
  have hk' : k ≠ rq.id := by
    rintro rfl
    rw [Function.update_self] at hk
    cases hk
  rw [Function.update_of_ne hk'] at hk
  obtain ⟨rq'', h'', hid, hp⟩ := hs.entry_pending k r' hk
  have hr' : r' ≠ r := by
    rintro rfl
    rw [hr] at h''
    cases h''
    exact hk' hid.symm
  exact ⟨rq'', by rw [Function.update_of_ne hr', h''], hid, hp⟩
/-- The `Load` of a new `OnResponse` targets the request whose channel is stored under the
ID of its message, if any. -/
theorem Inv.onResponse (hs : Inv w) (msg : MessageWithID P) {pc : ResponderPc}
    (hpc : ∀ ch, pc.target = some ch → w.pendings msg.id = some ch) :
    Inv { w with responders := Function.update w.responders w.nextResponder (some ⟨msg, pc⟩),
                 nextResponder := w.nextResponder + 1 } := by
  -- the old calls are unchanged, being numbered below the new one
  refine ⟨hs.requests_fresh, fresh_update hs.responders_fresh _, hs.entry_pending,
    fun j rs ch hj ht => ?_, fun r rq hr x hx => ?_, hs.held_nodup⟩ <;> dsimp only at *
  · rcases update_eq_some hj with ⟨-, rfl⟩ | ⟨-, hj⟩
    · obtain ⟨rq, hr, hid, -⟩ := hs.entry_pending _ _ (hpc ch ht)
      exact ⟨rq, hr, hid⟩
    · exact hs.target_id j rs ch hj ht
  · obtain ⟨rs, hj, hmsg, hdel⟩ := hs.held_from r rq hr x hx
    exact ⟨rs, update_fresh_of_some hs.responders_fresh hj _, hmsg, hdel⟩

/-- A held response was not sent by a call that has only loaded its channel. -/
theorem Inv.fst_ne_of_loaded (hs : Inv w) {j ch : Nat} {msg : MessageWithID P}
    (hj : w.responders j = some ⟨msg, .loaded ch⟩) {r : Nat} {rq : Request P}
    (hr : w.requests r = some rq) {x : Delivery P} (hx : x ∈ rq.held) : x.1 ≠ j := by
  rintro rfl
  exact hs.not_held_of_loaded hj rfl hr (List.mem_map_of_mem hx)

/-- A send that finds the slot full fails, and changes no channel. -/
theorem Inv.onResponseSend_full (hs : Inv w) {j ch : Nat} {msg : MessageWithID P}
    (hj : w.responders j = some ⟨msg, .loaded ch⟩) :
    Inv { w with responders := Function.update w.responders j
                   (some ⟨msg, .failed (.duplicatedResponse msg.id)⟩) } := by
  refine ⟨hs.requests_fresh, fun j' hj' => ?_, hs.entry_pending, fun j' rs ch' hj' ht => ?_,
    fun r rq hr x hx => ?_, hs.held_nodup⟩ <;> dsimp only at *
  · rw [Function.update_of_ne (by have := hs.lt_nextResponder hj; omega)]
    exact hs.responders_fresh j' hj'
  · rcases update_eq_some hj' with ⟨-, rfl⟩ | ⟨-, hj'⟩
    · cases ht
    · exact hs.target_id j' rs ch' hj' ht
  · obtain ⟨rs, hx1, hmsg, hdel⟩ := hs.held_from r rq hr x hx
    exact ⟨rs, by rw [Function.update_of_ne (hs.fst_ne_of_loaded hj hr hx), hx1], hmsg, hdel⟩

/-- A send that finds room puts the payload, with the call's number, in the channel of the
request it loaded, whose ID is the message's. -/
theorem Inv.onResponseSend_delivered (hs : Inv w) {j ch : Nat} {msg : MessageWithID P}
    (hj : w.responders j = some ⟨msg, .loaded ch⟩) {rq : Request P}
    (hr : w.requests ch = some rq) {c : BufChan (Delivery P) 1}
    (hc : rq.respCh.trySend (j, msg.message) = some c) :
    Inv { w with requests := Function.update w.requests ch (some { rq with respCh := c }),
                 responders :=
                   Function.update w.responders j (some ⟨msg, .delivered ch⟩) } := by
  have hitems := (BufChan.trySend_eq_some.1 hc).2
  have hid : rq.id = msg.id := by
    obtain ⟨rq₀, h₀, hid₀⟩ := hs.target_id j _ ch hj rfl
    rw [hr] at h₀
    cases h₀
    exact hid₀
  have hheld : ({ rq with respCh := c } : Request P).held = rq.held ++ [(j, msg.message)] := by
    simp [Request.held, hitems]
  have hlt := hs.lt_nextRequest hr
  -- the responders other than `j` are unchanged, and none of them is `j`
  have hother : ∀ r rq', w.requests r = some rq' → ∀ x ∈ rq'.held,
      Function.update w.responders j (some ⟨msg, .delivered ch⟩) x.1 = w.responders x.1 :=
    fun r rq' hr' x hx => Function.update_of_ne (hs.fst_ne_of_loaded hj hr' hx) _ _
  refine ⟨fun r h₁ => ?_, fun j' hj' => ?_, fun k r hk => ?_, fun j' rs ch' hj' ht => ?_,
    fun r rq₁ h₁ => ?_, fun r rq₁ h₁ => ?_⟩ <;> dsimp only at *
  · rw [Function.update_of_ne (by omega)]
    exact hs.requests_fresh r h₁
  · rw [Function.update_of_ne (by have := hs.lt_nextResponder hj; omega)]
    exact hs.responders_fresh j' hj'
  · exact hs.entry_kept hr (rfl : ({ rq with respCh := c } : Request P).id = rq.id) id k r hk
  · -- every call keeps its target, and the requests keep their IDs
    have ht' : ∃ rs₀, w.responders j' = some rs₀ ∧ rs₀.msg = rs.msg ∧
        rs₀.pc.target = some ch' := by
      rcases update_eq_some hj' with ⟨rfl, rfl⟩ | ⟨-, hj'⟩
      · exact ⟨_, hj, rfl, ht⟩
      · exact ⟨rs, hj', rfl, ht⟩
    obtain ⟨rs₀, h₀, hmsg, ht₀⟩ := ht'
    obtain ⟨rq₀, hr₀, hid₀⟩ := hs.target_id j' rs₀ ch' h₀ ht₀
    by_cases hc' : ch' = ch
    · subst hc'
      rw [hr] at hr₀
      cases hr₀
      exact ⟨_, Function.update_self _ _ _, hid₀.trans (congrArg MessageWithID.id hmsg)⟩
    · exact ⟨rq₀, by rw [Function.update_of_ne hc', hr₀], hid₀.trans (congrArg _ hmsg)⟩
  · rcases update_eq_some h₁ with ⟨rfl, rfl⟩ | ⟨hrc, h₁⟩
    · intro x hx
      rw [hheld] at hx
      rcases List.mem_append.1 hx with hx | hx
      · rw [hother r rq hr x hx]
        exact hs.held_from r rq hr x hx
      · -- the new response
        rw [List.mem_singleton.1 hx]
        exact ⟨_, Function.update_self _ _ _, by simp [hid], rfl⟩
    · intro x hx
      rw [hother r rq₁ h₁ x hx]
      exact hs.held_from r rq₁ h₁ x hx
  · rcases update_eq_some h₁ with ⟨rfl, rfl⟩ | ⟨-, h₁⟩
    · rw [hheld, List.map_append, List.nodup_append]
      refine ⟨hs.held_nodup r rq hr,
        List.nodup_cons.2 ⟨List.not_mem_nil, List.nodup_nil⟩, ?_⟩
      rintro a ha b hb rfl
      rw [List.map_singleton, List.mem_singleton] at hb
      rw [hb] at ha
      exact hs.not_held_of_loaded hj rfl hr ha
    · exact hs.held_nodup r rq₁ h₁
theorem Inv.of_step (hs : Inv w) {a : Action P} {w' : World P} (h : step w a = .ok w') :
    Inv w' := by
  cases a with
  | sendRequest =>
      cases h
      exact hs.sendRequest
  | store r =>
      simp only [step] at h
      split at h
      · rename_i rq hr
        split at h <;> cases h
        · exact hs.store hr ‹_›
        · exact hs
      · cases h
        exact hs
  | sendMessage r ok =>
      simp only [step] at h
      split at h
      · rename_i rq hr
        split at h <;> cases h
        · rename_i hpc
          exact hs.setPc hr (by cases ok <;> rfl)
            (by cases ok <;> simp [hpc, RequestPc.received])
        · exact hs
      · cases h
        exact hs
  | ctxDone r =>
      simp only [step] at h
      split at h
      · rename_i rq hr
        split at h <;> cases h
        · rename_i hpc
          exact hs.setPc hr rfl (by simp [hpc, RequestPc.received])
        · exact hs
      · cases h
        exact hs
  | receive r =>
      simp only [step] at h
      split at h
      · rename_i rq hr
        split at h <;> cases h
        · exact hs.receive hr ‹_› ‹_›
        · exact hs
      · cases h
        exact hs
  | deleteDeferred r =>
      simp only [step] at h
      split at h
      · rename_i rq hr
        split at h <;> cases h
        · exact hs.deleteDeferred hr ‹_›
        · exact hs
      · cases h
        exact hs
  | onResponse msg =>
      cases h
      refine hs.onResponse msg fun ch ht => ?_
      -- the target is the entry the `Load` found
      split at ht
      · rename_i ch' heq
        cases ht
        exact heq
      · cases ht
  | onResponseSend j =>
      simp only [step] at h
      split at h
      · rename_i msg ch hj
        split at h
        · rename_i rq hr
          split at h <;> cases h
          · exact hs.onResponseSend_delivered hj hr ‹_›
          · exact hs.onResponseSend_full hj
        · cases h
          exact hs
      · cases h
        exact hs

theorem inv_of_reachable (h : Reachable P w) : Inv w :=
  Transition.Reachable.inv inv_init (fun _ _ _ hs _ hstep => hs.of_step hstep) h

/-! ## What the callers see -/

/-- An `OnResponse` whose ID no pending request has fails its `Load`, and no channel changes. -/
theorem onResponse_of_not_pending (hs : Inv w) (msg : MessageWithID P)
    (hnone : ∀ r rq, w.requests r = some rq → rq.id = msg.id → rq.pc.isPending = false) :
    step w (.onResponse msg) =
      .ok { w with responders := Function.update w.responders w.nextResponder
                     (some ⟨msg, .failed (.requestNotFound msg.id)⟩),
                   nextResponder := w.nextResponder + 1 } := by
  have hentry : w.pendings msg.id = none := by
    cases hp : w.pendings msg.id with
    | none => rfl
    | some r =>
        obtain ⟨rq, hr, hid, hpend⟩ := hs.entry_pending _ _ hp
        rw [hnone r rq hr hid] at hpend
        cases hpend
  simp [step, hentry]

/-- The send of an `OnResponse` past its `Load` completes at once: it delivers into the
channel it loaded, of a request of its own ID, or fails on a full slot, and leaves every other
request alone. -/
theorem onResponseSend_completes (hs : Inv w) {j ch : Nat} {msg : MessageWithID P}
    (hj : w.responders j = some ⟨msg, .loaded ch⟩) :
    ∃ rq w', w.requests ch = some rq ∧ rq.id = msg.id ∧
      step w (.onResponseSend j) = .ok w' ∧ (∀ r ≠ ch, w'.requests r = w.requests r) ∧
      ((w'.responders j).map Responder.pc = some (.delivered ch) ∨
        (w'.responders j).map Responder.pc = some (.failed (.duplicatedResponse msg.id))) := by
  obtain ⟨rq, hr, hid⟩ := hs.target_id j _ ch hj rfl
  refine ⟨rq, ?_⟩
  cases hc : rq.respCh.trySend (j, msg.message) with
  | some c =>
      refine ⟨{ w with requests := Function.update w.requests ch (some { rq with respCh := c }),
                       responders :=
                         Function.update w.responders j (some ⟨msg, .delivered ch⟩) },
        hr, hid, by simp [step, hj, hr, hc], fun r hrc => Function.update_of_ne hrc _ _,
        .inl (by simp)⟩
  | none =>
      refine ⟨{ w with responders := Function.update w.responders j
                         (some ⟨msg, .failed (.duplicatedResponse msg.id)⟩) },
        hr, hid, by simp [step, hj, hr, hc], fun _ _ => rfl, .inr (by simp)⟩

/-- What the callers of the pair see in a state. -/
structure Matched (w : World P) : Prop where
  /-- A request that returns a response returns the payload of an `OnResponse` of its own
  ID, which sent it into this request's channel. -/
  own_response : ∀ r rq x, w.requests r = some rq → rq.pc = .returned (.ok x) →
    ∃ rs, w.responders x.1 = some rs ∧ rs.msg = ⟨rq.id, x.2⟩ ∧ rs.pc = .delivered r
  /-- No two requests return the payload of the same `OnResponse`. -/
  returned_once : ∀ r r' rq rq' x x', w.requests r = some rq → w.requests r' = some rq' →
    rq.pc = .returned (.ok x) → rq'.pc = .returned (.ok x') → x.1 = x'.1 → r = r'
  /-- An `OnResponse` whose ID no pending request has fails its `Load`, and no channel
  changes. -/
  not_pending_not_found : ∀ msg : MessageWithID P,
    (∀ r rq, w.requests r = some rq → rq.id = msg.id → rq.pc.isPending = false) →
    step w (.onResponse msg) =
      .ok { w with responders := Function.update w.responders w.nextResponder
                     (some ⟨msg, .failed (.requestNotFound msg.id)⟩),
                   nextResponder := w.nextResponder + 1 }
  /-- An `OnResponse` past its `Load` sends at once, into the channel of a request of its
  own ID only. -/
  send_own_id : ∀ j ch (msg : MessageWithID P), w.responders j = some ⟨msg, .loaded ch⟩ →
    ∃ rq w', w.requests ch = some rq ∧ rq.id = msg.id ∧
      step w (.onResponseSend j) = .ok w' ∧ ∀ r ≠ ch, w'.requests r = w.requests r

/-- In every run of any number of requests and responses, late, duplicated or of unknown
IDs, each request that returns a response has its own, and no response is returned twice. -/
theorem responses_matched (h : Reachable P w) : Matched w := by
  have hs := inv_of_reachable h
  -- a returned response is one the request holds
  have hheld : ∀ r rq x, w.requests r = some rq → rq.pc = .returned (.ok x) → x ∈ rq.held :=
    fun r rq x _ hpc => by simp [Request.held, hpc, RequestPc.received]
  refine ⟨fun r rq x hr hpc => hs.held_from r rq hr x (hheld r rq x hr hpc), ?_,
    onResponse_of_not_pending hs, fun j ch msg hj => ?_⟩
  · intro r r' rq rq' x x' hr hr' hpc hpc' hx
    -- both requests hold a response of the same call, which delivered to one request only
    obtain ⟨rs, hj, -, hdel⟩ := hs.held_from r rq hr x (hheld r rq x hr hpc)
    obtain ⟨rs', hj', -, hdel'⟩ := hs.held_from r' rq' hr' x' (hheld r' rq' x' hr' hpc')
    rw [hx, hj'] at hj
    cases hj
    rw [hdel] at hdel'
    exact ResponderPc.delivered.inj hdel'
  · obtain ⟨rq, w', hr, hid, hstep, hother, -⟩ := onResponseSend_completes hs hj
    exact ⟨rq, w', hr, hid, hstep, hother⟩

/-- A request answered once, and the same response again after the request returned, as in
`TestMessagePair`. -/
def exchangeTrace : List (Action String) :=
  [.sendRequest, .store 0, .sendMessage 0 true, .onResponse ⟨1, "response"⟩, .onResponseSend 0,
    .receive 0, .deleteDeferred 0, .onResponse ⟨1, "response"⟩]

/-- The pair after `exchangeTrace`. -/
def afterExchange : World String :=
  match Transition.run step init exchangeTrace with
  | .ok w => w
  | .error e => nomatch e

theorem responses_matched_afterExchange : Matched afterExchange := by
  have hrun : Transition.run step init exchangeTrace = .ok afterExchange := rfl
  exact responses_matched (Transition.reachable_run .init rfl hrun)

end Dm

end Microcosm
