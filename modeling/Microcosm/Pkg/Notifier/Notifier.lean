import Microcosm.Pkg.Containers.SliceQueue
import Microcosm.Library.Slots

/-!
# The notifier

`pkg/notifier/notifier.go`. A `Notifier` broadcasts a stream of events to its receivers.
`Notify` pushes the event into a `SliceQueue`. The goroutine `run` waits at the `select` of
its loop for the end of the notifier (`closeCh`), for a partner on the barrier
`synchronizeCh`, or for the queue's signal `C`; on a signal it pops the events one by one and,
for each, ranges over the `sync.Map` of receivers, sending the event on the channel `C` of
every receiver whose `closed` flag is clear, blocked while that channel (of sixteen slots) is
full unless the notifier is closed. `Receiver.Close` sets `closed`, waits on the barrier,
closes `C` and deletes the receiver from the map. `Flush` meets the barrier until it finds the
queue empty.

The model is an interleaving semantics with one step for each statement another goroutine
can observe. Its goroutines are the callers of `Notify` (`notifiers`, as the pushers of the
slice queue), `run`, the readers of the receivers' channels, the callers of `Close` of each
receiver, of which `closeOnce` keeps the first, the callers of `Notifier.Close`, and the
callers of `Flush` (`flushers`). The receivers are kept in the order `NewReceiver` made them:
the receiver at index `k` has the ID `k + 1`, the value `nextID.Add(1)` returned. Whether the
`sync.Map` holds it is its field `stored`; the receiver itself stays, since `run` and its
`Close` may still hold it after the delete. A range over the map visits, in any order, each
stored receiver at most once, and may end once it has visited every receiver that was stored
when it began and still is: the keys stored or deleted during a `Range` may or may not be
visited. A `Pop` that returns an event and the start of its range are one step.

The queue and the callers of `Notify` run the protocol of the slice queue, with `run` as its
consumer: `toQueue` is the projection, and every step moves it by a step of the slice queue
or leaves it (`QueueMoves`), so that its invariant carries over. As ghosts the model keeps
the events in the order `Notify` pushed them (`notified`) and `run` popped them (`popped`),
the events whose range ended with the receivers stored when it began (`finished`), and for
each receiver the events sent on its channel and those read from it.

In every run: no step panics, so no event is sent on a closed channel and no channel is
closed twice (`notifier_never_panics`); each receiver is sent a run of consecutive events of
the stream, in the order they were notified (`receiver_gets_consecutive_events`); an event
whose range ended was sent to every receiver stored when it was popped that has not been
closed since (`finished_event_reaches_open_receivers`); once the `Close` of a receiver has
passed the barrier, or `run` has returned, nothing more is sent to it
(`sent_frozen_after_close`). When `Flush` returns `nil` on a notifier that is not closed,
every notified event has been popped, and those popped before the call have finished their
range (`flush_returns_after_broadcast`); the event `run` took after the call may still be in
its range.
-/

namespace Microcosm

namespace Notifier

open Containers (Tagged PusherPc SliceQueue signal)

/-- The slots of a receiver's channel, `make(chan T, 16)`. -/
def receiverChanSize : Nat := 16

/-- Where a receiver's `closeOnce.Do` is. -/
inductive ClosePc
  /-- `Close` has not been called. -/
  | idle
  /-- `closed` is set; waiting on `synchronizeCh`. -/
  | waiting
  /-- Past the barrier, before `close(r.C)`. -/
  | closingC
  /-- `C` is closed, before `receivers.Delete`. -/
  | deleting
  /-- `Close` has returned. -/
  | done
  deriving DecidableEq, Repr

/-- Past the barrier of `Close`. -/
def ClosePc.pastBarrier : ClosePc → Bool
  | .idle | .waiting => false
  | _ => true

/-- A receiver: its channel `C` and whether it is closed, its flag `closed`, where its
`Close` is, and whether `receivers` holds it; as ghosts, the events sent on `C` and those
read from it. -/
structure Receiver (T : Type) where
  c : BufChan (Tagged T) receiverChanSize
  cClosed : Bool
  closed : Bool
  once : ClosePc
  stored : Bool
  sent : List (Tagged T)
  received : List (Tagged T)
  deriving DecidableEq

variable {T : Type}

/-- The receiver `NewReceiver` stores. -/
def Receiver.new : Receiver T :=
  ⟨.empty, false, false, .idle, true, [], []⟩

/-- Where `run` is. -/
inductive RunPc (T : Type)
  /-- At the `select` of the outer loop. -/
  | top
  /-- In the inner loop, before `Pop`. -/
  | popping
  /-- In `receivers.Range` for `event`: the receivers stored when it began, and those
  visited. -/
  | ranging (event : Tagged T) (start visited : List Nat)
  /-- In the `select` of the range's callback for receiver `k`. -/
  | sending (event : Tagged T) (k : Nat) (start visited : List Nat)
  /-- `run` has returned and closed `synchronizeCh`. -/
  | exited
  deriving DecidableEq, Repr

/-- Where a caller of `Flush` is; the ghost `start` is how many events `run` had popped when
`Flush` was called. -/
inductive FlushPc
  /-- Not in `Flush`. -/
  | idle
  /-- At the `select` of its loop. -/
  | waiting (start : Nat)
  /-- Past a barrier, before the check of the queue's size. -/
  | checking (start : Nat)
  deriving DecidableEq, Repr

/-- The panics of the notifier. -/
inductive Panic
  /-- A panic of the slice queue. -/
  | queue (p : Containers.Panic)
  /-- A send on a closed channel. -/
  | sendOnClosedChannel
  /-- A close of a closed channel. -/
  | closeOfClosedChannel
  deriving DecidableEq, Repr

/-- The notifier, its goroutines, and the ghosts. -/
structure World (T : Type) where
  queue : SliceQueue T
  notifiers : List PusherPc
  receivers : List (Receiver T)
  /-- `closed` of the notifier. -/
  closed : Bool
  closeChClosed : Bool
  run : RunPc T
  flushers : List FlushPc
  notified : List (Tagged T)
  popped : List (Tagged T)
  finished : List (Tagged T × List Nat)
  deriving DecidableEq

/-- `NewNotifier`, with `n` callers of `Notify` and `m` callers of `Flush`. -/
def init (n m : Nat) : World T :=
  ⟨Containers.newSliceQueue, List.replicate n .idle, [], false, false, .top,
    List.replicate m .idle, [], [], []⟩

/-- How many events goroutine `i` has notified. -/
def World.notifyCount (w : World T) (i : Nat) : Nat :=
  (w.notified.filter (·.pusher == i)).length

/-- The receiver at index `k` replaced by `r`. -/
def World.setReceiver (w : World T) (k : Nat) (r : Receiver T) : World T :=
  { w with receivers := w.receivers.set k r }

/-- The receivers `receivers` holds. -/
def World.storedIDs (w : World T) : List Nat :=
  (List.range w.receivers.length).filter fun k => (w.receivers[k]?).any (·.stored)

/-- A range has visited every receiver of `start` that is still stored. -/
def World.rangeDone (w : World T) (start visited : List Nat) : Bool :=
  start.all fun k => !((w.receivers[k]?).any (·.stored)) || visited.contains k

/-- `run` meets a partner on `synchronizeCh`: at the top of its loop, or, after it returned,
through the closed channel. -/
def RunPc.atBarrier : RunPc T → Bool
  | .top | .exited => true
  | _ => false

/-- The steps of the goroutines. -/
inductive Action (T : Type)
  /-- Goroutine `i`'s `Notify(event)`: the `Push` up to its unlock. -/
  | notify (i : Nat) (event : T)
  /-- The signal of that `Push`. -/
  | notifySignal (i : Nat)
  /-- `NewReceiver`. -/
  | newReceiver
  /-- A read from the channel of receiver `k`. -/
  | receive (k : Nat)
  /-- `Close` of receiver `k`: `closeOnce.Do` and `closed.Store(true)`. -/
  | closeReceiver (k : Nat)
  /-- Its `<-r.notifier.synchronizeCh`. -/
  | closeBarrier (k : Nat)
  /-- Its `close(r.C)`. -/
  | closeChan (k : Nat)
  /-- Its `receivers.Delete`. -/
  | deleteReceiver (k : Nat)
  /-- `Notifier.Close`: the `Swap` of `closed` and `close(n.closeCh)`. -/
  | close
  /-- `run`'s `case <-n.closeCh` at the top. -/
  | runExit
  /-- `run`'s `case <-n.queue.C`. -/
  | runWake
  /-- `run`'s `Pop`, and the start of the range of the event it returns. -/
  | runPop
  /-- The range visits receiver `k`. -/
  | runVisit (k : Nat)
  /-- The callback's `case receiver.C <- event`. -/
  | runSend
  /-- The callback's `case <-n.closeCh`: the range stops and `run` returns. -/
  | runAbort
  /-- The range ends, and the `select` on `closeCh` after it. -/
  | runEndRange
  /-- Flusher `f` calls `Flush`. -/
  | flush (f : Nat)
  /-- Its `case <-n.synchronizeCh`. -/
  | flushBarrier (f : Nat)
  /-- Its check of `queue.Size()`. -/
  | flushCheck (f : Nat)
  /-- Its `case <-ctx.Done()`. -/
  | flushCancel (f : Nat)
  deriving DecidableEq, Repr

/-- One step. A step of a goroutine that is not where the goroutine is changes nothing. -/
def step (w : World T) : Action T → Except Panic (World T)
  | .notify i x =>
      match w.notifiers[i]? with
      | some .idle =>
          let t : Tagged T := ⟨i, w.notifyCount i, x⟩
          match w.queue.push t with
          | (sig, q) =>
              .ok { w with queue := q,
                           notifiers := w.notifiers.set i (if sig then .signalling else .idle),
                           notified := w.notified ++ [t] }
      | _ => .ok w
  | .notifySignal i =>
      match w.notifiers[i]? with
      | some .signalling =>
          .ok { w with queue := { w.queue with c := signal w.queue.c },
                       notifiers := w.notifiers.set i .idle }
      | _ => .ok w
  | .newReceiver => .ok { w with receivers := w.receivers ++ [Receiver.new] }
  | .receive k =>
      match w.receivers[k]? with
      | some r =>
          match r.c.tryRecv with
          | some (x, c) => .ok (w.setReceiver k { r with c, received := r.received ++ [x] })
          | none => .ok w
      | none => .ok w
  | .closeReceiver k =>
      match w.receivers[k]? with
      | some r =>
          match r.once with
          | .idle => .ok (w.setReceiver k { r with closed := true, once := .waiting })
          | _ => .ok w
      | none => .ok w
  | .closeBarrier k =>
      match w.receivers[k]? with
      | some r =>
          if r.once = .waiting ∧ w.run.atBarrier then
            .ok (w.setReceiver k { r with once := .closingC })
          else .ok w
      | none => .ok w
  | .closeChan k =>
      match w.receivers[k]? with
      | some r =>
          match r.once with
          | .closingC =>
              if r.cClosed then .error .closeOfClosedChannel
              else .ok (w.setReceiver k { r with cClosed := true, once := .deleting })
          | _ => .ok w
      | none => .ok w
  | .deleteReceiver k =>
      match w.receivers[k]? with
      | some r =>
          match r.once with
          | .deleting => .ok (w.setReceiver k { r with stored := false, once := .done })
          | _ => .ok w
      | none => .ok w
  | .close =>
      if w.closed then .ok w
      else if w.closeChClosed then .error .closeOfClosedChannel
      else .ok { w with closed := true, closeChClosed := true }
  | .runExit =>
      match w.run with
      | .top => if w.closeChClosed then .ok { w with run := .exited } else .ok w
      | _ => .ok w
  | .runWake =>
      match w.run, w.queue.c.tryRecv with
      | .top, some ((), c) => .ok { w with queue := { w.queue with c }, run := .popping }
      | _, _ => .ok w
  | .runPop =>
      match w.run with
      | .popping =>
          match w.queue.pop with
          | .error p => .error (.queue p)
          | .ok (none, q) => .ok { w with queue := q, run := .top }
          | .ok (some e, q) =>
              .ok { w with queue := q, run := .ranging e w.storedIDs [],
                           popped := w.popped ++ [e] }
      | _ => .ok w
  | .runVisit k =>
      match w.run with
      | .ranging e start visited =>
          match w.receivers[k]? with
          | some r =>
              if r.stored ∧ k ∉ visited then
                -- the callback skips a receiver whose `closed` is set
                if r.closed then .ok { w with run := .ranging e start (visited ++ [k]) }
                else .ok { w with run := .sending e k start visited }
              else .ok w
          | none => .ok w
      | _ => .ok w
  | .runSend =>
      match w.run with
      | .sending e k start visited =>
          match w.receivers[k]? with
          | some r =>
              if r.cClosed then .error .sendOnClosedChannel
              else
                match r.c.trySend e with
                | some c =>
                    let w' := w.setReceiver k { r with c, sent := r.sent ++ [e] }
                    .ok { w' with run := .ranging e start (visited ++ [k]) }
                | none => .ok w
          | none => .ok w
      | _ => .ok w
  | .runAbort =>
      match w.run with
      | .sending .. => if w.closeChClosed then .ok { w with run := .exited } else .ok w
      | _ => .ok w
  | .runEndRange =>
      match w.run with
      | .ranging e start visited =>
          if w.rangeDone start visited then
            .ok { w with run := if w.closeChClosed then .exited else .popping,
                         finished := w.finished ++ [(e, start)] }
          else .ok w
      | _ => .ok w
  | .flush f =>
      match w.flushers[f]? with
      | some .idle => .ok { w with flushers := w.flushers.set f (.waiting w.popped.length) }
      | _ => .ok w
  | .flushBarrier f =>
      match w.flushers[f]? with
      | some (.waiting start) =>
          if w.run.atBarrier then .ok { w with flushers := w.flushers.set f (.checking start) }
          else .ok w
      | _ => .ok w
  | .flushCheck f =>
      match w.flushers[f]? with
      | some (.checking start) =>
          -- `Flush` returns `nil` when it finds the queue empty
          let pc : FlushPc := if w.queue.size = 0 then .idle else .waiting start
          .ok { w with flushers := w.flushers.set f pc }
      | _ => .ok w
  | .flushCancel f =>
      match w.flushers[f]? with
      | some (.waiting _) => .ok { w with flushers := w.flushers.set f .idle }
      | _ => .ok w

-- Many proofs below unfold this definition, and Lean elaborates them in parallel: the empty
-- section generates its equation lemmas here, once, so that the proofs do not all wait on it.
-- The simp set outside the section is unchanged.
section
attribute [local simp] step
end

/-- The runs from `NewNotifier`. -/
def Reachable (n m : Nat) : World T → Prop :=
  Transition.Reachable step (fun _ _ => true) (init n m)

/-! ## The slice queue inside

`run` is the consumer of the slice queue: blocked on its signal at the top of the loop, and
draining it everywhere else, also after it returned, when it waits for no signal again. -/

/-- `run` as the consumer of the slice queue. -/
def RunPc.consumer : RunPc T → Containers.ConsumerPc
  | .top => .waiting
  | _ => .draining

/-- The slice queue with its pushers and its consumer. -/
def World.toQueue (w : World T) : Containers.World T :=
  ⟨w.queue, w.notifiers, w.run.consumer, w.notified, w.popped⟩

/-- How a step of the notifier moves the slice queue: not at all, by one of its steps, or by
its consumer leaving the wait on the signal for good. -/
inductive QueueMoves (v : Containers.World T) : Containers.World T → Prop
  | stay : QueueMoves v v
  | step (a : Containers.Action T) {v' : Containers.World T} :
      Containers.step v a = .ok v' → QueueMoves v v'
  | leave : QueueMoves v { v with consumer := .draining }

theorem QueueMoves.inv {v v' : Containers.World T} (hs : Containers.Inv v)
    (h : QueueMoves v v') : Containers.Inv v' := by
  cases h with
  | stay => exact hs
  | step a h => exact hs.of_step h
  | leave => exact ⟨hs.fifo, hs.seqs, hs.nodup, fun _ h => by cases h⟩

/-! ## What `run` is doing -/

/-- The range `run` is in: its event, the receivers stored when it began, and those
visited. -/
def RunPc.range? : RunPc T → Option (Tagged T × List Nat × List Nat)
  | .ranging e start visited => some (e, start, visited)
  | .sending e _ start visited => some (e, start, visited)
  | _ => none

section
attribute [local simp] RunPc.range?
end

/-- The event `run` ranges for. -/
def RunPc.current (ρ : RunPc T) : Option (Tagged T) :=
  ρ.range?.map (·.1)

/-- `run` is in the callback for receiver `k`. -/
def RunPc.sendingTo : RunPc T → Nat → Bool
  | .sending _ k _ _, j => k == j
  | _, _ => false

section
attribute [local simp] RunPc.sendingTo
end

/-- The popped events `run` has offered receiver `k` or passed it by: all of them, but the
one it ranges for while it has not visited `k`. -/
def RunPc.seen (ρ : RunPc T) (popped : List (Tagged T)) (k : Nat) : List (Tagged T) :=
  match ρ.range? with
  | some (_, _, visited) => if k ∈ visited then popped else popped.dropLast
  | none => popped

/-! ## The invariant -/

/-- What holds of the receiver at index `k`, given where `run` is, what it popped and the
ranges that ended. Its flags follow its `Close`; the events sent on `C` are those read and
those buffered; after the barrier of its `Close`, `run` is not in its callback. The events
sent to it are consecutive popped ones, and, while it is open or `run` is in its callback,
they end with the last event `run` offered it; a receiver that a range neither found stored at
its start nor visited has been sent nothing; a visited open receiver was sent the range's
event, and an open receiver stored at the start of a range that ended was sent its event. -/
structure RecvInv (ρ : RunPc T) (popped : List (Tagged T))
    (finished : List (Tagged T × List Nat)) (k : Nat) (r : Receiver T) : Prop where
  closed_iff : r.closed = false ↔ r.once = .idle
  cClosed_iff : r.cClosed = true ↔ r.once = .deleting ∨ r.once = .done
  stored_iff : r.stored = false ↔ r.once = .done
  chan : r.sent = r.received ++ r.c.items
  barrier : r.once.pastBarrier = true → ρ.sendingTo k = false
  consecutive : r.sent <:+: popped
  suffix : ρ ≠ .exited → r.closed = false ∨ ρ.sendingTo k = true → r.sent <:+ ρ.seen popped k
  fresh : ∀ e start visited, ρ.range? = some (e, start, visited) → k ∉ start → k ∉ visited →
    r.closed = false ∨ ρ.sendingTo k = true → r.sent = []
  got : ∀ e start visited, ρ.range? = some (e, start, visited) → k ∈ visited →
    r.closed = false → e ∈ r.sent
  reached : ∀ e start, (e, start) ∈ finished → k ∈ start → r.closed = false → e ∈ r.sent

/-- What holds of a caller of `Flush`: it was called after `start` pops, and once past a
barrier, the event `run` ranges for was popped after the call. -/
def FlushInv (ρ : RunPc T) (popped : List (Tagged T)) : FlushPc → Prop
  | .idle => True
  | .waiting start => start ≤ popped.length
  | .checking start => start ≤ popped.length ∧ (ρ.current.isSome → start < popped.length)

/-- The invariant of every run. -/
structure Inv (w : World T) : Prop where
  queue : Containers.Inv w.toQueue
  receivers : Slots.All (RecvInv w.run w.popped w.finished) w.receivers
  closeCh : w.closeChClosed = w.closed
  exited : w.run = .exited → w.closeChClosed = true
  /-- While `run` runs, it has popped the events of the ranges that ended and the one it
  ranges for. -/
  popped : w.run ≠ .exited → w.popped = w.finished.map Prod.fst ++ w.run.current.toList
  range_lt : ∀ e start visited, w.run.range? = some (e, start, visited) →
    ∀ k, k ∈ start ∨ k ∈ visited → k < w.receivers.length
  finished_lt : ∀ e start, (e, start) ∈ w.finished → ∀ k ∈ start, k < w.receivers.length
  sending : ∀ e k start visited, w.run = .sending e k start visited →
    k ∉ visited ∧ k < w.receivers.length
  flushers : Slots.All (fun _ => FlushInv w.run w.popped) w.flushers

theorem inv_init (n m : Nat) : Inv (init n m : World T) where
  queue := Containers.inv_init n
  receivers := Slots.all_nil
  closeCh := rfl
  exited h := by cases h
  popped _ := rfl
  range_lt _ _ _ h := by cases h
  finished_lt _ _ h := by cases h
  sending _ _ _ _ h := by cases h
  flushers := Slots.all_replicate fun _ _ => trivial

/-! ## One receiver -/

section Receiver

variable {ρ ρ' : RunPc T} {P : List (Tagged T)} {F : List (Tagged T × List Nat)} {k : Nat}
  {r : Receiver T}

theorem RunPc.sendingTo_of_range?_eq_none (h : ρ.range? = none) (k : Nat) :
    ρ.sendingTo k = false := by
  cases ρ <;> first | rfl | cases h

theorem RunPc.seen_of_range?_eq_none (h : ρ.range? = none) (P : List (Tagged T)) (k : Nat) :
    ρ.seen P k = P := by
  simp [RunPc.seen, h]

theorem RecvInv.closed_eq_true (h : RecvInv ρ P F k r) (hne : r.once ≠ .idle) :
    r.closed = true := by
  cases hc : r.closed
  · exact absurd (h.closed_iff.1 hc) hne
  · rfl

theorem RecvInv.cClosed_eq_false (h : RecvInv ρ P F k r) (hd : r.once ≠ .deleting)
    (hn : r.once ≠ .done) : r.cClosed = false := by
  cases hc : r.cClosed
  · rfl
  · rcases h.cClosed_iff.1 hc with h' | h'
    · exact absurd h' hd
    · exact absurd h' hn

theorem RecvInv.stored_eq_true (h : RecvInv ρ P F k r) (hn : r.once ≠ .done) :
    r.stored = true := by
  cases hs : r.stored
  · exact absurd (h.stored_iff.1 hs) hn
  · rfl

/-- An open receiver is stored. -/
theorem RecvInv.stored_of_open (h : RecvInv ρ P F k r) (hc : r.closed = false) :
    r.stored = true :=
  h.stored_eq_true (by rw [h.closed_iff.1 hc]; decide)

/-- `run` is never in the callback of a receiver whose channel is closed. -/
theorem RecvInv.cClosed_eq_false_of_sendingTo (h : RecvInv ρ P F k r)
    (hs : ρ.sendingTo k = true) : r.cClosed = false := by
  cases hc : r.cClosed
  · rfl
  · have hpast : r.once.pastBarrier = true := by
      rcases h.cClosed_iff.1 hc with h' | h' <;> rw [h'] <;> rfl
    rw [h.barrier hpast] at hs
    cases hs

theorem RecvInv.cClosed_eq_false_of_closingC (h : RecvInv ρ P F k r)
    (hcl : r.once = .closingC) : r.cClosed = false :=
  h.cClosed_eq_false (by rw [hcl]; decide) (by rw [hcl]; decide)

/-- A move of `run` that the receiver at `k` cannot tell from staying: `run` does not come
into its callback, offers it the same events, and keeps the event, the start and whether it
visited `k`, of the range it is in. -/
theorem RecvInv.of_view (h : RecvInv ρ P F k r)
    (hsend : ρ'.sendingTo k = true → ρ.sendingTo k = true ∨ r.closed = false)
    (hex : ρ' ≠ .exited → ρ ≠ .exited ∧ ρ'.seen P k = ρ.seen P k)
    (hrange : ∀ e start visited', ρ'.range? = some (e, start, visited') →
      ∃ visited, ρ.range? = some (e, start, visited) ∧ (k ∈ visited' ↔ k ∈ visited)) :
    RecvInv ρ' P F k r where
  closed_iff := h.closed_iff
  cClosed_iff := h.cClosed_iff
  stored_iff := h.stored_iff
  chan := h.chan
  barrier hpast := by
    cases hs : ρ'.sendingTo k
    · rfl
    · rcases hsend hs with hs' | hc
      · rw [h.barrier hpast] at hs'
        cases hs'
      · rw [h.closed_iff.1 hc] at hpast
        cases hpast
  consecutive := h.consecutive
  suffix hne hopen := by
    obtain ⟨hne', hseen⟩ := hex hne
    rw [hseen]
    exact h.suffix hne' (hopen.elim .inl fun hs => (hsend hs).symm)
  fresh e start visited' he hs hv hopen := by
    obtain ⟨visited, he', hmem⟩ := hrange e start visited' he
    exact h.fresh e start visited he' hs (fun hk => hv (hmem.2 hk))
      (hopen.elim .inl fun hs => (hsend hs).symm)
  got e start visited' he hv hopen := by
    obtain ⟨visited, he', hmem⟩ := hrange e start visited' he
    exact h.got e start visited he' (hmem.1 hv) hopen
  reached := h.reached

/-- A move of `run` between two places outside a range, other than its return. -/
theorem RecvInv.idle (h : RecvInv ρ P F k r) (hρ : ρ.range? = none) (hρ' : ρ'.range? = none)
    (hex : ρ ≠ .exited) : RecvInv ρ' P F k r :=
  h.of_view (by rw [RunPc.sendingTo_of_range?_eq_none hρ']; exact fun h => by cases h)
    (fun _ => ⟨hex, by rw [RunPc.seen_of_range?_eq_none hρ', RunPc.seen_of_range?_eq_none hρ]⟩)
    (fun _ _ _ he => by rw [hρ'] at he; cases he)

/-- `run` returns. -/
theorem RecvInv.exit (h : RecvInv ρ P F k r) : RecvInv .exited P F k r :=
  h.of_view (fun hs => by cases hs) (fun hne => absurd rfl hne) (fun _ _ _ he => by cases he)

/-- A receiver that `run` neither visits nor enters: the range visits another one. -/
theorem RecvInv.visit_other {e : Tagged T} {start visited : List Nat} {j : Nat}
    (h : RecvInv ρ P F k r) (hρ : ρ.range? = some (e, start, visited))
    (hρ' : ρ'.range? = some (e, start, visited ++ [j]))
    (hsend : ρ'.sendingTo k = true → ρ.sendingTo k = true ∨ r.closed = false) (hne : j ≠ k)
    (hex : ρ ≠ .exited) : RecvInv ρ' P F k r := by
  have hmem : k ∈ visited ++ [j] ↔ k ∈ visited := by
    simp [List.mem_append, Ne.symm hne]
  refine h.of_view hsend (fun _ => ⟨hex, ?_⟩) ?_
  · simp only [RunPc.seen, hρ, hρ', hmem]
  · intro e' start' visited' he'
    rw [hρ'] at he'
    cases he'
    exact ⟨visited, hρ, hmem⟩

/-- The range skips receiver `k`, whose `closed` is set. -/
theorem RecvInv.visit_closed {e : Tagged T} {start visited : List Nat}
    (h : RecvInv (.ranging e start visited) P F k r) (hc : r.closed = true) :
    RecvInv (.ranging e start (visited ++ [k])) P F k r where
  closed_iff := h.closed_iff
  cClosed_iff := h.cClosed_iff
  stored_iff := h.stored_iff
  chan := h.chan
  barrier _ := rfl
  consecutive := h.consecutive
  suffix _ hopen := by
    rw [hc] at hopen
    rcases hopen with h' | h' <;> cases h'
  fresh _ _ _ he _ hv := by
    cases he
    exact absurd (List.mem_append_right _ (List.mem_singleton_self k)) hv
  got _ _ _ _ _ hopen := by rw [hc] at hopen; cases hopen
  reached := h.reached

/-- `run` pops `e` and begins its range with the receivers `start`, among them every stored
one. -/
theorem RecvInv.pop {e : Tagged T} {start : List Nat} (h : RecvInv .popping P F k r)
    (hstart : r.stored = true → k ∈ start) :
    RecvInv (.ranging e start []) (P ++ [e]) F k r where
  closed_iff := h.closed_iff
  cClosed_iff := h.cClosed_iff
  stored_iff := h.stored_iff
  chan := h.chan
  barrier _ := rfl
  consecutive := h.consecutive.trans (List.prefix_append _ _).isInfix
  suffix _ hopen := by
    have hc : r.closed = false := hopen.resolve_right (by simp [RunPc.sendingTo])
    have := h.suffix (fun h => by cases h) (.inl hc)
    simpa [RunPc.seen, RunPc.range?] using this
  fresh _ _ _ he hs _ hopen := by
    cases he
    have hc : r.closed = false := hopen.resolve_right (by simp [RunPc.sendingTo])
    exact absurd (hstart (h.stored_of_open hc)) hs
  got _ _ _ he hv := by
    cases he
    cases hv
  reached := h.reached

/-- The range's callback sends `e` on the channel of receiver `k`. -/
theorem RecvInv.send {e : Tagged T} {start visited : List Nat}
    {c : BufChan (Tagged T) receiverChanSize}
    (h : RecvInv (.sending e k start visited) P F k r) (hv : k ∉ visited)
    (hP : P = P.dropLast ++ [e]) (hc : c.items = r.c.items ++ [e]) :
    RecvInv (.ranging e start (visited ++ [k])) P F k { r with c, sent := r.sent ++ [e] } := by
  -- what was sent before is a suffix of the events before `e`
  have hsuf : r.sent <:+ P.dropLast := by
    have := h.suffix (fun h => by cases h) (.inr (by simp [RunPc.sendingTo]))
    simpa [RunPc.seen, RunPc.range?, hv] using this
  have hsuf' : r.sent ++ [e] <:+ P := by
    obtain ⟨t, ht⟩ := hsuf
    exact ⟨t, by rw [← List.append_assoc, ht, ← hP]⟩
  exact {
    closed_iff := h.closed_iff
    cClosed_iff := h.cClosed_iff
    stored_iff := h.stored_iff
    chan := by rw [hc, h.chan, List.append_assoc]
    barrier := fun _ => rfl
    consecutive := hsuf'.isInfix
    suffix := fun _ _ => by simpa [RunPc.seen, RunPc.range?] using hsuf'
    fresh := fun _ _ _ he _ hv' => by
      cases he
      exact absurd (List.mem_append_right _ (List.mem_singleton_self k)) hv'
    got := fun _ _ _ he _ _ => by
      cases he
      exact List.mem_append_right _ (List.mem_singleton_self _)
    reached := fun e' start' he hk hopen => List.mem_append_left _ (h.reached e' start' he hk hopen) }

/-- A range ends that visited every open receiver of its start; `run` goes on popping or
returns. -/
theorem RecvInv.endRange {e : Tagged T} {start visited : List Nat}
    (h : RecvInv (.ranging e start visited) P F k r) (hρ' : ρ'.range? = none)
    (hdone : r.closed = false → k ∈ start → k ∈ visited) :
    RecvInv ρ' P (F ++ [(e, start)]) k r where
  closed_iff := h.closed_iff
  cClosed_iff := h.cClosed_iff
  stored_iff := h.stored_iff
  chan := h.chan
  barrier _ := RunPc.sendingTo_of_range?_eq_none hρ' k
  consecutive := h.consecutive
  suffix _ hopen := by
    have hc : r.closed = false :=
      hopen.resolve_right (by rw [RunPc.sendingTo_of_range?_eq_none hρ']; exact fun h => by cases h)
    rw [RunPc.seen_of_range?_eq_none hρ']
    by_cases hv : k ∈ visited
    · simpa [RunPc.seen, RunPc.range?, hv] using h.suffix (fun h => by cases h) (.inl hc)
    · -- not visited, so not stored when the range began: it was sent nothing
      have hs : k ∉ start := fun hs => hv (hdone hc hs)
      rw [h.fresh e start visited rfl hs hv (.inl hc)]
      exact List.nil_suffix
  fresh _ _ _ he := by rw [hρ'] at he; cases he
  got _ _ _ he := by rw [hρ'] at he; cases he
  reached e' start' he hk hopen := by
    rcases List.mem_append.1 he with he | he
    · exact h.reached e' start' he hk hopen
    · obtain ⟨rfl, rfl⟩ := Prod.mk.inj (List.mem_singleton.1 he)
      exact h.got e' start' visited rfl (hdone hopen hk) hopen

/-- A read from the channel. -/
theorem RecvInv.receive {x : Tagged T} {c : BufChan (Tagged T) receiverChanSize}
    (h : RecvInv ρ P F k r) (hc : r.c.items = x :: c.items) :
    RecvInv ρ P F k { r with c, received := r.received ++ [x] } :=
  { h with chan := by rw [h.chan, hc, List.append_assoc, List.singleton_append] }

/-- `Close` sets `closed`. -/
theorem RecvInv.closeStart (h : RecvInv ρ P F k r) (hidle : r.once = .idle) :
    RecvInv ρ P F k { r with closed := true, once := .waiting } where
  closed_iff := by simp
  cClosed_iff := by
    have : r.cClosed = false := by
      cases hc : r.cClosed
      · rfl
      · rcases h.cClosed_iff.1 hc with h' | h' <;> rw [hidle] at h' <;> cases h'
    simp [this]
  stored_iff := by
    have : r.stored = true := h.stored_of_open (h.closed_iff.2 hidle)
    simp [this]
  chan := h.chan
  barrier h' := by cases h'
  consecutive := h.consecutive
  suffix hne hopen := h.suffix hne (.inr (hopen.resolve_left (by simp)))
  fresh e start visited he hs hv hopen :=
    h.fresh e start visited he hs hv (.inr (hopen.resolve_left (by simp)))
  got _ _ _ _ _ hopen := by cases hopen
  reached _ _ _ _ hopen := by cases hopen

/-- `Close` passes the barrier, where `run` is not in a range. -/
theorem RecvInv.passBarrier (h : RecvInv ρ P F k r) (hw : r.once = .waiting)
    (hρ : ρ.atBarrier = true) : RecvInv ρ P F k { r with once := .closingC } where
  closed_iff := by simp [h.closed_eq_true (by rw [hw]; decide)]
  cClosed_iff := by simp [h.cClosed_eq_false (by rw [hw]; decide) (by rw [hw]; decide)]
  stored_iff := by simp [h.stored_eq_true (by rw [hw]; decide)]
  chan := h.chan
  barrier _ := by
    cases ρ <;> first | rfl | cases hρ
  consecutive := h.consecutive
  suffix := h.suffix
  fresh := h.fresh
  got := h.got
  reached := h.reached

/-- `Close` closes the channel. -/
theorem RecvInv.closeC (h : RecvInv ρ P F k r) (hcl : r.once = .closingC) :
    RecvInv ρ P F k { r with cClosed := true, once := .deleting } where
  closed_iff := by simp [h.closed_eq_true (by rw [hcl]; decide)]
  cClosed_iff := by simp
  stored_iff := by simp [h.stored_eq_true (by rw [hcl]; decide)]
  chan := h.chan
  barrier _ := h.barrier (by rw [hcl]; rfl)
  consecutive := h.consecutive
  suffix := h.suffix
  fresh := h.fresh
  got := h.got
  reached := h.reached

/-- `Close` deletes the receiver from the map. -/
theorem RecvInv.delete (h : RecvInv ρ P F k r) (hd : r.once = .deleting) :
    RecvInv ρ P F k { r with stored := false, once := .done } where
  closed_iff := by simp [h.closed_eq_true (by rw [hd]; decide)]
  cClosed_iff := by simp [h.cClosed_iff.2 (.inl hd)]
  stored_iff := by simp
  chan := h.chan
  barrier _ := h.barrier (by rw [hd]; rfl)
  consecutive := h.consecutive
  suffix := h.suffix
  fresh := h.fresh
  got := h.got
  reached := h.reached

/-- The receiver `NewReceiver` stores, at an index no range and no ended range has seen. -/
theorem recvInv_new (hρ : ∀ e start visited, ρ.range? = some (e, start, visited) →
      k ∉ start ∧ k ∉ visited)
    (hF : ∀ e start, (e, start) ∈ F → k ∉ start) (hs : ρ.sendingTo k = false) :
    RecvInv ρ P F k (Receiver.new : Receiver T) where
  closed_iff := by simp [Receiver.new]
  cClosed_iff := by simp [Receiver.new]
  stored_iff := by simp [Receiver.new]
  chan := rfl
  barrier _ := hs
  consecutive := List.nil_infix
  suffix _ _ := List.nil_suffix
  fresh _ _ _ _ _ _ _ := rfl
  got e start visited he hv := absurd hv (hρ e start visited he).2
  reached e start he hk := absurd hk (hF e start he)

end Receiver

theorem RunPc.sendingTo_eq_true {ρ : RunPc T} {k : Nat} :
    ρ.sendingTo k = true ↔ ∃ e start visited, ρ = .sending e k start visited := by
  cases ρ <;> simp [RunPc.sendingTo]

theorem FlushInv.mono {ρ ρ' : RunPc T} {P P' : List (Tagged T)} {pc : FlushPc}
    (h : FlushInv ρ P pc) (hP : P.length ≤ P'.length)
    (hcur : ρ'.current.isSome → ρ.current.isSome ∨ P.length < P'.length) :
    FlushInv ρ' P' pc := by
  cases pc with
  | idle => trivial
  | waiting start => exact Nat.le_trans h hP
  | checking start =>
      refine ⟨Nat.le_trans h.1 hP, fun hc => ?_⟩
      rcases hcur hc with hc | hc
      · exact Nat.lt_of_lt_of_le (h.2 hc) hP
      · exact Nat.lt_of_le_of_lt h.1 hc

/-! ## One step -/

section Step

variable {w w' : World T}

/-- A step of the goroutines of one receiver: `run`, the queue and the other receivers stay. -/
theorem Inv.setReceiver (hs : Inv w) {k : Nat} {r : Receiver T}
    (hr : RecvInv w.run w.popped w.finished k r) : Inv (w.setReceiver k r) where
  queue := hs.queue
  receivers := hs.receivers.set fun _ => hr
  closeCh := hs.closeCh
  exited := hs.exited
  popped := hs.popped
  range_lt e start visited he j hj := by
    simpa [World.setReceiver] using hs.range_lt e start visited he j hj
  finished_lt e start he j hj := by
    simpa [World.setReceiver] using hs.finished_lt e start he j hj
  sending e j start visited he := by
    simpa [World.setReceiver] using hs.sending e j start visited he
  flushers := hs.flushers

theorem Inv.notify (hs : Inv w) {i : Nat} {x : T} (h : step w (.notify i x) = .ok w') :
    Inv w' := by
  simp only [step] at h
  split at h
  · rename_i hi
    simp only [Containers.SliceQueue.push] at h
    cases h
    refine { hs with queue := (QueueMoves.step (.push i x) ?_).inv hs.queue }
    simp [Containers.step, World.toQueue, hi, Containers.SliceQueue.push, World.notifyCount,
      Containers.World.pushCount]
  · cases h
    exact hs

theorem Inv.notifySignal (hs : Inv w) {i : Nat} (h : step w (.notifySignal i) = .ok w') :
    Inv w' := by
  simp only [step] at h
  split at h
  · rename_i hi
    cases h
    refine { hs with queue := (QueueMoves.step (.pushSignal i) ?_).inv hs.queue }
    simp [Containers.step, World.toQueue, hi]
  · cases h
    exact hs

theorem Inv.newReceiver (hs : Inv w) (h : step w .newReceiver = .ok w') : Inv w' := by
  cases h
  -- the new receiver's index is past every index `run` has seen
  have hlen : ∀ j, j < w.receivers.length → j < (w.receivers ++ [Receiver.new]).length :=
    fun j hj => by simp; omega
  refine { hs with
    receivers := hs.receivers.append_singleton (recvInv_new ?_ ?_ ?_)
    range_lt := fun e start visited he j hj => hlen j (hs.range_lt e start visited he j hj)
    finished_lt := fun e start he j hj => hlen j (hs.finished_lt e start he j hj)
    sending := fun e j start visited he =>
      ⟨(hs.sending e j start visited he).1, hlen j (hs.sending e j start visited he).2⟩ }
  · intro e start visited he
    exact ⟨fun hj => Nat.lt_irrefl _ (hs.range_lt e start visited he _ (.inl hj)),
      fun hj => Nat.lt_irrefl _ (hs.range_lt e start visited he _ (.inr hj))⟩
  · intro e start he hj
    exact Nat.lt_irrefl _ (hs.finished_lt e start he _ hj)
  · cases hsend : w.run.sendingTo w.receivers.length
    · rfl
    · obtain ⟨e, start, visited, hrun⟩ := RunPc.sendingTo_eq_true.1 hsend
      exact absurd (hs.sending e _ start visited hrun).2 (Nat.lt_irrefl _)

theorem Inv.receive (hs : Inv w) {k : Nat} (h : step w (.receive k) = .ok w') : Inv w' := by
  simp only [step] at h
  split at h
  · rename_i r hr
    split at h
    · rename_i x c hc
      cases h
      exact hs.setReceiver ((hs.receivers k r hr).receive (BufChan.tryRecv_eq_some.1 hc))
    · cases h
      exact hs
  · cases h
    exact hs

theorem Inv.closeReceiver (hs : Inv w) {k : Nat} (h : step w (.closeReceiver k) = .ok w') :
    Inv w' := by
  simp only [step] at h
  split at h
  · rename_i r hr
    split at h
    · rename_i hidle
      cases h
      exact hs.setReceiver ((hs.receivers k r hr).closeStart hidle)
    · cases h
      exact hs
  · cases h
    exact hs

theorem Inv.closeBarrier (hs : Inv w) {k : Nat} (h : step w (.closeBarrier k) = .ok w') :
    Inv w' := by
  simp only [step] at h
  split at h
  · rename_i r hr
    split at h
    · rename_i hcond
      cases h
      exact hs.setReceiver ((hs.receivers k r hr).passBarrier hcond.1 hcond.2)
    · cases h
      exact hs
  · cases h
    exact hs

theorem Inv.closeChan (hs : Inv w) {k : Nat} (h : step w (.closeChan k) = .ok w') :
    Inv w' := by
  simp only [step] at h
  split at h
  · rename_i r hr
    split at h
    · rename_i hcl
      split at h
      · cases h
      · cases h
        exact hs.setReceiver ((hs.receivers k r hr).closeC hcl)
    · cases h
      exact hs
  · cases h
    exact hs

theorem Inv.deleteReceiver (hs : Inv w) {k : Nat} (h : step w (.deleteReceiver k) = .ok w') :
    Inv w' := by
  simp only [step] at h
  split at h
  · rename_i r hr
    split at h
    · rename_i hd
      cases h
      exact hs.setReceiver ((hs.receivers k r hr).delete hd)
    · cases h
      exact hs
  · cases h
    exact hs

theorem Inv.close (hs : Inv w) (h : step w .close = .ok w') : Inv w' := by
  simp only [step] at h
  split at h
  · cases h
    exact hs
  · split at h
    · cases h
    · cases h
      exact { hs with closeCh := rfl, exited := fun _ => rfl }

/-- The slice queue of a world whose `run` moved to a place of the same kind for it. -/
theorem queue_withRun (hs : Containers.Inv w.toQueue) {ρ : RunPc T}
    (hc : ρ.consumer = w.run.consumer) : Containers.Inv { w with run := ρ }.toQueue := by
  unfold World.toQueue
  rw [hc]
  exact hs

/-- `run` returns, the notifier being closed. -/
theorem Inv.exit (hs : Inv w) (hc : w.closeChClosed = true) : Inv { w with run := .exited } where
  queue := QueueMoves.leave.inv hs.queue
  receivers := hs.receivers.imp fun _ _ _ hr => hr.exit
  closeCh := hs.closeCh
  exited _ := hc
  popped h := absurd rfl h
  range_lt _ _ _ h := by cases h
  finished_lt := hs.finished_lt
  sending _ _ _ _ h := by cases h
  flushers := hs.flushers.imp fun _ _ _ hf => hf.mono (Nat.le_refl _) (fun h => by cases h)

/-- `run` moves between two places outside a range, other than its return, and the queue
moves with it. -/
theorem Inv.idleRun (hs : Inv w) (hρ : w.run.range? = none) (hex : w.run ≠ .exited)
    {ρ : RunPc T} (hρ' : ρ.range? = none) (hex' : ρ ≠ .exited) {q : SliceQueue T}
    (hq : QueueMoves w.toQueue { w with queue := q, run := ρ }.toQueue) :
    Inv { w with queue := q, run := ρ } where
  queue := hq.inv hs.queue
  receivers := hs.receivers.imp fun _ _ _ hr => hr.idle hρ hρ' hex
  closeCh := hs.closeCh
  exited h := absurd h hex'
  popped _ := by
    rw [hs.popped hex]
    simp [RunPc.current, hρ, hρ']
  range_lt _ _ _ h := by
    change ρ.range? = _ at h
    rw [hρ'] at h
    cases h
  finished_lt := hs.finished_lt
  sending _ _ _ _ h := by
    change ρ = _ at h
    rw [h] at hρ'
    cases hρ'
  flushers := hs.flushers.imp fun _ _ _ hf => hf.mono (Nat.le_refl _) (fun h => by
    simp [RunPc.current, hρ'] at h)

theorem Inv.runExit (hs : Inv w) (h : step w .runExit = .ok w') : Inv w' := by
  simp only [step] at h
  split at h
  · split at h
    · rename_i hc
      cases h
      exact hs.exit hc
    · cases h
      exact hs
  · cases h
    exact hs

theorem Inv.runWake (hs : Inv w) (h : step w .runWake = .ok w') : Inv w' := by
  simp only [step] at h
  split at h
  · rename_i c hrun hc
    cases h
    refine hs.idleRun (by rw [hrun]; rfl) (by rw [hrun]; exact fun h => by cases h) rfl (fun h => by cases h)
      (QueueMoves.step .wake (Containers.step_wake ?_ (BufChan.tryRecv_eq_some.1 hc)))
    simp [World.toQueue, hrun, RunPc.consumer]
  · cases h
    exact hs

theorem World.mem_storedIDs {w : World T} {k : Nat} {r : Receiver T}
    (hk : w.receivers[k]? = some r) (hs : r.stored = true) : k ∈ w.storedIDs :=
  List.mem_filter.2 ⟨List.mem_range.2 (List.getElem?_eq_some_iff.1 hk).1, by simp [hk, hs]⟩

theorem World.lt_of_mem_storedIDs {w : World T} {k : Nat} (hk : k ∈ w.storedIDs) :
    k < w.receivers.length :=
  List.mem_range.1 (List.mem_filter.1 hk).1

/-- A range that may end has visited every receiver of its start that is still stored. -/
theorem World.mem_visited_of_rangeDone {w : World T} {start visited : List Nat}
    (hd : w.rangeDone start visited = true) {k : Nat} (hk : k ∈ start) {r : Receiver T}
    (hr : w.receivers[k]? = some r) (hs : r.stored = true) : k ∈ visited := by
  have := List.all_eq_true.1 hd k hk
  simpa [hr, hs] using this

theorem RunPc.current_eq_none_of_atBarrier {ρ : RunPc T} (h : ρ.atBarrier = true) :
    ρ.current = none := by
  cases ρ <;> first | rfl | cases h

/-- The events `run` popped: those of the ranges that ended and the one it ranges for. -/
theorem Inv.popped_of_range (hs : Inv w) {e : Tagged T} {start visited : List Nat}
    (hρ : w.run.range? = some (e, start, visited)) :
    w.popped = w.finished.map Prod.fst ++ [e] := by
  have hne : w.run ≠ .exited := fun h => by rw [h] at hρ; cases hρ
  rw [hs.popped hne]
  simp [RunPc.current, hρ]

/-- `run` pops `e` and begins its range with the stored receivers. -/
theorem Inv.pop (hs : Inv w) (hrun : w.run = .popping) {e : Tagged T} {q : SliceQueue T}
    (hpop : w.queue.pop = .ok (some e, q)) :
    Inv { w with queue := q, run := .ranging e w.storedIDs [], popped := w.popped ++ [e] } where
  queue := (QueueMoves.step .pop (by
    simp [Containers.step, World.toQueue, hrun, RunPc.consumer, hpop])).inv hs.queue
  receivers j r hj := by
    have h := hs.receivers j r hj
    rw [hrun] at h
    exact h.pop fun hst => World.mem_storedIDs hj hst
  closeCh := hs.closeCh
  exited h := by cases h
  popped _ := by
    have := hs.popped (by rw [hrun]; exact fun h => by cases h)
    rw [hrun] at this
    simp [this, RunPc.current, RunPc.range?]
  range_lt e' start visited he j hj := by
    cases he
    rcases hj with hj | hj
    · exact World.lt_of_mem_storedIDs hj
    · cases hj
  finished_lt := hs.finished_lt
  sending _ _ _ _ h := by cases h
  flushers := hs.flushers.imp fun _ _ _ hf => hf.mono (by simp) (fun _ => .inr (by simp))

theorem Inv.runPop (hs : Inv w) (h : step w .runPop = .ok w') : Inv w' := by
  simp only [step] at h
  split at h
  · rename_i hrun
    split at h
    · cases h
    · rename_i q hpop
      cases h
      refine hs.idleRun (by rw [hrun]; rfl) (by rw [hrun]; exact fun h => by cases h) rfl (fun h => by cases h)
        (QueueMoves.step .pop ?_)
      simp [Containers.step, World.toQueue, hrun, RunPc.consumer, hpop]
    · rename_i e q hpop
      cases h
      exact hs.pop hrun hpop
  · cases h
    exact hs

/-- The range skips receiver `k`, whose `closed` is set. -/
theorem Inv.visitClosed (hs : Inv w) {e : Tagged T} {start visited : List Nat}
    (hrun : w.run = .ranging e start visited) {k : Nat} {r : Receiver T}
    (hr : w.receivers[k]? = some r) (hc : r.closed = true) :
    Inv { w with run := .ranging e start (visited ++ [k]) } where
  queue := queue_withRun hs.queue (by rw [hrun]; rfl)
  receivers j r' hj := by
    have h := hs.receivers j r' hj
    rw [hrun] at h
    by_cases hjk : j = k
    · subst hjk
      rw [hr] at hj
      cases hj
      exact h.visit_closed hc
    · exact h.visit_other rfl rfl (fun h => by cases h) (fun h => hjk h.symm) (fun h => by cases h)
  closeCh := hs.closeCh
  exited h := by cases h
  popped _ := by
    rw [hs.popped_of_range (by rw [hrun]; rfl)]
    rfl
  range_lt e' start' visited' he j hj := by
    cases he
    have hρ : w.run.range? = some (e, start, visited) := by rw [hrun]; rfl
    rcases hj with hj | hj
    · exact hs.range_lt e start visited hρ j (.inl hj)
    · rcases List.mem_append.1 hj with hj | hj
      · exact hs.range_lt e start visited hρ j (.inr hj)
      · rw [List.mem_singleton.1 hj]
        exact (List.getElem?_eq_some_iff.1 hr).1
  finished_lt := hs.finished_lt
  sending _ _ _ _ h := by cases h
  flushers := hs.flushers.imp fun _ _ _ hf =>
    hf.mono (Nat.le_refl _) (fun _ => .inl (by rw [hrun]; rfl))

/-- The range enters the callback for receiver `k`, whose `closed` is clear. -/
theorem Inv.visitOpen (hs : Inv w) {e : Tagged T} {start visited : List Nat}
    (hrun : w.run = .ranging e start visited) {k : Nat} {r : Receiver T}
    (hr : w.receivers[k]? = some r) (hk : k ∉ visited) (hc : r.closed = false) :
    Inv { w with run := .sending e k start visited } where
  queue := queue_withRun hs.queue (by rw [hrun]; rfl)
  receivers j r' hj := by
    have h := hs.receivers j r' hj
    rw [hrun] at h
    refine h.of_view (fun hsend => ?_) (fun _ => ⟨(fun h => by cases h), rfl⟩)
      (fun e' start' visited' he => ⟨visited', he, Iff.rfl⟩)
    have hkj : k = j := by simpa [RunPc.sendingTo] using hsend
    subst hkj
    rw [hr] at hj
    cases hj
    exact .inr hc
  closeCh := hs.closeCh
  exited h := by cases h
  popped _ := by
    rw [hs.popped_of_range (by rw [hrun]; rfl)]
    rfl
  range_lt e' start' visited' he := hs.range_lt e' start' visited' (by rw [hrun]; exact he)
  finished_lt := hs.finished_lt
  sending e' k' start' visited' h := by
    cases h
    exact ⟨hk, (List.getElem?_eq_some_iff.1 hr).1⟩
  flushers := hs.flushers.imp fun _ _ _ hf =>
    hf.mono (Nat.le_refl _) (fun _ => .inl (by rw [hrun]; rfl))

theorem Inv.runVisit (hs : Inv w) {k : Nat} (h : step w (.runVisit k) = .ok w') : Inv w' := by
  simp only [step] at h
  split at h
  · rename_i e start visited hrun
    split at h
    · rename_i r hr
      split at h
      · rename_i hcond
        split at h
        · rename_i hc
          cases h
          exact hs.visitClosed hrun hr hc
        · rename_i hc
          cases h
          exact hs.visitOpen hrun hr hcond.2 (by simpa using hc)
      · cases h
        exact hs
    · cases h
      exact hs
  · cases h
    exact hs

/-- The callback sends `e` on the channel of receiver `k`. -/
theorem Inv.send (hs : Inv w) {e : Tagged T} {k : Nat} {start visited : List Nat}
    (hrun : w.run = .sending e k start visited) {r : Receiver T}
    (hr : w.receivers[k]? = some r) {c : BufChan (Tagged T) receiverChanSize}
    (hc : r.c.trySend e = some c) :
    Inv { w.setReceiver k { r with c, sent := r.sent ++ [e] } with
      run := .ranging e start (visited ++ [k]) } where
  queue := queue_withRun hs.queue (by rw [hrun]; rfl)
  receivers j r' hj := by
    have hρ : w.run.range? = some (e, start, visited) := by rw [hrun]; rfl
    rcases Slots.getElem?_set_eq_some.1 hj with ⟨rfl, -, rfl⟩ | ⟨hjk, hj⟩
    · have h := hs.receivers j r hr
      rw [hrun] at h
      have hP : w.popped = w.popped.dropLast ++ [e] := by
        rw [hs.popped_of_range hρ]
        simp
      exact h.send (hs.sending e j start visited hrun).1 hP (BufChan.trySend_eq_some.1 hc).2
    · have h := hs.receivers j r' hj
      rw [hrun] at h
      exact h.visit_other rfl rfl (fun h => by cases h) (fun h => hjk h.symm) (fun h => by cases h)
  closeCh := hs.closeCh
  exited h := by cases h
  popped _ := by
    show w.popped = w.finished.map Prod.fst ++ [e]
    exact hs.popped_of_range (by rw [hrun]; rfl)
  range_lt e' start' visited' he j hj := by
    cases he
    have hρ : w.run.range? = some (e, start, visited) := by rw [hrun]; rfl
    simp only [World.setReceiver, List.length_set]
    rcases hj with hj | hj
    · exact hs.range_lt e start visited hρ j (.inl hj)
    · rcases List.mem_append.1 hj with hj | hj
      · exact hs.range_lt e start visited hρ j (.inr hj)
      · rw [List.mem_singleton.1 hj]
        exact (hs.sending e k start visited hrun).2
  finished_lt e' start' he j hj := by
    simpa [World.setReceiver] using hs.finished_lt e' start' he j hj
  sending _ _ _ _ h := by cases h
  flushers := hs.flushers.imp fun _ _ _ hf =>
    hf.mono (Nat.le_refl _) (fun _ => .inl (by rw [hrun]; rfl))

theorem Inv.runSend (hs : Inv w) (h : step w .runSend = .ok w') : Inv w' := by
  simp only [step] at h
  split at h
  · rename_i e k start visited hrun
    split at h
    · rename_i r hr
      split at h
      · cases h
      · split at h
        · rename_i c hc
          cases h
          exact hs.send hrun hr hc
        · cases h
          exact hs
    · cases h
      exact hs
  · cases h
    exact hs

theorem Inv.runAbort (hs : Inv w) (h : step w .runAbort = .ok w') : Inv w' := by
  simp only [step] at h
  split at h
  · split at h
    · rename_i hc
      cases h
      exact hs.exit hc
    · cases h
      exact hs
  · cases h
    exact hs

/-- A range ends: `run` goes on popping, or returns if the notifier is closed. -/
theorem Inv.endRange (hs : Inv w) {e : Tagged T} {start visited : List Nat}
    (hrun : w.run = .ranging e start visited) (hdone : w.rangeDone start visited = true) :
    Inv { w with run := if w.closeChClosed then .exited else .popping,
                 finished := w.finished ++ [(e, start)] } := by
  have hρ : w.run.range? = some (e, start, visited) := by rw [hrun]; rfl
  have hρ' : (if w.closeChClosed then .exited else .popping : RunPc T).range? = none := by
    split <;> rfl
  exact {
    queue := queue_withRun hs.queue (by rw [hrun]; split <;> rfl)
    receivers := fun j r hj => by
      have h := hs.receivers j r hj
      rw [hrun] at h
      exact h.endRange hρ' fun hc hk =>
        World.mem_visited_of_rangeDone hdone hk hj (h.stored_of_open hc)
    closeCh := hs.closeCh
    exited := fun h => by
      by_cases hc : w.closeChClosed = true
      · exact hc
      · simp [hc] at h
    popped := fun _ => by
      rw [hs.popped_of_range hρ]
      simp [RunPc.current, hρ']
    range_lt := fun _ _ _ h => by
      change (if w.closeChClosed then .exited else .popping : RunPc T).range? = _ at h
      rw [hρ'] at h
      cases h
    finished_lt := fun e' start' he j hj => by
      rcases List.mem_append.1 he with he | he
      · exact hs.finished_lt e' start' he j hj
      · obtain ⟨rfl, rfl⟩ := Prod.mk.inj (List.mem_singleton.1 he)
        exact hs.range_lt e' start' visited hρ j (.inl hj)
    sending := fun _ _ _ _ h => by
      change (if w.closeChClosed then .exited else .popping : RunPc T) = _ at h
      split at h <;> cases h
    flushers := hs.flushers.imp fun _ _ _ hf => hf.mono (Nat.le_refl _) (fun h => by
      simp [RunPc.current, hρ'] at h) }

theorem Inv.runEndRange (hs : Inv w) (h : step w .runEndRange = .ok w') : Inv w' := by
  simp only [step] at h
  split at h
  · rename_i e start visited hrun
    split at h
    · rename_i hdone
      cases h
      exact hs.endRange hrun hdone
    · cases h
      exact hs
  · cases h
    exact hs

/-- A step of one caller of `Flush`. -/
theorem Inv.setFlusher (hs : Inv w) {f : Nat} {pc : FlushPc}
    (hpc : FlushInv w.run w.popped pc) : Inv { w with flushers := w.flushers.set f pc } :=
  { hs with flushers := hs.flushers.set fun _ => hpc }

theorem Inv.flush (hs : Inv w) {f : Nat} (h : step w (.flush f) = .ok w') : Inv w' := by
  simp only [step] at h
  split at h
  · cases h
    exact hs.setFlusher (Nat.le_refl _)
  · cases h
    exact hs

theorem Inv.flushBarrier (hs : Inv w) {f : Nat} (h : step w (.flushBarrier f) = .ok w') :
    Inv w' := by
  simp only [step] at h
  split at h
  · rename_i start hf
    split at h
    · rename_i hb
      cases h
      refine hs.setFlusher ⟨hs.flushers f _ hf, fun hc => ?_⟩
      rw [RunPc.current_eq_none_of_atBarrier hb] at hc
      cases hc
    · cases h
      exact hs
  · cases h
    exact hs

theorem Inv.flushCheck (hs : Inv w) {f : Nat} (h : step w (.flushCheck f) = .ok w') :
    Inv w' := by
  simp only [step] at h
  split at h
  · rename_i start hf
    cases h
    refine hs.setFlusher ?_
    split
    · trivial
    · exact (hs.flushers f _ hf).1
  · cases h
    exact hs

theorem Inv.flushCancel (hs : Inv w) {f : Nat} (h : step w (.flushCancel f) = .ok w') :
    Inv w' := by
  simp only [step] at h
  split at h
  · cases h
    exact hs.setFlusher trivial
  · cases h
    exact hs

theorem Inv.of_step (hs : Inv w) {a : Action T} (h : step w a = .ok w') : Inv w' := by
  cases a with
  | notify i x => exact hs.notify h
  | notifySignal i => exact hs.notifySignal h
  | newReceiver => exact hs.newReceiver h
  | receive k => exact hs.receive h
  | closeReceiver k => exact hs.closeReceiver h
  | closeBarrier k => exact hs.closeBarrier h
  | closeChan k => exact hs.closeChan h
  | deleteReceiver k => exact hs.deleteReceiver h
  | close => exact hs.close h
  | runExit => exact hs.runExit h
  | runWake => exact hs.runWake h
  | runPop => exact hs.runPop h
  | runVisit k => exact hs.runVisit h
  | runSend => exact hs.runSend h
  | runAbort => exact hs.runAbort h
  | runEndRange => exact hs.runEndRange h
  | flush f => exact hs.flush h
  | flushBarrier f => exact hs.flushBarrier h
  | flushCheck f => exact hs.flushCheck h
  | flushCancel f => exact hs.flushCancel h

theorem inv_of_reachable {n m : Nat} (h : Reachable n m w) : Inv w :=
  Transition.Reachable.inv (inv_init n m) (fun _ _ _ hs _ hstep => hs.of_step hstep) h

/-! ## No panic -/

/-- Under the invariant no step panics: the callback of `run` sends on `C` only before the
barrier of the receiver's `Close`, so before `close(r.C)`; `closeOnce` closes each `C` once;
`Close` of the notifier closes `closeCh` under the swap of `closed`; and `Pop` never panics. -/
theorem Inv.step_ne_error (hs : Inv w) (a : Action T) (p : Panic) : step w a ≠ .error p := by
  intro h
  cases a with
  | closeChan k =>
      simp only [step] at h
      split at h
      · rename_i r hr
        split at h
        · rename_i hcl
          split at h
          · rename_i hc
            rw [(hs.receivers k r hr).cClosed_eq_false_of_closingC hcl] at hc
            cases hc
          · cases h
        · cases h
      · cases h
  | close =>
      simp only [step] at h
      split at h
      · cases h
      · rename_i hcl
        split at h
        · rename_i hcc
          exact hcl (hs.closeCh ▸ hcc)
        · cases h
  | runPop =>
      simp only [step] at h
      split at h
      · split at h
        · rename_i p' hpop
          exact Containers.SliceQueue.pop_ne_error _ _ hpop
        · cases h
        · cases h
      · cases h
  | runSend =>
      simp only [step] at h
      split at h
      · rename_i e k start visited hrun
        split at h
        · rename_i r hr
          split at h
          · rename_i hc
            have hk := hs.receivers k r hr
            rw [hrun] at hk
            rw [hk.cClosed_eq_false_of_sendingTo (by simp [RunPc.sendingTo])] at hc
            cases hc
          · split at h <;> cases h
        · cases h
      · cases h
  | _ =>
      -- the other steps have no error arm
      simp only [step] at h
      repeat' split at h
      all_goals cases h

/-! ## What a step does to a closed receiver -/

/-- From `w` to `w'`: a receiver `k` whose `Close` has passed the barrier, or whose `run` has
returned, stays so, and the events sent to it stay the same. -/
def SentKept (k : Nat) (w w' : World T) : Prop :=
  ∀ r, w.receivers[k]? = some r → r.once.pastBarrier = true ∨ w.run = .exited →
    ∃ r', w'.receivers[k]? = some r' ∧ r'.sent = r.sent ∧
      (r'.once.pastBarrier = true ∨ w'.run = .exited)

variable {k : Nat}

theorem SentKept.refl : SentKept k w w :=
  fun r hr hp => ⟨r, hr, rfl, hp⟩

theorem SentKept.trans {w'' : World T} (h : SentKept k w w') (h' : SentKept k w' w'') :
    SentKept k w w'' := by
  intro r hr hp
  obtain ⟨r', hr', hsent, hp'⟩ := h r hr hp
  obtain ⟨r'', hr'', hsent', hp''⟩ := h' r' hr' hp'
  exact ⟨r'', hr'', hsent'.trans hsent, hp''⟩

/-- A step that leaves the receivers as they are, and `run` returned if it was. -/
theorem sentKept_of_receivers (hrec : w'.receivers = w.receivers)
    (hrun : w.run = .exited → w'.run = .exited) : SentKept k w w' :=
  fun r hr hp => ⟨r, hrec ▸ hr, rfl, hp.imp id hrun⟩

/-- A step of the goroutines of receiver `j`, which sends nothing and does not undo the
barrier. -/
theorem sentKept_setReceiver {j : Nat} {r₀ r₁ : Receiver T} (hj : w.receivers[j]? = some r₀)
    (hsent : r₁.sent = r₀.sent)
    (hpast : r₀.once.pastBarrier = true → r₁.once.pastBarrier = true) :
    SentKept k w (w.setReceiver j r₁) := by
  intro r hr hp
  by_cases hjk : j = k
  · subst hjk
    rw [hj] at hr
    cases hr
    refine ⟨r₁, ?_, hsent, hp.imp hpast id⟩
    simp [World.setReceiver, (List.getElem?_eq_some_iff.1 hj).1]
  · exact ⟨r, by simp [World.setReceiver, hjk, hr], rfl, hp⟩

theorem sentKept_newReceiver :
    SentKept k w { w with receivers := w.receivers ++ [Receiver.new] } := by
  intro r hr hp
  refine ⟨r, ?_, rfl, hp⟩
  rw [List.getElem?_append_left (List.getElem?_eq_some_iff.1 hr).1]
  exact hr

/-- The send of `run` goes to a receiver whose `Close` has not passed the barrier. -/
theorem Inv.sentKept_send (hs : Inv w) {e : Tagged T} {j : Nat} {start visited : List Nat}
    (hrun : w.run = .sending e j start visited) {r₀ : Receiver T}
    (hj : w.receivers[j]? = some r₀) {c : BufChan (Tagged T) receiverChanSize} :
    SentKept k w { w.setReceiver j { r₀ with c, sent := r₀.sent ++ [e] } with
      run := .ranging e start (visited ++ [j]) } := by
  intro r hr hp
  have hpast : r.once.pastBarrier = true := hp.resolve_right (by rw [hrun]; exact fun h => by cases h)
  by_cases hjk : j = k
  · subst hjk
    rw [hj] at hr
    cases hr
    have hbar := (hs.receivers j _ hj).barrier hpast
    rw [hrun] at hbar
    simp [RunPc.sendingTo] at hbar
  · exact ⟨r, by simp [World.setReceiver, hjk, hr], rfl, .inl hpast⟩

/-- Every step keeps `SentKept`: only the callback of `run` sends, and never past the barrier
of the receiver's `Close`; no step undoes the barrier, and `run` does not come back. -/
theorem Inv.sentKept (hs : Inv w) {a : Action T} (h : step w a = .ok w') (k : Nat) :
    SentKept k w w' := by
  -- `run` was not returned, for the steps of `run` that move it
  have away : ∀ {ρ ρ' : RunPc T}, w.run = ρ → ρ ≠ .exited → w.run = .exited → ρ' = .exited :=
    fun hrun hne he => absurd (hrun ▸ he) hne
  cases a with
  | notify i x =>
      simp only [step] at h
      split at h
      · simp only [Containers.SliceQueue.push] at h
        cases h
        exact sentKept_of_receivers rfl id
      · cases h; exact .refl
  | notifySignal i =>
      simp only [step] at h
      split at h
      · cases h; exact sentKept_of_receivers rfl id
      · cases h; exact .refl
  | newReceiver =>
      cases h
      exact sentKept_newReceiver
  | receive j =>
      simp only [step] at h
      split at h
      · rename_i r hr
        split at h
        · cases h; exact sentKept_setReceiver hr rfl id
        · cases h; exact .refl
      · cases h; exact .refl
  | closeReceiver j =>
      simp only [step] at h
      split at h
      · rename_i r hr
        split at h
        · rename_i hidle
          cases h
          exact sentKept_setReceiver hr rfl (fun hp => by rw [hidle] at hp; cases hp)
        · cases h; exact .refl
      · cases h; exact .refl
  | closeBarrier j =>
      simp only [step] at h
      split at h
      · rename_i r hr
        split at h
        · cases h; exact sentKept_setReceiver hr rfl (fun _ => rfl)
        · cases h; exact .refl
      · cases h; exact .refl
  | closeChan j =>
      simp only [step] at h
      split at h
      · rename_i r hr
        split at h
        · split at h
          · cases h
          · cases h; exact sentKept_setReceiver hr rfl (fun _ => rfl)
        · cases h; exact .refl
      · cases h; exact .refl
  | deleteReceiver j =>
      simp only [step] at h
      split at h
      · rename_i r hr
        split at h
        · cases h; exact sentKept_setReceiver hr rfl (fun _ => rfl)
        · cases h; exact .refl
      · cases h; exact .refl
  | close =>
      simp only [step] at h
      split at h
      · cases h; exact .refl
      · split at h
        · cases h
        · cases h; exact sentKept_of_receivers rfl id
  | runExit =>
      simp only [step] at h
      split at h
      · split at h
        · cases h; exact sentKept_of_receivers rfl (fun _ => rfl)
        · cases h; exact .refl
      · cases h; exact .refl
  | runWake =>
      simp only [step] at h
      split at h
      · rename_i hrun _
        cases h
        exact sentKept_of_receivers rfl (away hrun (fun h => by cases h))
      · cases h; exact .refl
  | runPop =>
      simp only [step] at h
      split at h
      · rename_i hrun
        split at h
        · cases h
        · cases h; exact sentKept_of_receivers rfl (away hrun (fun h => by cases h))
        · cases h; exact sentKept_of_receivers rfl (away hrun (fun h => by cases h))
      · cases h; exact .refl
  | runVisit j =>
      simp only [step] at h
      split at h
      · rename_i hrun
        split at h
        · split at h
          · split at h
            · cases h; exact sentKept_of_receivers rfl (away hrun (fun h => by cases h))
            · cases h; exact sentKept_of_receivers rfl (away hrun (fun h => by cases h))
          · cases h; exact .refl
        · cases h; exact .refl
      · cases h; exact .refl
  | runSend =>
      simp only [step] at h
      split at h
      · rename_i hrun
        split at h
        · rename_i r hr
          split at h
          · cases h
          · split at h
            · cases h; exact hs.sentKept_send hrun hr
            · cases h; exact .refl
        · cases h; exact .refl
      · cases h; exact .refl
  | runAbort =>
      simp only [step] at h
      split at h
      · split at h
        · cases h; exact sentKept_of_receivers rfl (fun _ => rfl)
        · cases h; exact .refl
      · cases h; exact .refl
  | runEndRange =>
      simp only [step] at h
      split at h
      · rename_i hrun
        split at h
        · cases h; exact sentKept_of_receivers rfl (away hrun (fun h => by cases h))
        · cases h; exact .refl
      · cases h; exact .refl
  | flush f =>
      simp only [step] at h
      split at h
      · cases h; exact sentKept_of_receivers rfl id
      · cases h; exact .refl
  | flushBarrier f =>
      simp only [step] at h
      split at h
      · split at h
        · cases h; exact sentKept_of_receivers rfl id
        · cases h; exact .refl
      · cases h; exact .refl
  | flushCheck f =>
      simp only [step] at h
      split at h
      · cases h; exact sentKept_of_receivers rfl id
      · cases h; exact .refl
  | flushCancel f =>
      simp only [step] at h
      split at h
      · cases h; exact sentKept_of_receivers rfl id
      · cases h; exact .refl

end Step

/-! ## What the notifier guarantees -/

section Guarantees

variable {n m : Nat} {w : World T}

/-! ### Two runs -/

/-- The receiver after one event: sent `⟨0, 0, 5⟩`, and it read it. -/
def broadcastReceiver : Receiver Nat :=
  { Receiver.new with sent := [⟨0, 0, 5⟩], received := [⟨0, 0, 5⟩] }

/-- One receiver; `5` notified, popped, sent and read; `run` back at the top, and a `Flush`
called after the pop, past the barrier. -/
def afterBroadcast : World Nat :=
  ⟨⟨[], .empty⟩, [.idle], [broadcastReceiver], false, false, .top, [.checking 1],
    [⟨0, 0, 5⟩], [⟨0, 0, 5⟩], [(⟨0, 0, 5⟩, [0])]⟩

/-- The steps to `afterBroadcast`. -/
def broadcastTrace : List (Action Nat) :=
  [.newReceiver, .notify 0 5, .notifySignal 0, .runWake, .runPop, .runVisit 0, .runSend,
    .runEndRange, .runPop, .receive 0, .flush 0, .flushBarrier 0]

theorem reachable_afterBroadcast : Reachable 1 1 afterBroadcast :=
  Transition.reachable_run .init (by decide)
    (show Transition.run step (init 1 1) broadcastTrace = .ok afterBroadcast by decide)

/-- A receiver whose `Close` has passed the barrier. -/
def closingReceiver : Receiver Nat :=
  { Receiver.new with closed := true, once := .closingC }

/-- One receiver, whose `Close` has passed the barrier; nothing notified yet. -/
def afterCloseBarrier : World Nat :=
  ⟨⟨[], .empty⟩, [.idle], [closingReceiver], false, false, .top, [], [], [], []⟩

theorem reachable_afterCloseBarrier : Reachable 1 0 afterCloseBarrier :=
  Transition.reachable_run .init (by decide)
    (show Transition.run step (init 1 0) [.newReceiver, .closeReceiver 0, .closeBarrier 0] =
      .ok afterCloseBarrier by decide)

/-- Then `5` is notified and popped, and its range passes the closed receiver by. -/
def skipTrace : List (Action Nat) :=
  [.notify 0 5, .notifySignal 0, .runWake, .runPop, .runVisit 0, .runEndRange]

def afterSkip : World Nat :=
  ⟨⟨[], .empty⟩, [.idle], [closingReceiver], false, false, .popping, [], [⟨0, 0, 5⟩],
    [⟨0, 0, 5⟩], [(⟨0, 0, 5⟩, [0])]⟩

/-- No run of the notifier panics: `run` never sends on a closed `C`, no `C` and no `closeCh`
is closed twice, and the slice queue does not panic. -/
theorem notifier_never_panics (n m : Nat) :
    ¬ Transition.PanicReachable step (fun _ _ => true) (init n m : World T) (fun _ => True) :=
  Transition.not_panicReachable (fun _ h => inv_of_reachable h)
    fun _ a p hs _ he _ => hs.step_ne_error a p he

/-- Each receiver reads a prefix of what was sent on its channel, and what was sent is a run of
consecutive events of the stream, each once, in the order they were notified. -/
theorem receiver_gets_consecutive_events (h : Reachable n m w) {k : Nat} {r : Receiver T}
    (hk : w.receivers[k]? = some r) :
    r.received <+: r.sent ∧ r.sent <:+: w.notified ∧ r.sent.Nodup := by
  have hs := inv_of_reachable h
  have hr := hs.receivers k r hk
  -- the queue's order: what was notified is what was popped, then what is queued
  have hpop : w.popped <+: w.notified := by
    rw [show w.notified = w.popped ++ w.queue.elems from hs.queue.fifo]
    exact List.prefix_append _ _
  have hsent : r.sent <:+: w.notified := hr.consecutive.trans hpop.isInfix
  refine ⟨?_, hsent, hsent.sublist.nodup hs.queue.nodup⟩
  rw [hr.chan]
  exact List.prefix_append _ _

theorem receiver_gets_consecutive_events_after_broadcast :
    afterBroadcast.receivers[0]? = some broadcastReceiver ∧
      broadcastReceiver.received <+: broadcastReceiver.sent ∧
      broadcastReceiver.sent <:+: afterBroadcast.notified ∧ broadcastReceiver.sent.Nodup :=
  ⟨by decide, receiver_gets_consecutive_events reachable_afterBroadcast
    (by decide : afterBroadcast.receivers[0]? = some broadcastReceiver)⟩

/-- An event whose range ended was sent to every receiver that was stored when `run` popped it
and has not been closed since: it was read or is in the receiver's channel. -/
theorem finished_event_reaches_open_receivers (h : Reachable n m w) {e : Tagged T}
    {start : List Nat} (hf : (e, start) ∈ w.finished) {k : Nat} (hk : k ∈ start)
    {r : Receiver T} (hr : w.receivers[k]? = some r) (hc : r.closed = false) :
    e ∈ r.received ++ r.c.items := by
  have hrk := (inv_of_reachable h).receivers k r hr
  rw [← hrk.chan]
  exact hrk.reached e start hf hk hc

theorem finished_event_reaches_open_receivers_after_broadcast :
    ((⟨0, 0, 5⟩, [0]) ∈ afterBroadcast.finished ∧ broadcastReceiver.closed = false) ∧
      ⟨0, 0, 5⟩ ∈ broadcastReceiver.received ++ broadcastReceiver.c.items :=
  ⟨⟨by decide, rfl⟩, finished_event_reaches_open_receivers reachable_afterBroadcast
    (by decide : (⟨0, 0, 5⟩, [0]) ∈ afterBroadcast.finished) (List.mem_singleton_self 0)
    (by decide : afterBroadcast.receivers[0]? = some broadcastReceiver) rfl⟩

/-- Once the `Close` of a receiver has passed the barrier, or `run` has returned, no event is
sent to it in the rest of the run. -/
theorem sent_frozen_after_close {w' : World T} (h : Reachable n m w) {as : List (Action T)}
    (hrun : Transition.run step w as = .ok w') {k : Nat} {r : Receiver T}
    (hr : w.receivers[k]? = some r) (hpast : r.once.pastBarrier = true ∨ w.run = .exited) :
    ∃ r', w'.receivers[k]? = some r' ∧ r'.sent = r.sent := by
  -- the invariant and `SentKept` go along the run together
  have hrel : Inv w → Inv w' ∧ SentKept k w w' :=
    Transition.run_rel (R := fun s t => Inv s → Inv t ∧ SentKept k s t)
      (fun _ hs => ⟨hs, .refl⟩)
      (fun _ _ _ hst htu hs =>
        ⟨(htu (hst hs).1).1, (hst hs).2.trans (htu (hst hs).1).2⟩)
      (fun _ _ _ hstep hs => ⟨hs.of_step hstep, hs.sentKept hstep k⟩) hrun
  obtain ⟨r', hr', hsent, -⟩ := (hrel (inv_of_reachable h)).2 r hr hpast
  exact ⟨r', hr', hsent⟩

theorem sent_frozen_after_close_barrier :
    closingReceiver.once.pastBarrier = true ∧
      ∃ r', afterSkip.receivers[0]? = some r' ∧ r'.sent = closingReceiver.sent :=
  ⟨rfl, sent_frozen_after_close reachable_afterCloseBarrier
    (show Transition.run step afterCloseBarrier skipTrace = .ok afterSkip by decide)
    (by decide : afterCloseBarrier.receivers[0]? = some closingReceiver) (.inl rfl)⟩

/-- When `Flush` returns `nil` on a notifier that is not closed, at the check of an empty
queue, every notified event has been popped, and the events popped before `Flush` was called
have finished their range, in order. -/
theorem flush_returns_after_broadcast (h : Reachable n m w) {f start : Nat}
    (hf : w.flushers[f]? = some (.checking start)) (hempty : w.queue.size = 0)
    (hopen : w.closed = false) :
    w.popped = w.notified ∧ w.popped.take start <+: w.finished.map Prod.fst := by
  have hs := inv_of_reachable h
  have hne : w.run ≠ .exited := fun he => by
    have := hs.exited he
    rw [hs.closeCh, hopen] at this
    cases this
  have helems : w.queue.elems = [] := List.eq_nil_of_length_eq_zero hempty
  refine ⟨by rw [show w.notified = w.popped ++ w.queue.elems from hs.queue.fifo, helems,
    List.append_nil], ?_⟩
  have hfl : FlushInv w.run w.popped (.checking start) := hs.flushers f _ hf
  rw [hs.popped hne] at hfl ⊢
  -- the event `run` ranges for, if any, was popped after the call
  cases hcur : w.run.current with
  | none =>
      simp only [Option.toList_none, List.append_nil]
      exact List.take_prefix _ _
  | some e =>
      rw [hcur] at hfl
      have hle : start ≤ (w.finished.map Prod.fst).length := by
        have := hfl.2 (by rw [hcur]; rfl)
        simp only [Option.toList_some, List.length_append, List.length_singleton] at this
        omega
      simp only [Option.toList_some]
      rw [List.take_append_of_le_length hle]
      exact List.take_prefix _ _

theorem flush_returns_after_one_broadcast :
    (afterBroadcast.flushers[0]? = some (.checking 1) ∧ afterBroadcast.queue.size = 0) ∧
      afterBroadcast.popped = afterBroadcast.notified ∧
      afterBroadcast.popped.take 1 <+: afterBroadcast.finished.map Prod.fst :=
  ⟨⟨rfl, rfl⟩, flush_returns_after_broadcast reachable_afterBroadcast
    (rfl : afterBroadcast.flushers[0]? = some (.checking 1)) rfl rfl⟩

end Guarantees

end Notifier

end Microcosm
