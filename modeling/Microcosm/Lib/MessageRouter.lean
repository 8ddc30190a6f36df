import Microcosm.Library.BufChan
import Microcosm.Library.Transition
import Microcosm.Lib.Model.Topic

/-!
# The message router of a worker

`lib/message_router.go`. `AppendMessage` puts a message into a channel of `bufferSize`
messages; when the channel is full it takes the oldest message out, drops it, and tries
again. `Tick` takes one message out, when there is one, and hands it to the worker pool,
which calls `routeFn` on it.

The model has one producer, whose `AppendMessage` loop is three steps (the call, the send,
the receive that drops), and one consumer, whose `Tick` is one step, in any interleaving. The
pool has one worker and runs what `Tick` hands it in that order, so the ghost list of routed
messages is the order of the `routeFn` calls. Each message carries, as a ghost, the index of
its `AppendMessage` call. A cancelled context, which makes `Tick` return before it receives
or `pool.Go` fail, is left out.

In every run each appended message is in exactly one place: routed, dropped, in the channel
or in the producer's hands (`routed_or_dropped_once`), the routed ones in the order they were
appended (`routed_sublist`). Once the producer is idle, `Tick`s route all that is in the
channel (`ticks_route_buffered`). A message is not kept for `bufferSize` later appends,
however: between the failed send and the receive that drops, the consumer may empty the
channel down to one message, and the producer drops it (`message_dropped_with_room`). What
holds is that a dropped message has a later one (`dropped_has_later`).
-/

namespace Microcosm

namespace Lib

/-- `defaultMessageRouterBufferSize`. -/
def defaultMessageRouterBufferSize : Nat := 4

/-- `messageWrapper`. -/
structure MessageWrapper (α : Type) where
  topic : Topic
  msg : α
  deriving DecidableEq, Repr

namespace MessageRouter

/-- A message with the index of the `AppendMessage` call that made it. -/
abbrev Tagged (α : Type) := MessageWrapper α × Nat

/-- Where the producer is in `AppendMessage`. -/
inductive Producer (α : Type)
  /-- Not in `AppendMessage`. -/
  | idle
  /-- At the top of the loop, before the send. -/
  | sending (m : Tagged α)
  /-- The send found the channel full; before the receive that drops. -/
  | dropping (m : Tagged α)
  deriving DecidableEq, Repr

/-- The message the producer holds. -/
def Producer.inHand {α : Type} : Producer α → List (Tagged α)
  | .idle => []
  | .sending m | .dropping m => [m]

/-- The router's channel and the producer, with as ghosts the messages appended, routed and
dropped. -/
structure World (α : Type) (bufferSize : Nat) where
  buffer : BufChan (Tagged α) bufferSize
  producer : Producer α
  appended : List (MessageWrapper α)
  routed : List (Tagged α)
  dropped : List (Tagged α)
  deriving DecidableEq

/-- The steps of the producer and the consumer. -/
inductive Action (α : Type)
  /-- `AppendMessage(topic, msg)` is called. -/
  | appendMessage (topic : Topic) (msg : α)
  /-- The send of the loop in `AppendMessage`. -/
  | send
  /-- The receive of the loop in `AppendMessage`, which drops what it takes. -/
  | drop
  /-- `Tick`. -/
  | tick
  deriving DecidableEq, Repr

variable {α : Type} {bufferSize : Nat}

/-- The router as `NewMessageRouter` returns it. -/
def init : World α bufferSize :=
  ⟨.empty, .idle, [], [], []⟩

/-- `routeMessage`: the message goes to the pool, which calls `routeFn` on it in turn. -/
def World.routeMessage (w : World α bufferSize) (m : Tagged α) : World α bufferSize :=
  { w with routed := w.routed ++ [m] }

/-- One step. A step of `AppendMessage` that is not where the producer is changes nothing. -/
def step (w : World α bufferSize) : Action α → Except Empty (World α bufferSize)
  | .appendMessage topic msg =>
      match w.producer with
      | .idle =>
          .ok { w with producer := .sending (⟨topic, msg⟩, w.appended.length),
                       appended := w.appended ++ [⟨topic, msg⟩] }
      | _ => .ok w
  | .send =>
      match w.producer with
      | .sending m =>
          match w.buffer.trySend m with
          | some c => .ok { w with buffer := c, producer := .idle }
          | none => .ok { w with producer := .dropping m }
      | _ => .ok w
  | .drop =>
      match w.producer with
      | .dropping m =>
          match w.buffer.tryRecv with
          | some (d, c) => .ok { w with buffer := c, producer := .sending m,
                                        dropped := w.dropped ++ [d] }
          | none => .ok { w with producer := .sending m }
      | _ => .ok w
  | .tick =>
      match w.buffer.tryRecv with
      | some (m, c) => .ok ({ w with buffer := c }.routeMessage m)
      | none => .ok w

/-- The runs from `NewMessageRouter`. -/
def Reachable (α : Type) (bufferSize : Nat) : World α bufferSize → Prop :=
  Transition.Reachable step (fun _ _ => true) init

/-! ## Every message is in one place -/

/-- A list taken in order from an indexed list has strictly increasing indices. -/
theorem pairwise_index_lt {β : Type} {l : List (β × Nat)} {xs : List β}
    (h : l.Sublist xs.zipIdx) : l.Pairwise (fun p q => p.2 < q.2) := by
  have hidx : (xs.zipIdx.map Prod.snd).Pairwise (· < ·) := by
    rw [List.zipIdx_map_snd]
    exact List.pairwise_lt_range' 1
  exact (List.pairwise_map.1 hidx).sublist h

theorem zipIdx_append_singleton {β : Type} (xs : List β) (x : β) :
    (xs ++ [x]).zipIdx = xs.zipIdx ++ [(x, xs.length)] := by
  simp [List.zipIdx_append]

/-- In every run: the routed messages, then the channel, then the producer's message, are in
the order they were appended; each appended message is routed, dropped, in the channel or in
the producer's hands, and in only one of them; the producer holds the latest message; and a
dropped message has a later one. -/
structure Inv (w : World α bufferSize) : Prop where
  ordered : (w.routed ++ w.buffer.items ++ w.producer.inHand).Sublist w.appended.zipIdx
  once : (w.routed ++ w.dropped ++ w.buffer.items ++ w.producer.inHand).Perm w.appended.zipIdx
  inHand_last : ∀ p ∈ w.producer.inHand, p.2 + 1 = w.appended.length
  dropped_has_later : ∀ d ∈ w.dropped, d.2 + 1 < w.appended.length

theorem inv_init : Inv (init : World α bufferSize) where
  ordered := List.Sublist.slnil
  once := List.Perm.nil
  inHand_last _ h := by cases h
  dropped_has_later _ h := by cases h

/-- A move of the producer that keeps the message it holds keeps the invariant. -/
theorem Inv.withProducer {w : World α bufferSize} (hs : Inv w) {p : Producer α}
    (hp : p.inHand = w.producer.inHand) : Inv { w with producer := p } where
  ordered := by simpa [hp] using hs.ordered
  once := by simpa [hp] using hs.once
  inHand_last := by simpa [hp] using hs.inHand_last
  dropped_has_later := hs.dropped_has_later

theorem Inv.appendMessage {w : World α bufferSize} (hs : Inv w) (hp : w.producer = .idle)
    (topic : Topic) (msg : α) :
    Inv { w with producer := .sending (⟨topic, msg⟩, w.appended.length),
                 appended := w.appended ++ [⟨topic, msg⟩] } where
  ordered := by
    have := hs.ordered
    rw [hp, Producer.inHand, List.append_nil] at this
    simpa [Producer.inHand, zipIdx_append_singleton] using this.append_right _
  once := by
    have := hs.once
    rw [hp, Producer.inHand, List.append_nil] at this
    simpa [Producer.inHand, zipIdx_append_singleton] using this.append_right _
  inHand_last p hp' := by
    simp only [Producer.inHand, List.mem_singleton] at hp'
    simp [hp']
  dropped_has_later d hd := by
    have := hs.dropped_has_later d hd
    simp only [List.length_append, List.length_singleton]
    omega

/-- A send that finds room moves the producer's message to the back of the channel. -/
theorem Inv.send {w : World α bufferSize} (hs : Inv w) {m : Tagged α}
    (hp : w.producer = .sending m) {c : BufChan (Tagged α) bufferSize}
    (hc : w.buffer.trySend m = some c) : Inv { w with buffer := c, producer := .idle } := by
  have hitems := (BufChan.trySend_eq_some.1 hc).2
  refine ⟨?_, ?_, fun _ h => (by cases h), hs.dropped_has_later⟩
  · simpa [hitems, hp, Producer.inHand] using hs.ordered
  · simpa [hitems, hp, Producer.inHand] using hs.once

/-- The receive that drops takes the oldest message of the channel, which was appended
before the one the producer holds. -/
theorem Inv.drop {w : World α bufferSize} (hs : Inv w) {m : Tagged α}
    (hp : w.producer = .dropping m) {d : Tagged α} {c : BufChan (Tagged α) bufferSize}
    (hc : w.buffer.tryRecv = some (d, c)) :
    Inv { w with buffer := c, producer := .sending m, dropped := w.dropped ++ [d] } := by
  have hitems := BufChan.tryRecv_eq_some.1 hc
  have hordered := hs.ordered
  rw [hp, Producer.inHand, hitems] at hordered
  refine ⟨?_, ?_, ?_, ?_⟩
  · -- the channel loses its head, the rest keeps its order
    exact (((List.sublist_cons_self d c.items).append_left w.routed).append_right [m]).trans
      hordered
  · simpa [hitems, hp, Producer.inHand] using hs.once
  · simpa [hp, Producer.inHand] using hs.inHand_last
  · intro d' hd'
    rcases List.mem_append.1 hd' with hd' | hd'
    · exact hs.dropped_has_later d' hd'
    · -- the message dropped is older than the one in the producer's hands
      rw [List.mem_singleton.1 hd']
      have hlt : d.2 < m.2 := by
        have hpw := List.pairwise_append.1 (pairwise_index_lt hordered)
        exact hpw.2.2 d (by simp) m (List.mem_singleton_self m)
      have hlast := hs.inHand_last m (by rw [hp]; exact List.mem_singleton_self m)
      show d.2 + 1 < w.appended.length
      omega

/-- `Tick` moves the oldest message of the channel to the end of the routed ones. -/
theorem Inv.tick {w : World α bufferSize} (hs : Inv w) {d : Tagged α}
    {c : BufChan (Tagged α) bufferSize} (hc : w.buffer.tryRecv = some (d, c)) :
    Inv ({ w with buffer := c }.routeMessage d) := by
  have hitems := BufChan.tryRecv_eq_some.1 hc
  refine ⟨?_, ?_, hs.inHand_last, hs.dropped_has_later⟩
  · simpa [World.routeMessage, hitems] using hs.ordered
  · -- the routed message passes the dropped ones
    have hmid : (w.dropped ++ d :: (c.items ++ w.producer.inHand)).Perm
        (d :: (w.dropped ++ (c.items ++ w.producer.inHand))) := List.perm_middle
    have := (hmid.symm.append_left w.routed).trans (by simpa [hitems] using hs.once)
    simpa [World.routeMessage] using this

theorem Inv.of_step {w w' : World α bufferSize} (hs : Inv w) {a : Action α}
    (h : step w a = .ok w') : Inv w' := by
  cases a with
  | appendMessage topic msg =>
      simp only [step] at h
      split at h <;> cases h
      · exact hs.appendMessage ‹_› topic msg
      · exact hs
  | send =>
      simp only [step] at h
      split at h
      · rename_i m hp
        split at h <;> cases h
        · exact hs.send hp ‹_›
        · exact hs.withProducer (by rw [hp]; rfl)
      · cases h
        exact hs
  | drop =>
      simp only [step] at h
      split at h
      · rename_i m hp
        split at h <;> cases h
        · exact hs.drop hp ‹_›
        · exact hs.withProducer (by rw [hp]; rfl)
      · cases h
        exact hs
  | tick =>
      simp only [step] at h
      split at h <;> cases h
      · exact hs.tick ‹_›
      · exact hs

theorem inv_of_reachable {w : World α bufferSize} (h : Reachable α bufferSize w) : Inv w :=
  Transition.Reachable.inv inv_init (fun _ _ _ hs _ hstep => hs.of_step hstep) h

/-- The messages passed to `routeFn` are appended ones, in the order they were appended. -/
theorem routed_sublist {w : World α bufferSize} (h : Reachable α bufferSize w) :
    w.routed.Sublist w.appended.zipIdx :=
  ((List.sublist_append_left _ _).trans (List.sublist_append_left _ _)).trans
    (inv_of_reachable h).ordered

/-- No message is both routed and dropped, or routed or dropped twice, and every appended
message is routed, dropped, or still on its way. -/
theorem routed_or_dropped_once {w : World α bufferSize} (h : Reachable α bufferSize w) :
    (w.routed ++ w.dropped).Nodup ∧
      ∀ p ∈ w.appended.zipIdx, p ∈ w.routed ∨ p ∈ w.dropped ∨ p ∈ w.buffer.items ∨
        p ∈ w.producer.inHand := by
  have hs := inv_of_reachable h
  have hnodup : w.appended.zipIdx.Nodup :=
    (pairwise_index_lt (List.Sublist.refl w.appended.zipIdx)).imp fun hlt he =>
      Nat.ne_of_lt hlt (congrArg Prod.snd he)
  refine ⟨?_, fun p hp => ?_⟩
  · have := hs.once.symm.nodup_iff.1 hnodup
    exact (List.sublist_append_left _ _ |>.trans (List.sublist_append_left _ _)).nodup this
  · simpa [or_assoc] using hs.once.symm.subset hp

/-- A dropped message has a later one: the one the producer held when it dropped it. -/
theorem dropped_has_later {w : World α bufferSize} (h : Reachable α bufferSize w) :
    ∀ d ∈ w.dropped, d.2 + 1 < w.appended.length :=
  (inv_of_reachable h).dropped_has_later

/-! ## Ticks drain the channel -/

/-- One `Tick` for each message in the channel routes them all, in order, whatever the
producer does not do meanwhile. -/
theorem ticks_route_buffered (w : World α bufferSize) :
    Transition.run step w (List.replicate w.buffer.items.length .tick) =
      .ok { w with buffer := .empty, routed := w.routed ++ w.buffer.items } := by
  obtain ⟨⟨items, hle⟩, producer, appended, routed, dropped⟩ := w
  -- induction on the channel's contents, the routed messages growing at each `Tick`
  induction items generalizing routed with
  | nil =>
      simp only [List.length_nil, List.replicate_zero, Transition.run_nil, List.append_nil]
      rfl
  | cons m items ih =>
      have hstep : step ⟨⟨m :: items, hle⟩, producer, appended, routed, dropped⟩ .tick =
          .ok ⟨⟨items, Nat.le_of_succ_le hle⟩, producer, appended, routed ++ [m],
            dropped⟩ := rfl
      rw [List.length_cons, List.replicate_succ, Transition.run_cons_ok _ hstep, ih]
      simp

/-- Once the producer is idle, `Tick`s leave every appended message routed or dropped. -/
theorem ticks_route_all {w : World α bufferSize} (h : Reachable α bufferSize w)
    (hidle : w.producer = .idle) :
    ∃ w', Transition.run step w (List.replicate w.buffer.items.length .tick) = .ok w' ∧
      w'.buffer.items = [] ∧ (w'.routed ++ w'.dropped).Perm w.appended.zipIdx := by
  refine ⟨_, ticks_route_buffered w, rfl, ?_⟩
  have hperm : (w.routed ++ w.buffer.items ++ w.dropped).Perm
      (w.routed ++ w.dropped ++ w.buffer.items ++ w.producer.inHand) := by
    rw [hidle, Producer.inHand, List.append_nil, List.append_assoc, List.append_assoc]
    exact (List.perm_append_comm).append_left w.routed
  exact hperm.trans (inv_of_reachable h).once

/-! ## A message dropped with room in the channel -/

/-- The topic of the messages below. -/
def overtakenTopic : Topic := "dm"

/-- With the default buffer of four, the producer fills the channel with messages `0` to `3`,
and its send of `4` finds it full. Before its receive, the consumer `Tick`s three times. -/
def overtakenTrace : List (Action Nat) :=
  [.appendMessage overtakenTopic 0, .send, .appendMessage overtakenTopic 1, .send,
    .appendMessage overtakenTopic 2, .send, .appendMessage overtakenTopic 3, .send,
    .appendMessage overtakenTopic 4, .send, .tick, .tick, .tick, .drop, .send]

/-- The router after `overtakenTrace`. -/
def afterOvertakenDrop : World Nat defaultMessageRouterBufferSize :=
  { buffer := ⟨[(⟨overtakenTopic, 4⟩, 4)], by decide⟩, producer := .idle,
    appended := [⟨overtakenTopic, 0⟩, ⟨overtakenTopic, 1⟩, ⟨overtakenTopic, 2⟩,
      ⟨overtakenTopic, 3⟩, ⟨overtakenTopic, 4⟩],
    routed := [(⟨overtakenTopic, 0⟩, 0), (⟨overtakenTopic, 1⟩, 1),
      (⟨overtakenTopic, 2⟩, 2)],
    dropped := [(⟨overtakenTopic, 3⟩, 3)] }

/-- Message `3` is dropped although only one message was appended after it, and the channel
had room for three more when the producer dropped it. -/
theorem message_dropped_with_room :
    Reachable Nat defaultMessageRouterBufferSize afterOvertakenDrop ∧
      (⟨overtakenTopic, 3⟩, 3) ∈ afterOvertakenDrop.dropped ∧
      afterOvertakenDrop.appended.length - (3 + 1) = 1 ∧ 1 < defaultMessageRouterBufferSize := by
  have hrun : Transition.run step init overtakenTrace = .ok afterOvertakenDrop := rfl
  exact ⟨Transition.reachable_run .init rfl hrun, List.mem_singleton_self _, rfl, by decide⟩

end MessageRouter

end Lib

end Microcosm
