import Microcosm.Library.BufChan
import Microcosm.Library.Transition

/-!
# The slice queue

`pkg/containers/slice_queue.go`. `SliceQueue` is a FIFO queue under a mutex with a signal
channel `C` of one slot. `Push` appends under the mutex and, when the queue was empty, sends
a signal after the unlock; `Pop` takes the front under the mutex and, when elements remain,
signals again. Both sends are in a `select` with a `default` arm, so a signal that finds the
slot full is absorbed by the token already there.

The model has any number of pushers, goroutine `i` being the `i`-th of `pushers`, and one
consumer that blocks on `C` and then calls `Pop` until it returns `false`, as in
`TestSliceQueueConcurrentWriteAndRead`. A `Push` is two steps, the part under the mutex and
the signal; a `Pop` is one. Each element carries as ghosts the goroutine that pushed it and
how many that goroutine pushed before, and the ghost lists `pushed` and `popped` keep the
elements in the order their `Push` and `Pop` took the mutex. Of the slice pool the model
keeps only the check of `freeSlice`, which `Pop` never fails.

That `C` holds a token whenever the queue is non-empty and the consumer is blocked is not an
invariant: between the unlock of a `Push` into an empty queue and its signal, the queue holds
an element, the consumer is blocked and `C` is empty (`push_window_without_token`). What holds
is that the wakeup is pending: `C` holds a token or a pusher is about to signal
(`Inv.wakeup`). From every reachable state the steps of the consumer and of the pending
signals alone pop every element left (`Inv.drain`), each pushed element once, those of one
goroutine in the order it pushed them, and `Size` is the number of `Push`es that took the
mutex minus the successful `Pop`s (`no_lost_wakeup`).
-/

namespace Microcosm

namespace Containers

/-- An element with, as ghosts, the goroutine that pushed it and how many that goroutine
pushed before it. -/
structure Tagged (T : Type) where
  pusher : Nat
  seq : Nat
  elem : T
  deriving DecidableEq, Repr

/-- The panics of the queue. -/
inductive Panic
  /-- `panic("only empty slice allowed")` in `freeSlice`. -/
  | onlyEmptySliceAllowed
  deriving DecidableEq, Repr

/-- `SliceQueue`, without its mutex and its slice pool. -/
structure SliceQueue (T : Type) where
  elems : List (Tagged T)
  c : BufChan Unit 1
  deriving DecidableEq

variable {T : Type}

/-- `NewSliceQueue`. -/
def newSliceQueue : SliceQueue T :=
  ⟨[], .empty⟩

/-- `freeSlice`, of which the model keeps the check. -/
def freeSlice (s : List (Tagged T)) : Except Panic Unit :=
  if s.length ≠ 0 then .error .onlyEmptySliceAllowed else .ok ()

/-- A signal on `C`: a send in a `select` with a `default` arm. -/
def signal (c : BufChan Unit 1) : BufChan Unit 1 :=
  (c.trySend ()).getD c

/-- After a signal `C` holds a token. -/
theorem signal_items_ne_nil (c : BufChan Unit 1) : (signal c).items ≠ [] := by
  unfold signal
  cases h : c.trySend () with
  | none => exact BufChan.items_ne_nil_of_trySend_eq_none Nat.one_pos h
  | some c' =>
      rw [Option.getD_some, (BufChan.trySend_eq_some.1 h).2]
      exact List.append_ne_nil_of_right_ne_nil _ (List.cons_ne_nil _ _)

namespace SliceQueue

/-- The part of `Push` under the mutex: whether to signal after the unlock, and the queue. -/
def push (q : SliceQueue T) (x : Tagged T) : Bool × SliceQueue T :=
  (q.elems.length == 0, { q with elems := q.elems ++ [x] })

/-- `Pop`, all of it under the mutex. -/
def pop (q : SliceQueue T) : Except Panic (Option (Tagged T) × SliceQueue T) :=
  match q.elems with
  | [] => .ok (none, q)
  | x :: rest =>
      if rest.length == 0 then do
        freeSlice rest
        pure (some x, { q with elems := [] })
      else pure (some x, { q with elems := rest, c := signal q.c })

/-- `Size`. -/
def size (q : SliceQueue T) : Nat :=
  q.elems.length

/-- `Peek`. -/
def peek (q : SliceQueue T) : Option (Tagged T) :=
  q.elems.head?

theorem pop_of_nil {q : SliceQueue T} (h : q.elems = []) : q.pop = .ok (none, q) := by
  simp [pop, h]

/-- `Pop` of a non-empty queue returns its front, and signals when elements remain; the
check of `freeSlice` always passes. -/
theorem pop_of_cons {q : SliceQueue T} {x : Tagged T} {rest : List (Tagged T)}
    (h : q.elems = x :: rest) :
    q.pop = .ok (some x, { q with elems := rest, c := if rest = [] then q.c else signal q.c }) := by
  cases rest with
  | nil => simp [pop, h, freeSlice]
  | cons y ys =>
      simp [pop, h]
      rfl

/-- `Pop` never panics. -/
theorem pop_ne_error (q : SliceQueue T) (p : Panic) : q.pop ≠ .error p := by
  cases h : q.elems with
  | nil => rw [pop_of_nil h]; nofun
  | cons x rest => rw [pop_of_cons h]; nofun

end SliceQueue

/-! ## The goroutines -/

/-- Where a pusher is. -/
inductive PusherPc
  /-- Not in `Push`, or past its unlock with nothing to signal. -/
  | idle
  /-- Past the unlock of a `Push` into an empty queue, before its signal. -/
  | signalling
  deriving DecidableEq, Repr

/-- Where the consumer is. -/
inductive ConsumerPc
  /-- Blocked on `C`. -/
  | waiting
  /-- In its loop of `Pop`s. -/
  | draining
  deriving DecidableEq, Repr

/-- The queue, the goroutines, and as ghosts the elements in the order their `Push` and their
`Pop` took the mutex. -/
structure World (T : Type) where
  queue : SliceQueue T
  pushers : List PusherPc
  consumer : ConsumerPc
  pushed : List (Tagged T)
  popped : List (Tagged T)
  deriving DecidableEq

/-- How many elements goroutine `i` has pushed. -/
def World.pushCount (w : World T) (i : Nat) : Nat :=
  (w.pushed.filter (·.pusher == i)).length

/-- The steps of the goroutines. -/
inductive Action (T : Type)
  /-- Goroutine `i`'s `Push(x)` up to its unlock. -/
  | push (i : Nat) (x : T)
  /-- Goroutine `i`'s signal after the unlock. -/
  | pushSignal (i : Nat)
  /-- The consumer's receive on `C`. -/
  | wake
  /-- The consumer's `Pop`. -/
  | pop
  deriving DecidableEq, Repr

/-- The steps of `Push` under the mutex. -/
def Action.isPush : Action T → Bool
  | .push _ _ => true
  | _ => false

/-- A new queue, `n` pushers, and the consumer blocked on `C`. -/
def init (n : Nat) : World T :=
  ⟨newSliceQueue, List.replicate n .idle, .waiting, [], []⟩

/-- One step. A step of a goroutine that is not where the goroutine is changes nothing. -/
def step (w : World T) : Action T → Except Panic (World T)
  | .push i x =>
      match w.pushers[i]? with
      | some .idle =>
          let t : Tagged T := ⟨i, w.pushCount i, x⟩
          match w.queue.push t with
          | (sig, q) =>
              .ok { w with queue := q,
                           pushers := w.pushers.set i (if sig then .signalling else .idle),
                           pushed := w.pushed ++ [t] }
      | _ => .ok w
  | .pushSignal i =>
      match w.pushers[i]? with
      | some .signalling =>
          .ok { w with queue := { w.queue with c := signal w.queue.c },
                       pushers := w.pushers.set i .idle }
      | _ => .ok w
  | .wake =>
      match w.consumer, w.queue.c.tryRecv with
      | .waiting, some ((), c) =>
          .ok { w with queue := { w.queue with c := c }, consumer := .draining }
      | _, _ => .ok w
  | .pop =>
      match w.consumer with
      | .draining =>
          match w.queue.pop with
          | .error e => .error e
          | .ok (none, q) => .ok { w with queue := q, consumer := .waiting }
          | .ok (some x, q) => .ok { w with queue := q, popped := w.popped ++ [x] }
      | .waiting => .ok w

-- Many proofs below unfold this definition, and Lean elaborates them in parallel: the empty
-- section generates its equation lemmas here, once, so that the proofs do not all wait on it.
-- The simp set outside the section is unchanged.
section
attribute [local simp] step
end

/-- The runs from `NewSliceQueue` with `n` pushers. -/
def Reachable (n : Nat) : World T → Prop :=
  Transition.Reachable step (fun _ _ => true) (init n)
/-! ## One lemma for each step -/

variable {w : World T}

theorem step_push (hi : w.pushers[i]? = some .idle) (x : T) :
    step w (.push i x) =
      .ok { w with queue := { w.queue with elems := w.queue.elems ++ [⟨i, w.pushCount i, x⟩] },
                   pushers := w.pushers.set i (if w.queue.elems = [] then .signalling else .idle),
                   pushed := w.pushed ++ [⟨i, w.pushCount i, x⟩] } := by
  simp [step, hi, SliceQueue.push]

theorem step_pushSignal (hi : w.pushers[i]? = some .signalling) :
    step w (.pushSignal i) =
      .ok { w with queue := { w.queue with c := signal w.queue.c },
                   pushers := w.pushers.set i .idle } := by
  simp [step, hi]

theorem step_wake (hw : w.consumer = .waiting) {c : BufChan Unit 1}
    (hc : w.queue.c.items = () :: c.items) :
    step w .wake = .ok { w with queue := { w.queue with c := c }, consumer := .draining } := by
  simp [step, hw, BufChan.tryRecv_eq_some.2 hc]

theorem step_pop_nil (hd : w.consumer = .draining) (he : w.queue.elems = []) :
    step w .pop = .ok { w with consumer := .waiting } := by
  simp [step, hd, SliceQueue.pop_of_nil he]

theorem step_pop_cons (hd : w.consumer = .draining) {x : Tagged T} {rest : List (Tagged T)}
    (he : w.queue.elems = x :: rest) :
    step w .pop =
      .ok { w with queue := { w.queue with elems := rest,
                                           c := if rest = [] then w.queue.c else signal w.queue.c },
                   popped := w.popped ++ [x] } := by
  simp [step, hd, SliceQueue.pop_of_cons he]

/-- No step panics: `Pop` calls `freeSlice` on an empty slice only. -/
theorem step_ne_error (w : World T) (a : Action T) (p : Panic) : step w a ≠ .error p := by
  cases a with
  | pop =>
      cases hd : w.consumer with
      | waiting => simp [step, hd]
      | draining =>
          cases he : w.queue.elems with
          | nil => rw [step_pop_nil hd he]; nofun
          | cons x rest => rw [step_pop_cons hd he]; nofun
  | push i x =>
      simp only [step]
      split <;> nofun
  | pushSignal i =>
      simp only [step]
      split <;> nofun
  | wake =>
      simp only [step]
      split <;> nofun

/-! ## The invariant -/

/-- A signalling goroutine other than `i` is still one after `i` moves. -/
theorem signalling_mem_set {ps : List PusherPc} {i : Nat} (h : PusherPc.signalling ∈ ps)
    (hi : ps[i]? = some .idle) (p : PusherPc) : PusherPc.signalling ∈ ps.set i p := by
  obtain ⟨j, hj⟩ := List.mem_iff_getElem?.1 h
  have hji : i ≠ j := by
    rintro rfl
    rw [hi] at hj
    cases hj
  exact List.mem_iff_getElem?.2 ⟨j, by rw [List.getElem?_set, if_neg hji, hj]⟩

/-- In every run: the queue is what was pushed and not popped, in order; the elements of each
goroutine are numbered from `0` in the order it pushed them, so that no element is pushed
twice; and when the queue is non-empty and the consumer is blocked, `C` holds a token or a
pusher is about to signal. -/
structure Inv (w : World T) : Prop where
  fifo : w.pushed = w.popped ++ w.queue.elems
  seqs : ∀ g, (w.pushed.filter (·.pusher == g)).map Tagged.seq = List.range (w.pushCount g)
  nodup : w.pushed.Nodup
  wakeup : w.queue.elems ≠ [] → w.consumer = .waiting →
    w.queue.c.items ≠ [] ∨ PusherPc.signalling ∈ w.pushers

theorem inv_init (n : Nat) : Inv (init n : World T) where
  fifo := rfl
  seqs _ := rfl
  nodup := List.nodup_nil
  wakeup h := absurd rfl h

/-- The element a `Push` appends is new: its number is the count of its goroutine. -/
theorem Inv.not_mem_pushed (hs : Inv w) (i : Nat) (x : T) :
    (⟨i, w.pushCount i, x⟩ : Tagged T) ∉ w.pushed := by
  intro h
  have hmem : w.pushCount i ∈ (w.pushed.filter (·.pusher == i)).map Tagged.seq :=
    List.mem_map.2 ⟨_, List.mem_filter.2 ⟨h, by simp⟩, rfl⟩
  rw [hs.seqs i, List.mem_range] at hmem
  exact Nat.lt_irrefl _ hmem

theorem Inv.push (hs : Inv w) (hi : w.pushers[i]? = some .idle) (x : T) :
    Inv { w with queue := { w.queue with elems := w.queue.elems ++ [⟨i, w.pushCount i, x⟩] },
                 pushers := w.pushers.set i (if w.queue.elems = [] then .signalling else .idle),
                 pushed := w.pushed ++ [⟨i, w.pushCount i, x⟩] } where
  fifo := by simp [hs.fifo]
  seqs g := by
    have hg := hs.seqs g
    unfold World.pushCount at hg ⊢
    by_cases hig : i = g
    · subst hig
      simp [List.filter_append, hg, List.range_succ]
    · simp [List.filter_append, hig, hg]
  nodup := List.nodup_append.2 ⟨hs.nodup,
    List.nodup_cons.2 ⟨List.not_mem_nil, List.nodup_nil⟩,
    fun _ ha _ hb he => hs.not_mem_pushed i x (List.mem_singleton.1 hb ▸ he ▸ ha)⟩
  wakeup _ hw := by
    -- a `Push` into an empty queue leaves its goroutine about to signal
    have hlt : i < w.pushers.length := (List.getElem?_eq_some_iff.1 hi).1
    by_cases he : w.queue.elems = []
    · refine .inr ?_
      simpa [he] using List.mem_set hlt PusherPc.signalling
    · rcases hs.wakeup he hw with htok | hsig
      · exact .inl htok
      · exact .inr (signalling_mem_set hsig hi _)

theorem Inv.pushSignal (hs : Inv w) (i : Nat) :
    Inv { w with queue := { w.queue with c := signal w.queue.c },
                 pushers := w.pushers.set i .idle } where
  fifo := hs.fifo
  seqs := hs.seqs
  nodup := hs.nodup
  wakeup _ _ := .inl (signal_items_ne_nil _)

theorem Inv.wake (hs : Inv w) (c : BufChan Unit 1) :
    Inv { w with queue := { w.queue with c := c }, consumer := .draining } where
  fifo := hs.fifo
  seqs := hs.seqs
  nodup := hs.nodup
  wakeup _ h := by cases h

theorem Inv.pop_nil (hs : Inv w) (he : w.queue.elems = []) :
    Inv { w with consumer := .waiting } where
  fifo := hs.fifo
  seqs := hs.seqs
  nodup := hs.nodup
  wakeup h := absurd he h

theorem Inv.pop_cons (hs : Inv w) (hd : w.consumer = .draining) {x : Tagged T}
    {rest : List (Tagged T)} (he : w.queue.elems = x :: rest) :
    Inv { w with queue := { w.queue with elems := rest,
                                         c := if rest = [] then w.queue.c else signal w.queue.c },
                 popped := w.popped ++ [x] } where
  fifo := by simp [hs.fifo, he]
  seqs := hs.seqs
  nodup := hs.nodup
  wakeup _ hw := by
    rw [hd] at hw
    cases hw

theorem Inv.of_step (hs : Inv w) {a : Action T} {w' : World T} (h : step w a = .ok w') :
    Inv w' := by
  cases a with
  | push i x =>
      cases hi : w.pushers[i]? with
      | none => simp [step, hi] at h; exact h ▸ hs
      | some p =>
          cases p with
          | idle => rw [step_push hi] at h; cases h; exact hs.push hi x
          | signalling => simp [step, hi] at h; exact h ▸ hs
  | pushSignal i =>
      cases hi : w.pushers[i]? with
      | none => simp [step, hi] at h; exact h ▸ hs
      | some p =>
          cases p with
          | idle => simp [step, hi] at h; exact h ▸ hs
          | signalling => rw [step_pushSignal hi] at h; cases h; exact hs.pushSignal i
  | wake =>
      simp only [step] at h
      split at h <;> cases h
      · exact hs.wake _
      · exact hs
  | pop =>
      cases hd : w.consumer with
      | waiting => simp [step, hd] at h; exact h ▸ hs
      | draining =>
          cases he : w.queue.elems with
          | nil => rw [step_pop_nil hd he] at h; cases h; exact hs.pop_nil he
          | cons x rest => rw [step_pop_cons hd he] at h; cases h; exact hs.pop_cons hd he

theorem inv_of_reachable {n : Nat} (h : Reachable n w) : Inv w :=
  Transition.Reachable.inv (inv_init n) (fun _ _ _ hs _ hstep => hs.of_step hstep) h
/-! ## No wakeup is lost -/

/-- The steps that take no new element: the consumer's and the signals of `Push`. -/
def NoPush (as : List (Action T)) : Prop :=
  ∀ a ∈ as, a.isPush = false

/-- From a state of the invariant with `x` at the front, the pending signal, the consumer's
receive and its `Pop` take `x` out, as far as each is needed. -/
theorem Inv.popNext (hs : Inv w) {x : Tagged T} {rest : List (Tagged T)}
    (he : w.queue.elems = x :: rest) :
    ∃ as w', NoPush as ∧ Transition.run step w as = .ok w' ∧ Inv w' ∧
      w'.queue.elems = rest ∧ w'.popped = w.popped ++ [x] := by
  -- the `Pop`, once the consumer drains
  have hpop : ∀ v : World T, Inv v → v.consumer = .draining → v.queue.elems = x :: rest →
      ∃ v', step v .pop = .ok v' ∧ Inv v' ∧ v'.queue.elems = rest ∧
        v'.popped = v.popped ++ [x] :=
    fun v hv hd hve => ⟨_, step_pop_cons hd hve, hv.pop_cons hd hve, rfl, rfl⟩
  -- the receive on `C`, once it holds a token
  have hwake : ∀ v : World T, Inv v → v.consumer = .waiting → v.queue.c.items ≠ [] →
      ∃ v', step v .wake = .ok v' ∧ Inv v' ∧ v'.consumer = .draining ∧
        v'.queue.elems = v.queue.elems ∧ v'.popped = v.popped := by
    intro v hv hw htok
    obtain ⟨⟨⟩, rest', hc⟩ := List.exists_cons_of_ne_nil htok
    have hcap : rest'.length ≤ 1 := by
      have := v.queue.c.length_le
      rw [hc, List.length_cons] at this
      omega
    exact ⟨_, step_wake hw (c := ⟨rest', hcap⟩) hc, hv.wake _, rfl, rfl, rfl⟩
  cases hd : w.consumer with
  | draining =>
      obtain ⟨w₁, h₁, hs₁, he₁, hp₁⟩ := hpop w hs hd he
      refine ⟨[.pop], w₁, by simp [NoPush, Action.isPush], ?_, hs₁, he₁, hp₁⟩
      rw [Transition.run_cons_ok _ h₁, Transition.run_nil]
  | waiting =>
      by_cases htok : w.queue.c.items ≠ []
      · obtain ⟨w₁, h₁, hs₁, hd₁, he₁, hp₁⟩ := hwake w hs hd htok
        obtain ⟨w₂, h₂, hs₂, he₂, hp₂⟩ := hpop w₁ hs₁ hd₁ (he₁.trans he)
        refine ⟨[.wake, .pop], w₂, by simp [NoPush, Action.isPush], ?_, hs₂, he₂, by
          rw [hp₂, hp₁]⟩
        rw [Transition.run_cons_ok _ h₁, Transition.run_cons_ok _ h₂, Transition.run_nil]
      · -- no token yet: the wakeup is the signal of a pusher
        have hsig := (hs.wakeup (by rw [he]; exact List.cons_ne_nil _ _) hd).resolve_left htok
        obtain ⟨i, hi⟩ := List.mem_iff_getElem?.1 hsig
        have hs₁ := hs.pushSignal i
        obtain ⟨w₂, h₂, hs₂, hd₂, he₂, hp₂⟩ :=
          hwake _ hs₁ hd (signal_items_ne_nil _)
        obtain ⟨w₃, h₃, hs₃, he₃, hp₃⟩ := hpop w₂ hs₂ hd₂ (he₂.trans he)
        refine ⟨[.pushSignal i, .wake, .pop], w₃, by simp [NoPush, Action.isPush], ?_, hs₃,
          he₃, by rw [hp₃, hp₂]⟩
        rw [Transition.run_cons_ok _ (step_pushSignal hi), Transition.run_cons_ok _ h₂,
          Transition.run_cons_ok _ h₃, Transition.run_nil]

/-- From a state of the invariant, without another `Push`, the consumer pops every element
left, and then it has popped every element pushed. -/
theorem Inv.drain (hs : Inv w) :
    ∃ as w', NoPush as ∧ Transition.run step w as = .ok w' ∧ w'.queue.elems = [] ∧
      w'.popped = w.pushed := by
  -- induction on the length of the queue, one `popNext` at each step
  obtain ⟨n, hn⟩ : ∃ n, w.queue.elems.length = n := ⟨_, rfl⟩
  induction n generalizing w with
  | zero =>
      have he := List.eq_nil_of_length_eq_zero hn
      exact ⟨[], w, fun _ h => (by cases h), rfl, he, by rw [hs.fifo, he, List.append_nil]⟩
  | succ n ih =>
      obtain ⟨x, rest, he⟩ := List.exists_cons_of_length_eq_add_one hn
      obtain ⟨as₁, w₁, hp₁, hr₁, hs₁, he₁, hpop₁⟩ := hs.popNext he
      obtain ⟨as₂, w₂, hp₂, hr₂, he₂, hpop₂⟩ :=
        ih hs₁ (by rw [he₁]; simpa [he] using hn)
      refine ⟨as₁ ++ as₂, w₂, ?_, ?_, he₂, ?_⟩
      · intro a ha
        rcases List.mem_append.1 ha with ha | ha
        · exact hp₁ a ha
        · exact hp₂ a ha
      · rw [Transition.run_append_of_ok hr₁, hr₂]
      · -- no element was pushed on the way
        rw [hpop₂, hs₁.fifo, hpop₁, he₁, hs.fifo, he, List.append_assoc,
          List.singleton_append]

/-- A prefix of `0, 1, …, m - 1` is `0, 1, …` up to its length. -/
theorem eq_range_of_prefix {l : List Nat} {m : Nat} (h : l <+: List.range m) :
    l = List.range l.length := by
  have hle : l.length ≤ m := by simpa using h.length_le
  rw [List.prefix_iff_eq_take, List.take_range, Nat.min_eq_left hle] at h
  exact h

/-- What the queue guarantees in a state. -/
structure Guarantees (w : World T) : Prop where
  /-- A non-empty queue and a blocked consumer: `C` holds a token or a pusher will send one. -/
  wakeup_pending : w.queue.elems ≠ [] → w.consumer = .waiting →
    w.queue.c.items ≠ [] ∨ PusherPc.signalling ∈ w.pushers
  /-- Without another `Push`, the consumer pops every element pushed. -/
  drains : ∃ as w', NoPush as ∧ Transition.run step w as = .ok w' ∧ w'.queue.elems = [] ∧
    w'.popped = w.pushed
  /-- No element is pushed, so popped, twice. -/
  once : w.pushed.Nodup
  /-- The elements of each goroutine are popped in the order it pushed them. -/
  push_order : ∀ g, (w.popped.filter (·.pusher == g)).map Tagged.seq =
    List.range (w.popped.filter (·.pusher == g)).length
  /-- `Size` counts the `Push`es that took the mutex less the successful `Pop`s. -/
  size_eq : w.queue.size + w.popped.length = w.pushed.length

/-- In every run no wakeup is lost: when the queue holds elements and the consumer is blocked
on `C`, a token is in `C` or on its way, and the consumer's steps alone pop all that was
pushed, each element once and those of one goroutine in push order. -/
theorem no_lost_wakeup {n : Nat} (h : Reachable n w) : Guarantees w := by
  have hs := inv_of_reachable h
  refine ⟨hs.wakeup, hs.drain, hs.nodup, fun g => ?_, ?_⟩
  · -- the popped elements are a prefix of the pushed ones, goroutine by goroutine
    have hpre : (w.popped.filter (·.pusher == g)).map Tagged.seq <+:
        List.range (w.pushCount g) := by
      rw [← hs.seqs g, hs.fifo]
      exact ((List.prefix_append _ _).filter _).map _
    simpa using eq_range_of_prefix hpre
  · simp [SliceQueue.size, hs.fifo, Nat.add_comm]

/-- The state after one `Push` of `7` by the only pusher. -/
def afterFirstPush : World Nat :=
  ⟨⟨[⟨0, 0, 7⟩], .empty⟩, [.signalling], .waiting, [⟨0, 0, 7⟩], []⟩

theorem no_lost_wakeup_after_first_push : Guarantees afterFirstPush :=
  no_lost_wakeup (n := 1) (.step (.push 0 7) .init rfl rfl)

/-- Right after the unlock of a `Push` into an empty queue, the queue holds an element, the
consumer is blocked on `C`, and `C` is empty. -/
theorem push_window_without_token :
    Reachable 1 afterFirstPush ∧ afterFirstPush.queue.elems ≠ [] ∧
      afterFirstPush.consumer = .waiting ∧ afterFirstPush.queue.c.items = [] :=
  ⟨.step (.push 0 7) .init rfl rfl, List.cons_ne_nil _ _, rfl, rfl⟩

end Containers

end Microcosm
