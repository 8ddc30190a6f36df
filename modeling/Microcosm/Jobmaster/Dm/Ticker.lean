import Microcosm.Library.Transition

/-!
# The ticker of the DM job master

`jobmaster/dm/ticker/ticker.go`. `DefaultTicker` runs `TickImpl` from `Tick` once the clock
has reached `nextCheckTime`. `SetNextCheckTime(t)` asks for a check at `t`; it takes effect
when the ticker has just checked (`lastCheckTime = nextCheckTime`, which
`advanceCheckTime` makes so when `TickImpl` starts) or when `t` lies strictly between the
two times. After `TickImpl`, `Tick` asks for the next check itself, an interval later.

The model is the ticker with one goroutine in `Tick`, whose statements are separate steps
(the clock reading, the read of `nextCheckTime`, `advanceCheckTime`, `TickImpl`, the
follow-up request), and any other goroutine's `SetNextCheckTime(t)` in between, with `t` no
earlier than the clock. Times are natural numbers, `time.Time{}` is `0`, and the clock never
goes back. A ghost list keeps the times asked for since `TickImpl` last started.

A `Tick` whose clock reading comes before every time asked for since does not start
`TickImpl` (`tick_waits_before_requests`). The converse, that a time asked for is never
passed over, holds when every request is strictly later than the start of the latest
`TickImpl` (`tick_runs_after_request`). It fails at that boundary: a request for exactly
`lastCheckTime` is dropped by the strict guard, and a `Tick` at that time returns without
`TickImpl` (`request_at_last_check_time_lost`).
-/

namespace Microcosm

namespace Jobmaster

namespace Dm

/-- `DefaultTicker`, without its mutex and its `Ticker`. -/
structure DefaultTicker where
  lastCheckTime : Nat
  nextCheckTime : Nat
  normalInterval : Nat
  errorInterval : Nat
  deriving DecidableEq, Repr

namespace DefaultTicker

/-- `SetNextCheckTime`. -/
def setNextCheckTime (s : DefaultTicker) (t : Nat) : DefaultTicker :=
  if s.lastCheckTime = s.nextCheckTime ∨ (s.lastCheckTime < t ∧ t < s.nextCheckTime) then
    { s with nextCheckTime := t }
  else s

/-- `getNextCheckTime`. -/
def getNextCheckTime (s : DefaultTicker) : Nat :=
  s.nextCheckTime

/-- `advanceCheckTime`, with `now` the clock reading. -/
def advanceCheckTime (s : DefaultTicker) (now : Nat) : DefaultTicker :=
  { s with lastCheckTime := now, nextCheckTime := now }

@[simp] theorem setNextCheckTime_lastCheckTime (s : DefaultTicker) (t : Nat) :
    (s.setNextCheckTime t).lastCheckTime = s.lastCheckTime := by
  unfold setNextCheckTime
  split <;> rfl

@[simp] theorem setNextCheckTime_normalInterval (s : DefaultTicker) (t : Nat) :
    (s.setNextCheckTime t).normalInterval = s.normalInterval := by
  unfold setNextCheckTime
  split <;> rfl

@[simp] theorem setNextCheckTime_errorInterval (s : DefaultTicker) (t : Nat) :
    (s.setNextCheckTime t).errorInterval = s.errorInterval := by
  unfold setNextCheckTime
  split <;> rfl

/-- What a request does to the next check time: it takes `t` when the ticker has just
checked or `t` is strictly between the two times, and keeps its time otherwise. -/
theorem setNextCheckTime_nextCheckTime (s : DefaultTicker) (t : Nat) :
    ((s.setNextCheckTime t).nextCheckTime = t ∧
        (s.lastCheckTime = s.nextCheckTime ∨ (s.lastCheckTime < t ∧ t < s.nextCheckTime))) ∨
      ((s.setNextCheckTime t).nextCheckTime = s.nextCheckTime ∧
        s.lastCheckTime ≠ s.nextCheckTime ∧
          (t ≤ s.lastCheckTime ∨ s.nextCheckTime ≤ t)) := by
  unfold setNextCheckTime
  split
  · rename_i h
    exact .inl ⟨rfl, h⟩
  · rename_i h
    refine .inr ⟨rfl, fun he => h (.inl he), ?_⟩
    omega

end DefaultTicker

/-- `NewDefaultTicker`, at clock reading `now`. -/
def newDefaultTicker (normalInterval errorInterval now : Nat) : DefaultTicker :=
  DefaultTicker.setNextCheckTime ⟨0, 0, normalInterval, errorInterval⟩ now

namespace Ticker

/-- Where the goroutine in `Tick` is. -/
inductive TickPc
  /-- Not in `Tick`. -/
  | idle
  /-- `time.Now()` read as `τ`, before `getNextCheckTime`. -/
  | checked (τ : Nat)
  /-- Past the check, before `advanceCheckTime`. -/
  | advancing
  /-- In `TickImpl`. -/
  | running
  /-- `TickImpl` returned, with an error or not, before the follow-up request. -/
  | returned (failed : Bool)
  deriving DecidableEq, Repr

/-- A step of `TickImpl` is under way: from `advanceCheckTime` to the follow-up request. -/
def TickPc.inImpl : TickPc → Bool
  | .running | .returned _ => true
  | _ => false

/-- The ticker, the clock, the goroutine in `Tick`, and as a ghost the times asked for since
`TickImpl` last started. -/
structure World where
  now : Nat
  ticker : DefaultTicker
  pc : TickPc
  requests : List Nat
  deriving DecidableEq, Repr

/-- The steps of the system. -/
inductive Action
  /-- The clock moves on. -/
  | advance (d : Nat)
  /-- Another goroutine's `SetNextCheckTime(t)`. -/
  | setNextCheckTime (t : Nat)
  /-- `Tick` reads the clock. -/
  | tickNow
  /-- `Tick` reads `nextCheckTime` and returns early, or goes on. -/
  | tickRead
  /-- `advanceCheckTime`, and `TickImpl` starts. -/
  | tickAdvance
  /-- `TickImpl` returns. -/
  | tickImplReturns (failed : Bool)
  /-- `SetNextCheckTime(time.Now().Add(interval))`, and `Tick` returns. -/
  | tickFollowUp
  deriving DecidableEq, Repr

/-- The world after `NewDefaultTicker` at clock reading `start`. -/
def init (normalInterval errorInterval start : Nat) : World :=
  { now := start, ticker := newDefaultTicker normalInterval errorInterval start, pc := .idle,
    requests := [start] }

/-- A request for `t`, recorded in the ghost list. -/
def World.request (w : World) (t : Nat) : World :=
  { w with ticker := w.ticker.setNextCheckTime t, requests := w.requests ++ [t] }

/-- `advanceCheckTime` at the clock reading, and `TickImpl` starts with nothing asked for yet. -/
def World.startImpl (w : World) : World :=
  { w with ticker := w.ticker.advanceCheckTime w.now, pc := .running, requests := [] }

/-- The time of the follow-up request of `Tick`. -/
def World.followUpTime (w : World) (failed : Bool) : Nat :=
  w.now + if failed then w.ticker.errorInterval else w.ticker.normalInterval

/-- One step. A step of `Tick` that is not where its goroutine is changes nothing. -/
def step (w : World) : Action → Except Empty World
  | .advance d => .ok { w with now := w.now + d }
  | .setNextCheckTime t => .ok (w.request t)
  | .tickNow =>
      match w.pc with
      | .idle => .ok { w with pc := .checked w.now }
      | _ => .ok w
  | .tickRead =>
      match w.pc with
      | .checked τ =>
          .ok { w with pc := if τ < w.ticker.getNextCheckTime then .idle else .advancing }
      | _ => .ok w
  | .tickAdvance =>
      match w.pc with
      | .advancing => .ok w.startImpl
      | _ => .ok w
  | .tickImplReturns failed =>
      match w.pc with
      | .running => .ok { w with pc := .returned failed }
      | _ => .ok w
  | .tickFollowUp =>
      match w.pc with
      | .returned failed => .ok { w.request (w.followUpTime failed) with pc := .idle }
      | _ => .ok w

-- Many proofs below unfold this definition, and Lean elaborates them in parallel: the empty
-- section generates its equation lemmas here, once, so that the proofs do not all wait on it.
-- The simp set outside the section is unchanged.
section
attribute [local simp] step
end

/-- The callers ask for times no earlier than the clock. -/
def allowed (w : World) : Action → Bool
  | .setNextCheckTime t => decide (w.now ≤ t)
  | _ => true

/-- The callers ask for times strictly after the start of the latest `TickImpl`. -/
def allowedStrictly (w : World) : Action → Bool
  | .setNextCheckTime t => decide (w.now ≤ t ∧ w.ticker.lastCheckTime < t)
  | _ => true

/-- The runs from `NewDefaultTicker`. -/
def Reachable (normalInterval errorInterval start : Nat) : World → Prop :=
  Transition.Reachable step allowed (init normalInterval errorInterval start)

/-- The runs in which every request is strictly after the start of the latest `TickImpl`. -/
def ReachableStrictly (normalInterval errorInterval start : Nat) : World → Prop :=
  Transition.Reachable step allowedStrictly (init normalInterval errorInterval start)

/-- The moves of the system, each statement of `Tick` by its name, with `req` the contract of
the callers of `SetNextCheckTime`. -/
inductive Moves (req : World → Nat → Prop) (w : World) : World → Prop
  | stay : Moves req w w
  | advance (d : Nat) : Moves req w { w with now := w.now + d }
  | request (t : Nat) : req w t → Moves req w (w.request t)
  | tickNow : w.pc = .idle → Moves req w { w with pc := .checked w.now }
  | tickReturnsEarly (τ : Nat) : w.pc = .checked τ → τ < w.ticker.nextCheckTime →
      Moves req w { w with pc := .idle }
  | tickGoesOn (τ : Nat) : w.pc = .checked τ → w.ticker.nextCheckTime ≤ τ →
      Moves req w { w with pc := .advancing }
  | tickAdvance : w.pc = .advancing → Moves req w w.startImpl
  | tickImplReturns (failed : Bool) : w.pc = .running →
      Moves req w { w with pc := .returned failed }
  | tickFollowUp (failed : Bool) : w.pc = .returned failed →
      Moves req w { w.request (w.followUpTime failed) with pc := .idle }

/-- What a step can do: one of the moves, with the requests under the callers' contract. -/
theorem moves_of_step {req : World → Nat → Prop} {al : World → Action → Bool}
    (hal : ∀ w t, al w (.setNextCheckTime t) = true → req w t) {w w' : World} {a : Action}
    (ha : al w a = true) (h : step w a = .ok w') : Moves req w w' := by
  cases a with
  | advance d =>
      cases h
      exact .advance d
  | setNextCheckTime t =>
      cases h
      exact .request t (hal w t ha)
  | tickNow =>
      simp only [step] at h
      split at h <;> cases h
      · exact .tickNow ‹_›
      · exact .stay
  | tickRead =>
      simp only [step] at h
      split at h <;> cases h
      · rename_i τ hpc
        -- the early return, or the way on to `advanceCheckTime`
        by_cases hlt : τ < w.ticker.nextCheckTime
        · have hm : Moves req w { w with pc := .idle } := .tickReturnsEarly τ hpc hlt
          simpa [DefaultTicker.getNextCheckTime, hlt] using hm
        · have hm : Moves req w { w with pc := .advancing } :=
            .tickGoesOn τ hpc (Nat.le_of_not_lt hlt)
          simpa [DefaultTicker.getNextCheckTime, hlt] using hm
      · exact .stay
  | tickAdvance =>
      simp only [step] at h
      split at h <;> cases h
      · exact .tickAdvance ‹_›
      · exact .stay
  | tickImplReturns failed =>
      simp only [step] at h
      split at h <;> cases h
      · exact .tickImplReturns failed ‹_›
      · exact .stay
  | tickFollowUp =>
      simp only [step] at h
      split at h <;> cases h
      · exact .tickFollowUp _ ‹_›
      · exact .stay

theorem allowed_request :
    ∀ w t, allowed w (.setNextCheckTime t) = true → w.now ≤ t := by
  intro w t h
  simpa [allowed] using h

theorem allowedStrictly_request :
    ∀ w t, allowedStrictly w (.setNextCheckTime t) = true →
      w.now ≤ t ∧ w.ticker.lastCheckTime < t := by
  intro w t h
  simpa [allowedStrictly] using h

@[simp] theorem request_ticker (w : World) (t : Nat) :
    (w.request t).ticker = w.ticker.setNextCheckTime t := rfl

@[simp] theorem request_requests (w : World) (t : Nat) :
    (w.request t).requests = w.requests ++ [t] := rfl

@[simp] theorem request_now (w : World) (t : Nat) : (w.request t).now = w.now := rfl

/-! ## The next check time is a time asked for -/

/-- In every run: before `TickImpl` has been asked anything, the next check time is the start
of `TickImpl`; otherwise it is one of the times asked for. -/
structure Inv (w : World) : Prop where
  requests_nil : w.requests = [] →
    w.ticker.nextCheckTime = w.ticker.lastCheckTime ∧ w.pc.inImpl = true
  next_mem : w.requests ≠ [] → w.ticker.nextCheckTime ∈ w.requests

theorem inv_init (normalInterval errorInterval start : Nat) :
    Inv (init normalInterval errorInterval start) where
  requests_nil h := by cases h
  next_mem _ := by
    simp [init, newDefaultTicker, DefaultTicker.setNextCheckTime]

/-- Outside `TickImpl` something has been asked for. -/
theorem Inv.requests_ne_nil {w : World} (hs : Inv w) (hpc : w.pc.inImpl = false) :
    w.requests ≠ [] := by
  intro h
  rw [(hs.requests_nil h).2] at hpc
  cases hpc

/-- A request keeps the invariant: the next check time becomes `t` or stays a time asked for. -/
theorem Inv.request {w : World} (hs : Inv w) (t : Nat) : Inv (w.request t) where
  requests_nil h := by simp at h
  next_mem _ := by
    simp only [request_ticker, request_requests, List.mem_append, List.mem_singleton]
    rcases DefaultTicker.setNextCheckTime_nextCheckTime w.ticker t with ⟨h, -⟩ | ⟨h, hne, -⟩
    · exact .inr h
    · -- the time is kept only when something was asked for
      rw [h]
      by_cases hnil : w.requests = []
      · exact absurd (hs.requests_nil hnil).1 hne.symm
      · exact .inl (hs.next_mem hnil)

/-- The goroutine in `Tick` moving between places outside `TickImpl` keeps the invariant. -/
theorem Inv.setPc_outside {w : World} (hs : Inv w) (hpc : w.pc.inImpl = false) (p : TickPc) :
    Inv { w with pc := p } :=
  ⟨fun h => absurd h (hs.requests_ne_nil hpc), hs.next_mem⟩

theorem Inv.moves {req : World → Nat → Prop} {w w' : World} (hs : Inv w)
    (hm : Moves req w w') : Inv w' := by
  cases hm with
  | stay => exact hs
  | advance d => exact ⟨hs.requests_nil, hs.next_mem⟩
  | request t _ => exact hs.request t
  | tickNow hpc => exact hs.setPc_outside (by rw [hpc]; rfl) _
  | tickReturnsEarly τ hpc _ => exact hs.setPc_outside (by rw [hpc]; rfl) _
  | tickGoesOn τ hpc _ => exact hs.setPc_outside (by rw [hpc]; rfl) _
  | tickAdvance _ => exact ⟨fun _ => ⟨rfl, rfl⟩, fun h => (h rfl).elim⟩
  | tickImplReturns failed hpc =>
      refine ⟨fun h => ⟨(hs.requests_nil h).1, rfl⟩, hs.next_mem⟩
  | tickFollowUp failed _ =>
      have := hs.request (w.followUpTime failed)
      exact ⟨fun h => by simp at h, this.next_mem⟩

theorem inv_of_reachable {normalInterval errorInterval start : Nat} {w : World}
    (h : Reachable normalInterval errorInterval start w) : Inv w :=
  Transition.Reachable.inv (inv_init normalInterval errorInterval start)
    (fun _ _ _ hs ha hstep =>
      hs.moves (moves_of_step allowed_request ha hstep)) h

/-- A `Tick` whose clock reading is before every time asked for since `TickImpl` last
started, its own follow-up request included, returns without starting `TickImpl`. -/
theorem tick_waits_before_requests {normalInterval errorInterval start : Nat} {w : World}
    (h : Reachable normalInterval errorInterval start w) {τ : Nat} (hpc : w.pc = .checked τ)
    (hbefore : ∀ t ∈ w.requests, τ < t) : step w .tickRead = .ok { w with pc := .idle } := by
  have hs := inv_of_reachable h
  have hnext := hbefore _ (hs.next_mem (hs.requests_ne_nil (by rw [hpc]; rfl)))
  simp [step, hpc, DefaultTicker.getNextCheckTime, hnext]

/-! ## Under the strict contract no time asked for is passed over -/

/-- In the runs whose requests are strictly after the start of the latest `TickImpl`: the
next check time is after that start and no later than any time asked for since. -/
structure StrictInv (w : World) : Prop where
  last_le : w.ticker.lastCheckTime ≤ w.now
  normal_pos : 0 < w.ticker.normalInterval
  error_pos : 0 < w.ticker.errorInterval
  requests_nil : w.requests = [] →
    w.ticker.nextCheckTime = w.ticker.lastCheckTime ∧ w.pc.inImpl = true
  requests_ne_nil : w.requests ≠ [] →
    w.ticker.lastCheckTime < w.ticker.nextCheckTime ∧
      ∀ t ∈ w.requests, w.ticker.nextCheckTime ≤ t

theorem strictInv_init {normalInterval errorInterval start : Nat} (hn : 0 < normalInterval)
    (he : 0 < errorInterval) (hstart : 0 < start) :
    StrictInv (init normalInterval errorInterval start) where
  last_le := by simp [init, newDefaultTicker, DefaultTicker.setNextCheckTime]
  normal_pos := by simpa [init, newDefaultTicker] using hn
  error_pos := by simpa [init, newDefaultTicker] using he
  requests_nil h := by cases h
  requests_ne_nil _ := by
    simp [init, newDefaultTicker, DefaultTicker.setNextCheckTime, hstart]

/-- Outside `TickImpl` something has been asked for. -/
theorem StrictInv.requests_ne_nil_of_not_inImpl {w : World} (hs : StrictInv w)
    (hpc : w.pc.inImpl = false) : w.requests ≠ [] := by
  intro h
  rw [(hs.requests_nil h).2] at hpc
  cases hpc

/-- A request strictly after the start of the latest `TickImpl` keeps the invariant: the
next check time moves down to `t`, or stays at most `t`. -/
theorem StrictInv.request {w : World} (hs : StrictInv w) {t : Nat}
    (hlast : w.ticker.lastCheckTime < t) : StrictInv (w.request t) where
  last_le := by simpa using hs.last_le
  normal_pos := by simpa using hs.normal_pos
  error_pos := by simpa using hs.error_pos
  requests_nil h := by simp at h
  requests_ne_nil _ := by
    simp only [request_ticker, request_requests, DefaultTicker.setNextCheckTime_lastCheckTime,
      List.mem_append, List.mem_singleton]
    rcases DefaultTicker.setNextCheckTime_nextCheckTime w.ticker t with
      ⟨h, hjust | hbetween⟩ | ⟨h, hne, hle⟩ <;> rw [h]
    · -- the ticker had just checked, so nothing was asked for before
      have hnil : w.requests = [] := by
        by_cases hne : w.requests = []
        · exact hne
        · exact absurd hjust (Nat.ne_of_lt (hs.requests_ne_nil hne).1)
      simp [hnil, hlast]
    · refine ⟨hbetween.1, ?_⟩
      rintro t' (ht' | rfl)
      · exact Nat.le_trans (Nat.le_of_lt hbetween.2)
          ((hs.requests_ne_nil (List.ne_nil_of_mem ht')).2 t' ht')
      · exact Nat.le_refl _
    · have hnil : w.requests ≠ [] := fun hnil => hne (hs.requests_nil hnil).1.symm
      have hnext := (hs.requests_ne_nil hnil)
      refine ⟨hnext.1, ?_⟩
      rintro t' (ht' | rfl)
      · exact hnext.2 t' ht'
      · omega

/-- The follow-up request is an interval after the clock, so after the start of `TickImpl`. -/
theorem StrictInv.lastCheckTime_lt_followUpTime {w : World} (hs : StrictInv w)
    (failed : Bool) : w.ticker.lastCheckTime < w.followUpTime failed := by
  have := hs.last_le
  have := hs.normal_pos
  have := hs.error_pos
  unfold World.followUpTime
  split <;> omega

/-- The goroutine in `Tick` moving between places outside `TickImpl` keeps the invariant. -/
theorem StrictInv.setPc_outside {w : World} (hs : StrictInv w) (hpc : w.pc.inImpl = false)
    (p : TickPc) : StrictInv { w with pc := p } :=
  { hs with requests_nil := fun h => absurd h (hs.requests_ne_nil_of_not_inImpl hpc) }

theorem StrictInv.moves {w w' : World} (hs : StrictInv w)
    (hm : Moves (fun w t => w.now ≤ t ∧ w.ticker.lastCheckTime < t) w w') : StrictInv w' := by
  cases hm with
  | stay => exact hs
  | advance d =>
      exact { hs with last_le := Nat.le_trans hs.last_le (Nat.le_add_right _ d) }
  | request t ht => exact hs.request ht.2
  | tickNow hpc => exact hs.setPc_outside (by rw [hpc]; rfl) _
  | tickReturnsEarly τ hpc _ => exact hs.setPc_outside (by rw [hpc]; rfl) _
  | tickGoesOn τ hpc _ => exact hs.setPc_outside (by rw [hpc]; rfl) _
  | tickAdvance _ =>
      exact ⟨Nat.le_refl _, hs.normal_pos, hs.error_pos, fun _ => ⟨rfl, rfl⟩,
        fun h => (h rfl).elim⟩
  | tickImplReturns failed _ =>
      exact { hs with requests_nil := fun h => ⟨(hs.requests_nil h).1, rfl⟩ }
  | tickFollowUp failed _ =>
      have := hs.request (hs.lastCheckTime_lt_followUpTime failed)
      exact { this with requests_nil := fun h => by simp at h }

theorem strictInv_of_reachableStrictly {normalInterval errorInterval start : Nat}
    (hn : 0 < normalInterval) (he : 0 < errorInterval) (hstart : 0 < start) {w : World}
    (h : ReachableStrictly normalInterval errorInterval start w) : StrictInv w :=
  Transition.Reachable.inv (strictInv_init hn he hstart)
    (fun _ _ _ hs ha hstep =>
      hs.moves (moves_of_step allowedStrictly_request ha hstep)) h

/-- Under the strict contract, a `Tick` whose clock reading is at or after some time asked
for since `TickImpl` last started goes on to start it. -/
theorem tick_runs_after_request {normalInterval errorInterval start : Nat}
    (hn : 0 < normalInterval) (he : 0 < errorInterval) (hstart : 0 < start) {w : World}
    (h : ReachableStrictly normalInterval errorInterval start w) {τ t : Nat}
    (hpc : w.pc = .checked τ) (ht : t ∈ w.requests) (hle : t ≤ τ) :
    step w .tickRead = .ok { w with pc := .advancing } := by
  have hs := strictInv_of_reachableStrictly hn he hstart h
  have hnext : w.ticker.nextCheckTime ≤ τ :=
    Nat.le_trans ((hs.requests_ne_nil (List.ne_nil_of_mem ht)).2 t ht) hle
  simp [step, hpc, DefaultTicker.getNextCheckTime, Nat.not_lt.2 hnext]

/-- The fresh ticker at clock `1` with a request there and a `Tick` at that time. -/
theorem tick_runs_after_request_at_start :
    step (init 30000 10000 1) .tickNow = .ok { init 30000 10000 1 with pc := .checked 1 } ∧
      step { init 30000 10000 1 with pc := .checked 1 } .tickRead =
        .ok { init 30000 10000 1 with pc := .advancing } := by
  refine ⟨rfl, ?_⟩
  exact tick_runs_after_request (by decide) (by decide) (by decide)
    (.step .tickNow .init rfl rfl) rfl (List.mem_singleton_self 1) (Nat.le_refl 1)

/-! ## A request for the start of `TickImpl` is lost -/

/-- A ticker made at clock `1` runs `TickImpl`, which succeeds and asks for the next check
an interval later; then, still at clock `1`, a caller asks for a check now, and `Tick` runs. -/
def lostRequestTrace : List Action :=
  [.tickNow, .tickRead, .tickAdvance, .tickImplReturns false, .tickFollowUp,
    .setNextCheckTime 1, .tickNow]

/-- The world after `lostRequestTrace`: the request for `1` is recorded, the next check time
is the follow-up's. -/
def afterLostRequest : World :=
  { now := 1, ticker := ⟨1, 30001, 30000, 10000⟩, pc := .checked 1, requests := [30001, 1] }

/-- With a clock that has not moved since `TickImpl` started, a request for a check now is
dropped, and the `Tick` that reads the clock at the requested time returns without
`TickImpl`: the check waits for the normal interval. -/
theorem request_at_last_check_time_lost :
    Reachable 30000 10000 1 afterLostRequest ∧ afterLostRequest.pc = .checked 1 ∧
      1 ∈ afterLostRequest.requests ∧
      step afterLostRequest .tickRead = .ok { afterLostRequest with pc := .idle } := by
  have hrun : Transition.run step (init 30000 10000 1) lostRequestTrace = .ok afterLostRequest :=
    rfl
  exact ⟨Transition.reachable_run .init (by decide) hrun, rfl, by decide, rfl⟩

end Ticker

end Dm

end Jobmaster

end Microcosm
