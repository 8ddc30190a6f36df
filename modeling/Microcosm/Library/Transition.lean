import Mathlib.Logic.Basic

/-!
# Runs of a fallible transition function

A component is a step function `step : σ → α → Except ε σ`: an action either moves the
state or stops the program with an error of `ε`, which stands for a panic of the
modelled code. The environment chooses the actions. Where the modelled caller is under
a contract that the step function itself does not check (an iteration order that must
enumerate a map, say), `allowed s a` says whether `a` may be taken in `s`.

`Reachable` collects the states of all runs and `Reachable.inv` is the invariant rule.
`run` executes a list of actions, and `reachable_run` turns a concrete run into a
reachable state, so that a fixed trace can be checked by evaluation. A panic is reached
when a reachable state, on an allowed action, steps to an error: `PanicReachable`, with
the rule `not_panicReachable` that excludes it through an invariant and the rule
`panicReachable_run` that exhibits it through a trace.
-/

namespace Transition

variable {σ α ε : Type*}

/-- The states reachable from `init` through successful steps of allowed actions. -/
inductive Reachable (step : σ → α → Except ε σ) (allowed : σ → α → Bool) (init : σ) :
    σ → Prop
  | init : Reachable step allowed init init
  | step {s s' : σ} (a : α) : Reachable step allowed init s → allowed s a = true →
      step s a = .ok s' → Reachable step allowed init s'

/-- The invariant rule: a property of `init` that every allowed successful step
preserves holds in every reachable state. -/
theorem Reachable.inv {step : σ → α → Except ε σ} {allowed : σ → α → Bool} {init : σ}
    {P : σ → Prop} (h0 : P init)
    (hstep : ∀ s a s', P s → allowed s a = true → step s a = .ok s' → P s')
    {s : σ} (h : Reachable step allowed init s) : P s := by
  induction h with
  | init => exact h0
  | step a _ ha hs ih => exact hstep _ a _ ih ha hs

/-- The invariant rule for a property whose preservation needs an invariant proved
before it. -/
theorem Reachable.inv_of {step : σ → α → Except ε σ} {allowed : σ → α → Bool}
    {init : σ} {I P : σ → Prop} (hI : ∀ s, Reachable step allowed init s → I s)
    (h0 : P init)
    (hstep : ∀ s a s', I s → P s → allowed s a = true → step s a = .ok s' → P s')
    {s : σ} (h : Reachable step allowed init s) : P s := by
  induction h with
  | init => exact h0
  | step a hr ha hs ih => exact hstep _ a _ (hI _ hr) ih ha hs

/-- Executing a list of actions; the first error stops the run. -/
def run (step : σ → α → Except ε σ) : σ → List α → Except ε σ
  | s, [] => .ok s
  | s, a :: as =>
      match step s a with
      | .ok s' => run step s' as
      | .error e => .error e

-- Many proofs below unfold this definition, and Lean elaborates them in parallel: the empty
-- section generates its equation lemmas here, once, so that the proofs do not all wait on it.
-- The simp set outside the section is unchanged.
section
attribute [local simp] run
end

/-- Every action of the list is allowed in the state it is taken from, up to the
action that fails, if one does. -/
def allowedAlong (step : σ → α → Except ε σ) (allowed : σ → α → Bool) :
    σ → List α → Bool
  | _, [] => true
  | s, a :: as =>
      allowed s a &&
        match step s a with
        | .ok s' => allowedAlong step allowed s' as
        | .error _ => true

section
attribute [local simp] allowedAlong
end

@[simp] theorem run_nil (step : σ → α → Except ε σ) (s : σ) : run step s [] = .ok s :=
  rfl

theorem run_cons_ok {step : σ → α → Except ε σ} {s s' : σ} {a : α} (as : List α)
    (h : step s a = .ok s') : run step s (a :: as) = run step s' as := by
  simp [run, h]

theorem run_cons_error {step : σ → α → Except ε σ} {s : σ} {a : α} {e : ε} (as : List α)
    (h : step s a = .error e) : run step s (a :: as) = .error e := by
  simp [run, h]

/-- A run that ends well goes on with the rest of the actions from where it ended. -/
theorem run_append_of_ok {step : σ → α → Except ε σ} :
    ∀ {s t : σ} {as : List α}, run step s as = .ok t → ∀ bs, run step s (as ++ bs) = run step t bs
  | s, t, [], h, bs => by
      simp only [run_nil, Except.ok.injEq] at h
      rw [h, List.nil_append]
  | s, t, a :: as, h, bs => by
      cases hsa : step s a with
      | error e =>
          rw [run_cons_error as hsa] at h
          cases h
      | ok s' =>
          rw [run_cons_ok as hsa] at h
          rw [List.cons_append, run_cons_ok _ hsa]
          exact run_append_of_ok h bs

/-- A reflexive and transitive relation that every successful step establishes between
its two states holds between the two ends of every run. -/
theorem run_rel {step : σ → α → Except ε σ} {R : σ → σ → Prop} (hrefl : ∀ s, R s s)
    (htrans : ∀ s t u, R s t → R t u → R s u) (hstep : ∀ s a t, step s a = .ok t → R s t) :
    ∀ {s t : σ} {as : List α}, run step s as = .ok t → R s t
  | s, t, [], hr => by
      simp only [run_nil, Except.ok.injEq] at hr
      exact hr ▸ hrefl s
  | s, t, a :: as, hr => by
      cases hsa : step s a with
      | error e =>
          rw [run_cons_error as hsa] at hr
          cases hr
      | ok s' =>
          rw [run_cons_ok as hsa] at hr
          exact htrans _ _ _ (hstep s a s' hsa) (run_rel hrefl htrans hstep hr)

/-- The actions after a run that ends well are allowed from where it ended. -/
theorem allowedAlong_append_of_ok {step : σ → α → Except ε σ} {allowed : σ → α → Bool} :
    ∀ {s t : σ} {as : List α}, run step s as = .ok t → ∀ bs,
      allowedAlong step allowed s (as ++ bs) = true → allowedAlong step allowed t bs = true
  | s, t, [], h, bs, hal => by
      simp only [run_nil, Except.ok.injEq] at h
      rw [← h]
      exact hal
  | s, t, a :: as, h, bs, hal => by
      cases hsa : step s a with
      | error e =>
          rw [run_cons_error as hsa] at h
          cases h
      | ok s' =>
          rw [run_cons_ok as hsa] at h
          simp only [List.cons_append, allowedAlong, Bool.and_eq_true, hsa] at hal
          exact allowedAlong_append_of_ok h bs hal.2

/-- A property that every step of a `good` action keeps, in the states of an invariant that
every step keeps, holds at the end of every run of `good` actions. -/
theorem run_preserves {step : σ → α → Except ε σ} {I P : σ → Prop} {good : α → Prop}
    (hI : ∀ s a t, I s → step s a = .ok t → I t)
    (hP : ∀ s a t, I s → P s → good a → step s a = .ok t → P t) :
    ∀ {s t : σ} {as : List α}, I s → P s → (∀ a ∈ as, good a) → run step s as = .ok t → P t
  | s, t, [], _, hp, _, hr => by
      simp only [run_nil, Except.ok.injEq] at hr
      exact hr ▸ hp
  | s, t, a :: as, hi, hp, hgood, hr => by
      cases hsa : step s a with
      | error e =>
          rw [run_cons_error as hsa] at hr
          cases hr
      | ok s' =>
          rw [run_cons_ok as hsa] at hr
          exact run_preserves hI hP (hI s a s' hi hsa)
            (hP s a s' hi hp (hgood a (List.mem_cons_self ..)) hsa)
            (fun b hb => hgood b (List.mem_cons_of_mem _ hb)) hr

/-- A run of allowed actions from a reachable state ends in a reachable state. -/
theorem reachable_run {step : σ → α → Except ε σ} {allowed : σ → α → Bool} {init : σ} :
    ∀ {s t : σ} {as : List α}, Reachable step allowed init s →
      allowedAlong step allowed s as = true → run step s as = .ok t →
      Reachable step allowed init t
  | s, t, [], hs, _, hr => by
      simp only [run_nil, Except.ok.injEq] at hr
      exact hr ▸ hs
  | s, t, a :: as, hs, hal, hr => by
      simp only [allowedAlong, Bool.and_eq_true] at hal
      cases hsa : step s a with
      | error e =>
          rw [run_cons_error as hsa] at hr
          cases hr
      | ok s' =>
          rw [hsa] at hal
          rw [run_cons_ok as hsa] at hr
          exact reachable_run (Reachable.step a hs hal.1 hsa) hal.2 hr

/-- Some reachable state steps, on an allowed action, to an error that satisfies
`bad`. -/
def PanicReachable (step : σ → α → Except ε σ) (allowed : σ → α → Bool) (init : σ)
    (bad : ε → Prop) : Prop :=
  ∃ s a e, Reachable step allowed init s ∧ allowed s a = true ∧
    step s a = .error e ∧ bad e

/-- An invariant under which no allowed action fails with a `bad` error rules out
every `bad` panic. -/
theorem not_panicReachable {step : σ → α → Except ε σ} {allowed : σ → α → Bool}
    {init : σ} {bad : ε → Prop} {P : σ → Prop}
    (hP : ∀ s, Reachable step allowed init s → P s)
    (hsafe : ∀ s a e, P s → allowed s a = true → step s a = .error e → ¬ bad e) :
    ¬ PanicReachable step allowed init bad := by
  rintro ⟨s, a, e, hs, ha, he, hbad⟩
  exact hsafe s a e (hP s hs) ha he hbad

/-- A trace of allowed actions from a reachable state that stops with a `bad` error
exhibits a `bad` panic. -/
theorem panicReachable_run {step : σ → α → Except ε σ} {allowed : σ → α → Bool}
    {init : σ} {bad : ε → Prop} :
    ∀ {s : σ} {as : List α} {e : ε}, Reachable step allowed init s →
      allowedAlong step allowed s as = true → run step s as = .error e → bad e →
      PanicReachable step allowed init bad
  | s, [], e, _, _, hr, _ => by simp at hr
  | s, a :: as, e, hs, hal, hr, hbad => by
      simp only [allowedAlong, Bool.and_eq_true] at hal
      cases hsa : step s a with
      | error e' =>
          rw [run_cons_error as hsa] at hr
          cases hr
          exact ⟨s, a, e, hs, hal.1, hsa, hbad⟩
      | ok s' =>
          rw [hsa] at hal
          rw [run_cons_ok as hsa] at hr
          exact panicReachable_run (Reachable.step a hs hal.1 hsa) hal.2 hr hbad

end Transition
