import Mathlib.Logic.Basic

/-!
# Machines that answer each call

A server that handles one request at a time is a machine `step : σ → α → σ × β`: a call moves
the state and is answered. `stateAfter` is the state after a list of calls and `answers` the
list of their answers, one for each call. An invariant that every call of a kind keeps
holds after every list of such calls (`stateAfter_inv`), and so does what it says of their
answers (`answers_inv`).

Two machines are compared by a forward simulation: a map `f` from the states of the one to the
states of the other, such that on the states of an invariant `I` a step of the second machine
from `f s` is the image of the first machine's step from `s`, with the same answer. Then the two
give the same answers to every list of calls, and `f` carries the final state over
(`answers_map`, `stateAfter_map`).
-/

namespace Machine

variable {σ τ α β : Type*}

/-- The state after a list of calls. -/
def stateAfter (step : σ → α → σ × β) : σ → List α → σ
  | s, [] => s
  | s, a :: as => stateAfter step (step s a).1 as

/-- The answers to a list of calls, in order. -/
def answers (step : σ → α → σ × β) : σ → List α → List β
  | _, [] => []
  | s, a :: as => (step s a).2 :: answers step (step s a).1 as

variable {step : σ → α → σ × β}

@[simp] theorem stateAfter_nil (s : σ) : stateAfter step s [] = s := rfl

@[simp] theorem stateAfter_cons (s : σ) (a : α) (as : List α) :
    stateAfter step s (a :: as) = stateAfter step (step s a).1 as := rfl

@[simp] theorem answers_nil (s : σ) : answers step s [] = [] := rfl

@[simp] theorem answers_cons (s : σ) (a : α) (as : List α) :
    answers step s (a :: as) = (step s a).2 :: answers step (step s a).1 as := rfl

/-- The invariant rule: a property that every call of a kind keeps holds after every list of
calls of that kind. -/
theorem stateAfter_inv {I : σ → Prop} {good : α → Prop}
    (hI : ∀ s a, good a → I s → I (step s a).1) :
    ∀ {s : σ} {as : List α}, (∀ a ∈ as, good a) → I s → I (stateAfter step s as)
  | _, [], _, hs => hs
  | s, a :: as, hgood, hs => by
      rw [stateAfter_cons]
      exact stateAfter_inv hI (fun b hb => hgood b (List.mem_cons_of_mem a hb))
        (hI s a (hgood a List.mem_cons_self) hs)

/-- The answer rule: when every call of a kind keeps an invariant and is answered as `Q`
says from a state of the invariant, every call of a list of such calls is. -/
theorem answers_inv {I : σ → Prop} {good : α → Prop} {Q : α → β → Prop}
    (hI : ∀ s a, good a → I s → I (step s a).1) (hQ : ∀ s a, good a → I s → Q a (step s a).2) :
    ∀ {s : σ} {as : List α}, (∀ a ∈ as, good a) → I s →
      ∀ p ∈ as.zip (answers step s as), Q p.1 p.2
  | _, [], _, _ => by simp
  | s, a :: as, hgood, hs => by
      rw [answers_cons, List.zip_cons_cons]
      intro p hp
      rcases List.mem_cons.1 hp with rfl | hp
      · exact hQ s a (hgood a List.mem_cons_self) hs
      · exact answers_inv hI hQ (fun b hb => hgood b (List.mem_cons_of_mem a hb))
          (hI s a (hgood a List.mem_cons_self) hs) p hp

section Simulation

variable {step' : τ → α → τ × β} {I : σ → Prop} (f : σ → τ)
  (hI : ∀ s a, I s → I (step s a).1)
  (hsim : ∀ s a, I s → step' (f s) a = (f (step s a).1, (step s a).2))
include hI hsim

/-- A forward simulation carries the state after every list of calls. -/
theorem stateAfter_map : ∀ {s : σ} (as : List α), I s →
    stateAfter step' (f s) as = f (stateAfter step s as)
  | _, [], _ => rfl
  | s, a :: as, hs => by
      rw [stateAfter_cons, hsim s a hs, stateAfter_cons]
      exact stateAfter_map as (hI s a hs)

/-- Machines related by a forward simulation give the same answers to every list of calls. -/
theorem answers_map : ∀ {s : σ} (as : List α), I s →
    answers step' (f s) as = answers step s as
  | _, [], _ => rfl
  | s, a :: as, hs => by
      rw [answers_cons, hsim s a hs, answers_cons]
      exact congrArg _ (answers_map as (hI s a hs))

end Simulation

end Machine
