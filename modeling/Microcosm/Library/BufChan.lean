import Mathlib.Data.List.Basic

/-!
# Buffered channels

A channel made by `make(chan T, cap)`, as the values it holds, oldest first, never more than
its capacity. The operations are those of a `select` with a `default` arm: `trySend` puts a
value at the back when there is room and reports `none` on a full channel, `tryRecv` takes
the oldest value and reports `none` on an empty one. A blocking receive is a step that is
taken only when `tryRecv` succeeds.

The spec lemmas say each outcome by the list of values, so that a model's proofs never
unfold the two operations.
-/

/-- A buffered channel of capacity `cap`. -/
structure BufChan (α : Type*) (cap : Nat) where
  items : List α
  length_le : items.length ≤ cap
  deriving DecidableEq

namespace BufChan

variable {α : Type*} {cap : Nat}

/-- The channel as `make` returns it. -/
def empty : BufChan α cap :=
  ⟨[], Nat.zero_le _⟩

/-- A send in a `select` with a `default` arm. -/
def trySend (c : BufChan α cap) (x : α) : Option (BufChan α cap) :=
  if h : c.items.length < cap then
    some ⟨c.items ++ [x], by rw [List.length_append, List.length_singleton]; omega⟩
  else none

/-- A receive in a `select` with a `default` arm. -/
def tryRecv : BufChan α cap → Option (α × BufChan α cap)
  | ⟨[], _⟩ => none
  | ⟨x :: xs, h⟩ => some (x, ⟨xs, Nat.le_of_succ_le h⟩)

@[ext] theorem ext {c c' : BufChan α cap} (h : c.items = c'.items) : c = c' := by
  cases c
  cases c'
  cases h
  rfl

@[simp] theorem empty_items : (empty : BufChan α cap).items = [] := rfl

theorem trySend_eq_some {c c' : BufChan α cap} {x : α} :
    c.trySend x = some c' ↔ c.items.length < cap ∧ c'.items = c.items ++ [x] := by
  unfold trySend
  split
  · rename_i h
    refine ⟨fun he => ⟨h, ?_⟩, fun ⟨_, he⟩ => congrArg some (ext he.symm)⟩
    cases he
    rfl
  · rename_i h
    exact ⟨nofun, fun ⟨hlt, _⟩ => absurd hlt h⟩

theorem trySend_eq_none {c : BufChan α cap} {x : α} :
    c.trySend x = none ↔ cap ≤ c.items.length := by
  unfold trySend
  split
  · rename_i h
    exact ⟨nofun, fun hle => absurd h (Nat.not_lt.2 hle)⟩
  · rename_i h
    exact ⟨fun _ => Nat.le_of_not_lt h, fun _ => rfl⟩

/-- A send that finds no room on a channel with room for one finds a value in it. -/
theorem items_ne_nil_of_trySend_eq_none {c : BufChan α cap} {x : α} (hcap : 0 < cap)
    (h : c.trySend x = none) : c.items ≠ [] := by
  intro hnil
  have := trySend_eq_none.1 h
  rw [hnil, List.length_nil] at this
  omega

theorem tryRecv_eq_some {c c' : BufChan α cap} {x : α} :
    c.tryRecv = some (x, c') ↔ c.items = x :: c'.items := by
  obtain ⟨items, h⟩ := c
  cases items with
  | nil => exact ⟨nofun, nofun⟩
  | cons y ys =>
      constructor
      · intro he
        cases he
        rfl
      · intro he
        obtain ⟨rfl, hys⟩ := List.cons_eq_cons.1 he
        exact congrArg (fun c => some (y, c)) (ext hys)

theorem tryRecv_eq_none {c : BufChan α cap} : c.tryRecv = none ↔ c.items = [] := by
  obtain ⟨items, h⟩ := c
  cases items with
  | nil => exact ⟨fun _ => rfl, fun _ => rfl⟩
  | cons y ys => exact ⟨nofun, nofun⟩

end BufChan
