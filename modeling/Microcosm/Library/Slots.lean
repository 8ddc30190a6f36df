import Mathlib.Data.List.Basic

/-!
# Slots

A list used as a table of slots: the goroutines of one kind, or the objects a program
allocates one after another, the `i`-th at index `i`. `Slots.All P l` says that every slot
satisfies `P` at its index. The lemmas say how writing one slot and allocating one at the end
keep it, so that an invariant of a system with such tables is proved slot by slot.
-/

namespace Slots

variable {α : Type*}

/-- Every slot of `l` satisfies `P` at its index. -/
def All (P : Nat → α → Prop) (l : List α) : Prop :=
  ∀ j a, l[j]? = some a → P j a

variable {P Q : Nat → α → Prop} {l : List α}

theorem getElem?_set_eq_some {k j : Nat} {a b : α} :
    (l.set k a)[j]? = some b ↔ (j = k ∧ k < l.length ∧ b = a) ∨ (j ≠ k ∧ l[j]? = some b) := by
  rw [List.getElem?_set]
  by_cases hkj : k = j
  · subst hkj
    by_cases hk : k < l.length
    · simp [hk, eq_comm]
    · simp [hk]
  · simp [hkj, Ne.symm hkj]

/-- Writing slot `k` keeps the property when the new value has it at `k`. -/
theorem All.set (h : All P l) {k : Nat} {a : α} (ha : k < l.length → P k a) :
    All P (l.set k a) := by
  intro j b hj
  rcases getElem?_set_eq_some.1 hj with ⟨rfl, hk, rfl⟩ | ⟨-, hj⟩
  · exact ha hk
  · exact h j b hj

/-- Allocating a slot keeps the property when the new value has it at its index. -/
theorem All.append_singleton (h : All P l) {a : α} (ha : P l.length a) : All P (l ++ [a]) := by
  intro j b hj
  rw [List.getElem?_append] at hj
  split at hj
  · exact h j b hj
  · rename_i hle
    rw [List.getElem?_singleton] at hj
    split at hj
    · rename_i hz
      cases hj
      have : j = l.length := by omega
      rw [this]
      exact ha
    · cases hj

theorem All.imp (h : All P l) (himp : ∀ j a, l[j]? = some a → P j a → Q j a) : All Q l :=
  fun j a hj => himp j a hj (h j a hj)

theorem all_nil : All P ([] : List α) :=
  fun _ _ h => by cases h

theorem all_replicate {n : Nat} {a : α} (ha : ∀ j, j < n → P j a) : All P (List.replicate n a) := by
  intro j b hj
  rw [List.getElem?_replicate] at hj
  split at hj
  · rename_i hlt
    cases hj
    exact ha j hlt
  · cases hj

end Slots
