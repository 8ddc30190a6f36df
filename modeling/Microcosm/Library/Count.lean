import Mathlib.Data.List.Range

/-!
# Counting the indices below a bound

A component that keeps one record per index below a bound counts, in its invariants, the
indices whose record has some property: `(List.range n).countP p`. The lemmas say how such a
count moves when the bound grows by one and when the property changes at one index only; a
change at an index is `(p i).toNat`, one or zero.
-/

namespace Count

theorem countP_range_succ (p : Nat → Bool) (n : Nat) :
    (List.range (n + 1)).countP p = (List.range n).countP p + (p n).toNat := by
  rw [List.range_succ, List.countP_append]
  by_cases hp : p n <;> simp [hp]

theorem countP_range_congr {p q : Nat → Bool} {n : Nat} (h : ∀ i < n, p i = q i) :
    (List.range n).countP p = (List.range n).countP q :=
  List.countP_congr fun i hi => by rw [h i (List.mem_range.1 hi)]

/-- Changing the property at one index below the bound moves the count by the change
there. -/
theorem countP_range_update {p q : Nat → Bool} {n i : Nat} (hi : i < n)
    (h : ∀ j, j ≠ i → p j = q j) :
    (List.range n).countP q + (p i).toNat = (List.range n).countP p + (q i).toNat := by
  induction n with
  | zero => omega
  | succ n ih =>
      rw [countP_range_succ, countP_range_succ]
      by_cases hin : i = n
      · -- the index is the last one: the counts below agree
        subst hin
        rw [countP_range_congr (fun j hj => h j (by omega))]
        omega
      · have := ih (by omega)
        rw [h n (Ne.symm hin)]
        omega

/-- A count is positive when the property holds at an index below the bound. -/
theorem countP_range_pos {p : Nat → Bool} {n i : Nat} (hi : i < n) (hp : p i = true) :
    0 < (List.range n).countP p :=
  List.countP_pos_iff.2 ⟨i, List.mem_range.2 hi, hp⟩

end Count
