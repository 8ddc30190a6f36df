import Mathlib.Data.List.Lex

/-!
# Key intervals under a common prefix

Keys are lists compared lexicographically, as byte strings are by a key-value store. A
range `[lo, hi)` whose two bounds share a prefix `p` holds only keys with the prefix
`p`, and a key `p ++ x` lies in it exactly when `x` lies between the rests of the bounds
(`between_append_iff`). The same holds when the upper bound is the least key above all
keys with the prefix, which for bytes is the prefix with its last byte incremented
(`between_succ_iff`). Together they say that putting a prefix in front of both ends of a
range puts it in front of every key of the range, and of no other key.
-/

namespace KeyRange

section Order

variable {α : Type*} [LT α] [Std.Irrefl (· < · : α → α → Prop)]

theorem append_lt_append_left_iff (p : List α) {x y : List α} : p ++ x < p ++ y ↔ x < y := by
  induction p with
  | nil => rfl
  | cons a p ih =>
      rw [List.cons_append, List.cons_append, List.cons_lt_cons_iff, ih]
      simp [Std.Irrefl.irrefl a]

theorem append_le_append_left_iff (p : List α) {x y : List α} : p ++ x ≤ p ++ y ↔ x ≤ y :=
  not_congr (append_lt_append_left_iff p)

/-- Between two bounds with the prefix `p` lie the keys `p ++ x` with `x` between the rests
of the bounds, and no other key. -/
theorem between_append_iff (p : List α) {k e y : List α} :
    p ++ k ≤ y ∧ y < p ++ e ↔ ∃ x, y = p ++ x ∧ k ≤ x ∧ x < e := by
  constructor
  · rintro ⟨hle, hlt⟩
    induction p generalizing y with
    | nil => exact ⟨y, rfl, hle, hlt⟩
    | cons a p ih =>
        cases y with
        | nil => exact absurd (List.nil_lt_cons _ _) hle
        | cons c y =>
            rw [List.cons_append, List.cons_lt_cons_iff] at hlt
            -- `a :: (p ++ k) ≤ c :: y`: the heads agree or `c` is above `a`
            have hle' : ¬ (c < a ∨ c = a ∧ y < p ++ k) := fun h =>
              hle (List.cons_lt_cons_iff.2 h)
            rcases hlt with hca | ⟨rfl, hy⟩
            · exact absurd (.inl hca) hle'
            · obtain ⟨x, rfl, hk, he⟩ := ih (fun h => hle' (.inr ⟨rfl, h⟩)) hy
              exact ⟨x, rfl, hk, he⟩
  · rintro ⟨x, rfl, hk, he⟩
    exact ⟨(append_le_append_left_iff p).2 hk, (append_lt_append_left_iff p).2 he⟩

end Order

section Bytes

/-- Between `q ++ b :: k` and `q ++ [b + 1]` lie the keys `q ++ b :: x` with `k ≤ x`: the
upper bound is the least key above every key with the prefix `q ++ [b]`. -/
theorem between_succ_iff {q k y : List UInt8} {b : UInt8} (hb : b < 0xff) :
    q ++ b :: k ≤ y ∧ y < q ++ [b + 1] ↔ ∃ x, y = q ++ b :: x ∧ k ≤ x := by
  rw [between_append_iff q]
  constructor
  · rintro ⟨z, rfl, hk, he⟩
    cases z with
    | nil => exact absurd (List.nil_lt_cons _ _) hk
    | cons c x =>
        rw [List.cons_lt_cons_iff] at he
        have hk' : ¬ (c < b ∨ c = b ∧ x < k) := fun h => hk (List.cons_lt_cons_iff.2 h)
        -- `b ≤ c < b + 1` leaves `c = b`
        have hc : c = b := by
          rcases he with he | ⟨rfl, hx⟩
          · grind
          · exact absurd hx (List.not_lt_nil x)
        subst hc
        exact ⟨x, rfl, fun h => hk' (.inr ⟨rfl, h⟩)⟩
  · rintro ⟨x, rfl, hk⟩
    refine ⟨b :: x, rfl, ?_, ?_⟩
    · intro h
      rw [List.cons_lt_cons_iff] at h
      rcases h with h | ⟨-, h⟩
      · exact absurd h (Std.Irrefl.irrefl b)
      · exact hk h
    · exact List.cons_lt_cons_iff.2 (.inl (by grind))

end Bytes

end KeyRange
