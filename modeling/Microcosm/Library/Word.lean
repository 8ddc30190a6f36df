import Mathlib.Data.List.Basic

/-!
# Which letters of a word come before which

A log of events, read as a word over the kinds of the events, has an ordering property
when no letter `b` stands after a letter `a`. `Precedes a b w` says that some `a` of `w`
stands before some `b`, that is `[a, b]` is a sublist of `w`; the property is then
`¬ Precedes a b w`.

Logs grow by appending a letter and shrink by dropping letters, so the lemmas say how
`Precedes` behaves under `w ++ [c]` and under sublists.

`Since a kill w` is the past-time "since" of temporal logic on a finite word: some `a`
stands in `w` and no letter after it satisfies `kill`. A request that is still open in a
log of requests and of the events that close them is such a letter. A log read by position
names its entries by their index, which a growing log keeps.
-/

namespace Word

variable {α : Type*}

/-- Some occurrence of `a` in `w` stands before some occurrence of `b`. -/
def Precedes (a b : α) (w : List α) : Prop :=
  [a, b].Sublist w

instance [DecidableEq α] (a b : α) (w : List α) : Decidable (Precedes a b w) :=
  inferInstanceAs (Decidable ([a, b].Sublist w))

theorem precedes_append_singleton {a b c : α} {w : List α} :
    Precedes a b (w ++ [c]) ↔ Precedes a b w ∨ (a ∈ w ∧ b = c) := by
  unfold Precedes
  rw [List.sublist_append_iff]
  constructor
  · rintro ⟨l₁, l₂, h, h₁, h₂⟩
    rcases List.sublist_singleton.1 h₂ with rfl | rfl
    · rw [List.append_nil] at h
      exact .inl (h ▸ h₁)
    · -- `[a, b] = l₁ ++ [c]` leaves only `l₁ = [a]`
      have hl : l₁ = [a] ∧ b = c := by
        rcases l₁ with _ | ⟨x, _ | ⟨y, l⟩⟩ <;> simp_all
      obtain ⟨rfl, rfl⟩ := hl
      exact .inr ⟨List.singleton_sublist.1 h₁, rfl⟩
  · rintro (h | ⟨ha, rfl⟩)
    · exact ⟨[a, b], [], by simp, h, List.nil_sublist _⟩
    · exact ⟨[a], [b], rfl, List.singleton_sublist.2 ha, List.Sublist.refl _⟩

/-- Appending a letter creates no new `a`-before-`b` unless it is a `b` behind an `a`. -/
theorem not_precedes_append_singleton {a b c : α} {w : List α} (h : ¬ Precedes a b w)
    (hc : a ∈ w → b ≠ c) : ¬ Precedes a b (w ++ [c]) := by
  rw [precedes_append_singleton]
  rintro (hw | ⟨ha, hbc⟩)
  · exact h hw
  · exact hc ha hbc

theorem Precedes.mono {a b : α} {w w' : List α} (h : Precedes a b w) (hw : w.Sublist w') :
    Precedes a b w' :=
  List.Sublist.trans h hw

theorem Precedes.left_mem {a b : α} {w : List α} (h : Precedes a b w) : a ∈ w :=
  List.Sublist.subset h (by simp)

theorem not_precedes_of_not_mem {a b : α} {w : List α} (h : a ∉ w) : ¬ Precedes a b w :=
  fun hp => h hp.left_mem

/-- Some `a` stands in `w` with no letter satisfying `kill` after it. -/
def Since (a : α) (kill : α → Prop) (w : List α) : Prop :=
  ∃ pre post, w = pre ++ a :: post ∧ ∀ c ∈ post, ¬ kill c

section Since

variable {a c : α} {kill : α → Prop} {w : List α}

theorem not_since_nil : ¬ Since a kill [] := by
  rintro ⟨pre, post, h, -⟩
  simp at h

/-- The step rule of `Since`: the new letter is an `a`, or the old word had an open `a` and
the new letter does not close it. -/
theorem since_append_singleton :
    Since a kill (w ++ [c]) ↔ c = a ∨ (Since a kill w ∧ ¬ kill c) := by
  constructor
  · rintro ⟨pre, post, h, hpost⟩
    rcases List.eq_nil_or_concat post with rfl | ⟨post', d, rfl⟩
    · -- the `a` is the last letter
      obtain ⟨-, hca⟩ := List.append_inj' h rfl
      exact .inl (List.singleton_inj.1 hca)
    · have h' : w ++ [c] = (pre ++ a :: post') ++ [d] := by simpa using h
      obtain ⟨rfl, hcd⟩ := List.append_inj' h' rfl
      obtain rfl := List.singleton_inj.1 hcd
      exact .inr ⟨⟨pre, post', rfl, fun x hx => hpost x (by simp [hx])⟩,
        hpost _ (by simp)⟩
  · rintro (rfl | ⟨⟨pre, post, rfl, hpost⟩, hc⟩)
    · exact ⟨w, [], rfl, by simp⟩
    · refine ⟨pre, post ++ [c], by simp, fun x hx => ?_⟩
      rcases List.mem_append.1 hx with hx | hx
      · exact hpost x hx
      · rw [List.mem_singleton.1 hx]
        exact hc

theorem Since.append_singleton (h : Since a kill w) (hc : ¬ kill c) :
    Since a kill (w ++ [c]) :=
  since_append_singleton.2 (.inr ⟨h, hc⟩)

theorem not_since_append_singleton (hc : kill c) (hca : c ≠ a) :
    ¬ Since a kill (w ++ [c]) := by
  rw [since_append_singleton]
  rintro (h | ⟨-, h⟩)
  · exact hca h
  · exact h hc

theorem Since.mem (h : Since a kill w) : a ∈ w := by
  obtain ⟨pre, post, rfl, -⟩ := h
  simp

end Since

/-- A letter read at a position of a log that grew by one letter: it was there before, or it
is the new letter, at the old length. -/
theorem getElem?_append_singleton_eq_some {w : List α} {c a : α} {n : Nat} :
    (w ++ [c])[n]? = some a ↔ w[n]? = some a ∨ (n = w.length ∧ c = a) := by
  rw [List.getElem?_append]
  by_cases hn : n < w.length
  · simp only [hn, if_true]
    constructor
    · exact .inl
    · rintro (h | ⟨rfl, -⟩)
      · exact h
      · omega
  · have hnone : w[n]? = none := List.getElem?_eq_none (by omega)
    simp only [hn, if_false, hnone, reduceCtorEq, false_or]
    rw [List.getElem?_singleton]
    constructor
    · intro h
      split at h
      · exact ⟨by omega, Option.some.inj h⟩
      · cases h
    · rintro ⟨rfl, rfl⟩
      simp

end Word
