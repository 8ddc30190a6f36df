import Mathlib.Data.List.Basic

/-!
# Unordered channels

Messages in flight between two processes are a list that the receiver may read in any
order: `take l i` takes the `i`-th message out, and `takeFirst p l` the first message
that satisfies `p`, as a caller takes the reply to its own request. Both split the list
around the message they take (`take_eq_some`, `takeFirst_eq_some`), and the lemmas say
what a split keeps: the other messages, and the absence of duplicates among the keys of
the messages.
-/

namespace Channel

variable {α β : Type*}

/-- Take the `i`-th message out of the channel. -/
def take (l : List α) (i : Nat) : Option (α × List α) :=
  match l[i]? with
  | some x => some (x, l.eraseIdx i)
  | none => none

/-- Take the first message that satisfies `p` out of the channel. -/
def takeFirst (p : α → Bool) : List α → Option (α × List α)
  | [] => none
  | x :: l => if p x then some (x, l) else (takeFirst p l).map fun yl => (yl.1, x :: yl.2)

theorem take_eq_some {l l' : List α} {i : Nat} {x : α} (h : take l i = some (x, l')) :
    ∃ l₁ l₂, l = l₁ ++ x :: l₂ ∧ l' = l₁ ++ l₂ := by
  unfold take at h
  split at h
  · rename_i hx
    cases h
    obtain ⟨hi, hx⟩ := List.getElem?_eq_some_iff.1 hx
    refine ⟨l.take i, l.drop (i + 1), ?_, List.eraseIdx_eq_take_drop_succ l i⟩
    conv_lhs => rw [← List.take_append_drop i l]
    rw [List.drop_eq_getElem_cons hi, hx]
  · cases h

theorem takeFirst_eq_some {p : α → Bool} :
    ∀ {l l' : List α} {x : α}, takeFirst p l = some (x, l') →
      p x = true ∧ ∃ l₁ l₂, l = l₁ ++ x :: l₂ ∧ l' = l₁ ++ l₂
  | [], _, _, h => by cases h
  | y :: l, l', x, h => by
      unfold takeFirst at h
      split at h
      · cases h
        exact ⟨‹_›, [], l, rfl, rfl⟩
      · cases hr : takeFirst p l with
        | none => rw [hr] at h; cases h
        | some r =>
            obtain ⟨z, l''⟩ := r
            rw [hr] at h
            cases h
            obtain ⟨hp, l₁, l₂, rfl, rfl⟩ := takeFirst_eq_some hr
            exact ⟨hp, y :: l₁, l₂, rfl, rfl⟩

section Split

variable {l₁ l₂ : List α} {x : α}

theorem mem_of_mem_split {y : α} (h : y ∈ l₁ ++ l₂) : y ∈ l₁ ++ x :: l₂ := by
  rcases List.mem_append.1 h with h | h
  · exact List.mem_append_left _ h
  · exact List.mem_append_right _ (List.mem_cons_of_mem _ h)

theorem mem_split : x ∈ l₁ ++ x :: l₂ :=
  List.mem_append_right _ List.mem_cons_self

/-- A message taken from a channel whose keys are distinct shares its key with none of the
messages left. -/
theorem key_ne_of_nodup {f : α → Option β} {k : β} (hnd : ((l₁ ++ x :: l₂).filterMap f).Nodup)
    (hx : f x = some k) {y : α} (hy : y ∈ l₁ ++ l₂) : f y ≠ some k := by
  intro hfy
  rw [List.filterMap_append, List.filterMap_cons, hx] at hnd
  obtain ⟨-, hnd₂, hdisj⟩ := List.nodup_append.1 hnd
  have hmem := List.mem_filterMap.2 ⟨y, hy, hfy⟩
  rw [List.filterMap_append, List.mem_append] at hmem
  rcases hmem with hmem | hmem
  · exact hdisj k hmem k List.mem_cons_self rfl
  · exact (List.nodup_cons.1 hnd₂).1 hmem

theorem nodup_of_split {f : α → Option β} (hnd : ((l₁ ++ x :: l₂).filterMap f).Nodup) :
    ((l₁ ++ l₂).filterMap f).Nodup := by
  apply List.Nodup.sublist _ hnd
  apply List.Sublist.filterMap
  exact (List.Sublist.refl l₁).append (List.sublist_cons_self x l₂)

theorem length_filter_split (p : α → Bool) :
    ((l₁ ++ x :: l₂).filter p).length = ((l₁ ++ l₂).filter p).length + if p x then 1 else 0 := by
  simp only [List.filter_append, List.filter_cons, List.length_append]
  split <;> simp [Nat.add_assoc]

end Split

end Channel
