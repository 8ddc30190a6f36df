import Mathlib.Data.List.AList

/-!
# Lookups in association lists after a write

A Go map is an `AList` here. The lemmas read a successful lookup after `insert` or
`erase` back to the map before the write, in the form the invariant proofs of a map
case-split on, and say what a map built by a loop of writes holds.
-/

namespace Map

variable {α : Type*} [DecidableEq α] {β : α → Type*}

theorem mem_of_lookup_eq_some {s : AList β} {k : α} {v : β k} (h : s.lookup k = some v) :
    k ∈ s :=
  AList.lookup_isSome.1 (by rw [h]; rfl)

theorem lookup_erase_eq_some {s : AList β} {k id : α} {v : β id}
    (h : (s.erase k).lookup id = some v) : id ≠ k ∧ s.lookup id = some v := by
  by_cases hid : id = k
  · subst hid
    rw [AList.lookup_erase] at h
    cases h
  · rw [AList.lookup_erase_ne hid] at h
    exact ⟨hid, h⟩

theorem lookup_insert_eq_some {γ : Type*} {s : AList (fun _ : α => γ)} {k id : α} {v' v : γ}
    (h : (s.insert k v').lookup id = some v) :
    (id = k ∧ v = v') ∨ (id ≠ k ∧ s.lookup id = some v) := by
  by_cases hid : id = k
  · subst hid
    rw [AList.lookup_insert, Option.some.injEq] at h
    exact .inl ⟨rfl, h.symm⟩
  · rw [AList.lookup_insert_ne hid] at h
    exact .inr ⟨hid, h⟩

/-- Deleting a key just written deletes it from the map before the write. -/
theorem erase_insert_self (s : AList β) (a : α) (b : β a) : (s.insert a b).erase a = s.erase a := by
  apply AList.ext
  change List.kerase a (s.insert a b).entries = List.kerase a s.entries
  rw [AList.entries_insert, List.kerase_cons_eq (s := ⟨a, b⟩) rfl]

/-- Writing a key the map already has adds no key. -/
theorem mem_insert_of_mem {γ : Type*} {s : AList (fun _ : α => γ)} {k a : α} {v : γ}
    (hk : k ∈ s) : a ∈ s.insert k v ↔ a ∈ s := by
  rw [AList.mem_insert]
  constructor
  · rintro (rfl | ha)
    · exact hk
    · exact ha
  · exact .inr

/-- Writing the value a key already has changes no lookup. -/
theorem lookup_insert_self {γ : Type*} {s : AList (fun _ : α => γ)} {k : α} {v : γ}
    (hk : s.lookup k = some v) (a : α) : (s.insert k v).lookup a = s.lookup a := by
  by_cases ha : a = k
  · subst ha
    rw [AList.lookup_insert, hk]
  · rw [AList.lookup_insert_ne ha]

/-- No two keys of the map have the same value. -/
def Injective {γ : Type*} (s : AList (fun _ : α => γ)) : Prop :=
  ∀ k k' v, s.lookup k = some v → s.lookup k' = some v → k = k'

section Injective

variable {γ : Type*} {s : AList (fun _ : α => γ)}

theorem injective_empty : Injective (∅ : AList (fun _ : α => γ)) := by
  intro k k' v hk
  simp at hk

/-- A value no key has yet can be given to any key. -/
theorem Injective.insert (h : Injective s) {k : α} {v : γ} (hv : ∀ k', s.lookup k' ≠ some v) :
    Injective (s.insert k v) := by
  intro a a' w ha ha'
  rcases lookup_insert_eq_some ha with ⟨hak, hw⟩ | ⟨-, ha⟩ <;>
    rcases lookup_insert_eq_some ha' with ⟨hak', hw'⟩ | ⟨-, ha'⟩
  · exact hak.trans hak'.symm
  · exact absurd ha' (hw ▸ hv a')
  · exact absurd ha (hw' ▸ hv a)
  · exact h a a' w ha ha'

theorem Injective.erase (h : Injective s) (k : α) : Injective (s.erase k) := by
  intro a a' w ha ha'
  exact h a a' w (lookup_erase_eq_some ha).2 (lookup_erase_eq_some ha').2

/-- Once the key holding a value is erased, no key holds it. -/
theorem Injective.lookup_erase_ne (h : Injective s) {k : α} {v : γ} (hk : s.lookup k = some v)
    (k' : α) : (s.erase k).lookup k' ≠ some v := by
  intro hk'
  obtain ⟨hne, hk'⟩ := lookup_erase_eq_some hk'
  exact hne (h k' k v hk' hk)

end Injective

section Build

variable {γ δ : Type*} (key : δ → α) (val : δ → γ)

/-- The keys of a map built by writing every element of a list under its key: those it
started with and the keys of the elements. -/
theorem mem_foldl_insert (l : List δ) (s : AList (fun _ : α => γ)) (a : α) :
    a ∈ l.foldl (fun m x => m.insert (key x) (val x)) s ↔
      a ∈ s ∨ ∃ x ∈ l, key x = a := by
  induction l generalizing s with
  | nil => simp
  | cons x l ih =>
      rw [List.foldl_cons, ih, AList.mem_insert]
      constructor
      · rintro ((rfl | ha) | ⟨y, hy, rfl⟩)
        · exact .inr ⟨x, by simp, rfl⟩
        · exact .inl ha
        · exact .inr ⟨y, List.mem_cons_of_mem _ hy, rfl⟩
      · rintro (ha | ⟨y, hy, rfl⟩)
        · exact .inl (.inr ha)
        · rcases List.mem_cons.1 hy with rfl | hy
          · exact .inl (.inl rfl)
          · exact .inr ⟨y, hy, rfl⟩

/-- Every value of a map built so is one it started with or the value of an element. -/
theorem lookup_foldl_insert {l : List δ} {s : AList (fun _ : α => γ)} {a : α} {v : γ}
    (h : (l.foldl (fun m x => m.insert (key x) (val x)) s).lookup a = some v) :
    s.lookup a = some v ∨ ∃ x ∈ l, key x = a ∧ val x = v := by
  induction l generalizing s with
  | nil => exact .inl h
  | cons x l ih =>
      rcases ih h with h | ⟨y, hy, hkey, hval⟩
      · rcases lookup_insert_eq_some h with ⟨rfl, rfl⟩ | ⟨-, h⟩
        · exact .inr ⟨x, by simp, rfl, rfl⟩
        · exact .inl h
      · exact .inr ⟨y, List.mem_cons_of_mem _ hy, hkey, hval⟩

/-- The keys of a map from which a loop deletes the key of every element of a list: those it
had that are no element's key. -/
theorem mem_foldl_erase_key (l : List δ) (s : AList (fun _ : α => γ)) (a : α) :
    a ∈ l.foldl (fun m x => m.erase (key x)) s ↔ a ∈ s ∧ ∀ x ∈ l, key x ≠ a := by
  induction l generalizing s with
  | nil => simp
  | cons x l ih =>
      rw [List.foldl_cons, ih, AList.mem_erase]
      constructor
      · rintro ⟨⟨hne, ha⟩, hl⟩
        exact ⟨ha, fun y hy => (List.mem_cons.1 hy).elim (fun h => h ▸ Ne.symm hne) (hl y)⟩
      · rintro ⟨ha, hl⟩
        exact ⟨⟨Ne.symm (hl x (by simp)), ha⟩, fun y hy => hl y (List.mem_cons_of_mem _ hy)⟩

/-- A key of a map is the key of one of its entries. -/
theorem exists_mem_entries {s : AList (fun _ : α => γ)} {a : α} (h : a ∈ s) :
    ∃ v, (⟨a, v⟩ : Sigma fun _ : α => γ) ∈ s.entries := by
  obtain ⟨v, hv⟩ := Option.isSome_iff_exists.1 (AList.lookup_isSome.2 h)
  exact ⟨v, AList.mem_lookup_iff.1 hv⟩

/-- Writing the entries of a list without duplicate keys into a map, each value changed by
`f`: a key of the list gets its changed value, any other keeps the map's. -/
theorem lookup_foldl_insert_of_nodupKeys {δ : Type*} (f : γ → δ) :
    ∀ {l : List (Sigma fun _ : α => γ)}, l.NodupKeys → ∀ (s : AList (fun _ : α => δ)) (a : α),
      (l.foldl (fun m x => m.insert x.1 (f x.2)) s).lookup a =
        if a ∈ l.keys then (l.dlookup a).map f else s.lookup a
  | [], _, s, a => by simp
  | ⟨k, v⟩ :: l, h, s, a => by
      rw [List.nodupKeys_cons] at h
      rw [List.foldl_cons, lookup_foldl_insert_of_nodupKeys f h.2]
      by_cases ha : a ∈ l.keys
      · have hne : a ≠ k := fun hak => h.1 (hak ▸ ha)
        simp [ha, List.dlookup_cons_ne l ⟨k, v⟩ hne]
      · by_cases hak : a = k
        · subst hak
          simp [ha]
        · simp [ha, hak, AList.lookup_insert_ne hak]

/-- A copy of a map into an empty one, entry by entry, each value changed by `f`. -/
theorem lookup_foldl_insert_entries {δ : Type*} (s : AList (fun _ : α => γ)) (f : γ → δ)
    (a : α) :
    (s.entries.foldl (fun (m : AList (fun _ : α => δ)) x => m.insert x.1 (f x.2)) ∅).lookup a =
      (s.lookup a).map f := by
  rw [lookup_foldl_insert_of_nodupKeys f s.nodupKeys]
  by_cases ha : a ∈ s.entries.keys
  · simp [ha, AList.lookup]
  · have hnone : s.lookup a = none := AList.lookup_eq_none.2 ha
    simp [ha, hnone]

/-- A Go set (`map[K]struct{}`) from which a loop deletes every element of `l`: a list
without duplicates keeps none, and only its elements outside `l`. -/
theorem mem_foldl_erase {κ : Type*} [BEq κ] [LawfulBEq κ] (l : List κ) {s : List κ}
    (hs : s.Nodup) :
    (l.foldl List.erase s).Nodup ∧ ∀ a, a ∈ l.foldl List.erase s ↔ a ∈ s ∧ a ∉ l := by
  induction l generalizing s with
  | nil => simpa using hs
  | cons x l ih =>
      obtain ⟨hnd, hmem⟩ := ih (hs.erase x)
      refine ⟨hnd, fun a => ?_⟩
      rw [List.foldl_cons, hmem, hs.mem_erase_iff, List.mem_cons]
      tauto

end Build

end Map
