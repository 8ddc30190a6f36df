import Mathlib.Logic.Basic

/-!
# Range loops that return at the first error

The Go loop

    for _, x := range xs {
        if err := body(x); err != nil {
            return err
        }
    }

over a state: the body runs on the elements in order, each on the state the one before it
left, and the first error ends the loop with the state the failing body left. `forEach`
is that loop. Its rules are the ones a proof about a loop body needs: a reflexive and
transitive relation that every run of the body establishes holds across the loop, whatever
the outcome (`forEach_fst_rel`, and `forEach_fst_inv` for an invariant); on a loop that
returns without error, each element's own postcondition holds at the end when later bodies
keep it (`forEach_eq_ok`); and a body that never fails under an invariant gives a loop that
never fails (`forEach_ok_of`).

A loop over the entries of a map, with distinct keys, whose body at an entry touches a view
of the state only at the entry's key, works key by key: each key ends with what its own
run of the body made of it, and a key that is not among the entries keeps its view
(`foldl_pointwise` for a loop that cannot fail, `forEach_pointwise` for one that can).

A loop that goes on after an error, emitting something for each element and returning the
last error it recorded, is a fold of `record`: it emits what the elements emit, in order, and
returns the error of the last element that has one (`foldl_record`). So two orders of the
same elements emit the same elements and fail alike (`foldl_record_perm`).
-/

namespace Loop

variable {α σ ε : Type*}

/-- The range loop over `xs` from the state `s`, stopping at the first error. -/
def forEach (body : α → σ → σ × Except ε Unit) : List α → σ → σ × Except ε Unit
  | [], s => (s, .ok ())
  | x :: xs, s =>
      match body x s with
      | (s', .error err) => (s', .error err)
      | (s', .ok ()) => forEach body xs s'

-- Many proofs below unfold this definition, and Lean elaborates them in parallel: the empty
-- section generates its equation lemmas here, once, so that the proofs do not all wait on it.
-- The simp set outside the section is unchanged.
section
attribute [local simp] forEach
end

/-- One run of the body on `x` from `s`: it fails, or it returns and the loop goes on from
the state it left. -/
theorem body_cases (body : α → σ → σ × Except ε Unit) (x : α) (s : σ) :
    (∃ s' err, body x s = (s', .error err)) ∨ ∃ s', body x s = (s', .ok ()) := by
  rcases h : body x s with ⟨s', ⟨err⟩ | ⟨⟩⟩
  · exact .inl ⟨s', err, rfl⟩
  · exact .inr ⟨s', rfl⟩

variable {body : α → σ → σ × Except ε Unit}

@[simp] theorem forEach_nil (s : σ) : forEach body [] s = (s, .ok ()) := rfl

theorem forEach_cons_of_error {x : α} {s s' : σ} {err : ε} (xs : List α)
    (h : body x s = (s', .error err)) : forEach body (x :: xs) s = (s', .error err) := by
  simp only [forEach, h]

theorem forEach_cons_of_ok {x : α} {s s' : σ} (xs : List α) (h : body x s = (s', .ok ())) :
    forEach body (x :: xs) s = forEach body xs s' := by
  simp only [forEach, h]

section Rules

variable {R : σ → σ → Prop} (hrefl : ∀ s, R s s)
  (htrans : ∀ {a b c}, R a b → R b c → R a c)
include hrefl htrans

/-- A reflexive and transitive relation that every run of the body establishes between its
states holds between the first and the last state of the loop, whatever the outcome. -/
theorem forEach_fst_rel {xs : List α} (hbody : ∀ x ∈ xs, ∀ s, R s (body x s).1) (s : σ) :
    R s (forEach body xs s).1 := by
  induction xs generalizing s with
  | nil => exact hrefl s
  | cons x xs ih =>
      have hx := hbody x List.mem_cons_self s
      rcases body_cases body x s with ⟨s', err, h⟩ | ⟨s', h⟩
      · rw [forEach_cons_of_error xs h]
        simpa [h] using hx
      · rw [forEach_cons_of_ok xs h]
        rw [h] at hx
        exact htrans hx (ih (fun y hy => hbody y (.tail _ hy)) s')

/-- The rule for a loop that returns without error. Each run of the body that returns,
from a state of the invariant `P`, keeps `P`, establishes `R` and leaves the element's
postcondition `Q`, which later runs keep as they establish `R`. Then the loop keeps `P`,
establishes `R`, and ends with the postcondition of every element. -/
theorem forEach_eq_ok {P : σ → Prop} {Q : α → σ → Prop}
    (hQ : ∀ {x a b}, Q x a → R a b → Q x b) {xs : List α}
    (hbody : ∀ x ∈ xs, ∀ s s', P s → body x s = (s', .ok ()) → P s' ∧ R s s' ∧ Q x s')
    {s s' : σ} (h : forEach body xs s = (s', .ok ())) (hs : P s) :
    P s' ∧ R s s' ∧ ∀ x ∈ xs, Q x s' := by
  induction xs generalizing s with
  | nil =>
      cases h
      exact ⟨hs, hrefl _, by simp⟩
  | cons x xs ih =>
      rcases body_cases body x s with ⟨t, err, hx⟩ | ⟨t, hx⟩
      · rw [forEach_cons_of_error xs hx] at h
        cases h
      · rw [forEach_cons_of_ok xs hx] at h
        obtain ⟨ht, hst, hqx⟩ := hbody x List.mem_cons_self s t hs hx
        obtain ⟨hs', hts', hq⟩ := ih (fun y hy => hbody y (.tail _ hy)) h ht
        refine ⟨hs', htrans hst hts', ?_⟩
        intro y hy
        rcases List.mem_cons.1 hy with rfl | hy
        · exact hQ hqx hts'
        · exact hq y hy

end Rules

/-- An invariant that every run of the body keeps, whatever the outcome, holds at the end of
the loop. -/
theorem forEach_fst_inv {P : σ → Prop} {xs : List α}
    (hbody : ∀ x ∈ xs, ∀ s, P s → P (body x s).1) {s : σ} (hs : P s) :
    P (forEach body xs s).1 :=
  forEach_fst_rel (R := fun a b => P a → P b) (fun _ h => h) (fun hab hbc h => hbc (hab h))
    hbody s hs

/-- A body that, from a state of the invariant `P`, never fails and keeps `P` gives a loop
that never fails and keeps `P`. -/
theorem forEach_ok_of {P : σ → Prop} {xs : List α}
    (hbody : ∀ x ∈ xs, ∀ s, P s → (body x s).2 = .ok () ∧ P (body x s).1) {s : σ}
    (hs : P s) : (forEach body xs s).2 = .ok () ∧ P (forEach body xs s).1 := by
  induction xs generalizing s with
  | nil => exact ⟨rfl, hs⟩
  | cons x xs ih =>
      obtain ⟨hok, hx⟩ := hbody x List.mem_cons_self s hs
      rcases body_cases body x s with ⟨t, err, h⟩ | ⟨t, h⟩
      · rw [h] at hok
        cases hok
      · rw [forEach_cons_of_ok xs h]
        rw [h] at hx
        exact ih (fun y hy => hbody y (.tail _ hy)) hx

/-- An invariant that every step keeps holds at the end of a fold. -/
theorem foldl_inv {f : σ → α → σ} {P : σ → Prop} :
    ∀ {xs : List α}, (∀ s, ∀ x ∈ xs, P s → P (f s x)) →
      ∀ {s}, P s → P (xs.foldl f s)
  | [], _, _, hs => hs
  | x :: _, hstep, s, hs =>
      foldl_inv (fun t y hy => hstep t y (.tail _ hy)) (hstep s x List.mem_cons_self hs)

/-! ## Loops that work key by key -/

section Pointwise

variable {κ V : Type*} (key : α → κ) (view : σ → κ → V) {Q : α → V → V → Prop}

/-- A fold over elements with distinct keys, whose step at `x` relates the old and the new
view at the key of `x` by `Q x` and keeps the view at every other key: each key of the list
ends related to its start by its own element, and every other key keeps its view. -/
theorem foldl_pointwise {f : σ → α → σ}
    (hstep : ∀ s x, Q x (view s (key x)) (view (f s x) (key x)) ∧
      ∀ k, k ≠ key x → view (f s x) k = view s k) :
    ∀ {xs : List α}, (xs.map key).Nodup → ∀ s,
      (∀ x ∈ xs, Q x (view s (key x)) (view (xs.foldl f s) (key x))) ∧
      ∀ k, k ∉ xs.map key → view (xs.foldl f s) k = view s k
  | [], _, s => ⟨by simp, fun _ _ => rfl⟩
  | x :: xs, hnd, s => by
      have hx : key x ∉ xs.map key := (List.nodup_cons.1 hnd).1
      obtain ⟨hQ, hframe⟩ := hstep s x
      obtain ⟨hin, hout⟩ := foldl_pointwise hstep (List.nodup_cons.1 hnd).2 (f s x)
      refine ⟨fun y hy => ?_, fun k hk => ?_⟩
      · rcases List.mem_cons.1 hy with rfl | hy
        · rw [List.foldl_cons, hout _ hx]
          exact hQ
        · -- a later element has another key, which the step at `x` left alone
          have hne : key y ≠ key x := fun h => hx (h ▸ List.mem_map_of_mem hy)
          rw [List.foldl_cons, ← hframe _ hne]
          exact hin y hy
      · simp only [List.map_cons, List.mem_cons, not_or] at hk
        rw [List.foldl_cons, hout k hk.2, hframe k hk.1]

/-- The same for a loop that may fail: when the body, at an element whose key has a view
satisfying `safe`, returns and relates the views as in `foldl_pointwise`, a loop over
elements with distinct keys whose starting views are all safe returns. -/
theorem forEach_pointwise {body : α → σ → σ × Except ε Unit} {safe : α → V → Prop}
    (hbody : ∀ x s, safe x (view s (key x)) → ∃ s', body x s = (s', .ok ()) ∧
      Q x (view s (key x)) (view s' (key x)) ∧ ∀ k, k ≠ key x → view s' k = view s k) :
    ∀ {xs : List α}, (xs.map key).Nodup → ∀ s, (∀ x ∈ xs, safe x (view s (key x))) →
      ∃ s', forEach body xs s = (s', .ok ()) ∧
        (∀ x ∈ xs, Q x (view s (key x)) (view s' (key x))) ∧
        ∀ k, k ∉ xs.map key → view s' k = view s k
  | [], _, s, _ => ⟨s, rfl, by simp, fun _ _ => rfl⟩
  | x :: xs, hnd, s, hsafe => by
      have hx : key x ∉ xs.map key := (List.nodup_cons.1 hnd).1
      obtain ⟨t, hxt, hQ, hframe⟩ := hbody x s (hsafe x List.mem_cons_self)
      -- the later elements start from views the step at `x` did not touch
      have hsafe' : ∀ y ∈ xs, safe y (view t (key y)) := fun y hy => by
        have hne : key y ≠ key x := fun h => hx (h ▸ List.mem_map_of_mem hy)
        rw [hframe _ hne]
        exact hsafe y (.tail _ hy)
      obtain ⟨s', hrun, hin, hout⟩ :=
        forEach_pointwise hbody (List.nodup_cons.1 hnd).2 t hsafe'
      refine ⟨s', by rw [forEach_cons_of_ok xs hxt, hrun], fun y hy => ?_, fun k hk => ?_⟩
      · rcases List.mem_cons.1 hy with rfl | hy
        · rw [hout _ hx]
          exact hQ
        · have hne : key y ≠ key x := fun h => hx (h ▸ List.mem_map_of_mem hy)
          rw [← hframe _ hne]
          exact hin y hy
      · simp only [List.map_cons, List.mem_cons, not_or] at hk
        rw [hout k hk.2, hframe k hk.1]

end Pointwise

/-! ## Loops that go on after an error and return the last one -/

section Record

variable {β : Type*} (f : α → List β) (g : α → Option ε)

/-- One iteration of a loop that goes on after an error: it emits `f x`, and the error
`g x`, if there is one, replaces the one recorded so far. -/
def record (st : List β × Option ε) (x : α) : List β × Option ε :=
  (st.1 ++ f x, (g x).or st.2)

/-- Such a loop emits what each element emits, in order, and returns the error of the last
element that has one. -/
theorem foldl_record (xs : List α) (st : List β × Option ε) :
    xs.foldl (record f g) st = (st.1 ++ xs.flatMap f, (xs.reverse.findSome? g).or st.2) := by
  induction xs generalizing st with
  | nil => simp
  | cons x xs ih =>
      rw [List.foldl_cons, ih]
      simp [record, List.findSome?_append, Option.or_assoc]

theorem foldl_record_isSome (xs : List α) :
    (xs.foldl (record f g) ([], none)).2.isSome = true ↔ ∃ x ∈ xs, (g x).isSome = true := by
  rw [foldl_record, Option.or_none, List.findSome?_isSome_iff]
  simp only [List.mem_reverse]

/-- In two orders of the same elements the loop emits the same elements, and returns an
error in the one exactly when it does in the other. -/
theorem foldl_record_perm {xs ys : List α} (h : xs.Perm ys) :
    (xs.foldl (record f g) ([], none)).1.Perm (ys.foldl (record f g) ([], none)).1 ∧
      (xs.foldl (record f g) ([], none)).2.isSome =
        (ys.foldl (record f g) ([], none)).2.isSome := by
  refine ⟨?_, ?_⟩
  · simpa only [foldl_record, List.nil_append] using h.flatMap_right f
  · rw [Bool.eq_iff_iff, foldl_record_isSome, foldl_record_isSome]
    simp only [h.mem_iff]

/-- The loop emits nothing and returns no error exactly when no element emits or fails. -/
theorem foldl_record_eq_nil_none (xs : List α) :
    xs.foldl (record f g) ([], none) = ([], none) ↔ ∀ x ∈ xs, f x = [] ∧ g x = none := by
  simp only [foldl_record, List.nil_append, Option.or_none, Prod.mk.injEq,
    List.flatMap_eq_nil_iff, List.findSome?_eq_none_iff, List.mem_reverse]
  exact forall₂_and.symm

end Record

end Loop
