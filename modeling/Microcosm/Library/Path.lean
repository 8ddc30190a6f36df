import Mathlib.Data.List.Basic

/-!
# Lexical paths

Go's `path.Clean` and `path.Join`, on paths as lists of characters; on Unix,
`filepath.Clean` and `filepath.Join` are the same functions. `Clean` is documented by four
rules: collapse runs of slashes, drop each `.` element, drop each inner `..` element with the
element before it, and drop the `..` elements at the start of a rooted path. The model is
the stack machine those rules describe: the path is split at `/` and its elements are pushed
in order on a stack whose top is at the head, with `..` taking back the element below it
when that is a name, and kept in front when there is none, unless the path is rooted.

`resolve` is how a file system reads a path: whether it is rooted, and the elements left
after cleaning. `StrictlyBelow q d` says that the entry `q` names lies strictly inside the
directory `d`. The lemmas say how cleaning reads a path followed by names
(`resolve_append_names`), and that cleaning keeps what a path resolves to
(`resolve_clean`).
-/

namespace Path

/-- The element `..`. -/
def dotdot : List Char := ['.', '.']

/-- An element that names an entry: not empty, neither `.` nor `..`, and without `/`. -/
def IsName (e : List Char) : Prop :=
  e ≠ [] ∧ e ≠ ['.'] ∧ e ≠ dotdot ∧ '/' ∉ e

instance : DecidablePred IsName :=
  fun _ => inferInstanceAs (Decidable (_ ∧ _ ∧ _ ∧ _))

/-- One element pushed on the stack of `Clean`, whose top is at the head. -/
def push (rooted : Bool) (st : List (List Char)) (e : List Char) : List (List Char) :=
  if e = [] ∨ e = ['.'] then st
  else if e = dotdot then
    match st with
    | top :: rest => if top = dotdot then dotdot :: st else rest
    | [] => if rooted then [] else [dotdot]
  else e :: st

/-- Whether a path is rooted: it starts with `/`. -/
def isRooted (p : List Char) : Bool :=
  p.head? == some '/'

/-- The elements of `p` left by cleaning, first to last. -/
def cleanElems (rooted : Bool) (p : List Char) : List (List Char) :=
  ((p.splitOn '/').foldl (push rooted) []).reverse

/-- How `Clean` writes a rooted flag and its elements. -/
def render (rooted : Bool) (es : List (List Char)) : List Char :=
  if rooted then '/' :: ['/'].intercalate es
  else if es = [] then ['.'] else ['/'].intercalate es

/-- `path.Clean`. -/
def clean (p : List Char) : List Char :=
  if p = [] then ['.'] else render (isRooted p) (cleanElems (isRooted p) p)

/-- `path.Join`: the elements from the first non-empty one on, joined with `/` and
cleaned; the empty string when every element is empty. -/
def join (elems : List (List Char)) : List Char :=
  match elems.dropWhile (· = []) with
  | [] => []
  | es => clean (['/'].intercalate es)

/-- A path as a file system reads it: whether it is rooted, and its elements after
cleaning. -/
def resolve (p : List Char) : Bool × List (List Char) :=
  (isRooted p, cleanElems (isRooted p) p)

/-- The entry `q` names is strictly inside the directory `d` names. -/
def StrictlyBelow (q d : List Char) : Prop :=
  (resolve q).1 = (resolve d).1 ∧ (resolve d).2 <+: (resolve q).2 ∧
    (resolve d).2.length < (resolve q).2.length

instance (q d : List Char) : Decidable (StrictlyBelow q d) :=
  inferInstanceAs (Decidable (_ ∧ _ ∧ _))

example : clean "a//b/./../c/".toList = "a/c".toList := by decide
example : clean "/../x".toList = "/x".toList := by decide
example : clean "../a/../..".toList = "../..".toList := by decide
example : join ["".toList, "a".toList, "".toList, "b".toList] = "a/b".toList := by decide

/-! ## Splitting -/

theorem not_mem_of_mem_splitOn {p e : List Char} (he : e ∈ p.splitOn '/') : '/' ∉ e := by
  induction p generalizing e with
  | nil =>
      rw [List.splitOn_nil, List.mem_singleton] at he
      subst he
      exact List.not_mem_nil
  | cons x xs ih =>
      rw [List.splitOn_cons_eq_if_modifyHead] at he
      split at he
      · rcases List.mem_cons.1 he with rfl | he
        · exact List.not_mem_nil
        · exact ih he
      · -- `x` is not a slash and joins the first element of the rest
        rename_i hx
        obtain ⟨h, t, ht⟩ := List.exists_cons_of_ne_nil (List.splitOn_ne_nil '/' xs)
        rw [ht, List.modifyHead_cons] at he
        rcases List.mem_cons.1 he with rfl | he
        · rw [List.mem_cons, not_or]
          exact ⟨fun h' => hx (by rw [← h']; rfl), ih (by rw [ht]; exact List.mem_cons_self)⟩
        · exact ih (by rw [ht]; exact List.mem_cons_of_mem _ he)

/-! ## Pushing names -/

theorem push_name (rooted : Bool) (st : List (List Char)) {e : List Char} (he : IsName e) :
    push rooted st e = e :: st := by
  obtain ⟨hnil, hdot, hdotdot, -⟩ := he
  simp [push, hnil, hdot, hdotdot]

theorem foldl_push_names (rooted : Bool) {es : List (List Char)} (hes : ∀ e ∈ es, IsName e)
    (st : List (List Char)) : es.foldl (push rooted) st = es.reverse ++ st := by
  induction es generalizing st with
  | nil => rfl
  | cons e es ih =>
      rw [List.foldl_cons, push_name rooted st (hes e List.mem_cons_self),
        ih (fun x hx => hes x (.tail _ hx))]
      simp

/-- Cleaning a path followed by names: the names follow the elements of the path. -/
theorem cleanElems_append_names (rooted : Bool) (p : List Char) {names : List (List Char)}
    (hne : names ≠ []) (hnames : ∀ e ∈ names, IsName e) :
    cleanElems rooted (p ++ '/' :: ['/'].intercalate names) = cleanElems rooted p ++ names := by
  unfold cleanElems
  rw [List.splitOn_append_cons_self, List.splitOn_intercalate '/'
    (fun e he => (hnames e he).2.2.2) hne, List.foldl_append, foldl_push_names rooted hnames]
  simp

theorem isRooted_append {p : List Char} (hp : p ≠ []) (q : List Char) :
    isRooted (p ++ q) = isRooted p := by
  obtain ⟨c, cs, rfl⟩ := List.exists_cons_of_ne_nil hp
  rfl

/-- A path followed by names resolves to the elements of the path followed by the names. -/
theorem resolve_append_names {p : List Char} (hp : p ≠ []) {names : List (List Char)}
    (hne : names ≠ []) (hnames : ∀ e ∈ names, IsName e) :
    resolve (p ++ '/' :: ['/'].intercalate names) = ((resolve p).1, (resolve p).2 ++ names) := by
  simp only [resolve, isRooted_append hp, cleanElems_append_names _ p hne hnames]

/-! ## The stack of `Clean`

The stack holds names above a run of `..`, which only a path that is not rooted keeps. Read
back from the bottom, it is a path that cleans to itself. -/

/-- A stack of `Clean`: names above `k` elements `..`, with `k = 0` for a rooted path. -/
def IsStack (rooted : Bool) (st : List (List Char)) : Prop :=
  ∃ ns k, st = ns ++ List.replicate k dotdot ∧ (∀ e ∈ ns, IsName e) ∧ (rooted = true → k = 0)

theorem isStack_nil (rooted : Bool) : IsStack rooted [] :=
  ⟨[], 0, rfl, by simp, fun _ => rfl⟩

theorem dotdot_not_isName : ¬IsName dotdot :=
  fun h => h.2.2.1 rfl

theorem isStack_push {rooted : Bool} {st : List (List Char)} (hst : IsStack rooted st)
    {e : List Char} (he : '/' ∉ e) : IsStack rooted (push rooted st e) := by
  obtain ⟨ns, k, rfl, hns, hk⟩ := hst
  unfold push
  split
  · exact ⟨ns, k, rfl, hns, hk⟩
  · split
    · -- `..`: it takes back the name on top, or joins the run of `..` below the names
      split
      · rename_i top rest hst
        split
        · rename_i htop
          cases ns with
          | nil =>
              cases k with
              | zero => cases hst
              | succ k =>
                  refine ⟨[], k + 2, ?_, by simp, fun hr => absurd (hk hr) (by omega)⟩
                  simp [List.replicate_succ]
          | cons n ns =>
              cases hst
              exact absurd (hns top List.mem_cons_self) (htop ▸ dotdot_not_isName)
        · rename_i htop
          cases ns with
          | nil =>
              cases k with
              | zero => cases hst
              | succ k =>
                  simp only [List.nil_append, List.replicate_succ, List.cons.injEq] at hst
                  exact absurd hst.1.symm htop
          | cons n ns =>
              cases hst
              exact ⟨ns, k, rfl, fun x hx => hns x (.tail _ hx), hk⟩
      · split
        · exact isStack_nil rooted
        · exact ⟨[], 1, rfl, by simp, by simp_all⟩
    · -- any other element is a name and goes on top
      rename_i hdot hdotdot
      simp only [not_or] at hdot
      exact ⟨e :: ns, k, rfl, fun x hx => by
        rcases List.mem_cons.1 hx with rfl | hx
        · exact ⟨hdot.1, hdot.2, hdotdot, he⟩
        · exact hns x hx, hk⟩

theorem isStack_foldl {rooted : Bool} {es : List (List Char)} (hes : ∀ e ∈ es, '/' ∉ e)
    {st : List (List Char)} (hst : IsStack rooted st) : IsStack rooted (es.foldl (push rooted) st) := by
  induction es generalizing st with
  | nil => exact hst
  | cons e es ih =>
      exact ih (fun x hx => hes x (.tail _ hx)) (isStack_push hst (hes e List.mem_cons_self))

theorem isStack_cleanElems (rooted : Bool) (p : List Char) :
    IsStack rooted (cleanElems rooted p).reverse := by
  rw [cleanElems, List.reverse_reverse]
  exact isStack_foldl (fun e he => not_mem_of_mem_splitOn he) (isStack_nil rooted)

theorem IsStack.elem {rooted : Bool} {st : List (List Char)} (h : IsStack rooted st)
    {e : List Char} (he : e ∈ st) : e ≠ [] ∧ '/' ∉ e := by
  obtain ⟨ns, k, rfl, hns, -⟩ := h
  rcases List.mem_append.1 he with he | he
  · exact ⟨(hns e he).1, (hns e he).2.2.2⟩
  · rw [List.eq_of_mem_replicate he]
    exact ⟨by decide, by decide⟩

theorem foldl_push_dotdots (k : Nat) :
    (List.replicate k dotdot).foldl (push false) [] = List.replicate k dotdot := by
  induction k with
  | zero => rfl
  | succ k ih =>
      rw [List.replicate_succ', List.foldl_append, ih]
      -- the new `..` lands on the run below, or starts it
      cases k with
      | zero => decide
      | succ k =>
          have hne : ¬(dotdot = [] ∨ dotdot = ['.']) := by decide
          rw [← List.replicate_succ']
          simp [push, hne, List.replicate_succ]

/-- Pushing a stack back from its bottom rebuilds it. -/
theorem foldl_push_reverse {rooted : Bool} {st : List (List Char)} (h : IsStack rooted st) :
    st.reverse.foldl (push rooted) [] = st := by
  obtain ⟨ns, k, rfl, hns, hk⟩ := h
  have hrun : (List.replicate k dotdot).foldl (push rooted) [] = List.replicate k dotdot := by
    cases rooted with
    | false => exact foldl_push_dotdots k
    | true => rw [hk rfl]; rfl
  rw [List.reverse_append, List.reverse_replicate, List.foldl_append, hrun,
    foldl_push_names rooted (fun e he => hns e (List.mem_reverse.1 he)), List.reverse_reverse]

theorem isRooted_render (rooted : Bool) {es : List (List Char)}
    (hes : ∀ e ∈ es, e ≠ [] ∧ '/' ∉ e) : isRooted (render rooted es) = rooted := by
  cases rooted with
  | true => rfl
  | false =>
      unfold render
      simp only [Bool.false_eq_true, if_false]
      split
      · rfl
      · -- the path starts with the first character of its first element, not a slash
        rename_i hne
        obtain ⟨e, es', rfl⟩ := List.exists_cons_of_ne_nil hne
        obtain ⟨c, cs, rfl⟩ := List.exists_cons_of_ne_nil (hes _ List.mem_cons_self).1
        have hc : c ≠ '/' := fun h => (hes _ List.mem_cons_self).2 (h ▸ List.mem_cons_self)
        cases es' <;> simp [isRooted, List.intercalate, hc]

/-- Splitting what `Clean` writes for a stack and pushing it back rebuilds the stack. -/
theorem foldl_push_render {rooted : Bool} {st : List (List Char)} (h : IsStack rooted st) :
    ((render rooted st.reverse).splitOn '/').foldl (push rooted) [] = st := by
  by_cases hnil : st = []
  · subst hnil
    cases rooted <;> decide
  · have hne : st.reverse ≠ [] := by simpa using hnil
    have hsplit : (['/'].intercalate st.reverse).splitOn '/' = st.reverse :=
      List.splitOn_intercalate '/' (fun e he => (h.elem (List.mem_reverse.1 he)).2) hne
    cases rooted with
    | true =>
        -- the leading slash splits off an empty element, which the stack drops
        simp only [render, if_true, List.splitOn_cons_eq_if_modifyHead, beq_self_eq_true, hsplit]
        exact foldl_push_reverse h
    | false =>
        simp only [render, Bool.false_eq_true, if_false, hne, hsplit]
        exact foldl_push_reverse h

theorem cleanElems_eq (rooted : Bool) (p : List Char) :
    cleanElems rooted p = ((p.splitOn '/').foldl (push rooted) []).reverse :=
  rfl

/-- Cleaning keeps what a path resolves to. -/
theorem resolve_clean (p : List Char) : resolve (clean p) = resolve p := by
  by_cases hp : p = []
  · subst hp
    decide
  · have hst := isStack_cleanElems (isRooted p) p
    have hroot : isRooted (clean p) = isRooted p := by
      rw [clean, if_neg hp]
      exact isRooted_render _ (fun e he => hst.elem (List.mem_reverse.2 he))
    have hclean : clean p = render (isRooted p) (cleanElems (isRooted p) p).reverse.reverse := by
      rw [List.reverse_reverse, clean, if_neg hp]
    simp only [resolve, hroot]
    rw [hclean, cleanElems_eq _ (render _ _), foldl_push_render hst, List.reverse_reverse]

/-! ## Joining -/

theorem intercalate_append_singleton {ds : List (List Char)} (hds : ds ≠ []) (x : List Char) :
    ['/'].intercalate (ds ++ [x]) = ['/'].intercalate ds ++ '/' :: x := by
  induction ds with
  | nil => exact absurd rfl hds
  | cons d ds ih =>
      cases ds with
      | nil => simp
      | cons d' ds =>
          simp only [List.cons_append] at ih ⊢
          rw [List.intercalate_cons_cons, ih (List.cons_ne_nil _ _), List.intercalate_cons_cons]
          simp

theorem intercalate_append {ds es : List (List Char)} (hds : ds ≠ []) (hes : es ≠ []) :
    ['/'].intercalate (ds ++ es) = ['/'].intercalate ds ++ '/' :: ['/'].intercalate es := by
  induction ds with
  | nil => exact absurd rfl hds
  | cons d ds ih =>
      cases ds with
      | nil =>
          obtain ⟨e, es', rfl⟩ := List.exists_cons_of_ne_nil hes
          simp [List.intercalate_cons_cons]
      | cons d' ds =>
          rw [List.cons_append, List.cons_append, List.intercalate_cons_cons, ← List.cons_append,
            ih (List.cons_ne_nil _ _), List.intercalate_cons_cons]
          simp

theorem intercalate_ne_nil {ds : List (List Char)} (h : ∃ e ∈ ds.head?, e ≠ []) :
    ['/'].intercalate ds ≠ [] := by
  obtain ⟨e, he, hne⟩ := h
  cases ds with
  | nil => cases he
  | cons d ds =>
      cases he
      obtain ⟨c, cs, rfl⟩ := List.exists_cons_of_ne_nil hne
      simp

/-- `Clean` never returns the empty path. -/
theorem clean_ne_nil (p : List Char) : clean p ≠ [] := by
  unfold clean render
  split
  · simp
  · split
    · simp
    · split
      · simp
      · -- the first element left is not empty
        rename_i hne
        have hst := isStack_cleanElems (isRooted p) p
        obtain ⟨e, es, hes⟩ := List.exists_cons_of_ne_nil hne
        refine intercalate_ne_nil ⟨e, by simp [hes], ?_⟩
        exact (hst.elem (List.mem_reverse.2 (by simp [hes]))).1

/-- `Join` of elements some of which is not empty: it cleans the elements from the first
non-empty one on. -/
theorem join_eq_clean {elems : List (List Char)} (h : ∃ e ∈ elems, e ≠ []) :
    ∃ ds, elems.dropWhile (· = []) = ds ∧ (∃ e ∈ ds.head?, e ≠ []) ∧
      join elems = clean (['/'].intercalate ds) := by
  induction elems with
  | nil => simp at h
  | cons e elems ih =>
      by_cases he : e = []
      · subst he
        obtain ⟨ds, hds, hhead, hjoin⟩ := ih (by simpa using h)
        refine ⟨ds, by simpa using hds, hhead, ?_⟩
        rw [← hjoin]
        simp [join]
      · exact ⟨e :: elems, by simp [he], ⟨e, rfl, he⟩, by simp [join, he]⟩

theorem join_ne_nil {elems : List (List Char)} (h : ∃ e ∈ elems, e ≠ []) : join elems ≠ [] := by
  obtain ⟨ds, -, -, hjoin⟩ := join_eq_clean h
  rw [hjoin]
  exact clean_ne_nil _

/-- `Join` of elements that join to a path, followed by names: the path, resolved, followed
by the names. -/
theorem resolve_join_append_names {elems : List (List Char)} (h : ∃ e ∈ elems, e ≠ [])
    {names : List (List Char)} (hne : names ≠ []) (hnames : ∀ e ∈ names, IsName e) :
    resolve (join (elems ++ [['/'].intercalate names])) =
      ((resolve (join elems)).1, (resolve (join elems)).2 ++ names) := by
  obtain ⟨ds, hds, hhead, hjoin⟩ := join_eq_clean h
  have hds_ne : ds ≠ [] := by rintro rfl; simp at hhead
  -- the names follow the elements the path keeps
  have hjoin' : join (elems ++ [['/'].intercalate names]) =
      clean (['/'].intercalate ds ++ '/' :: ['/'].intercalate names) := by
    obtain ⟨ds', hds', -, hjoin'⟩ := @join_eq_clean (elems ++ [['/'].intercalate names])
      (by obtain ⟨e, he, hne⟩ := h; exact ⟨e, List.mem_append_left _ he, hne⟩)
    have : ds' = ds ++ [['/'].intercalate names] := by
      rw [← hds', List.dropWhile_append, hds]
      simp [hds_ne]
    rw [hjoin', this, intercalate_append_singleton hds_ne]
  rw [hjoin', hjoin, resolve_clean, resolve_clean,
    resolve_append_names (intercalate_ne_nil hhead) hne hnames]

/-- Names joined with `/` are clean. -/
theorem clean_intercalate_names {names : List (List Char)} (hne : names ≠ [])
    (hnames : ∀ e ∈ names, IsName e) : clean (['/'].intercalate names) = ['/'].intercalate names := by
  have hhead : ∃ e ∈ names.head?, e ≠ [] := by
    obtain ⟨n, ns, rfl⟩ := List.exists_cons_of_ne_nil hne
    exact ⟨n, rfl, (hnames n List.mem_cons_self).1⟩
  have hrender : render false names = ['/'].intercalate names := by simp [render, hne]
  have hroot : isRooted (['/'].intercalate names) = false := by
    rw [← hrender]
    exact isRooted_render false fun e he => ⟨(hnames e he).1, (hnames e he).2.2.2⟩
  have helems : cleanElems false (['/'].intercalate names) = names := by
    rw [cleanElems_eq, List.splitOn_intercalate '/' (fun e he => (hnames e he).2.2.2) hne,
      foldl_push_names false hnames, List.append_nil, List.reverse_reverse]
  rw [clean, if_neg (intercalate_ne_nil hhead), hroot, helems, hrender]

/-- `Join` of names is the names joined with `/`. -/
theorem join_names {names : List (List Char)} (hne : names ≠ []) (hnames : ∀ e ∈ names, IsName e) :
    join names = ['/'].intercalate names := by
  obtain ⟨n, ns, rfl⟩ := List.exists_cons_of_ne_nil hne
  have hn : n ≠ [] := (hnames n List.mem_cons_self).1
  simp only [join, List.dropWhile_cons, decide_eq_true_eq, hn, if_false]
  exact clean_intercalate_names hne hnames

/-- Joining names onto a path gives an entry strictly inside it. -/
theorem strictlyBelow_join_append_names {elems : List (List Char)} (h : ∃ e ∈ elems, e ≠ [])
    {names : List (List Char)} (hne : names ≠ []) (hnames : ∀ e ∈ names, IsName e) :
    StrictlyBelow (join (elems ++ [['/'].intercalate names])) (join elems) := by
  rw [StrictlyBelow, resolve_join_append_names h hne hnames]
  refine ⟨rfl, List.prefix_append _ _, ?_⟩
  rw [List.length_append]
  have := List.length_pos_of_ne_nil hne
  omega

/-! ## Names and empty elements

`Join` drops empty elements and `Clean` drops the empty elements left between slashes, so a
rooted directory followed by elements that are names or empty joins to the directory's
elements followed by the names. -/

theorem push_nil (rooted : Bool) (st : List (List Char)) : push rooted st [] = st := by
  simp [push]

theorem foldl_push_namesOrEmpty (rooted : Bool) {es : List (List Char)}
    (hes : ∀ e ∈ es, e = [] ∨ IsName e) (st : List (List Char)) :
    es.foldl (push rooted) st = (es.filter (· ≠ [])).reverse ++ st := by
  induction es generalizing st with
  | nil => rfl
  | cons e es ih =>
      have ih' := ih (fun x hx => hes x (.tail _ hx))
      rw [List.foldl_cons]
      rcases hes e List.mem_cons_self with rfl | he
      · rw [push_nil, ih']
        simp
      · rw [push_name rooted st he, ih']
        simp [he.1]

theorem slash_not_mem_of_namesOrEmpty {es : List (List Char)}
    (hes : ∀ e ∈ es, e = [] ∨ IsName e) : ∀ e ∈ es, '/' ∉ e := by
  intro e he
  rcases hes e he with rfl | he
  · exact List.not_mem_nil
  · exact he.2.2.2

/-- Cleaning elements joined with `/` keeps those that are not empty. -/
theorem cleanElems_intercalate (rooted : Bool) {es : List (List Char)} (hne : es ≠ [])
    (hes : ∀ e ∈ es, e = [] ∨ IsName e) :
    cleanElems rooted (['/'].intercalate es) = es.filter (· ≠ []) := by
  rw [cleanElems, List.splitOn_intercalate '/' (slash_not_mem_of_namesOrEmpty hes) hne,
    foldl_push_namesOrEmpty rooted hes, List.append_nil, List.reverse_reverse]

/-- Cleaning a path followed by names and empty elements: the names follow the elements of
the path. -/
theorem cleanElems_append_intercalate (rooted : Bool) (p : List Char) {es : List (List Char)}
    (hne : es ≠ []) (hes : ∀ e ∈ es, e = [] ∨ IsName e) :
    cleanElems rooted (p ++ '/' :: ['/'].intercalate es) =
      cleanElems rooted p ++ es.filter (· ≠ []) := by
  unfold cleanElems
  rw [List.splitOn_append_cons_self, List.splitOn_intercalate '/'
    (slash_not_mem_of_namesOrEmpty hes) hne, List.foldl_append,
    foldl_push_namesOrEmpty rooted hes]
  simp

/-- A directory: names written rooted, with a trailing slash. -/
theorem cleanElems_render_slash {names : List (List Char)} (hne : names ≠ [])
    (hnames : ∀ e ∈ names, IsName e) :
    cleanElems true (render true names ++ ['/']) = names := by
  obtain ⟨n, ns, rfl⟩ := List.exists_cons_of_ne_nil hne
  -- the leading and the trailing slash each leave an empty element
  have hsplit : render true (n :: ns) ++ ['/'] =
      ['/'].intercalate ([] :: n :: ns) ++ '/' :: ['/'].intercalate [[]] := by
    simp [render, List.intercalate_cons_cons]
  have hes : ∀ e ∈ [] :: n :: ns, e = [] ∨ IsName e := by
    intro e he
    rcases List.mem_cons.1 he with rfl | he
    · exact .inl rfl
    · exact .inr (hnames e he)
  have hkeep : (n :: ns).filter (· ≠ []) = n :: ns :=
    List.filter_eq_self.2 fun e he => by simpa using (hnames e he).1
  rw [hsplit, cleanElems_append_intercalate true _ (List.cons_ne_nil _ _) (by simp),
    cleanElems_intercalate true (List.cons_ne_nil _ _) hes,
    List.filter_cons_of_neg (by simp), hkeep]
  simp

/-- `Join` of a rooted path followed by names and empty elements: the elements of the path,
then the names, written rooted. -/
theorem join_rooted_cons {p : List Char} (hp : isRooted p = true) {es : List (List Char)}
    (hes : ∀ e ∈ es, e = [] ∨ IsName e) :
    join (p :: es) = render true (cleanElems true p ++ es.filter (· ≠ [])) := by
  have hpne : p ≠ [] := by
    rintro rfl
    cases hp
  have hjoin : join (p :: es) = clean (['/'].intercalate (p :: es)) := by
    simp [join, hpne]
  -- the joined path starts with the slash of `p` and splits into its elements and `es`
  have helems : cleanElems true (['/'].intercalate (p :: es)) =
      cleanElems true p ++ es.filter (· ≠ []) := by
    cases es with
    | nil => simp
    | cons e es =>
        rw [List.intercalate_cons_cons, List.append_assoc, List.singleton_append,
          cleanElems_append_intercalate true p (List.cons_ne_nil _ _) hes]
  have hroot : isRooted (['/'].intercalate (p :: es)) = true := by
    cases es with
    | nil => simpa using hp
    | cons e es =>
        rw [List.intercalate_cons_cons, List.append_assoc, isRooted_append hpne, hp]
  have hne : ['/'].intercalate (p :: es) ≠ [] := by
    intro h
    rw [h] at hroot
    cases hroot
  rw [hjoin, clean, if_neg hne, hroot, helems]

/-- What `Clean` writes rooted ends in the last character of the last element. -/
theorem getLast?_render_true {names : List (List Char)} (hne : names ≠ [])
    (hnames : ∀ e ∈ names, IsName e) : ∃ c, (render true names).getLast? = some c ∧ c ≠ '/' := by
  obtain ⟨ns, n, rfl⟩ : ∃ ns n, names = ns ++ [n] :=
    ⟨_, _, (List.dropLast_append_getLast hne).symm⟩
  have hn := hnames n (List.mem_append_right _ List.mem_cons_self)
  obtain ⟨c, hc⟩ := Option.isSome_iff_exists.1 (List.getLast?_isSome.2 hn.1)
  refine ⟨c, ?_, fun h => hn.2.2.2 (h ▸ List.mem_of_getLast? hc)⟩
  by_cases hns : ns = []
  · subst hns
    simp [render, List.getLast?_cons, hc]
  · have hsplit : render true (ns ++ [n]) = ('/' :: ['/'].intercalate ns ++ ['/']) ++ n := by
      simp [render, intercalate_append_singleton hns]
    rw [hsplit, List.getLast?_append, hc]
    rfl

end Path
