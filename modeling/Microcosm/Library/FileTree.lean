import Microcosm.Library.Loop
import Microcosm.Library.Path

/-!
# A tree of directories and files

The part of a file system that a program's `os` calls see: the entries that exist, each a
directory or a file, under the path they resolve to (`Path.resolve`). An entry lies within
a path when its elements extend the path's; the path with no elements, the root or the
working directory, is always a directory.

The calls are those of Go's `os` and `ioutil` on Unix. `stat` says whether an entry exists
and what it is. `mkdirAll` creates the missing directories from the top down and stops at a
file, leaving what it created so far. `removeAll` removes an entry with everything within
it: it refuses a path ending in the element `.` and does nothing for the empty path.
`readDir` lists the names of the entries just below a directory; a real directory never
lists `.` or `..`, so the names are names.
-/

namespace FileTree

open Path

/-- What an entry is. -/
inductive Kind
  | dir
  | file
  deriving DecidableEq, Repr

/-- `FileInfo.IsDir`. -/
def Kind.isDir : Kind → Bool
  | .dir => true
  | .file => false

/-- The error numbers of the calls. -/
inductive Errno
  /-- `ENOENT`. -/
  | notExist
  /-- `ENOTDIR`. -/
  | notDir
  /-- `EINVAL`. -/
  | invalid
  deriving DecidableEq, Repr

/-- A resolved path: whether it is rooted, and its elements. -/
abbrev Key := Bool × List (List Char)

/-- The entries that exist. -/
structure Tree where
  entries : List (Key × Kind)
  deriving DecidableEq, Repr

/-- The path `k'` is `k` or lies within it. -/
def Within (k' k : Key) : Prop :=
  k'.1 = k.1 ∧ k.2 <+: k'.2

instance (k' k : Key) : Decidable (Within k' k) :=
  inferInstanceAs (Decidable (_ ∧ _))

/-- What is at `k`: the root and the working directory are directories. -/
def Tree.lookup (t : Tree) (k : Key) : Option Kind :=
  if k.2 = [] then some .dir else (t.entries.find? (·.1 = k)).map (·.2)

/-- `os.Stat`, by what it finds. -/
def Tree.stat (t : Tree) (p : List Char) : Option Kind :=
  t.lookup (resolve p)

/-- One directory of `MkdirAll`: a file stops it, a directory is kept, and a missing one is
made. -/
def mkdirStep (d : Key) (t : Tree) : Tree × Except Errno Unit :=
  match t.lookup d with
  | some .file => (t, .error .notDir)
  | some .dir => (t, .ok ())
  | none => (⟨t.entries ++ [(d, .dir)]⟩, .ok ())

/-- The directories from the top down to `k`. -/
def ancestors (k : Key) : List Key :=
  (List.range k.2.length).map fun i => (k.1, k.2.take (i + 1))

/-- `os.MkdirAll`. -/
def Tree.mkdirAll (t : Tree) (p : List Char) : Tree × Except Errno Unit :=
  Loop.forEach mkdirStep (ancestors (resolve p)) t

/-- `endsWithDot` of `os.RemoveAll`: the path is `.` or ends in `/.`. -/
def endsWithDot (p : List Char) : Bool :=
  p == ['.'] ||
    match p.reverse with
    | '.' :: '/' :: _ => true
    | _ => false

/-- `os.RemoveAll`. -/
def Tree.removeAll (t : Tree) (p : List Char) : Except Errno Tree :=
  if p = [] then .ok t
  else if endsWithDot p then .error .invalid
  else .ok ⟨t.entries.filter fun e => !decide (Within e.1 (resolve p))⟩

/-- The name and the kind of an entry just below `k`. -/
def childOf (k : Key) (e : Key × Kind) : Option (List Char × Bool) :=
  match e.1.2.getLast? with
  | some n => if e.1 = (k.1, k.2 ++ [n]) ∧ IsName n then some (n, e.2.isDir) else none
  | none => none

/-- `ioutil.ReadDir`, by the name and `IsDir` of each entry. -/
def Tree.readDir (t : Tree) (p : List Char) : Except Errno (List (List Char × Bool)) :=
  match t.lookup (resolve p) with
  | none => .error .notExist
  | some .file => .error .notDir
  | some .dir => .ok (t.entries.filterMap (childOf (resolve p)))

/-! ## Reading the calls -/

theorem childOf_eq_some {k : Key} {e : Key × Kind} {n : List Char} {b : Bool} :
    childOf k e = some (n, b) ↔ e.1 = (k.1, k.2 ++ [n]) ∧ IsName n ∧ b = e.2.isDir := by
  obtain ⟨⟨r, es⟩, kind⟩ := e
  constructor
  · intro h
    unfold childOf at h
    split at h
    · rename_i m hm
      split at h
      · rename_i hc
        cases h
        exact ⟨hc.1, hc.2, rfl⟩
      · cases h
    · cases h
  · rintro ⟨he, hn, rfl⟩
    simp only [Prod.mk.injEq] at he
    obtain ⟨rfl, rfl⟩ := he
    simp [childOf, hn]

/-- `ReadDir` lists the names of the entries just below the directory. -/
theorem mem_readDir {t : Tree} {p : List Char} {infos : List (List Char × Bool)}
    (h : t.readDir p = .ok infos) {n : List Char} {b : Bool} :
    (n, b) ∈ infos ↔ ∃ kind, (((resolve p).1, (resolve p).2 ++ [n]), kind) ∈ t.entries ∧
      IsName n ∧ b = kind.isDir := by
  unfold Tree.readDir at h
  split at h
  · cases h
  · cases h
  · cases h
    rw [List.mem_filterMap]
    constructor
    · rintro ⟨e, he, hc⟩
      obtain ⟨hk, hn, rfl⟩ := childOf_eq_some.1 hc
      exact ⟨e.2, by rw [← hk]; exact he, hn, rfl⟩
    · rintro ⟨kind, he, hn, rfl⟩
      exact ⟨_, he, childOf_eq_some.2 ⟨rfl, hn, rfl⟩⟩

/-- `RemoveAll` of a path keeps exactly the entries not within it. -/
theorem mem_removeAll {t t' : Tree} {p : List Char} (h : t.removeAll p = .ok t') (hp : p ≠ [])
    (e : Key × Kind) : e ∈ t'.entries ↔ e ∈ t.entries ∧ ¬Within e.1 (resolve p) := by
  unfold Tree.removeAll at h
  rw [if_neg hp] at h
  split at h
  · cases h
  · cases h
    simp

/-- `RemoveAll` of a path that does not end in the element `.` succeeds. -/
theorem removeAll_eq_ok (t : Tree) {p : List Char} (hp : p ≠ []) (hdot : endsWithDot p = false) :
    t.removeAll p = .ok ⟨t.entries.filter fun e => !decide (Within e.1 (resolve p))⟩ := by
  simp [Tree.removeAll, hp, hdot]

/-! ## `MkdirAll` -/

/-- A tree whose entries extend those of `t` finds at every path what `t` finds there. -/
theorem lookup_of_prefix {t t' : Tree} (h : t.entries <+: t'.entries) {k : Key} {kind : Kind}
    (hk : t.lookup k = some kind) : t'.lookup k = some kind := by
  obtain ⟨rest, hrest⟩ := h
  unfold Tree.lookup at hk ⊢
  split
  · rename_i hnil
    rwa [if_pos hnil] at hk
  · rename_i hnil
    rw [if_neg hnil] at hk
    rw [← hrest, List.find?_append]
    obtain ⟨e, he, rfl⟩ := Option.map_eq_some_iff.1 hk
    simp [he]

/-- Something is at `k` in `t'` when it is in `t` and `t'` keeps the entries of `t` at `k`. -/
theorem lookup_isSome_of_keeps {t t' : Tree} {k : Key}
    (hkeep : ∀ e ∈ t.entries, e.1 = k → e ∈ t'.entries) (hk : (t.lookup k).isSome) :
    (t'.lookup k).isSome := by
  unfold Tree.lookup at hk ⊢
  split
  · rfl
  · rename_i hnil
    rw [if_neg hnil, Option.isSome_map] at hk
    obtain ⟨e, he⟩ := Option.isSome_iff_exists.1 hk
    have hek : e.1 = k := by simpa using List.find?_some he
    rw [Option.isSome_map, List.find?_isSome]
    exact ⟨e, hkeep e (List.mem_of_find?_eq_some he) hek, by simpa using hek⟩

theorem mkdirStep_prefix (d : Key) (t : Tree) : t.entries <+: (mkdirStep d t).1.entries := by
  unfold mkdirStep
  split
  · exact List.prefix_refl _
  · exact List.prefix_refl _
  · exact List.prefix_append _ _

/-- `MkdirAll` only adds entries, whatever the outcome. -/
theorem mkdirAll_prefix (t : Tree) (p : List Char) : t.entries <+: (t.mkdirAll p).1.entries :=
  Loop.forEach_fst_rel (R := fun a b : Tree => a.entries <+: b.entries)
    (fun _ => List.prefix_refl _) (fun hab hbc => hab.trans hbc)
    (fun d _ t => mkdirStep_prefix d t) t

theorem mkdirStep_eq_ok {d : Key} {t t' : Tree} (h : mkdirStep d t = (t', .ok ())) :
    t'.lookup d = some .dir := by
  unfold mkdirStep at h
  split at h
  · cases h
  · rename_i hd
    cases h
    exact hd
  · -- a missing directory is made at the end of the entries
    rename_i hd
    cases h
    unfold Tree.lookup at hd ⊢
    split
    · rfl
    · rename_i hnil
      rw [if_neg hnil, Option.map_eq_none_iff] at hd
      simp [List.find?_append, hd]

theorem mem_ancestors {k : Key} {q : List (List Char)} (hq : q <+: k.2) (hne : q ≠ []) :
    (k.1, q) ∈ ancestors k := by
  have hpos := List.length_pos_of_ne_nil hne
  have hle := hq.length_le
  refine List.mem_map.2 ⟨q.length - 1, List.mem_range.2 (by omega), ?_⟩
  have hlen : q.length - 1 + 1 = q.length := by omega
  rw [hlen]
  exact congrArg (Prod.mk k.1) (List.prefix_iff_eq_take.1 hq).symm

/-- A `MkdirAll` that succeeds leaves a directory at the path and at each directory above
it. -/
theorem mkdirAll_eq_ok {t : Tree} {p : List Char} (h : (t.mkdirAll p).2 = .ok ())
    {q : List (List Char)} (hq : q <+: (resolve p).2) :
    (t.mkdirAll p).1.lookup ((resolve p).1, q) = some .dir := by
  by_cases hnil : q = []
  · simp [Tree.lookup, hnil]
  · have hok : t.mkdirAll p = ((t.mkdirAll p).1, .ok ()) := by rw [← h]
    -- every directory of the path is made, and kept by the steps after it
    obtain ⟨-, -, hdirs⟩ := Loop.forEach_eq_ok (R := fun a b : Tree => a.entries <+: b.entries)
      (P := fun _ => True) (Q := fun d t => t.lookup d = some .dir)
      (fun _ => List.prefix_refl _) (fun hab hbc => hab.trans hbc)
      (fun hq hab => lookup_of_prefix hab hq)
      (fun d _ t t' _ hd => ⟨trivial, by simpa [hd] using mkdirStep_prefix d t,
        mkdirStep_eq_ok hd⟩) hok trivial
    exact hdirs _ (mem_ancestors hq hnil)

/-! ## Subtrees -/

/-- Two entries just below `k` that an entry lies within are the same. -/
theorem Within.eq_of_append_singleton {e k : Key} {a b : List Char}
    (ha : Within e (k.1, k.2 ++ [a])) (hb : Within e (k.1, k.2 ++ [b])) : a = b := by
  have hlen : (k.2 ++ [a]).length = (k.2 ++ [b]).length := by simp
  have hab : k.2 ++ [a] = k.2 ++ [b] :=
    (List.prefix_of_prefix_length_le ha.2 hb.2 (Nat.le_of_eq hlen)).eq_of_length hlen
  simpa using hab

theorem Within.of_append {e k : Key} {es : List (List Char)} (h : Within e (k.1, k.2 ++ es)) :
    Within e k :=
  ⟨h.1, (List.prefix_append _ _).trans h.2⟩

/-- `b` holds only entries of `a`, and has lost only entries that `P` allows. -/
def Shrinks (P : Key × Kind → Prop) (a b : Tree) : Prop :=
  (∀ e ∈ b.entries, e ∈ a.entries) ∧ ∀ e ∈ a.entries, e ∉ b.entries → P e

theorem Shrinks.refl (P : Key × Kind → Prop) (a : Tree) : Shrinks P a a :=
  ⟨fun _ h => h, fun _ h h' => absurd h h'⟩

theorem Shrinks.trans {P : Key × Kind → Prop} {a b c : Tree} (hab : Shrinks P a b)
    (hbc : Shrinks P b c) : Shrinks P a c := by
  refine ⟨fun e he => hab.1 e (hbc.1 e he), fun e hea hec => ?_⟩
  by_cases heb : e ∈ b.entries
  · exact hbc.2 e heb hec
  · exact hab.2 e hea heb

theorem Shrinks.mono {P Q : Key × Kind → Prop} (hPQ : ∀ e, P e → Q e) {a b : Tree}
    (h : Shrinks P a b) : Shrinks Q a b :=
  ⟨h.1, fun e ha hb => hPQ e (h.2 e ha hb)⟩

/-- `RemoveAll` loses only entries within the path. -/
theorem removeAll_shrinks {t t' : Tree} {p : List Char} (h : t.removeAll p = .ok t') :
    Shrinks (fun e => Within e.1 (resolve p)) t t' := by
  by_cases hp : p = []
  · -- the empty path removes nothing
    subst hp
    cases h
    exact Shrinks.refl _ t
  · have hmem := mem_removeAll h hp
    refine ⟨fun e he => ((hmem e).1 he).1, fun e he he' => ?_⟩
    by_contra hw
    exact he' ((hmem e).2 ⟨he, hw⟩)

theorem readDir_of_dir {t : Tree} {p : List Char} (h : t.stat p = some .dir) :
    t.readDir p = .ok (t.entries.filterMap (childOf (resolve p))) := by
  unfold Tree.readDir
  rw [show t.lookup (resolve p) = some .dir from h]

end FileTree
