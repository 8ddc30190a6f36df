import Microcosm.Library.FileTree
import Microcosm.Pkg.Externalresource.Resourcemeta.Model

/-!
# The local file manager

`LocalFileManager` of `pkg/externalresource/broker/file_manager.go` keeps the local file
resources of the workers of an executor: a resource is a directory at its `AbsolutePath`,
`BaseDir/creator/name`. `CreateResource` makes the directory, `SetPersisted` marks a
resource as persisted in memory, `GetPersistedResource` finds a persisted one,
`RemoveResource` removes one and unmarks it, and `RemoveTemporaryFiles` removes the
resources of a creator that are not persisted, when the creator's worker closes.

`RemoveTemporaryFiles` lists the directories just below `BaseDir/creator` and removes each
whose name is not marked persisted. The names it lists are names of one element, while the
names of resources may have several (`ParseResourcePath` keeps the `/` of the resource ID).

The file system is a `FileTree.Tree` passed along with the manager; the mutex of the manager
is not modelled, every call being taken whole.
-/

namespace Microcosm

namespace Externalresource

open Path FileTree

/-- The errors of the file manager. -/
inductive FileError
  /-- `ErrCreateLocalFileDirectoryFailed`. -/
  | createLocalFileDirectoryFailed (err : Errno)
  /-- `ErrResourceDoesNotExist`, with the resource name. -/
  | resourceDoesNotExist (name : List Char)
  /-- `ErrReadLocalFileDirectoryFailed`. -/
  | readLocalFileDirectoryFailed (err : Errno)
  /-- `ErrCleaningLocalTempFiles`. -/
  | cleaningLocalTempFiles (err : Errno)
  /-- `ErrRemovingLocalResource`. -/
  | removingLocalResource (err : Errno)
  /-- The panic `Empty creator ID is unexpected`. -/
  | emptyCreator
  deriving DecidableEq, Repr

/-- `LocalFileManager`, by `config.BaseDir` and `persistedResourcesByCreator`, the map from
a creator to the set of its persisted names, as the set of pairs it holds. -/
structure LocalFileManager where
  baseDir : List Char
  persisted : List (WorkerID × List Char)
  deriving DecidableEq, Repr

/-- `NewLocalFileManager`. -/
def newLocalFileManager (baseDir : List Char) : LocalFileManager :=
  ⟨baseDir, []⟩

namespace LocalFileManager

/-- The descriptor of the resource `resName` of `creator`. -/
def descriptor (m : LocalFileManager) (creator : WorkerID) (resName : List Char) :
    LocalFileResourceDescriptor :=
  ⟨m.baseDir, creator, resName⟩

/-- `CreateResource`. -/
def createResource (m : LocalFileManager) (fs : Tree) (creator : WorkerID)
    (resName : List Char) : Tree × Except FileError LocalFileResourceDescriptor :=
  let res := m.descriptor creator resName
  match fs.mkdirAll res.absolutePath with
  | (fs', .error err) => (fs', .error (.createLocalFileDirectoryFailed err))
  | (fs', .ok ()) => (fs', .ok res)

/-- `isPersisted`. -/
def isPersisted (m : LocalFileManager) (creator : WorkerID) (resName : List Char) : Bool :=
  decide ((creator, resName) ∈ m.persisted)

/-- `GetPersistedResource`. -/
def getPersistedResource (m : LocalFileManager) (fs : Tree) (creator : WorkerID)
    (resName : List Char) : Except FileError LocalFileResourceDescriptor :=
  let res := m.descriptor creator resName
  match fs.stat res.absolutePath with
  | none => .error (.resourceDoesNotExist resName)
  | some _ =>
      if m.isPersisted creator resName then .ok res else .error (.resourceDoesNotExist resName)

/-- `iterOverResourceDirectories`: `fn` on the name of each directory just below `path`. -/
def iterOverResourceDirectories (fs : Tree) (path : List Char)
    (fn : List Char → Tree → Tree × Except FileError Unit) : Tree × Except FileError Unit :=
  match fs.readDir path with
  | .error err => (fs, .error (.readLocalFileDirectoryFailed err))
  | .ok infos => Loop.forEach (fun info fs => if !info.2 then (fs, .ok ()) else fn info.1 fs) infos fs

/-- The function `RemoveTemporaryFiles` passes to `iterOverResourceDirectories`. -/
def removeIfTemporary (m : LocalFileManager) (creator : WorkerID) (resourceID : List Char)
    (fs : Tree) : Tree × Except FileError Unit :=
  if m.isPersisted creator resourceID then (fs, .ok ())
  else
    match fs.removeAll (join [m.baseDir, creator.toList, resourceID]) with
    | .error err => (fs, .error (.cleaningLocalTempFiles err))
    | .ok fs' => (fs', .ok ())

/-- `RemoveTemporaryFiles`. -/
def removeTemporaryFiles (m : LocalFileManager) (fs : Tree) (creator : WorkerID) :
    Tree × Except FileError Unit :=
  let creatorResourcePath := join [m.baseDir, creator.toList]
  match fs.stat creatorResourcePath with
  | none => (fs, .ok ())
  | some _ => iterOverResourceDirectories fs creatorResourcePath (m.removeIfTemporary creator)

/-- `RemoveResource`. -/
def removeResource (m : LocalFileManager) (fs : Tree) (creator : WorkerID)
    (resName : List Char) : LocalFileManager × Tree × Except FileError Unit :=
  if creator = "" then (m, fs, .error .emptyCreator)
  else
    let resourcePath := join [m.baseDir, creator.toList, resName]
    match fs.stat resourcePath with
    | none => (m, fs, .error (.resourceDoesNotExist resName))
    | some _ =>
        match fs.removeAll resourcePath with
        | .error err => (m, fs, .error (.removingLocalResource err))
        | .ok fs' => (⟨m.baseDir, m.persisted.filter (· ≠ (creator, resName))⟩, fs', .ok ())

/-- `SetPersisted`. -/
def setPersisted (m : LocalFileManager) (creator : WorkerID) (resName : List Char) :
    LocalFileManager :=
  if (creator, resName) ∈ m.persisted then m else ⟨m.baseDir, m.persisted ++ [(creator, resName)]⟩

/-! ## Where a resource lies -/

variable (m : LocalFileManager) {creator : WorkerID}

/-- The resource of a name lies just below the directory of its creator. -/
theorem resolve_absolutePath (hc : creator ≠ "") {n : List Char} (hn : IsName n) :
    resolve (m.descriptor creator n).absolutePath =
      ((resolve (creatorDir m.baseDir creator)).1,
        (resolve (creatorDir m.baseDir creator)).2 ++ [n]) := by
  have hc' : creator.toList ≠ [] := by simpa [String.toList_eq_nil_iff] using hc
  have hpath : (m.descriptor creator n).absolutePath =
      join ([m.baseDir, creator.toList] ++ [['/'].intercalate [n]]) := by
    simp [LocalFileResourceDescriptor.absolutePath, descriptor]
  rw [hpath, resolve_join_append_names ⟨creator.toList, by simp, hc'⟩ (List.cons_ne_nil _ _)
    (by simpa using hn)]
  rfl

/-! ## What `RemoveTemporaryFiles` removes

Each directory it lists is removed whole unless its name is persisted: what it loses lies
within the directory of a name, just below the creator directory, that is not persisted. -/

/-- The entries `RemoveTemporaryFiles` of `creator` may remove. -/
def Removable (creator : WorkerID) (e : Key × Kind) : Prop :=
  ∃ name, IsName name ∧ m.isPersisted creator name = false ∧
    Within e.1 ((resolve (creatorDir m.baseDir creator)).1,
      (resolve (creatorDir m.baseDir creator)).2 ++ [name])

theorem removeIfTemporary_shrinks (hc : creator ≠ "") {name : List Char} (hname : IsName name)
    (t : Tree) : Shrinks (m.Removable creator) t (m.removeIfTemporary creator name t).1 := by
  unfold removeIfTemporary
  split
  · exact Shrinks.refl _ t
  · rename_i hnp
    split
    · exact Shrinks.refl _ t
    · rename_i t' ht'
      refine (removeAll_shrinks ht').mono fun e he => ⟨name, hname, by simpa using hnp, ?_⟩
      rwa [← resolve_absolutePath m hc hname]

theorem removeTemporaryFiles_shrinks (hc : creator ≠ "") (fs : Tree) :
    Shrinks (m.Removable creator) fs (m.removeTemporaryFiles fs creator).1 := by
  unfold removeTemporaryFiles iterOverResourceDirectories
  dsimp only
  split
  · exact Shrinks.refl _ fs
  · split
    · exact Shrinks.refl _ fs
    · rename_i infos hinfos
      refine Loop.forEach_fst_rel (Shrinks.refl _) (fun hab hbc => hab.trans hbc)
        (fun info hinfo t => ?_) fs
      -- the loop skips files, and calls `removeIfTemporary` on the names of directories
      obtain ⟨n, b⟩ := info
      obtain ⟨-, -, hn, -⟩ := (mem_readDir hinfos).1 hinfo
      cases b with
      | false => exact Shrinks.refl _ t
      | true => exact removeIfTemporary_shrinks m hc hn t

/-- `RemoveTemporaryFiles` keeps every entry outside the creator directory. -/
theorem removeTemporaryFiles_frame (hc : creator ≠ "") (fs : Tree) {e : Key × Kind}
    (he : ¬Within e.1 (resolve (creatorDir m.baseDir creator))) :
    e ∈ (m.removeTemporaryFiles fs creator).1.entries ↔ e ∈ fs.entries := by
  have hs := m.removeTemporaryFiles_shrinks hc fs
  refine ⟨hs.1 e, fun hmem => ?_⟩
  by_contra hgone
  obtain ⟨name, -, -, hw⟩ := hs.2 e hmem hgone
  exact he hw.of_append

/-- `RemoveTemporaryFiles` keeps the directory of a persisted resource of one element with
everything in it, whatever the outcome. -/
theorem removeTemporaryFiles_keeps_persisted (hc : creator ≠ "") {n : List Char}
    (hn : IsName n) (hp : m.isPersisted creator n = true) (fs : Tree) {e : Key × Kind}
    (he : Within e.1 (resolve (m.descriptor creator n).absolutePath)) :
    e ∈ (m.removeTemporaryFiles fs creator).1.entries ↔ e ∈ fs.entries := by
  have hs := m.removeTemporaryFiles_shrinks hc fs
  refine ⟨hs.1 e, fun hmem => ?_⟩
  by_contra hgone
  obtain ⟨name, -, hnp, hw⟩ := hs.2 e hmem hgone
  rw [resolve_absolutePath m hc hn] at he
  -- the removed directory is that of the persisted name itself
  have hname : name = n := hw.eq_of_append_singleton he
  rw [hname, hp] at hnp
  cases hnp

theorem removeIfTemporary_eq_ok {n : List Char} (hn : IsName n)
    (hp : m.isPersisted creator n = false) {t t' : Tree}
    (h : m.removeIfTemporary creator n t = (t', .ok ())) :
    ∀ e ∈ t'.entries, ¬Within e.1 (resolve (m.descriptor creator n).absolutePath) := by
  unfold removeIfTemporary at h
  rw [if_neg (by simp [hp])] at h
  split at h
  · cases h
  · rename_i t'' ht''
    cases h
    have hne : join [m.baseDir, creator.toList, n] ≠ [] :=
      join_ne_nil ⟨n, by simp, hn.1⟩
    intro e he
    exact ((mem_removeAll ht'' hne e).1 he).2

/-- The loop of `RemoveTemporaryFiles` when the creator directory is a directory. -/
theorem removeTemporaryFiles_of_dir {fs : Tree}
    (hdir : fs.stat (creatorDir m.baseDir creator) = some .dir) :
    m.removeTemporaryFiles fs creator =
      Loop.forEach (fun info fs => if !info.2 then (fs, .ok ())
        else m.removeIfTemporary creator info.1 fs)
        (fs.entries.filterMap (childOf (resolve (creatorDir m.baseDir creator)))) fs := by
  unfold removeTemporaryFiles iterOverResourceDirectories
  dsimp only
  rw [show fs.stat (join [m.baseDir, creator.toList]) = some .dir from hdir,
    show fs.readDir (join [m.baseDir, creator.toList]) = _ from readDir_of_dir hdir]
  rfl

/-- A `RemoveTemporaryFiles` that returns has removed the directory of every resource of
one element that is not persisted, with everything in it. -/
theorem removeTemporaryFiles_removes_temporary (hc : creator ≠ "") {n : List Char}
    (hn : IsName n) (hp : m.isPersisted creator n = false) {fs : Tree}
    (hdir : fs.stat (creatorDir m.baseDir creator) = some .dir)
    (hres : (resolve (m.descriptor creator n).absolutePath, Kind.dir) ∈ fs.entries)
    (hok : (m.removeTemporaryFiles fs creator).2 = .ok ()) :
    ∀ e ∈ (m.removeTemporaryFiles fs creator).1.entries,
      ¬Within e.1 (resolve (m.descriptor creator n).absolutePath) := by
  rw [removeTemporaryFiles_of_dir m hdir] at hok ⊢
  -- the directory of `n` is listed, and its turn removes it; later turns only remove more
  have hlisted : (n, true) ∈
      fs.entries.filterMap (childOf (resolve (creatorDir m.baseDir creator))) :=
    (mem_readDir (readDir_of_dir hdir)).2 ⟨.dir, by rwa [← resolve_absolutePath m hc hn], hn, rfl⟩
  -- each turn only removes, and the turn of `n` removes its directory
  have hbody : ∀ info ∈ fs.entries.filterMap (childOf (resolve (creatorDir m.baseDir creator))),
      ∀ t t' : Tree, True →
        (if (!info.2) = true then (t, .ok ()) else m.removeIfTemporary creator info.1 t) =
          (t', .ok ()) →
        True ∧ (∀ e ∈ t'.entries, e ∈ t.entries) ∧ (info = (n, true) →
          ∀ e ∈ t'.entries, ¬Within e.1 (resolve (m.descriptor creator n).absolutePath)) := by
    rintro ⟨name, b⟩ hinfo t t' - hstep
    obtain ⟨-, -, hname, -⟩ := (mem_readDir (readDir_of_dir hdir)).1 hinfo
    have hshrink : Shrinks (m.Removable creator) t t' := by
      cases b with
      | false =>
          cases hstep
          exact Shrinks.refl _ t
      | true =>
          have := removeIfTemporary_shrinks m hc hname t
          simp only [Bool.not_true, Bool.false_eq_true, if_false] at hstep
          rwa [hstep] at this
    refine ⟨trivial, hshrink.1, ?_⟩
    rintro ⟨⟩
    exact removeIfTemporary_eq_ok m hn hp (by simpa using hstep)
  obtain ⟨-, -, hgone⟩ := Loop.forEach_eq_ok
    (R := fun a b : Tree => ∀ e ∈ b.entries, e ∈ a.entries)
    (fun _ _ h => h) (fun hab hbc e he => hab e (hbc e he))
    (fun hq hab hinfo e he => hq hinfo e (hab e he)) hbody (Prod.ext rfl hok) trivial
  exact hgone _ hlisted rfl

/-! ## Creating and removing one resource -/

/-- A `CreateResource` that succeeds leaves the resource's directory, and the creator
directory above it, as directories, and keeps every entry there was. -/
theorem createResource_eq_ok (hc : creator ≠ "") {n : List Char} (hn : IsName n)
    {fs fs' : Tree} {res : LocalFileResourceDescriptor}
    (h : m.createResource fs creator n = (fs', .ok res)) :
    res = m.descriptor creator n ∧ fs'.stat res.absolutePath = some .dir ∧
      fs'.stat (creatorDir m.baseDir creator) = some .dir ∧ fs.entries <+: fs'.entries := by
  unfold createResource at h
  dsimp only at h
  split at h
  · cases h
  · rename_i t ht
    cases h
    have hgrow := mkdirAll_prefix fs (m.descriptor creator n).absolutePath
    rw [ht] at hgrow
    have hok : (fs.mkdirAll (m.descriptor creator n).absolutePath).2 = .ok () := by rw [ht]
    have hpath := resolve_absolutePath m hc hn
    refine ⟨rfl, ?_, ?_, hgrow⟩
    · have := mkdirAll_eq_ok hok (List.prefix_refl _)
      rwa [ht] at this
    · -- the creator directory is the directory just above the resource
      have := mkdirAll_eq_ok hok (q := (resolve (creatorDir m.baseDir creator)).2)
        (by rw [hpath]; exact List.prefix_append _ _)
      rw [ht, hpath] at this
      exact this

/-- A `RemoveResource` that succeeds removes exactly what lies within the resource's
directory, and unmarks the resource. -/
theorem removeResource_eq_ok {fs fs' : Tree} {m' : LocalFileManager} {n : List Char}
    (h : m.removeResource fs creator n = (m', fs', .ok ())) :
    (∀ e, e ∈ fs'.entries ↔
        e ∈ fs.entries ∧ ¬Within e.1 (resolve (m.descriptor creator n).absolutePath)) ∧
      m'.persisted = m.persisted.filter (· ≠ (creator, n)) ∧ m'.baseDir = m.baseDir := by
  unfold removeResource at h
  split at h
  · cases h
  · rename_i hc
    dsimp only at h
    split at h
    · cases h
    · split at h
      · cases h
      · rename_i t ht
        cases h
        have hc' : creator.toList ≠ [] := by simpa [String.toList_eq_nil_iff] using hc
        exact ⟨mem_removeAll ht (join_ne_nil ⟨creator.toList, by simp [descriptor], hc'⟩), rfl, rfl⟩

/-- `CreateResource` only adds entries, whatever the outcome. -/
theorem createResource_prefix (fs : Tree) (creator : WorkerID) (n : List Char) :
    fs.entries <+: (m.createResource fs creator n).1.entries := by
  have hgrow := mkdirAll_prefix fs (m.descriptor creator n).absolutePath
  unfold createResource
  dsimp only
  split <;> rename_i fs' h <;> rw [h] at hgrow <;> exact hgrow

/-- A `GetPersistedResource` that succeeds found the resource's entry and its mark. -/
theorem getPersistedResource_eq_ok {fs : Tree} {n : List Char}
    {res : LocalFileResourceDescriptor} (h : m.getPersistedResource fs creator n = .ok res) :
    res = m.descriptor creator n ∧ (fs.stat (m.descriptor creator n).absolutePath).isSome ∧
      m.isPersisted creator n = true := by
  unfold getPersistedResource at h
  dsimp only at h
  split at h
  · cases h
  · rename_i kind hkind
    split at h
    · rename_i hp
      cases h
      exact ⟨rfl, by rw [hkind]; rfl, hp⟩
    · cases h

/-- `GetPersistedResource` finds a persisted resource whose entry is there. -/
theorem getPersistedResource_of {fs : Tree} {n : List Char}
    (hd : (fs.stat (m.descriptor creator n).absolutePath).isSome)
    (hp : m.isPersisted creator n = true) :
    m.getPersistedResource fs creator n = .ok (m.descriptor creator n) := by
  obtain ⟨kind, hkind⟩ := Option.isSome_iff_exists.1 hd
  simp [getPersistedResource, hkind, hp]

@[simp] theorem baseDir_setPersisted (creator : WorkerID) (n : List Char) :
    (m.setPersisted creator n).baseDir = m.baseDir := by
  unfold setPersisted
  split <;> rfl

theorem mem_setPersisted {creator : WorkerID} {n : List Char} {p : WorkerID × List Char} :
    p ∈ (m.setPersisted creator n).persisted ↔ p ∈ m.persisted ∨ p = (creator, n) := by
  unfold setPersisted
  split
  · rename_i hmem
    constructor
    · exact .inl
    · rintro (hp | rfl)
      · exact hp
      · exact hmem
  · simp

theorem isPersisted_setPersisted {c : WorkerID} {n n' : List Char} :
    (m.setPersisted creator n).isPersisted c n' = true ↔
      m.isPersisted c n' = true ∨ (c, n') = (creator, n) := by
  simp only [isPersisted, decide_eq_true_eq, mem_setPersisted]

/-- A `RemoveResource` that fails changes nothing. -/
theorem removeResource_of_error {fs fs' : Tree} {m' : LocalFileManager} {n : List Char}
    {err : FileError} (h : m.removeResource fs creator n = (m', fs', .error err)) :
    m' = m ∧ fs' = fs := by
  unfold removeResource at h
  split at h
  · cases h
    exact ⟨rfl, rfl⟩
  · dsimp only at h
    split at h
    · cases h
      exact ⟨rfl, rfl⟩
    · split at h
      · cases h
        exact ⟨rfl, rfl⟩
      · cases h

/-! ## Resources of different creators and names

With a base directory and creators whose IDs are names, the directories of the resources of
names lie apart. -/

/-- A creator whose ID is a name has an ID. -/
theorem ne_empty_of_isName {c : WorkerID} (hc : IsName c.toList) : c ≠ "" :=
  fun h => hc.1 (by simp [h])

theorem resolve_creatorDir (hb : m.baseDir ≠ []) {c : WorkerID} (hc : IsName c.toList) :
    resolve (creatorDir m.baseDir c) =
      ((resolve (join [m.baseDir])).1, (resolve (join [m.baseDir])).2 ++ [c.toList]) := by
  have h := @resolve_join_append_names [m.baseDir] ⟨m.baseDir, by simp, hb⟩ [c.toList]
    (by simp) (by simpa using hc)
  simpa [creatorDir] using h

theorem resolve_descriptor (hb : m.baseDir ≠ []) {c : WorkerID} (hc : IsName c.toList)
    {n : List Char} (hn : IsName n) :
    resolve (m.descriptor c n).absolutePath =
      ((resolve (join [m.baseDir])).1, (resolve (join [m.baseDir])).2 ++ [c.toList, n]) := by
  rw [resolve_absolutePath m (ne_empty_of_isName hc) hn, resolve_creatorDir m hb hc]
  simp

/-- A resource of one creator lies outside the directory of another. -/
theorem not_within_creatorDir (hb : m.baseDir ≠ []) {c v : WorkerID} (hc : IsName c.toList)
    (hv : IsName v.toList) {n : List Char} (hn : IsName n) (hcv : c ≠ v) :
    ¬Within (resolve (m.descriptor c n).absolutePath) (resolve (creatorDir m.baseDir v)) := by
  rw [resolve_descriptor m hb hc hn, resolve_creatorDir m hb hv]
  rintro ⟨-, hpre⟩
  have hvc : [v.toList] <+: [c.toList, n] := (List.prefix_append_right_inj _).1 hpre
  have : v.toList = c.toList := by simpa using hvc
  exact hcv (String.toList_inj.1 this).symm

/-- The directory of a resource lies within the directory of another only when they are the
same. -/
theorem eq_of_within_descriptor (hb : m.baseDir ≠ []) {c c' : WorkerID} (hc : IsName c.toList)
    (hc' : IsName c'.toList) {n n' : List Char} (hn : IsName n) (hn' : IsName n')
    (h : Within (resolve (m.descriptor c' n').absolutePath) (resolve (m.descriptor c n).absolutePath)) :
    c' = c ∧ n' = n := by
  rw [resolve_descriptor m hb hc hn, resolve_descriptor m hb hc' hn'] at h
  have hlen : ((resolve (join [m.baseDir])).2 ++ [c.toList, n]).length =
      ((resolve (join [m.baseDir])).2 ++ [c'.toList, n']).length := by simp
  have heq := h.2.eq_of_length hlen
  simp only [List.append_cancel_left_eq, List.cons.injEq, and_true] at heq
  exact ⟨String.toList_inj.1 heq.1.symm, heq.2.symm⟩

end LocalFileManager

/-- The resource `/local/a/b` of `worker-1`, created and marked persisted, is removed by
`RemoveTemporaryFiles`, which lists the directory `a` and finds no persisted resource of
that name. -/
theorem removeTemporaryFiles_removes_persisted_nested :
    parseResourcePath "/local/a/b".toList = .ok (.localFile, "a/b".toList) ∧
      (newLocalFileManager "/tmp/base".toList).createResource ⟨[]⟩ "worker-1" "a/b".toList =
        (((newLocalFileManager "/tmp/base".toList).createResource ⟨[]⟩ "worker-1"
          "a/b".toList).1, .ok ⟨"/tmp/base".toList, "worker-1", "a/b".toList⟩) ∧
      ((newLocalFileManager "/tmp/base".toList).createResource ⟨[]⟩ "worker-1"
        "a/b".toList).1.stat "/tmp/base/worker-1/a/b".toList = some .dir ∧
      ((newLocalFileManager "/tmp/base".toList).setPersisted "worker-1"
        "a/b".toList).isPersisted "worker-1" "a/b".toList = true ∧
      (((newLocalFileManager "/tmp/base".toList).setPersisted "worker-1"
        "a/b".toList).removeTemporaryFiles
          ((newLocalFileManager "/tmp/base".toList).createResource ⟨[]⟩ "worker-1"
            "a/b".toList).1 "worker-1").2 = .ok () ∧
      (((newLocalFileManager "/tmp/base".toList).setPersisted "worker-1"
        "a/b".toList).removeTemporaryFiles
          ((newLocalFileManager "/tmp/base".toList).createResource ⟨[]⟩ "worker-1"
            "a/b".toList).1 "worker-1").1.stat "/tmp/base/worker-1/a/b".toList = none := by
  decide

end Externalresource

end Microcosm
