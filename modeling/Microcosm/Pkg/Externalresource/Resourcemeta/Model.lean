import Microcosm.Library.Path
import Microcosm.Lib.Model.Basic

/-!
# Resource paths and local resources

`ParseResourcePath` of `pkg/externalresource/resourcemeta/model/model.go` reads a resource
ID `/<type>/<name>`: the type is the first element after the leading slash, and the name is
`path.Join` of the elements after it. `LocalFileResourceDescriptor.AbsolutePath` of
`local_resource.go` places a local resource at `filepath.Join(BaseDir, creator, name)`,
the path that `CreateResource`, `GetPersistedResource` and `RemoveResource` of the file
manager and the broker's storage handles use.

Strings are their lists of characters; a worker ID is converted at the join.
-/

namespace Microcosm

namespace Externalresource

open Path

/-- `ResourceType`. -/
inductive ResourceType
  /-- `ResourceTypeLocalFile`, written `local`. -/
  | localFile
  /-- `ResourceTypeS3`, written `s3`. -/
  | s3
  deriving DecidableEq, Repr

/-- `ErrIllegalResourcePath`, with the path it reports. -/
inductive ParseError
  | illegalResourcePath (path : List Char)
  deriving DecidableEq, Repr

/-- `ParseResourcePath`: the type and the name of a resource ID. -/
def parseResourcePath (rpath : List Char) : Except ParseError (ResourceType × List Char) :=
  if rpath.head? ≠ some '/' then .error (.illegalResourcePath rpath)
  else
    let rpath := rpath.drop 1
    match rpath.splitOn '/' with
    | [] => .error (.illegalResourcePath rpath)
    | first :: rest =>
        if first = "local".toList then .ok (.localFile, join rest)
        else if first = "s3".toList then .ok (.s3, join rest)
        else .error (.illegalResourcePath rpath)

/-- `LocalFileResourceDescriptor`. -/
structure LocalFileResourceDescriptor where
  basePath : List Char
  creator : WorkerID
  resourceName : List Char
  deriving DecidableEq, Repr

/-- `AbsolutePath`. -/
def LocalFileResourceDescriptor.absolutePath (d : LocalFileResourceDescriptor) : List Char :=
  join [d.basePath, d.creator.toList, d.resourceName]

/-- The directory of the resources of `creator` under `baseDir`, `filepath.Join(BaseDir,
creator)`. -/
def creatorDir (baseDir : List Char) (creator : WorkerID) : List Char :=
  join [baseDir, creator.toList]

/-! ## Resource IDs whose elements are names -/

theorem parseResourcePath_local_names {names : List (List Char)} (hne : names ≠ [])
    (hnames : ∀ e ∈ names, IsName e) :
    parseResourcePath ('/' :: ("local".toList ++ '/' :: ['/'].intercalate names)) =
      .ok (.localFile, ['/'].intercalate names) := by
  have hsplit : ("local".toList ++ '/' :: ['/'].intercalate names).splitOn '/' =
      "local".toList :: names := by
    rw [List.splitOn_append_cons_self_of_not_mem (by decide),
      List.splitOn_intercalate '/' (fun e he => (hnames e he).2.2.2) hne]
  unfold parseResourcePath
  rw [if_neg (by simp)]
  simp only [List.drop_succ_cons, List.drop_zero, hsplit, if_true, join_names hne hnames]

/-- A local resource whose name is made of names lies strictly inside the directory of its
creator, whatever the base directory and the creator. -/
theorem absolutePath_strictlyBelow (baseDir : List Char) {creator : WorkerID}
    (hcreator : creator ≠ "") {names : List (List Char)} (hne : names ≠ [])
    (hnames : ∀ e ∈ names, IsName e) :
    StrictlyBelow (LocalFileResourceDescriptor.absolutePath
      ⟨baseDir, creator, ['/'].intercalate names⟩) (creatorDir baseDir creator) := by
  have hc : creator.toList ≠ [] := by simpa [String.toList_eq_nil_iff] using hcreator
  show StrictlyBelow (join ([baseDir, creator.toList] ++ [['/'].intercalate names]))
    (join [baseDir, creator.toList])
  exact strictlyBelow_join_append_names ⟨creator.toList, by simp, hc⟩ hne hnames

/-- The resource ID `/local/../worker-2/x`, used by the worker `worker-1`, names a
directory of the worker `worker-2`; and `/local` names the directory of `worker-1`
itself. -/
theorem absolutePath_escapes_creatorDir :
    parseResourcePath "/local/../worker-2/x".toList = .ok (.localFile, "../worker-2/x".toList) ∧
      LocalFileResourceDescriptor.absolutePath
        ⟨"/tmp/base".toList, "worker-1", "../worker-2/x".toList⟩ = "/tmp/base/worker-2/x".toList ∧
      ¬StrictlyBelow (LocalFileResourceDescriptor.absolutePath
        ⟨"/tmp/base".toList, "worker-1", "../worker-2/x".toList⟩)
        (creatorDir "/tmp/base".toList "worker-1") ∧
      parseResourcePath "/local".toList = .ok (.localFile, []) ∧
      LocalFileResourceDescriptor.absolutePath ⟨"/tmp/base".toList, "worker-1", []⟩ =
        creatorDir "/tmp/base".toList "worker-1" := by
  decide

end Externalresource

end Microcosm
