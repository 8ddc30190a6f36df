import Microcosm.Lib.Model.Basic

/-!
# The status writer of a worker

`statusutil.Writer` of `lib/statusutil/writer.go`. `UpdateStatus` persists a status to the
worker's row of the metastore when the status differs significantly (`HasSignificantChange`:
in the code or the error message) from the status the writer stored at its previous call,
then stores the new status and notifies the master.

The writer stores the `*WorkerStatus` it is handed, not a copy. Here the status objects
live in a heap `Nat → WorkerStatus`, and `lastStatus` is an address into it, so that what
the comparison reads is the object as it is at the time of the call. `persistStatus` is
`retry.Do` of `UpdateWorker`, which writes the three columns of the object to the row; its
outcome after the retries is a parameter, and so is the outcome of
`sendStatusMessageWithRetry`.
-/

namespace Microcosm

namespace Lib

/-- `statusutil.Writer`, by the field `UpdateStatus` reads and writes: the address of the
status it stored last. -/
structure Writer where
  lastStatus : Option Nat
  deriving DecidableEq, Repr

/-- `NewWriter`. -/
def newWriter : Writer :=
  ⟨none⟩

/-- `UpdateWorker` on the worker's row, by the columns of `WorkerStatus.Map` the model
keeps. gorm's `Updates` on a row that does not exist changes nothing. -/
def updateWorker (row : Option WorkerStatus) (status : WorkerStatus) : Option WorkerStatus :=
  row.map fun _ => status

namespace Writer

/-- Whether `UpdateStatus` persists the object at `newStatus`: at the first call, and then
on a significant change against the object stored last. -/
def changed (w : Writer) (heap : Nat → WorkerStatus) (newStatus : Nat) : Bool :=
  match w.lastStatus with
  | none => true
  | some last => (heap newStatus).hasSignificantChange (heap last)

/-- `Writer.UpdateStatus` of the object at `newStatus`, on the worker's row `row`: the
writer, the row and the result after the call. -/
def updateStatus (w : Writer) (heap : Nat → WorkerStatus) (row : Option WorkerStatus)
    (newStatus : Nat) (persist send : Except Error Unit) :
    Writer × Option WorkerStatus × Except Error Unit :=
  if w.changed heap newStatus then
    match persist with
    | .error err => (w, row, .error err)
    | .ok () => (⟨some newStatus⟩, updateWorker row (heap newStatus), send)
  else (⟨some newStatus⟩, row, send)

/-- The row holds the significant fields of the object the writer stored last. -/
def Agrees (w : Writer) (heap : Nat → WorkerStatus) (row : Option WorkerStatus) : Prop :=
  ∀ last, w.lastStatus = some last →
    ∃ r, row = some r ∧ (heap last).hasSignificantChange r = false

theorem agrees_newWriter (heap : Nat → WorkerStatus) (row : Option WorkerStatus) :
    newWriter.Agrees heap row := by
  intro last h
  cases h

/-- The contract of the writer: as long as the object it stored last has not changed, a
call that does not fail to persist leaves the row with the significant fields of the
object of the call. -/
theorem updateStatus_agrees {w : Writer} {heap : Nat → WorkerStatus}
    {row : Option WorkerStatus} (hrow : row.isSome) (hw : w.Agrees heap row) (newStatus : Nat)
    {persist : Except Error Unit} (hp : persist = .ok ()) (send : Except Error Unit) :
    (w.updateStatus heap row newStatus persist send).1.Agrees heap
      (w.updateStatus heap row newStatus persist send).2.1 := by
  subst hp
  obtain ⟨r, rfl⟩ := Option.isSome_iff_exists.1 hrow
  by_cases hc : w.changed heap newStatus = true
  · -- a significant change: the object of the call is written to the row
    simp only [updateStatus, hc, if_true]
    intro last hlast
    cases hlast
    exact ⟨heap newStatus, rfl, WorkerStatus.hasSignificantChange_self _⟩
  · -- no significant change against the stored object, which agrees with the row
    simp only [updateStatus, hc]
    intro last hlast
    cases hlast
    cases hl : w.lastStatus with
    | none => simp [changed, hl] at hc
    | some prev =>
        simp only [changed, hl, Bool.not_eq_true] at hc
        obtain ⟨r', hr', hagree⟩ := hw prev hl
        cases hr'
        exact ⟨r, rfl, WorkerStatus.hasSignificantChange_trans hc hagree⟩

/-- After a call that does not fail to persist, the writer holds the object of the call. -/
theorem updateStatus_lastStatus (w : Writer) (heap : Nat → WorkerStatus)
    (row : Option WorkerStatus) (newStatus : Nat) {persist : Except Error Unit}
    (hp : persist = .ok ()) (send : Except Error Unit) :
    (w.updateStatus heap row newStatus persist send).1.lastStatus = some newStatus := by
  subst hp
  by_cases hc : w.changed heap newStatus = true <;> simp [updateStatus, hc]

/-- The writer compares the object of the call with the object it stored; when the two are
the same object, nothing is persisted and the row is left as it is, whatever the object
holds. -/
theorem updateStatus_same_object (heap : Nat → WorkerStatus) (row : Option WorkerStatus)
    (ptr : Nat) (persist send : Except Error Unit) :
    (Writer.updateStatus ⟨some ptr⟩ heap row ptr persist send) = (⟨some ptr⟩, row, send) := by
  simp [updateStatus, changed]

end Writer

end Lib

end Microcosm
