import Mathlib.Logic.Basic

/-!
# Errors

The errors of `pkg/errors/errors.go` that the modelled code creates, tests or passes
on, by their RFC codes, together with the gRPC status codes of the two-phase dispatch
and the errors of Go's `context` package. An error made by `Wrap` keeps its cause as
an argument. Code elsewhere compares errors with `Equal`, which compares the codes; in
the model that is the constructor.

The arguments of the messages are kept where the code formats an identifier into them
(`ErrWorkerOffline`, `ErrWorkerNotFound`); other message texts are not read by any
modelled function and are left out.
-/

namespace Microcosm

/-- The status codes of `google.golang.org/grpc/codes` that the dispatch protocol
distinguishes; every other code is `unknown`. -/
inductive Code
  | aborted
  | alreadyExists
  | notFound
  | unavailable
  | deadlineExceeded
  | canceled
  | unknown
  deriving DecidableEq, Repr

/-- The codes that the gRPC library and the network may produce themselves. The source
relies on `Aborted`, `AlreadyExists` and `NotFound` never being among them. -/
def Code.fromTransport : Code → Bool
  | .aborted | .alreadyExists | .notFound => false
  | _ => true

/-- The errors passed between the modelled components. -/
inductive Error
  /-- `ErrWorkerFinish`: "worker finished and exited". -/
  | errWorkerFinish
  /-- `ErrWorkerStop`: "worker is stopped". -/
  | errWorkerStop
  /-- `ErrWorkerOffline`: "worker is offline: workerID: %s, ...". -/
  | errWorkerOffline (workerID : String)
  /-- `ErrWorkerNotFound`: "worker is not found: worker ID %s". -/
  | errWorkerNotFound (workerID : String)
  /-- `ErrWorkerSuicide`: the watchdog gave up on the master. -/
  | errWorkerSuicide (masterID : String)
  /-- `ErrMasterTooManyPendingEvents`: the event queue stayed full. -/
  | errMasterTooManyPendingEvents
  /-- `ErrMasterConcurrencyExceeded`: no create-worker quota was left. -/
  | errMasterConcurrencyExceeded
  /-- `ErrMasterInvalidMeta`: a job master's config is not its metadata. -/
  | errMasterInvalidMeta
  /-- `ErrExecutorPreDispatchFailed`, wrapping the cause. -/
  | errExecutorPreDispatchFailed (cause : Error)
  /-- `ErrExecutorConfirmDispatchFailed`, wrapping the cause. -/
  | errExecutorConfirmDispatchFailed (cause : Error)
  /-- `ErrRuntimeIncomingQueueFull`: the task runner's queue has no room. -/
  | errRuntimeIncomingQueueFull
  /-- `ErrBuildJobFailed`: a submitted job has an unknown type or a bad config. -/
  | errBuildJobFailed
  /-- `ErrMetaEmptyKey`: "meta empty key". -/
  | errMetaEmptyKey
  /-- `ErrMetaOptionConflict`: more than one range option. -/
  | errMetaOptionConflict
  /-- `ErrMetaOptionInvalid`, wrapping the cause. -/
  | errMetaOptionInvalid (cause : Error)
  /-- `ErrMetaNestedTxn`: a transaction inside a transaction. -/
  | errMetaNestedTxn
  /-- `ErrMetaCommittedTxn`: a transaction used after its commit. -/
  | errMetaCommittedTxn
  /-- An error returned by a gRPC call, with its status code. -/
  | status (code : Code)
  /-- `context.DeadlineExceeded`, possibly annotated. -/
  | deadlineExceeded
  /-- `context.Canceled`. -/
  | canceled
  /-- Any other error, by its message; no modelled function inspects it. -/
  | other (msg : String)
  deriving DecidableEq, Repr

end Microcosm
