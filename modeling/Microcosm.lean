import Microcosm.Library.Transition
import Microcosm.Library.Word
import Microcosm.Library.Map
import Microcosm.Library.Channel
import Microcosm.Library.KeyRange
import Microcosm.Pkg.Errors
import Microcosm.Lib.Model.Basic
import Microcosm.Lib.Master.WorkerEntry
import Microcosm.Lib.Master.WorkerManager
import Microcosm.Lib.Master.Harness
import Microcosm.Lib.Master.Safety
import Microcosm.Lib.Master.EntryHistory
import Microcosm.Lib.Master.Delivery
import Microcosm.Lib.Master.EventOrder
import Microcosm.Servermaster.JobFsm
import Microcosm.Executor.TaskCommitter
import Microcosm.Client.TaskDispatcher
import Microcosm.Client.DispatchProtocol
import Microcosm.Lib.CreateWorker
import Microcosm.Servermaster.JobManager
import Microcosm.Pkg.Meta.Metaclient
import Microcosm.Pkg.Meta.Etcd
import Microcosm.Pkg.Meta.Namespace
import Microcosm.Jobmaster.CvsJob.CvsJobMaster
import Microcosm.Jobmaster.CvsJob.BaseJobMaster
import Microcosm.Lib.Statusutil.Writer
import Microcosm.Lib.Worker
import Microcosm.Servermaster.Scheduler
import Microcosm.Library.Loop
import Microcosm.Servermaster.Planner.DagWalker
import Microcosm.Library.FileTree
import Microcosm.Pkg.Externalresource.Broker.FileManager
import Microcosm.Executor.TaskRunner
import Microcosm.Jobmaster.Dm.WorkerManager
import Microcosm.Jobmaster.Dm.Metadata.JobStore
import Microcosm.Pkg.Rpcutil.Client
import Microcosm.Lib.Lease
import Microcosm.Jobmaster.Dm.Ticker
import Microcosm.Lib.MessageRouter
import Microcosm.Library.Hex
import Microcosm.Pkg.Adapter.KeyAdapter
import Microcosm.Pkg.Containers.SliceQueue
import Microcosm.Pkg.Dm.MessagePair
import Microcosm.Pkg.Srvdiscovery.Discovery
import Microcosm.Library.Slots
import Microcosm.Pkg.Notifier.Notifier
import Microcosm.Servermaster.ExecutorManager
import Microcosm.Library.Machine
import Microcosm.Pkg.Externalresource.Manager.Service
import Microcosm.Servermaster.Server
import Microcosm.Pkg.Externalresource.Broker.Broker
import Microcosm.Jobmaster.Dm.TaskManager
