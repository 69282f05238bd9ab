import Velda.TaskStore.Verdict
import Velda.TaskStore.Commuting
import Velda.Broker.Cancellation
import Velda.Broker.Capacity
import Velda.Broker.Confirmation
import Velda.Broker.Cancelling
import Velda.Broker.Kill
import Velda.Broker.Loss
import Velda.Broker.Grants
import Velda.Broker.Coordinator
import Velda.Broker.Members
import Velda.Fleet.WorkerView
import Velda.Fleet.Demand
import Velda.SandboxFs.RWFile
import Velda.SandboxFs.CacheDirectory
import Velda.FileServer.Confinement
import Velda.Backends.Safety
import Velda.Backends.Naming
import Velda.Pool.Roster
import Velda.Export.Freshness
import Velda.Storage.Exports
import Velda.Jobs.Isolation
import Velda.TaskStore.Termination
import Velda.TaskStore.Dependencies
import Velda.TaskStore.Priority
import Velda.Tracker.Ownership
import Velda.Instances.Deletion
import Velda.Agentd.Dns
import Velda.Tracker.Shards
import Velda.TaskStore.Recovery
import Velda.Broker.Managers
import Velda.Broker.SessionDatabase
import Velda.Broker.Answers
import Velda.SandboxFs.NoCacheFileHandle
import Velda.SandboxFs.CacheKeys
import Velda.SandboxFs.AsyncOps
import Velda.Agentd.Addresses
import Velda.FileServer.LockWorkers
import Velda.SandboxFs.Reconnect
import Velda.FileServer.Mount
