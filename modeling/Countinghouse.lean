import Countinghouse.PeerChannel
import Countinghouse.PeerClones
import Countinghouse.RedisMetering
import Countinghouse.ToolRegistry
import Countinghouse.ToolsCall
import Countinghouse.DiskQuota
import Countinghouse.HostCalls
import Countinghouse.FileNamespace
import Countinghouse.Program
import Countinghouse.BrokerWorld
import Countinghouse.FsBroker
import Countinghouse.HostEffects
import Countinghouse.BrokerChecks
import Countinghouse.BrokerWarrant
import Countinghouse.FileWarrants
import Countinghouse.WarrantedRuns
import Countinghouse.BrokerReach
import Countinghouse.Confinement
import Countinghouse.RealpathCache
import Countinghouse.LinkRule
import Countinghouse.ReadOnlyRoots
import Countinghouse.PeerBroker
import Countinghouse.PeerGrants
import Countinghouse.PeerHandlers
import Countinghouse.PeerRuns
import Countinghouse.PeerInvokes
import Countinghouse.FreshNames
import Countinghouse.MainThread
import Countinghouse.RegisteredOnly
import Countinghouse.DescriptorDuty
import Countinghouse.BrokerClosing
import Countinghouse.ModuleLifecycle
import Countinghouse.HopPaths
import Countinghouse.HopBilling
import Countinghouse.ChargedCalls
import Countinghouse.PeerPorts
import Countinghouse.PeerRevocation
import Countinghouse.PeerDirection
import Countinghouse.AuthProviders
import Countinghouse.DeviceRateLimits
import Countinghouse.ModulePermissions
import Countinghouse.TaskFailures
import Countinghouse.ModuleSupervisor
import Countinghouse.RequestQueue
import Countinghouse.AnsweredRequests
import Countinghouse.BrokerQueues
import Countinghouse.BrokerProgress
import Countinghouse.CompositionCheck
import Countinghouse.BridgeReplies
import Countinghouse.BridgeCalls
import Countinghouse.BridgeDelivery
import Countinghouse.JobControl
import Countinghouse.JobIsolation
import Countinghouse.JobAnswers
import Countinghouse.LockOrder
import Countinghouse.TokenBucket
import Countinghouse.MessageRate
import Countinghouse.SchedulerTurns
import Countinghouse.SchedulerRuns
import Countinghouse.DescriptorTable
import Countinghouse.GatewayMessages
import Countinghouse.NamespacePaths
import Countinghouse.OutputSchemas
import Countinghouse.SpawnWalk
import Countinghouse.RemovalUsage
import Countinghouse.ProgramTraces
import Countinghouse.OpenFiles
import Countinghouse.WriteCharges
import Countinghouse.FailedOpens
import Countinghouse.SplitText
import Countinghouse.DeviceSpecs
import Countinghouse.MeteringKeys
import Countinghouse.ToolNaming
import Countinghouse.UniqueReading
import Countinghouse.CanonicalJson
import Countinghouse.PlanValidator
import Countinghouse.HandlerMap
import Countinghouse.MarkedSearch
import Countinghouse.ModuleTree
import Countinghouse.SpecMigration
import Countinghouse.ActionCalls
import Countinghouse.DeviceActions
import Countinghouse.PlanPrediction
import Countinghouse.PathTexts
import Countinghouse.DataDirectories
import Countinghouse.SessionAnswers
import Countinghouse.WorkQueue
import Countinghouse.CodeRoots
import Countinghouse.DirectivePrologue
import Countinghouse.EcmascriptText
import Countinghouse.IdentityPrefix
import Countinghouse.PlainPrograms
import Countinghouse.WorkerLimits
import Countinghouse.TextRoots
import Countinghouse.ThreadFacade
import Countinghouse.AuditedRuns
import Countinghouse.LoaderHooks
import Countinghouse.ReachedCode
import Countinghouse.PackageLookups
import Countinghouse.SandboxConfig
import Countinghouse.CappedReports
import Countinghouse.ModuleLockdown
import Countinghouse.OwnedEntries
import Countinghouse.DeviceQueries
import Countinghouse.HeldItems
import Countinghouse.FsRouting
