import CyberWorkbench.StepMachine
import CyberWorkbench.KeyedTable
import CyberWorkbench.PythonValues
import CyberWorkbench.AgentRecords
import CyberWorkbench.Notifications
import CyberWorkbench.BackgroundWork
import CyberWorkbench.Transactions
import CyberWorkbench.ObligationLockstep
import CyberWorkbench.WorkOwners
import CyberWorkbench.SubtreeTeardown
import CyberWorkbench.BootRecovery
import CyberWorkbench.CommandJobs
import CyberWorkbench.CommandSteps
import CyberWorkbench.CommandCancellation
import CyberWorkbench.WorkspaceInvalidation
import CyberWorkbench.SplitTransactions
import CyberWorkbench.InterruptibleTurn
import CyberWorkbench.InterruptMasking
import CyberWorkbench.WakeSignals
import CyberWorkbench.PosixShell
import CyberWorkbench.PowerShell
import CyberWorkbench.CommandStrings
import CyberWorkbench.ShellTools
import CyberWorkbench.PowerShellTools
import CyberWorkbench.CommandEncoding
import CyberWorkbench.DrainLoop
import CyberWorkbench.SessionDriver
import CyberWorkbench.SessionRest
import CyberWorkbench.ModelInput
import CyberWorkbench.ToolTransactions
import CyberWorkbench.TwoOrders
import CyberWorkbench.NormalForm
import CyberWorkbench.SettledCalls
import CyberWorkbench.ChatTranscript
import CyberWorkbench.TranscriptOutline
import CyberWorkbench.ShownMessages
import CyberWorkbench.KeptBlocks
import CyberWorkbench.ContextProjection
import CyberWorkbench.ContextCompaction
import CyberWorkbench.CompactedProjection
import CyberWorkbench.CompactionGroups
import CyberWorkbench.CompactionProgress
import CyberWorkbench.ContextBudget
import CyberWorkbench.InputChunks
import CyberWorkbench.PrunedInput
import CyberWorkbench.NeedlessPruning
import CyberWorkbench.ModelCalls
import CyberWorkbench.ConversationStore
import CyberWorkbench.PermissionGate
import CyberWorkbench.PermissionSafety
import CyberWorkbench.PermissionAnswers
import CyberWorkbench.QueuedScope
import CyberWorkbench.ApprovalGate
import CyberWorkbench.ApprovalReplay
import CyberWorkbench.ApprovalBinding
import CyberWorkbench.PolicyEngine
import CyberWorkbench.SessionLiveness
import CyberWorkbench.SessionPool
import CyberWorkbench.RelaunchBudget
import CyberWorkbench.OneLiveSession
import CyberWorkbench.LiveProjection
import CyberWorkbench.SubscriberQueues
import CyberWorkbench.LastWrite
import CyberWorkbench.FirstWrite
import CyberWorkbench.ProjectionFold
import CyberWorkbench.TimelineStore
import CyberWorkbench.NumberRegister
import CyberWorkbench.TimelineLog
import CyberWorkbench.TimelinePages
import CyberWorkbench.TimelineIdentity
import CyberWorkbench.SubagentDriver
import CyberWorkbench.CommandLimit
import CyberWorkbench.TimelineAgreement
import CyberWorkbench.TableReferences
import CyberWorkbench.TargetUrls
import CyberWorkbench.Utf8Replacement
import CyberWorkbench.ToolOutput
import CyberWorkbench.ToolRuns
import CyberWorkbench.DocumentUpload
import CyberWorkbench.RagLifecycle
import CyberWorkbench.InstanceConfig
import CyberWorkbench.ModeUpdates
import CyberWorkbench.ProjectRecords
import CyberWorkbench.RecordOperations
import CyberWorkbench.ScopeSynchronization
import CyberWorkbench.CveEnrichment
import CyberWorkbench.CveImport
import CyberWorkbench.CveMatching
import CyberWorkbench.ProjectBoard
import CyberWorkbench.FileActions
import CyberWorkbench.FileCommands
import CyberWorkbench.LostConnection
import CyberWorkbench.RemoteReplace
import CyberWorkbench.RemoteFiles
import CyberWorkbench.RemoteWrites
import CyberWorkbench.Base64
import CyberWorkbench.ToolChecks
import CyberWorkbench.ToolCatalogue
import CyberWorkbench.TextLines
import CyberWorkbench.CommandOutputs
import CyberWorkbench.StreamSegments
import CyberWorkbench.NestedEvents
import CyberWorkbench.FairRuns
import CyberWorkbench.TimelineWriter
import CyberWorkbench.WriterDurability
import CyberWorkbench.WriterOrder
import CyberWorkbench.DelegationGraph
import CyberWorkbench.TaskPages
import CyberWorkbench.WordSegments
import CyberWorkbench.Utterances
import CyberWorkbench.RetrievalTopics
import CyberWorkbench.KnowledgeGraphs
import CyberWorkbench.LinkResolution
import CyberWorkbench.ReportFiles
import CyberWorkbench.KnownHosts
import CyberWorkbench.Sidecar
import CyberWorkbench.UrlAuthority
import CyberWorkbench.Egress
import CyberWorkbench.ResponseStatus
import CyberWorkbench.TableKeys
import CyberWorkbench.ProjectWorkspaces
import CyberWorkbench.PagedLists
