import ScoutEngine.Executor.Retry
import ScoutEngine.Executor.Termination
import ScoutEngine.Executor.PauseContinue
import ScoutEngine.Lib.Ledger
import ScoutEngine.Lib.LoopStack
import ScoutEngine.Api.Service
import ScoutEngine.Executor.NestedLoops
import ScoutEngine.Api.Moves
import ScoutEngine.Api.FinalStatus
import ScoutEngine.Api.StopSignal
import ScoutEngine.Api.ResumeQueue
import ScoutEngine.Executor.Relocation
import ScoutEngine.Executor.Secrets
import ScoutEngine.Passes
import ScoutEngine.Api.Artifacts
import ScoutEngine.Api.Auth
import ScoutEngine.Api.KeyTrust
import ScoutEngine.Api.Report
import ScoutEngine.Executor.Messages
import ScoutEngine.Executor.Monitor
import ScoutEngine.Schedules.Cron
import ScoutEngine.Schedules.Jobs
import ScoutEngine.Schedules.Start
import ScoutEngine.Executor.Signals
import ScoutEngine.Executor.Interpolation
import ScoutEngine.Executor.Jumps
import ScoutEngine.Executor.LoopLaw
import ScoutEngine.Executor.Reference
import ScoutEngine.Executor.ErrorPauses
import ScoutEngine.Executor.StoredLists
import ScoutEngine.Api.Isolation
import ScoutEngine.Executor.LookAhead
import ScoutEngine.VariableSpec
import ScoutEngine.IncludedVariables
import ScoutEngine.Api.Detail
import ScoutEngine.Api.Download
import ScoutEngine.Api.Lockout
import ScoutEngine.Api.Middleware
import ScoutEngine.Executor.Pictures
import ScoutEngine.Schedules.Failures
import ScoutEngine.Schedules.NextRun
import ScoutEngine.Executor.Accounting
import ScoutEngine.Executor.Frames
import ScoutEngine.Executor.SessionState
import ScoutEngine.Executor.Conditions
import ScoutEngine.Executor.Selectors
import ScoutEngine.Api.FragmentVersions
import ScoutEngine.Api.RunRequest
import ScoutEngine.MonitorThreads
import ScoutEngine.Disposition
import ScoutEngine.Executor.Blocks
import ScoutEngine.Executor.StoredTexts
import ScoutEngine.Documents
import ScoutEngine.Api.Lifecycle
import ScoutEngine.Executor.Provenance
import ScoutEngine.Executor.Footprint
import ScoutEngine.Api.DetailFiles
import ScoutEngine.Api.Integrity
import ScoutEngine.MigrateWorkflows
