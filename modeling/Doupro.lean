import Doupro.Accounts.AdminCount
import Doupro.Accounts.Identities
import Doupro.Accounts.NoImplicitAdmin
import Doupro.Accounts.PasswordChange
import Doupro.Accounts.Programs
import Doupro.Accounts.ProtectedAdmin
import Doupro.Accounts.Roles
import Doupro.Accounts.Sessions
import Doupro.Accounts.Statements
import Doupro.Accounts.UserHandlers
import Doupro.Api.Authorization
import Doupro.Api.BulkUpdates
import Doupro.Api.Containers
import Doupro.Api.Entitlement
import Doupro.Api.Logs
import Doupro.Api.OncePins
import Doupro.Api.Pins
import Doupro.Api.RateLimit
import Doupro.Api.ReferenceRoundTrip
import Doupro.Api.Registries
import Doupro.Api.Routes
import Doupro.Api.Schedules
import Doupro.Api.Settings
import Doupro.Api.StackSchedules
import Doupro.Api.UpdateRuns
import Doupro.Cli.Client
import Doupro.Cli.Reaches
import Doupro.CrashLoop.AutoNotices
import Doupro.CrashLoop.AutomaticRollback
import Doupro.CrashLoop.LiveState
import Doupro.CrashLoop.Monitor
import Doupro.CrashLoop.MonitorWrites
import Doupro.CrashLoop.RollbackTarget
import Doupro.CrashLoop.TriggeredWatch
import Doupro.Docker.Engine
import Doupro.Docker.Types
import Doupro.Docker.WaitHealthy
import Doupro.Events.Logger
import Doupro.Events.Redaction
import Doupro.Go.Base64
import Doupro.Go.Base64Padded
import Doupro.Go.Duration
import Doupro.Go.Errors
import Doupro.Go.Json
import Doupro.Go.JsonEqual
import Doupro.Go.JsonText
import Doupro.Go.Path
import Doupro.Go.Query
import Doupro.Go.Strconv
import Doupro.Go.Strings
import Doupro.Go.Timestamp
import Doupro.Go.TimestampOrder
import Doupro.Go.Url
import Doupro.Go.Values
import Doupro.Http.ServeMux
import Doupro.Interaction.Contracts
import Doupro.Interaction.Layers
import Doupro.Interaction.Semantics
import Doupro.Interaction.Syntax
import Doupro.Interaction.Threads
import Doupro.Interaction.Transactions
import Doupro.Notifier.Attempts
import Doupro.Notifier.Channels
import Doupro.Notifier.Delivery
import Doupro.Notifier.Durability
import Doupro.Notifier.SetChannels
import Doupro.Registry.Challenge
import Doupro.Registry.Client
import Doupro.Registry.Confinement
import Doupro.Registry.Http
import Doupro.Registry.Reference
import Doupro.Registry.ResolveVersion
import Doupro.Registry.Semver
import Doupro.Registry.SemverCandidates
import Doupro.Registry.VersionSearch
import Doupro.Registry.Versions
import Doupro.Scheduler.Blockers
import Doupro.Scheduler.Books
import Doupro.Scheduler.CandidateStability
import Doupro.Scheduler.Check
import Doupro.Scheduler.CronForward
import Doupro.Scheduler.ExcludedTargets
import Doupro.Scheduler.Exclusion
import Doupro.Scheduler.ExclusionRuns
import Doupro.Scheduler.Executors
import Doupro.Scheduler.FailedLookups
import Doupro.Scheduler.FirstDetections
import Doupro.Scheduler.Maintenance
import Doupro.Scheduler.Plans
import Doupro.Scheduler.Predictor
import Doupro.Scheduler.SelfUpdateGate
import Doupro.Scheduler.SharedTags
import Doupro.Scheduler.VersionResolution
import Doupro.Secrets.Cipher
import Doupro.Secrets.KeyFile
import Doupro.Secrets.KeyFileRuns
import Doupro.Secrets.KeyText
import Doupro.Settings.Bounds
import Doupro.Settings.General
import Doupro.Settings.Refinement
import Doupro.Settings.Requests
import Doupro.Settings.Statements
import Doupro.Sql.Like
import Doupro.Store.Containers
import Doupro.Store.EventFilters
import Doupro.Store.MigrationCrash
import Doupro.Store.MigrationRestart
import Doupro.Store.MigrationScripts
import Doupro.Store.NotificationQueue
import Doupro.Store.Records
import Doupro.Store.References
import Doupro.Store.RollbackWatches
import Doupro.Store.Schedules
import Doupro.Store.SecretMigration
import Doupro.Store.Secrets
import Doupro.Store.WatchLifecycle
import Doupro.System.Calls
import Doupro.System.Crowd
import Doupro.System.Frames
import Doupro.System.Scripts
import Doupro.System.Steady
import Doupro.System.Steps
import Doupro.System.World
import Doupro.Table.Associations
import Doupro.Table.Families
import Doupro.Table.Keyed
import Doupro.Updater.Applied
import Doupro.Updater.ArmedWatch
import Doupro.Updater.ClosedGate
import Doupro.Updater.Commits
import Doupro.Updater.Course
import Doupro.Updater.ExcludedFlag
import Doupro.Updater.FailureNotices
import Doupro.Updater.Fidelity
import Doupro.Updater.GuardProtocol
import Doupro.Updater.HealthTimeline
import Doupro.Updater.NameKept
import Doupro.Updater.OperationGuard
import Doupro.Updater.OperationKeys
import Doupro.Updater.OperationRuns
import Doupro.Updater.Operations
import Doupro.Updater.ParentKept
import Doupro.Updater.Plan
import Doupro.Updater.Recreate
import Doupro.Updater.RecreateRuns
import Doupro.Updater.Revert
import Doupro.Updater.RevertImage
import Doupro.Updater.RevertRuns
import Doupro.Updater.Rollback
import Doupro.Updater.SelfUpdate
import Doupro.Updater.SelfUpdateHelper
import Doupro.Updater.SelfUpdateHelperRuns
import Doupro.Updater.SelfUpdateOutcomes
import Doupro.Updater.Services
import Doupro.Updater.StableReference
import Doupro.Updater.Update
import Doupro.Updater.VolumesKept
import Doupro.Updater.Waits
import Doupro.Updater.WatchIdentity
import Doupro.Web.ContainersPage
