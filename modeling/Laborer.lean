import Laborer.AcpRuntime.AcceptedMutations
import Laborer.AcpRuntime.ContextLocks
import Laborer.AcpRuntime.MigrationRuns
import Laborer.AcpRuntime.ProcessStateRuns
import Laborer.AcpRuntime.ReadyGate
import Laborer.ChatPlane.ActivationHistory
import Laborer.ChatPlane.StateAnswers
import Laborer.ChatPlane.TurnOutcomes
import Laborer.Config.ConfigUpdates
import Laborer.Database.Migrate
import Laborer.Database.StaleWriters
import Laborer.Database.TaskFeed
import Laborer.Database.TaskNumbers
import Laborer.DurableRuntime.ConversationOutputs
import Laborer.DurableRuntime.ConversationWorkflow
import Laborer.FileWatcher.WatcherRuns
import Laborer.Files.DiffEntries
import Laborer.Files.ParseGitStatus
import Laborer.Files.WholeWalk
import Laborer.Panels.ProgressiveClose
import Laborer.Panels.ReconcileRace
import Laborer.Panels.WorkspaceCleanUp
import Laborer.Previews.TabRuns
import Laborer.Projects.TaskReferences
import Laborer.Sandcastle.IssueGraphProgress
import Laborer.TaskCards.BranchNames
import Laborer.TaskCards.SlackPlanning
import Laborer.TaskCards.WorkspaceTree
import Laborer.Terminal.CoalescingDataHandler
import Laborer.Terminal.HostConnections
import Laborer.Terminal.HostSockets
import Laborer.Terminal.JournalRuns
import Laborer.Terminal.LifecycleGate
import Laborer.Terminal.ProcessTree
import Laborer.Terminal.PtyLives
import Laborer.Terminal.ReplayRecorder
import Laborer.Terminal.StatusRuns
import Laborer.Worktrees.BranchRefreshes
import Laborer.Worktrees.FetchLoops
import Laborer.Worktrees.PollingServices
import Laborer.Worktrees.PrWatcher
import Laborer.Worktrees.ProjectWatches
import Laborer.Worktrees.WorktreePaths
import Laborer.Worktrees.WorktreeTaskTranslator
