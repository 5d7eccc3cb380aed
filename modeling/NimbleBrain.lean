import NimbleBrain.Admission.Guarantees
import NimbleBrain.Credentials.RefreshOnce
import NimbleBrain.Credentials.SealedValue
import NimbleBrain.Engine.SpendCheck
import NimbleBrain.Engine.ResultBound
import NimbleBrain.Tasks.BatchGuarantees
import NimbleBrain.Tasks.BatchBudget
import NimbleBrain.Tasks.BootCharges
import NimbleBrain.Tasks.RunCrashes
import NimbleBrain.Scheduler.CountedOnce
import NimbleBrain.Scheduler.DueOnce
import NimbleBrain.Scheduler.BudgetHolds
import NimbleBrain.Scheduler.Streak
import NimbleBrain.Conversation.CompactionReload
import NimbleBrain.Conversation.ForkCopy
import NimbleBrain.Notifications.InboxPosition
import NimbleBrain.Notifications.Outbox
import NimbleBrain.EventRuns.Settlement
import NimbleBrain.Notifications.DeliveryRuns
import NimbleBrain.Engine.SkillLeftOut
import NimbleBrain.Permissions.Store
import NimbleBrain.Files.FolderWrites
import NimbleBrain.Files.Query
import NimbleBrain.Conversation.IndexFresh
import NimbleBrain.Streaming.ExactlyOnce
import NimbleBrain.McpSource.ToolMemo
import NimbleBrain.McpSource.TaskOutcome
import NimbleBrain.Conversation.MidTurn
import NimbleBrain.Conversation.Transcript
import NimbleBrain.Engine.SkillTruncate
import NimbleBrain.Engine.RepeatRefusal
import NimbleBrain.Workspaces.Updates
import NimbleBrain.Identity.OneSubject
import NimbleBrain.Identity.Revocation
import NimbleBrain.McpSource.LifeCycleRuns
import NimbleBrain.Notifications.NameGlob
import NimbleBrain.Notifications.PollStarvation
import NimbleBrain.Engine.ActiveToolsRuns
import NimbleBrain.Notifications.TemplateRendered
import NimbleBrain.Engine.ToolSchemaNames
import NimbleBrain.Engine.CoerceInputConserved
import NimbleBrain.Spend.UsageReportAgrees
import NimbleBrain.Conversation.HeaderAgrees
import NimbleBrain.Conversation.HeaderResume
import NimbleBrain.Tasks.ItemLogRuns
import NimbleBrain.Tasks.Criteria
import NimbleBrain.Tasks.JudgeState
import NimbleBrain.McpSource.RecoveryBudget
import NimbleBrain.McpSource.HealthMonitor
import NimbleBrain.McpSource.Registry
import NimbleBrain.Connectors.UrlValidator
import NimbleBrain.Hooks.Forward
import NimbleBrain.Lifecycle.Notify
