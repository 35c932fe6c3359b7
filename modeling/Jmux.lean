import Jmux.Goal.SpecEdits
import Jmux.Goal.Run
import Jmux.Lib.FirstMatch
import Jmux.Lib.Str
import Jmux.Goal.Graph
import Jmux.Goal.IterationFile
import Jmux.Lib.Transition
import Jmux.Goal.NodeMoves
import Jmux.Goal.LaunchMoves
import Jmux.Goal.Driver
import Jmux.Goal.World
import Jmux.Goal.WorldEffects
import Jmux.Goal.WorldInvariant
import Jmux.Goal.SchedulerInvariant
import Jmux.Goal.FinishedWork
import Jmux.Goal.Worktrees
import Jmux.Goal.Terminal
import Jmux.Goal.Advance
import Jmux.Goal.Revive
import Jmux.Goal.Slots
import Jmux.Goal.Ownership
import Jmux.Lib.TabGroups
import Jmux.Model.AgentMonitor
import Jmux.Model.InStep
import Jmux.Model.TabManager
import Jmux.Model.WellFormed
import Jmux.Socket.MovePanel
import Jmux.Socket.Representation
import Jmux.Goal.Pause
import Jmux.Model.ClosedStack
import Jmux.Model.References
import Jmux.Session.Create
import Jmux.Session.Groups
import Jmux.Lib.Fifo
import Jmux.Lib.Json
import Jmux.Lib.MoveOne
import Jmux.Remote.Address
import Jmux.Remote.AddressPolicy
import Jmux.Remote.Agreement
import Jmux.Remote.Relay
import Jmux.Goal.Iterate
import Jmux.Goal.Verdict
import Jmux.Lib.Shell
import Jmux.Goal.LaunchCommand
import Jmux.Goal.Permission
import Jmux.Lib.Git
import Jmux.Goal.Merge
import Jmux.Goal.ProposalGate
import Jmux.Goal.Create
import Jmux.Model.Notifications
import Jmux.Socket.Notification
import Jmux.Lib.Hex
import Jmux.Remote.RelayAuth
import Jmux.Remote.RelayServer
import Jmux.Lib.Value
import Jmux.Socket.V1Line
import Jmux.Socket.V1
import Jmux.Socket.ShellReport
import Jmux.Socket.V2Request
import Jmux.Socket.V1Call
import Jmux.Socket.V1Serve
import Jmux.Socket.V1Workspace
import Jmux.Socket.V1Panel
import Jmux.Socket.V1Place
import Jmux.Socket.V1Agreement
import Jmux.Lib.Buckets
import Jmux.Session.Restart
import Jmux.Session.RoundTrip
import Jmux.Session.RemotePanels
import Jmux.Socket.WorkspaceAction
import Jmux.Socket.AutoNaming
import Jmux.Socket.ClosedTabs
import Jmux.Goal.Revise
import Jmux.Lib.TypedLine
import Jmux.Goal.Prompts
import Jmux.Lib.JsonText
import Jmux.Socket.Server
import Jmux.Goal.RunnerNames
import Jmux.Lib.FileTree
import Jmux.Goal.Handoff
import Jmux.Lib.Lines
import Jmux.Session.Scrollback
import Jmux.Lib.Fill
import Jmux.Remote.Proxy
import Jmux.Remote.ProxyRun
import Jmux.Remote.ProxyEnds
import Jmux.Remote.ProxyFragments
import Jmux.Remote.ProxyStreams
import Jmux.Lib.Buffered
import Jmux.Remote.Framing
import Jmux.Remote.Sessions
import Jmux.Remote.LossyText
import Jmux.Remote.Forward
import Jmux.Goal.IterationBudget
import Jmux.Goal.Stalled
import Jmux.Lib.TopologicalOrder
import Jmux.Goal.ProposalPlans
import Jmux.Goal.MergeTexts
import Jmux.Goal.MergeRetry
import Jmux.Lib.Porcelain
import Jmux.Goal.CleanBase
import Jmux.Goal.OutputDir
import Jmux.Goal.LaunchArgv
import Jmux.Lib.Placeholders
import Jmux.Goal.Templates
import Jmux.Goal.Escalation
import Jmux.Goal.ResolveRun
import Jmux.Model.Ancestors
import Jmux.Model.Removal
import Jmux.Model.ShownFocus
import Jmux.Model.SwapPanels
import Jmux.Model.Neighbor
import Jmux.Lib.Blocks
import Jmux.Model.GroupBlocks
import Jmux.Model.FocusHistory
import Jmux.Model.MonitorSync
import Jmux.Session.ResumeIds
import Jmux.Lib.NumberedRun
import Jmux.Model.PointerMenu
import Jmux.Lib.Cut
import Jmux.Lib.LowerCase
import Jmux.Browser.CanonicalUrl
import Jmux.Browser.SamePage
import Jmux.Browser.History
import Jmux.Browser.Profiles
import Jmux.Socket.Telemetry
import Jmux.Socket.TelemetryRuns
import Jmux.Lib.PlaceInOrder
import Jmux.Socket.Reorder
import Jmux.Lib.Numeral
import Jmux.Lib.PathComponents
import Jmux.Ports.ProcTables
import Jmux.Ports.Scan
import Jmux.Settings.CustomCommands
import Jmux.Lib.LineStream
import Jmux.Cli.AgentView
import Jmux.Ui.DiffPanel
import Jmux.Lib.JsonTokens
import Jmux.Lib.Jsonc
import Jmux.Settings.Jsonc
import Jmux.Cli.Config
import Jmux.Settings.Store
import Jmux.Socket.Targets
import Jmux.Lib.CharIndex
import Jmux.Model.Divider
import Jmux.Ui.NotesPanel
import Jmux.Ui.Truncation
import Jmux.Socket.AgentHooks
import Jmux.Goal.Slug
import Jmux.Cli.Wrapped
import Jmux.Session.WordMatch
import Jmux.Remote.ProxyTargets
import Jmux.Remote.HexToken
import Jmux.Lib.LongestChain
import Jmux.Ui.GraphLevels
import Jmux.Remote.Connections
import Jmux.Remote.Calls
import Jmux.Socket.Instances
import Jmux.Proc.Stat
import Jmux.Proc.Walk
import Jmux.Lib.Getopt
import Jmux.Lib.ShellList
import Jmux.Remote.SshLine
import Jmux.Remote.RelayHost
