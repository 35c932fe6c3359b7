/-
  Jmux.Session.Restore — the tab manager that a saved session gives back
  (`build_workspace_from_snapshot` and `restore_session` of `app.rs`).

  The ids that the restore draws are inputs (`Draws`); `shellEscape` is the
  third-party function of that name.
-/
import Jmux.Session.Snapshot

namespace Jmux.Session

open Jmux.Lib Jmux.Model

/-! ## §1. Commands. -/

/-- `settings::AgentRestoreSettings`. -/
structure AgentRestoreSettings where
  claudeCode  : Bool := true
  codex       : Bool := true
  opencode    : Bool := true
  rovoDev     : Bool := true
  cursor      : Bool := true
  grok        : Bool := true
  amp         : Bool := true
  pi          : Bool := true
  hermes      : Bool := true
  antigravity : Bool := true
  deriving DecidableEq, Repr

/-- The command is matched by prefix against the known agent commands. -/
def AgentRestoreSettings.isEnabledFor (settings : AgentRestoreSettings) (resumeCmd : String) :
    Bool :=
  let starts := Str.startsWith resumeCmd
  -- an agent that is not known is not restored
  if starts "claude" then settings.claudeCode
  else if starts "opencode" then settings.opencode
  else if starts "codex" then settings.codex
  else if starts "rovo" then settings.rovoDev
  else if starts "cursor" then settings.cursor
  else if starts "grok" then settings.grok
  else if starts "amp" then settings.amp
  else if starts "pi" then settings.pi
  else if starts "hermes" then settings.hermes
  else if starts "agy" || starts "antigravity" || starts "gemini" then settings.antigravity
  else false

/-- What the restore reads besides the session file. -/
structure RestoreEnv where
  shellEscape  : String → String
  agentRestore : AgentRestoreSettings := {}
  /-- The build has the `webkit` feature. -/
  webkit       : Bool := true
  home         : String := "/"

/-- `ssh -t … 'cd <dir>; exec claude --resume <id>'` -/
def buildRemoteClaudeResume (shellEscape : String → String) (remoteConfig : RemoteConfig)
    (directory : Option String) (sessionId : String) : String :=
  let escapedId := shellEscape sessionId
  let remoteCmd :=
    match directory with
    | some dir => s!"cd {shellEscape dir} 2>/dev/null; exec claude --resume {escapedId}"
    | none => s!"exec claude --resume {escapedId}"
  "ssh -t" ++ (if remoteConfig.agentForward then " -A" else "")
    ++ ((remoteConfig.port.map fun port => s!" -p {port}").getD "")
    ++ ((remoteConfig.identity.map fun identity => s!" -i {shellEscape identity}").getD "")
    ++ s!" {shellEscape remoteConfig.destination}" ++ s!" {shellEscape remoteCmd}"

/-- A remote tab never runs the agent command on this machine. -/
def restoredCommand (env : RestoreEnv) (remoteConfig : Option RemoteConfig)
    (panel : SessionPanelSnapshot) : Option String :=
  match remoteConfig with
  | some remoteConfig =>
      match panel.agentSessionId.filter fun _ => env.agentRestore.isEnabledFor "claude" with
      | some id =>
          some (buildRemoteClaudeResume env.shellEscape remoteConfig panel.directory id)
      | none => panel.command
  | none => (panel.agentResumeCommand.filter env.agentRestore.isEnabledFor).or panel.command

/-! ## §2. One workspace. -/

/-- `none` skips the panel. -/
def restoredPanelType (env : RestoreEnv) (name : String) : Option PanelType :=
  if name = "browser" then if env.webkit then some .browser else none
  else if name = "markdown" then if env.webkit then some .markdown else none
  else if name = "diff" then some .diff
  else if name = "project" then some .project
  else if name = "file_preview" then some .filePreview
  else if name = "notes" then some .notes
  else if name = "history" then some .history
  else if name = "vault" then some .vault
  else if name = "graph" then some .graph
  else some .terminal

def restoredPanel (env : RestoreEnv) (remoteConfig : Option RemoteConfig)
    (snapshot : SessionPanelSnapshot) (panelType : PanelType) : Panel where
  id                := snapshot.id
  panelType         := panelType
  title             := snapshot.title
  customTitle       := snapshot.customTitle
  directory         := snapshot.directory
  isPinned          := snapshot.isPinned
  isManuallyUnread  := snapshot.isManuallyUnread
  ttyName           := snapshot.ttyName
  browserUrl        := snapshot.browser.bind (·.urlString)
  markdownFile      := snapshot.markdown.map (·.filePath)
  command           := restoredCommand env remoteConfig snapshot
  pendingScrollback := snapshot.terminal.bind (·.scrollback)
  agentSessionId    := snapshot.agentSessionId

/-- The ids that one workspace draws: its own and its first panel's. -/
abbrev WsDraw := Uuid × Uuid

/-- The workspace has a fresh id; its panels keep theirs. -/
def buildWorkspaceFromSnapshot (env : RestoreEnv) (draw : WsDraw)
    (snapshot : SessionWorkspaceSnapshot) (windowId : Option Uuid) : Workspace :=
  { Workspace.withDirectory draw.1 draw.2 env.home snapshot.currentDirectory with
    windowId       := windowId
    customTitle    := snapshot.customTitle
    customColor    := snapshot.customColor
    isPinned       := snapshot.isPinned
    processTitle   := snapshot.processTitle
    remoteConfig   := snapshot.remoteConfig
    -- taken over as it was saved
    groupId        := snapshot.groupId
    layout         := snapshot.layout.toLayout
    panels         :=
      snapshot.panels.foldl
        (fun panels p =>
          match restoredPanelType env p.panelType with
          | some panelType =>
              panels.insert p.id (restoredPanel env snapshot.remoteConfig p panelType)
          | none => panels) ∅
    focusedPanelId := snapshot.focusedPanelId }

/-! ## §3. The session. -/

/-- The ids that a restore draws, by position. -/
structure Draws where
  window    : Nat → Uuid
  workspace : Nat → Nat → WsDraw
  closed    : Nat → WsDraw

/-- The quick terminal is recreated on demand, never restored. -/
def isQuick (ws : SessionWorkspaceSnapshot) : Bool := ws.customTitle = some "Quick Terminal"

/-- An empty workspace is skipped, and so is the quick terminal. -/
def isRestored (ws : SessionWorkspaceSnapshot) : Bool := !ws.panels.isEmpty && !isQuick ws

/-- The windows that have a workspace to restore. -/
def liveWindows (snapshot : AppSessionSnapshot) : List SessionWindowSnapshot :=
  snapshot.windows.filter fun w => w.tabManager.workspaces.any isRestored

def restoredGroup (windowId : Uuid) (group : SessionGroupSnapshot) : WorkspaceGroup where
  id        := group.id
  name      := group.name
  color     := group.color
  collapsed := group.collapsed
  windowId  := some windowId

def restoredGroups (draws : Draws) (windows : List SessionWindowSnapshot) :
    List WorkspaceGroup :=
  windows.zipIdx.flatMap fun (w, i) => w.tabManager.groups.map (restoredGroup (draws.window i))

def restoredWorkspaces (env : RestoreEnv) (draws : Draws)
    (windows : List SessionWindowSnapshot) : List Workspace :=
  windows.zipIdx.flatMap fun (w, i) =>
    (w.tabManager.workspaces.filter isRestored).zipIdx.map fun (ws, j) =>
      buildWorkspaceFromSnapshot env (draws.workspace i j) ws (some (draws.window i))

def restoredClosed (env : RestoreEnv) (draws : Draws) (snapshot : AppSessionSnapshot) :
    List ClosedEntry :=
  (snapshot.closedWorkspaces.filter fun e => !e.workspace.panels.isEmpty).zipIdx.map fun (e, k) =>
    { workspace := buildWorkspaceFromSnapshot env (draws.closed k) e.workspace none
      closedAt  := e.closedAtUnix
      title     := e.title }

/-- The tab manager that replaces the current one; `none` leaves that in place. -/
def restoreSession (env : RestoreEnv) (draws : Draws) (snapshot : AppSessionSnapshot) :
    Option TabManager :=
  -- nothing to restore: the caller keeps the fresh manager
  if snapshot.windows.isEmpty then none
  else if liveWorkspaceCount snapshot = 0 then none
  else
    let windows := liveWindows snapshot
    let tm := (restoredWorkspaces env draws windows).foldl TabManager.addWorkspace .empty
    let closed := restoredClosed env draws snapshot
    -- the closed stack of a session without one is left as it is
    let tm := if closed.isEmpty then tm else tm.setClosedEntries closed
    some (tm.setGroups (restoredGroups draws windows))

end Jmux.Session
