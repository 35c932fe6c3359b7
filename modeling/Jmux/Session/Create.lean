/-
  Jmux.Session.Create — the snapshot of the running application
  (`create_snapshot` of `session/store.rs`).

  What the surfaces and web views report, and the settings, are inputs
  (`Captured`).
-/
import Jmux.Model.AgentMonitor
import Jmux.Session.Snapshot

namespace Jmux.Session

open Jmux.Lib Jmux.Model

/-- What the capture reads besides the tab manager. -/
structure Captured where
  scrollback        : Uuid → Option String := fun _ => none
  browserZoom       : Uuid → Option Rat := fun _ => none
  browserUrl        : Uuid → Option String := fun _ => none
  browserHistory    : Uuid → Option (List String × List String) := fun _ => none
  splitRatioPersist : Bool := true

/-- The window of the drop-down quick terminal. -/
def quickWindowId : Uuid := 0x0c3de9a15b2f4c6d8e10000000000001

/-! ## §1. One workspace. -/

/-- A panel with its scrollback, its exact agent session and its browser state. -/
def capturePanel (captured : Captured) (panel : Panel) : SessionPanelSnapshot :=
  let snapshot := SessionPanelSnapshot.fromPanel panel
  { snapshot with
    terminal := snapshot.terminal.map fun terminal =>
      { terminal with scrollback := captured.scrollback panel.id }
    -- an exact session id beats the guess from the title
    agentResumeCommand :=
      match snapshot.agentSessionId with
      | some id => some s!"claude --resume {id}"
      | none => snapshot.agentResumeCommand
    browser := snapshot.browser.map fun browser =>
      { browser with
        pageZoom       := (captured.browserZoom panel.id).getD browser.pageZoom
        urlString      := (captured.browserUrl panel.id).or browser.urlString
        backHistory    := ((captured.browserHistory panel.id).map (·.1)).getD browser.backHistory
        forwardHistory :=
          ((captured.browserHistory panel.id).map (·.2)).getD browser.forwardHistory } }

/-- All dividers in the middle. -/
def normalizeDividerPositions : SessionWorkspaceLayoutSnapshot → SessionWorkspaceLayoutSnapshot
  | .pane panelIds selected => .pane panelIds selected
  | .split orientation _ first second =>
      .split orientation (1 / 2) (normalizeDividerPositions first)
        (normalizeDividerPositions second)

/-- The layout without the monitor panes. -/
def pruneMonitors (order : HashOrder) (ws : Workspace) : LayoutNode :=
  ((order.iter ws.panels).filter (·.2.panelType = .agentMonitor)).foldl
    (fun layout e => (layout.removePanel e.1).getD layout) ws.layout

/-- Monitor panes are session-scoped views and are never persisted. -/
def makeWsSnapshot (order : HashOrder) (captured : Captured) (ws : Workspace) :
    SessionWorkspaceSnapshot :=
  let layout := SessionWorkspaceLayoutSnapshot.fromLayout (pruneMonitors order ws)
  { processTitle     := ws.processTitle
    customTitle      := ws.customTitle
    customColor      := ws.customColor
    isPinned         := ws.isPinned
    currentDirectory := ws.currentDirectory
    focusedPanelId   := ws.focusedPanelId.filter fun id =>
      (ws.panels.lookup id).all (·.panelType ≠ .agentMonitor)
    groupId          := ws.groupId
    layout           :=
      -- `terminal.split_ratio_persist`
      if captured.splitRatioPersist then layout else normalizeDividerPositions layout
    panels           :=
      ((order.iter ws.panels).filter (·.2.panelType ≠ .agentMonitor)).map fun e =>
        capturePanel captured e.2
    remoteConfig     := ws.remoteConfig }

/-! ## §2. The windows. -/

/-- The order of a `BTreeMap<Option<Uuid>, _>`: no window comes first. -/
def windowBefore : Option Uuid → Option Uuid → Bool
  | none, none => false
  | none, some _ => true
  | some _, none => false
  | some a, some b => a < b

/-- `map.entry(window).or_default().push(workspace)` -/
def pushToWindow {β : Type*} (window : Option Uuid) (workspace : β) :
    List (Option Uuid × List β) → List (Option Uuid × List β)
  | [] => [(window, [workspace])]
  | (key, workspaces) :: rest =>
      -- the map is kept sorted by its keys
      if window = key then (key, workspaces ++ [workspace]) :: rest
      else if windowBefore window key then (window, [workspace]) :: (key, workspaces) :: rest
      else (key, workspaces) :: pushToWindow window workspace rest

/-- Workspaces and groups without a window belong to the first window that has
a workspace. -/
def primaryWindow (tm : TabManager) : Option Uuid :=
  (tm.workspaces.filter (·.windowId ≠ some quickWindowId)).findSome? (·.windowId)

/-- The workspaces of each window in sidebar order; the quick terminal is left out. -/
def windowMap (tm : TabManager) : List (Option Uuid × List Workspace) :=
  (tm.workspaces.filter (·.windowId ≠ some quickWindowId)).foldl
    (fun map ws => pushToWindow (ws.windowId.or (primaryWindow tm)) ws map) []

def groupSnapshot (group : WorkspaceGroup) : SessionGroupSnapshot where
  id        := group.id
  name      := group.name
  color     := group.color
  collapsed := group.collapsed

def makeWindowSnapshot (order : HashOrder) (captured : Captured) (tm : TabManager)
    (window : Option Uuid) (workspaces : List Workspace) : SessionWindowSnapshot where
  tabManager :=
    { selectedWorkspaceIndex := some 0
      workspaces             := workspaces.map (makeWsSnapshot order captured)
      groups                 :=
        -- a group goes with the window it belongs to, wherever its members are
        (tm.groups.filter fun g => g.windowId.or (primaryWindow tm) = window).map groupSnapshot }

def createSnapshot (order : HashOrder) (captured : Captured) (tm : TabManager) :
    AppSessionSnapshot where
  version          := 1
  windows          := (windowMap tm).map fun e => makeWindowSnapshot order captured tm e.1 e.2
  closedWorkspaces := tm.closedStack.map fun entry =>
    { workspace    := makeWsSnapshot order captured entry.workspace
      closedAtUnix := entry.closedAt
      title        := entry.title }

end Jmux.Session
