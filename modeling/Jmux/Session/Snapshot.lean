/-
  Jmux.Session.Snapshot — what a session file holds, and the conversions of
  panels and layouts to it and back (`session/snapshot.rs`).

  A snapshot is the parsed value; that writing it and parsing the text gives the
  same value is what serde does.  Window geometry, the sidebar, status and log
  entries, git branches and ports are not modelled: nothing here reads them.
-/
import Jmux.Model.TabManager
import Mathlib.Algebra.GroupWithZero.Nat
import Mathlib.Algebra.Order.Ring.Unbundled.Rat

namespace Jmux.Session

open Jmux.Lib Jmux.Model

/-! ## §1. The snapshot. -/

inductive SessionWorkspaceLayoutSnapshot
  | pane (panelIds : List Uuid) (selectedPanelId : Option Uuid)
  | split (orientation : SplitOrientation) (dividerPosition : Rat)
      (first second : SessionWorkspaceLayoutSnapshot)
  deriving DecidableEq, Repr

structure SessionTerminalPanelSnapshot where
  workingDirectory : Option String
  scrollback       : Option String
  deriving DecidableEq, Repr

structure SessionBrowserPanelSnapshot where
  urlString             : Option String
  shouldRenderWebView   : Bool
  pageZoom              : Rat
  developerToolsVisible : Bool
  backHistory           : List String
  forwardHistory        : List String
  deriving DecidableEq, Repr

structure SessionMarkdownPanelSnapshot where
  filePath : String
  deriving DecidableEq, Repr

structure SessionPanelSnapshot where
  id                 : Uuid
  panelType          : String
  title              : Option String
  customTitle        : Option String
  directory          : Option String
  isPinned           : Bool
  isManuallyUnread   : Bool
  ttyName            : Option String
  command            : Option String
  agentResumeCommand : Option String
  agentSessionId     : Option String
  terminal           : Option SessionTerminalPanelSnapshot
  browser            : Option SessionBrowserPanelSnapshot
  markdown           : Option SessionMarkdownPanelSnapshot
  deriving DecidableEq, Repr

structure SessionWorkspaceSnapshot where
  processTitle     : String
  customTitle      : Option String
  customColor      : Option String
  isPinned         : Bool
  currentDirectory : String
  focusedPanelId   : Option Uuid
  groupId          : Option Uuid
  layout           : SessionWorkspaceLayoutSnapshot
  panels           : List SessionPanelSnapshot
  remoteConfig     : Option RemoteConfig
  deriving DecidableEq, Repr

structure SessionGroupSnapshot where
  id        : Uuid
  name      : String
  color     : Option String
  collapsed : Bool
  deriving DecidableEq, Repr

structure SessionTabManagerSnapshot where
  selectedWorkspaceIndex : Option Nat
  workspaces             : List SessionWorkspaceSnapshot
  groups                 : List SessionGroupSnapshot
  deriving DecidableEq, Repr

structure SessionWindowSnapshot where
  tabManager : SessionTabManagerSnapshot
  deriving DecidableEq, Repr

structure SessionClosedEntrySnapshot where
  workspace    : SessionWorkspaceSnapshot
  closedAtUnix : Nat
  title        : String
  deriving DecidableEq, Repr

structure AppSessionSnapshot where
  version          : Nat
  windows          : List SessionWindowSnapshot
  closedWorkspaces : List SessionClosedEntrySnapshot
  deriving DecidableEq, Repr

/-- Total live workspaces across all windows in a snapshot. -/
def liveWorkspaceCount (snapshot : AppSessionSnapshot) : Nat :=
  (snapshot.windows.map (·.tabManager.workspaces.length)).sum

/-! ## §2. Layouts. -/

namespace SessionWorkspaceLayoutSnapshot

def fromLayout : LayoutNode → SessionWorkspaceLayoutSnapshot
  | .paneNode panelIds selected => pane panelIds selected
  | .splitNode orientation divider first second =>
      split orientation divider (fromLayout first) (fromLayout second)

/-- A divider is clamped to its range; a stored one is always finite here. -/
def toLayout : SessionWorkspaceLayoutSnapshot → LayoutNode
  | pane panelIds selected => .paneNode panelIds selected
  | split orientation divider first second =>
      .splitNode orientation (max 0 (min divider 1)) first.toLayout second.toLayout

end SessionWorkspaceLayoutSnapshot

/-! ## §3. The agent that runs in a panel. -/

/-- Neither a letter nor a digit nor `_`, or the end of the text. -/
def isWordBoundary (c : Option Char) : Bool :=
  c.all fun c => !(Str.isAsciiAlphanumeric c || c == '_')

/-- The word stands somewhere in `cs` with boundaries on both sides; `before`
is the character before `cs`.  The source searches on from each occurrence. -/
def isWordMatchAfter (word : List Char) : Option Char → List Char → Bool
  | _, [] => false
  | before, c :: cs =>
      -- an occurrence that starts here
      (word.isPrefixOf (c :: cs) && isWordBoundary before
          && isWordBoundary ((c :: cs).drop word.length).head?)
        || isWordMatchAfter word (some c) cs

def isWordMatch (haystack : List Char) (word : String) : Bool :=
  isWordMatchAfter word.toList none haystack

/-- The title and the command in lower case, with a space between them. -/
def agentHaystack (title command : Option String) : List Char :=
  let title := (title.map fun t => Str.toLowercase t.toList).getD []
  match command with
  | none => title
  | some command =>
      title ++ (if title.isEmpty then [] else [' ']) ++ Str.toLowercase command.toList

/-- The resume command of the agent CLI that the title or the command names. -/
def detectAgentResumeCommand (title command : Option String) : Option String :=
  let haystack := agentHaystack title command
  let contains (needle : String) : Bool := Str.contains needle.toList haystack
  let isPi (text : Option String) : Bool :=
    text.any fun t => Str.toLowercase t.toList = ['p', 'i']
  -- the order of the tests decides between agents that name one another
  if haystack.isEmpty then none
  else if contains "claude" then some "claude --continue"
  else if contains "opencode" then some "opencode --resume"
  else if contains "codex" then some "codex"
  else if contains "rovo" then some "rovo dev"
  else if contains "cursor" then some "cursor"
  else if contains "grok" then some "grok"
  else if contains "antigravity" || contains "gemini" || isWordMatch haystack "agy" then
    some "agy"
  else if contains "hermes" then some "hermes"
  else if contains "pi vault" || contains "pi ai" || isPi title || isPi command then some "pi"
  else if isWordMatch haystack "amp" then some "amp"
  else none

/-! ## §4. Panels. -/

def panelTypeName : PanelType → String
  | .terminal => "terminal"
  | .browser => "browser"
  | .markdown => "markdown"
  | .diff => "diff"
  | .project => "project"
  | .filePreview => "file_preview"
  | .notes => "notes"
  | .history => "history"
  | .vault => "vault"
  | .agentMonitor => "agent_monitor"
  | .graph => "graph"

/-- `create_snapshot` fills in the scrollback and the state of the browser. -/
def SessionPanelSnapshot.fromPanel (panel : Panel) : SessionPanelSnapshot where
  id                 := panel.id
  panelType          := panelTypeName panel.panelType
  title              := panel.title
  customTitle        := panel.customTitle
  directory          := panel.directory
  isPinned           := panel.isPinned
  isManuallyUnread   := panel.isManuallyUnread
  ttyName            := panel.ttyName
  command            := panel.command
  agentResumeCommand :=
    if panel.panelType = .terminal then detectAgentResumeCommand panel.title panel.command
    else none
  agentSessionId     := panel.agentSessionId
  terminal           :=
    if panel.panelType = .terminal then
      some { workingDirectory := panel.directory, scrollback := none }
    else none
  browser            :=
    if panel.panelType = .browser then
      some
        { urlString             := panel.browserUrl
          shouldRenderWebView   := true
          pageZoom              := 1
          developerToolsVisible := false
          backHistory           := []
          forwardHistory        := [] }
    else none
  markdown           :=
    if panel.panelType = .markdown then
      panel.markdownFile.map fun filePath => { filePath }
    else none

end Jmux.Session
