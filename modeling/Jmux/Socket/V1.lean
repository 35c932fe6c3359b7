/-
  Jmux.Socket.V1 — the V1 text protocol (`socket/v1.rs`): each command becomes a
  V2 request.

  The JSON text between the two protocols is not modelled: a request is its
  method and its parameters.  `serde_json::from_str` and the floating-point
  numbers are parameters of the model.

  Main results:
    * `dispatch_written` — the request that a written command becomes.
-/
import Jmux.Lib.Value
import Jmux.Socket.V1Line

namespace Jmux.Socket

open Jmux.Lib

/-! ## §1. Commands. -/

inductive V1Command
  | reportPwd | reportGitBranch | clearGitBranch | reportPr | clearPr | reportPrChecks
  | reportTty | reportAgentSession | portsKick | reportShellState | ping | reportPorts
  | reportMeta | reportMetaBlock | clearMeta | clearMetaBlock | listMeta | listMetaBlocks
  | capabilities | identify | tree | help | listWindows | currentWindow | newWindow | focusWindow
  | closeWindow | listWorkspaces | newWorkspace | ssh | selectWorkspace | currentWorkspace
  | closeWorkspace | nextWorkspace | previousWorkspace | lastWorkspace | focusBack | focusForward
  | reopen | hibernate | wake | latestUnread | renameWorkspace | reorderWorkspace
  | workspaceAction | moveWorkspaceToWindow | setStatus | clearStatus | listStatus | setProgress
  | clearProgress | log | clearLog | listLog | listSurfaces | currentSurface | focusSurface
  | send | sendSurface | sendKey | sendKeySurface | newSplit | closeSurface | readScreen
  | clearHistory | surfaceHealth | listPanes | focusDirection | swapPanes | resizePane
  | breakPane | equalize | notify | notifySurface | notifyTarget | listNotifications
  | clearNotifications | openBrowser | navigate | browserBack | browserForward | browserReload
  | settings | openMarkdown | setAgentPid | clearAgentPid | sidebarState | resetSidebar
  | reloadConfig | reportReview | newSurface | focusPane | listPaneSurfaces | refreshSurfaces
  | auth
  deriving DecidableEq, Repr

/-- The names that `dispatch` matches, in its order. -/
def V1Command.table : List (String × V1Command) :=
  [ ("report_pwd", .reportPwd), ("report_git_branch", .reportGitBranch),
    ("clear_git_branch", .clearGitBranch), ("report_pr", .reportPr), ("clear_pr", .clearPr),
    ("report_pr_checks", .reportPrChecks), ("report_tty", .reportTty),
    ("report_agent_session", .reportAgentSession), ("ports_kick", .portsKick),
    ("report_shell_state", .reportShellState), ("ping", .ping), ("report_ports", .reportPorts),
    ("report_meta", .reportMeta), ("report_meta_block", .reportMetaBlock),
    ("clear_meta", .clearMeta), ("clear_meta_block", .clearMetaBlock), ("list_meta", .listMeta),
    ("list_meta_blocks", .listMetaBlocks), ("capabilities", .capabilities),
    ("identify", .identify), ("tree", .tree), ("help", .help), ("list_windows", .listWindows),
    ("window_list", .listWindows), ("current_window", .currentWindow),
    ("window_current", .currentWindow), ("new_window", .newWindow), ("window_new", .newWindow),
    ("focus_window", .focusWindow), ("window_focus", .focusWindow),
    ("close_window", .closeWindow), ("window_close", .closeWindow),
    ("list_workspaces", .listWorkspaces), ("workspace_list", .listWorkspaces),
    ("list", .listWorkspaces), ("new_workspace", .newWorkspace),
    ("workspace_new", .newWorkspace), ("new", .newWorkspace), ("ssh", .ssh),
    ("select_workspace", .selectWorkspace), ("workspace_select", .selectWorkspace),
    ("select", .selectWorkspace), ("current_workspace", .currentWorkspace),
    ("workspace_current", .currentWorkspace), ("current", .currentWorkspace),
    ("close_workspace", .closeWorkspace), ("workspace_close", .closeWorkspace),
    ("next_workspace", .nextWorkspace), ("workspace_next", .nextWorkspace),
    ("next", .nextWorkspace), ("previous_workspace", .previousWorkspace),
    ("workspace_previous", .previousWorkspace), ("prev", .previousWorkspace),
    ("last_workspace", .lastWorkspace), ("workspace_last", .lastWorkspace),
    ("last", .lastWorkspace), ("focus_back", .focusBack), ("back", .focusBack),
    ("focus_forward", .focusForward), ("forward", .focusForward), ("reopen", .reopen),
    ("reopen_closed", .reopen), ("hibernate", .hibernate), ("wake", .wake),
    ("latest_unread", .latestUnread), ("rename_workspace", .renameWorkspace),
    ("workspace_rename", .renameWorkspace), ("rename", .renameWorkspace),
    ("reorder_workspace", .reorderWorkspace), ("workspace_reorder", .reorderWorkspace),
    ("workspace_action", .workspaceAction), ("move_workspace_to_window", .moveWorkspaceToWindow),
    ("set_status", .setStatus), ("clear_status", .clearStatus), ("list_status", .listStatus),
    ("set_progress", .setProgress), ("clear_progress", .clearProgress), ("log", .log),
    ("append_log", .log), ("clear_log", .clearLog), ("list_log", .listLog),
    ("list_surfaces", .listSurfaces), ("surface_list", .listSurfaces),
    ("current_surface", .currentSurface), ("surface_current", .currentSurface),
    ("focus_surface", .focusSurface), ("surface_focus", .focusSurface), ("send", .send),
    ("send_surface", .sendSurface), ("send_key", .sendKey),
    ("send_key_surface", .sendKeySurface), ("new_split", .newSplit), ("split", .newSplit),
    ("close_surface", .closeSurface), ("surface_close", .closeSurface),
    ("read_screen", .readScreen), ("read_text", .readScreen), ("clear_history", .clearHistory),
    ("surface_health", .surfaceHealth), ("list_panes", .listPanes), ("pane_list", .listPanes),
    ("focus_direction", .focusDirection), ("swap_panes", .swapPanes), ("pane_swap", .swapPanes),
    ("resize_pane", .resizePane), ("pane_resize", .resizePane), ("break_pane", .breakPane),
    ("pane_break", .breakPane), ("equalize", .equalize), ("pane_equalize", .equalize),
    ("notify", .notify), ("notify_surface", .notifySurface), ("notify_target", .notifyTarget),
    ("list_notifications", .listNotifications), ("clear_notifications", .clearNotifications),
    ("open_browser", .openBrowser), ("navigate", .navigate), ("browser_back", .browserBack),
    ("browser_forward", .browserForward), ("browser_reload", .browserReload),
    ("settings", .settings), ("open_settings", .settings), ("open_markdown", .openMarkdown),
    ("markdown", .openMarkdown), ("set_agent_pid", .setAgentPid),
    ("clear_agent_pid", .clearAgentPid), ("sidebar_state", .sidebarState),
    ("reset_sidebar", .resetSidebar), ("reload_config", .reloadConfig),
    ("report_review", .reportReview), ("new_surface", .newSurface), ("focus_pane", .focusPane),
    ("list_pane_surfaces", .listPaneSurfaces), ("refresh_surfaces", .refreshSurfaces),
    ("auth", .auth) ]

def V1Command.ofName (name : String) : Option V1Command := V1Command.table.lookup name

/-! ## §2. Requests. -/

/-- The V2 methods that V1 commands become. -/
inductive V2Method
  | systemPing | systemCapabilities | systemIdentify | systemTree
  | windowList | windowCurrent | windowNew | windowFocus | windowClose
  | workspaceList | workspaceNew | workspaceCreateSsh | workspaceSelect | workspaceCurrent
  | workspaceClose | workspaceNext | workspacePrevious | workspaceLast | workspaceFocusBack
  | workspaceFocusForward | workspaceReopenClosed | workspaceHibernate | workspaceWake
  | workspaceLatestUnread | workspaceRename | workspaceReorder | workspaceAction
  | workspaceMoveToWindow | workspaceSetStatus | workspaceClearStatus | workspaceListStatus
  | workspaceSetProgress | workspaceClearProgress | workspaceAppendLog | workspaceClearLog
  | workspaceListLog | workspaceReportMeta | workspaceReportMetaBlock | workspaceClearMeta
  | workspaceClearMetaBlock | workspaceListMeta | workspaceListMetaBlocks | workspaceReportPwd
  | workspaceReportGitBranch | workspaceReportPr | workspaceReportPrChecks | workspaceReportTty
  | workspaceReportAgentSession | workspaceReportPorts | workspacePortsKick
  | surfaceList | surfaceCurrent | surfaceFocus | surfaceSendInput | surfaceSendKey | surfaceClose
  | surfaceReadText | surfaceClearHistory | surfaceHealth | surfaceRefresh
  | paneNew | paneList | paneFocusDirection | paneSwap | paneResize | paneBreak | paneEqualize
  | paneFocus | paneSurfaces
  | notificationCreate | notificationList | notificationClear
  | browserNavigate | browserBack | browserForward | browserReload | settingsOpen | markdownOpen
  deriving DecidableEq, Repr

structure V2Request (F : Type) where
  method : V2Method
  params : Value F

/-- What becomes of a line. -/
inductive Dispatched (F : Type)
  | request (req : V2Request F)
  /-- Answered at once: the help text, `auth`. -/
  | answered (command : V1Command)
  | unknown (command : String)

/-- What `dispatch` uses of the libraries. -/
structure V1Env (F : Type) where
  floats : Floats F
  /-- `serde_json::from_str` -/
  parse  : String → Option (Value F)

variable {F : Type}

/-- `if let Some(..) { p[key] = json!(..) }`. -/
def optional (key : String) (v : Option String) : List (String × Value F) :=
  (v.map fun s => (key, .str s)).toList

@[simp] theorem get_optional (key k : String) (v : Option String) :
    Value.get key (.obj (optional (F := F) k v)) = if k = key then v.map .str else none := by
  cases v with
  | none =>
      split
      · rfl
      · rfl
  | some s => exact Value.get_singleton key k (.str s)

namespace V1Line

def inWorkspace (l : V1Line) : List (String × Value F) := optional "workspace" l.workspaceId

def onPanel (l : V1Line) : List (String × Value F) := optional "surface" l.panelId

/-- `target`. -/
def target (l : V1Line) : List (String × Value F) := l.inWorkspace ++ l.onPanel

/-- The `--priority` flag, if it is a number. -/
def priority (l : V1Line) : List (String × Value F) :=
  (((l.flags.get "priority").bind fun s => Str.parseI64 s.toList).map fun n =>
    ("priority", .int n)).toList

/-- The first argument or the panel flag. -/
def surfaceArg (l : V1Line) : String := (l.args[0]?.or l.panelId).getD ""

/-- The loop over the arguments of `ssh`. -/
def sshParams (l : V1Line) : List (String × Value F) :=
  optional "destination" (l.args.find? fun a => a ≠ "-A" && !Str.startsWith a "-")
    ++ (if "-A" ∈ l.args then [("agent_forward", .bool true)] else [])

end V1Line

/-- A request with these parameters. -/
def request (method : V2Method) (params : List (String × Value F)) : Dispatched F :=
  .request { method, params := .obj params }

/-- The branch and whether it is dirty: a `*` at the end or `--status=dirty`. -/
def V1Line.branch (l : V1Line) : String × Bool :=
  match Str.stripSuffix ['*'] (l.arg 0 "").toList with
  | some stripped => (String.ofList stripped, true)
  | none => (l.arg 0 "", l.flags.get "status" = some "dirty")

/-- The arms of `dispatch`. -/
def V1Command.build (env : V1Env F) (l : V1Line) : V1Command → Dispatched F
  | .reportPwd =>
      request .workspaceReportPwd ([("directory", .str (l.arg 0 ""))] ++ l.target)
  | .reportGitBranch =>
      request .workspaceReportGitBranch
        ([("branch", .str l.branch.1), ("is_dirty", .bool l.branch.2)] ++ l.target)
  | .clearGitBranch =>
      request .workspaceReportGitBranch
        [("branch", .str ""), ("workspace", (l.workspaceId.map .str).getD .null)]
  | .reportPr =>
      request .workspaceReportPr
        ([("status", .str ((l.flags.get "state").getD (l.arg 0 "")))]
          ++ optional "url" l.args[1]? ++ l.target)
  | .clearPr => request .workspaceReportPr ([("status", .str "")] ++ l.inWorkspace)
  | .reportPrChecks =>
      request .workspaceReportPrChecks
        ([("checks", (env.parse (l.arg 0 "[]")).getD (.arr []))] ++ l.inWorkspace)
  | .reportTty => request .workspaceReportTty ([("tty", .str (l.arg 0 ""))] ++ l.target)
  | .reportAgentSession =>
      request .workspaceReportAgentSession
        ([("agent", .str (l.arg 0 "")), ("session_id", .str (l.arg 1 ""))] ++ l.target)
  | .portsKick => request .workspacePortsKick []
  | .reportShellState =>
      request .workspaceSetStatus ([("state", .str (l.arg 0 "prompt"))] ++ l.inWorkspace)
  | .ping => request .systemPing []
  | .reportPorts =>
      request .workspaceReportPorts ([("ports", .arr (l.args.map .str))] ++ l.inWorkspace)
  | .reportMeta =>
      request .workspaceReportMeta
        ([("key", .str (l.arg 0 "")), ("value", .str (l.arg 1 ""))]
          ++ optional "icon" (l.flags.get "icon") ++ optional "color" (l.flags.get "color")
          ++ optional "url" (l.flags.get "url") ++ l.priority
          ++ optional "format" (l.flags.get "format") ++ l.inWorkspace)
  | .reportMetaBlock =>
      request .workspaceReportMetaBlock
        ([("key", .str (l.arg 0 "")), ("content", .str (l.arg 1 ""))] ++ l.priority
          ++ l.inWorkspace)
  | .clearMeta => request .workspaceClearMeta (optional "key" l.args[0]? ++ l.inWorkspace)
  | .clearMetaBlock =>
      request .workspaceClearMetaBlock (optional "key" l.args[0]? ++ l.inWorkspace)
  | .listMeta => request .workspaceListMeta l.inWorkspace
  | .listMetaBlocks => request .workspaceListMetaBlocks l.inWorkspace
  | .capabilities => request .systemCapabilities []
  | .identify => request .systemIdentify []
  | .tree => request .systemTree []
  | .help => .answered .help
  | .listWindows => request .windowList []
  | .currentWindow => request .windowCurrent []
  | .newWindow => request .windowNew []
  | .focusWindow => request .windowFocus [("window", .str (l.arg 0 ""))]
  | .closeWindow => request .windowClose [("window", .str (l.arg 0 ""))]
  | .listWorkspaces => request .workspaceList []
  | .newWorkspace => request .workspaceNew (optional "directory" l.args[0]?)
  | .ssh => request .workspaceCreateSsh l.sshParams
  | .selectWorkspace =>
      match Str.parseUsize (l.arg 0 "").toList with
      | some idx => request .workspaceSelect [("index", .int idx)]
      | none => request .workspaceSelect [("workspace", .str (l.arg 0 ""))]
  | .currentWorkspace => request .workspaceCurrent []
  | .closeWorkspace =>
      request .workspaceClose (optional "workspace" (l.args[0]?.or l.workspaceId))
  | .nextWorkspace => request .workspaceNext []
  | .previousWorkspace => request .workspacePrevious []
  | .lastWorkspace => request .workspaceLast []
  | .focusBack => request .workspaceFocusBack []
  | .focusForward => request .workspaceFocusForward []
  | .reopen => request .workspaceReopenClosed []
  | .hibernate => request .workspaceHibernate [("toggle", .bool true)]
  | .wake => request .workspaceWake []
  | .latestUnread => request .workspaceLatestUnread []
  | .renameWorkspace => request .workspaceRename ([("name", .str (l.arg 0 ""))] ++ l.inWorkspace)
  | .reorderWorkspace =>
      request .workspaceReorder
        ([("index", .int ((l.args[0]?.bind fun s => Str.parseUsize s.toList).getD 0))]
          ++ l.inWorkspace)
  | .workspaceAction =>
      request .workspaceAction ([("action", .str (l.arg 0 ""))] ++ l.inWorkspace)
  | .moveWorkspaceToWindow =>
      request .workspaceMoveToWindow ([("window", .str (l.arg 0 ""))] ++ l.inWorkspace)
  | .setStatus =>
      request .workspaceSetStatus
        ([("key", .str (l.arg 0 "")), ("value", .str (l.arg 1 ""))]
          ++ optional "icon" (l.flags.get "icon") ++ optional "color" (l.flags.get "color")
          ++ optional "url" (l.flags.get "url") ++ l.inWorkspace)
  | .clearStatus => request .workspaceClearStatus (optional "key" l.args[0]? ++ l.inWorkspace)
  | .listStatus => request .workspaceListStatus l.inWorkspace
  | .setProgress =>
      request .workspaceSetProgress
        ([("value", ((l.args[0]?.bind env.floats.parse).map (.ofFloat env.floats)).getD
            (.ofFloat env.floats (env.floats.ofInt 0)))]
          ++ optional "label" l.args[1]? ++ l.inWorkspace)
  | .clearProgress => request .workspaceClearProgress l.inWorkspace
  | .log =>
      request .workspaceAppendLog
        ([("message", .str (l.arg 0 ""))] ++ optional "level" (l.flags.get "level")
          ++ optional "source" (l.flags.get "source") ++ l.inWorkspace)
  | .clearLog => request .workspaceClearLog l.inWorkspace
  | .listLog => request .workspaceListLog l.inWorkspace
  | .listSurfaces => request .surfaceList l.inWorkspace
  | .currentSurface => request .surfaceCurrent []
  | .focusSurface => request .surfaceFocus [("surface", .str l.surfaceArg)]
  | .send => request .surfaceSendInput [("text", .str (" ".intercalate l.args))]
  | .sendSurface =>
      request .surfaceSendInput
        [("surface", .str (l.arg 0 "")), ("text", .str (" ".intercalate (l.args.drop 1)))]
  | .sendKey => request .surfaceSendKey ([("key", .str (l.arg 0 ""))] ++ l.onPanel)
  | .sendKeySurface =>
      request .surfaceSendKey [("surface", .str (l.arg 0 "")), ("key", .str (l.arg 1 ""))]
  | .newSplit =>
      let orientation :=
        if l.arg 0 "right" ∈ ["down", "vertical", "v"] then "vertical" else "horizontal"
      request .paneNew
        ([("orientation", .str orientation),
          ("panel_type", .str ((l.flags.get "type").getD "terminal"))] ++ l.inWorkspace)
  | .closeSurface => request .surfaceClose [("surface", .str l.surfaceArg)]
  | .readScreen =>
      request .surfaceReadText
        (l.onPanel ++ optional "point" (l.flags.get "point")
          ++ (if (l.flags.get "scrollback").isSome then [("scrollback", .bool true)] else [])
          ++ (((l.flags.get "lines").bind fun s => Str.parseUsize s.toList).map fun n =>
            ("lines", .int n)).toList)
  | .clearHistory => request .surfaceClearHistory l.onPanel
  | .surfaceHealth => request .surfaceHealth [("surface", .str l.surfaceArg)]
  | .listPanes => request .paneList l.inWorkspace
  | .focusDirection =>
      request .paneFocusDirection ([("direction", .str (l.arg 0 "right"))] ++ l.inWorkspace)
  | .swapPanes =>
      request .paneSwap [("surface_a", .str (l.arg 0 "")), ("surface_b", .str (l.arg 1 ""))]
  | .resizePane =>
      request .paneResize
        ([("delta", ((l.args[0]?.bind env.floats.parse).map (.ofFloat env.floats)).getD
            (.ofFloat env.floats (env.floats.ofInt 0)))] ++ l.onPanel)
  | .breakPane => request .paneBreak l.onPanel
  | .equalize => request .paneEqualize l.inWorkspace
  | .notify =>
      request .notificationCreate
        ([("title", .str (l.arg 0 "")), ("body", .str (l.arg 1 ""))] ++ l.target)
  | .notifySurface =>
      request .notificationCreate
        [("surface", .str (l.arg 0 "")), ("title", .str (l.arg 1 "")),
          ("body", .str (l.arg 2 ""))]
  | .notifyTarget =>
      request .notificationCreate
        [("workspace", .str (l.arg 0 "")), ("surface", .str (l.arg 1 "")),
          ("title", .str (l.arg 2 "")), ("body", .str (l.arg 3 ""))]
  | .listNotifications => request .notificationList []
  | .clearNotifications => request .notificationClear []
  | .openBrowser =>
      request .paneNew
        ([("panel_type", .str "browser")] ++ optional "url" l.args[0]? ++ l.inWorkspace)
  | .navigate => request .browserNavigate ([("url", .str (l.arg 0 ""))] ++ l.onPanel)
  | .browserBack => request .browserBack l.onPanel
  | .browserForward => request .browserForward l.onPanel
  | .browserReload => request .browserReload l.onPanel
  | .settings => request .settingsOpen []
  | .openMarkdown => request .markdownOpen ([("file_path", .str (l.arg 0 ""))] ++ l.inWorkspace)
  | .setAgentPid =>
      request .workspaceSetStatus
        ([("key", .str "agent_pid"), ("value", .str (l.arg 0 ""))] ++ l.inWorkspace)
  | .clearAgentPid =>
      request .workspaceClearStatus ([("key", .str "agent_pid")] ++ l.inWorkspace)
  | .sidebarState => request .workspaceCurrent []
  | .resetSidebar => request .workspaceClearStatus l.inWorkspace
  | .reloadConfig => request .settingsOpen []
  | .reportReview =>
      request .workspaceReportPr ([("status", .str (l.arg 0 ""))] ++ l.inWorkspace)
  | .newSurface =>
      request .paneNew
        ([("panel_type", .str ((l.flags.get "type").getD "terminal"))] ++ l.inWorkspace)
  | .focusPane => request .paneFocus [("surface", .str (l.arg 0 ""))]
  | .listPaneSurfaces => request .paneSurfaces [("surface", .str (l.arg 0 ""))]
  | .refreshSurfaces => request .surfaceRefresh []
  | .auth => .answered .auth

/-- `dispatch`, up to the V2 handler. -/
def dispatch (env : V1Env F) (line : List Char) : Dispatched F :=
  let l := parseLine line
  match V1Command.ofName l.command with
  | some command => command.build env l
  | none => .unknown l.command

theorem dispatch_of_parseLine (env : V1Env F) {line : List Char} {command : V1Command}
    (h : V1Command.ofName (parseLine line).command = some command) :
    dispatch env line = command.build env (parseLine line) := by
  unfold dispatch
  dsimp only
  rw [h]

theorem dispatch_of_unknown (env : V1Env F) {line : List Char}
    (h : V1Command.ofName (parseLine line).command = none) :
    dispatch env line = .unknown (parseLine line).command := by
  unfold dispatch
  dsimp only
  rw [h]

/-- **The request of a command that is written in quotes.** -/
theorem dispatch_written (env : V1Env F) {name : String} (hname : CommandName name)
    {words : List String} (h : ∀ w ∈ words, '"' ∉ w.toList) :
    dispatch env (written name words) =
      let l : V1Line :=
        { command := name
          args    := words.filter fun w => (flagOf w.toList).isNone
          flags   := (words.filterMap fun w => flagOf w.toList).reverse }
      match V1Command.ofName name with
      | some command => command.build env l
      | none => .unknown name := by
  unfold dispatch
  rw [parseLine_written hname h]

end Jmux.Socket
