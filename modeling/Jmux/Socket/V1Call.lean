/-
  Jmux.Socket.V1Call — the commands that the V1 help text lists, and what each of
  them names: the operation on the workspace and the panel that it addresses.

  Nothing here is translated from a handler: `V1Call.intended` states what the help
  text promises, in the operations of the V2 handlers.  A call whose arguments are
  no values of the kind that the help text asks for names nothing.

  Main results:
    * `call_readsAs` — a call that is written with quotes is read as that call.
-/
import Jmux.Socket.V2Request

namespace Jmux.Socket

open Jmux.Lib Jmux.Model

/-! ## §1. The commands of the help text. -/

inductive HelpCommand
  | ping | capabilities | identify | tree | auth | help
  | listWindows | currentWindow | newWindow | focusWindow | closeWindow
  | list | new | select | current | close | next | prev | last | latestUnread | rename | reorder
  | workspaceAction | moveWorkspaceToWindow
  | setStatus | clearStatus | listStatus | setProgress | clearProgress | log | clearLog | listLog
  | reportMeta | reportMetaBlock | clearMeta | listMeta | clearMetaBlock | listMetaBlocks
  | reportPwd | reportGitBranch | clearGitBranch | reportPr | clearPr | reportTty
  | reportShellState | reportPorts | portsKick
  | listSurfaces | currentSurface | focusSurface | send | sendSurface | sendKey | split
  | closeSurface | readScreen | clearHistory | listPanes | focusDirection | swapPanes | resizePane
  | breakPane | equalize
  | notify | notifySurface | notifyTarget | listNotifications | clearNotifications
  | openBrowser | navigate | browserBack | browserForward | browserReload
  | settings | markdown
  deriving DecidableEq, Repr

/-- The name in the help text. -/
def HelpCommand.name : HelpCommand → String
  | ping => "ping" | capabilities => "capabilities" | identify => "identify" | tree => "tree"
  | auth => "auth" | help => "help"
  | listWindows => "list_windows" | currentWindow => "current_window" | newWindow => "new_window"
  | focusWindow => "focus_window" | closeWindow => "close_window"
  | list => "list" | new => "new" | select => "select" | current => "current" | close => "close"
  | next => "next" | prev => "prev" | last => "last" | latestUnread => "latest_unread"
  | rename => "rename" | reorder => "reorder" | workspaceAction => "workspace_action"
  | moveWorkspaceToWindow => "move_workspace_to_window"
  | setStatus => "set_status" | clearStatus => "clear_status" | listStatus => "list_status"
  | setProgress => "set_progress" | clearProgress => "clear_progress" | log => "log"
  | clearLog => "clear_log" | listLog => "list_log" | reportMeta => "report_meta"
  | reportMetaBlock => "report_meta_block" | clearMeta => "clear_meta" | listMeta => "list_meta"
  | clearMetaBlock => "clear_meta_block" | listMetaBlocks => "list_meta_blocks"
  | reportPwd => "report_pwd" | reportGitBranch => "report_git_branch"
  | clearGitBranch => "clear_git_branch" | reportPr => "report_pr" | clearPr => "clear_pr"
  | reportTty => "report_tty" | reportShellState => "report_shell_state"
  | reportPorts => "report_ports" | portsKick => "ports_kick"
  | listSurfaces => "list_surfaces" | currentSurface => "current_surface"
  | focusSurface => "focus_surface" | send => "send" | sendSurface => "send_surface"
  | sendKey => "send_key" | split => "split" | closeSurface => "close_surface"
  | readScreen => "read_screen" | clearHistory => "clear_history" | listPanes => "list_panes"
  | focusDirection => "focus_direction" | swapPanes => "swap_panes"
  | resizePane => "resize_pane" | breakPane => "break_pane" | equalize => "equalize"
  | notify => "notify" | notifySurface => "notify_surface" | notifyTarget => "notify_target"
  | listNotifications => "list_notifications" | clearNotifications => "clear_notifications"
  | openBrowser => "open_browser" | navigate => "navigate" | browserBack => "browser_back"
  | browserForward => "browser_forward" | browserReload => "browser_reload"
  | settings => "settings" | markdown => "markdown"

/-- Every command, so that what holds of each of them can be computed at once. -/
def HelpCommand.all : List HelpCommand :=
  [ .ping, .capabilities, .identify, .tree, .auth, .help, .listWindows, .currentWindow,
    .newWindow, .focusWindow, .closeWindow, .list, .new, .select, .current, .close, .next, .prev,
    .last, .latestUnread, .rename, .reorder, .workspaceAction, .moveWorkspaceToWindow, .setStatus,
    .clearStatus, .listStatus, .setProgress, .clearProgress, .log, .clearLog, .listLog,
    .reportMeta, .reportMetaBlock, .clearMeta, .listMeta, .clearMetaBlock, .listMetaBlocks,
    .reportPwd, .reportGitBranch, .clearGitBranch, .reportPr, .clearPr, .reportTty,
    .reportShellState, .reportPorts, .portsKick, .listSurfaces, .currentSurface, .focusSurface,
    .send, .sendSurface, .sendKey, .split, .closeSurface, .readScreen, .clearHistory, .listPanes,
    .focusDirection, .swapPanes, .resizePane, .breakPane, .equalize, .notify, .notifySurface,
    .notifyTarget, .listNotifications, .clearNotifications, .openBrowser, .navigate, .browserBack,
    .browserForward, .browserReload, .settings, .markdown ]

theorem HelpCommand.mem_all (c : HelpCommand) : c ∈ all := by
  cases c with
  | _ => decide

theorem HelpCommand.commandName (c : HelpCommand) : CommandName c.name := by
  have hall : ∀ c ∈ all, c.name.toList ≠ [] ∧
      c.name.toList.all (fun c => !Str.isWhitespace c) = true := by
    decide +kernel
  exact commandName_of_all (hall c c.mem_all).1 (hall c c.mem_all).2

/-! ## §2. Calls. -/

/-- The flags of a call. -/
structure Options where
  tab      : Option String := none
  panel    : Option String := none
  icon     : Option String := none
  color    : Option String := none
  url      : Option String := none
  priority : Option String := none
  level    : Option String := none
  source   : Option String := none
  type     : Option String := none
  deriving DecidableEq, Repr

namespace Options

def pairs (o : Options) : List (String × Option String) :=
  [("tab", o.tab), ("panel", o.panel), ("icon", o.icon), ("color", o.color), ("url", o.url),
    ("priority", o.priority), ("level", o.level), ("source", o.source), ("type", o.type)]

def get (o : Options) (key : String) : Option String := (o.pairs.lookup key).join

/-- The flags as words. -/
def words (o : Options) : List String :=
  o.pairs.filterMap fun p => p.2.map fun value => "--" ++ p.1 ++ "=" ++ value

end Options

structure V1Call where
  command : HelpCommand
  args    : List String := []
  options : Options := {}
  deriving DecidableEq, Repr

/-- A line that the parser reads as this call. -/
structure ReadsAs (line : List Char) (c : V1Call) : Prop where
  command : (parseLine line).command = c.command.name
  args    : (parseLine line).args = c.args
  flags   : ∀ key, (parseLine line).flags.get key = c.options.get key

/-- The call with every word in quotes. -/
def V1Call.line (c : V1Call) : List Char := written c.command.name (c.args ++ c.options.words)

/-- The words of a call that can be written: no quotes, and no argument that looks like
a flag. -/
structure V1Call.Writable (c : V1Call) : Prop where
  args    : ∀ a ∈ c.args, '"' ∉ a.toList ∧ flagOf a.toList = none
  options : ∀ w ∈ c.options.words, '"' ∉ w.toList

theorem flagOf_word {key : String} (hkey : '=' ∉ key.toList) (value : String) :
    flagOf ("--" ++ key ++ "=" ++ value).toList = some (key, value) := by
  have htext : ("--" ++ key ++ "=" ++ value).toList
      = '-' :: '-' :: (key.toList ++ '=' :: value.toList) := by
    simp only [String.toList_append]
    simp
  have hstrip : Str.stripPrefix ['-', '-'] ('-' :: '-' :: (key.toList ++ '=' :: value.toList))
      = some (key.toList ++ '=' :: value.toList) := rfl
  unfold flagOf
  rw [htext, hstrip, Option.map_some, splitOnce_append hkey]
  simp only [String.ofList_toList]

/-- The pairs of a call with a value. -/
def valued (ps : List (String × Option String)) : List (String × String) :=
  ps.filterMap fun p => p.2.map fun v => (p.1, v)

/-- Of pairs with different keys, the order does not matter. -/
theorem lookup_valued {ps : List (String × Option String)} (hkeys : (ps.map (·.1)).Nodup)
    (key : String) : List.lookup key (valued ps).reverse = (ps.lookup key).join := by
  induction ps with
  | nil => rfl
  | cons p ps ih =>
      obtain ⟨k, v⟩ := p
      obtain ⟨hk, hrest⟩ := List.nodup_cons.mp hkeys
      have hhead : List.lookup key ((k, v) :: ps) = if key == k then some v else ps.lookup key := by
        rw [List.lookup_cons]
        cases key == k with
        | true => rfl
        | false => rfl
      have habsent : key = k → ps.lookup key = none := by
        rintro rfl
        rw [List.lookup_eq_none_iff]
        intro q hq
        rw [bne_iff_ne]
        rintro rfl
        exact hk (List.mem_map.mpr ⟨q, hq, rfl⟩)
      rw [hhead]
      cases v with
      | none =>
          have hsame : valued ((k, none) :: ps) = valued ps := rfl
          rw [hsame, ih hrest]
          by_cases h : key = k
          · rw [habsent h, if_pos (beq_iff_eq.mpr h)]
            rfl
          · rw [if_neg (mt beq_iff_eq.mp h)]
      | some v =>
          have hone : List.lookup key [(k, v)] = if key == k then some v else none := by
            rw [List.lookup_cons]
            cases key == k with
            | true => rfl
            | false => rfl
          have hcons : valued ((k, some v) :: ps) = (k, v) :: valued ps := rfl
          rw [hcons, List.reverse_cons, List.lookup_append, ih hrest, hone]
          by_cases h : key = k
          · rw [habsent h, if_pos (beq_iff_eq.mpr h), if_pos (beq_iff_eq.mpr h)]
            rfl
          · rw [if_neg (mt beq_iff_eq.mp h), if_neg (mt beq_iff_eq.mp h), Option.or_none]

/-- **A call that is written with quotes is read as that call.** -/
theorem call_readsAs {c : V1Call} (h : c.Writable) : ReadsAs c.line c := by
  have hdistinct : (c.options.pairs.map (·.1)).Nodup := by
    show ["tab", "panel", "icon", "color", "url", "priority", "level", "source", "type"].Nodup
    decide
  have hkeys : ∀ p ∈ c.options.pairs, '=' ∉ p.1.toList := by
    have hall : ∀ k ∈ ["tab", "panel", "icon", "color", "url", "priority", "level", "source",
        "type"], '=' ∉ k.toList := by decide
    exact fun p hp => hall p.1 (List.mem_map_of_mem (f := (·.1)) hp)
  have hwords : ∀ w ∈ c.options.words, ∃ p ∈ c.options.pairs, ∃ v, p.2 = some v ∧
      w = "--" ++ p.1 ++ "=" ++ v := by
    intro w hw
    obtain ⟨p, hp, hmap⟩ := List.mem_filterMap.mp hw
    obtain ⟨v, hv, rfl⟩ := Option.map_eq_some_iff.mp hmap
    exact ⟨p, hp, v, hv, rfl⟩
  have hparse := @parseLine_written _ c.command.commandName (c.args ++ c.options.words)
    (fun w hw => (List.mem_append.mp hw).elim (fun hw => (h.args w hw).1) (h.options w))
  have hnone : c.args.filterMap (fun w => flagOf w.toList) = [] :=
    List.filterMap_eq_nil_iff.mpr fun a ha => (h.args a ha).2
  have hflags : c.options.words.filterMap (fun w => flagOf w.toList)
      = valued c.options.pairs := by
    unfold Options.words valued
    rw [List.filterMap_filterMap]
    refine List.filterMap_congr fun p hp => ?_
    cases hv : p.2 with
    | none => rfl
    | some v => exact flagOf_word (hkeys p hp) v
  unfold V1Call.line
  refine ⟨by rw [hparse], ?_, fun key => ?_⟩
  · rw [hparse]
    show (c.args ++ c.options.words).filter _ = c.args
    rw [List.filter_append, List.filter_eq_self.mpr fun a ha => by rw [(h.args a ha).2]; rfl,
      List.filter_eq_nil_iff.mpr, List.append_nil]
    intro w hw
    obtain ⟨p, hp, v, _, rfl⟩ := hwords w hw
    rw [flagOf_word (hkeys p hp)]
    exact Bool.false_ne_true
  · rw [hparse]
    show List.lookup key ((c.args ++ c.options.words).filterMap _).reverse = _
    rw [List.filterMap_append, hnone, List.nil_append, hflags]
    exact lookup_valued hdistinct key

/-! ## §3. What a call addresses. -/

variable {F : Type}

/-- The workspace of `--tab`, or the selected one. -/
def workspaceOf (env : V2Env F) (tm : TabManager) (tab : Option String) : Option Workspace :=
  match tab with
  | some t => (env.parseUuid t).bind tm.workspace
  | none => tm.selected

/-- The workspace and the panel of `--tab` and `--panel`.  A panel is in the workspace
that is given with it. -/
def placeOf (env : V2Env F) (tm : TabManager) (tab panel : Option String) :
    Option (Workspace × Option Uuid) :=
  match panel with
  | none => (workspaceOf env tm tab).map fun ws => (ws, none)
  | some p => do
      let id ← env.parseUuid p
      let ws ← tm.findWorkspaceWithPanel id
      let wsId ← tab.elim (some ws.id) env.parseUuid
      if tm.workspace wsId = some ws then some (ws, some id) else none

/-- The tab of a place: its panel, or the focused one. -/
def tabOf (place : Workspace × Option Uuid) : Option Uuid :=
  (place.2.or place.1.focusedPanelId).filter (· ∈ place.1.panels)

namespace V1Call

def workspace (env : V2Env F) (tm : TabManager) (c : V1Call) : Option Workspace :=
  workspaceOf env tm c.options.tab

def place (env : V2Env F) (tm : TabManager) (c : V1Call) : Option (Workspace × Option Uuid) :=
  placeOf env tm c.options.tab c.options.panel

/-- An open panel: the one of `--panel`, or the focused one of the selected workspace. -/
def panel (env : V2Env F) (tm : TabManager) (c : V1Call) : Option Uuid := do
  let id ← c.options.panel.elim (tm.selected.bind (·.focusedPanelId)) env.parseUuid
  let _ ← tm.findWorkspaceWithPanel id
  some id

end V1Call

/-! ## §4. What a call names. -/

/-- Within the limit of a handler. -/
def Fits (n : Nat) (s : String) : Prop := s.utf8ByteSize ≤ n

instance (n : Nat) (s : String) : Decidable (Fits n s) := inferInstanceAs (Decidable (_ ≤ _))

section
variable {α : Type}

def noArgs (args : List String) (names : Option α) : Option α :=
  match args with
  | [] => names
  | _ => none

def oneArg (args : List String) (names : String → Option α) : Option α :=
  match args with
  | [a] => names a
  | _ => none

def optArg (args : List String) (names : Option String → Option α) : Option α :=
  match args with
  | [] => names none
  | [a] => names (some a)
  | _ => none

/-- A text without quotes is several arguments. -/
def textArg (args : List String) (names : String → Option α) : Option α :=
  if args = [] then none else names (" ".intercalate args)

def twoArgs (args : List String) (names : String → String → Option α) : Option α :=
  match args with
  | [a, b] => names a b
  | _ => none

def oneOrTwo (args : List String) (names : String → Option String → Option α) : Option α :=
  match args with
  | [a] => names a none
  | [a, b] => names a (some b)
  | _ => none

end

/-- A number that is one. -/
def finiteOf (env : V2Env F) (s : String) : Option F :=
  (env.floats.parse s).filter env.floats.isFinite

/-- `--priority=N`. -/
def priorityOf (priority : Option String) : Option Int :=
  match priority with
  | none => some 0
  | some s => (Str.parseI64 s.toList).filter fun n => decide (-2 ^ 31 ≤ n ∧ n < 2 ^ 31)

/-- A branch, with a star if it is dirty. -/
def branchOf (s : String) : String × Bool :=
  match Str.stripSuffix ['*'] s.toList with
  | some stripped => (String.ofList stripped, true)
  | none => (s, false)

def splitOf (direction : Option String) : Option SplitOrientation :=
  match direction with
  | none => some .horizontal
  | some d => [("right", SplitOrientation.horizontal), ("down", .vertical)].lookup d

def panelTypeOf (type : Option String) : Option PanelType :=
  match type with
  | none => some .terminal
  | some t => [("terminal", PanelType.terminal), ("browser", .browser)].lookup t

/-- A port. -/
def portArg (s : String) : Option Nat := (Str.parseUsize s.toList).filter (· < 2 ^ 16)

/-- A notification for a place. -/
def notifyAt (place : Option (Workspace × Option Uuid)) (title : String) (body : Option String) :
    Option (Operation F) := do
  let (ws, panel) ← place
  if Fits 1024 title ∧ Fits 8192 (body.getD "") then
    some (.notify ws.id panel title (body.getD "") true)
  else none

/-- **What the help text promises of a call.** -/
def V1Call.intended (env : V2Env F) (tm : TabManager) (c : V1Call) : Option (Operation F) :=
  let o := c.options
  match c.command with
  | .ping => noArgs c.args (some .ping)
  | .capabilities => noArgs c.args (some .capabilities)
  | .identify => noArgs c.args (some .identify)
  | .tree => noArgs c.args (some .tree)
  | .auth => noArgs c.args (some .authenticated)
  | .help => noArgs c.args (some .help)
  | .listWindows => noArgs c.args (some .listWindows)
  | .currentWindow => noArgs c.args (some .currentWindow)
  | .newWindow => noArgs c.args (some .createWindow)
  | .focusWindow => oneArg c.args fun id => (env.parseUuid id).map fun w => .refreshWindow (some w)
  | .closeWindow => oneArg c.args fun id => (env.parseUuid id).map .removeWindow
  | .list => noArgs c.args (some .listWorkspaces)
  | .new => optArg c.args fun dir =>
      if ∀ d ∈ dir, Fits maxDirectoryLen d then some (.createWorkspace { directory := dir })
      else none
  | .select => oneArg c.args fun a =>
      -- what reads both ways names neither
      match env.parseUuid a, Str.parseUsize a.toList with
      | some id, none => some (.selectById id)
      | none, some i => some (.selectIndex i)
      | _, _ => none
  | .current => noArgs c.args (tm.selected.map fun _ => .currentWorkspace)
  | .close => noArgs c.args ((c.workspace env tm).map fun ws => .removeWorkspace ws.id)
  | .next => noArgs c.args (some (.selectNext true))
  | .prev => noArgs c.args (some (.selectPrevious true))
  | .last => noArgs c.args (some .selectLast)
  | .latestUnread => noArgs c.args (some .selectLatestUnread)
  | .rename => oneArg c.args fun name => do
      let ws ← c.workspace env tm
      if Fits maxTitleLen name then some (.setTitle ws.id name) else none
  | .reorder => oneArg c.args fun index => do
      let ws ← c.workspace env tm
      let i ← tm.workspaceIndex ws.id
      let j ← Str.parseUsize index.toList
      some (.moveWorkspace i j)
  | .workspaceAction => oneArg c.args fun action => do
      let ws ← c.workspace env tm
      let act ← WorkspaceAction.table.lookup action
      some (.act ws.id act)
  | .moveWorkspaceToWindow => oneArg c.args fun wid => do
      let ws ← c.workspace env tm
      let window ← env.parseUuid wid
      some (.setWindow ws.id window)
  | .setStatus => twoArgs c.args fun key value => do
      let ws ← c.workspace env tm
      if Fits maxStatusKeyLen key ∧ Fits maxStatusValueLen value ∧ (∀ s ∈ o.icon, Fits 256 s) ∧
          (∀ s ∈ o.color, Fits 64 s) ∧ ∀ s ∈ o.url, Fits 2048 s then
        some (.setStatus ws.id key value o.icon o.color o.url)
      else none
  | .clearStatus => optArg c.args fun key =>
      (c.workspace env tm).map fun ws => .clearStatus ws.id key
  | .listStatus => noArgs c.args ((c.workspace env tm).map fun ws => .listStatus ws.id)
  | .setProgress => oneOrTwo c.args fun value label => do
      let ws ← c.workspace env tm
      let x ← finiteOf env value
      some (.setProgress ws.id (some (x, label)))
  | .clearProgress => noArgs c.args ((c.workspace env tm).map fun ws => .setProgress ws.id none)
  | .log => oneArg c.args fun message => do
      let ws ← c.workspace env tm
      if Fits maxLogMessageLen message ∧ (∀ s ∈ o.level, Fits 64 s) ∧
          ∀ s ∈ o.source, Fits 256 s then
        some (.appendLog ws.id message (o.level.getD "info") o.source)
      else none
  | .clearLog => noArgs c.args ((c.workspace env tm).map fun ws => .clearLog ws.id)
  | .listLog => noArgs c.args ((c.workspace env tm).map fun ws => .listLog ws.id)
  | .reportMeta => twoArgs c.args fun key value => do
      let ws ← c.workspace env tm
      let priority ← priorityOf o.priority
      if Fits maxStatusKeyLen key ∧ Fits maxStatusValueLen value then
        some (.setMetadata ws.id key value o.icon o.color o.url priority false)
      else none
  | .reportMetaBlock => twoArgs c.args fun key content => do
      let ws ← c.workspace env tm
      let priority ← priorityOf o.priority
      if Fits maxStatusKeyLen key ∧ Fits maxBlockContentLen content then
        some (.setMetadataBlock ws.id key content priority)
      else none
  | .clearMeta => optArg c.args fun key =>
      (c.workspace env tm).map fun ws => .clearMetadata ws.id key
  | .listMeta => noArgs c.args ((c.workspace env tm).map fun ws => .listMetadata ws.id)
  | .clearMetaBlock => optArg c.args fun key =>
      (c.workspace env tm).map fun ws => .clearMetadataBlock ws.id key
  | .listMetaBlocks => noArgs c.args ((c.workspace env tm).map fun ws => .listMetadataBlocks ws.id)
  | .reportPwd => oneArg c.args fun dir => do
      let (ws, panel) ← c.place env tm
      if Fits maxDirectoryLen dir then some (.setDirectory ws.id panel dir) else none
  | .reportGitBranch => oneArg c.args fun branch => do
      let (ws, panel) ← c.place env tm
      if (branchOf branch).1 ≠ "" ∧ Fits maxBranchLen (branchOf branch).1 then
        some (.setGitBranch ws.id panel (some (branchOf branch)))
      else none
  | .clearGitBranch => noArgs c.args
      ((c.place env tm).map fun p => .setGitBranch p.1.id p.2 none)
  | .reportPr => oneOrTwo c.args fun status url => do
      let (ws, _) ← c.place env tm
      if Fits maxStatusLen status ∧ ∀ s ∈ url, Fits maxUrlLen s then
        some (.setPr ws.id (some status) url)
      else none
  | .clearPr => noArgs c.args ((c.place env tm).map fun p => .setPr p.1.id none none)
  | .reportTty => oneArg c.args fun tty => do
      let target ← (c.place env tm).bind tabOf
      if Fits 256 tty then some (.setTty target tty) else none
  | .reportShellState => oneArg c.args fun state =>
      (c.place env tm).map fun p => .setShellState p.1.id state
  | .reportPorts => do
      let ports ← c.args.mapM portArg
      let target ← (c.place env tm).bind tabOf
      if ports.length ≤ 256 then some (.setPorts target ports) else none
  | .portsKick => noArgs c.args (some .portsKick)
  | .listSurfaces => noArgs c.args ((c.workspace env tm).map fun ws => .listPanels ws.id)
  | .currentSurface => noArgs c.args
      ((tm.selected.bind (·.focusedPanelId)).map .currentPanel)
  | .focusSurface => oneArg c.args fun id => do
      let panel ← env.parseUuid id
      let ws ← tm.findWorkspaceWithPanel panel
      some (.focusPanel ws.id panel)
  | .send => textArg c.args fun text => do
      let panel ← c.panel env tm
      if Fits maxSurfaceInputLen text then some (.sendInput panel text) else none
  | .sendSurface =>
      match c.args with
      | id :: words => textArg words fun text => do
          let panel ← env.parseUuid id
          if Fits maxSurfaceInputLen text then some (.sendInput panel text) else none
      | [] => none
  | .sendKey => oneArg c.args fun key => do
      let panel ← c.panel env tm
      let (keyval, keycode) ← resolveKeyName key
      some (.sendKey panel keyval keycode {})
  | .split => optArg c.args fun direction => do
      let ws ← c.workspace env tm
      let orientation ← splitOf direction
      let panelType ← panelTypeOf o.type
      some (.split ws.id orientation panelType none)
  | .closeSurface => oneArg c.args fun id => (env.parseUuid id).map .closePanel
  | .readScreen => noArgs c.args ((c.panel env tm).map fun p => .readText p false none)
  | .clearHistory => noArgs c.args ((c.panel env tm).map .clearHistory)
  | .listPanes => noArgs c.args ((c.workspace env tm).map fun ws => .listPanels ws.id)
  | .focusDirection => oneArg c.args fun name => do
      let ws ← c.workspace env tm
      let direction ← directionOf name
      some (.focusDirection ws.id direction)
  | .swapPanes => twoArgs c.args fun a b => do
      let a ← env.parseUuid a
      let b ← env.parseUuid b
      let ws ← tm.findWorkspaceWithPanel a
      if b ∈ ws.panels then some (.swapPanels ws.id a b) else none
  | .resizePane => oneArg c.args fun delta => do
      let panel ← c.panel env tm
      let ws ← tm.findWorkspaceWithPanel panel
      let amount ← finiteOf env delta
      some (.resizePanel ws.id panel amount)
  | .breakPane => noArgs c.args ((c.panel env tm).map .breakPanel)
  | .equalize => noArgs c.args ((c.workspace env tm).map fun ws => .equalize ws.id)
  | .notify => oneOrTwo c.args fun title body => notifyAt (c.place env tm) title body
  | .notifySurface =>
      match c.args with
      | id :: rest => oneOrTwo rest fun title body =>
          notifyAt (placeOf env tm none (some id)) title body
      | [] => none
  | .notifyTarget =>
      match c.args with
      | ws :: id :: rest => oneOrTwo rest fun title body =>
          notifyAt (placeOf env tm (some ws) (some id)) title body
      | _ => none
  | .listNotifications => noArgs c.args (some (.listNotifications false))
  | .clearNotifications => noArgs c.args (some .clearNotifications)
  | .openBrowser => optArg c.args fun url =>
      (c.workspace env tm).map fun ws => .split ws.id .horizontal .browser url
  | .navigate => oneArg c.args fun url => (c.panel env tm).map fun p => .navigate p url
  | .browserBack => noArgs c.args ((c.panel env tm).map .goBack)
  | .browserForward => noArgs c.args ((c.panel env tm).map .goForward)
  | .browserReload => noArgs c.args ((c.panel env tm).map .reload)
  | .settings => noArgs c.args (some .openSettings)
  | .markdown => oneArg c.args fun path =>
      (c.workspace env tm).map fun ws => .openMarkdown ws.id path none

/-! ## §5. Where the two protocols part. -/

/-- The calls that the handlers do not answer as the help text promises. -/
def V1Call.Differs (env : V2Env F) (tm : TabManager) (c : V1Call) : Prop :=
  match c.command with
  -- no such command
  | .close | .reorder => True
  -- a parameter has one name in the request and another in the handler
  | .rename | .focusWindow | .closeWindow | .send | .sendSurface | .swapPanes | .resizePane
  | .reportShellState | .markdown => True
  -- an empty status is a status
  | .clearPr => True
  | .clearStatus => c.args ≠ []
  -- the number is written as text in between
  | .setProgress => ∃ s ∈ c.args.head?, ∃ x ∈ env.floats.parse s, env.reread x ≠ x
  -- ports are sent as texts and the workspace is not read
  | .reportPorts => c.args ≠ [] ∨
      (c.place env tm).bind tabOf ≠ tm.selected.bind fun ws => tabOf (ws, none)
  | .reportTty => c.options.panel = none ∧
      (c.place env tm).bind tabOf ≠ tm.selected.bind fun ws => tabOf (ws, none)
  -- the handler looks for the panel in the selected workspace only
  | .reportGitBranch => c.options.tab = none ∧
      ∃ ws p, c.place env tm = some (ws, some p) ∧
        ∀ s, tm.selected = some s → s.id = ws.id → p ∉ s.panels
  | .clearGitBranch => c.options.panel ≠ none
  | .reportPr => c.options.tab = none ∧ c.options.panel ≠ none ∧
      (c.place env tm).map (·.1.id) ≠ tm.selectedId
  -- the handler reads no workspace
  | .split | .openBrowser | .focusDirection => (c.workspace env tm).map (·.id) ≠ tm.selectedId
  -- the handler wants a panel
  | .navigate | .browserBack | .browserForward | .browserReload => c.options.panel = none
  | _ => False

end Jmux.Socket
