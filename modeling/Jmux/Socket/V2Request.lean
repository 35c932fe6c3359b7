/-
  Jmux.Socket.V2Request — what the V2 handlers make of a request (`socket/v2/`,
  `socket/browser/`), for the methods that the commands of the V1 help become.

  A handler reads its parameters, finds the workspace and the panel that they
  address and then does one thing: its operation, with the values that it read.
  What the operation does to the state and whether it finds its way there (a
  neighbour in that direction, a surface that is ready) is not modelled here.
  The browser is compiled in, as it is by default.

  Main results:
    * `parseWorkspaceParam_eq`, `panelParam_eq` — the ids that are given as text are
                             the ones that the handlers read.
    * `truncateStr_self`   — a text within the limit is taken as it is.
-/
import Jmux.Socket.Tab
import Jmux.Socket.V1

namespace Jmux.Socket

open Jmux.Lib Jmux.Model

/-! ## §1. Reading parameters. -/

/-- What the handlers use of the libraries. -/
structure V2Env (F : Type) extends V1Env F where
  /-- `Uuid::parse_str` -/
  parseUuid : String → Option Uuid
  /-- A floating-point number that `serde_json` wrote, as it reads it again. -/
  reread    : F → F

variable {F : Type}

def invalidParams (message : String) : Response := .error "invalid_params" message

def notFound (message : String) : Response := .error "not_found" message

/-- `let Some(..) = .. else { return .. }`. -/
def orElseReturn {α : Type} (error : Response) : Option α → Except Response α
  | some a => .ok a
  | none => .error error

/-- `params.get(key).and_then(|v| v.as_str())`. -/
def strParam (key : String) (params : Value F) : Option String :=
  (params.get key).bind Value.asStr

/-- The first of two parameters that is there. -/
def eitherParam (key other : String) (params : Value F) : Option (Value F) :=
  (params.get key).or (params.get other)

/-- A JSON number, as `as_f64` gives it in the handler. -/
def f64Param (env : V2Env F) (key : String) (params : Value F) : Option F :=
  (params.get key).bind fun v =>
    match v with
    | .float x => some (env.reread x)
    | v => v.asF64 env.floats

def parseWorkspaceParam (env : V2Env F) (params : Value F) : Except Response (Option Uuid) :=
  match eitherParam "workspace" "workspace_id" params with
  | none | some .null => .ok none
  | some v =>
      match v.asStr.bind env.parseUuid with
      | some id => .ok (some id)
      | none => .error (invalidParams "Invalid workspace UUID")

def parseUsizeParam (key : String) (params : Value F) : Except Response (Option Nat) :=
  match params.get key with
  | none => .ok none
  | some v =>
      match v.asU64 with
      | some n => .ok (some n)
      | none => .error (invalidParams ("'" ++ key ++ "' must be a non-negative integer"))

/-- `workspace_mut` of the id, or the selected workspace. -/
def workspaceOr (tm : TabManager) (id : Option Uuid) (message : String) :
    Except Response Workspace :=
  orElseReturn (notFound message) (match id with
    | some id => tm.workspace id
    | none => tm.selected)

/-- A panel id that is skipped when it cannot be read. -/
def lenientPanel (env : V2Env F) (params : Value F) : Option Uuid :=
  ((eitherParam "panel" "surface" params).bind Value.asStr).bind env.parseUuid

/-- The panel as `resolve_panel_id` gets it. -/
def panelParam (env : V2Env F) (params : Value F) : UuidParam :=
  match (eitherParam "panel" "surface" params).bind Value.asStr with
  | none => .absent
  | some s =>
      match env.parseUuid s with
      | some id => .given id
      | none => .malformed

def requirePanelId (env : V2Env F) (params : Value F) : Except Response Uuid :=
  match (eitherParam "panel" "surface" params).or (params.get "panel_id") with
  | none | some .null => .error (invalidParams "Provide 'panel' UUID")
  | some v =>
      match v.asStr with
      | none => .error (invalidParams "panel must be a string UUID")
      | some s => orElseReturn (invalidParams "Invalid panel UUID format") (env.parseUuid s)

/-- An id under one of two keys, of which a `null` is none at all; `subject` is how the
errors call it. -/
def panelOrNull (env : V2Env F) (v : Option (Value F)) (subject : String)
    (format : String) : Except Response (Option Uuid) :=
  match v with
  | none | some .null => .ok none
  | some v =>
      match v.asStr with
      | none => .error (invalidParams (subject ++ " must be a string"))
      | some s =>
          match env.parseUuid s with
          | some id => .ok (some id)
          | none => .error (invalidParams format)

def optionalUuid (env : V2Env F) (key : String) (params : Value F) :
    Except Response (Option Uuid) :=
  match params.get key with
  | none | some .null => .ok none
  | some v =>
      match v.asStr with
      | none => .error (invalidParams ("'" ++ key ++ "' must be a string UUID"))
      | some s =>
          match env.parseUuid s with
          | some id => .ok (some id)
          | none => .error (invalidParams ("Invalid UUID for '" ++ key ++ "'"))

/-! ## §2. Operations. -/

/-- The actions of `workspace.action` that need no other parameter. -/
inductive WorkspaceAction
  | pin | unpin | togglePin | markRead | markUnread | clearName | clearColor | moveUp | moveDown
  | moveTop | closeOthers | closeAbove | closeBelow
  | setColor (color : String)
  | rename (title : String)
  deriving DecidableEq, Repr

/-- The modifiers of a key event. -/
structure Mods where
  ctrl  : Bool := false
  shift : Bool := false
  alt   : Bool := false
  super : Bool := false
  deriving DecidableEq, Repr

/-- What `create_workspace` reads. -/
structure NewWorkspace where
  directory : Option String := none
  title     : Option String := none
  command   : Option String := none
  browser   : Bool := false
  kind      : Option String := none
  url       : Option String := none
  source    : Option String := none
  file      : Option String := none
  deriving DecidableEq, Repr

/-- What a handler does in the end. -/
inductive Operation (F : Type)
  | ping | capabilities | identify | tree | help | authenticated
  | listWindows | currentWindow | createWindow
  /-- The primary window if none is given. -/
  | refreshWindow (window : Option Uuid)
  | removeWindow (window : Uuid)
  | listWorkspaces | currentWorkspace
  | createWorkspace (new : NewWorkspace)
  | selectIndex (index : Nat)
  | selectById (workspace : Uuid)
  | selectNext (wrap : Bool)
  | selectPrevious (wrap : Bool)
  | selectLast | selectLatestUnread
  | removeWorkspace (workspace : Uuid)
  | setTitle (workspace : Uuid) (title : String)
  | moveWorkspace (fromIdx toIdx : Nat)
  | act (workspace : Uuid) (action : WorkspaceAction)
  | setWindow (workspace window : Uuid)
  | setStatus (workspace : Uuid) (key value : String) (icon color url : Option String)
  /-- All entries if no key is given. -/
  | clearStatus (workspace : Uuid) (key : Option String)
  | listStatus (workspace : Uuid)
  | setProgress (workspace : Uuid) (progress : Option (F × Option String))
  | appendLog (workspace : Uuid) (message level : String) (source : Option String)
  | clearLog (workspace : Uuid)
  | listLog (workspace : Uuid)
  | setMetadata (workspace : Uuid) (key value : String) (icon color url : Option String)
      (priority : Int) (markdown : Bool)
  | clearMetadata (workspace : Uuid) (key : Option String)
  | listMetadata (workspace : Uuid)
  | setMetadataBlock (workspace : Uuid) (key content : String) (priority : Int)
  | clearMetadataBlock (workspace : Uuid) (key : Option String)
  | listMetadataBlocks (workspace : Uuid)
  | setDirectory (workspace : Uuid) (panel : Option Uuid) (directory : String)
  /-- The branch and whether it is dirty, or no branch. -/
  | setGitBranch (workspace : Uuid) (panel : Option Uuid) (branch : Option (String × Bool))
  | setPr (workspace : Uuid) (status url : Option String)
  | setTty (panel : Uuid) (tty : String)
  | setPorts (panel : Uuid) (ports : List Nat)
  | setShellState (workspace : Uuid) (state : String)
  /-- `workspace.ports_kick` does nothing. -/
  | portsKick
  /-- The panel to write to is not there. -/
  | nothing
  | listPanels (workspace : Uuid)
  | currentPanel (panel : Uuid)
  | focusPanel (workspace panel : Uuid)
  | sendInput (panel : Uuid) (text : String)
  | sendKey (panel : Uuid) (keyval keycode : Nat) (mods : Mods)
  | closePanel (panel : Uuid)
  | readText (panel : Uuid) (scrollback : Bool) (lines : Option Nat)
  | clearHistory (panel : Uuid)
  | split (workspace : Uuid) (orientation : SplitOrientation) (panelType : PanelType)
      (url : Option String)
  | focusDirection (workspace : Uuid) (direction : Direction)
  | swapPanels (workspace a b : Uuid)
  | resizePanel (workspace panel : Uuid) (amount : F)
  | breakPanel (panel : Uuid)
  | equalize (workspace : Uuid)
  | notify (workspace : Uuid) (panel : Option Uuid) (title body : String) (sendDesktop : Bool)
  | listNotifications (unreadOnly : Bool)
  | clearNotifications
  | navigate (panel : Uuid) (url : String)
  | goBack (panel : Uuid)
  | goForward (panel : Uuid)
  | reload (panel : Uuid)
  | openSettings
  | openMarkdown (workspace : Uuid) (file : String) (orientation : Option SplitOrientation)
  deriving DecidableEq

def maxDirectoryLen : Nat := 4096
def maxUrlLen : Nat := 1024
def maxBranchLen : Nat := 256
def maxMethodLen : Nat := 200
def maxStatusLen : Nat := 64
def maxSurfaceInputLen : Nat := 128 * 1024
def maxStatusKeyLen : Nat := 256
def maxStatusValueLen : Nat := 4096
def maxBlockContentLen : Nat := 32768
def maxLogMessageLen : Nat := 8192

/-! ## §3. Handlers of workspaces. -/

/-- `Workspace::set_status_with_url`, with its limits. -/
def setStatusWithUrl (workspace : Uuid) (key value : String) (icon color url : Option String) :
    Operation F :=
  .setStatus workspace (truncateStr key maxStatusKeyLen) (truncateStr value maxStatusValueLen)
    (icon.map (truncateStr · 256)) (color.map (truncateStr · 64)) (url.map (truncateStr · 2048))

/-- A handler that only needs the workspace. -/
def onWorkspaceOr (message : String) (env : V2Env F) (tm : TabManager) (op : Uuid → Operation F)
    (params : Value F) : Except Response (Operation F) := do
  let wsId ← parseWorkspaceParam env params
  let ws ← workspaceOr tm wsId message
  pure (op ws.id)

def onWorkspace (env : V2Env F) (tm : TabManager) (op : Uuid → Operation F) (params : Value F) :
    Except Response (Operation F) :=
  onWorkspaceOr "Workspace not found" env tm op params

def handleWorkspaceNew (params : Value F) : Except Response (Operation F) :=
  .ok (.createWorkspace
    { directory := ((eitherParam "directory" "cwd" params).bind Value.asStr).map
        (truncateStr · maxDirectoryLen)
      title     := (strParam "title" params).map (truncateStr · maxTitleLen)
      command   := strParam "command" params
      browser   := ((params.get "browser").bind Value.asBool).getD false
      kind      := strParam "kind" params
      url       := (strParam "url" params).map (truncateStr · maxUrlLen)
      source    := strParam "source" params
      file      := strParam "file" params })

def handleWorkspaceSelect (env : V2Env F) (params : Value F) : Except Response (Operation F) := do
  let index ← parseUsizeParam "index" params
  let wsId ← parseWorkspaceParam env params
  match index, wsId with
  | some i, _ => pure (.selectIndex i)
  | none, some id => pure (.selectById id)
  | none, none => .error (invalidParams "Provide 'index' or 'workspace'/'workspace_id'")

/-- The `wrap` of `workspace.next` and `workspace.previous`. -/
def wrapParam (params : Value F) : Bool := ((params.get "wrap").bind Value.asBool).getD true

def handleWorkspaceSetStatus (env : V2Env F) (tm : TabManager) (params : Value F) :
    Except Response (Operation F) := do
  let wsId ← parseWorkspaceParam env params
  match strParam "key" params, strParam "value" params with
  | some key, some value =>
      let ws ← workspaceOr tm wsId "Workspace not found"
      pure (setStatusWithUrl ws.id key value (strParam "icon" params) (strParam "color" params)
        (strParam "url" params))
  | _, _ => .error (invalidParams "Provide 'key' and 'value'")

/-- `workspace.clear_status` clears every entry; it reads no key. -/
def handleWorkspaceClearStatus (env : V2Env F) (tm : TabManager) (params : Value F) :
    Except Response (Operation F) :=
  onWorkspace env tm (.clearStatus · none) params

def handleWorkspaceReportGit (env : V2Env F) (tm : TabManager) (params : Value F) :
    Except Response (Operation F) := do
  let wsId ← parseWorkspaceParam env params
  let isDirty := ((params.get "is_dirty").bind Value.asBool).getD false
  let surfaceId := (strParam "surface" params).bind env.parseUuid
  let branch ← orElseReturn (invalidParams "Provide 'branch'") (strParam "branch" params)
  let gitBranch := if branch = "" then none else some (truncateStr branch maxBranchLen, isDirty)
  let ws ← workspaceOr tm wsId "Workspace not found"
  pure (.setGitBranch ws.id (surfaceId.filter (· ∈ ws.panels)) gitBranch)

def handleWorkspaceSetProgress (env : V2Env F) (tm : TabManager) (params : Value F) :
    Except Response (Operation F) := do
  let wsId ← parseWorkspaceParam env params
  let ws ← workspaceOr tm wsId "Workspace not found"
  let label := strParam "label" params
  pure (.setProgress ws.id ((f64Param env "value" params).map fun x => (x, label)))

def handleWorkspaceAppendLog (env : V2Env F) (tm : TabManager) (params : Value F) :
    Except Response (Operation F) := do
  let wsId ← parseWorkspaceParam env params
  let message ← orElseReturn (invalidParams "Provide 'message'") (strParam "message" params)
  let ws ← workspaceOr tm wsId "Workspace not found"
  pure (.appendLog ws.id (truncateStr message maxLogMessageLen)
    (truncateStr ((strParam "level" params).getD "info") 64)
    ((strParam "source" params).map (truncateStr · 256)))

/-- The priority, if it fits into an `i32`. -/
def priorityParam (params : Value F) : Int :=
  (((params.get "priority").bind Value.asI64).filter fun n =>
    decide (-2 ^ 31 ≤ n ∧ n < 2 ^ 31)).getD 0

def handleWorkspaceReportMeta (env : V2Env F) (tm : TabManager) (params : Value F) :
    Except Response (Operation F) := do
  let wsId ← parseWorkspaceParam env params
  match strParam "key" params, strParam "value" params with
  | some key, some value =>
      let ws ← workspaceOr tm wsId "Workspace not found"
      pure (.setMetadata ws.id (truncateStr key maxStatusKeyLen)
        (truncateStr value maxStatusValueLen) (strParam "icon" params) (strParam "color" params)
        (strParam "url" params) (priorityParam params)
        (decide (strParam "format" params = some "markdown")))
  | _, _ => .error (invalidParams "Provide 'key' and 'value'")

def handleWorkspaceReportMetaBlock (env : V2Env F) (tm : TabManager) (params : Value F) :
    Except Response (Operation F) := do
  let wsId ← parseWorkspaceParam env params
  match strParam "key" params, strParam "content" params with
  | some key, some content =>
      let ws ← workspaceOr tm wsId "Workspace not found"
      pure (.setMetadataBlock ws.id (truncateStr key maxStatusKeyLen)
        (truncateStr content maxBlockContentLen) (priorityParam params))
  | _, _ => .error (invalidParams "Provide 'key' and 'content'")

def handleWorkspaceCurrent (tm : TabManager) : Except Response (Operation F) :=
  (orElseReturn (notFound "No workspace selected") tm.selected).map fun _ => .currentWorkspace

def handleWorkspaceRename (env : V2Env F) (tm : TabManager) (params : Value F) :
    Except Response (Operation F) := do
  let wsId ← parseWorkspaceParam env params
  let title ← orElseReturn (invalidParams "Provide 'title'") (strParam "title" params)
  let ws ← workspaceOr tm wsId "Workspace not found"
  pure (.setTitle ws.id (truncateStr title maxTitleLen))

def handleWorkspaceReorder (params : Value F) : Except Response (Operation F) := do
  let fromIdx ← parseUsizeParam "from" params
  let toIdx ← parseUsizeParam "to" params
  match fromIdx, toIdx with
  | some i, some j => pure (.moveWorkspace i j)
  | _, _ => .error (invalidParams "Provide 'from' and 'to'")

/-- The actions without a parameter, by their names. -/
def WorkspaceAction.table : List (String × WorkspaceAction) :=
  [("pin", .pin), ("unpin", .unpin), ("toggle_pin", .togglePin), ("mark_read", .markRead),
    ("mark_unread", .markUnread), ("clear_name", .clearName), ("clear_color", .clearColor),
    ("move_up", .moveUp), ("move_down", .moveDown), ("move_top", .moveTop),
    ("close_others", .closeOthers), ("close_above", .closeAbove), ("close_below", .closeBelow)]

def workspaceActionOf (params : Value F) (action : String) : Except Response WorkspaceAction :=
  if action = "set_color" then
    (orElseReturn (invalidParams "set_color requires 'color' param") (strParam "color" params)).map
      fun color => .setColor (truncateStr color maxStatusLen)
  else if action = "rename" then
    (orElseReturn (invalidParams "rename requires 'title' param") (strParam "title" params)).map
      fun title => .rename (truncateStr title maxMethodLen)
  else
    orElseReturn (invalidParams ("Unknown action. Use: pin, unpin, toggle_pin, mark_read, "
      ++ "mark_unread, clear_name, set_color, clear_color, rename, move_up, move_down, move_top, "
      ++ "close_others, close_above, close_below")) (WorkspaceAction.table.lookup action)

def handleWorkspaceAction (env : V2Env F) (tm : TabManager) (params : Value F) :
    Except Response (Operation F) := do
  let wsId ← parseWorkspaceParam env params
  let action ← orElseReturn (invalidParams "Provide 'action'") (strParam "action" params)
  let ws ← workspaceOr tm wsId "No workspace"
  let act ← workspaceActionOf params action
  pure (.act ws.id act)

/-- The panel comes first, then the workspace. -/
def pwdWorkspace (tm : TabManager) (panelId wsId : Option Uuid) : Except Response Workspace :=
  match panelId with
  | some id => orElseReturn (notFound "No workspace") (tm.findWorkspaceWithPanel id)
  | none => workspaceOr tm wsId "No workspace"

def handleWorkspaceReportPwd (env : V2Env F) (tm : TabManager) (params : Value F) :
    Except Response (Operation F) := do
  let directory ← orElseReturn (invalidParams "Provide 'directory'") (strParam "directory" params)
  let panelId := lenientPanel env params
  let wsId ← parseWorkspaceParam env params
  let ws ← pwdWorkspace tm panelId wsId
  pure (.setDirectory ws.id panelId (truncateStr directory maxDirectoryLen))

/-- The workspace of the panel, or the selected one, and the panel to write to. -/
def reportTarget (tm : TabManager) (panelId : Option Uuid) : Except Response (Option Uuid) := do
  let ws ← orElseReturn (notFound "No workspace") (match panelId with
    | some id => tm.findWorkspaceWithPanel id
    | none => tm.selected)
  pure ((panelId.or ws.focusedPanelId).filter (· ∈ ws.panels))

/-- An entry of `ports` counts if it is a number of 16 bits. -/
def portOf (v : Value F) : Option Nat := v.asU64.filter (· < 2 ^ 16)

def handleWorkspaceReportPorts (env : V2Env F) (tm : TabManager) (params : Value F) :
    Except Response (Operation F) := do
  let items ← orElseReturn (invalidParams "Provide 'ports' array")
    ((params.get "ports").bind Value.asArray)
  let target ← reportTarget tm (lenientPanel env params)
  pure (match target with
    | some panel => .setPorts panel ((items.filterMap portOf).take 256)
    | none => .nothing)

def handleWorkspaceReportTty (env : V2Env F) (tm : TabManager) (params : Value F) :
    Except Response (Operation F) := do
  let tty ← orElseReturn (invalidParams "Provide 'tty'") (strParam "tty" params)
  let target ← reportTarget tm (lenientPanel env params)
  pure (match target with
    | some panel => .setTty panel (truncateStr tty 256)
    | none => .nothing)

def handleWorkspaceReportPr (env : V2Env F) (tm : TabManager) (params : Value F) :
    Except Response (Operation F) := do
  let wsId ← parseWorkspaceParam env params
  let ws ← workspaceOr tm wsId "No workspace"
  pure (.setPr ws.id ((strParam "status" params).map (truncateStr · maxStatusLen))
    ((strParam "url" params).map (truncateStr · maxUrlLen)))

def handleWorkspaceMoveToWindow (env : V2Env F) (tm : TabManager) (params : Value F) :
    Except Response (Operation F) := do
  let wsId ← parseWorkspaceParam env params
  let window ← orElseReturn (invalidParams "Provide 'window' (UUID)")
    ((strParam "window" params).bind env.parseUuid)
  let ws ← workspaceOr tm wsId "Workspace not found"
  pure (.setWindow ws.id window)

/-! ## §4. Handlers of windows, surfaces and panes. -/

def handleWindowFocus (env : V2Env F) (params : Value F) : Except Response (Operation F) :=
  .ok (.refreshWindow ((strParam "id" params).bind env.parseUuid))

def handleWindowClose (env : V2Env F) (params : Value F) : Except Response (Operation F) := do
  let text ← orElseReturn (.error "missing_param" "Missing 'id' parameter") (strParam "id" params)
  let window ← orElseReturn (.error "invalid_id" "Invalid window ID") (env.parseUuid text)
  pure (.removeWindow window)

/-- The surface that the input goes to. -/
def inputTarget (tm : TabManager) : Option Uuid → Except Response Uuid
  | some id =>
      (orElseReturn (notFound "Surface not found") (tm.findWorkspaceWithPanel id)).map fun _ => id
  | none => do
      let ws ← orElseReturn (notFound "No workspace selected") tm.selected
      orElseReturn (notFound "No focused surface")
        (ws.focusedPanelId.or ws.layout.allPanelIds.head?)

def handleSurfaceSendInput (env : V2Env F) (tm : TabManager) (params : Value F) :
    Except Response (Operation F) := do
  let input ← orElseReturn (invalidParams "Provide 'input'") (strParam "input" params)
  let explicit ← panelOrNull env (eitherParam "surface" "panel" params) "surface/panel"
    "Invalid surface/panel UUID format"
  let panel ← inputTarget tm explicit
  pure (.sendInput panel (truncateStr input maxSurfaceInputLen))

def handleSurfaceCurrent (tm : TabManager) : Except Response (Operation F) := do
  let ws ← orElseReturn (notFound "No workspace selected") tm.selected
  let panel ← orElseReturn (notFound "No focused surface") ws.focusedPanelId
  pure (.currentPanel panel)

/-- The names of keys: their GDK keyval and their XKB keycode. -/
def keyNames : List (List String × Nat × Nat) :=
  [(["return", "enter"], 0xff0d, 36), (["escape", "esc"], 0xff1b, 9), (["tab"], 0xff09, 23),
    (["backspace"], 0xff08, 22), (["delete", "del"], 0xffff, 119), (["space"], 0x0020, 65),
    (["up", "arrow_up"], 0xff52, 111), (["down", "arrow_down"], 0xff54, 116),
    (["left", "arrow_left"], 0xff51, 113), (["right", "arrow_right"], 0xff53, 114),
    (["home"], 0xff50, 110), (["end"], 0xff57, 115), (["page_up", "pageup"], 0xff55, 112),
    (["page_down", "pagedown"], 0xff56, 117), (["insert"], 0xff63, 118), (["f1"], 0xffbe, 67),
    (["f2"], 0xffbf, 68), (["f3"], 0xffc0, 69), (["f4"], 0xffc1, 70), (["f5"], 0xffc2, 71),
    (["f6"], 0xffc3, 72), (["f7"], 0xffc4, 73), (["f8"], 0xffc5, 74), (["f9"], 0xffc6, 75),
    (["f10"], 0xffc7, 76), (["f11"], 0xffc8, 95), (["f12"], 0xffc9, 96)]

def resolveKeyName (name : String) : Option (Nat × Nat) :=
  let lower := String.ofList (Str.toLowercase name.toList)
  let byName := (keyNames.find? fun k => lower ∈ k.1).map (·.2)
  match name.toList with
  -- a character that can be printed stands for itself
  | [c] => if ' ' ≤ c ∧ c ≤ '~' then some (c.toNat, 0) else byName
  | _ => byName

/-- A modifier is on if one of its names is in the list. -/
def modsOf (items : List (Value F)) : Mods :=
  let names := (items.filterMap Value.asStr).map fun s => String.ofList (Str.toLowercase s.toList)
  { ctrl  := names.any (· ∈ ["ctrl", "control"])
    shift := names.any (· ∈ ["shift"])
    alt   := names.any (· ∈ ["alt"])
    super := names.any (· ∈ ["super", "meta"]) }

def handleSurfaceSendKey (env : V2Env F) (tm : TabManager) (params : Value F) :
    Except Response (Operation F) := do
  let key ← orElseReturn (invalidParams "Provide 'key' (e.g. 'c', 'Return', 'Escape')")
    (strParam "key" params)
  let (keyval, keycode) ← orElseReturn (invalidParams ("Unknown key name: '" ++ key ++ "'"))
    (resolveKeyName key)
  let panel ← resolvePanelId tm (panelParam env params)
  pure (.sendKey panel keyval keycode (modsOf (((params.get "mods").bind Value.asArray).getD [])))

def handleSurfaceReadText (env : V2Env F) (tm : TabManager) (params : Value F) :
    Except Response (Operation F) := do
  let panel ← resolvePanelId tm (panelParam env params)
  pure (.readText panel (((params.get "scrollback").bind Value.asBool).getD false)
    ((params.get "lines").bind Value.asU64))

def handleSurfaceClearHistory (env : V2Env F) (tm : TabManager) (params : Value F) :
    Except Response (Operation F) := do
  let panel ← resolvePanelId tm (panelParam env params)
  pure (.clearHistory panel)

/-- `pane.new` splits the selected workspace; it reads no workspace. -/
def handlePaneNew (tm : TabManager) (params : Value F) : Except Response (Operation F) := do
  let orientation := parseOrientation (strParam "orientation" params)
  let panelType : PanelType :=
    if (eitherParam "panel_type" "type" params).bind Value.asStr = some "browser" then .browser
    else .terminal
  let ws ← orElseReturn (notFound "No workspace selected") tm.selected
  pure (.split ws.id orientation panelType
    (if panelType = .browser then strParam "url" params else none))

/-- The panel of `pane.focus` and `pane.close`. -/
def paneParam (env : V2Env F) (params : Value F) : Except Response (Option Uuid) :=
  panelOrNull env ((eitherParam "panel" "surface" params).or (params.get "id")) "panel/id"
    "Invalid panel UUID format"

def handlePaneFocus (env : V2Env F) (tm : TabManager) (params : Value F) :
    Except Response (Operation F) := do
  let given ← paneParam env params
  let panel ← orElseReturn (invalidParams "Provide 'panel' or 'id'") given
  let ws ← orElseReturn (notFound "Panel not found") (tm.findWorkspaceWithPanel panel)
  pure (.focusPanel ws.id panel)

def handlePaneClose (env : V2Env F) (tm : TabManager) (params : Value F) :
    Except Response (Operation F) := do
  let given ← paneParam env params
  let panel ← resolvePanelId tm (match given with
    | some id => .given id
    | none => .absent)
  pure (.closePanel panel)

def handlePaneSwap (env : V2Env F) (tm : TabManager) (params : Value F) :
    Except Response (Operation F) := do
  let a := (eitherParam "a" "panel_a" params).bind Value.asStr
  let b := (eitherParam "b" "panel_b" params).bind Value.asStr
  match a, b with
  | some a, some b =>
      let a ← orElseReturn (invalidParams "Invalid panel UUID for 'a'") (env.parseUuid a)
      let b ← orElseReturn (invalidParams "Invalid panel UUID for 'b'") (env.parseUuid b)
      let ws ← orElseReturn (notFound "No workspace selected") tm.selected
      if a ∈ ws.panels ∧ b ∈ ws.panels then pure (.swapPanels ws.id a b)
      else .error (notFound "One or both panels not found")
  | _, _ => .error (invalidParams "Provide 'a' and 'b' panel UUIDs")

def handlePaneResize (env : V2Env F) (tm : TabManager) (params : Value F) :
    Except Response (Operation F) := do
  let amount ← orElseReturn (invalidParams "Provide 'amount' (e.g. 0.05 or -0.05)")
    (f64Param env "amount" params)
  let ws ← orElseReturn (notFound "No workspace selected") tm.selected
  let panel ← (strParam "panel" params).elim
    (orElseReturn (notFound "No focused panel") ws.focusedPanelId)
    fun s => orElseReturn (invalidParams "Invalid panel UUID") (env.parseUuid s)
  pure (.resizePanel ws.id panel amount)

def directionOf (name : String) : Option Direction :=
  [("left", Direction.left), ("right", .right), ("up", .up), ("down", .down)].lookup name

def handlePaneFocusDirection (tm : TabManager) (params : Value F) :
    Except Response (Operation F) := do
  let name ← orElseReturn (invalidParams "Provide 'direction': left, right, up, down")
    (strParam "direction" params)
  let direction ← orElseReturn (invalidParams "direction must be: left, right, up, down")
    (directionOf name)
  let ws ← orElseReturn (notFound "No workspace selected") tm.selected
  pure (.focusDirection ws.id direction)

def handlePaneBreak (env : V2Env F) (tm : TabManager) (params : Value F) :
    Except Response (Operation F) := do
  let panel ← resolvePanelId tm (panelParam env params)
  let _ ← orElseReturn (notFound "Panel not found in any workspace")
    (tm.findWorkspaceWithPanel panel)
  pure (.breakPanel panel)

/-! ## §5. The other handlers. -/

/-- The workspace that a notification is for. -/
def notificationTarget (tm : TabManager) (wsId panelId : Option Uuid) :
    Except Response Workspace :=
  match wsId with
  | some id => orElseReturn (notFound "Workspace not found") (tm.workspace id)
  | none =>
      let owner : Option Uuid := match panelId with
        | some p => (tm.findWorkspaceWithPanel p).map (·.id)
        | none => tm.selectedId
      orElseReturn (notFound "No workspace selected") (owner.bind tm.workspace)

def handleNotificationCreate (env : V2Env F) (tm : TabManager) (params : Value F) :
    Except Response (Operation F) := do
  let title := truncateStr ((strParam "title" params).getD "jmux") 1024
  let body := truncateStr ((strParam "body" params).getD "") 8192
  let wsId ← parseWorkspaceParam env params
  let panelId ← panelOrNull env (eitherParam "surface" "panel" params) "surface/panel"
    "Invalid surface/panel UUID format"
  let sendDesktop := ((params.get "send_desktop").bind Value.asBool).getD true
  let target ← notificationTarget tm wsId panelId
  pure (.notify target.id (panelId.filter (· ∈ target.panels)) title body sendDesktop)

/-- A handler of `socket/browser/` without parameters of its own. -/
def sendAction (env : V2Env F) (op : Uuid → Operation F) (params : Value F) :
    Except Response (Operation F) := do
  let panel ← requirePanelId env params
  pure (op panel)

def handleNavigate (env : V2Env F) (params : Value F) : Except Response (Operation F) := do
  let panel ← requirePanelId env params
  let url ← orElseReturn (invalidParams "Provide 'url'") (strParam "url" params)
  pure (.navigate panel url)

def handleMarkdownOpen (env : V2Env F) (tm : TabManager) (params : Value F) :
    Except Response (Operation F) := do
  let file ← orElseReturn (invalidParams "Provide 'file'") (strParam "file" params)
  let wsId ← optionalUuid env "workspace_id" params
  let orientation := (strParam "direction" params).bind fun d =>
    if d ∈ ["right", "left", "horizontal"] then some SplitOrientation.horizontal
    else if d ∈ ["down", "up", "vertical"] then some .vertical
    else none
  let ws ← workspaceOr tm wsId "Workspace not found"
  pure (.openMarkdown ws.id file orientation)

/-- `v2::dispatch`; `none` for a method that no listed command becomes. -/
def handle (env : V2Env F) (tm : TabManager) (req : V2Request F) :
    Option (Except Response (Operation F)) :=
  let p := req.params
  match req.method with
  | .systemPing => some (.ok .ping)
  | .systemCapabilities => some (.ok .capabilities)
  | .systemIdentify => some (.ok .identify)
  | .systemTree => some (.ok .tree)
  | .windowList => some (.ok .listWindows)
  | .windowCurrent => some (.ok .currentWindow)
  | .windowNew => some (.ok .createWindow)
  | .windowFocus => some (handleWindowFocus env p)
  | .windowClose => some (handleWindowClose env p)
  | .workspaceList => some (.ok .listWorkspaces)
  | .workspaceNew => some (handleWorkspaceNew p)
  | .workspaceSelect => some (handleWorkspaceSelect env p)
  | .workspaceCurrent => some (handleWorkspaceCurrent tm)
  | .workspaceNext => some (.ok (.selectNext (wrapParam p)))
  | .workspacePrevious => some (.ok (.selectPrevious (wrapParam p)))
  | .workspaceLast => some (.ok .selectLast)
  | .workspaceLatestUnread => some (.ok .selectLatestUnread)
  | .workspaceRename => some (handleWorkspaceRename env tm p)
  | .workspaceReorder => some (handleWorkspaceReorder p)
  | .workspaceAction => some (handleWorkspaceAction env tm p)
  | .workspaceMoveToWindow => some (handleWorkspaceMoveToWindow env tm p)
  | .workspaceSetStatus => some (handleWorkspaceSetStatus env tm p)
  | .workspaceClearStatus => some (handleWorkspaceClearStatus env tm p)
  | .workspaceListStatus => some (onWorkspace env tm .listStatus p)
  | .workspaceSetProgress => some (handleWorkspaceSetProgress env tm p)
  | .workspaceClearProgress => some (onWorkspace env tm (.setProgress · none) p)
  | .workspaceAppendLog => some (handleWorkspaceAppendLog env tm p)
  | .workspaceClearLog => some (onWorkspace env tm .clearLog p)
  | .workspaceListLog => some (onWorkspace env tm .listLog p)
  | .workspaceReportMeta => some (handleWorkspaceReportMeta env tm p)
  | .workspaceReportMetaBlock => some (handleWorkspaceReportMetaBlock env tm p)
  | .workspaceClearMeta =>
      some (onWorkspace env tm (.clearMetadata · (strParam "key" p)) p)
  | .workspaceClearMetaBlock =>
      some (onWorkspace env tm (.clearMetadataBlock · (strParam "key" p)) p)
  | .workspaceListMeta => some (onWorkspace env tm .listMetadata p)
  | .workspaceListMetaBlocks => some (onWorkspace env tm .listMetadataBlocks p)
  | .workspaceReportPwd => some (handleWorkspaceReportPwd env tm p)
  | .workspaceReportGitBranch => some (handleWorkspaceReportGit env tm p)
  | .workspaceReportPr => some (handleWorkspaceReportPr env tm p)
  | .workspaceReportTty => some (handleWorkspaceReportTty env tm p)
  | .workspaceReportPorts => some (handleWorkspaceReportPorts env tm p)
  | .workspacePortsKick => some (.ok .portsKick)
  -- `surface.list`, `surface.focus` and `surface.close` are the methods of panes
  | .surfaceList | .paneList => some (onWorkspace env tm .listPanels p)
  | .surfaceCurrent => some (handleSurfaceCurrent tm)
  | .surfaceFocus | .paneFocus => some (handlePaneFocus env tm p)
  | .surfaceClose => some (handlePaneClose env tm p)
  | .surfaceSendInput => some (handleSurfaceSendInput env tm p)
  | .surfaceSendKey => some (handleSurfaceSendKey env tm p)
  | .surfaceReadText => some (handleSurfaceReadText env tm p)
  | .surfaceClearHistory => some (handleSurfaceClearHistory env tm p)
  | .paneNew => some (handlePaneNew tm p)
  | .paneFocusDirection => some (handlePaneFocusDirection tm p)
  | .paneSwap => some (handlePaneSwap env tm p)
  | .paneResize => some (handlePaneResize env tm p)
  | .paneBreak => some (handlePaneBreak env tm p)
  | .paneEqualize => some (onWorkspaceOr "No workspace" env tm .equalize p)
  | .notificationCreate => some (handleNotificationCreate env tm p)
  | .notificationList =>
      some (.ok (.listNotifications (((p.get "unread").bind Value.asBool).getD false)))
  | .notificationClear => some (.ok .clearNotifications)
  | .browserNavigate => some (handleNavigate env p)
  | .browserBack => some (sendAction env .goBack p)
  | .browserForward => some (sendAction env .goForward p)
  | .browserReload => some (sendAction env .reload p)
  | .settingsOpen => some (.ok .openSettings)
  | .markdownOpen => some (handleMarkdownOpen env tm p)
  | .workspaceCreateSsh | .workspaceClose | .workspaceFocusBack | .workspaceFocusForward
  | .workspaceReopenClosed | .workspaceHibernate | .workspaceWake | .workspaceReportPrChecks
  | .workspaceReportAgentSession | .surfaceHealth | .surfaceRefresh | .paneSurfaces => none

/-! ## §6. What the readers read. -/

@[simp] theorem ok_bind {ε α β : Type} (a : α) (f : α → Except ε β) :
    (Except.ok a >>= f) = f a := rfl

@[simp] theorem error_bind {ε α β : Type} (e : ε) (f : α → Except ε β) :
    (Except.error e >>= f) = .error e := rfl

@[simp] theorem orElseReturn_some {α : Type} (error : Response) (a : α) :
    orElseReturn error (some a) = .ok a := rfl

@[simp] theorem orElseReturn_none {α : Type} (error : Response) :
    orElseReturn error (none : Option α) = .error error := rfl

theorem bind_eq_ok {ε α β : Type} {x : Except ε α} {f : α → Except ε β} {b : β} :
    (x >>= f) = .ok b ↔ ∃ a, x = .ok a ∧ f a = .ok b := by
  cases x with
  | error e => simp
  | ok a => simp

theorem bind_eq_error {ε α β : Type} {x : Except ε α} {f : α → Except ε β} {e : ε} :
    (x >>= f) = .error e ↔ x = .error e ∨ ∃ a, x = .ok a ∧ f a = .error e := by
  cases x with
  | error e => simp
  | ok a => simp

theorem orElseReturn_eq_ok {α : Type} {error : Response} {o : Option α} {a : α} :
    orElseReturn error o = .ok a ↔ o = some a := by
  cases o with
  | none => simp
  | some b => simp

theorem orElseReturn_eq_error {α : Type} {error resp : Response} {o : Option α}
    (h : orElseReturn error o = .error resp) : resp = error := by
  cases o with
  | none => exact (Except.error.inj h).symm
  | some a => cases h

/-- A text within the limit is taken as it is. -/
theorem truncateStr_self {s : String} {n : Nat} (h : s.utf8ByteSize ≤ n) : truncateStr s n = s :=
  if_pos h

/-- A text that may be missing, and the id that it is. -/
def Parses (env : V2Env F) (text : Option String) (id : Option Uuid) : Prop :=
  text.map env.parseUuid = id.map some

theorem parses_none {env : V2Env F} {id : Option Uuid} (h : Parses env none id) : id = none := by
  cases id with
  | none => rfl
  | some id => cases h

theorem parses_some {env : V2Env F} {s : String} {id : Option Uuid} (h : Parses env (some s) id) :
    ∃ u, id = some u ∧ env.parseUuid s = some u := by
  cases id with
  | none => cases h
  | some u => exact ⟨u, rfl, Option.some.inj h⟩

theorem parses_bind {env : V2Env F} {text : Option String} {id : Option Uuid}
    (h : Parses env text id) : text.bind env.parseUuid = id := by
  cases text with
  | none => exact (parses_none h).symm
  | some s =>
      obtain ⟨u, rfl, hu⟩ := parses_some h
      exact hu

/-- A workspace that is given as text. -/
theorem parseWorkspaceParam_eq {env : V2Env F} {params : Value F} {tab : Option String}
    {id : Option Uuid} (hparses : Parses env tab id)
    (hget : eitherParam "workspace" "workspace_id" params = tab.map .str) :
    parseWorkspaceParam env params = .ok id := by
  unfold parseWorkspaceParam
  rw [hget]
  cases tab with
  | none => rw [parses_none hparses]; rfl
  | some t =>
      obtain ⟨u, rfl, hu⟩ := parses_some hparses
      show (match (some t).bind env.parseUuid with
        | some id => Except.ok (some id)
        | none => _) = _
      rw [Option.bind_some, hu]

/-- A panel that is given as text. -/
theorem panelParam_eq {env : V2Env F} {params : Value F} {panel : Option String}
    {id : Option Uuid} (hparses : Parses env panel id)
    (hget : eitherParam "panel" "surface" params = panel.map .str) :
    panelParam env params = id.elim .absent .given := by
  unfold panelParam
  rw [hget]
  cases panel with
  | none => rw [parses_none hparses]; rfl
  | some s =>
      obtain ⟨u, rfl, hu⟩ := parses_some hparses
      show (match env.parseUuid s with
        | some id => UuidParam.given id
        | none => .malformed) = _
      rw [hu]
      rfl

theorem lenientPanel_eq {env : V2Env F} {params : Value F} {panel : Option String}
    {id : Option Uuid} (hparses : Parses env panel id)
    (hget : eitherParam "panel" "surface" params = panel.map .str) :
    lenientPanel env params = id := by
  unfold lenientPanel
  rw [hget, Value.bind_asStr_map_str, parses_bind hparses]

theorem panelOrNull_eq {env : V2Env F} {panel : Option String} {id : Option Uuid}
    (hparses : Parses env panel id) {v : Option (Value F)} (hv : v = panel.map .str)
    (subject format : String) : panelOrNull env v subject format = .ok id := by
  subst hv
  unfold panelOrNull
  cases panel with
  | none => rw [parses_none hparses]; rfl
  | some s =>
      obtain ⟨u, rfl, hu⟩ := parses_some hparses
      show (match env.parseUuid s with
        | some id => Except.ok (some id)
        | none => _) = _
      rw [hu]

end Jmux.Socket
