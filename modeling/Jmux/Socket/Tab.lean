/-
  Jmux.Socket.Tab — `tab.action` (`socket/v2/tab.rs`).
-/
import Jmux.Socket.Request

namespace Jmux.Socket

open Jmux.Model

def maxTitleLen : Nat := 1024

inductive TabAction
  | rename
  | clearName
  | closeLeft
  | closeRight
  | closeOthers
  | pin
  | unpin
  | markRead
  | markUnread
  | duplicate
  deriving DecidableEq, Repr

def TabAction.parse : String → Option TabAction
  | "rename" => some .rename
  | "clear_name" => some .clearName
  | "close_left" => some .closeLeft
  | "close_right" => some .closeRight
  | "close_others" => some .closeOthers
  | "pin" => some .pin
  | "unpin" => some .unpin
  | "mark_read" => some .markRead
  | "mark_unread" => some .markUnread
  | "duplicate" => some .duplicate
  | _ => none

/-- `ws.panels.get_mut(&panel_id)` and an assignment. -/
def editPanel (ws : Workspace) (panelId : Uuid) (f : Panel → Panel) : Workspace :=
  { ws with panels := ws.panels.modify panelId f }

/-- One round of the closing loop.  The closed panels are not recorded for
reopening. -/
def closeTab (ws : Workspace) (pid : Uuid) : Workspace :=
  { ws with
    panels := ws.panels.erase pid
    layout := (ws.layout.removePanel pid).getD ws.layout }

/-- Close the tabs; a focus on one of them goes to the panel of the request. -/
def closeTabs (ws : Workspace) (panelId : Uuid) (toClose : List Uuid) : Workspace :=
  let ws := toClose.foldl closeTab ws
  match ws.focusedPanelId with
  | some focused => if focused ∈ toClose then { ws with focusedPanelId := some panelId } else ws
  | none => ws

/-- The body of the `close_*` actions; `select` picks the tabs of the pane. -/
def closeInPane (ws : Workspace) (panelId : Uuid) (select : Nat → List Uuid → List Uuid) :
    Workspace × Response :=
  match ws.layout.findPaneWithPanelReadonly panelId with
  | none => (ws, .error "not_found" "Panel not in any pane")
  | some paneIds =>
      let toClose := select ((paneIds.idxOf? panelId).getD 0) paneIds
      (closeTabs ws panelId toClose, .success [("closed", .int toClose.length)])

/-- A new terminal as a tab after the panel. -/
def duplicateTab (ws : Workspace) (panelId newId : Uuid) : Workspace :=
  { ws with
    panels := ws.panels.insert newId (.newTerminal newId)
    layout := (ws.layout.addPanelToPane panelId newId).getD ws.layout }
  |>.shiftFocus newId

def okResponse : Response := .success [("ok", .bool true)]

/-- The action on the workspace that holds the panel. -/
def tabAction (ws : Workspace) (panelId : Uuid) (title : Option String) (newId : Uuid) :
    TabAction → Workspace × Response
  | .rename =>
      match title with
      | none => (ws, .error "invalid_params" "rename requires 'title'")
      | some title =>
          (editPanel ws panelId fun panel =>
              { panel with customTitle := some (truncateStr title maxTitleLen) }, okResponse)
  | .clearName => (editPanel ws panelId fun panel => { panel with customTitle := none }, okResponse)
  | .closeLeft => closeInPane ws panelId fun pos paneIds => paneIds.take pos
  | .closeRight => closeInPane ws panelId fun pos paneIds => paneIds.drop (pos + 1)
  | .closeOthers => closeInPane ws panelId fun _ paneIds => paneIds.filter (· ≠ panelId)
  | .pin => (editPanel ws panelId fun panel => { panel with isPinned := true }, okResponse)
  | .unpin => (editPanel ws panelId fun panel => { panel with isPinned := false }, okResponse)
  | .markRead =>
      (editPanel ws panelId fun panel => { panel with isManuallyUnread := false }, okResponse)
  | .markUnread =>
      (editPanel ws panelId fun panel => { panel with isManuallyUnread := true }, okResponse)
  | .duplicate =>
      (duplicateTab ws panelId newId,
        .success [("panel_id", .uuid newId), ("duplicated", .bool true)])

structure TabActionParams where
  panel  : UuidParam
  action : Option String
  title  : Option String

/-- A close that empties the workspace removes it. -/
def dropClosed (now : Nat) (tm : TabManager) (ws : Workspace) : TabAction → TabManager
  | .closeLeft | .closeRight | .closeOthers =>
      if ws.isEmpty then ((tm.removeById now ws.id).map (·.2)).getD tm else tm
  | _ => tm

/-- `seen` is the tab manager under the first lock, `tm` under the second. -/
def handleTabAction (now : Nat) (params : TabActionParams) (newId : Uuid) (seen tm : TabManager) :
    TabManager × Response :=
  match resolvePanelId seen params.panel with
  | .error resp => (tm, resp)
  | .ok panelId =>
      match params.action with
      | none => (tm, .error "invalid_params" "Provide 'action'")
      | some action =>
          match tm.findWorkspaceWithPanel panelId with
          | none => (tm, .error "not_found" "Panel not found in any workspace")
          | some ws =>
              match TabAction.parse action with
              | none =>
                  (tm, .error "invalid_params"
                    "Unknown action. Use: rename, clear_name, close_left, close_right, close_others, pin, unpin, mark_read, mark_unread, duplicate")
              | some action =>
                  let (ws, resp) := tabAction ws panelId params.title newId action
                  let tm :=
                    { tm with
                      workspaces := tm.workspaces.modifyFirst (panelId ∈ ·.panels) fun _ => ws }
                  (dropClosed now tm ws action, resp)

end Jmux.Socket
