/-
  Jmux.Socket.Surface — the surface requests (`socket/v2/surface.rs`).
-/
import Jmux.Socket.Request

namespace Jmux.Socket

open Jmux.Model

/-! ## §1. `surface.create`. -/

/-- A browser with its address, or a terminal. -/
def createdPanel (panelType url : Option String) (newId : Uuid) : Panel :=
  if panelType = some "browser" then { Panel.newBrowser newId with browserUrl := url }
  else .newTerminal newId

/-- A tab in the focused pane; where there is none the layout is replaced. -/
def surfaceCreate (ws : Workspace) (panelType url : Option String) (newId : Uuid) : Workspace :=
  let added := ws.focusedPanelId.bind fun focusedId => ws.layout.addPanelToPane focusedId newId
  { ws with
    panels := ws.panels.insert newId (createdPanel panelType url newId)
    layout := added.getD (.singlePane newId) }
  |>.shiftFocus newId

def handleSurfaceCreate (panelType url : Option String) (newId : Uuid) (tm : TabManager) :
    TabManager × Response :=
  match tm.selectedIndex.bind fun i => tm.workspaces[i]?.map fun ws => (i, ws) with
  | none => (tm, .error "not_found" "No workspace selected")
  | some (i, ws) =>
      ({ tm with workspaces := tm.workspaces.set i (surfaceCreate ws panelType url newId) },
        .success [("panel_id", .uuid newId), ("created", .bool true)])

/-! ## §2. `surface.move`. -/

structure SurfaceMoveParams where
  panel       : UuidParam
  workspace   : UuidParam
  orientation : Option String

/-- Everything after `resolve_panel_id`.  The panel is detached before the
target workspace is looked up. -/
def surfaceMove (now : Nat) (panelId : Uuid) (params : SurfaceMoveParams) (tm : TabManager) :
    TabManager × Response :=
  match params.workspace with
  | .absent => (tm, .error "invalid_params" "Provide 'workspace' target UUID")
  | .malformed => (tm, .error "invalid_params" "Invalid workspace UUID")
  | .given targetWsId =>
      match tm.findWorkspaceWithPanel panelId with
      | none => (tm, .error "not_found" "Panel not found in any workspace")
      | some source =>
          if source.id = targetWsId then
            (tm, .error "invalid_params" "Panel is already in the target workspace")
          else
            match tm.workspace source.id with
            | none => (tm, .panicked)
            | some _ =>
                match tm.detachFrom source.id panelId with
                | none => (tm, .error "not_found" "Panel not found")
                | some (panel, tm) =>
                    let tm := tm.dropIfEmpty now source.id
                    match tm.workspace targetWsId with
                    | none => (tm, .error "not_found" "Target workspace not found")
                    | some target =>
                        (tm.setWorkspace targetWsId
                            (target.insertPanel panel (parseOrientation params.orientation)),
                          .success [("panel_id", .uuid panelId),
                            ("workspace_id", .uuid targetWsId), ("moved", .bool true)])

/-- `seen` is the tab manager under the first lock, `tm` under the second. -/
def handleSurfaceMove (now : Nat) (params : SurfaceMoveParams) (seen tm : TabManager) :
    TabManager × Response :=
  match resolvePanelId seen params.panel with
  | .error resp => (tm, resp)
  | .ok panelId => surfaceMove now panelId params tm

end Jmux.Socket
