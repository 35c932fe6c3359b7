/-
  Jmux.Socket.Pane — the pane requests (`socket/v2/pane.rs`).
-/
import Jmux.Socket.Request

namespace Jmux.Socket

open Jmux.Model

/-! ## §1. `pane.swap`. -/

/-- The body of `pane.swap`, the one caller of `LayoutNode::swap_panels`. -/
def paneSwap (ws : Workspace) (a b : Uuid) : Workspace × Response :=
  if a ∉ ws.panels ∨ b ∉ ws.panels then
    (ws, .error "not_found" "One or both panels not found")
  else
    let swapped := ws.layout.swapPanels a b
    ({ ws with layout := swapped.1 },
      if swapped.2 then .success [("swapped", .bool true)]
      else .error "not_found" "Panels not found in layout")

/-! ## §2. `pane.join`. -/

structure PaneJoinParams where
  panel       : UuidParam
  orientation : Option String

/-- The panel comes into the selected workspace. -/
def handlePaneJoin (now : Nat) (params : PaneJoinParams) (tm : TabManager) :
    TabManager × Response :=
  match params.panel with
  | .absent => (tm, .error "invalid_params" "Provide 'panel' UUID to join")
  | .malformed => (tm, .error "invalid_params" "Invalid panel UUID")
  | .given panelId =>
      match tm.selectedId with
      | none => (tm, .error "not_found" "No workspace selected")
      | some selectedWsId =>
          match tm.findWorkspaceWithPanel panelId with
          | none => (tm, .error "not_found" "Panel not found in any workspace")
          | some source =>
              if source.id = selectedWsId then
                (tm, .error "invalid_params" "Panel is already in the target workspace")
              else
                match tm.workspace source.id with
                | none => (tm, .panicked)
                | some _ =>
                    match tm.detachFrom source.id panelId with
                    | none => (tm, .error "not_found" "Panel not found")
                    | some (panel, tm) =>
                        let tm := tm.dropIfEmpty now source.id
                        match tm.workspace selectedWsId with
                        | none => (tm, .panicked)
                        | some target =>
                            (tm.setWorkspace selectedWsId
                                (target.insertPanel panel (parseOrientation params.orientation)),
                              .success [("panel_id", .uuid panelId),
                                ("workspace_id", .uuid selectedWsId), ("joined", .bool true)])

/-! ## §3. `panel.move_to_workspace`. -/

structure MoveToWorkspaceParams where
  panel     : UuidParam
  workspace : UuidParam

/-- `seen` is the tab manager under the first lock, `tm` under the second. -/
def handlePanelMoveToWorkspace (now : Nat) (params : MoveToWorkspaceParams)
    (seen tm : TabManager) : TabManager × Response :=
  match resolvePanelId seen params.panel with
  | .error resp => (tm, resp)
  | .ok panelId =>
      match params.workspace with
      | .absent => (tm, .error "invalid_params" "Provide 'workspace' UUID")
      | .malformed => (tm, .error "invalid_params" "Invalid workspace UUID")
      | .given targetWsId =>
          match tm.workspace targetWsId with
          | none => (tm, .error "not_found" "Target workspace not found")
          | some _ =>
              match tm.movePanelToWorkspace now panelId targetWsId with
              | (tm, some wid) =>
                  (tm, .success [("panel_id", .uuid panelId), ("workspace_id", .uuid wid),
                    ("moved", .bool true)])
              | (tm, none) =>
                  (tm, .error "invalid_params"
                    "Cannot move panel (already in target or not found)")

/-! ## §4. `pane.break`. -/

/-- The new workspace: the default panel of `Workspace::new()` makes room for the
panel that was detached. -/
def brokenOut (draw : Uuid × Uuid) (home directory : String) (panelId : Uuid) (panel : Panel) :
    Workspace :=
  let ws := Workspace.new draw.1 draw.2 home
  { ws with
    panels           := (ws.panels.erase draw.2).insert panelId panel
    currentDirectory := directory
    layout           := .singlePane panelId
    focusedPanelId   := some panelId }

/-- `draw` are the ids of the new workspace and of its default panel. -/
def paneBreak (now : Nat) (home : String) (draw : Uuid × Uuid) (panel : UuidParam)
    (seen tm : TabManager) : TabManager × Response :=
  match resolvePanelId seen panel with
  | .error resp => (tm, resp)
  | .ok panelId =>
      match tm.findWorkspaceWithPanel panelId with
      | none => (tm, .error "not_found" "Panel not found in any workspace")
      | some source =>
          if source.panels.keys.length ≤ 1 then
            (tm, .error "invalid_params" "Cannot break the only panel in a workspace")
          else
            match source.detachPanel panelId with
            | none => (tm, .error "not_found" "Panel not found")
            | some (panel, source') =>
                let tm :=
                  { tm with
                    workspaces := tm.workspaces.modifyFirst (panelId ∈ ·.panels) fun _ => source' }
                let tm := tm.dropIfEmpty now source.id
                (tm.addWorkspace (brokenOut draw home source.currentDirectory panelId panel),
                  .success [("panel_id", .uuid panelId), ("workspace_id", .uuid draw.1)])

end Jmux.Socket
