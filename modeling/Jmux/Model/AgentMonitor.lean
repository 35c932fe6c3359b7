/-
  Jmux.Model.AgentMonitor — the subagent monitor's sync (`agent_monitor.rs`).

  The sync walks hash maps, whose iteration order the program does not control:
  `HashOrder` is any such order.  What `discover_subagents` finds on disk is an
  input, each entry with the id that a new pane for it would draw.
-/
import Jmux.Model.Workspace

namespace Jmux.Model

/-- An order in which a hash map's iterators yield its entries. -/
structure HashOrder where
  iter : Panels → List (Sigma fun _ : Uuid => Panel)
  perm : ∀ m, (iter m).Perm m.entries

theorem HashOrder.perm_entries (panels : Panels) : panels.entries.Perm panels.entries := .refl _

theorem HashOrder.mem_iter (order : HashOrder) (panels : Panels) (id : Uuid) (panel : Panel) :
    ⟨id, panel⟩ ∈ order.iter panels ↔ panels.lookup id = some panel := by
  rw [(order.perm panels).mem_iff, AList.mem_entries_iff_lookup]

/-- One live subagent discovered on disk. -/
structure Subagent where
  transcript : String
  title      : String
  deriving DecidableEq, Repr

/-- The panel is the monitor pane of this subagent. -/
def Subagent.hasPane (agent : Subagent) (panel : Panel) : Bool :=
  panel.panelType = .agentMonitor ∧ panel.markdownFile = some agent.transcript

namespace Workspace

/-- The monitor panes whose subagent is gone. -/
def stalePanes (ws : Workspace) (order : HashOrder) (desired : List (Subagent × Uuid)) :
    List Uuid :=
  ((order.iter ws.panels).filter fun e =>
    e.2.panelType = .agentMonitor ∧ ¬ desired.any (·.1.hasPane e.2)).map (·.1)

/-- One round of the loop over the stale panes. -/
def closeStale (ws : Workspace) (id : Uuid) : Workspace :=
  let layout := (ws.layout.removePanel id).getD ws.layout
  let cleared (ref : Option Uuid) : Option Uuid := if ref = some id then none else ref
  { ws with
    layout
    panels := ws.panels.erase id
    focusedPanelId :=
      if ws.focusedPanelId = some id then layout.allPanelIds.head? else ws.focusedPanelId
    previousFocusedPanelId := cleared ws.previousFocusedPanelId
    attentionPanelId       := cleared ws.attentionPanelId
    zoomedPanelId          := cleared ws.zoomedPanelId }

def isNonMonitor (ws : Workspace) (id : Uuid) : Bool :=
  (ws.panels.lookup id).any (·.panelType ≠ .agentMonitor)

/-- The previous monitor pane, else the focused panel or else the first one
that is no monitor. -/
def monitorAnchor (ws : Workspace) (prevMonitor : Option Uuid) : Option Uuid :=
  (prevMonitor.or (ws.focusedPanelId.filter ws.isNonMonitor)).or
    (ws.layout.allPanelIds.find? ws.isNonMonitor)

/-- Right and down in turn. -/
def tiling (monitorCount : Nat) : SplitOrientation × Direction :=
  if monitorCount % 2 = 0 then (.horizontal, .right) else (.vertical, .down)

/-- The loop over the discovered subagents. -/
def addMonitors (order : HashOrder) : List (Subagent × Uuid) → Option Uuid → Nat → Bool →
    Workspace → Workspace × Bool
  | [], _, _, changed, ws => (ws, changed)
  | (agent, newId) :: rest, prevMonitor, count, changed, ws =>
      match (order.iter ws.panels).find? (agent.hasPane ·.2) with
      | some existing => addMonitors order rest (some existing.2.id) count changed ws
      | none =>
          match ws.monitorAnchor prevMonitor with
          | none => (ws, changed)
          | some anchor =>
              let panels := ws.panels.insert newId (.newAgentMonitor newId agent.transcript agent.title)
              match ws.layout.splitPaneWithPanel anchor newId (tiling count).1 (tiling count).2 with
              | some layout =>
                  addMonitors order rest (some newId) (count + 1) true { ws with panels, layout }
              | none =>
                  -- the anchor has no pane: the new panel is dropped again
                  addMonitors order rest prevMonitor count changed
                    { ws with panels := panels.erase newId }

/-- Reconcile the monitor panes with the subagents; whether anything changed. -/
def syncWorkspace (order : HashOrder) (discovered : List (Subagent × Uuid)) (ws : Workspace) :
    Workspace × Bool :=
  let desired := if ws.subagentMonitor then discovered else []
  let stale := ws.stalePanes order desired
  let ws := stale.foldl closeStale ws
  let monitorCount := (ws.panels.vals.filter (·.panelType = .agentMonitor)).length
  addMonitors order desired none monitorCount (!stale.isEmpty) ws

end Workspace

end Jmux.Model
