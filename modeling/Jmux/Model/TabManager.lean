/-
  Jmux.Model.TabManager — the workspaces and the selected one (`model/tab_manager.rs`).

  `now` stands for `SystemTime::now()`.
-/
import Jmux.Model.Workspace
import Jmux.Lib.FirstMatch
import Jmux.Lib.Cursor

namespace Jmux.Model

open Jmux.Lib

structure WorkspaceGroup where
  id        : Uuid
  name      : String
  color     : Option String := none
  collapsed : Bool := false
  windowId  : Option Uuid := none
  deriving DecidableEq

/-- A recently-closed workspace. -/
structure ClosedEntry where
  workspace : Workspace
  closedAt  : Nat
  title     : String
  deriving DecidableEq

structure TabManager where
  workspaces    : List Workspace
  selectedIndex : Option Nat
  groups        : List WorkspaceGroup := []
  focusHistory  : List Uuid := []
  focusPos      : Nat := 0
  closedStack   : List ClosedEntry := []
  deriving DecidableEq

/-- Maximum number of recently-closed workspaces retained for reopen. -/
def closedStackCap : Nat := 10

/-- Where a new workspace goes (`NewWorkspacePlacement` of the settings). -/
inductive NewWorkspacePlacement
  | atEnd
  | afterCurrent
  | top
  deriving DecidableEq

namespace TabManager

def empty : TabManager where
  workspaces    := []
  selectedIndex := none

/-- One default workspace. -/
def new (id panelId : Uuid) (home : String) : TabManager where
  workspaces    := [.new id panelId home]
  selectedIndex := some 0

def selected (tm : TabManager) : Option Workspace :=
  tm.selectedIndex.bind fun i => tm.workspaces[i]?

def selectedId (tm : TabManager) : Option Uuid := tm.selected.map (·.id)

def workspace (tm : TabManager) (id : Uuid) : Option Workspace :=
  tm.workspaces.find? (·.id = id)

/-- What a caller writes through `workspace_mut`. -/
def setWorkspace (tm : TabManager) (id : Uuid) (ws : Workspace) : TabManager :=
  { tm with workspaces := tm.workspaces.modifyFirst (·.id = id) fun _ => ws }

def findWorkspaceWithPanel (tm : TabManager) (panelId : Uuid) : Option Workspace :=
  tm.workspaces.find? (panelId ∈ ·.panels)

/-- Most recent last, the oldest dropped beyond the cap. -/
def recordClosed (closed : List ClosedEntry) (entry : ClosedEntry) : List ClosedEntry :=
  let closed := closed ++ [entry]
  if closed.length > closedStackCap then closed.drop (closed.length - closedStackCap) else closed

/-- The selection after the workspace at `index` is gone and `left` are left. -/
def selectionAfterRemove (selected : Option Nat) (index left : Nat) : Option Nat :=
  if left = 0 then none
  else
    selected.map fun sel =>
      -- clamped first: a selection that falls off the end is not shifted as well
      if sel ≥ left then left - 1 else if sel > index then sel - 1 else sel

/-- An empty workspace is not recorded for reopening. -/
def remove (tm : TabManager) (now : Nat) (index : Nat) : Option (Workspace × TabManager) :=
  match tm.workspaces[index]? with
  | none => none
  | some ws =>
      let workspaces := tm.workspaces.eraseIdx index
      some (ws,
        { tm with
          workspaces
          closedStack :=
            if ws.isEmpty then tm.closedStack
            else recordClosed tm.closedStack
              { workspace := ws, closedAt := now, title := ws.displayTitle }
          selectedIndex := selectionAfterRemove tm.selectedIndex index workspaces.length })

def removeById (tm : TabManager) (now : Nat) (id : Uuid) : Option (Workspace × TabManager) :=
  (tm.workspaces.findIdx? (·.id = id)).bind (tm.remove now)

/-! ## Moving a panel to another workspace. -/

/-- `workspace_mut(id)?.detach_panel(panel_id)?` -/
def detachFrom (tm : TabManager) (wsId panelId : Uuid) : Option (Panel × TabManager) :=
  (tm.workspace wsId).bind fun ws =>
    (ws.detachPanel panelId).map fun detached => (detached.1, tm.setWorkspace wsId detached.2)

/-- A workspace that lost its last panel is removed. -/
def dropIfEmpty (tm : TabManager) (now : Nat) (wsId : Uuid) : TabManager :=
  if (tm.workspace wsId).any (·.isEmpty) then
    ((tm.removeById now wsId).map (·.2)).getD tm
  else tm

/-- The target is checked before the panel leaves its workspace. -/
def movePanelToWorkspace (tm : TabManager) (now : Nat) (panelId targetWorkspaceId : Uuid) :
    TabManager × Option Uuid :=
  match tm.findWorkspaceWithPanel panelId with
  | none => (tm, none)
  | some source =>
      if source.id = targetWorkspaceId then (tm, none)
      else
        match tm.workspace targetWorkspaceId with
        | none => (tm, none)
        | some _ =>
            match tm.detachFrom source.id panelId with
            | none => (tm, none)
            | some (panel, tm) =>
                -- removing the source may shift the list, so the target is looked up again
                let tm := tm.dropIfEmpty now source.id
                match tm.workspace targetWorkspaceId with
                | none => (tm, none)
                | some target =>
                    (tm.setWorkspace targetWorkspaceId (target.insertPanel panel .horizontal),
                      some targetWorkspaceId)

/-! ## Workspaces that come. -/

def addWorkspace (tm : TabManager) (workspace : Workspace) : TabManager :=
  let workspaces := tm.workspaces ++ [workspace]
  { tm with workspaces, selectedIndex := some (workspaces.length - 1) }

/-- The new workspace is selected. -/
def addWorkspaceWithPlacement (tm : TabManager) (workspace : Workspace)
    (placement : NewWorkspacePlacement) : TabManager :=
  match placement with
  | .atEnd => tm.addWorkspace workspace
  | .afterCurrent =>
      let insertAt := (tm.selectedIndex.map (· + 1)).getD 0
      { tm with
        workspaces    := tm.workspaces.insertIdx insertAt workspace
        selectedIndex := some insertAt }
  | .top => { tm with workspaces := workspace :: tm.workspaces, selectedIndex := some 0 }

/-- The same workspace stays selected: the selection follows it, not its slot. -/
def addWorkspaceKeepSelection (tm : TabManager) (workspace : Workspace)
    (placement : NewWorkspacePlacement) : TabManager :=
  let insertAt :=
    match placement with
    | .atEnd => tm.workspaces.length
    | .top => 0
    | .afterCurrent => (tm.selectedIndex.map (· + 1)).getD tm.workspaces.length
  { tm with
    workspaces    := tm.workspaces.insertIdx insertAt workspace
    selectedIndex := tm.selectedIndex.map fun sel => if insertAt ≤ sel then sel + 1 else sel }

/-- A workspace that is live already is not added again. -/
def addUnlessLive (tm : TabManager) (workspace : Workspace) : TabManager :=
  if (tm.workspace workspace.id).isSome then tm else tm.addWorkspace workspace

def reopenLastClosed (tm : TabManager) : TabManager × Option Uuid :=
  match tm.closedStack.getLast? with
  | none => (tm, none)
  | some entry =>
      ({ tm with closedStack := tm.closedStack.dropLast }.addUnlessLive entry.workspace,
        some entry.workspace.id)

def reopenClosed (tm : TabManager) (workspaceId : Uuid) : TabManager × Option Uuid :=
  match tm.closedStack.findIdx? (·.workspace.id = workspaceId) with
  | none => (tm, none)
  | some pos =>
      match tm.closedStack[pos]? with
      | none => (tm, none)
      | some entry =>
          ({ tm with closedStack := tm.closedStack.eraseIdx pos }.addUnlessLive entry.workspace,
            some entry.workspace.id)

def setClosedEntries (tm : TabManager) (entries : List ClosedEntry) : TabManager :=
  { tm with closedStack := entries.drop (entries.length - closedStackCap) }

/-! ## Workspaces that go. -/

def workspaceIndex (tm : TabManager) (id : Uuid) : Option Nat :=
  tm.workspaces.findIdx? (·.id = id)

/-- Closing the last tab closes the workspace. -/
def closePanel (tm : TabManager) (now : Nat) (panelId : Uuid) : TabManager × Bool :=
  match tm.findWorkspaceWithPanel panelId with
  | none => (tm, false)
  | some ws =>
      let (edited, removed) := ws.removePanel panelId
      let tm := { tm with
        workspaces := tm.workspaces.modifyFirst (panelId ∈ ·.panels) fun _ => edited }
      (if removed ∧ edited.isEmpty then ((tm.removeById now edited.id).map (·.2)).getD tm else tm,
        removed)

/-- All non-pinned workspaces but the given one; with the number closed. -/
def closeOthers (tm : TabManager) (keepId : Uuid) : TabManager × Nat :=
  let toRemove := positions (fun ws => ws.id ≠ keepId ∧ ¬ ws.isPinned) tm.workspaces 0
  let workspaces := eraseAll tm.workspaces toRemove
  ({ tm with
      workspaces
      selectedIndex :=
        match workspaces.findIdx? (·.id = keepId) with
        | some newIdx => some newIdx
        -- no workspace has the id to keep
        | none => if workspaces.isEmpty then none else some 0 }, toRemove.length)

/-- All non-pinned workspaces above the given one. -/
def closeAbove (tm : TabManager) (workspaceId : Uuid) : TabManager × Nat :=
  match tm.workspaceIndex workspaceId with
  | none => (tm, 0)
  | some targetIdx =>
      let toRemove := positions (fun ws => ¬ ws.isPinned) (tm.workspaces.take targetIdx) 0
      let workspaces := eraseAll tm.workspaces toRemove
      ({ tm with
          workspaces
          selectedIndex :=
            match workspaces.findIdx? (·.id = workspaceId) with
            | some newIdx => some newIdx
            | none => tm.selectedIndex }, toRemove.length)

/-- All non-pinned workspaces below the given one. -/
def closeBelow (tm : TabManager) (workspaceId : Uuid) : TabManager × Nat :=
  match tm.workspaceIndex workspaceId with
  | none => (tm, 0)
  | some targetIdx =>
      let toRemove :=
        positions (fun ws => ¬ ws.isPinned) (tm.workspaces.drop (targetIdx + 1)) (targetIdx + 1)
      let workspaces := eraseAll tm.workspaces toRemove
      ({ tm with
          workspaces
          -- clamped only: what goes above the selected workspace is not counted
          selectedIndex := tm.selectedIndex.map fun sel =>
            if sel ≥ workspaces.length then workspaces.length - 1 else sel }, toRemove.length)

/-! ## Workspaces that move. -/

def moveWorkspace (tm : TabManager) (fromIdx toIdx : Nat) : TabManager × Bool :=
  match tm.workspaces[fromIdx]? with
  | none => (tm, false)
  | some ws =>
      -- a move to its own place succeeds and changes nothing
      if toIdx ≥ tm.workspaces.length ∨ fromIdx = toIdx then (tm, decide (fromIdx = toIdx))
      else
        ({ tm with
            workspaces    := (tm.workspaces.eraseIdx fromIdx).insertIdx toIdx ws
            selectedIndex := tm.selectedIndex.map (movedIndex fromIdx toIdx) }, true)

/-! ## Selecting. -/

def select (tm : TabManager) (index : Nat) : TabManager × Bool :=
  if index < tm.workspaces.length then ({ tm with selectedIndex := some index }, true)
  else (tm, false)

def selectById (tm : TabManager) (id : Uuid) : TabManager × Bool :=
  match tm.workspaceIndex id with
  | some index => ({ tm with selectedIndex := some index }, true)
  | none => (tm, false)

def selectNext (tm : TabManager) (wrap : Bool) : TabManager :=
  if tm.workspaces.isEmpty then tm
  else
    match tm.selectedIndex with
    | none => { tm with selectedIndex := some 0 }
    | some i =>
        if i + 1 < tm.workspaces.length then { tm with selectedIndex := some (i + 1) }
        else if wrap then { tm with selectedIndex := some 0 }
        else tm

def selectPrevious (tm : TabManager) (wrap : Bool) : TabManager :=
  if tm.workspaces.isEmpty then tm
  else
    match tm.selectedIndex with
    | none => { tm with selectedIndex := some (tm.workspaces.length - 1) }
    | some 0 =>
        if wrap then { tm with selectedIndex := some (tm.workspaces.length - 1) } else tm
    | some (i + 1) => { tm with selectedIndex := some i }

def selectLast (tm : TabManager) : TabManager :=
  if tm.workspaces.isEmpty then tm
  else { tm with selectedIndex := some (tm.workspaces.length - 1) }

/-- The loop of `focus_back`: entries whose workspace is gone are skipped. -/
def focusBackFrom (tm : TabManager) : Nat → TabManager × Option Uuid
  | 0 => ({ tm with focusPos := 0 }, none)
  | pos + 1 =>
      match tm.focusHistory[pos]? with
      | none => tm.focusBackFrom pos
      | some id =>
          match tm.selectById id with
          | (tm', true) => ({ tm' with focusPos := pos }, some id)
          | (_, false) => tm.focusBackFrom pos

def focusBack (tm : TabManager) : TabManager × Option Uuid := tm.focusBackFrom tm.focusPos

/-- The loop of `focus_forward`, with the number of entries ahead of `pos`. -/
def focusForwardFrom (tm : TabManager) : Nat → Nat → TabManager × Option Uuid
  | 0, pos => ({ tm with focusPos := pos }, none)
  | ahead + 1, pos =>
      match tm.focusHistory[pos + 1]? with
      | none => tm.focusForwardFrom ahead (pos + 1)
      | some id =>
          match tm.selectById id with
          | (tm', true) => ({ tm' with focusPos := pos + 1 }, some id)
          | (_, false) => tm.focusForwardFrom ahead (pos + 1)

def focusForward (tm : TabManager) : TabManager × Option Uuid :=
  tm.focusForwardFrom (tm.focusHistory.length - (tm.focusPos + 1)) tm.focusPos

/-! ## Groups. -/

def group (tm : TabManager) (id : Uuid) : Option WorkspaceGroup := tm.groups.find? (·.id = id)

def setGroups (tm : TabManager) (groups : List WorkspaceGroup) : TabManager := { tm with groups }

def createGroup (tm : TabManager) (id : Uuid) (name : String) (windowId : Option Uuid) :
    TabManager :=
  { tm with groups := tm.groups ++ [{ id, name, windowId }] }

/-- The members are ungrouped. -/
def removeGroup (tm : TabManager) (id : Uuid) : TabManager × Bool :=
  let groups := tm.groups.filter (·.id ≠ id)
  if groups.length = tm.groups.length then (tm, false)
  else
    ({ tm with
        groups
        -- entries of the closed stack keep their group id
        workspaces := tm.workspaces.map fun ws =>
          if ws.groupId = some id then { ws with groupId := none } else ws }, true)

/-- The workspace moves next to the last other member of its new group. -/
def assignToGroup (tm : TabManager) (workspaceId : Uuid) (groupId : Option Uuid) :
    TabManager × Bool :=
  if groupId.any fun gid => (tm.group gid).isNone then (tm, false)
  else
    match tm.workspaceIndex workspaceId with
    | none => (tm, false)
    | some idx =>
        let tm := { tm with workspaces := tm.workspaces.modify idx fun ws => { ws with groupId } }
        match groupId with
        | none => (tm, true)
        | some gid =>
            match ((positions (·.groupId = some gid) tm.workspaces 0).filter (· ≠ idx)).getLast? with
            | none => (tm, true)
            | some lastMember =>
                -- a workspace that leaves from above the member shifts that member up
                let toIdx := if lastMember > idx then lastMember else lastMember + 1
                ((tm.moveWorkspace idx toIdx).1, true)

/-- The members, in their order, go right before the target, or to the end. -/
def moveGroupBefore (tm : TabManager) (groupId : Uuid) (targetWsId : Option Uuid) :
    TabManager × Bool :=
  if (tm.group groupId).isNone then (tm, false)
  else
    let (members, rest) := tm.workspaces.partition (·.groupId = some groupId)
    if members.isEmpty then (tm, false)
    else
      let insertAt :=
        -- a target inside the group is not among the rest, and the block goes to the end
        (targetWsId.bind fun tid => rest.findIdx? (·.id = tid)).getD rest.length
      let workspaces := insertAll rest insertAt members
      ({ tm with
          workspaces
          selectedIndex :=
            match tm.selectedId with
            | some sid => workspaces.findIdx? (·.id = sid)
            | none => tm.selectedIndex }, true)

end TabManager

end Jmux.Model
