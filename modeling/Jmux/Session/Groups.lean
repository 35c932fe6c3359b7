/-
  Jmux.Session.Groups — the group of every live workspace, over closing and
  reopening, graphs that come and go, and the session that is saved and restored.

  A workspace carries the id of its group, and nothing but `remove_group` clears
  it.  It leaves the manager with its group id on the closed stack, in a graph's
  spec and in the session file, and comes back from each of them with no look at
  the group list.

  Main result:
    * `groups_exist_iff` — in every run, every live workspace's group exists
      throughout exactly when the group exists each time a workspace is
      reopened, launched for a graph node or restored.
-/
import Jmux.Session.Create
import Jmux.Session.Restore
import Jmux.Session.Store

namespace Jmux.Session

open Jmux.Lib Jmux.Model

/-! ## §1. What the graphs do to the sidebar (`goal/graph.rs`). -/

/-- What the workspace of a launched agent is built from. -/
structure AgentLaunch where
  draw      : WsDraw
  home      : String := "/"
  cwd       : String
  title     : String
  command   : String
  sessionId : String
  /-- `runner.agent == "custom"` -/
  custom    : Bool := false

/-- The agent's workspace, in the group if there is one (`launch_goal`). -/
def agentWorkspace (launch : AgentLaunch) (groupId : Option Uuid) : Workspace :=
  let ws := Workspace.withDirectory launch.draw.1 launch.draw.2 launch.home launch.cwd
  { ws with
    customTitle     := some launch.title
    groupId         := groupId.or ws.groupId
    subagentMonitor := !launch.custom
    panels          := ws.panels.modify launch.draw.2 fun panel =>
      { panel with
        command        := some launch.command
        agentSessionId := if launch.custom then panel.agentSessionId else some launch.sessionId } }

/-- The orchestrator's workspace has the graph panel beside the agent. -/
def orchestratorWorkspace (launch : AgentLaunch) (graphPanelId : Uuid) (name : String)
    (groupId : Option Uuid) : Workspace :=
  (agentWorkspace launch groupId).insertPanel (.newGraph graphPanelId name) .horizontal

/-- Reuse a group with this name, or create one with the id that is drawn. -/
def graphGroup (tm : TabManager) (name : String) (newId : Uuid) : TabManager × Uuid :=
  match tm.groups.find? (·.name = name) with
  | some group => (tm, group.id)
  | none => (tm.createGroup newId name none, newId)

/-- Remove the graph's group if nothing lives in it any more. -/
def dropGraphGroup (tm : TabManager) (groupId : Option Uuid) : TabManager :=
  match groupId with
  | none => tm
  | some gid =>
      if tm.workspaces.any (·.groupId = some gid) then tm else (tm.removeGroup gid).1

/-! ## §2. The system. -/

structure GroupState where
  tm     : TabManager
  /-- The `group_id` in the spec of each registered graph; specs are files and
  survive a restart. -/
  graphs : AList fun _ : String => Option Uuid
  store  : Store

inductive GroupAction
  | createGroup (id : Uuid) (name : String) (windowId : Option Uuid)
  | assignToGroup (workspaceId : Uuid) (groupId : Option Uuid)
  | removeGroup (id : Uuid)
  /-- `launch = none`: the request fails after it took its group. -/
  | createGraph (name : String) (groupId : Uuid) (launch : Option (AgentLaunch × Uuid))
      (placement : NewWorkspacePlacement)
  | launchNode (name : String) (launch : AgentLaunch) (placement : NewWorkspacePlacement)
  | stopGraph (name : String)
  /-- Any ungrouped workspace. -/
  | newWorkspace (ws : Workspace) (placement : NewWorkspacePlacement)
  | remove (now index : Nat)
  | removeById (now : Nat) (id : Uuid)
  | closePanel (now : Nat) (panelId : Uuid)
  | closeOthers (keepId : Uuid)
  | closeAbove (workspaceId : Uuid)
  | closeBelow (workspaceId : Uuid)
  | moveWorkspace (fromIdx toIdx : Nat)
  | reopenLastClosed
  | reopenClosed (workspaceId : Uuid)
  | save (order : HashOrder) (captured : Captured)
  /-- The process ends and the next one restores, unless that is disabled;
  `fallback` is the workspace of a start that restores nothing. -/
  | restart (env : RestoreEnv) (draws : Draws) (disabled moved : Bool) (fallback : WsDraw)

namespace GroupState

/-- The session that a start would restore. -/
def loaded (s : GroupState) (disabled moved : Bool) : Option AppSessionSnapshot :=
  if disabled then none
  else
    match (loadSession s.store.disk moved).2 with
    | .ok snapshot => snapshot
    | .error () => none

def restarted (s : GroupState) (env : RestoreEnv) (draws : Draws) (disabled moved : Bool)
    (fallback : WsDraw) : GroupState where
  tm     :=
    ((s.loaded disabled moved).bind (restoreSession env draws)).getD
      (.new fallback.1 fallback.2 env.home)
  graphs := s.graphs
  store  :=
    { disk := if disabled then s.store.disk else (loadSession s.store.disk moved).1
      hadWorkspaces := false }

/-- The new workspace's place is in the list; `Vec::insert` panics beyond its
end, and then there is no next state. -/
def Insertable (tm : TabManager) (placement : NewWorkspacePlacement) : Prop :=
  placement = .afterCurrent → ∀ sel ∈ tm.selectedIndex, sel < tm.workspaces.length

instance (tm : TabManager) (placement : NewWorkspacePlacement) :
    Decidable (Insertable tm placement) := inferInstanceAs (Decidable (_ → _))

def step (s : GroupState) : GroupAction → Option GroupState
  | .createGroup id name windowId => some { s with tm := s.tm.createGroup id name windowId }
  | .assignToGroup workspaceId groupId =>
      some { s with tm := (s.tm.assignToGroup workspaceId groupId).1 }
  | .removeGroup id => some { s with tm := (s.tm.removeGroup id).1 }
  | .createGraph name groupId launch placement =>
      -- the group is taken first, and stays when the launch fails
      let (tm, gid) := graphGroup s.tm name groupId
      match launch with
      | none => some { s with tm }
      | some (launch, graphPanelId) =>
          if Insertable tm placement then
            some { s with
              tm     := tm.addWorkspaceWithPlacement
                (orchestratorWorkspace launch graphPanelId name (some gid)) placement
              graphs := s.graphs.insert name (some gid) }
          else none
  | .launchNode name launch placement =>
      match s.graphs.lookup name with
      | none => none
      | some groupId =>
          if Insertable s.tm placement then
            some { s with
              -- the id in the spec is used without a look at the groups
              tm := s.tm.addWorkspaceKeepSelection (agentWorkspace launch groupId) placement }
          else none
  | .stopGraph name =>
      (s.graphs.lookup name).map fun groupId => { s with tm := dropGraphGroup s.tm groupId }
  | .newWorkspace ws placement =>
      if ws.groupId = none ∧ Insertable s.tm placement then
        some { s with tm := s.tm.addWorkspaceWithPlacement ws placement }
      else none
  | .remove now index =>
      some { s with tm := ((s.tm.remove now index).map (·.2)).getD s.tm }
  | .removeById now id =>
      some { s with tm := ((s.tm.removeById now id).map (·.2)).getD s.tm }
  | .closePanel now panelId => some { s with tm := (s.tm.closePanel now panelId).1 }
  | .closeOthers keepId => some { s with tm := (s.tm.closeOthers keepId).1 }
  | .closeAbove workspaceId => some { s with tm := (s.tm.closeAbove workspaceId).1 }
  | .closeBelow workspaceId => some { s with tm := (s.tm.closeBelow workspaceId).1 }
  | .moveWorkspace fromIdx toIdx => some { s with tm := (s.tm.moveWorkspace fromIdx toIdx).1 }
  | .reopenLastClosed => some { s with tm := s.tm.reopenLastClosed.1 }
  | .reopenClosed workspaceId => some { s with tm := (s.tm.reopenClosed workspaceId).1 }
  | .save order captured =>
      some { s with store := saveSession s.store (createSnapshot order captured s.tm) }
  | .restart env draws disabled moved fallback =>
      some (s.restarted env draws disabled moved fallback)

end GroupState

/-! ## §3. Groups that exist. -/

/-- No group, or one of these. -/
def Known (groups : List Uuid) (groupId : Option Uuid) : Prop :=
  ∀ gid, groupId = some gid → gid ∈ groups

instance (groups : List Uuid) : ∀ groupId, Decidable (Known groups groupId)
  | none => isTrue fun _ h => nomatch h
  | some gid => decidable_of_iff (gid ∈ groups)
      ⟨fun h _ hg => Option.some.inj hg ▸ h, fun h => h gid rfl⟩

def groupIds (tm : TabManager) : List Uuid := tm.groups.map (·.id)

/-- The group of each live workspace is in the manager's list. -/
def GroupsExist (tm : TabManager) : Prop := ∀ ws ∈ tm.workspaces, Known (groupIds tm) ws.groupId

instance (tm : TabManager) : Decidable (GroupsExist tm) :=
  inferInstanceAs (Decidable (∀ ws ∈ tm.workspaces, _))

/-- The groups that a restore brings back. -/
def keptGroups (snapshot : AppSessionSnapshot) : List Uuid :=
  (liveWindows snapshot).flatMap fun w => w.tabManager.groups.map (·.id)

/-- Each workspace that a restore brings back has its group among those. -/
def KeepsGroups (snapshot : AppSessionSnapshot) : Prop :=
  ∀ w ∈ liveWindows snapshot, ∀ ws ∈ w.tabManager.workspaces, isRestored ws →
    Known (keptGroups snapshot) ws.groupId

instance (snapshot : AppSessionSnapshot) : Decidable (KeepsGroups snapshot) :=
  inferInstanceAs (Decidable (∀ w ∈ liveWindows snapshot, _))

/-- A closed workspace that is not live still has its group. -/
def ReopensKnown (tm : TabManager) (entry : Option ClosedEntry) : Prop :=
  ∀ e, entry = some e → tm.workspace e.workspace.id = none →
    Known (groupIds tm) e.workspace.groupId

instance (tm : TabManager) : ∀ entry, Decidable (ReopensKnown tm entry)
  | none => isTrue fun _ h => nomatch h
  | some e => decidable_of_iff
      (tm.workspace e.workspace.id = none → Known (groupIds tm) e.workspace.groupId)
      ⟨fun h _ he => Option.some.inj he ▸ h, fun h => h e rfl⟩

/-- The workspaces that the step brings in from outside the list come into
groups that exist. -/
def GroupsReturn (s : GroupState) : GroupAction → Prop
  | .reopenLastClosed => ReopensKnown s.tm s.tm.closedStack.getLast?
  | .reopenClosed workspaceId =>
      ReopensKnown s.tm (s.tm.closedStack.find? (·.workspace.id = workspaceId))
  | .launchNode name _ _ => Known (groupIds s.tm) (s.graphs.lookup name).join
  | .restart _ _ disabled moved _ =>
      ∀ snapshot ∈ s.loaded disabled moved, KeepsGroups snapshot
  | _ => True

instance (s : GroupState) : ∀ a, Decidable (GroupsReturn s a)
  | .reopenLastClosed => inferInstanceAs (Decidable (ReopensKnown _ _))
  | .reopenClosed _ => inferInstanceAs (Decidable (ReopensKnown _ _))
  | .launchNode _ _ _ => inferInstanceAs (Decidable (Known _ _))
  | .restart _ _ disabled moved _ =>
      inferInstanceAs (Decidable (∀ snapshot ∈ s.loaded disabled moved, KeepsGroups snapshot))
  | .createGroup _ _ _ | .assignToGroup _ _ | .removeGroup _ | .createGraph _ _ _ _
  | .stopGraph _ | .newWorkspace _ _ | .remove _ _ | .removeById _ _ | .closePanel _ _
  | .closeOthers _ | .closeAbove _ | .closeBelow _ | .moveWorkspace _ _ | .save _ _ => isTrue trivial

/-! ## §4. Steps within the list. -/

/-- The workspaces are among the old ones, up to what has no part in groups,
and the group list is the old one. -/
structure Within (tm tm' : TabManager) : Prop where
  groups : tm'.groups = tm.groups
  from_old : ∀ ws ∈ tm'.workspaces, ∃ old ∈ tm.workspaces, ws.groupId = old.groupId

section Within

variable {tm tm' tm'' : TabManager}

theorem Within.refl (tm : TabManager) : Within tm tm where
  groups   := rfl
  from_old := fun ws hws => ⟨ws, hws, rfl⟩

theorem Within.trans (h : Within tm tm') (h' : Within tm' tm'') : Within tm tm'' where
  groups   := h'.groups.trans h.groups
  from_old := by
    intro ws hws
    obtain ⟨mid, hmid, heq⟩ := h'.from_old ws hws
    obtain ⟨old, hold, heq'⟩ := h.from_old mid hmid
    exact ⟨old, hold, heq.trans heq'⟩

theorem Within.groupsExist (h : Within tm tm') (hex : GroupsExist tm) : GroupsExist tm' := by
  intro ws hws
  obtain ⟨old, hold, heq⟩ := h.from_old ws hws
  have hknown := hex old hold
  unfold groupIds at hknown ⊢
  rw [heq, h.groups]
  exact hknown

/-- Some of the old workspaces, in whatever order. -/
theorem Within.of_subset (hgroups : tm'.groups = tm.groups)
    (hsub : tm'.workspaces ⊆ tm.workspaces) : Within tm tm' where
  groups   := hgroups
  from_old := fun ws hws => ⟨ws, hsub hws, rfl⟩

theorem remove_within (tm : TabManager) (now index : Nat) :
    Within tm (((tm.remove now index).map (·.2)).getD tm) := by
  unfold TabManager.remove
  split
  · exact Within.refl tm
  · exact Within.of_subset rfl (List.eraseIdx_subset)

theorem removeById_within (tm : TabManager) (now : Nat) (id : Uuid) :
    Within tm (((tm.removeById now id).map (·.2)).getD tm) := by
  unfold TabManager.removeById
  cases tm.workspaces.findIdx? (·.id = id) with
  | none => exact Within.refl tm
  | some index => exact remove_within tm now index

theorem removePanel_groupId (ws : Workspace) (panelId : Uuid) :
    (ws.removePanel panelId).1.groupId = ws.groupId := by
  unfold Workspace.removePanel
  split <;> rfl

theorem closePanel_within (tm : TabManager) (now : Nat) (panelId : Uuid) :
    Within tm (tm.closePanel now panelId).1 := by
  unfold TabManager.closePanel
  split
  · exact Within.refl tm
  · next ws hfind =>
      have hedit : Within tm { tm with
          workspaces := tm.workspaces.modifyFirst (panelId ∈ ·.panels)
            fun _ => (ws.removePanel panelId).1 } := by
        refine ⟨rfl, fun ws' hws' => ?_⟩
        -- the edited workspace keeps its group id
        rcases List.mem_modifyFirst hws' with hold | ⟨_, _, _, rfl⟩
        · exact ⟨ws', hold, rfl⟩
        · exact ⟨ws, List.mem_of_find?_eq_some hfind, removePanel_groupId ws panelId⟩
      show Within tm (if _ then _ else _)
      split
      · exact hedit.trans (removeById_within _ now _)
      · exact hedit

theorem closeOthers_within (tm : TabManager) (keepId : Uuid) :
    Within tm (tm.closeOthers keepId).1 :=
  Within.of_subset rfl (eraseAll_sublist _ _).subset

theorem closeAbove_within (tm : TabManager) (workspaceId : Uuid) :
    Within tm (tm.closeAbove workspaceId).1 := by
  unfold TabManager.closeAbove
  split
  · exact Within.refl tm
  · exact Within.of_subset rfl (eraseAll_sublist _ _).subset

theorem closeBelow_within (tm : TabManager) (workspaceId : Uuid) :
    Within tm (tm.closeBelow workspaceId).1 := by
  unfold TabManager.closeBelow
  split
  · exact Within.refl tm
  · exact Within.of_subset rfl (eraseAll_sublist _ _).subset

theorem moveWorkspace_within (tm : TabManager) (fromIdx toIdx : Nat) :
    Within tm (tm.moveWorkspace fromIdx toIdx).1 := by
  unfold TabManager.moveWorkspace
  split
  · exact Within.refl tm
  · next ws hws =>
      split
      · exact Within.refl tm
      · refine Within.of_subset rfl ?_
        intro x hx
        -- the moved workspace, or one that stayed in place
        rcases List.eq_or_mem_of_mem_insertIdx hx with rfl | hrest
        · exact List.mem_of_getElem? hws
        · exact List.eraseIdx_subset hrest

end Within

/-! ## §5. Groups that come and go. -/

section Groups

variable {tm : TabManager}

theorem known_mono {groups groups' : List Uuid} {groupId : Option Uuid}
    (h : Known groups groupId) (hsub : groups ⊆ groups') : Known groups' groupId :=
  fun gid hgid => hsub (h gid hgid)

theorem known_none (groups : List Uuid) : Known groups none := fun _ h => nomatch h

theorem createGroup_groupsExist (hex : GroupsExist tm) (id : Uuid) (name : String)
    (windowId : Option Uuid) : GroupsExist (tm.createGroup id name windowId) := by
  intro ws hws
  refine known_mono (hex ws hws) ?_
  unfold groupIds TabManager.createGroup
  rw [List.map_append]
  exact List.subset_append_left _ _

theorem removeGroup_groupsExist (hex : GroupsExist tm) (id : Uuid) :
    GroupsExist (tm.removeGroup id).1 := by
  unfold TabManager.removeGroup
  dsimp only
  split
  · exact hex
  · intro ws hws
    obtain ⟨old, hold, rfl⟩ := List.mem_map.mp hws
    show Known ((tm.groups.filter _).map (·.id)) _
    split
    · exact known_none _
    · next hne =>
        intro gid hgid
        obtain ⟨g, hg, rfl⟩ := List.mem_map.mp (hex old hold gid hgid)
        refine List.mem_map.mpr ⟨g, List.mem_filter.mpr ⟨hg, ?_⟩, rfl⟩
        have : g.id ≠ id := fun hid => hne (hid ▸ hgid)
        simpa using this

theorem assignToGroup_groupsExist (hex : GroupsExist tm) (workspaceId : Uuid)
    (groupId : Option Uuid) : GroupsExist (tm.assignToGroup workspaceId groupId).1 := by
  unfold TabManager.assignToGroup
  split
  · exact hex
  · next hknown =>
      -- `assign_to_group` refuses a group that is not in the list
      have htarget : Known (groupIds tm) groupId := by
        intro gid hgid
        subst hgid
        have hne : tm.group gid ≠ none := by
          simpa using hknown
        obtain ⟨g, hg⟩ := Option.ne_none_iff_exists'.mp hne
        have hid : g.id = gid := by
          simpa using List.find?_some hg
        exact List.mem_map.mpr ⟨g, List.mem_of_find?_eq_some hg, hid⟩
      split
      · exact hex
      · next idx _ =>
          have hmodify : GroupsExist { tm with
              workspaces := tm.workspaces.modify idx fun ws => { ws with groupId } } := by
            intro ws hws
            obtain ⟨i, hi⟩ := List.mem_iff_getElem?.mp hws
            rw [List.getElem?_modify] at hi
            obtain ⟨old, hold, heq⟩ := Option.map_eq_some_iff.mp hi
            have hmem := List.mem_of_getElem? hold
            subst heq
            show Known (groupIds tm) _
            split
            · exact htarget
            · exact hex old hmem
          dsimp only
          split
          · exact hmodify
          · split
            · exact hmodify
            · exact (moveWorkspace_within _ _ _).groupsExist hmodify

/-- The group that a graph takes is in the list. -/
theorem graphGroup_spec (hex : GroupsExist tm) (name : String) (newId : Uuid) :
    GroupsExist (graphGroup tm name newId).1 ∧
      Known (groupIds (graphGroup tm name newId).1) (some (graphGroup tm name newId).2) := by
  unfold graphGroup
  split
  · next group hfind =>
      refine ⟨hex, fun gid hgid => ?_⟩
      obtain rfl := Option.some.inj hgid
      exact List.mem_map_of_mem (List.mem_of_find?_eq_some hfind)
  · refine ⟨createGroup_groupsExist hex newId name none, fun gid hgid => ?_⟩
    obtain rfl := Option.some.inj hgid
    simp [groupIds, TabManager.createGroup]

theorem dropGraphGroup_groupsExist (hex : GroupsExist tm) (groupId : Option Uuid) :
    GroupsExist (dropGraphGroup tm groupId) := by
  unfold dropGraphGroup
  split
  · exact hex
  · split
    · exact hex
    · exact removeGroup_groupsExist hex _

end Groups

/-! ## §6. Workspaces that come. -/

section Come

variable {tm : TabManager}

/-- One more workspace somewhere in the list. -/
theorem groupsExist_insert_iff (hex : GroupsExist tm) {ws : Workspace} (tm' : TabManager)
    (hgroups : tm'.groups = tm.groups)
    (hmem : ∀ x, x ∈ tm'.workspaces ↔ x = ws ∨ x ∈ tm.workspaces) :
    GroupsExist tm' ↔ Known (groupIds tm) ws.groupId := by
  unfold GroupsExist groupIds
  rw [hgroups]
  constructor
  · intro h
    exact h ws ((hmem ws).mpr (.inl rfl))
  · intro h x hx
    rcases (hmem x).mp hx with rfl | hold
    · exact h
    · exact hex x hold

theorem mem_addWorkspace (tm : TabManager) (ws x : Workspace) :
    x ∈ (tm.addWorkspace ws).workspaces ↔ x = ws ∨ x ∈ tm.workspaces := by
  unfold TabManager.addWorkspace
  simp [or_comm]

theorem mem_addWorkspaceWithPlacement {placement : NewWorkspacePlacement}
    (hplace : GroupState.Insertable tm placement) (ws x : Workspace) :
    x ∈ (tm.addWorkspaceWithPlacement ws placement).workspaces ↔ x = ws ∨ x ∈ tm.workspaces := by
  cases placement with
  | atEnd => exact mem_addWorkspace tm ws x
  | top => exact List.mem_cons
  | afterCurrent =>
      show x ∈ tm.workspaces.insertIdx ((tm.selectedIndex.map (· + 1)).getD 0) ws ↔ _
      refine List.mem_insertIdx ?_
      cases hsel : tm.selectedIndex with
      | none => exact Nat.zero_le _
      | some sel =>
          have := hplace rfl sel hsel
          show sel + 1 ≤ _
          omega

theorem mem_addWorkspaceKeepSelection {placement : NewWorkspacePlacement}
    (hplace : GroupState.Insertable tm placement) (ws x : Workspace) :
    x ∈ (tm.addWorkspaceKeepSelection ws placement).workspaces ↔ x = ws ∨ x ∈ tm.workspaces := by
  unfold TabManager.addWorkspaceKeepSelection
  refine List.mem_insertIdx ?_
  cases placement with
  | atEnd => exact le_refl _
  | top => exact Nat.zero_le _
  | afterCurrent =>
      show (tm.selectedIndex.map (· + 1)).getD tm.workspaces.length ≤ _
      cases hsel : tm.selectedIndex with
      | none => exact le_refl _
      | some sel =>
          have := hplace rfl sel hsel
          show sel + 1 ≤ _
          omega

theorem addWorkspaceWithPlacement_groups (ws : Workspace) (placement : NewWorkspacePlacement) :
    (tm.addWorkspaceWithPlacement ws placement).groups = tm.groups := by
  cases placement <;> rfl

theorem agentWorkspace_groupId (launch : AgentLaunch) (groupId : Option Uuid) :
    (agentWorkspace launch groupId).groupId = groupId := by
  cases groupId <;> rfl

theorem reopen_iff (hex : GroupsExist tm) (entry : ClosedEntry) (closedStack : List ClosedEntry) :
    GroupsExist ({ tm with closedStack }.addUnlessLive entry.workspace) ↔
      ReopensKnown tm (some entry) := by
  -- the entry is off the stack before the look at the live list
  have hlive : ({ tm with closedStack } : TabManager).workspace entry.workspace.id =
    tm.workspace entry.workspace.id := rfl
  unfold TabManager.addUnlessLive
  rw [hlive]
  cases hws : tm.workspace entry.workspace.id with
  | some ws =>
      refine iff_of_true hex fun e he hnone => ?_
      obtain rfl := Option.some.inj he
      rw [hws] at hnone
      cases hnone
  | none =>
      -- not live, so the workspace comes in with its old group id
      have hgained : GroupsExist ({ tm with closedStack }.addWorkspace entry.workspace) ↔
          Known (groupIds tm) entry.workspace.groupId :=
        groupsExist_insert_iff hex _ rfl fun x => mem_addWorkspace _ entry.workspace x
      refine hgained.trans ⟨fun h e he _ => ?_, fun h => h entry rfl hws⟩
      obtain rfl := Option.some.inj he
      exact h

theorem reopenLastClosed_iff (hex : GroupsExist tm) :
    GroupsExist tm.reopenLastClosed.1 ↔ ReopensKnown tm tm.closedStack.getLast? := by
  unfold TabManager.reopenLastClosed
  cases tm.closedStack.getLast? with
  | none => exact iff_of_true hex fun _ h => nomatch h
  | some entry => exact reopen_iff hex entry _

theorem reopenClosed_iff (hex : GroupsExist tm) (workspaceId : Uuid) :
    GroupsExist (tm.reopenClosed workspaceId).1 ↔
      ReopensKnown tm (tm.closedStack.find? (·.workspace.id = workspaceId)) := by
  -- the condition names the entry, the code its position
  rw [List.find?_eq_bind_findIdx?_getElem?]
  unfold TabManager.reopenClosed
  cases tm.closedStack.findIdx? (·.workspace.id = workspaceId) with
  | none => exact iff_of_true hex fun _ h => nomatch h
  | some pos =>
      dsimp only [Option.bind_some]
      cases tm.closedStack[pos]? with
      | none => exact iff_of_true hex fun _ h => nomatch h
      | some entry => exact reopen_iff hex entry _

end Come

/-! ## §7. What a restore brings back. -/

section Restore

variable (env : RestoreEnv) (draws : Draws)

/-- A position that the loop body does not use for its result drops out. -/
theorem flatMap_zipIdx {α β : Type*} (xs : List α) (f : α × Nat → List β) (g : α → List β)
    (h : ∀ x i, f (x, i) = g x) : xs.zipIdx.flatMap f = xs.flatMap g := by
  have hf : f = fun e => g e.1 := funext fun e => h e.1 e.2
  rw [hf, ← List.flatMap_map Prod.fst g, List.zipIdx_map_fst]

theorem restoredGroups_ids (windows : List SessionWindowSnapshot) :
    (restoredGroups draws windows).map (·.id) =
      windows.flatMap fun w => w.tabManager.groups.map (·.id) := by
  unfold restoredGroups
  rw [List.map_flatMap]
  refine flatMap_zipIdx _ _ _ fun w i => ?_
  rw [List.map_map]
  rfl

theorem restoredWorkspaces_groups (windows : List SessionWindowSnapshot) :
    (restoredWorkspaces env draws windows).map (·.groupId) =
      windows.flatMap fun w => (w.tabManager.workspaces.filter isRestored).map (·.groupId) := by
  unfold restoredWorkspaces
  rw [List.map_flatMap]
  refine flatMap_zipIdx _ _ _ fun w i => ?_
  rw [List.map_map]
  show List.map ((fun ws : SessionWorkspaceSnapshot => ws.groupId) ∘ Prod.fst) _ = _
  rw [← List.map_map, List.zipIdx_map_fst]

theorem addAll_workspaces (workspaces : List Workspace) (tm : TabManager) :
    (workspaces.foldl TabManager.addWorkspace tm).workspaces = tm.workspaces ++ workspaces := by
  induction workspaces generalizing tm with
  | nil => exact (List.append_nil _).symm
  | cons ws workspaces ih =>
      rw [List.foldl_cons, ih]
      unfold TabManager.addWorkspace
      simp

/-- A restored manager has the kept workspaces and the kept groups. -/
theorem restoreSession_spec {snapshot : AppSessionSnapshot} {tm : TabManager}
    (h : restoreSession env draws snapshot = some tm) :
    tm.workspaces = restoredWorkspaces env draws (liveWindows snapshot) ∧
      groupIds tm = keptGroups snapshot := by
  unfold restoreSession at h
  split at h
  · cases h
  · split at h
    · cases h
    · obtain rfl := Option.some.inj h
      refine ⟨?_, restoredGroups_ids draws _⟩
      have hall := addAll_workspaces (restoredWorkspaces env draws (liveWindows snapshot)) .empty
      show (if _ then _ else _ : TabManager).workspaces = _
      split
      · exact hall
      · exact hall

theorem restoreSession_iff {snapshot : AppSessionSnapshot} {tm : TabManager}
    (h : restoreSession env draws snapshot = some tm) :
    GroupsExist tm ↔ KeepsGroups snapshot := by
  obtain ⟨hws, hgroups⟩ := restoreSession_spec env draws h
  -- the ids that were drawn play no part in the groups
  have hall : GroupsExist tm ↔
      ∀ gid ∈ (restoredWorkspaces env draws (liveWindows snapshot)).map (·.groupId),
        Known (keptGroups snapshot) gid := by
    unfold GroupsExist
    rw [hws, hgroups]
    simp only [List.forall_mem_map]
  rw [hall, restoredWorkspaces_groups]
  simp only [List.mem_flatMap, List.mem_map, List.mem_filter]
  constructor
  · intro h w hw ws hmem hkept
    exact h _ ⟨w, hw, ws, ⟨hmem, hkept⟩, rfl⟩
  · rintro h gid ⟨w, hw, ws, ⟨hmem, hkept⟩, rfl⟩
    exact h w hw ws hmem hkept

/-- Where nothing is restored there is nothing to restore. -/
theorem workspaces_of_none {snapshot : AppSessionSnapshot}
    (h : restoreSession env draws snapshot = none) :
    ∀ w ∈ snapshot.windows, w.tabManager.workspaces = [] := by
  unfold restoreSession at h
  split at h
  · next hw =>
      intro w hmem
      rw [List.isEmpty_iff.mp hw] at hmem
      cases hmem
  · split at h
    · next hcount =>
        intro w hmem
        -- no workspace in any window
        have hzero := List.sum_eq_zero_iff_forall_eq_nat.mp hcount _ (List.mem_map_of_mem hmem)
        exact List.length_eq_zero_iff.mp hzero
    · cases h

theorem keepsGroups_of_none {snapshot : AppSessionSnapshot}
    (h : restoreSession env draws snapshot = none) : KeepsGroups snapshot := by
  intro w hw ws hmem
  rw [workspaces_of_none env draws h w (List.mem_filter.mp hw).1] at hmem
  cases hmem

/-- After a restart the groups exist exactly when the session keeps them. -/
theorem restarted_iff (s : GroupState) (disabled moved : Bool) (fallback : WsDraw) :
    GroupsExist (s.restarted env draws disabled moved fallback).tm ↔
      ∀ snapshot ∈ s.loaded disabled moved, KeepsGroups snapshot := by
  -- a start that restores nothing has one workspace without a group
  have hfresh : GroupsExist (.new fallback.1 fallback.2 env.home) := by
    intro ws hws
    obtain rfl := List.mem_singleton.mp hws
    exact known_none _
  unfold GroupState.restarted
  cases hload : s.loaded disabled moved with
  | none => exact iff_of_true hfresh fun _ h => nomatch h
  | some snapshot =>
      simp only [Option.bind_some, Option.mem_def, Option.some.injEq, forall_eq']
      cases hrestore : restoreSession env draws snapshot with
      | none => exact iff_of_true hfresh (keepsGroups_of_none env draws hrestore)
      | some tm => exact restoreSession_iff env draws hrestore

end Restore

/-! ## §8. Runs. -/

namespace GroupState

/-- One step keeps the groups exactly when the workspaces it brings in come
into groups that exist. -/
theorem step_groupsExist_iff {s s' : GroupState} {a : GroupAction} (hex : GroupsExist s.tm)
    (hstep : step s a = some s') : GroupsExist s'.tm ↔ GroupsReturn s a := by
  have kept : ∀ {tm : TabManager}, GroupsExist tm → (GroupsExist tm ↔ True) :=
    fun h => iff_true_intro h
  cases a with
  | createGroup id name windowId =>
      obtain rfl := Option.some.inj hstep
      exact kept (createGroup_groupsExist hex id name windowId)
  | assignToGroup workspaceId groupId =>
      obtain rfl := Option.some.inj hstep
      exact kept (assignToGroup_groupsExist hex workspaceId groupId)
  | removeGroup id =>
      obtain rfl := Option.some.inj hstep
      exact kept (removeGroup_groupsExist hex id)
  | createGraph name groupId launch placement =>
      obtain ⟨hgroup, hknown⟩ := graphGroup_spec hex name groupId
      simp only [step] at hstep
      split at hstep
      · obtain rfl := Option.some.inj hstep
        exact kept hgroup
      · split at hstep
        · next hplace =>
            obtain rfl := Option.some.inj hstep
            exact kept ((groupsExist_insert_iff hgroup _ (addWorkspaceWithPlacement_groups _ _)
              fun x => mem_addWorkspaceWithPlacement hplace _ x).mpr hknown)
        · cases hstep
  | launchNode name launch placement =>
      simp only [step] at hstep
      split at hstep
      · cases hstep
      · next groupId hlookup =>
          split at hstep
          · next hplace =>
              obtain rfl := Option.some.inj hstep
              show _ ↔ Known (groupIds s.tm) (s.graphs.lookup name).join
              rw [hlookup]
              have hadded := groupsExist_insert_iff hex
                (s.tm.addWorkspaceKeepSelection (agentWorkspace launch groupId) placement) rfl
                (mem_addWorkspaceKeepSelection hplace (agentWorkspace launch groupId))
              rw [agentWorkspace_groupId] at hadded
              exact hadded
          · cases hstep
  | stopGraph name =>
      obtain ⟨groupId, _, rfl⟩ := Option.map_eq_some_iff.mp hstep
      exact kept (dropGraphGroup_groupsExist hex groupId)
  | newWorkspace ws placement =>
      simp only [step] at hstep
      split at hstep
      · next hnew =>
          obtain rfl := Option.some.inj hstep
          refine kept ((groupsExist_insert_iff hex _ (addWorkspaceWithPlacement_groups _ _)
            fun x => mem_addWorkspaceWithPlacement hnew.2 _ x).mpr ?_)
          rw [hnew.1]
          exact known_none _
      · cases hstep
  | remove now index =>
      obtain rfl := Option.some.inj hstep
      exact kept ((remove_within s.tm now index).groupsExist hex)
  | removeById now id =>
      obtain rfl := Option.some.inj hstep
      exact kept ((removeById_within s.tm now id).groupsExist hex)
  | closePanel now panelId =>
      obtain rfl := Option.some.inj hstep
      exact kept ((closePanel_within s.tm now panelId).groupsExist hex)
  | closeOthers keepId =>
      obtain rfl := Option.some.inj hstep
      exact kept ((closeOthers_within s.tm keepId).groupsExist hex)
  | closeAbove workspaceId =>
      obtain rfl := Option.some.inj hstep
      exact kept ((closeAbove_within s.tm workspaceId).groupsExist hex)
  | closeBelow workspaceId =>
      obtain rfl := Option.some.inj hstep
      exact kept ((closeBelow_within s.tm workspaceId).groupsExist hex)
  | moveWorkspace fromIdx toIdx =>
      obtain rfl := Option.some.inj hstep
      exact kept ((moveWorkspace_within s.tm fromIdx toIdx).groupsExist hex)
  | reopenLastClosed =>
      obtain rfl := Option.some.inj hstep
      exact reopenLastClosed_iff hex
  | reopenClosed workspaceId =>
      obtain rfl := Option.some.inj hstep
      exact reopenClosed_iff hex workspaceId
  | save order captured =>
      obtain rfl := Option.some.inj hstep
      exact kept hex
  | restart env draws disabled moved fallback =>
      obtain rfl := Option.some.inj hstep
      exact restarted_iff env draws s disabled moved fallback

/-- **Every workspace's group exists** in exactly the runs in which it exists
whenever a workspace comes back or is launched. -/
theorem groups_exist_iff {s s' : GroupState} {as : List GroupAction} (hex : GroupsExist s.tm)
    (hrun : exec step s as = some s') :
    EveryState step (fun s => GroupsExist s.tm) s as ↔ EveryStep step GroupsReturn s as :=
  everyState_iff_everyStep (fun _ => True) (fun _ _ _ _ _ => trivial)
    (fun _ _ _ _ hex hstep => step_groupsExist_iff hex hstep) trivial hex hrun

/-- No workspaces, no graphs, nothing saved. -/
def start : GroupState where
  tm     := .empty
  graphs := ∅
  store  := {}

def someAgent (id : Uuid) : AgentLaunch where
  draw      := (id, id + 100)
  cwd       := "/work"
  title     := "agent"
  command   := "claude"
  sessionId := "session"

/-- A workspace in a group is closed. -/
def closeGrouped : List GroupAction :=
  [.newWorkspace (.new 1 101 "/") .atEnd, .createGroup 7 "group" none,
    .assignToGroup 1 (some 7), .remove 0 0]

/-- The group is deleted before the workspace is reopened, or before the
scheduler launches the next node of the graph. -/
theorem group_dangles :
    (∃ s ∈ exec step start (closeGrouped ++ [.removeGroup 7, .reopenLastClosed]),
      ¬ GroupsExist s.tm) ∧
    (∃ s ∈ exec step start [.createGraph "graph" 7 (some (someAgent 1, 2)) .atEnd,
      .removeGroup 7, .launchNode "graph" (someAgent 3) .atEnd], ¬ GroupsExist s.tm) := by
  decide

/-- Reopened while its group is still there. -/
theorem groups_exist_reopened :
    EveryState step (fun s => GroupsExist s.tm) start (closeGrouped ++ [.reopenLastClosed]) :=
  (groups_exist_iff (by decide) rfl).mpr (by decide)

end GroupState

end Jmux.Session
