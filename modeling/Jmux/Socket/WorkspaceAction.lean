/-
  Jmux.Socket.WorkspaceAction — `workspace.action` under two locks.

  The request finds its workspace under one lock of the tab manager.  The moves
  and the closing of neighbours give the lock back and do their work under a
  second one: the closings by the id of the workspace, the moves by the index
  that it had under the first.

  Main results:
    * `step_wellFormed`        — what one lock acquisition keeps.
    * `actions_hit_resolved_iff` — over every run, each action works on the
                                  workspace that it found exactly when each move
                                  still finds it at its index, or moves nothing.
-/
import Jmux.Lib.Transition
import Jmux.Model.Selection
import Jmux.Socket.MovePanel
import Jmux.Socket.V1Agreement

namespace Jmux.Socket

open Jmux.Lib Jmux.Model

variable {F : Type}

/-! ## §1. The two locks. -/

/-- What the actions with one lock do to the workspace. -/
def WorkspaceAction.edit (ws : Workspace) : WorkspaceAction → Workspace
  | .pin => { ws with isPinned := true }
  | .unpin => { ws with isPinned := false }
  | .togglePin => { ws with isPinned := !ws.isPinned }
  | .clearName => { ws with customTitle := none }
  | .setColor color => { ws with customColor := some color }
  | .clearColor => { ws with customColor := none }
  | .rename title => { ws with customTitle := some title }
  | _ => ws

/-- The work that is left for the second lock.  Of a move the code keeps the two
indices; `toward` says which way the action was to go. -/
inductive SecondLock
  | moveWorkspace (toward : Toward) (fromIdx toIdx : Nat)
  | closeOthers
  | closeAbove
  | closeBelow
  deriving DecidableEq

/-- An action between its locks: the workspace that it found, and its work. -/
structure Pending where
  workspace : Uuid
  second    : SecondLock
  deriving DecidableEq

/-- `workspace_index(ws_id).unwrap_or(0)` and what the moves make of it. -/
def secondLock (tm : TabManager) (wsId : Uuid) : WorkspaceAction → Option SecondLock
  | .moveUp =>
      let idx := (tm.workspaceIndex wsId).getD 0
      some (.moveWorkspace .front idx (idx - 1))
  | .moveDown =>
      let idx := (tm.workspaceIndex wsId).getD 0
      some (.moveWorkspace .back idx (min (idx + 1) (tm.workspaces.length - 1)))
  | .moveTop => some (.moveWorkspace .front ((tm.workspaceIndex wsId).getD 0) 0)
  | .closeOthers => some .closeOthers
  | .closeAbove => some .closeAbove
  | .closeBelow => some .closeBelow
  | _ => none

/-- The first lock: the request is done or refused, or leaves work. -/
def firstLock (env : V2Env F) (params : Value F) (tm : TabManager) :
    TabManager × Option Pending :=
  match handleWorkspaceAction env tm params with
  | .ok (.act wsId action) =>
      match secondLock tm wsId action with
      | some second => (tm, some { workspace := wsId, second })
      | none =>
          ({ tm with workspaces := tm.workspaces.modifyFirst (·.id = wsId) action.edit }, none)
  | _ => (tm, none)

/-- The second lock. -/
def Pending.serve (p : Pending) (tm : TabManager) : TabManager :=
  match p.second with
  | .moveWorkspace _ fromIdx toIdx => (tm.moveWorkspace fromIdx toIdx).1
  | .closeOthers => (tm.closeOthers p.workspace).1
  | .closeAbove => (tm.closeAbove p.workspace).1
  | .closeBelow => (tm.closeBelow p.workspace).1

/-! ## §2. The other requests. -/

/-- What the requests of other clients do to the list of workspaces, each under one
lock. -/
inductive ListRequest
  /-- `workspace.close`, by index, by id or for the selected one. -/
  | close (now : Nat) (index : Option Nat) (workspace : Option Uuid)
  /-- `pane.close` -/
  | closePanel (now : Nat) (panelId : Uuid)
  | reorder (fromIdx toIdx : Nat)
  /-- `workspace.reorder_workspaces`, with the ids that the names stand for. -/
  | reorderWorkspaces (targetIds : List Uuid)
  | create (workspace : Workspace) (placement : NewWorkspacePlacement) (preserveSelection : Bool)
  | move (now : Nat) (request : MoveRequest)
  /-- Any other request, after which the same workspaces stand in the same order. -/
  | edit (tm : TabManager)

/-- The listed workspaces first, then the others; they go to their places from left
to right. -/
def reorderWorkspaces (tm : TabManager) (targetIds : List Uuid) : TabManager :=
  let newOrder := (targetIds ++ tm.workspaces.map (·.id)).eraseDups
  newOrder.zipIdx.foldl
    (fun tm entry =>
      match tm.workspaceIndex entry.1 with
      | some currentIdx =>
          if currentIdx ≠ entry.2 then (tm.moveWorkspace currentIdx entry.2).1 else tm
      | none => tm) tm

def handleWorkspaceClose (now : Nat) (index : Option Nat) (wsId : Option Uuid)
    (tm : TabManager) : TabManager :=
  let removed :=
    match index, wsId with
    | some idx, _ => tm.remove now idx
    | none, some wid => tm.removeById now wid
    | none, none => tm.selectedIndex.bind (tm.remove now)
  (removed.map (·.2)).getD tm

/-- The end of `create_workspace`. -/
def createWorkspace (workspace : Workspace) (placement : NewWorkspacePlacement)
    (preserveSelection : Bool) (tm : TabManager) : TabManager :=
  let previouslySelected := if preserveSelection then tm.selectedId else none
  let tm := tm.addWorkspaceWithPlacement workspace placement
  match previouslySelected with
  | some selectedId => (tm.selectById selectedId).1
  | none => tm

def ListRequest.serve (tm : TabManager) : ListRequest → TabManager
  | close now index workspace => handleWorkspaceClose now index workspace tm
  | closePanel now panelId => (tm.closePanel now panelId).1
  | reorder fromIdx toIdx => (tm.moveWorkspace fromIdx toIdx).1
  | reorderWorkspaces targetIds => Socket.reorderWorkspaces tm targetIds
  | create workspace placement preserveSelection =>
      createWorkspace workspace placement preserveSelection tm
  | move now request => (request.serve now tm).1
  | edit tm' => tm'

/-- A new workspace has a new id. -/
def ListRequest.Fits (tm : TabManager) : ListRequest → Prop
  | create workspace _ _ => workspace.id ∉ tm.workspaces.map (·.id)
  | edit tm' => tm'.workspaces.map (·.id) = tm.workspaces.map (·.id)
  | _ => True

instance (tm : TabManager) : ∀ request : ListRequest, Decidable (request.Fits tm)
  | .create workspace _ _ => inferInstanceAs (Decidable (workspace.id ∉ tm.workspaces.map (·.id)))
  | .edit tm' => inferInstanceAs (Decidable (tm'.workspaces.map (·.id) = tm.workspaces.map (·.id)))
  | .close _ _ _ | .closePanel _ _ | .reorder _ _ | .reorderWorkspaces _ | .move _ _ =>
      inferInstanceAs (Decidable True)

/-! ## §3. Runs of lock acquisitions. -/

/-- The tab manager, and for each client the action that it is in. -/
structure ActionState where
  tm      : TabManager
  pending : Nat → Option Pending := fun _ => none

inductive ActionStep (F : Type)
  | begin (client : Nat) (params : Value F)
  | finish (client : Nat)
  | other (request : ListRequest)

namespace ActionState

/-- A client sends its next request when the last one is answered. -/
def step (env : V2Env F) (s : ActionState) : ActionStep F → Option ActionState
  | .begin client params =>
      match s.pending client with
      | some _ => none
      | none =>
          let locked := firstLock env params s.tm
          some { tm := locked.1, pending := Function.update s.pending client locked.2 }
  | .finish client =>
      (s.pending client).map fun p =>
        { tm := p.serve s.tm, pending := Function.update s.pending client none }
  | .other request =>
      if request.Fits s.tm then some { s with tm := request.serve s.tm } else none

end ActionState

/-! ## §4. What an action may do. -/

/-- From one manager to the other only the named workspace went to another place, in the
direction of the action; or what a closing keeps is the named workspace, what stands on
the other side of it, and the pinned ones. -/
def Pending.Hits (p : Pending) (tm tm' : TabManager) : Prop :=
  match p.second with
  | .moveWorkspace toward _ _ =>
      MovesOnly (·.id = p.workspace) toward tm.workspaces tm'.workspaces
  | .closeOthers => tm'.workspaces = tm.workspaces.filter fun ws => ws.id = p.workspace ∨ ws.isPinned
  | .closeAbove =>
      tm'.workspaces =
        match tm.workspaceIndex p.workspace with
        | some idx => (tm.workspaces.take idx).filter (·.isPinned) ++ tm.workspaces.drop idx
        | none => tm.workspaces
  | .closeBelow =>
      tm'.workspaces =
        match tm.workspaceIndex p.workspace with
        | some idx =>
            tm.workspaces.take (idx + 1) ++ (tm.workspaces.drop (idx + 1)).filter (·.isPinned)
        | none => tm.workspaces

/-- A move finds its workspace at the index that it read, or moves nothing. -/
def Pending.Finds (p : Pending) (tm : TabManager) : Prop :=
  match p.second with
  | .moveWorkspace _ fromIdx toIdx =>
      tm.workspaces[fromIdx]?.any (·.id = p.workspace) ∨ tm.workspaces.length ≤ fromIdx ∨
        tm.workspaces.length ≤ toIdx ∨ fromIdx = toIdx
  | _ => True

/-- The indices of a move go its way. -/
def Pending.Directed (p : Pending) : Prop :=
  match p.second with
  | .moveWorkspace toward fromIdx toIdx => toward.Nears fromIdx toIdx
  | _ => True

namespace ActionState

/-- The second lock of an action works on the workspace that the first one found. -/
def HitsResolved (s : ActionState) : ActionStep F → Prop
  | .finish client => ∀ p, s.pending client = some p → p.Hits s.tm (p.serve s.tm)
  | _ => True

/-- The second lock of a move finds the workspace where the first one did. -/
def FindsResolved (s : ActionState) : ActionStep F → Prop
  | .finish client => ∀ p, s.pending client = some p → p.Finds s.tm
  | _ => True

structure WellFormed (s : ActionState) : Prop where
  ids      : s.tm.WorkspaceIds
  directed : ∀ client p, s.pending client = some p → p.Directed

end ActionState

/-! ## §5. One action under its second lock. -/

variable {tm tm' : TabManager}

/-- At most one workspace has the id. -/
theorem countP_id_le_one (hids : tm.WorkspaceIds) (id : Uuid) :
    tm.workspaces.countP (·.id = id) ≤ 1 := by
  have hcount := List.nodup_iff_count_le_one.mp hids id
  rw [List.count_eq_countP, List.countP_map] at hcount
  refine le_of_eq_of_le (List.countP_congr fun ws _ => ?_) hcount
  simp

/-- The closings go by the id; a move goes by the index. -/
theorem hits_iff_finds {p : Pending} (hids : tm.WorkspaceIds) (hdir : p.Directed) :
    p.Hits tm (p.serve tm) ↔ p.Finds tm := by
  obtain ⟨wsId, second⟩ := p
  cases second with
  | moveWorkspace toward fromIdx toIdx =>
      show MovesOnly _ toward _ (tm.moveWorkspace fromIdx toIdx).1.workspaces ↔ _
      rw [TabManager.moveWorkspace_workspaces]
      exact movesOnly_moveOne_iff (List.Nodup.of_map _ hids) (countP_id_le_one hids wsId) hdir
  | closeOthers =>
      refine iff_of_true ?_ trivial
      show (tm.closeOthers wsId).1.workspaces = _
      rw [TabManager.closeOthers_workspaces]
      apply List.filter_congr
      intro ws _
      by_cases hid : ws.id = wsId
      · simp [hid]
      · simp [hid]
  | closeAbove =>
      refine iff_of_true ?_ trivial
      show (tm.closeAbove wsId).1.workspaces = match tm.workspaceIndex wsId with
        | some idx => _
        | none => _
      cases hidx : tm.workspaceIndex wsId with
      | none => rw [TabManager.closeAbove_of_absent hidx]
      | some idx => exact TabManager.closeAbove_workspaces hidx
  | closeBelow =>
      refine iff_of_true ?_ trivial
      show (tm.closeBelow wsId).1.workspaces = match tm.workspaceIndex wsId with
        | some idx => _
        | none => _
      cases hidx : tm.workspaceIndex wsId with
      | none => rw [TabManager.closeBelow_of_absent hidx]
      | some idx => exact TabManager.closeBelow_workspaces hidx

/-! ## §6. Requests that leave no id twice. -/

/-- No workspace comes, and the others stay in their order. -/
def Fewer (tm tm' : TabManager) : Prop :=
  (tm'.workspaces.map (·.id)).Sublist (tm.workspaces.map (·.id))

theorem Fewer.refl (tm : TabManager) : Fewer tm tm := List.Sublist.refl _

theorem Fewer.trans {tm'' : TabManager} (h : Fewer tm tm') (h' : Fewer tm' tm'') :
    Fewer tm tm'' := List.Sublist.trans h' h

theorem Fewer.workspaceIds (h : Fewer tm tm') (hids : tm.WorkspaceIds) : tm'.WorkspaceIds :=
  List.Sublist.nodup h hids

theorem remove_fewer {now index : Nat} {ws : Workspace}
    (h : tm.remove now index = some (ws, tm')) : Fewer tm tm' := by
  unfold TabManager.remove at h
  split at h
  · cases h
  · obtain ⟨-, rfl⟩ := Prod.mk.inj (Option.some.inj h)
    exact (List.eraseIdx_sublist _ _).map _

/-- A removal of which only the manager is used. -/
theorem removed_fewer {removed : Option (Workspace × TabManager)}
    (h : ∀ r, removed = some r → Fewer tm r.2) : Fewer tm ((removed.map (·.2)).getD tm) := by
  cases removed with
  | none => exact Fewer.refl tm
  | some r => exact h r rfl

theorem removeById_fewer (tm : TabManager) (now : Nat) (id : Uuid) :
    Fewer tm (((tm.removeById now id).map (·.2)).getD tm) := by
  apply removed_fewer
  intro r hr
  obtain ⟨index, _, hremove⟩ := Option.bind_eq_some_iff.mp hr
  exact remove_fewer hremove

theorem handleWorkspaceClose_fewer (now : Nat) (index : Option Nat) (wsId : Option Uuid)
    (tm : TabManager) : Fewer tm (handleWorkspaceClose now index wsId tm) := by
  unfold handleWorkspaceClose
  cases index with
  | some idx => exact removed_fewer fun r hr => remove_fewer hr
  | none =>
      cases wsId with
      | some wid => exact removeById_fewer tm now wid
      | none =>
          apply removed_fewer
          intro r hr
          obtain ⟨idx, _, hremove⟩ := Option.bind_eq_some_iff.mp hr
          exact remove_fewer hremove

/-- A workspace is replaced by one with the same id. -/
theorem setFound_fewer {p : Workspace → Bool} {ws : Workspace}
    (h : ∀ found, tm.workspaces.find? p = some found → ws.id = found.id) :
    Fewer tm { tm with workspaces := tm.workspaces.modifyFirst p fun _ => ws } := by
  show ((tm.workspaces.modifyFirst p fun _ => ws).map (·.id)).Sublist _
  rw [List.map_modifyFirst_of_found h]

theorem setWorkspace_fewer {wsId : Uuid} {ws : Workspace} (h : ws.id = wsId) :
    Fewer tm (tm.setWorkspace wsId ws) := by
  apply setFound_fewer
  intro found hfound
  have hid : found.id = wsId := by simpa using List.find?_some hfound
  exact h.trans hid.symm

theorem closePanel_fewer (tm : TabManager) (now : Nat) (panelId : Uuid) :
    Fewer tm (tm.closePanel now panelId).1 := by
  unfold TabManager.closePanel
  cases hf : tm.findWorkspaceWithPanel panelId with
  | none => exact Fewer.refl tm
  | some ws =>
      have hedit : Fewer tm { tm with
          workspaces := tm.workspaces.modifyFirst (panelId ∈ ·.panels)
            fun _ => (ws.removePanel panelId).1 } := by
        apply setFound_fewer
        intro found hfound
        obtain rfl : ws = found := Option.some.inj (hf.symm.trans hfound)
        exact TabManager.removePanel_id ws panelId
      dsimp only
      split
      · exact hedit.trans (removeById_fewer _ now _)
      · exact hedit

theorem dropIfEmpty_fewer (tm : TabManager) (now : Nat) (wsId : Uuid) :
    Fewer tm (tm.dropIfEmpty now wsId) := by
  unfold TabManager.dropIfEmpty
  split
  · exact removeById_fewer tm now wsId
  · exact Fewer.refl tm

theorem workspace_id {id : Uuid} {ws : Workspace} (h : tm.workspace id = some ws) : ws.id = id := by
  simpa using List.find?_some h

theorem detachPanel_id {ws detached : Workspace} {panelId : Uuid} {panel : Panel}
    (h : ws.detachPanel panelId = some (panel, detached)) : detached.id = ws.id := by
  unfold Workspace.detachPanel at h
  split at h
  · cases h
  · obtain ⟨-, rfl⟩ := Prod.mk.inj (Option.some.inj h)
    rfl

theorem detachFrom_fewer {wsId panelId : Uuid} {panel : Panel}
    (h : tm.detachFrom wsId panelId = some (panel, tm')) (now : Nat) :
    Fewer tm (tm'.dropIfEmpty now wsId) := by
  obtain ⟨ws, hws, hd⟩ := Option.bind_eq_some_iff.mp h
  obtain ⟨⟨detachedPanel, detached⟩, hdetached, heq⟩ := Option.map_eq_some_iff.mp hd
  obtain ⟨rfl, rfl⟩ := Prod.mk.inj heq
  have hid : detached.id = wsId := (detachPanel_id hdetached).trans (workspace_id hws)
  exact (setWorkspace_fewer hid).trans (dropIfEmpty_fewer _ now wsId)

theorem moves_fewer {now : Nat} {panelId target : Uuid} (h : Moves now tm panelId target tm') :
    Fewer tm tm' := by
  cases h with
  | stays => exact Fewer.refl tm
  | leaves hd => exact detachFrom_fewer hd now
  | @comes _ _ _ ws hd hw orientation =>
      have hid : ws.id = target := workspace_id hw
      exact (detachFrom_fewer hd now).trans (setWorkspace_fewer hid)

theorem move_fewer (now : Nat) (request : MoveRequest) (tm : TabManager) :
    Fewer tm (request.serve now tm).1 := by
  rcases serve_moves now tm request with h | ⟨panelId, target, -, h⟩
  · rw [h]
    exact Fewer.refl tm
  · exact moves_fewer h

theorem moveWorkspace_workspaceIds (hids : tm.WorkspaceIds) (fromIdx toIdx : Nat) :
    (tm.moveWorkspace fromIdx toIdx).1.WorkspaceIds := by
  unfold TabManager.WorkspaceIds
  rw [TabManager.moveWorkspace_workspaces]
  exact ((moveOne_perm tm.workspaces fromIdx toIdx).map _).nodup_iff.mpr hids

theorem reorderWorkspaces_workspaceIds (hids : tm.WorkspaceIds) (targetIds : List Uuid) :
    (reorderWorkspaces tm targetIds).WorkspaceIds := by
  unfold reorderWorkspaces
  dsimp only
  generalize (targetIds ++ tm.workspaces.map (·.id)).eraseDups.zipIdx = entries
  induction entries generalizing tm with
  | nil => exact hids
  | cons entry entries ih =>
      rw [List.foldl_cons]
      apply ih
      split
      · split
        · exact moveWorkspace_workspaceIds hids _ _
        · exact hids
      · exact hids

theorem insertIdx_workspaceIds {ws : Workspace} (hids : tm.WorkspaceIds)
    (hnew : ws.id ∉ tm.workspaces.map (·.id)) (index : Nat) :
    ((tm.workspaces.insertIdx index ws).map (·.id)).Nodup := by
  by_cases hle : index ≤ tm.workspaces.length
  · have hperm := (List.perm_insertIdx ws tm.workspaces hle).map (·.id)
    exact hperm.nodup_iff.mpr (List.nodup_cons.mpr ⟨hnew, hids⟩)
  · rw [List.insertIdx_of_length_lt (by omega)]
    exact hids

theorem createWorkspace_workspaceIds {ws : Workspace} (hids : tm.WorkspaceIds)
    (hnew : ws.id ∉ tm.workspaces.map (·.id)) (placement : NewWorkspacePlacement)
    (preserveSelection : Bool) :
    (createWorkspace ws placement preserveSelection tm).WorkspaceIds := by
  have hadded : (tm.addWorkspaceWithPlacement ws placement).WorkspaceIds := by
    cases placement with
    | atEnd =>
        show ((tm.workspaces ++ [ws]).map (·.id)).Nodup
        rw [List.map_append]
        exact (List.perm_append_singleton _ _).nodup_iff.mpr (List.nodup_cons.mpr ⟨hnew, hids⟩)
    | afterCurrent => exact insertIdx_workspaceIds hids hnew _
    | top => exact List.nodup_cons.mpr ⟨hnew, hids⟩
  unfold createWorkspace
  dsimp only
  split
  · unfold TabManager.selectById
    split
    · exact hadded
    · exact hadded
  · exact hadded

/-- **The ids stay distinct** under every request. -/
theorem serve_workspaceIds {request : ListRequest} (hids : tm.WorkspaceIds)
    (hfits : request.Fits tm) : (request.serve tm).WorkspaceIds := by
  cases request with
  | close now index workspace =>
      exact (handleWorkspaceClose_fewer now index workspace tm).workspaceIds hids
  | closePanel now panelId => exact (closePanel_fewer tm now panelId).workspaceIds hids
  | reorder fromIdx toIdx => exact moveWorkspace_workspaceIds hids fromIdx toIdx
  | reorderWorkspaces targetIds => exact reorderWorkspaces_workspaceIds hids targetIds
  | create workspace placement preserveSelection =>
      exact createWorkspace_workspaceIds hids hfits placement preserveSelection
  | move now request => exact (move_fewer now request tm).workspaceIds hids
  | edit tm' =>
      have hsame : tm'.workspaces.map (·.id) = tm.workspaces.map (·.id) := hfits
      show (tm'.workspaces.map (·.id)).Nodup
      rw [hsame]
      exact hids

/-! ## §7. Every action of every run. -/

theorem edit_id (action : WorkspaceAction) (ws : Workspace) : (action.edit ws).id = ws.id := by
  cases action <;> rfl

theorem secondLock_directed {wsId : Uuid} {action : WorkspaceAction} {second : SecondLock}
    (h : secondLock tm wsId action = some second) :
    Pending.Directed { workspace := wsId, second } := by
  have hidx : (tm.workspaceIndex wsId).getD 0 ≤ tm.workspaces.length - 1 := by
    cases hi : tm.workspaceIndex wsId with
    | none => exact Nat.zero_le _
    | some idx =>
        have hlt : idx < tm.workspaces.length := (List.findIdx?_eq_some_iff_getElem.mp hi).1
        show idx ≤ _
        omega
  cases action <;> simp only [secondLock, Option.some.injEq, reduceCtorEq] at h <;> subst h <;>
    simp only [Pending.Directed, Toward.Nears] <;> omega

theorem firstLock_keeps (env : V2Env F) (params : Value F) (hids : tm.WorkspaceIds) :
    (firstLock env params tm).1.WorkspaceIds ∧
      ∀ p, (firstLock env params tm).2 = some p → p.Directed := by
  unfold firstLock
  split
  · next wsId action _ =>
      split
      · next second hsecond =>
          refine ⟨hids, fun p hp => ?_⟩
          obtain rfl := Option.some.inj hp
          exact secondLock_directed hsecond
      · refine ⟨?_, fun p hp => nomatch hp⟩
        show ((tm.workspaces.modifyFirst _ action.edit).map (·.id)).Nodup
        rw [List.map_modifyFirst _ _ _ (edit_id action)]
        exact hids
  · exact ⟨hids, fun p hp => nomatch hp⟩

theorem Pending.serve_workspaceIds (p : Pending) (hids : tm.WorkspaceIds) :
    (p.serve tm).WorkspaceIds := by
  obtain ⟨wsId, second⟩ := p
  cases second with
  | moveWorkspace toward fromIdx toIdx => exact moveWorkspace_workspaceIds hids fromIdx toIdx
  | closeOthers => exact ((eraseAll_sublist _ _).map _).nodup hids
  | closeAbove =>
      show (tm.closeAbove wsId).1.WorkspaceIds
      unfold TabManager.closeAbove
      split
      · exact hids
      · exact ((eraseAll_sublist _ _).map _).nodup hids
  | closeBelow =>
      show (tm.closeBelow wsId).1.WorkspaceIds
      unfold TabManager.closeBelow
      split
      · exact hids
      · exact ((eraseAll_sublist _ _).map _).nodup hids

namespace ActionState

variable {env : V2Env F} {s s' : ActionState}

theorem step_wellFormed {a : ActionStep F} (hwf : s.WellFormed) (h : s.step env a = some s') :
    s'.WellFormed := by
  cases a with
  | begin client params =>
      cases hpend : s.pending client with
      | some p => simp [step, hpend] at h
      | none =>
          simp only [step, hpend, Option.some.injEq] at h
          subst h
          obtain ⟨hids, hdir⟩ := firstLock_keeps env params hwf.ids
          refine ⟨hids, fun other p hp => ?_⟩
          dsimp only at hp
          by_cases hclient : other = client
          · rw [hclient, Function.update_self] at hp
            exact hdir p hp
          · rw [Function.update_of_ne hclient] at hp
            exact hwf.directed other p hp
  | finish client =>
      obtain ⟨p, _, rfl⟩ := Option.map_eq_some_iff.mp h
      refine ⟨p.serve_workspaceIds hwf.ids, fun other q hq => ?_⟩
      dsimp only at hq
      by_cases hclient : other = client
      · rw [hclient, Function.update_self] at hq
        cases hq
      · rw [Function.update_of_ne hclient] at hq
        exact hwf.directed other q hq
  | other request =>
      by_cases hfits : request.Fits s.tm
      · simp only [step, if_pos hfits, Option.some.injEq] at h
        subst h
        exact ⟨serve_workspaceIds hwf.ids hfits, hwf.directed⟩
      · simp [step, if_neg hfits] at h

/-- **Whose workspace an action works on**: in a run every action works on the workspace
that it found under its first lock exactly when every move still finds that workspace at
the index it read, or moves nothing. -/
theorem actions_hit_resolved_iff (env : V2Env F) {tm : TabManager} (hids : tm.WorkspaceIds)
    (run : List (ActionStep F)) :
    EveryStep (step env) HitsResolved { tm } run ↔
      EveryStep (step env) FindsResolved { tm } run := by
  refine everyStep_congr WellFormed (fun s a s' => step_wellFormed) ?_
    ⟨hids, fun client p hp => nomatch hp⟩
  intro s a hwf
  cases a with
  | begin client params => exact Iff.rfl
  | finish client =>
      refine forall_congr' fun p => forall_congr' fun hp => ?_
      exact hits_iff_finds hwf.ids (hwf.directed client p hp)
  | other request => exact Iff.rfl

end ActionState

/-- The second of three is selected. -/
def threeWorkspaces : TabManager where
  workspaces    := [.new 1 11 "/", .new 2 12 "/", .new 3 13 "/"]
  selectedIndex := some 1

def moveUpParams : Value Int := .obj [("action", .str "move_up")]

/-- Undisturbed, the selected workspace moves up. -/
theorem actions_hit_resolved_alone :
    EveryStep (ActionState.step sampleV2Env) ActionState.HitsResolved { tm := threeWorkspaces }
      [.begin 0 moveUpParams, .finish 0] := by
  refine (ActionState.actions_hit_resolved_iff sampleV2Env (by
    unfold TabManager.WorkspaceIds; decide) _).mpr ⟨trivial, fun s hs => ⟨?_, fun _ _ => trivial⟩⟩
  obtain rfl := Option.some.inj hs
  intro p hp
  obtain rfl := Option.some.inj hp
  exact .inl (by decide)

/-- Another client's reorder comes between the locks: the third workspace is moved up in
place of the second, which goes down. -/
theorem move_up_moves_another :
    threeWorkspaces.WorkspaceIds ∧
      ¬ EveryStep (ActionState.step sampleV2Env) ActionState.HitsResolved { tm := threeWorkspaces }
        [.begin 0 moveUpParams, .other (.reorder 0 2), .finish 0] := by
  refine ⟨by unfold TabManager.WorkspaceIds; decide, fun h => ?_⟩
  have hfinish := ((h.2 _ rfl).2 _ rfl).1
  have hmoved : MovesOnly _ _ _ _ := hfinish _ rfl
  exact absurd hmoved.nears (by decide)

end Jmux.Socket
