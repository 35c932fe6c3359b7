/-
  Jmux.Socket.MovePanel — moving a panel to another workspace.

  `surface.move`, `pane.join` and `move_panel_to_workspace` detach the panel,
  drop its workspace if that was its last panel, and insert it into the target.
  The last two know that the target exists before they detach; `surface.move`
  finds out afterwards.

  Main results:
    * `depart`, `arrive`      — what the two halves do to the panels of the manager.
    * `move_conserves_panels` — no panel is lost and an error changes nothing,
                                exactly when `surface.move` is not asked to move a
                                panel to a workspace that does not exist.
-/
import Jmux.Socket.Surface
import Jmux.Socket.Pane
import Jmux.Model.WellFormed
import Mathlib.Data.Multiset.Defs

namespace Jmux.Socket

open Jmux.Model

/-! ## §1. The panels of a manager. -/

/-- The panel ids over all workspaces. -/
def panelIdsOf (workspaces : List Workspace) : List Uuid := workspaces.flatMap (·.panels.keys)

/-- How many workspaces hold the panel. -/
def holders (tm : TabManager) (panelId : Uuid) : Nat := tm.workspaces.countP (panelId ∈ ·.panels)

/-- Ids are drawn at random: no two workspaces and no two panels share one, and
every panel lies under its own. -/
structure DistinctIds (tm : TabManager) : Prop where
  workspaceIds : (tm.workspaces.map (·.id)).Nodup
  panelIds     : (panelIdsOf tm.workspaces).Nodup
  keyed        : ∀ ws ∈ tm.workspaces, Keyed ws.panels

theorem panelIdsOf_append (as bs : List Workspace) :
    panelIdsOf (as ++ bs) = panelIdsOf as ++ panelIdsOf bs := List.flatMap_append

theorem panelIdsOf_cons (ws : Workspace) (bs : List Workspace) :
    panelIdsOf (ws :: bs) = ws.panels.keys ++ panelIdsOf bs := rfl

/-- Each workspace that holds the panel lists it once. -/
theorem count_panelIdsOf (panelId : Uuid) (workspaces : List Workspace) :
    (panelIdsOf workspaces).count panelId = workspaces.countP (panelId ∈ ·.panels) := by
  induction workspaces with
  | nil => rfl
  | cons ws rest ih =>
      rw [panelIdsOf_cons, List.count_append, ih, List.countP_cons, Nat.add_comm]
      congr 1
      by_cases h : panelId ∈ ws.panels
      · simp [h, List.count_eq_one_of_mem ws.panels.keys_nodup (AList.mem_keys.mp h)]
      · simp [h, List.count_eq_zero_of_not_mem (mt AList.mem_keys.mpr h)]

/-- Taking one panel out of a workspace in the middle, the workspace kept or not. -/
theorem panelIdsOf_take {as bs : List Workspace} {ws : Workspace} {panelId : Uuid}
    {left : List Workspace} (h : panelId ∈ ws.panels)
    (hleft : panelIdsOf left = (ws.panels.erase panelId).keys) :
    (panelIdsOf (as ++ ws :: bs)).Perm (panelId :: panelIdsOf (as ++ left ++ bs)) := by
  have hkeys : ws.panels.keys.Perm (panelId :: panelIdsOf left) := by
    rw [hleft, AList.keys_erase]
    exact List.perm_cons_erase (AList.mem_keys.mp h)
  simp only [panelIdsOf_append, panelIdsOf_cons, List.append_assoc]
  exact ((hkeys.append_right _).append_left _).trans List.perm_middle

/-- Putting one panel into a workspace in the middle that does not hold it. -/
theorem panelIdsOf_put {as bs : List Workspace} {ws ws' : Workspace} {panel : Panel}
    (h : panel.id ∉ ws.panels) (hws' : ws'.panels = ws.panels.insert panel.id panel) :
    (panelIdsOf (as ++ ws' :: bs)).Perm (panel.id :: panelIdsOf (as ++ ws :: bs)) := by
  have hkeys : ws'.panels.keys = panel.id :: ws.panels.keys := by
    rw [hws', AList.keys_insert, List.erase_of_not_mem (mt AList.mem_keys.mpr h)]
  simp only [panelIdsOf_append, panelIdsOf_cons, hkeys, List.cons_append]
  exact List.perm_middle

/-! ## §2. The panel leaves its workspace. -/

theorem detachPanel_eq {ws : Workspace} (hk : Keyed ws.panels) {panelId : Uuid}
    (h : panelId ∈ ws.panels) :
    ∃ panel ws', ws.detachPanel panelId = some (panel, ws') ∧ panel.id = panelId ∧
      ws'.id = ws.id ∧ ws'.panels = ws.panels.erase panelId := by
  obtain ⟨panel, hpanel⟩ := Option.isSome_iff_exists.mp (AList.lookup_isSome.mpr h)
  unfold Workspace.detachPanel
  rw [hpanel]
  exact ⟨panel, _, rfl, hk panelId panel hpanel, rfl, rfl⟩

/-- Removing by id takes the first workspace with the id out. -/
theorem removeById_workspaces {tm : TabManager} {as bs : List Workspace} {ws : Workspace}
    (hws : tm.workspaces = as ++ ws :: bs) (has : ∀ x ∈ as, x.id ≠ ws.id) (now : Nat) :
    ∃ removed tm', tm.removeById now ws.id = some (removed, tm') ∧ tm'.workspaces = as ++ bs := by
  have hidx : tm.workspaces.findIdx? (·.id = ws.id) = some as.length := by
    rw [hws, List.findIdx?_append, List.findIdx?_eq_none_iff.mpr (by simpa using has)]
    simp [List.findIdx?_cons]
  have hget : tm.workspaces[as.length]? = some ws := by
    rw [hws]
    simp
  unfold TabManager.removeById TabManager.remove
  rw [hidx, Option.bind_some, hget]
  refine ⟨ws, _, rfl, ?_⟩
  show tm.workspaces.eraseIdx as.length = as ++ bs
  rw [hws, List.eraseIdx_append_of_length_le (Nat.le_refl _)]
  simp

/-- A workspace list around the workspace that holds a panel. -/
theorem exists_around {tm : TabManager} (hd : DistinctIds tm) {panelId : Uuid} {source : Workspace}
    (hf : tm.findWorkspaceWithPanel panelId = some source) :
    ∃ as bs, tm.workspaces = as ++ source :: bs ∧ panelId ∈ source.panels ∧
      ∀ x ∈ as, x.id ≠ source.id := by
  obtain ⟨hp, as, bs, hws, _⟩ := List.find?_eq_some_iff_append.mp hf
  refine ⟨as, bs, hws, by simpa using hp, fun x hx hid => ?_⟩
  have hnd := hd.workspaceIds
  rw [hws, List.map_append, List.map_cons, List.nodup_append'] at hnd
  exact hnd.2.2 (hid ▸ List.mem_map_of_mem hx) List.mem_cons_self

/-- The lookup of another workspace does not see the one in the middle. -/
theorem find_other {as bs left : List Workspace} {id target : Uuid} (hne : id ≠ target)
    (hleft : ∀ ws ∈ left, ws.id = id) :
    (as ++ left ++ bs).find? (·.id = target) =
      (as.find? (·.id = target)).or (bs.find? (·.id = target)) := by
  have hnone : left.find? (·.id = target) = none := by
    refine List.find?_eq_none.mpr fun ws hws => ?_
    simpa [hleft ws hws] using hne
  rw [List.find?_append, List.find?_append, hnone, Option.or_none]

/-- **The panel leaves**: it is handed out, the panels of the manager are those
that stay and it, and no other workspace is touched. -/
theorem depart {tm : TabManager} (hd : DistinctIds tm) {panelId : Uuid} {source : Workspace}
    (hf : tm.findWorkspaceWithPanel panelId = some source) (now : Nat) :
    ∃ panel tm', tm.detachFrom source.id panelId = some (panel, tm') ∧ panel.id = panelId ∧
      (panelIdsOf tm.workspaces).Perm
        (panelId :: panelIdsOf (tm'.dropIfEmpty now source.id).workspaces) ∧
      ∀ target, source.id ≠ target →
        (tm'.dropIfEmpty now source.id).workspace target = tm.workspace target := by
  obtain ⟨as, bs, hws, hmem, has⟩ := exists_around hd hf
  have hskip : as.find? (·.id = source.id) = none :=
    List.find?_eq_none.mpr (by simpa using has)
  have hfind : tm.workspace source.id = some source := by
    rw [TabManager.workspace, hws, List.find?_append, hskip]
    simp
  have hk : Keyed source.panels := hd.keyed source (hws ▸ by simp)
  obtain ⟨panel, ws', hdet, hid, hwsid, hpanels⟩ := detachPanel_eq hk hmem
  have hset : (tm.setWorkspace source.id ws').workspaces = as ++ ws' :: bs := by
    rw [TabManager.setWorkspace, hws]
    exact List.modifyFirst_append_cons (by simpa using has) (by simp)
  -- whether the source is dropped or not, what is left of it is `left`
  obtain ⟨left, hleft, hids, hdrop⟩ : ∃ left : List Workspace, (∀ ws ∈ left, ws.id = source.id) ∧
      panelIdsOf left = (source.panels.erase panelId).keys ∧
      ((tm.setWorkspace source.id ws').dropIfEmpty now source.id).workspaces = as ++ left ++ bs := by
    have hfind' : (tm.setWorkspace source.id ws').workspace source.id = some ws' := by
      rw [TabManager.workspace, hset, List.find?_append, hskip]
      simp [hwsid]
    cases hemp : ws'.isEmpty with
    | true =>
        have has' : ∀ x ∈ as, x.id ≠ ws'.id := by rwa [hwsid]
        obtain ⟨_, tm'', hrm, hws''⟩ := removeById_workspaces hset has' now
        rw [hwsid] at hrm
        refine ⟨[], by simp, ?_, ?_⟩
        · rw [← hpanels]
          exact (List.isEmpty_iff.mp hemp).symm
        · rw [TabManager.dropIfEmpty, hfind', Option.any_some, hemp, if_pos rfl, hrm]
          simpa using hws''
    | false =>
        refine ⟨[ws'], by simpa using hwsid, ?_, ?_⟩
        · rw [← hpanels]
          simp [panelIdsOf]
        · rw [TabManager.dropIfEmpty, hfind', Option.any_some, hemp]
          simpa using hset
  refine ⟨panel, tm.setWorkspace source.id ws', ?_, hid, ?_, ?_⟩
  · rw [TabManager.detachFrom, hfind, Option.bind_some, hdet]
    rfl
  · rw [hdrop, hws]
    exact panelIdsOf_take hmem hids
  · intro target hne
    have hold : tm.workspaces = as ++ [source] ++ bs := by simpa using hws
    rw [TabManager.workspace, hdrop, TabManager.workspace, hold, find_other hne hleft,
        find_other hne (by simp)]

/-! ## §3. The panel comes into the target. -/

/-- **The panel comes**: the panels of the manager are those before and it. -/
theorem arrive {tm : TabManager} {target : Uuid} {ws : Workspace}
    (hw : tm.workspace target = some ws) {panel : Panel}
    (hn : panel.id ∉ panelIdsOf tm.workspaces) (orientation : SplitOrientation) :
    (panelIdsOf (tm.setWorkspace target (ws.insertPanel panel orientation)).workspaces).Perm
      (panel.id :: panelIdsOf tm.workspaces) := by
  obtain ⟨hid, as, bs, hws, has⟩ := List.find?_eq_some_iff_append.mp hw
  have hset : (tm.setWorkspace target (ws.insertPanel panel orientation)).workspaces
      = as ++ ws.insertPanel panel orientation :: bs := by
    rw [TabManager.setWorkspace, hws]
    exact List.modifyFirst_append_cons (by simpa using has) hid
  rw [hset, hws]
  refine panelIdsOf_put (fun hmem => hn ?_) rfl
  exact List.mem_flatMap.mpr ⟨ws, by rw [hws]; simp, AList.mem_keys.mp hmem⟩

/-- Both halves together. -/
theorem transfer {tm tm' : TabManager} {target : Uuid} {ws : Workspace} {panel : Panel}
    (hd : DistinctIds tm) (hw : tm'.workspace target = some ws)
    (hperm : (panelIdsOf tm.workspaces).Perm (panel.id :: panelIdsOf tm'.workspaces))
    (orientation : SplitOrientation) :
    (panelIdsOf (tm'.setWorkspace target (ws.insertPanel panel orientation)).workspaces).Perm
      (panelIdsOf tm.workspaces) := by
  have hn : panel.id ∉ panelIdsOf tm'.workspaces :=
    (List.nodup_cons.mp (hperm.nodup_iff.mp hd.panelIds)).1
  exact (arrive hw hn orientation).trans hperm.symm

/-! ## §4. The requests. -/

/-- The requests that move a panel to another workspace, and the direct call of
the sidebar.  `seen` is the manager in which the panel was resolved. -/
inductive MoveRequest
  | surfaceMove (params : SurfaceMoveParams) (seen : TabManager)
  | paneJoin (params : PaneJoinParams)
  | panelMoveToWorkspace (params : MoveToWorkspaceParams) (seen : TabManager)
  | movePanelToWorkspace (panelId target : Uuid)

/-- A handler's outcome: the manager, and whether the answer is an error. -/
def answered (r : TabManager × Response) : TabManager × Bool := (r.1, r.2.isError)

/-- The manager afterwards, and whether the request failed. -/
def MoveRequest.serve (now : Nat) (tm : TabManager) : MoveRequest → TabManager × Bool
  | surfaceMove params seen => answered (handleSurfaceMove now params seen tm)
  | paneJoin params => answered (handlePaneJoin now params tm)
  | panelMoveToWorkspace params seen => answered (handlePanelMoveToWorkspace now params seen tm)
  | movePanelToWorkspace panelId target =>
      let moved := tm.movePanelToWorkspace now panelId target
      (moved.1, moved.2.isNone)

/-- No panel is lost or doubled, and a failed request changes nothing. -/
structure MoveKeeps (before : TabManager) (served : TabManager × Bool) : Prop where
  conserved : (panelIdsOf served.1.workspaces : Multiset Uuid) = panelIdsOf before.workspaces
  placed    : ∀ id, holders before id = 1 → holders served.1 id = 1
  atomic    : served.2 = true → served.1 = before

/-- `surface.move` finds the panel and is given a workspace that does not exist. -/
def MoveRequest.TargetMissing (tm : TabManager) : MoveRequest → Prop
  | surfaceMove params seen => ∃ panelId target, resolvePanelId seen params.panel = .ok panelId ∧
      params.workspace = .given target ∧ (tm.findWorkspaceWithPanel panelId).isSome ∧
        tm.workspace target = none
  | _ => False

theorem MoveKeeps.refused (tm : TabManager) (failed : Bool) : MoveKeeps tm (tm, failed) :=
  ⟨rfl, fun _ h => h, fun _ => rfl⟩

theorem MoveKeeps.moved {tm tm' : TabManager}
    (h : (panelIdsOf tm'.workspaces).Perm (panelIdsOf tm.workspaces)) :
    MoveKeeps tm (tm', false) where
  conserved := Multiset.coe_eq_coe.mpr h
  placed id hone := by
    rw [holders, ← count_panelIdsOf] at hone ⊢
    rw [h.count_eq]
    exact hone
  atomic h := by cases h

/-- Where a panel is missing afterwards, nothing was kept. -/
theorem not_moveKeeps {tm tm' : TabManager} {panelId : Uuid} {failed : Bool}
    (h : (panelIdsOf tm.workspaces).Perm (panelId :: panelIdsOf tm'.workspaces)) :
    ¬ MoveKeeps tm (tm', failed) := by
  intro hk
  have hlen : (panelIdsOf tm'.workspaces).length = (panelIdsOf tm.workspaces).length :=
    (Multiset.coe_eq_coe.mp hk.conserved).length_eq
  rw [h.length_eq, List.length_cons] at hlen
  omega

/-! ## §5. What each of them does. -/

variable {tm : TabManager}

/-- What a move of the panel can make of the manager: nothing, or the panel leaves
its workspace and, where the target is still there, comes into it. -/
inductive Moves (now : Nat) (tm : TabManager) (panelId target : Uuid) : TabManager → Prop
  | stays : Moves now tm panelId target tm
  | leaves {wsId : Uuid} {panel : Panel} {tm' : TabManager}
      (hd : tm.detachFrom wsId panelId = some (panel, tm')) :
      Moves now tm panelId target (tm'.dropIfEmpty now wsId)
  | comes {wsId : Uuid} {panel : Panel} {tm' : TabManager} {ws : Workspace}
      (hd : tm.detachFrom wsId panelId = some (panel, tm'))
      (hw : (tm'.dropIfEmpty now wsId).workspace target = some ws)
      (orientation : SplitOrientation) :
      Moves now tm panelId target
        ((tm'.dropIfEmpty now wsId).setWorkspace target (ws.insertPanel panel orientation))

/-- The panel that a request names, and the target. -/
inductive MoveRequest.Names (tm : TabManager) (panelId target : Uuid) : MoveRequest → Prop
  | surfaceMove {params : SurfaceMoveParams} {seen : TabManager}
      (hp : resolvePanelId seen params.panel = .ok panelId) (ht : params.workspace = .given target) :
      Names tm panelId target (.surfaceMove params seen)
  | paneJoin {params : PaneJoinParams}
      (hp : params.panel = .given panelId) (ht : tm.selectedId = some target) :
      Names tm panelId target (.paneJoin params)
  | panelMoveToWorkspace {params : MoveToWorkspaceParams} {seen : TabManager}
      (hp : resolvePanelId seen params.panel = .ok panelId) (ht : params.workspace = .given target) :
      Names tm panelId target (.panelMoveToWorkspace params seen)
  | movePanelToWorkspace : Names tm panelId target (.movePanelToWorkspace panelId target)

theorem movePanelToWorkspace_moves (now : Nat) (tm : TabManager) (panelId target : Uuid) :
    Moves now tm panelId target (tm.movePanelToWorkspace now panelId target).1 := by
  unfold TabManager.movePanelToWorkspace
  split
  · exact .stays
  · split
    · exact .stays
    · split
      · exact .stays
      · split
        · exact .stays
        next panel tm' hd =>
          dsimp only
          split
          · exact .leaves hd
          next ws hw => exact .comes hd hw .horizontal

theorem handlePanelMoveToWorkspace_moves (now : Nat) (params : MoveToWorkspaceParams)
    (seen tm : TabManager) :
    (handlePanelMoveToWorkspace now params seen tm).1 = tm ∨
      ∃ panelId target, MoveRequest.Names tm panelId target (.panelMoveToWorkspace params seen) ∧
        Moves now tm panelId target (handlePanelMoveToWorkspace now params seen tm).1 := by
  unfold handlePanelMoveToWorkspace
  split
  · exact .inl rfl
  next panelId hp =>
    split
    · exact .inl rfl
    · exact .inl rfl
    next target ht =>
      split
      · exact .inl rfl
      · have hmove := movePanelToWorkspace_moves now tm panelId target
        refine .inr ⟨panelId, target, .panelMoveToWorkspace hp ht, ?_⟩
        split
        · next hm => rwa [hm] at hmove
        · next hm => rwa [hm] at hmove

theorem surfaceMove_moves (now : Nat) (panelId : Uuid) (params : SurfaceMoveParams)
    (tm : TabManager) :
    (surfaceMove now panelId params tm).1 = tm ∨
      ∃ target, params.workspace = .given target ∧
        Moves now tm panelId target (surfaceMove now panelId params tm).1 := by
  unfold surfaceMove
  split
  · exact .inl rfl
  · exact .inl rfl
  next target ht =>
    refine .inr ⟨target, ht, ?_⟩
    split
    · exact .stays
    · split
      · exact .stays
      · split
        · exact .stays
        · split
          · exact .stays
          next panel tm' hd =>
            dsimp only
            split
            · exact .leaves hd
            next ws hw => exact .comes hd hw (parseOrientation params.orientation)

theorem handlePaneJoin_moves (now : Nat) (params : PaneJoinParams) (tm : TabManager) :
    (handlePaneJoin now params tm).1 = tm ∨
      ∃ panelId target, MoveRequest.Names tm panelId target (.paneJoin params) ∧
        Moves now tm panelId target (handlePaneJoin now params tm).1 := by
  unfold handlePaneJoin
  split
  · exact .inl rfl
  · exact .inl rfl
  next panelId hp =>
    split
    · exact .inl rfl
    next target ht =>
      refine .inr ⟨panelId, target, .paneJoin hp ht, ?_⟩
      split
      · exact .stays
      · split
        · exact .stays
        · split
          · exact .stays
          · split
            · exact .stays
            next panel tm' hd =>
              dsimp only
              split
              · exact .leaves hd
              next ws hw => exact .comes hd hw (parseOrientation params.orientation)

/-- A request changes nothing, or moves the panel that it names. -/
theorem serve_moves (now : Nat) (tm : TabManager) (request : MoveRequest) :
    (request.serve now tm).1 = tm ∨
      ∃ panelId target, request.Names tm panelId target ∧
        Moves now tm panelId target (request.serve now tm).1 := by
  cases request with
  | surfaceMove params seen =>
      show (handleSurfaceMove now params seen tm).1 = tm ∨ ∃ panelId target, _ ∧
        Moves now tm panelId target (handleSurfaceMove now params seen tm).1
      unfold handleSurfaceMove
      split
      · exact .inl rfl
      next panelId hp =>
        rcases surfaceMove_moves now panelId params tm with h | ⟨target, ht, h⟩
        · exact .inl h
        · exact .inr ⟨panelId, target, .surfaceMove hp ht, h⟩
  | paneJoin params => exact handlePaneJoin_moves now params tm
  | panelMoveToWorkspace params seen => exact handlePanelMoveToWorkspace_moves now params seen tm
  | movePanelToWorkspace panelId target =>
      exact .inr ⟨panelId, target, .movePanelToWorkspace,
        movePanelToWorkspace_moves now tm panelId target⟩

/-- The workspace that holds a panel is found by its id. -/
theorem workspace_of_holder {panelId : Uuid} {source : Workspace}
    (hf : tm.findWorkspaceWithPanel panelId = some source) :
    ∃ ws, tm.workspace source.id = some ws :=
  Option.isSome_iff_exists.mp (List.find?_isSome.mpr
    ⟨source, List.mem_of_find?_eq_some hf, by simp⟩)

theorem surfaceMove_iff (hd : DistinctIds tm) (now : Nat) (panelId : Uuid)
    (params : SurfaceMoveParams) :
    MoveKeeps tm (answered (surfaceMove now panelId params tm)) ↔
      ¬ ∃ target, params.workspace = .given target ∧
        (tm.findWorkspaceWithPanel panelId).isSome ∧ tm.workspace target = none := by
  unfold surfaceMove
  cases hw : params.workspace with
  | absent => exact iff_of_true (MoveKeeps.refused tm true) (by simp)
  | malformed => exact iff_of_true (MoveKeeps.refused tm true) (by simp)
  | given target =>
      dsimp only
      cases hf : tm.findWorkspaceWithPanel panelId with
      | none => exact iff_of_true (MoveKeeps.refused tm true) (by simp)
      | some source =>
          obtain ⟨found, hfound⟩ := workspace_of_holder hf
          by_cases hsame : source.id = target
          · have hex : tm.workspace target = some found := hsame ▸ hfound
            dsimp only
            rw [if_pos hsame]
            exact iff_of_true (MoveKeeps.refused tm true) (by simp [hex])
          · obtain ⟨panel, tm', hdet, rfl, hperm, hother⟩ := depart hd hf now
            have htarget := hother target hsame
            cases hex : tm.workspace target with
            | none =>
                rw [hex] at htarget
                simp only [hsame, hfound, hdet, htarget, if_false]
                exact iff_of_false (not_moveKeeps hperm)
                  (not_not.mpr ⟨target, rfl, rfl, hex⟩)
            | some ws =>
                rw [hex] at htarget
                simp only [hsame, hfound, hdet, htarget, if_false]
                refine iff_of_true (MoveKeeps.moved (transfer hd htarget hperm _)) ?_
                rintro ⟨target', htarget', _, hmissing⟩
                cases htarget'
                rw [hex] at hmissing
                cases hmissing

theorem movePanelToWorkspace_keeps (hd : DistinctIds tm) (now : Nat) (panelId target : Uuid) :
    MoveKeeps tm ((tm.movePanelToWorkspace now panelId target).1,
      (tm.movePanelToWorkspace now panelId target).2.isNone) := by
  unfold TabManager.movePanelToWorkspace
  cases hf : tm.findWorkspaceWithPanel panelId with
  | none => exact MoveKeeps.refused tm true
  | some source =>
      by_cases hsame : source.id = target
      · simpa [hsame] using MoveKeeps.refused tm true
      · obtain ⟨panel, tm', hdet, rfl, hperm, hother⟩ := depart hd hf now
        have htarget := hother target hsame
        cases hex : tm.workspace target with
        | none => simpa [hsame] using MoveKeeps.refused tm true
        | some ws =>
            rw [hex] at htarget
            simp only [hsame, hdet, htarget, if_false]
            exact MoveKeeps.moved (transfer hd htarget hperm _)

theorem handlePanelMoveToWorkspace_keeps (hd : DistinctIds tm) (now : Nat)
    (params : MoveToWorkspaceParams) (seen : TabManager) :
    MoveKeeps tm (answered (handlePanelMoveToWorkspace now params seen tm)) := by
  unfold handlePanelMoveToWorkspace
  split
  · next resp _ => exact MoveKeeps.refused tm resp.isError
  · next panelId _ =>
      split
      · exact MoveKeeps.refused tm true
      · exact MoveKeeps.refused tm true
      · next target _ =>
          split
          · exact MoveKeeps.refused tm true
          · have hk := movePanelToWorkspace_keeps hd now panelId target
            split
            · next hm =>
                rw [hm] at hk
                exact hk
            · next hm =>
                rw [hm] at hk
                exact hk

/-- The selected workspace is found by its id. -/
theorem workspace_of_selected {selectedId : Uuid} (hs : tm.selectedId = some selectedId) :
    ∃ ws, tm.workspace selectedId = some ws := by
  obtain ⟨ws, hsel, rfl⟩ := Option.map_eq_some_iff.mp hs
  obtain ⟨i, _, hget⟩ := Option.bind_eq_some_iff.mp hsel
  exact Option.isSome_iff_exists.mp (List.find?_isSome.mpr
    ⟨ws, List.mem_of_getElem? hget, by simp⟩)

theorem handlePaneJoin_keeps (hd : DistinctIds tm) (now : Nat) (params : PaneJoinParams) :
    MoveKeeps tm (answered (handlePaneJoin now params tm)) := by
  unfold handlePaneJoin
  cases params.panel with
  | absent => exact MoveKeeps.refused tm true
  | malformed => exact MoveKeeps.refused tm true
  | given panelId =>
      dsimp only
      cases hs : tm.selectedId with
      | none => exact MoveKeeps.refused tm true
      | some selectedWsId =>
          dsimp only
          cases hf : tm.findWorkspaceWithPanel panelId with
          | none => exact MoveKeeps.refused tm true
          | some source =>
              obtain ⟨found, hfound⟩ := workspace_of_holder hf
              by_cases hsame : source.id = selectedWsId
              · dsimp only
                rw [if_pos hsame]
                exact MoveKeeps.refused tm true
              · obtain ⟨panel, tm', hdet, rfl, hperm, hother⟩ := depart hd hf now
                obtain ⟨ws, hws⟩ := workspace_of_selected hs
                have htarget := hother selectedWsId hsame
                rw [hws] at htarget
                simp only [hsame, hfound, hdet, htarget, if_false]
                exact MoveKeeps.moved (transfer hd htarget hperm _)

/-- **No panel is lost** by a request, and a failed one changes nothing, exactly
when it is not a `surface.move` to a workspace that does not exist. -/
theorem move_conserves_panels (hd : DistinctIds tm) (now : Nat) (request : MoveRequest) :
    MoveKeeps tm (request.serve now tm) ↔ ¬ request.TargetMissing tm := by
  cases request with
  | surfaceMove params seen =>
      show MoveKeeps tm (answered (handleSurfaceMove now params seen tm)) ↔ _
      unfold handleSurfaceMove
      cases hr : resolvePanelId seen params.panel with
      | error resp =>
          refine iff_of_true (MoveKeeps.refused tm resp.isError) ?_
          rintro ⟨panelId, target, hok, _⟩
          rw [hr] at hok
          cases hok
      | ok panelId =>
          refine (surfaceMove_iff hd now panelId params).trans (not_congr ?_)
          constructor
          · rintro ⟨target, hgiven, hfound, hmissing⟩
            exact ⟨panelId, target, hr, hgiven, hfound, hmissing⟩
          · rintro ⟨panelId', target, hok, hgiven, hfound, hmissing⟩
            obtain rfl : panelId = panelId' := Except.ok.inj (hr.symm.trans hok)
            exact ⟨target, hgiven, hfound, hmissing⟩
  | paneJoin params => exact iff_of_true (handlePaneJoin_keeps hd now params) not_false
  | panelMoveToWorkspace params seen =>
      exact iff_of_true (handlePanelMoveToWorkspace_keeps hd now params seen) not_false
  | movePanelToWorkspace panelId target =>
      exact iff_of_true (movePanelToWorkspace_keeps hd now panelId target) not_false

/-! ## §6. Two workspaces of one panel. -/

def twoWorkspaces : TabManager where
  workspaces    := [.new 10 1 "/", .new 20 2 "/"]
  selectedIndex := some 0

theorem twoWorkspaces_distinct : DistinctIds twoWorkspaces where
  workspaceIds := by decide
  panelIds     := by decide
  keyed ws hws := by
    rcases List.mem_cons.mp hws with rfl | hws
    · exact (Workspace.new_wellFormed 10 1 "/").keyed
    · obtain rfl := List.mem_singleton.mp hws
      exact (Workspace.new_wellFormed 20 2 "/").keyed

/-- Panel 1 to a workspace 99: the answer is an error, and the panel is gone,
with its workspace. -/
theorem move_loses_panel :
    let served := (MoveRequest.surfaceMove ⟨.given 1, .given 99, none⟩ twoWorkspaces).serve 0
      twoWorkspaces
    DistinctIds twoWorkspaces ∧ served.2 = true ∧
      served.1.workspaces.map (·.id) = [20] ∧ panelIdsOf served.1.workspaces = [2] ∧
        ¬ MoveKeeps twoWorkspaces served := by
  refine ⟨twoWorkspaces_distinct, by decide, by decide, by decide, fun hk => ?_⟩
  have hsame := congrArg (panelIdsOf ·.workspaces) (hk.atomic (by decide))
  revert hsame
  decide

/-- Panel 1 to workspace 20, which exists. -/
theorem move_conserves_panels_existing :
    MoveKeeps twoWorkspaces
      ((MoveRequest.surfaceMove ⟨.given 1, .given 20, none⟩ twoWorkspaces).serve 0
        twoWorkspaces) := by
  refine (move_conserves_panels twoWorkspaces_distinct 0 _).mpr ?_
  rintro ⟨panelId, target, _, hgiven, _, hmissing⟩
  cases hgiven
  revert hmissing
  decide

end Jmux.Socket
