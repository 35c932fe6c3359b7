/-
  Jmux.Socket.ClosedTabs — closed tabs can be reopened.

  A tab is closed by `close_panel` (`pane.close`, the close buttons) or by the
  `close_*` actions of `tab.action`.  `Workspace::remove_panel` records the panel
  for reopening; the list goes with its workspace.

  Main results:
    * `reopenTabs_spec`          — the closed panels of a workspace come back, most
                                    recently closed first.
    * `closed_tabs_reopenable_iff` — after a request every panel that is gone is on the
                                    list of its workspace, or in a closed workspace,
                                    exactly when `close_panel` left another panel, or
                                    the action closed none.
-/
import Jmux.Socket.WorkspaceAction
import Jmux.Socket.Representation

namespace Jmux.Socket

open Jmux.Lib Jmux.Model

/-! ## §1. Reopening. -/

/-- What a reopened tab shows. -/
structure PanelContent where
  panelType    : PanelType
  directory    : Option String
  command      : Option String
  markdownFile : Option String
  browserUrl   : Option String
  deriving DecidableEq

def contentOf (panel : Panel) : PanelContent where
  panelType    := panel.panelType
  directory    := panel.directory
  command      := panel.command
  markdownFile := panel.markdownFile
  browserUrl   := panel.browserUrl

/-- `reopen_last_closed_panel`, once for each of the fresh ids. -/
def reopenTabs (draws : List Uuid) (ws : Workspace) : Workspace :=
  draws.foldl (fun ws newId => (ws.reopenLastClosedPanel newId).1) ws

/-- The calls bring the closed panels back, from the last one closed. -/
def BringsBack (ws : Workspace) : Prop :=
  ∀ draws : List Uuid, draws.Nodup → (∀ id ∈ draws, id ∉ ws.panels) →
    draws.length ≤ ws.closedPanels.length →
      draws.map (fun id => ((reopenTabs draws ws).panels.lookup id).map contentOf) =
        (ws.closedPanels.reverse.take draws.length).map fun panel => some (contentOf panel)

theorem reopen_of_concat {ws : Workspace} {older : List Panel} {panel : Panel}
    (h : ws.closedPanels = older ++ [panel]) (newId : Uuid) :
    (ws.reopenLastClosedPanel newId).1.panels =
        ws.panels.insert newId
          { panel with id := newId, pendingScrollback := none, ttyName := none } ∧
      (ws.reopenLastClosedPanel newId).1.closedPanels = older := by
  unfold Workspace.reopenLastClosedPanel
  rw [h, List.getLast?_concat, List.dropLast_concat]
  exact ⟨rfl, rfl⟩

theorem reopen_of_nil {ws : Workspace} (h : ws.closedPanels = []) (newId : Uuid) :
    (ws.reopenLastClosedPanel newId).1 = ws := by
  unfold Workspace.reopenLastClosedPanel
  rw [h]
  rfl

/-- Other ids are not touched. -/
theorem reopenTabs_lookup {draws : List Uuid} {id : Uuid} (hid : id ∉ draws) (ws : Workspace) :
    (reopenTabs draws ws).panels.lookup id = ws.panels.lookup id := by
  induction draws generalizing ws with
  | nil => rfl
  | cons newId draws ih =>
      have hne : id ≠ newId := fun h => hid (h ▸ List.mem_cons_self)
      have hrest : id ∉ draws := fun h => hid (List.mem_cons_of_mem newId h)
      show (reopenTabs draws (ws.reopenLastClosedPanel newId).1).panels.lookup id = _
      rw [ih hrest]
      rcases List.eq_nil_or_concat' ws.closedPanels with hnil | ⟨older, panel, hcat⟩
      · rw [reopen_of_nil hnil]
      · rw [(reopen_of_concat hcat newId).1, AList.lookup_insert_ne hne]

theorem reopenTabs_spec (ws : Workspace) : BringsBack ws := by
  intro draws
  induction draws generalizing ws with
  | nil =>
      intro _ _ _
      simp
  | cons newId draws ih =>
      intro hnd hfresh hlen
      obtain ⟨hnew, hnd'⟩ := List.nodup_cons.mp hnd
      rcases List.eq_nil_or_concat' ws.closedPanels with hnil | ⟨older, panel, hcat⟩
      · rw [hnil] at hlen
        cases hlen
      · obtain ⟨hpanels, hclosed⟩ := reopen_of_concat hcat newId
        have hfresh' : ∀ id ∈ draws, id ∉ (ws.reopenLastClosedPanel newId).1.panels := by
          intro id hid hmem
          rw [hpanels, AList.mem_insert] at hmem
          rcases hmem with rfl | hmem
          · exact hnew hid
          · exact hfresh id (List.mem_cons_of_mem newId hid) hmem
        have hlen' : draws.length ≤ (ws.reopenLastClosedPanel newId).1.closedPanels.length := by
          rw [hclosed]
          rw [hcat, List.length_append, List.length_singleton, List.length_cons] at hlen
          omega
        have hrest := ih _ hnd' hfresh' hlen'
        rw [hclosed] at hrest
        -- the first call takes the last panel, the others the ones before
        rw [hcat, List.reverse_append, List.reverse_singleton, List.singleton_append,
          List.length_cons, List.take_succ_cons, List.map_cons, List.map_cons]
        congr 1
        show ((reopenTabs draws _).panels.lookup newId).map contentOf = _
        rw [reopenTabs_lookup hnew, hpanels, AList.lookup_insert]
        rfl

/-! ## §2. Where the closed panels are. -/

/-- The panels that one workspace had and the other has not. -/
def lost (ws ws' : Workspace) : List Panel :=
  (ws.panels.keys.filter (· ∉ ws'.panels)).filterMap ws.panels.lookup

/-- A closed workspace has the panel, as one of its own or on its list. -/
def Holds (ws : Workspace) (panel : Panel) : Prop :=
  panel ∈ ws.closedPanels ∨ ∃ id, ws.panels.lookup id = some panel

/-- The lost panels are the last ones on the list, the oldest dropped beyond the cap. -/
def RecordsLost (ws ws' : Workspace) : Prop :=
  ∃ order : List Panel, order.Perm (lost ws ws') ∧
    ws'.closedPanels = order.foldl Workspace.recordClosed ws.closedPanels

/-- Every panel of every workspace is there or can be reopened: on the list of its
workspace if that is left, or in a workspace on the closed stack. -/
def Reopenable (tm tm' : TabManager) : Prop :=
  ∀ ws ∈ tm.workspaces,
    (∃ ws' ∈ tm'.workspaces, ws'.id = ws.id ∧ RecordsLost ws ws' ∧ BringsBack ws') ∨
      ∃ entry ∈ tm'.closedStack, ∀ id panel, ws.panels.lookup id = some panel →
        Holds entry.workspace panel

/-- Ids are drawn at random: a closed panel shares its id with none that is open. -/
structure TabIds (tm : TabManager) : Prop where
  distinct : DistinctIds tm
  closed   : ∀ ws ∈ tm.workspaces, ∀ panel ∈ ws.closedPanels, panel.id ∉ panelIdsOf tm.workspaces
  stack    : ∀ entry ∈ tm.closedStack, ∀ panel, Holds entry.workspace panel →
    panel.id ∉ panelIdsOf tm.workspaces

/-- The requests that close tabs; `seen` is the manager in which `tab.action` found the
panel, and `newId` the id for a duplicate. -/
inductive CloseRequest
  | closePanel (panelId : Uuid)
  | tabAction (params : TabActionParams) (newId : Uuid) (seen : TabManager)

def CloseRequest.serve (now : Nat) (tm : TabManager) : CloseRequest → TabManager
  | closePanel panelId => (tm.closePanel now panelId).1
  | tabAction params newId seen => (handleTabAction now params newId seen tm).1

/-- The tabs of the pane that an action closes. -/
def closedBy (panelId : Uuid) (paneIds : List Uuid) : TabAction → List Uuid
  | .closeLeft => paneIds.take ((paneIds.idxOf? panelId).getD 0)
  | .closeRight => paneIds.drop ((paneIds.idxOf? panelId).getD 0 + 1)
  | .closeOthers => paneIds.filter (· ≠ panelId)
  | _ => []

/-- `close_panel` leaves another panel in the workspace; a `close_*` action finds
nothing to close. -/
def CloseRequest.Spares (tm : TabManager) : CloseRequest → Prop
  | closePanel panelId => ∀ ws, tm.findWorkspaceWithPanel panelId = some ws →
      ∃ other ∈ ws.panels, other ≠ panelId
  | tabAction params _ seen =>
      ∀ panelId name action ws paneIds, resolvePanelId seen params.panel = .ok panelId →
        params.action = some name → TabAction.parse name = some action →
          tm.findWorkspaceWithPanel panelId = some ws →
            ws.layout.findPaneWithPanelReadonly panelId = some paneIds →
              ∀ pid ∈ closedBy panelId paneIds action, pid ∉ ws.panels

/-! ## §3. One workspace. -/

variable {tm tm' : TabManager} {ws ws' : Workspace}

theorem mem_lost {panel : Panel} :
    panel ∈ lost ws ws' ↔ ∃ id, ws.panels.lookup id = some panel ∧ id ∉ ws'.panels := by
  unfold lost
  simp only [List.mem_filterMap, List.mem_filter, decide_eq_true_eq]
  constructor
  · rintro ⟨id, ⟨_, hgone⟩, hpanel⟩
    exact ⟨id, hpanel, hgone⟩
  · rintro ⟨id, hpanel, hgone⟩
    exact ⟨id, ⟨AList.mem_keys.mp (AList.mem_of_lookup hpanel), hgone⟩, hpanel⟩

theorem lost_eq_nil_iff : lost ws ws' = [] ↔ ∀ id ∈ ws.panels, id ∈ ws'.panels := by
  rw [List.eq_nil_iff_forall_not_mem]
  constructor
  · intro h id hid
    obtain ⟨panel, hpanel⟩ := Option.isSome_iff_exists.mp (AList.lookup_isSome.mpr hid)
    by_contra hgone
    exact h panel (mem_lost.mpr ⟨id, hpanel, hgone⟩)
  · intro h panel hlost
    obtain ⟨id, hpanel, hgone⟩ := mem_lost.mp hlost
    exact hgone (h id (AList.mem_of_lookup hpanel))

/-- With one panel erased, that panel is lost. -/
theorem lost_erase {panelId : Uuid} {panel : Panel} (hpanel : ws.panels.lookup panelId = some panel)
    (h : ws'.panels = ws.panels.erase panelId) : lost ws ws' = [panel] := by
  have hkeys : ws.panels.keys.filter (· ∉ ws'.panels) = [panelId] := by
    have hone := List.count_eq_one_of_mem ws.panels.keys_nodup
      (AList.mem_keys.mp (AList.mem_of_lookup hpanel))
    have hsame : ws.panels.keys.filter (· ∉ ws'.panels) =
        ws.panels.keys.filter (· == panelId) := by
      apply List.filter_congr
      intro id hid
      rw [h]
      by_cases hsame : id = panelId
      · simp [hsame, AList.mem_erase]
      · simp [hsame, AList.mem_erase, AList.mem_keys.mpr hid]
    rw [hsame, List.filter_beq, hone]
    rfl
  unfold lost
  rw [hkeys, List.filterMap_cons, hpanel]
  rfl

/-- The last recorded panel is on the list. -/
theorem mem_recordClosed (closed : List Panel) (panel : Panel) :
    panel ∈ Workspace.recordClosed closed panel := by
  unfold Workspace.recordClosed
  dsimp only
  split
  · rw [List.drop_append_of_le_length]
    · exact List.mem_append_right _ List.mem_cons_self
    · rw [List.length_append, List.length_singleton, closedPanelsCap]
      omega
  · exact List.mem_append_right _ List.mem_cons_self

theorem RecordsLost.refl (ws : Workspace) : RecordsLost ws ws :=
  ⟨[], by rw [lost_eq_nil_iff.mpr fun _ h => h], rfl⟩

/-- Nothing lost and nothing recorded. -/
theorem records_of_none (hkeys : ∀ id ∈ ws.panels, id ∈ ws'.panels)
    (hclosed : ws'.closedPanels = ws.closedPanels) : RecordsLost ws ws' :=
  ⟨[], by rw [lost_eq_nil_iff.mpr hkeys], hclosed⟩

/-- What is lost without a record is not found on the list. -/
theorem not_records {panelId : Uuid} (hkeyed : Keyed ws.panels) (hmem : panelId ∈ ws.panels)
    (hgone : panelId ∉ ws'.panels) (hclosed : ws'.closedPanels = ws.closedPanels)
    (hfresh : ∀ panel ∈ ws.closedPanels, panel.id ∉ ws.panels) : ¬ RecordsLost ws ws' := by
  rintro ⟨order, hperm, hlist⟩
  obtain ⟨panel, hpanel⟩ := Option.isSome_iff_exists.mp (AList.lookup_isSome.mpr hmem)
  have hin : panel ∈ order := hperm.mem_iff.mpr (mem_lost.mpr ⟨panelId, hpanel, hgone⟩)
  rcases List.eq_nil_or_concat' order with rfl | ⟨first, last, rfl⟩
  · cases hin
  · -- the last of them is on the list, under the id of a panel that was open
    have hlast : last ∈ ws.closedPanels := by
      rw [← hclosed, hlist, List.foldl_append]
      exact mem_recordClosed _ _
    obtain ⟨id, hid, _⟩ := mem_lost.mp (hperm.mem_iff.mp (List.mem_append_right _ List.mem_cons_self))
    apply hfresh last hlast
    rw [hkeyed id last hid]
    exact AList.mem_of_lookup hid

/-! ## §4. One request. -/

section Request

variable {as bs left : List Workspace} {panelId : Uuid}

theorem mem_panelIdsOf {workspaces : List Workspace} (hws : ws ∈ workspaces)
    (hid : panelId ∈ ws.panels) : panelId ∈ panelIdsOf workspaces :=
  List.mem_flatMap.mpr ⟨ws, hws, AList.mem_keys.mp hid⟩

/-- A request that changes one workspace, or takes it out. -/
theorem reopenable_iff (hids : TabIds tm) (hws : tm.workspaces = as ++ ws :: bs)
    (hmem : panelId ∈ ws.panels) (hleft : tm'.workspaces = as ++ left ++ bs)
    (hsame : ∀ x ∈ left, x.id = ws.id) (hstack : tm'.closedStack = tm.closedStack) :
    Reopenable tm tm' ↔ ∃ ws' ∈ left, RecordsLost ws ws' := by
  have hin : ws ∈ tm.workspaces := by
    rw [hws]
    exact List.mem_append_right _ List.mem_cons_self
  have hother : ws.id ∉ as.map (·.id) ++ bs.map (·.id) := by
    have hnd := hids.distinct.workspaceIds
    rw [hws, List.map_append, List.map_cons] at hnd
    exact (List.nodup_cons.mp (List.nodup_middle.mp hnd)).1
  constructor
  · intro h
    rcases h ws hin with ⟨ws', hws', hid, hrec, _⟩ | ⟨entry, hentry, hholds⟩
    · rw [hleft] at hws'
      refine ⟨ws', ?_, hrec⟩
      rcases List.mem_append.mp hws' with hws' | hws'
      · rcases List.mem_append.mp hws' with hws' | hws'
        · exact absurd (List.mem_append_left _ (List.mem_map.mpr ⟨ws', hws', hid⟩)) hother
        · exact hws'
      · exact absurd (List.mem_append_right _ (List.mem_map.mpr ⟨ws', hws', hid⟩)) hother
    · -- a panel that was open is in no closed workspace
      obtain ⟨panel, hpanel⟩ := Option.isSome_iff_exists.mp (AList.lookup_isSome.mpr hmem)
      rw [hstack] at hentry
      have hfresh := hids.stack entry hentry panel (hholds panelId panel hpanel)
      rw [hids.distinct.keyed ws hin panelId panel hpanel] at hfresh
      exact absurd (mem_panelIdsOf hin hmem) hfresh
  · rintro ⟨ws', hws', hrec⟩ w hw
    left
    rw [hleft]
    rw [hws] at hw
    rcases List.mem_append.mp hw with hw | hw
    · exact ⟨w, by simp [hw], rfl, RecordsLost.refl w, reopenTabs_spec w⟩
    · rcases List.mem_cons.mp hw with rfl | hw
      · exact ⟨ws', by simp [hws'], hsame ws' hws', hrec, reopenTabs_spec ws'⟩
      · exact ⟨w, by simp [hw], rfl, RecordsLost.refl w, reopenTabs_spec w⟩

/-- The workspace that holds the panel is written back. -/
def edited (tm : TabManager) (panelId : Uuid) (ws' : Workspace) : TabManager :=
  { tm with workspaces := tm.workspaces.modifyFirst (panelId ∈ ·.panels) fun _ => ws' }

theorem exists_edited (hids : TabIds tm) (hfound : tm.findWorkspaceWithPanel panelId = some ws)
    (ws' : Workspace) :
    ∃ as bs, tm.workspaces = as ++ ws :: bs ∧ panelId ∈ ws.panels ∧
      (∀ x ∈ as, x.id ≠ ws.id) ∧
        (edited tm panelId ws').workspaces = as ++ [ws'] ++ bs := by
  obtain ⟨hp, as, bs, hws, has⟩ := List.find?_eq_some_iff_append.mp hfound
  refine ⟨as, bs, hws, by simpa using hp, ?_, ?_⟩
  · have hnd := hids.distinct.workspaceIds
    rw [hws, List.map_append, List.map_cons] at hnd
    intro x hx hid
    exact (List.nodup_cons.mp (List.nodup_middle.mp hnd)).1
      (List.mem_append_left _ (List.mem_map.mpr ⟨x, hx, hid⟩))
  · show (tm.workspaces.modifyFirst (panelId ∈ ·.panels) fun _ => ws') = _
    rw [hws, List.append_assoc]
    exact List.modifyFirst_append_cons (by simpa using has) hp

/-- An empty workspace goes unrecorded. -/
theorem removeById_empty (now : Nat) (hws : tm.workspaces = as ++ [ws'] ++ bs)
    (has : ∀ x ∈ as, x.id ≠ ws'.id) (hempty : ws'.isEmpty = true) :
    (((tm.removeById now ws'.id).map (·.2)).getD tm).workspaces = as ++ [] ++ bs ∧
      (((tm.removeById now ws'.id).map (·.2)).getD tm).closedStack = tm.closedStack := by
  have hidx : tm.workspaces.findIdx? (·.id = ws'.id) = some as.length := by
    rw [hws, List.append_assoc, List.findIdx?_append,
      List.findIdx?_eq_none_iff.mpr (by simpa using has)]
    simp [List.findIdx?_cons]
  have hget : tm.workspaces[as.length]? = some ws' := by
    rw [hws]
    simp
  unfold TabManager.removeById TabManager.remove
  rw [hidx, Option.bind_some, hget]
  constructor
  · show tm.workspaces.eraseIdx as.length = as ++ [] ++ bs
    rw [hws, List.append_assoc, List.eraseIdx_append_of_length_le (Nat.le_refl _)]
    simp
  · show (if ws'.isEmpty then tm.closedStack else _) = _
    rw [if_pos hempty]

/-- ... and removed if that leaves it empty. -/
def writtenBack (now : Nat) (tm : TabManager) (panelId : Uuid) (ws' : Workspace) : TabManager :=
  if ws'.isEmpty then
    (((edited tm panelId ws').removeById now ws'.id).map (·.2)).getD (edited tm panelId ws')
  else edited tm panelId ws'

theorem reopenable_edited_iff (hids : TabIds tm)
    (hfound : tm.findWorkspaceWithPanel panelId = some ws) (hid : ws'.id = ws.id) :
    Reopenable tm (edited tm panelId ws') ↔ RecordsLost ws ws' := by
  obtain ⟨as, bs, hws, hmem, _, hedit⟩ := exists_edited hids hfound ws'
  have hsame : ∀ x ∈ [ws'], x.id = ws.id := by simpa using hid
  rw [reopenable_iff hids hws hmem hedit hsame rfl]
  simp

theorem reopenable_writtenBack_iff (hids : TabIds tm) (now : Nat)
    (hfound : tm.findWorkspaceWithPanel panelId = some ws) (hid : ws'.id = ws.id) :
    Reopenable tm (writtenBack now tm panelId ws') ↔
      ws'.isEmpty = false ∧ RecordsLost ws ws' := by
  unfold writtenBack
  cases hempty : ws'.isEmpty with
  | true =>
      obtain ⟨as, bs, hws, hmem, has, hedit⟩ := exists_edited hids hfound ws'
      obtain ⟨hleft, hstack⟩ := removeById_empty now hedit (by rwa [hid]) hempty
      rw [if_pos rfl, reopenable_iff hids hws hmem hleft (fun x hx => nomatch hx) hstack]
      simp
  | false =>
      rw [if_neg Bool.false_ne_true, reopenable_edited_iff hids hfound hid]
      simp

/-! ## §5. `close_panel`. -/

theorem closePanel_eq_writtenBack (now : Nat) (hfound : tm.findWorkspaceWithPanel panelId = some ws)
    (hmem : panelId ∈ ws.panels) :
    (tm.closePanel now panelId).1 = writtenBack now tm panelId (ws.removePanel panelId).1 := by
  obtain ⟨panel, hpanel⟩ := Option.isSome_iff_exists.mp (AList.lookup_isSome.mpr hmem)
  have hremoved : (ws.removePanel panelId).2 = true := by
    unfold Workspace.removePanel
    rw [hpanel]
  unfold TabManager.closePanel writtenBack edited
  rw [hfound]
  simp [hremoved]

/-- Another panel is left exactly when there was one. -/
theorem isEmpty_erase_iff (h : ws'.panels = ws.panels.erase panelId) :
    ws'.isEmpty = false ↔ ∃ other ∈ ws.panels, other ≠ panelId := by
  rw [Workspace.isEmpty_eq_false, h]
  constructor
  · rintro ⟨other, hother⟩
    obtain ⟨hne, hin⟩ := AList.mem_erase.mp hother
    exact ⟨other, hin, hne⟩
  · rintro ⟨other, hin, hne⟩
    exact ⟨other, AList.mem_erase.mpr ⟨hne, hin⟩⟩

theorem closePanel_reopenable_iff (hids : TabIds tm) (now : Nat) (panelId : Uuid) :
    Reopenable tm (tm.closePanel now panelId).1 ↔ (CloseRequest.closePanel panelId).Spares tm := by
  cases hfound : tm.findWorkspaceWithPanel panelId with
  | none =>
      have hsame : (tm.closePanel now panelId).1 = tm := by
        unfold TabManager.closePanel
        rw [hfound]
      rw [hsame]
      refine iff_of_true ?_ ?_
      · intro ws hws
        exact .inl ⟨ws, hws, rfl, RecordsLost.refl ws, reopenTabs_spec ws⟩
      · intro ws hws
        rw [hfound] at hws
        cases hws
  | some ws =>
      have hmem : panelId ∈ ws.panels := by simpa using List.find?_some hfound
      obtain ⟨panel, hpanel⟩ := Option.isSome_iff_exists.mp (AList.lookup_isSome.mpr hmem)
      have hpanels : (ws.removePanel panelId).1.panels = ws.panels.erase panelId := by
        unfold Workspace.removePanel
        rw [hpanel]
      have hclosed : (ws.removePanel panelId).1.closedPanels =
          Workspace.recordClosed ws.closedPanels panel := by
        unfold Workspace.removePanel
        rw [hpanel]
      have hrec : RecordsLost ws (ws.removePanel panelId).1 :=
        ⟨[panel], by rw [lost_erase hpanel hpanels], hclosed⟩
      rw [closePanel_eq_writtenBack now hfound hmem,
        reopenable_writtenBack_iff hids now hfound (TabManager.removePanel_id ws panelId),
        and_iff_left hrec, isEmpty_erase_iff hpanels]
      constructor
      · intro h w hw
        obtain rfl : ws = w := Option.some.inj (hfound.symm.trans hw)
        exact h
      · intro h
        exact h ws hfound

/-! ## §6. `tab.action`. -/

/-- The loop erases the panels and records none. -/
theorem closeTab_foldl (toClose : List Uuid) (ws : Workspace) :
    (toClose.foldl closeTab ws).id = ws.id ∧
      (toClose.foldl closeTab ws).closedPanels = ws.closedPanels ∧
        ∀ id, id ∈ (toClose.foldl closeTab ws).panels ↔ id ∈ ws.panels ∧ id ∉ toClose := by
  induction toClose generalizing ws with
  | nil => simp
  | cons pid toClose ih =>
      obtain ⟨hid, hclosed, hmem⟩ := ih (closeTab ws pid)
      refine ⟨hid, hclosed, fun id => (hmem id).trans ?_⟩
      have hone : id ∈ (closeTab ws pid).panels ↔ id ≠ pid ∧ id ∈ ws.panels := AList.mem_erase
      rw [hone, List.mem_cons]
      tauto

theorem closeTabs_spec (ws : Workspace) (panelId : Uuid) (toClose : List Uuid) :
    (closeTabs ws panelId toClose).id = ws.id ∧
      (closeTabs ws panelId toClose).closedPanels = ws.closedPanels ∧
        ∀ id, id ∈ (closeTabs ws panelId toClose).panels ↔ id ∈ ws.panels ∧ id ∉ toClose := by
  have hloop := closeTab_foldl toClose ws
  unfold closeTabs
  dsimp only
  split
  · split
    · exact hloop
    · exact hloop
  · exact hloop

/-- An action that closes the tabs `toClose` of the workspace of `panelId`. -/
theorem closeTabs_reopenable_iff (hids : TabIds tm) (now : Nat)
    (hfound : tm.findWorkspaceWithPanel panelId = some ws) (toClose : List Uuid) :
    Reopenable tm (writtenBack now tm panelId (closeTabs ws panelId toClose)) ↔
      ∀ pid ∈ toClose, pid ∉ ws.panels := by
  obtain ⟨hid, hclosed, hpanels⟩ := closeTabs_spec ws panelId toClose
  have hin : ws ∈ tm.workspaces := List.mem_of_find?_eq_some hfound
  have hmem : panelId ∈ ws.panels := by simpa using List.find?_some hfound
  rw [reopenable_writtenBack_iff hids now hfound hid]
  constructor
  · rintro ⟨_, hrec⟩ pid hpid hopen
    refine not_records (hids.distinct.keyed ws hin) hopen ?_ hclosed ?_ hrec
    · exact fun h => ((hpanels pid).mp h).2 hpid
    · intro panel hpanel hpanel'
      exact hids.closed ws hin panel hpanel (mem_panelIdsOf hin hpanel')
  · intro hnone
    have hall : ∀ id ∈ ws.panels, id ∈ (closeTabs ws panelId toClose).panels :=
      fun id hid => (hpanels id).mpr ⟨hid, fun hpid => hnone id hpid hid⟩
    exact ⟨Workspace.isEmpty_eq_false.mpr ⟨panelId, hall panelId hmem⟩,
      records_of_none hall hclosed⟩

/-- An action that closes no tab. -/
theorem edited_reopenable (hids : TabIds tm) (hfound : tm.findWorkspaceWithPanel panelId = some ws)
    (hid : ws'.id = ws.id) (hall : ∀ id ∈ ws.panels, id ∈ ws'.panels)
    (hclosed : ws'.closedPanels = ws.closedPanels) :
    Reopenable tm (edited tm panelId ws') :=
  (reopenable_edited_iff hids hfound hid).mpr (records_of_none hall hclosed)

theorem reopenable_refl (tm : TabManager) : Reopenable tm tm :=
  fun ws hws => .inl ⟨ws, hws, rfl, RecordsLost.refl ws, reopenTabs_spec ws⟩

/-- The actions that close no tab leave every tab there. -/
theorem tabAction_keeps {action : TabAction} (hleft : action ≠ .closeLeft)
    (hright : action ≠ .closeRight) (hothers : action ≠ .closeOthers) (ws : Workspace)
    (panelId : Uuid) (title : Option String) (newId : Uuid) :
    (tabAction ws panelId title newId action).1.id = ws.id ∧
      (∀ id ∈ ws.panels, id ∈ (tabAction ws panelId title newId action).1.panels) ∧
        (tabAction ws panelId title newId action).1.closedPanels = ws.closedPanels := by
  have hedit : ∀ f : Panel → Panel, (editPanel ws panelId f).id = ws.id ∧
      (∀ id ∈ ws.panels, id ∈ (editPanel ws panelId f).panels) ∧
        (editPanel ws panelId f).closedPanels = ws.closedPanels :=
    fun f => ⟨rfl, fun id hid => (mem_modify_iff ws.panels panelId id f).mpr hid, rfl⟩
  cases action with
  | closeLeft => exact absurd rfl hleft
  | closeRight => exact absurd rfl hright
  | closeOthers => exact absurd rfl hothers
  | rename =>
      cases title with
      | none => exact ⟨rfl, fun _ hid => hid, rfl⟩
      | some title => exact hedit _
  | duplicate =>
      exact ⟨rfl, fun id hid => (AList.mem_insert _).mpr (.inr hid), rfl⟩
  | clearName => exact hedit _
  | pin => exact hedit _
  | unpin => exact hedit _
  | markRead => exact hedit _
  | markUnread => exact hedit _

/-- What a `close_*` action makes of the manager. -/
theorem closeAction_reopenable_iff (hids : TabIds tm) (now : Nat)
    (hfound : tm.findWorkspaceWithPanel panelId = some ws) (action : TabAction)
    {select : Nat → List Uuid → List Uuid}
    (hselect : ∀ paneIds, select ((paneIds.idxOf? panelId).getD 0) paneIds =
      closedBy panelId paneIds action) :
    Reopenable tm (writtenBack now tm panelId (closeInPane ws panelId select).1) ↔
      ∀ paneIds, ws.layout.findPaneWithPanelReadonly panelId = some paneIds →
        ∀ pid ∈ closedBy panelId paneIds action, pid ∉ ws.panels := by
  unfold closeInPane
  cases hpane : ws.layout.findPaneWithPanelReadonly panelId with
  | none =>
      refine iff_of_true ?_ (fun paneIds h => nomatch h)
      have hmem : panelId ∈ ws.panels := by simpa using List.find?_some hfound
      exact (reopenable_writtenBack_iff hids now hfound rfl).mpr
        ⟨Workspace.isEmpty_eq_false.mpr ⟨panelId, hmem⟩, RecordsLost.refl ws⟩
  | some paneIds =>
      dsimp only
      rw [hselect, closeTabs_reopenable_iff hids now hfound]
      constructor
      · rintro h paneIds' ⟨rfl⟩
        exact h
      · intro h
        exact h paneIds rfl

theorem tabAction_reopenable_iff (hids : TabIds tm) (now : Nat) (params : TabActionParams)
    (newId : Uuid) (seen : TabManager) :
    Reopenable tm (handleTabAction now params newId seen tm).1 ↔
      (CloseRequest.tabAction params newId seen).Spares tm := by
  unfold handleTabAction
  cases hpanel : resolvePanelId seen params.panel with
  | error resp =>
      refine iff_of_true (reopenable_refl tm) ?_
      intro panelId name action ws paneIds h
      rw [hpanel] at h
      cases h
  | ok panelId =>
      dsimp only
      cases haction : params.action with
      | none =>
          refine iff_of_true (reopenable_refl tm) ?_
          intro panelId name action ws paneIds _ h
          rw [haction] at h
          cases h
      | some name =>
          dsimp only
          cases hfound : tm.findWorkspaceWithPanel panelId with
          | none =>
              refine iff_of_true (reopenable_refl tm) ?_
              intro panelId' name action ws paneIds h _ _ h'
              obtain rfl : panelId = panelId' := Except.ok.inj (hpanel.symm.trans h)
              rw [hfound] at h'
              cases h'
          | some ws =>
              dsimp only
              cases hparse : TabAction.parse name with
              | none =>
                  refine iff_of_true (reopenable_refl tm) ?_
                  intro panelId' name' action ws paneIds _ h h'
                  obtain rfl : name = name' := Option.some.inj (haction.symm.trans h)
                  rw [hparse] at h'
                  cases h'
              | some action =>
                  dsimp only
                  have hspares : (CloseRequest.tabAction params newId seen).Spares tm ↔
                      ∀ paneIds, ws.layout.findPaneWithPanelReadonly panelId = some paneIds →
                        ∀ pid ∈ closedBy panelId paneIds action, pid ∉ ws.panels := by
                    constructor
                    · intro h paneIds hpane
                      exact h panelId name action ws paneIds hpanel haction hparse hfound hpane
                    · intro h panelId' name' action' ws' paneIds hpanel' haction' hparse' hfound'
                      obtain rfl : panelId = panelId' := Except.ok.inj (hpanel.symm.trans hpanel')
                      obtain rfl : name = name' := Option.some.inj (haction.symm.trans haction')
                      obtain rfl : action = action' := Option.some.inj (hparse.symm.trans hparse')
                      obtain rfl : ws = ws' := Option.some.inj (hfound.symm.trans hfound')
                      exact h paneIds
                  rw [hspares]
                  by_cases hcloses : action = .closeLeft ∨ action = .closeRight ∨
                      action = .closeOthers
                  · rcases hcloses with rfl | rfl | rfl
                    · exact closeAction_reopenable_iff hids now hfound .closeLeft fun _ => rfl
                    · exact closeAction_reopenable_iff hids now hfound .closeRight fun _ => rfl
                    · exact closeAction_reopenable_iff hids now hfound .closeOthers fun _ => rfl
                  · rw [not_or, not_or] at hcloses
                    obtain ⟨hleft, hright, hothers⟩ := hcloses
                    obtain ⟨hid, hall, hclosed⟩ :=
                      tabAction_keeps hleft hright hothers ws panelId params.title newId
                    have hdrop : ∀ tm' ws', dropClosed now tm' ws' action = tm' := by
                      intro tm' ws'
                      unfold dropClosed
                      split
                      · exact absurd rfl hleft
                      · exact absurd rfl hright
                      · exact absurd rfl hothers
                      · rfl
                    have hnone : ∀ paneIds, closedBy panelId paneIds action = [] := by
                      intro paneIds
                      unfold closedBy
                      split
                      · exact absurd rfl hleft
                      · exact absurd rfl hright
                      · exact absurd rfl hothers
                      · rfl
                    rw [hdrop]
                    refine iff_of_true (edited_reopenable hids hfound hid hall hclosed) ?_
                    intro paneIds _ pid hpid
                    rw [hnone] at hpid
                    cases hpid

end Request

/-- **Closed tabs can be reopened**: after a request every panel is there, or on the list
of its workspace and comes back, or in a workspace on the closed stack, exactly when
`close_panel` leaves the workspace another panel, or `tab.action` closes no tab. -/
theorem closed_tabs_reopenable_iff (hids : TabIds tm) (now : Nat) (request : CloseRequest) :
    Reopenable tm (request.serve now tm) ↔ request.Spares tm := by
  cases request with
  | closePanel panelId => exact closePanel_reopenable_iff hids now panelId
  | tabAction params newId seen => exact tabAction_reopenable_iff hids now params newId seen

/-- Two tabs in one pane. -/
def twoTabsWorkspace : Workspace :=
  { Workspace.new 42 43 "/home/u" with
    panels := (AList.singleton 43 (.newTerminal 43)).insert 44 (.newNotes 44 "/home/u/notes.md")
    layout := .paneNode [43, 44] (some 43) }

def twoTabs : TabManager where
  workspaces    := [twoTabsWorkspace]
  selectedIndex := some 0

theorem twoTabs_ids : TabIds twoTabs where
  distinct := by
    refine ⟨by decide, by decide, ?_⟩
    intro ws hws
    obtain rfl := List.mem_singleton.mp hws
    exact (Keyed.singleton (.newTerminal 43)).insert (.newNotes 44 "/home/u/notes.md")
  closed := by
    intro ws hws panel hpanel
    obtain rfl := List.mem_singleton.mp hws
    cases hpanel
  stack := fun entry hentry => nomatch hentry

/-- One of two tabs is closed with `close_panel` and can be reopened. -/
theorem closed_tab_reopenable :
    Reopenable twoTabs ((CloseRequest.closePanel 44).serve 0 twoTabs) := by
  refine (closed_tabs_reopenable_iff twoTabs_ids 0 (.closePanel 44)).mpr ?_
  intro ws hws
  obtain rfl := Option.some.inj hws
  exact ⟨43, by decide, by decide⟩

def closeOthersParams : TabActionParams where
  panel  := .given 43
  action := some "close_others"
  title  := none

/-- The other tab of the pane is on no list after `close_others`, and the last tab of a
workspace is gone with it. -/
theorem closed_tabs_lost :
    TabIds twoTabs ∧
      ¬ Reopenable twoTabs
        ((CloseRequest.tabAction closeOthersParams 45 twoTabs).serve 0 twoTabs) ∧
      ¬ Reopenable sampleTabs ((CloseRequest.closePanel 43).serve 0 sampleTabs) := by
  refine ⟨twoTabs_ids, ?_, ?_⟩
  · intro h
    rcases h _ List.mem_cons_self with ⟨ws', hws', _, hrec, _⟩ | ⟨entry, hentry, _⟩
    · obtain rfl := List.mem_singleton.mp hws'
      have hopen : 44 ∈ twoTabsWorkspace.panels := by decide
      exact absurd hrec (not_records (twoTabs_ids.distinct.keyed _ List.mem_cons_self) hopen
        (by decide) rfl (fun panel hpanel => nomatch hpanel))
    · cases hentry
  · intro h
    rcases h _ List.mem_cons_self with ⟨ws', hws', _⟩ | ⟨entry, hentry, _⟩
    · cases hws'
    · cases hentry

end Jmux.Socket
