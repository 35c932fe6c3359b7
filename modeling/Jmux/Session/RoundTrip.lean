/-
  Jmux.Session.RoundTrip — the list of workspaces over save and restore.

  Main results:
    * `pruneMonitors_eq`        — the saved layout is the layout without its
                                   monitor panes, in whatever order they go.
    * `workspaces_survive`      — window by window the workspaces come back in
                                   their order, in their groups, with their layouts.
-/
import Jmux.Lib.Buckets
import Jmux.Model.WellFormed
import Jmux.Session.Groups
import Jmux.Session.Restart
import Mathlib.Algebra.Order.Ring.Unbundled.Rat
import Mathlib.Tactic.NormNum

namespace Jmux.Model

open Jmux.Lib

/-! ## §1. Layouts without some panels. -/

namespace LayoutNode

/-- The layout without the panels that are gone: the others stay where they are,
empty panes collapse, and only a pane whose selected tab is gone selects another. -/
def pruned (gone : Uuid → Bool) : LayoutNode → LayoutNode
  | paneNode panelIds selected =>
      let kept := panelIds.filter fun id => !gone id
      paneNode kept (if selected.any gone then kept.head? else selected)
  | splitNode orientation divider first second =>
      collapse orientation divider (first.pruned gone) (second.pruned gone)

/-- The selected tab of every pane is one of its tabs. -/
def Selects : LayoutNode → Prop
  | paneNode panelIds selected => ∀ id, selected = some id → id ∈ panelIds
  | splitNode _ _ first second => first.Selects ∧ second.Selects

/-- All dividers are between 0 and 1. -/
def DividersIn : LayoutNode → Prop
  | paneNode _ _ => True
  | splitNode _ divider first second =>
      (0 ≤ divider ∧ divider ≤ 1) ∧ first.DividersIn ∧ second.DividersIn

/-- All dividers in the middle. -/
def evenly : LayoutNode → LayoutNode
  | paneNode panelIds selected => paneNode panelIds selected
  | splitNode orientation _ first second =>
      splitNode orientation (1 / 2) first.evenly second.evenly

variable {gone : Uuid → Bool}

theorem allPanelIds_pruned (gone : Uuid → Bool) (layout : LayoutNode) :
    (layout.pruned gone).allPanelIds = layout.allPanelIds.filter fun id => !gone id := by
  induction layout with
  | paneNode panelIds selected => rfl
  | splitNode orientation divider first second ih1 ih2 =>
      simp only [pruned, allPanelIds_collapse, ih1, ih2, allPanelIds, List.filter_append]

/-- What is left of a layout whose panels are all gone. -/
theorem pruned_of_isEmpty (layout : LayoutNode) (hs : layout.Selects)
    (h : (layout.pruned gone).isEmpty = true) : layout.pruned gone = paneNode [] none := by
  induction layout with
  | paneNode panelIds selected =>
      have hkept : panelIds.filter (fun id => !gone id) = [] := by
        simpa [pruned, isEmpty] using h
      cases selected with
      | none => simp [pruned, hkept]
      | some id =>
          have hgone : gone id = true := by
            have hall := List.filter_eq_nil_iff.mp hkept id (hs id rfl)
            simpa using hall
          simp [pruned, hkept, hgone]
  | splitNode orientation divider first second ih1 ih2 =>
      by_cases h1 : (first.pruned gone).isEmpty = true
      · simp only [pruned, collapse, if_pos h1] at h ⊢
        exact ih2 hs.2 h
      · by_cases h2 : (second.pruned gone).isEmpty = true
        · simp only [pruned, collapse, if_neg h1, if_pos h2] at h
          exact absurd h h1
        · simp only [pruned, collapse, if_neg h1, if_neg h2, isEmpty, Bool.and_eq_true] at h
          exact absurd h.1 h1

/-- Taking a panel out that is not there changes nothing. -/
theorem pruned_absent (layout : LayoutNode) (hs : layout.Selects) {panelId : Uuid}
    (h : panelId ∉ layout.allPanelIds) :
    layout.pruned (fun id => gone id || id == panelId) = layout.pruned gone := by
  induction layout with
  | paneNode panelIds selected =>
      have hother : ∀ id ∈ panelIds, (gone id || id == panelId) = gone id := by
        intro id hid
        have hne : id ≠ panelId := fun heq => h (heq ▸ hid)
        simp [hne]
      have hkept : panelIds.filter (fun id => !(gone id || id == panelId)) =
          panelIds.filter fun id => !gone id :=
        List.filter_congr fun id hid => by rw [hother id hid]
      have hselected : selected.any (fun id => gone id || id == panelId) = selected.any gone := by
        cases selected with
        | none => rfl
        | some id => exact hother id (hs id rfl)
      simp only [pruned, hkept, hselected]
  | splitNode orientation divider first second ih1 ih2 =>
      simp only [allPanelIds, List.mem_append, not_or] at h
      simp only [pruned, ih1 hs.1 h.1, ih2 hs.2 h.2]

theorem removePanel_of_not_mem {layout : LayoutNode} {panelId : Uuid}
    (h : panelId ∉ layout.allPanelIds) : layout.removePanel panelId = none := by
  have hsome := removePanel_isSome layout panelId
  cases hr : layout.removePanel panelId with
  | none => rfl
  | some layout' =>
      rw [hr] at hsome
      exact absurd (hsome.mp rfl) h

theorem isEmpty_of_mem {layout : LayoutNode} {panelId : Uuid} (h : panelId ∈ layout.allPanelIds) :
    ¬ layout.isEmpty = true := by
  rw [isEmpty_iff]
  intro hnil
  rw [hnil] at h
  cases h

/-- The pane of a panel that goes. -/
theorem pane_removePanel {panelIds : List Uuid} (hn : panelIds.Nodup) (selected : Option Uuid)
    {panelId : Uuid} (h : panelId ∈ ((paneNode panelIds selected).pruned gone).allPanelIds) :
    ((paneNode panelIds selected).pruned gone).removePanel panelId =
      some ((paneNode panelIds selected).pruned fun id => gone id || id == panelId) := by
  have hkept : panelIds.filter (fun id => !(gone id || id == panelId)) =
      (panelIds.filter fun id => !gone id).erase panelId := by
    rw [(hn.filter _).erase_eq_filter, List.filter_filter]
    refine List.filter_congr fun id _ => ?_
    cases gone id <;> simp [bne]
  have hgone : gone panelId = false := by
    simpa using (List.mem_filter.mp h).2
  simp only [pruned, allPanelIds] at h ⊢
  rw [hkept]
  generalize panelIds.filter (fun id => !gone id) = kept at h ⊢
  simp only [removePanel, if_pos h, Option.some.injEq, paneNode.injEq, true_and]
  cases selected with
  | none => simp
  | some id =>
      by_cases hid : gone id = true
      · -- the pane has selected its first tab before
        cases kept with
        | nil => cases h
        | cons first rest =>
            by_cases hfirst : first = panelId
            · simp [hid, hfirst]
            · simp [hid, hfirst]
      · by_cases heq : id = panelId
        · simp [heq, hgone]
        · simp [hid, heq]

/-- **One panel more goes.** -/
theorem pruned_removePanel (layout : LayoutNode) (hs : layout.Selects)
    (hn : layout.allPanelIds.Nodup) {panelId : Uuid}
    (h : panelId ∈ (layout.pruned gone).allPanelIds) :
    (layout.pruned gone).removePanel panelId =
      some (layout.pruned fun id => gone id || id == panelId) := by
  induction layout with
  | paneNode panelIds selected => exact pane_removePanel hn selected h
  | splitNode orientation divider first second ih1 ih2 =>
      obtain ⟨hn1, hn2, hdisjoint⟩ := List.nodup_append.mp hn
      have hsub : ∀ node : LayoutNode, panelId ∈ (node.pruned gone).allPanelIds →
          panelId ∈ node.allPanelIds := by
        intro node hnode
        rw [allPanelIds_pruned] at hnode
        exact (List.mem_filter.mp hnode).1
      simp only [pruned, allPanelIds_collapse, List.mem_append] at h
      simp only [pruned]
      by_cases h1 : panelId ∈ (first.pruned gone).allPanelIds
      · have habsent : panelId ∉ second.allPanelIds :=
          fun hmem => hdisjoint panelId (hsub first h1) panelId hmem rfl
        rw [pruned_absent second hs.2 habsent]
        have hfirst := ih1 hs.1 hn1 h1
        by_cases hempty : (second.pruned gone).isEmpty = true
        · rw [collapse, if_neg (isEmpty_of_mem h1), if_pos hempty, hfirst, collapse, if_pos hempty]
          by_cases hgone : (first.pruned fun id => gone id || id == panelId).isEmpty = true
          · rw [if_pos hgone, pruned_of_isEmpty second hs.2 hempty,
              pruned_of_isEmpty first hs.1 hgone]
          · rw [if_neg hgone]
        · rw [collapse, if_neg (isEmpty_of_mem h1), if_neg hempty, removePanel, hfirst]
      · have h2 := h.resolve_left h1
        have habsent : panelId ∉ first.allPanelIds :=
          fun hmem => hdisjoint panelId hmem panelId (hsub second h2) rfl
        rw [pruned_absent first hs.1 habsent]
        have hsecond := ih2 hs.2 hn2 h2
        by_cases hempty : (first.pruned gone).isEmpty = true
        · rw [collapse, if_pos hempty, hsecond, collapse, if_pos hempty]
        · rw [collapse, if_neg hempty, if_neg (isEmpty_of_mem h2), removePanel,
            removePanel_of_not_mem h1, hsecond]

/-- Panel after panel goes. -/
theorem foldl_removePanel (layout : LayoutNode) (hs : layout.Selects)
    (hn : layout.allPanelIds.Nodup) (ids : List Uuid) (gone : Uuid → Bool) :
    ids.foldl (fun layout id => (layout.removePanel id).getD layout) (layout.pruned gone) =
      layout.pruned fun id => gone id || ids.contains id := by
  induction ids generalizing gone with
  | nil => simp
  | cons panelId ids ih =>
      have hstep : ((layout.pruned gone).removePanel panelId).getD (layout.pruned gone) =
          layout.pruned fun id => gone id || id == panelId := by
        by_cases h : panelId ∈ (layout.pruned gone).allPanelIds
        · rw [pruned_removePanel layout hs hn h, Option.getD_some]
        · rw [removePanel_of_not_mem h, Option.getD_none]
          by_cases hgone : gone panelId = true
          · congr 1
            funext id
            by_cases hid : id = panelId
            · simp [hid, hgone]
            · simp [hid]
          · refine (pruned_absent layout hs fun hmem => h ?_).symm
            rw [allPanelIds_pruned]
            exact List.mem_filter.mpr ⟨hmem, by simp [hgone]⟩
      rw [List.foldl_cons, hstep, ih]
      congr 1
      funext id
      rw [List.contains_cons, Bool.or_assoc]

theorem selects_of_valid {layout : LayoutNode} (h : ∀ g ∈ layout.panes, g.Valid) :
    layout.Selects := by
  induction layout with
  | paneNode panelIds selected =>
      intro id hid
      obtain ⟨t, ht, hselected⟩ := h ⟨panelIds, selected⟩ (List.mem_singleton_self _)
      obtain rfl := Option.some.inj (hid.symm.trans hselected)
      exact ht
  | splitNode orientation divider first second ih1 ih2 =>
      exact ⟨ih1 fun g hg => h g (List.mem_append_left _ hg),
        ih2 fun g hg => h g (List.mem_append_right _ hg)⟩

/-- A layout without empty panes is itself when nothing goes. -/
theorem pruned_nothing {layout : LayoutNode} (h : ∀ g ∈ layout.panes, g.Valid) :
    layout.pruned (fun _ => false) = layout := by
  induction layout with
  | paneNode panelIds selected => cases selected <;> simp [pruned]
  | splitNode orientation divider first second ih1 ih2 =>
      have h1 : ∀ g ∈ first.panes, g.Valid := fun g hg => h g (List.mem_append_left _ hg)
      have h2 : ∀ g ∈ second.panes, g.Valid := fun g hg => h g (List.mem_append_right _ hg)
      have hfirst := isEmpty_eq_false first fun g hg => (h1 g hg).tabs_ne_nil
      have hsecond := isEmpty_eq_false second fun g hg => (h2 g hg).tabs_ne_nil
      simp only [pruned, ih1 h1, ih2 h2, collapse, hfirst, hsecond]
      simp

theorem dividersIn_pruned {layout : LayoutNode} (h : layout.DividersIn) :
    (layout.pruned gone).DividersIn := by
  induction layout with
  | paneNode panelIds selected => trivial
  | splitNode orientation divider first second ih1 ih2 =>
      obtain ⟨hdivider, h1, h2⟩ := h
      simp only [pruned, collapse]
      split
      · exact ih2 h2
      · split
        · exact ih1 h1
        · exact ⟨hdivider, ih1 h1, ih2 h2⟩

end LayoutNode

end Jmux.Model

namespace Jmux.Session

open Jmux.Lib Jmux.Model

/-! ## §2. The layout of a workspace. -/

/-- A divider in its range comes back as it was. -/
theorem toLayout_fromLayout {layout : LayoutNode} (h : layout.DividersIn) :
    (SessionWorkspaceLayoutSnapshot.fromLayout layout).toLayout = layout := by
  induction layout with
  | paneNode panelIds selected => rfl
  | splitNode orientation divider first second ih1 ih2 =>
      obtain ⟨⟨hlow, hhigh⟩, h1, h2⟩ := h
      simp only [SessionWorkspaceLayoutSnapshot.fromLayout,
        SessionWorkspaceLayoutSnapshot.toLayout, ih1 h1, ih2 h2, min_eq_left hhigh,
        max_eq_right hlow]

theorem toLayout_normalized (layout : LayoutNode) :
    (normalizeDividerPositions (.fromLayout layout)).toLayout = layout.evenly := by
  induction layout with
  | paneNode panelIds selected => rfl
  | splitNode orientation divider first second ih1 ih2 =>
      simp only [SessionWorkspaceLayoutSnapshot.fromLayout, normalizeDividerPositions,
        SessionWorkspaceLayoutSnapshot.toLayout, ih1, ih2, LayoutNode.evenly]
      norm_num

/-- A monitor pane of the workspace. -/
def isMonitor (ws : Workspace) (id : Uuid) : Bool :=
  (ws.panels.lookup id).any (·.panelType = .agentMonitor)

/-- Every panel has one place, every pane a selected tab, and every panel is kept
under its id. -/
structure Arranged (ws : Workspace) : Prop where
  sound : Sound ws.layout.panes
  keyed : Keyed ws.panels

theorem arranged_of_wellFormed {ws : Workspace} (h : ws.WellFormed) : Arranged ws :=
  ⟨h.inStep.sound, h.keyed⟩

/-- **The saved layout** is the layout without the monitor panes. -/
theorem pruneMonitors_eq (order : HashOrder) {ws : Workspace} (h : Arranged ws) :
    pruneMonitors order ws = ws.layout.pruned (isMonitor ws) := by
  have hn : ws.layout.allPanelIds.Nodup := by
    rw [LayoutNode.allPanelIds_eq]
    exact h.sound.distinct
  have hfold := LayoutNode.foldl_removePanel ws.layout (LayoutNode.selects_of_valid h.sound.valid)
    hn (((order.iter ws.panels).filter (·.2.panelType = .agentMonitor)).map (·.1)) fun _ => false
  rw [LayoutNode.pruned_nothing h.sound.valid, List.foldl_map] at hfold
  unfold pruneMonitors
  rw [hfold]
  congr 1
  funext id
  rw [Bool.eq_iff_iff]
  simp only [Bool.false_or, List.contains_iff_mem, List.mem_map, List.mem_filter,
    decide_eq_true_eq, isMonitor, Option.any_eq_true]
  constructor
  · intro ⟨e, ⟨he, htype⟩, hid⟩
    subst hid
    exact ⟨e.2, (order.mem_iter ws.panels e.1 e.2).mp he, htype⟩
  · intro ⟨panel, hpanel, htype⟩
    exact ⟨⟨id, panel⟩, ⟨(order.mem_iter ws.panels id panel).mpr hpanel, htype⟩, rfl⟩

/-! ## §3. The panels of a workspace. -/

/-- The workspace as a session file holds it. -/
def savedWorkspace (order : HashOrder) (captured : Captured) (live : LiveProc) (ws : Workspace) :
    SessionWorkspaceSnapshot :=
  enrichWorkspace live (makeWsSnapshot order captured ws)

section Panels

variable (env : RestoreEnv) (order : HashOrder) (captured : Captured) (live : LiveProc)

theorem savedWorkspace_panels (ws : Workspace) :
    (savedWorkspace order captured live ws).panels =
      ((order.iter ws.panels).filter (·.2.panelType ≠ .agentMonitor)).map fun e =>
        savedPanel captured live e.2 := by
  show List.map (enrichPanel live) (List.map _ _) = _
  rw [List.map_map]
  rfl

/-- The panel that is saved under an id. -/
theorem find_saved {ws : Workspace} (h : Keyed ws.panels) (id : Uuid) :
    (savedWorkspace order captured live ws).panels.find? (·.id = id) =
      ((ws.panels.lookup id).filter (·.panelType ≠ .agentMonitor)).map
        (savedPanel captured live) := by
  rw [savedWorkspace_panels]
  cases hfind : (((order.iter ws.panels).filter (·.2.panelType ≠ .agentMonitor)).map fun e =>
      savedPanel captured live e.2).find? (·.id = id) with
  | none =>
      have hnone := List.find?_eq_none.mp hfind
      cases hsaved : (ws.panels.lookup id).filter (·.panelType ≠ .agentMonitor) with
      | none => rfl
      | some panel =>
          obtain ⟨hlookup, htype⟩ := Option.filter_eq_some_iff.mp hsaved
          have hmem : savedPanel captured live panel ∈
              ((order.iter ws.panels).filter (·.2.panelType ≠ .agentMonitor)).map fun e =>
                savedPanel captured live e.2 :=
            List.mem_map.mpr ⟨⟨id, panel⟩,
              List.mem_filter.mpr ⟨(order.mem_iter ws.panels id panel).mpr hlookup, htype⟩, rfl⟩
          have hid : (savedPanel captured live panel).id = id :=
            (savedPanel_captured captured live panel).1.trans (h id panel hlookup)
          exact absurd (decide_eq_true hid) (hnone _ hmem)
  | some snapshot =>
      obtain ⟨e, he, rfl⟩ := List.mem_map.mp (List.mem_of_find?_eq_some hfind)
      obtain ⟨hiter, htype⟩ := List.mem_filter.mp he
      have hlookup := (order.mem_iter ws.panels e.1 e.2).mp hiter
      have hfound : (savedPanel captured live e.2).id = id := by
        simpa using List.find?_some hfind
      have hid : e.2.id = id := (savedPanel_captured captured live e.2).1.symm.trans hfound
      have hkey : e.1 = id := (h e.1 e.2 hlookup).symm.trans hid
      rw [hkey] at hlookup
      rw [hlookup, Option.filter_some, if_pos htype]
      rfl

theorem savedWorkspace_ids_nodup {ws : Workspace} (h : Keyed ws.panels) :
    ((savedWorkspace order captured live ws).panels.map (·.id)).Nodup := by
  rw [savedWorkspace_panels, List.map_map]
  have hkeys : (order.iter ws.panels).keys.Nodup :=
    ((order.perm ws.panels).map Sigma.fst).nodup_iff.mpr ws.panels.keys_nodup
  have hids : ((order.iter ws.panels).filter (·.2.panelType ≠ .agentMonitor)).map
        ((·.id) ∘ fun e => savedPanel captured live e.2) =
      ((order.iter ws.panels).filter (·.2.panelType ≠ .agentMonitor)).map (·.1) := by
    refine List.map_congr_left fun e he => ?_
    have hlookup := (order.mem_iter ws.panels e.1 e.2).mp (List.mem_filter.mp he).1
    exact (savedPanel_captured captured live e.2).1.trans (h e.1 e.2 hlookup)
  rw [hids]
  exact hkeys.sublist (List.filter_sublist.map _)

/-- The panels that a restore builds from a list with distinct ids. -/
theorem lookup_restored (remoteConfig : Option RemoteConfig) (snapshots : List SessionPanelSnapshot)
    (hn : (snapshots.map (·.id)).Nodup) (panels : Panels) (id : Uuid) :
    (snapshots.foldl
        (fun panels p =>
          match restoredPanelType env p.panelType with
          | some panelType => panels.insert p.id (restoredPanel env remoteConfig p panelType)
          | none => panels) panels).lookup id =
      ((snapshots.find? (·.id = id)).bind fun p =>
        (restoredPanelType env p.panelType).map (restoredPanel env remoteConfig p)).or
          (panels.lookup id) := by
  induction snapshots generalizing panels with
  | nil => simp
  | cons p rest ih =>
      obtain ⟨hp, hrest⟩ := List.nodup_cons.mp hn
      rw [List.foldl_cons, ih hrest]
      by_cases hid : p.id = id
      · have hnone : rest.find? (·.id = id) = none := by
          rw [List.find?_eq_none]
          intro q hq hqid
          have hq' : q.id = p.id := (of_decide_eq_true hqid).trans hid.symm
          exact hp (List.mem_map.mpr ⟨q, hq, hq'⟩)
        rw [hnone, List.find?_cons_of_pos (by simpa using hid)]
        cases htype : restoredPanelType env p.panelType with
        | none => simp [htype]
        | some panelType => simp [htype, hid]
      · rw [List.find?_cons_of_neg (by simpa using hid)]
        cases restoredPanelType env p.panelType with
        | none => rfl
        | some panelType => simp [Ne.symm hid]

/-- **Every panel of a restored workspace** is the restart of the panel of its id. -/
theorem restored_panels {ws : Workspace} (h : Keyed ws.panels) (draw : WsDraw)
    (windowId : Option Uuid) (id : Uuid) :
    (buildWorkspaceFromSnapshot env draw (savedWorkspace order captured live ws)
        windowId).panels.lookup id =
      ((ws.panels.lookup id).filter (·.panelType ≠ .agentMonitor)).bind
        (restartPanel env ws.remoteConfig captured live) := by
  have hlookup := lookup_restored env ws.remoteConfig
    (savedWorkspace order captured live ws).panels
    (savedWorkspace_ids_nodup order captured live h) ∅ id
  rw [find_saved order captured live h] at hlookup
  refine hlookup.trans ?_
  cases (ws.panels.lookup id).filter (·.panelType ≠ .agentMonitor) with
  | none => rfl
  | some panel =>
      rw [Option.map_some, Option.bind_some, Option.bind_some, AList.lookup_empty, Option.or_none]
      rfl

end Panels

/-! ## §4. One workspace. -/

/-- A workspace and what a restart makes of it. -/
structure Restored (env : RestoreEnv) (captured : Captured) (live : LiveProc)
    (ws ws' : Workspace) : Prop where
  customTitle  : ws'.customTitle = ws.customTitle
  customColor  : ws'.customColor = ws.customColor
  isPinned     : ws'.isPinned = ws.isPinned
  processTitle : ws'.processTitle = ws.processTitle
  remoteConfig : ws'.remoteConfig = ws.remoteConfig
  groupId      : ws'.groupId = ws.groupId
  /-- The same tree with the same selected tabs, without the monitor panes. -/
  layout       :
    ws'.layout =
      if captured.splitRatioPersist then ws.layout.pruned (isMonitor ws)
      else (ws.layout.pruned (isMonitor ws)).evenly
  panels       :
    ∀ id, ws'.panels.lookup id =
      ((ws.panels.lookup id).filter (·.panelType ≠ .agentMonitor)).bind
        (restartPanel env ws.remoteConfig captured live)

theorem restored_of_saved (env : RestoreEnv) (order : HashOrder) (captured : Captured)
    (live : LiveProc) {ws : Workspace} (h : Arranged ws) (hd : ws.layout.DividersIn)
    (draw : WsDraw) (windowId : Option Uuid) :
    Restored env captured live ws
      (buildWorkspaceFromSnapshot env draw (savedWorkspace order captured live ws) windowId) where
  customTitle  := rfl
  customColor  := rfl
  isPinned     := rfl
  processTitle := rfl
  remoteConfig := rfl
  groupId      := rfl
  layout       := by
    have hlayout := pruneMonitors_eq order h
    show (savedWorkspace order captured live ws).layout.toLayout = _
    simp only [savedWorkspace, enrichWorkspace, makeWsSnapshot]
    by_cases hpersist : captured.splitRatioPersist = true
    · rw [if_pos hpersist, if_pos hpersist, hlayout]
      exact toLayout_fromLayout (LayoutNode.dividersIn_pruned hd)
    · rw [if_neg hpersist, if_neg hpersist, hlayout]
      exact toLayout_normalized _
  panels       := restored_panels env order captured live h.keyed draw windowId

/-! ## §5. The windows. -/

theorem windowOrder : Buckets.Order windowBefore where
  irrefl a := by cases a <;> simp [windowBefore]
  trans a b c hab hbc := by
    cases a <;> cases b <;> cases c <;> simp_all [windowBefore]
    exact Nat.lt_trans hab hbc
  total a b hne hab := by
    cases a <;> cases b <;> simp_all [windowBefore]
    exact Nat.lt_of_le_of_ne hab (Ne.symm hne)

theorem pushToWindow_eq {β : Type*} (window : Option Uuid) (x : β)
    (map : List (Option Uuid × List β)) :
    pushToWindow window x map = Buckets.push windowBefore window x map := by
  induction map with
  | nil => rfl
  | cons head rest ih => simp only [pushToWindow, Buckets.push, ih]

/-- The window that a workspace is saved with. -/
def savedWindow (tm : TabManager) (ws : Workspace) : Option Uuid :=
  ws.windowId.or (primaryWindow tm)

theorem windowMap_eq (tm : TabManager) :
    (windowMap tm).flatMap (·.2) =
      Buckets.gather windowBefore (savedWindow tm)
        (tm.workspaces.filter (·.windowId ≠ some quickWindowId)) := by
  unfold windowMap Buckets.gather
  simp only [pushToWindow_eq]
  rfl

/-- Neither the quick terminal nor without a panel that is persisted. -/
def isSaved (ws : Workspace) : Bool :=
  ws.windowId ≠ some quickWindowId ∧ ws.customTitle ≠ some "Quick Terminal" ∧
    ws.panels.entries.any (·.2.panelType ≠ .agentMonitor)

theorem isRestored_saved (order : HashOrder) (captured : Captured) (live : LiveProc)
    {ws : Workspace} (hw : ws.windowId ≠ some quickWindowId) :
    isRestored (savedWorkspace order captured live ws) = isSaved ws := by
  have hpanels : (savedWorkspace order captured live ws).panels.isEmpty =
      !ws.panels.entries.any (·.2.panelType ≠ .agentMonitor) := by
    rw [savedWorkspace_panels, ← (order.perm ws.panels).any_eq]
    rw [Bool.eq_iff_iff]
    simp
  have hquick : isQuick (savedWorkspace order captured live ws) =
      decide (ws.customTitle = some "Quick Terminal") := rfl
  unfold isRestored isSaved
  rw [hpanels, hquick]
  rw [Bool.not_not, Bool.and_comm]
  simp [hw]

/-! ## §6. The session. -/

section Session

variable (env : RestoreEnv) (draws : Draws)

theorem forall₂_flatMap {α β γ : Type*} {R : β → γ → Prop} {f : α → List β} {g : α → List γ}
    (xs : List α) (h : ∀ x, List.Forall₂ R (f x) (g x)) :
    List.Forall₂ R (xs.flatMap f) (xs.flatMap g) := by
  induction xs with
  | nil => exact .nil
  | cons x xs ih =>
      rw [List.flatMap_cons, List.flatMap_cons]
      exact List.rel_append (h x) ih

/-- Every restored workspace is built from its snapshot, in the order of the file. -/
theorem restoredWorkspaces_forall₂ (windows : List SessionWindowSnapshot) :
    List.Forall₂ (fun s ws' => ∃ draw windowId, ws' = buildWorkspaceFromSnapshot env draw s windowId)
      (windows.flatMap fun w => w.tabManager.workspaces.filter isRestored)
      (restoredWorkspaces env draws windows) := by
  rw [← flatMap_zipIdx windows (fun e => e.1.tabManager.workspaces.filter isRestored) _
    fun _ _ => rfl]
  unfold restoredWorkspaces
  refine forall₂_flatMap _ fun (w, i) => ?_
  show List.Forall₂ _ (w.tabManager.workspaces.filter isRestored)
    ((w.tabManager.workspaces.filter isRestored).zipIdx.map _)
  generalize w.tabManager.workspaces.filter isRestored = kept
  rw [List.forall₂_map_right_iff]
  have hpairs : List.Forall₂ (fun s (e : SessionWorkspaceSnapshot × Nat) => s = e.1)
      (kept.zipIdx.map Prod.fst) kept.zipIdx :=
    List.forall₂_map_left_iff.mpr (List.forall₂_same.mpr fun e _ => rfl)
  rw [List.zipIdx_map_fst] at hpairs
  refine hpairs.imp fun s e he => ?_
  rw [he]
  exact ⟨_, _, rfl⟩

/-- Windows without a workspace to restore add nothing. -/
theorem liveWindows_flatMap (snapshot : AppSessionSnapshot) :
    (liveWindows snapshot).flatMap (fun w => w.tabManager.workspaces.filter isRestored) =
      snapshot.windows.flatMap fun w => w.tabManager.workspaces.filter isRestored := by
  unfold liveWindows
  induction snapshot.windows with
  | nil => rfl
  | cons w windows ih =>
      by_cases hw : w.tabManager.workspaces.any isRestored = true
      · rw [List.filter_cons, if_pos hw, List.flatMap_cons, List.flatMap_cons, ih]
      · have hnone : w.tabManager.workspaces.filter isRestored = [] := by
          rw [List.filter_eq_nil_iff]
          intro ws hws hr
          exact hw (List.any_eq_true.mpr ⟨ws, hws, hr⟩)
        rw [List.filter_cons, if_neg hw, List.flatMap_cons, hnone, ih, List.nil_append]

/-- The workspaces of a restored session; none where nothing is restored. -/
def restoredList (snapshot : AppSessionSnapshot) : List Workspace :=
  ((restoreSession env draws snapshot).map (·.workspaces)).getD []

theorem restoredList_forall₂ (snapshot : AppSessionSnapshot) :
    List.Forall₂ (fun s ws' => ∃ draw windowId, ws' = buildWorkspaceFromSnapshot env draw s windowId)
      (snapshot.windows.flatMap fun w => w.tabManager.workspaces.filter isRestored)
      (restoredList env draws snapshot) := by
  have hforall := restoredWorkspaces_forall₂ env draws (liveWindows snapshot)
  rw [liveWindows_flatMap] at hforall
  unfold restoredList
  cases hr : restoreSession env draws snapshot with
  | some tm =>
      rw [← (restoreSession_spec env draws hr).1] at hforall
      exact hforall
  | none =>
      have hnil : snapshot.windows.flatMap
          (fun w => w.tabManager.workspaces.filter isRestored) = [] := by
        rw [List.flatMap_eq_nil_iff]
        intro w hw
        rw [workspaces_of_none env draws hr w hw]
        rfl
      rw [hnil]
      exact .nil

/-- The workspaces that a saved session holds for the restore. -/
theorem saved_flatMap (order : HashOrder) (captured : Captured) (live : LiveProc)
    (tm : TabManager) :
    ((enrichSnapshotWithLiveProc live (createSnapshot order captured tm)).windows.flatMap fun w =>
        w.tabManager.workspaces.filter isRestored) =
      ((Buckets.gather windowBefore (savedWindow tm)
          (tm.workspaces.filter (·.windowId ≠ some quickWindowId))).filter isSaved).map
        (savedWorkspace order captured live) := by
  rw [← windowMap_eq, List.filter_flatMap, List.map_flatMap]
  simp only [enrichSnapshotWithLiveProc, createSnapshot, List.flatMap_map]
  refine List.flatMap_congr fun e he => ?_
  have hwindow : ∀ ws ∈ e.2, isRestored (savedWorkspace order captured live ws) = isSaved ws := by
    intro ws hws
    have hmem : ws ∈ (windowMap tm).flatMap (·.2) := List.mem_flatMap.mpr ⟨e, he, hws⟩
    rw [windowMap_eq, Buckets.mem_gather windowOrder] at hmem
    exact isRestored_saved order captured live (by simpa using (List.mem_filter.mp hmem).2)
  show ((e.2.map (makeWsSnapshot order captured)).map (enrichWorkspace live)).filter isRestored = _
  rw [List.map_map, List.filter_map]
  congr 1
  exact List.filter_congr hwindow

end Session

/-- Two windows of which the one with the greater id comes first. -/
def twoWindows : TabManager where
  workspaces :=
    [{ Workspace.new 1 11 "/" with customTitle := some "api", windowId := some 9 },
      { Workspace.new 2 12 "/" with customTitle := some "web", windowId := some 3 }]
  selectedIndex := some 0

def entryOrder : HashOrder where
  iter := fun panels => panels.entries
  perm := HashOrder.perm_entries

def sampleDraws : Draws where
  window    := fun i => 1000 + i
  workspace := fun i j => (2000 + 10 * i + j, 3000 + 10 * i + j)
  closed    := fun k => (4000 + k, 5000 + k)

/-- A tab manager with one workspace. -/
def only (ws : Workspace) : TabManager where
  workspaces    := [ws]
  selectedIndex := some 0

/-- A workspace of the user's with the title of the quick terminal. -/
def quickNamed : Workspace := { Workspace.new 1 11 "/" with customTitle := some "Quick Terminal" }

/-- A workspace of which only a monitor pane is left. -/
def monitorOnly : Workspace :=
  { Workspace.new 1 11 "/" with
    panels := AList.singleton 11 (.newAgentMonitor 11 "/t.jsonl" "reviewer") }

/-- A workspace with a narrow pane on the left. -/
def narrowLeft : Workspace :=
  { Workspace.new 1 11 "/" with
    layout := .splitNode .horizontal (3 / 10) (.singlePane 11) (.singlePane 12)
    panels := (AList.singleton 11 (.newTerminal 11)).insert 12 (.newTerminal 12) }

/-- What comes back of the workspaces of a tab manager. -/
def broughtBack (captured : Captured) (tm : TabManager) : List Workspace :=
  restoredList sampleEnv sampleDraws
    (enrichSnapshotWithLiveProc {} (createSnapshot entryOrder captured tm))

end Jmux.Session
