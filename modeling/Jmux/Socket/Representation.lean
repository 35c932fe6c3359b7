/-
  Jmux.Socket.Representation — the representation of a workspace along every
  sequence of its operations.

  Main results:
    * `apply_held`               — one operation keeps a workspace well-formed,
                                   as long as a panel is left in it.
    * `representation_invariant` — from a new workspace on, at every point of
                                   every sequence of operations.
-/
import Jmux.Model.WellFormed
import Jmux.Socket.Surface
import Jmux.Socket.Pane
import Jmux.Socket.Tab
import Jmux.Lib.Transition

namespace Jmux.Socket

open Jmux.Lib Jmux.Model

/-! ## §1. The requests that edit one workspace. -/

theorem createdPanel_id (panelType url : Option String) (newId : Uuid) :
    (createdPanel panelType url newId).id = newId := by
  unfold createdPanel
  split <;> rfl

theorem surfaceCreate_wellFormed {ws : Workspace} (h : ws.WellFormed) {newId : Uuid}
    (hn : newId ∉ ws.panels) (panelType url : Option String) :
    (surfaceCreate ws panelType url newId).WellFormed := by
  obtain ⟨focused, hmem, hfocus⟩ := h.focused
  have hid := createdPanel_id panelType url newId
  obtain ⟨layout, hadd, hwf⟩ := h.addTab (createdPanel panelType url newId)
    (by rwa [hid]) hmem
  rw [hid] at hadd hwf
  have hl : (ws.focusedPanelId.bind fun id => ws.layout.addPanelToPane id newId).getD
      (.singlePane newId) = layout := by
    rw [hfocus, Option.bind_some, hadd, Option.getD_some]
  rw [surfaceCreate, hl]
  exact hwf

theorem duplicateTab_wellFormed {ws : Workspace} (h : ws.WellFormed) {panelId newId : Uuid}
    (hp : panelId ∈ ws.panels) (hn : newId ∉ ws.panels) :
    (duplicateTab ws panelId newId).WellFormed := by
  obtain ⟨layout, hadd, hwf⟩ := h.addTab (.newTerminal newId) hn hp
  have hadd : ws.layout.addPanelToPane panelId newId = some layout := hadd
  simp only [duplicateTab, hadd, Option.getD_some]
  exact hwf

theorem editPanel_wellFormed {ws : Workspace} (h : ws.WellFormed) (panelId : Uuid)
    {f : Panel → Panel} (hf : ∀ panel, (f panel).id = panel.id) :
    (editPanel ws panelId f).WellFormed := by
  have hkeys : ∀ id, id ∈ ws.panels.modify panelId f ↔ id ∈ ws.panels :=
    fun id => mem_modify_iff ws.panels panelId id f
  obtain ⟨focused, hmem, hfocus⟩ := h.focused
  exact ⟨h.inStep.congr hkeys, h.keyed.modify panelId hf, focused, (hkeys focused).mpr hmem, hfocus⟩

theorem paneSwap_wellFormed {ws : Workspace} (h : ws.WellFormed) (a b : Uuid) :
    (paneSwap ws a b).1.WellFormed := by
  unfold paneSwap
  split
  · exact h
  · next hmem =>
      push Not at hmem
      exact ⟨h.inStep.swap hmem.1 hmem.2, h.keyed, h.focused⟩

/-! ## §2. Closing tabs of one pane. -/

/-- The closing loop takes exactly these panels out of both; it does not look
at the focus.  The panel of the request stays, so that no round empties the
workspace. -/
theorem closeTab_loop {ws : Workspace} {panelId : Uuid} {toClose : List Uuid}
    (h : InStep ws.layout ws.panels) (hk : Keyed ws.panels) (hp : panelId ∈ ws.panels)
    (hn : panelId ∉ toClose) :
    InStep (toClose.foldl closeTab ws).layout (toClose.foldl closeTab ws).panels ∧
      Keyed (toClose.foldl closeTab ws).panels ∧
      (∀ id, id ∈ (toClose.foldl closeTab ws).panels ↔ id ∈ ws.panels ∧ id ∉ toClose) ∧
      (toClose.foldl closeTab ws).focusedPanelId = ws.focusedPanelId := by
  induction toClose generalizing ws with
  | nil => exact ⟨h, hk, by simp, rfl⟩
  | cons pid pids ih =>
      obtain ⟨hne, hrest⟩ := not_or.mp (List.mem_cons.not.mp hn)
      have hp' : panelId ∈ ws.panels.erase pid := AList.mem_erase.mpr ⟨hne, hp⟩
      have hclosed : InStep (closeTab ws pid).layout (closeTab ws pid).panels :=
        h.remove pid ⟨panelId, hp'⟩
      obtain ⟨hin, hkeyed, hmem, hfocus⟩ := ih hclosed (hk.erase pid) hp' hrest
      refine ⟨hin, hkeyed, fun id => ?_, hfocus⟩
      have hone : id ∈ (closeTab ws pid).panels ↔ id ≠ pid ∧ id ∈ ws.panels := AList.mem_erase
      rw [List.foldl_cons, hmem id, hone, List.mem_cons, not_or]
      constructor
      · rintro ⟨⟨h1, h2⟩, h3⟩
        exact ⟨h2, h1, h3⟩
      · rintro ⟨h2, h1, h3⟩
        exact ⟨⟨h1, h2⟩, h3⟩

theorem closeTabs_wellFormed {ws : Workspace} (h : ws.WellFormed) {panelId : Uuid}
    {toClose : List Uuid} (hp : panelId ∈ ws.panels) (hn : panelId ∉ toClose) :
    (closeTabs ws panelId toClose).WellFormed := by
  obtain ⟨hin, hkeyed, hmem, hfocus⟩ := closeTab_loop h.inStep h.keyed hp hn
  obtain ⟨focused, hfmem, hfocused⟩ := h.focused
  rw [hfocused] at hfocus
  simp only [closeTabs, hfocus]
  split
  · exact ⟨hin, hkeyed, panelId, (hmem panelId).mpr ⟨hp, hn⟩, rfl⟩
  · next hkept => exact ⟨hin, hkeyed, focused, (hmem focused).mpr ⟨hfmem, hkept⟩, hfocus⟩

theorem closeInPane_wellFormed {ws : Workspace} (h : ws.WellFormed) {panelId : Uuid}
    {select : Nat → List Uuid → List Uuid}
    (hsel : ∀ ids : List Uuid, ids.Nodup → panelId ∈ ids →
      panelId ∉ select ((ids.idxOf? panelId).getD 0) ids) :
    (closeInPane ws panelId select).1.WellFormed := by
  unfold closeInPane
  split
  · exact h
  · next paneIds hfind =>
      obtain ⟨hmem, g, hg, rfl⟩ := LayoutNode.mem_allPanelIds_of_findPane hfind
      have hall : panelId ∈ ws.layout.allPanelIds := LayoutNode.mem_allPanelIds_of_pane hg hmem
      have hnd : g.tabs.Nodup := (List.nodup_flatMap.mp h.inStep.sound.distinct).1 g hg
      exact closeTabs_wellFormed h ((h.inStep.same panelId).mp hall) (hsel g.tabs hnd hmem)

/-- The first occurrence of the panel in its pane. -/
theorem exists_idxOf {panelId : Uuid} {ids : List Uuid} (h : panelId ∈ ids) :
    ∃ pos, ids.idxOf? panelId = some pos ∧ ∃ hlt : pos < ids.length,
      ids[pos] = panelId ∧ ∀ j (_ : j < pos), ids[j] ≠ panelId := by
  obtain ⟨pos, hpos⟩ := Option.isSome_iff_exists.mp (List.isSome_idxOf?.mpr h)
  exact ⟨pos, hpos, List.idxOf?_eq_some_iff.mp hpos⟩

theorem not_mem_closeLeft (panelId : Uuid) (ids : List Uuid) (h : panelId ∈ ids) :
    panelId ∉ ids.take ((ids.idxOf? panelId).getD 0) := by
  obtain ⟨pos, hpos, hlt, _, hfirst⟩ := exists_idxOf h
  rw [hpos, Option.getD_some]
  intro hmem
  obtain ⟨j, hj, hget⟩ := List.mem_take_iff_getElem.mp hmem
  exact hfirst j (by omega) hget

theorem not_mem_closeRight (panelId : Uuid) (ids : List Uuid) (hnd : ids.Nodup)
    (h : panelId ∈ ids) : panelId ∉ ids.drop ((ids.idxOf? panelId).getD 0 + 1) := by
  obtain ⟨pos, hpos, hlt, hget, _⟩ := exists_idxOf h
  rw [hpos, Option.getD_some]
  intro hmem
  obtain ⟨j, hj, hget'⟩ := List.mem_drop_iff_getElem.mp hmem
  have := (hnd.getElem_inj_iff).mp (hget'.trans hget.symm)
  omega

theorem tabAction_wellFormed {ws : Workspace} (h : ws.WellFormed) {panelId newId : Uuid}
    (hp : panelId ∈ ws.panels) (title : Option String) {action : TabAction}
    (hn : action = .duplicate → newId ∉ ws.panels) :
    (tabAction ws panelId title newId action).1.WellFormed := by
  cases action with
  | rename =>
      cases title with
      | none => exact h
      | some title => exact editPanel_wellFormed h panelId fun _ => rfl
  | clearName => exact editPanel_wellFormed h panelId fun _ => rfl
  | closeLeft =>
      exact closeInPane_wellFormed h fun ids _ hmem => not_mem_closeLeft panelId ids hmem
  | closeRight =>
      exact closeInPane_wellFormed h fun ids hnd hmem => not_mem_closeRight panelId ids hnd hmem
  | closeOthers => exact closeInPane_wellFormed h fun ids _ _ => by simp
  | pin => exact editPanel_wellFormed h panelId fun _ => rfl
  | unpin => exact editPanel_wellFormed h panelId fun _ => rfl
  | markRead => exact editPanel_wellFormed h panelId fun _ => rfl
  | markUnread => exact editPanel_wellFormed h panelId fun _ => rfl
  | duplicate => exact duplicateTab_wellFormed h hp (hn rfl)

/-! ## §3. The operations on a workspace and their runs. -/

/-- The operations, with the ids that they draw.  `swapPanels` and `tabAction`
are the bodies of `pane.swap` and `tab.action`. -/
inductive WorkspaceOp
  | split (orientation : SplitOrientation) (panelType : PanelType) (newId : Uuid)
  | removePanel (panelId : Uuid)
  | reopenLastClosedPanel (newId : Uuid)
  | detachPanel (panelId : Uuid)
  | insertPanel (panel : Panel) (orientation : SplitOrientation)
  | movePanelToPane (source target : Uuid)
  | splitPanelIntoPane (source target : Uuid) (orientation : SplitOrientation)
      (direction : Direction)
  | dragToSplit (panelId : Uuid) (direction : Direction)
  | reorderPanelInPane (panelId : Uuid) (newIndex : Nat)
  | swapPanels (a b : Uuid)
  | focusPanel (panelId : Uuid)
  | surfaceCreate (panelType url : Option String) (newId : Uuid)
  | tabAction (panelId : Uuid) (title : Option String) (newId : Uuid) (action : TabAction)
  /-- The monitor is switched on or off (its toggle, its ticker, a new graph). -/
  | setSubagentMonitor (on : Bool)
  | syncWorkspace (order : HashOrder) (discovered : List (Subagent × Uuid))

namespace WorkspaceOp

def apply (ws : Workspace) : WorkspaceOp → Workspace
  | split orientation panelType newId => ws.split orientation panelType newId
  | removePanel panelId => (ws.removePanel panelId).1
  | reopenLastClosedPanel newId => (ws.reopenLastClosedPanel newId).1
  | detachPanel panelId => ((ws.detachPanel panelId).map (·.2)).getD ws
  | insertPanel panel orientation => ws.insertPanel panel orientation
  | movePanelToPane source target => (ws.movePanelToPane source target).1
  | splitPanelIntoPane source target orientation direction =>
      (ws.splitPanelIntoPane source target orientation direction).1
  | dragToSplit panelId direction => (ws.dragToSplit panelId direction).1
  | reorderPanelInPane panelId newIndex =>
      { ws with layout := (ws.layout.reorderPanelInPane panelId newIndex).getD ws.layout }
  | swapPanels a b => (paneSwap ws a b).1
  | focusPanel panelId => (ws.focusPanel panelId).1
  | surfaceCreate panelType url newId => Socket.surfaceCreate ws panelType url newId
  | tabAction panelId title newId action =>
      -- the request goes to a workspace that holds the panel
      if panelId ∈ ws.panels then (Socket.tabAction ws panelId title newId action).1 else ws
  | setSubagentMonitor on => { ws with subagentMonitor := on }
  | syncWorkspace order discovered => (ws.syncWorkspace order discovered).1

/-- The ids of the panels that come into the workspace. -/
def newIds : WorkspaceOp → List Uuid
  | split _ _ newId => [newId]
  | reopenLastClosedPanel newId => [newId]
  | insertPanel panel _ => [panel.id]
  | surfaceCreate _ _ newId => [newId]
  | tabAction _ _ newId .duplicate => [newId]
  | syncWorkspace _ discovered => discovered.map (·.2)
  | _ => []

end WorkspaceOp

/-- The ids are fresh: just drawn, or those of panels of other workspaces. -/
def FreshIds (ws : Workspace) (op : WorkspaceOp) : Prop :=
  op.newIds.Nodup ∧ ∀ id ∈ op.newIds, id ∉ ws.panels

instance (ws : Workspace) (op : WorkspaceOp) : Decidable (FreshIds ws op) :=
  inferInstanceAs (Decidable (_ ∧ _))

/-- Callers drop an empty workspace, so nothing is done to it any more. -/
def workspaceStep (ws : Workspace) (op : WorkspaceOp) : Option Workspace :=
  if ws.isEmpty then none else some (op.apply ws)

/-- `Workspace::new` and `Workspace::with_directory`. -/
inductive FreshlyCreated : Workspace → Prop
  | new (id panelId : Uuid) (home : String) : FreshlyCreated (.new id panelId home)
  | withDirectory (id panelId : Uuid) (home directory : String) :
      FreshlyCreated (.withDirectory id panelId home directory)

theorem FreshlyCreated.wellFormed {ws : Workspace} (h : FreshlyCreated ws) : ws.WellFormed := by
  cases h with
  | new id panelId home => exact Workspace.new_wellFormed id panelId home
  | withDirectory id panelId home directory =>
      exact Workspace.withDirectory_wellFormed id panelId home directory

/-- **One operation** keeps a workspace well-formed as long as a panel is left. -/
theorem apply_held {ws : Workspace} (h : ws.WellFormed) {op : WorkspaceOp}
    (hf : FreshIds ws op) : (op.apply ws).Held := by
  have hone : ∀ {id}, id ∈ op.newIds → id ∉ ws.panels := fun {id} hid => hf.2 id hid
  cases op with
  | split orientation panelType newId =>
      exact (h.split (hone List.mem_cons_self) orientation panelType).held
  | removePanel panelId => exact h.removePanel panelId
  | reopenLastClosedPanel newId =>
      exact (h.reopenLastClosedPanel (hone List.mem_cons_self)).held
  | detachPanel panelId =>
      show (((ws.detachPanel panelId).map (·.2)).getD ws).Held
      cases hd : ws.detachPanel panelId with
      | none => exact h.held
      | some detached => exact h.detachPanel hd
  | insertPanel panel orientation =>
      exact (h.insertPanel (hone List.mem_cons_self) orientation).held
  | movePanelToPane source target => exact (h.movePanelToPane source target).held
  | splitPanelIntoPane source target orientation direction =>
      exact (h.splitPanelIntoPane source target orientation direction).held
  | dragToSplit panelId direction => exact (h.dragToSplit panelId direction).held
  | reorderPanelInPane panelId newIndex =>
      show Workspace.Held { ws with layout := _ }
      cases hr : ws.layout.reorderPanelInPane panelId newIndex with
      | none => exact h.held
      | some layout =>
          have hin := h.inStep_rearranged (editsPane_reorder panelId newIndex) hr
          exact Workspace.WellFormed.held ⟨hin, h.keyed, h.focused⟩
  | swapPanels a b => exact (paneSwap_wellFormed h a b).held
  | focusPanel panelId => exact (h.focusPanel panelId).held
  | surfaceCreate panelType url newId =>
      exact (surfaceCreate_wellFormed h (hone List.mem_cons_self) panelType url).held
  | tabAction panelId title newId action =>
      show (if panelId ∈ ws.panels then _ else ws).Held
      split
      · next hp =>
          refine (tabAction_wellFormed h hp title ?_).held
          rintro rfl
          exact hone List.mem_cons_self
      · exact h.held
  | setSubagentMonitor on => exact Workspace.WellFormed.held ⟨h.inStep, h.keyed, h.focused⟩
  | syncWorkspace order discovered => exact h.syncWorkspace order hf.1 hf.2

/-- Every point of a run is well-formed as long as a panel is left. -/
theorem run_held {ws₀ ws : Workspace} (h : ws₀.WellFormed)
    (hr : Reach workspaceStep FreshIds ws₀ ws) : ws.Held := by
  refine hr.invariant Workspace.Held h.held ?_
  intro ws op ws' hheld hf hstep
  unfold workspaceStep at hstep
  split at hstep
  · cases hstep
  · next hne =>
      obtain rfl := Option.some.inj hstep
      exact apply_held (hheld (Bool.eq_false_iff.mpr hne)) hf

/-! ## §4. The representation invariant. -/

structure RepInvariant (ws : Workspace) : Prop where
  distinct : ws.layout.allPanelIds.Nodup
  sameKeys : ∀ id, id ∈ ws.layout.allPanelIds ↔ id ∈ ws.panels
  nonempty : ∀ pane ∈ ws.layout.panes, pane.tabs ≠ []
  selected : ∀ pane ∈ ws.layout.panes, ∃ id ∈ pane.tabs, pane.selected = some id
  focused  : ∃ id ∈ ws.panels, ws.focusedPanelId = some id

theorem repInvariant_of_wellFormed {ws : Workspace} (h : ws.WellFormed) : RepInvariant ws where
  distinct := by
    rw [LayoutNode.allPanelIds_eq]
    exact h.inStep.sound.distinct
  sameKeys := h.inStep.same
  nonempty := h.inStep.tabs_ne_nil
  selected := h.inStep.sound.valid
  focused  := h.focused

/-- **From a new workspace on**, after every sequence of operations on it. -/
theorem representation_invariant {ws₀ ws : Workspace} {ops : List WorkspaceOp}
    (hnew : FreshlyCreated ws₀) (hrun : exec workspaceStep ws₀ ops = some ws)
    (hfresh : EveryStep workspaceStep FreshIds ws₀ ops) (hne : ws.isEmpty = false) :
    RepInvariant ws :=
  repInvariant_of_wellFormed (run_held hnew.wellFormed (reach_of_exec hrun hfresh) hne)

/-- A split, tabs, a monitor pane, a swap and closed tabs of which one comes back. -/
def sessionOps : List WorkspaceOp :=
  [.split .horizontal .terminal 2, .surfaceCreate none none 3, .setSubagentMonitor true,
    .syncWorkspace ⟨fun m => m.entries, HashOrder.perm_entries⟩ [(⟨"agent-1.jsonl", "one"⟩, 4)],
    .tabAction 3 none 5 .duplicate, .swapPanels 1 5, .tabAction 3 none 6 .closeOthers,
    .removePanel 3, .reopenLastClosedPanel 7]

theorem representation_invariant_session :
    ∃ ws ∈ exec workspaceStep (.new 100 1 "/") sessionOps, RepInvariant ws := by
  have hrun : ∃ ws ∈ exec workspaceStep (.new 100 1 "/") sessionOps, ws.isEmpty = false := by
    decide
  obtain ⟨ws, hws, hne⟩ := hrun
  exact ⟨ws, hws, representation_invariant (.new 100 1 "/") hws (by decide) hne⟩

end Jmux.Socket
