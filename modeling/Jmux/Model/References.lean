/-
  Jmux.Model.References — the panel ids that a workspace stores.

  Besides the layout, four fields of a workspace name one of its panels: the
  focus, the previous focus, the zoom and the attention ring.  Unlike the
  representation invariant, what is shown here does not stop at a workspace
  whose last panel was taken away.

  Main result: `panel_references` — in a run the four never dangle exactly when
  no removal takes away a panel that a field it does not restore refers to.
-/
import Jmux.Model.WellFormed
import Jmux.Lib.Transition

namespace Jmux.Model

open Jmux.Lib

/-! ## §1. The operations. -/

inductive RefOp
  | split (orientation : SplitOrientation) (panelType : PanelType) (newId : Uuid)
  | insertPanel (panel : Panel) (orientation : SplitOrientation)
  | removePanel (panelId : Uuid)
  | detachPanel (panelId : Uuid)
  | toggleZoom (panelId : Uuid)
  | toggleZoomFocused
  | recordNotification (panelId : Option Uuid)
  | clearAttention
  | focusPanel (panelId : Uuid)
  | setSubagentMonitor (enabled : Bool)
  | syncWorkspace (order : HashOrder) (discovered : List (Subagent × Uuid))

namespace RefOp

/-- The ids that come into the workspace. -/
def newIds : RefOp → List Uuid
  | split _ _ newId => [newId]
  | insertPanel panel _ => [panel.id]
  | syncWorkspace _ discovered => discovered.map (·.2)
  | _ => []

def apply (ws : Workspace) : RefOp → Workspace
  | split orientation panelType newId => ws.split orientation panelType newId
  | insertPanel panel orientation => ws.insertPanel panel orientation
  | removePanel panelId => (ws.removePanel panelId).1
  | detachPanel panelId => ((ws.detachPanel panelId).map (·.2)).getD ws
  | toggleZoom panelId => (ws.toggleZoom panelId).1
  | toggleZoomFocused => ws.toggleZoomFocused
  | recordNotification panelId => ws.recordNotification panelId
  | clearAttention => ws.clearAttention
  | focusPanel panelId => (ws.focusPanel panelId).1
  | setSubagentMonitor enabled => { ws with subagentMonitor := enabled }
  | syncWorkspace order discovered => (ws.syncWorkspace order discovered).1

end RefOp

/-- A panel that comes in has an id that no panel of the workspace has. -/
def refStep (ws : Workspace) (op : RefOp) : Option Workspace :=
  if op.newIds.Nodup ∧ ∀ id ∈ op.newIds, id ∉ ws.panels then some (op.apply ws) else none

/-! ## §2. References and what they rest on. -/

/-- None, or a panel that exists. -/
def Refers (panels : Panels) (ref : Option Uuid) : Prop := ∀ id, ref = some id → id ∈ panels

namespace Refers

variable {panels panels' : Panels} {ref : Option Uuid}

theorem none (panels : Panels) : Refers panels none := by
  intro id h
  cases h

theorem some {id : Uuid} (h : id ∈ panels) : Refers panels (some id) := by
  intro other hother
  obtain rfl := Option.some.inj hother
  exact h

theorem mono (h : Refers panels ref) (hsub : ∀ id ∈ panels, id ∈ panels') : Refers panels' ref :=
  fun id hid => hsub id (h id hid)

/-- What a reference needs when a panel goes. -/
theorem erase_iff (h : Refers panels ref) {panelId : Uuid} :
    Refers (panels.erase panelId) ref ↔ ref ≠ Option.some panelId := by
  constructor
  · intro he heq
    exact (AList.mem_erase.mp (he panelId heq)).1 rfl
  · intro hne id hid
    refine AList.mem_erase.mpr ⟨?_, h id hid⟩
    rintro rfl
    exact hne hid

/-- A field that the removal clears. -/
theorem cleared (h : Refers panels ref) (panelId : Uuid) :
    Refers (panels.erase panelId) (if ref = Option.some panelId then Option.none else ref) := by
  split
  · exact Refers.none _
  · next hne => exact h.erase_iff.mpr hne

end Refers

structure References (ws : Workspace) : Prop where
  focused   : Refers ws.panels ws.focusedPanelId
  previous  : Refers ws.panels ws.previousFocusedPanelId
  zoomed    : Refers ws.panels ws.zoomedPanelId
  attention : Refers ws.panels ws.attentionPanelId

/-- The layout shows each panel once, and only panels of the map. -/
structure Listed (layout : LayoutNode) (panels : Panels) : Prop where
  distinct : layout.allPanelIds.Nodup
  known    : ∀ id ∈ layout.allPanelIds, id ∈ panels

namespace Listed

variable {layout layout' : LayoutNode} {panels panels' : Panels}

/-- A panel that comes in on both sides. -/
theorem insert (h : Listed layout panels) {newId : Uuid} (hn : newId ∉ panels)
    (hperm : layout'.allPanelIds.Perm (newId :: layout.allPanelIds)) (panel : Panel) :
    Listed layout' (panels.insert newId panel) where
  distinct := by
    rw [hperm.nodup_iff, List.nodup_cons]
    exact ⟨fun hmem => hn (h.known newId hmem), h.distinct⟩
  known := by
    intro id hid
    rw [hperm.mem_iff, List.mem_cons] at hid
    rw [AList.mem_insert]
    rcases hid with rfl | hid
    · exact .inl rfl
    · exact .inr (h.known id hid)

/-- A panel that goes on both sides, the last one included. -/
theorem erase (h : Listed layout panels) (panelId : Uuid) :
    Listed ((layout.removePanel panelId).getD layout) (panels.erase panelId) where
  distinct := by
    rw [LayoutNode.allPanelIds_removed]
    exact h.distinct.erase panelId
  known := by
    intro id hid
    rw [LayoutNode.allPanelIds_removed, h.distinct.mem_erase_iff] at hid
    exact AList.mem_erase.mpr ⟨hid.1, h.known id hid.2⟩

/-- Only the tabs and the keys matter. -/
theorem congr (h : Listed layout panels) (hids : layout'.allPanelIds.Perm layout.allPanelIds)
    (hkeys : ∀ id ∈ panels, id ∈ panels') : Listed layout' panels' where
  distinct := hids.nodup_iff.mpr h.distinct
  known id hid := hkeys id (h.known id (hids.mem_iff.mp hid))

/-- The first panel of the layout can take the focus over. -/
theorem head (h : Listed layout panels) : Refers panels layout.allPanelIds.head? := by
  intro id hid
  exact h.known id (List.mem_of_mem_head? hid)

end Listed

/-! ## §3. Panels that come. -/

namespace Workspace

variable {ws : Workspace}

theorem splitFocused_ids (layout : LayoutNode) (focused : Option Uuid)
    (orientation : SplitOrientation) (newId : Uuid) :
    (splitFocused layout focused orientation newId).allPanelIds.Perm
      (newId :: layout.allPanelIds) := by
  unfold splitFocused
  split
  · next layout' hsplit =>
      obtain ⟨target, _, hup⟩ := Option.bind_eq_some_iff.mp hsplit
      refine LayoutNode.allPanelIds_updatePaneWith [newId] ?_ hup
      intro panelIds selected
      exact List.perm_append_singleton newId panelIds
  · exact List.perm_append_singleton newId layout.allPanelIds

theorem insertPanel_listed (h : Listed ws.layout ws.panels) {panel : Panel}
    (hn : panel.id ∉ ws.panels) (orientation : SplitOrientation) :
    Listed (ws.insertPanel panel orientation).layout (ws.insertPanel panel orientation).panels :=
  h.insert hn (splitFocused_ids _ _ _ _) panel

/-- A panel that comes in takes the focus and leaves the rest. -/
theorem insertPanel_references (h : References ws) (panel : Panel)
    (orientation : SplitOrientation) : References (ws.insertPanel panel orientation) := by
  have hgrows : ∀ id ∈ ws.panels, id ∈ ws.panels.insert panel.id panel :=
    fun id hid => (AList.mem_insert _).mpr (.inr hid)
  exact
    { focused   := Refers.some ((AList.mem_insert _).mpr (.inl rfl))
      previous  := h.focused.mono hgrows
      zoomed    := h.zoomed.mono hgrows
      attention := h.attention.mono hgrows }

/-! ## §4. Panels that go. -/

theorem removePanel_listed (h : Listed ws.layout ws.panels) (panelId : Uuid) :
    Listed (ws.removePanel panelId).1.layout (ws.removePanel panelId).1.panels := by
  unfold Workspace.removePanel
  split
  · exact h
  · exact h.erase panelId

/-- `remove_panel` restores the focus, and nothing else. -/
theorem removePanel_references_iff (hl : Listed ws.layout ws.panels) (h : References ws)
    (panelId : Uuid) :
    References (ws.removePanel panelId).1 ↔
      (panelId ∈ ws.panels → ws.previousFocusedPanelId ≠ some panelId ∧
        ws.zoomedPanelId ≠ some panelId ∧ ws.attentionPanelId ≠ some panelId) := by
  unfold Workspace.removePanel
  cases hp : ws.panels.lookup panelId with
  | none =>
      refine iff_of_true h fun hmem => ?_
      rw [← AList.lookup_isSome, hp] at hmem
      cases hmem
  | some panel =>
      have hmem : panelId ∈ ws.panels := AList.mem_of_lookup hp
      have hfocus : Refers (ws.panels.erase panelId)
          (if ws.focusedPanelId = some panelId then
            ((neighborInPane ws.layout panelId).filter (· ∈ ws.panels.erase panelId)).or
              ((ws.layout.removePanel panelId).getD ws.layout).allPanelIds.head?
          else ws.focusedPanelId) := by
        split
        · intro id hid
          -- the neighbour is taken only if it exists, else the first panel of the layout
          rcases Option.or_eq_some_iff.mp hid with hn | ⟨_, hhead⟩
          · simpa using (Option.filter_eq_some_iff.mp hn).2
          · exact (hl.erase panelId).head id hhead
        · next hne => exact h.focused.erase_iff.mpr hne
      constructor
      · rintro ⟨_, hprev, hzoom, hatt⟩ _
        exact ⟨h.previous.erase_iff.mp hprev, h.zoomed.erase_iff.mp hzoom,
          h.attention.erase_iff.mp hatt⟩
      · intro hne
        obtain ⟨hprev, hzoom, hatt⟩ := hne hmem
        exact ⟨hfocus, h.previous.erase_iff.mpr hprev, h.zoomed.erase_iff.mpr hzoom,
          h.attention.erase_iff.mpr hatt⟩

theorem detachPanel_listed (h : Listed ws.layout ws.panels) (panelId : Uuid) :
    Listed (((ws.detachPanel panelId).map (·.2)).getD ws).layout
      (((ws.detachPanel panelId).map (·.2)).getD ws).panels := by
  unfold Workspace.detachPanel
  cases ws.panels.lookup panelId with
  | none => exact h
  | some panel => exact h.erase panelId

/-- The focus after a removal that falls back on the layout's first panel. -/
theorem focus_or_head (hl : Listed ws.layout ws.panels) (h : References ws) (panelId : Uuid) :
    Refers (ws.panels.erase panelId)
      (if ws.focusedPanelId = some panelId then
        ((ws.layout.removePanel panelId).getD ws.layout).allPanelIds.head?
      else ws.focusedPanelId) := by
  split
  · exact (hl.erase panelId).head
  · next hne => exact h.focused.erase_iff.mpr hne

/-- `detach_panel` restores all but the attention ring. -/
theorem detachPanel_references_iff (hl : Listed ws.layout ws.panels) (h : References ws)
    (panelId : Uuid) :
    References (((ws.detachPanel panelId).map (·.2)).getD ws) ↔
      (panelId ∈ ws.panels → ws.attentionPanelId ≠ some panelId) := by
  unfold Workspace.detachPanel
  cases hp : ws.panels.lookup panelId with
  | none =>
      refine iff_of_true h fun hmem => ?_
      rw [← AList.lookup_isSome, hp] at hmem
      cases hmem
  | some panel =>
      have hmem : panelId ∈ ws.panels := AList.mem_of_lookup hp
      constructor
      · rintro ⟨_, _, _, hatt⟩ _
        exact h.attention.erase_iff.mp hatt
      · intro hne
        exact ⟨focus_or_head hl h panelId, h.previous.cleared panelId, h.zoomed.cleared panelId,
          h.attention.erase_iff.mpr (hne hmem)⟩

/-! ## §5. The agent monitor's sync. -/

theorem closeStale_kept (hl : Listed ws.layout ws.panels) (id : Uuid) :
    Listed (ws.closeStale id).layout (ws.closeStale id).panels ∧
      (References ws → References (ws.closeStale id)) := by
  refine ⟨hl.erase id, fun h => ?_⟩
  exact ⟨focus_or_head hl h id, h.previous.cleared id, h.zoomed.cleared id, h.attention.cleared id⟩

theorem closeAllStale_kept (ids : List Uuid) : ∀ {ws : Workspace}, Listed ws.layout ws.panels →
    Listed (ids.foldl closeStale ws).layout (ids.foldl closeStale ws).panels ∧
      (References ws → References (ids.foldl closeStale ws)) := by
  induction ids with
  | nil =>
      intro ws hl
      exact ⟨hl, fun h => h⟩
  | cons id ids ih =>
      intro ws hl
      obtain ⟨hl', h'⟩ := closeStale_kept hl id
      obtain ⟨hl'', h''⟩ := ih hl'
      exact ⟨hl'', fun h => h'' (h' h)⟩

/-- A map with at least the same panels, and the four fields as they are. -/
theorem grown_references (h : References ws) {panels : Panels} (layout : LayoutNode)
    (hgrows : ∀ id ∈ ws.panels, id ∈ panels) : References { ws with panels, layout } where
  focused   := h.focused.mono hgrows
  previous  := h.previous.mono hgrows
  zoomed    := h.zoomed.mono hgrows
  attention := h.attention.mono hgrows

theorem splitPaneWithPanel_ids {layout layout' : LayoutNode} {target newId : Uuid}
    {orientation : SplitOrientation} {direction : Direction}
    (h : layout.splitPaneWithPanel target newId orientation direction = some layout') :
    layout'.allPanelIds.Perm (newId :: layout.allPanelIds) := by
  refine LayoutNode.allPanelIds_updatePaneWith [newId] ?_ h
  intro panelIds selected
  show (LayoutNode.allPanelIds (if direction = .left ∨ direction = .up then _ else _)).Perm _
  split
  · exact List.Perm.refl _
  · exact List.perm_append_singleton newId panelIds

/-- The loop over the subagents, with ids for the next panes that are not taken. -/
theorem addMonitors_kept (order : HashOrder) (agents : List (Subagent × Uuid)) (ws : Workspace)
    {prevMonitor : Option Uuid} {count : Nat} {changed : Bool} (hnd : (agents.map (·.2)).Nodup)
    (hnew : ∀ id ∈ agents.map (·.2), id ∉ ws.panels) (hl : Listed ws.layout ws.panels) :
    Listed (addMonitors order agents prevMonitor count changed ws).1.layout
        (addMonitors order agents prevMonitor count changed ws).1.panels ∧
      (References ws → References (addMonitors order agents prevMonitor count changed ws).1) := by
  refine @addMonitors_rule order
    (fun grown => Listed grown.layout grown.panels ∧ (References ws → References grown))
    ?_ agents prevMonitor count changed ws ⟨hl, fun h => h⟩ hnd hnew
  intro grown panel anchor orientation direction layout hgrown hfree hsplit
  refine ⟨hgrown.1.insert hfree (splitPaneWithPanel_ids hsplit) _, fun h => ?_⟩
  exact grown_references (hgrown.2 h) layout fun id hid => (AList.mem_insert _).mpr (.inr hid)

theorem syncWorkspace_kept (hl : Listed ws.layout ws.panels)
    (order : HashOrder) {discovered : List (Subagent × Uuid)}
    (hnd : (discovered.map (·.2)).Nodup) (hnew : ∀ id ∈ discovered.map (·.2), id ∉ ws.panels) :
    Listed (ws.syncWorkspace order discovered).1.layout
        (ws.syncWorkspace order discovered).1.panels ∧
      (References ws → References (ws.syncWorkspace order discovered).1) := by
  unfold Workspace.syncWorkspace
  dsimp only
  generalize hdesired : (if ws.subagentMonitor then discovered else []) = desired
  -- with the monitor off nothing is to be shown
  have hids : (desired.map (·.2)).Sublist (discovered.map (·.2)) := by
    rw [← hdesired]
    split
    · exact List.Sublist.refl _
    · exact List.nil_sublist _
  obtain ⟨hl', h'⟩ := closeAllStale_kept (ws.stalePanes order desired) hl
  -- closing stale panes makes no id taken
  have hfree : ∀ id ∈ desired.map (·.2),
      id ∉ ((ws.stalePanes order desired).foldl closeStale ws).panels :=
    fun id hid hmem => hnew id (hids.subset hid) (mem_of_closeAllStale hmem)
  obtain ⟨hl'', h''⟩ := addMonitors_kept order desired _ (hnd.sublist hids) hfree hl'
  exact ⟨hl'', fun h => h'' (h' h)⟩

/-! ## §6. Focus, zoom and attention. -/

theorem focusPanel_kept (hl : Listed ws.layout ws.panels) (panelId : Uuid) :
    Listed (ws.focusPanel panelId).1.layout (ws.focusPanel panelId).1.panels ∧
      (References ws → References (ws.focusPanel panelId).1) := by
  unfold Workspace.focusPanel
  split
  · exact ⟨hl, fun h => h⟩
  · next hmem =>
      push Not at hmem
      split
      · exact ⟨hl, fun h => h⟩
      · next layout hsel =>
          have hids : layout.allPanelIds.Perm ([] ++ ws.layout.allPanelIds) :=
            LayoutNode.allPanelIds_updatePaneWith [] (fun _ _ => List.Perm.refl _) hsel
          refine ⟨hl.congr hids fun _ hid => hid, fun h => ?_⟩
          refine ⟨Refers.some hmem, ?_, h.zoomed, h.attention⟩
          show Refers ws.panels (if _ then _ else _)
          split
          · exact h.focused
          · exact h.previous

theorem toggleZoom_references (h : References ws) (panelId : Uuid) :
    References (ws.toggleZoom panelId).1 := by
  unfold Workspace.toggleZoom
  split
  · exact h
  · next hmem =>
      push Not at hmem
      split
      · exact ⟨h.focused, h.previous, Refers.none _, h.attention⟩
      · exact ⟨h.focused, h.previous, Refers.some hmem, h.attention⟩

theorem toggleZoomFocused_references (h : References ws) : References ws.toggleZoomFocused := by
  unfold Workspace.toggleZoomFocused
  split
  · exact ⟨h.focused, h.previous, Refers.none _, h.attention⟩
  · exact ⟨h.focused, h.previous, h.focused, h.attention⟩

theorem recordNotification_references (h : References ws) (panelId : Option Uuid) :
    References (ws.recordNotification panelId) := by
  refine ⟨h.focused, h.previous, h.zoomed, ?_⟩
  intro id hid
  have hmem := (Option.filter_eq_some_iff.mp hid).2
  -- the ring is set only for a panel that exists
  exact of_decide_eq_true hmem

end Workspace

/-! ## §7. Runs. -/

/-- Every field that the operation does not restore refers to another panel
than the one it takes away. -/
def Restores (ws : Workspace) : RefOp → Prop
  | .removePanel panelId =>
      panelId ∈ ws.panels → ws.previousFocusedPanelId ≠ some panelId ∧
        ws.zoomedPanelId ≠ some panelId ∧ ws.attentionPanelId ≠ some panelId
  | .detachPanel panelId => panelId ∈ ws.panels → ws.attentionPanelId ≠ some panelId
  | _ => True

instance (ws : Workspace) : ∀ op, Decidable (Restores ws op)
  | .removePanel panelId => inferInstanceAs (Decidable (panelId ∈ ws.panels → _ ∧ _ ∧ _))
  | .detachPanel panelId => inferInstanceAs (Decidable (panelId ∈ ws.panels → _))
  | .split _ _ _ | .insertPanel _ _ | .toggleZoom _ | .toggleZoomFocused | .recordNotification _
  | .clearAttention | .focusPanel _ | .setSubagentMonitor _ | .syncWorkspace _ _ => isTrue trivial

/-- The layout stays in step, whatever happens to the references. -/
theorem refStep_listed {ws ws' : Workspace} {op : RefOp} (hl : Listed ws.layout ws.panels)
    (hs : refStep ws op = some ws') : Listed ws'.layout ws'.panels := by
  unfold refStep at hs
  split at hs
  · next hfresh =>
      obtain rfl := Option.some.inj hs
      cases op with
      | split orientation panelType newId =>
          have hn : (Panel.ofType newId panelType).id ∉ ws.panels := by
            rw [Panel.ofType_id]
            exact hfresh.2 newId List.mem_cons_self
          exact Workspace.insertPanel_listed hl hn orientation
      | insertPanel panel orientation =>
          exact Workspace.insertPanel_listed hl (hfresh.2 panel.id List.mem_cons_self) orientation
      | removePanel panelId => exact Workspace.removePanel_listed hl panelId
      | detachPanel panelId => exact Workspace.detachPanel_listed hl panelId
      | toggleZoom panelId =>
          show Listed (ws.toggleZoom panelId).1.layout (ws.toggleZoom panelId).1.panels
          unfold Workspace.toggleZoom
          split
          · exact hl
          · split <;> exact hl
      | toggleZoomFocused =>
          show Listed ws.toggleZoomFocused.layout ws.toggleZoomFocused.panels
          unfold Workspace.toggleZoomFocused
          split <;> exact hl
      | recordNotification panelId => exact hl
      | clearAttention => exact hl
      | focusPanel panelId => exact (Workspace.focusPanel_kept hl panelId).1
      | setSubagentMonitor enabled => exact hl
      | syncWorkspace order discovered =>
          exact (Workspace.syncWorkspace_kept hl order hfresh.1 hfresh.2).1
  · cases hs

theorem refStep_references_iff {ws ws' : Workspace} {op : RefOp}
    (hl : Listed ws.layout ws.panels) (h : References ws) (hs : refStep ws op = some ws') :
    References ws' ↔ Restores ws op := by
  unfold refStep at hs
  split at hs
  · next hfresh =>
      obtain rfl := Option.some.inj hs
      cases op with
      | split orientation panelType newId =>
          exact iff_of_true (Workspace.insertPanel_references h _ orientation) trivial
      | insertPanel panel orientation =>
          exact iff_of_true (Workspace.insertPanel_references h panel orientation) trivial
      | removePanel panelId => exact Workspace.removePanel_references_iff hl h panelId
      | detachPanel panelId => exact Workspace.detachPanel_references_iff hl h panelId
      | toggleZoom panelId => exact iff_of_true (Workspace.toggleZoom_references h panelId) trivial
      | toggleZoomFocused =>
          exact iff_of_true (Workspace.toggleZoomFocused_references h) trivial
      | recordNotification panelId =>
          exact iff_of_true (Workspace.recordNotification_references h panelId) trivial
      | clearAttention =>
          exact iff_of_true ⟨h.focused, h.previous, h.zoomed, Refers.none _⟩ trivial
      | focusPanel panelId =>
          exact iff_of_true ((Workspace.focusPanel_kept hl panelId).2 h) trivial
      | setSubagentMonitor enabled =>
          exact iff_of_true ⟨h.focused, h.previous, h.zoomed, h.attention⟩ trivial
      | syncWorkspace order discovered =>
          exact iff_of_true ((Workspace.syncWorkspace_kept hl order hfresh.1 hfresh.2).2 h) trivial
  · cases hs

/-- **Panel references never dangle** in exactly the runs in which every
removal restores what referred to its panel. -/
theorem panel_references {ws ws' : Workspace} {ops : List RefOp}
    (hl : Listed ws.layout ws.panels) (h : References ws)
    (hrun : exec refStep ws ops = some ws') :
    EveryState refStep References ws ops ↔ EveryStep refStep Restores ws ops :=
  everyState_iff_everyStep (fun ws => Listed ws.layout ws.panels)
    (fun _ _ _ hl hs => refStep_listed hl hs)
    (fun _ _ _ hl h hs => refStep_references_iff hl h hs) hl h hrun

theorem new_listed (id panelId : Uuid) (home : String) :
    Listed (Workspace.new id panelId home).layout (Workspace.new id panelId home).panels where
  distinct := List.nodup_singleton panelId
  known := by
    intro other hother
    obtain rfl : other = panelId := List.mem_singleton.mp hother
    simp [Workspace.new, AList.mem_keys]

theorem new_references (id panelId : Uuid) (home : String) :
    References (Workspace.new id panelId home) where
  focused   := Refers.some (by simp [Workspace.new, AList.mem_keys])
  previous  := Refers.none _
  zoomed    := Refers.none _
  attention := Refers.none _

/-- A second panel is zoomed, marked and closed: the zoom and the mark stay. -/
theorem zoom_dangles :
    ∃ ws ∈ exec refStep (.new 100 1 "/")
        [.split .horizontal .terminal 2, .toggleZoom 2, .recordNotification (some 2),
          .removePanel 2],
      ws.zoomedPanelId = some 2 ∧ ws.attentionPanelId = some 2 ∧ 2 ∉ ws.panels ∧
        ¬ References ws := by
  have hrun : ∃ ws ∈ exec refStep (.new 100 1 "/")
      [.split .horizontal .terminal 2, .toggleZoom 2, .recordNotification (some 2),
        .removePanel 2],
      ws.zoomedPanelId = some 2 ∧ ws.attentionPanelId = some 2 ∧ 2 ∉ ws.panels := by
    decide
  obtain ⟨ws, hws, hzoom, hatt, hgone⟩ := hrun
  exact ⟨ws, hws, hzoom, hatt, hgone, fun h => hgone (h.zoomed 2 hzoom)⟩

/-- The zoom is taken off first, and the panel the focus came from stays. -/
theorem panel_references_unzoomed :
    EveryState refStep References (.new 100 1 "/")
      [.split .horizontal .terminal 2, .toggleZoom 2, .toggleZoom 2, .removePanel 2] := by
  have hrun : ∃ ws, exec refStep (.new 100 1 "/")
      [.split .horizontal .terminal 2, .toggleZoom 2, .toggleZoom 2, .removePanel 2] = some ws :=
    Option.isSome_iff_exists.mp (by decide)
  obtain ⟨ws, hws⟩ := hrun
  exact (panel_references (new_listed 100 1 "/") (new_references 100 1 "/") hws).mpr (by decide)

end Jmux.Model
