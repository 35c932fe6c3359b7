/-
  Jmux.Model.Neighbor — moving the focus to the pane on one side.

  The neighbour of a panel lies across the nearest split that has the panel on
  the other side of its divider.  The source takes the first or last panel of
  that split's other child in layout order, and `focus_panel` makes its pane
  show it.

  Main results:
    * `neighbor_eq`  — the neighbour, from the splits above the panel's pane.
    * `neighbor_touches` — without empty panes it lies in a pane on the divider.
    * `focusesAdjacent_iff` — when the move changes the focus and nothing else.
-/
import Jmux.Model.Ancestors
import Jmux.Model.WellFormed

namespace Jmux.Model

open Jmux.Lib

namespace LayoutNode

/-! ## §1. The neighbour. -/

/-- Left and right go across horizontal splits, up and down across vertical ones. -/
def matchesAxis (orientation : SplitOrientation) (direction : Direction) : Bool :=
  match orientation, direction with
  | .horizontal, .left | .horizontal, .right => true
  | .vertical, .up | .vertical, .down => true
  | _, _ => false

def wantSecond (direction : Direction) : Bool := direction = .right ∨ direction = .down

/-- The nearest split decides, and an outer one where there is none within. -/
def neighbor (panelId : Uuid) (direction : Direction) : LayoutNode → Option Uuid
  | paneNode _ _ => none
  | splitNode orientation _ first second =>
      let inFirst := panelId ∈ first.allPanelIds
      let inSecond := panelId ∈ second.allPanelIds
      if matchesAxis orientation direction then
        if inFirst ∧ wantSecond direction then
          (first.neighbor panelId direction).or second.allPanelIds.head?
        else if inSecond ∧ ¬wantSecond direction then
          (second.neighbor panelId direction).or first.allPanelIds.getLast?
        else if inFirst then first.neighbor panelId direction
        else second.neighbor panelId direction
      -- across the other axis there is only the child with the panel to look at
      else if inFirst then first.neighbor panelId direction
      else if inSecond then second.neighbor panelId direction
      else none

/-! ## §2. The splits that face a direction. -/

/-- A split on the direction's axis, with the child on the side opposite to it. -/
def Ancestor.facing (a : Ancestor) (direction : Direction) : Bool :=
  matchesAxis a.orientation direction && (a.isFirst == wantSecond direction)

/-- The panel of a layout that the source steps to: its first one for right and
down, its last one for left and up. -/
def edgePanel (direction : Direction) (node : LayoutNode) : Option Uuid :=
  if wantSecond direction then node.allPanelIds.head? else node.allPanelIds.getLast?

/-- The panes of a layout that touch a divider from which it lies in the
direction. -/
def touching (direction : Direction) : LayoutNode → List (TabGroup Uuid)
  | paneNode panelIds selected => [⟨panelIds, selected⟩]
  | splitNode orientation _ first second =>
      if matchesAxis orientation direction then
        if wantSecond direction then first.touching direction else second.touching direction
      else first.touching direction ++ second.touching direction

/-- What one ancestor offers. -/
def Ancestor.offers (direction : Direction) (a : Ancestor) : Option Uuid :=
  if a.facing direction then a.sibling.edgePanel direction else none

/-- **The neighbour** is what the nearest ancestor offers that offers any. -/
theorem neighbor_eq {node : LayoutNode} (hd : node.allPanelIds.Nodup) {panelId : Uuid}
    (h : panelId ∈ node.allPanelIds) (direction : Direction) :
    node.neighbor panelId direction =
      (node.ancestors panelId).findSome? (Ancestor.offers direction) := by
  induction node with
  | paneNode panelIds selected => rfl
  | splitNode o d first second ihf ihs =>
      obtain ⟨hdf, hds, hapart⟩ := List.nodup_append'.mp hd
      by_cases hf : panelId ∈ first.allPanelIds
      · have hs : panelId ∉ second.allPanelIds := fun hs => hapart hf hs
        rw [ancestors, if_pos hf, List.findSome?_append, ← ihf hdf hf, neighbor]
        cases hm : matchesAxis o direction with
        | true =>
            cases hw : wantSecond direction with
            | true => simp [hf, Ancestor.offers, Ancestor.facing, edgePanel, hm, hw]
            | false => simp [hf, hs, Ancestor.offers, Ancestor.facing, hw]
        | false => simp [hf, Ancestor.offers, Ancestor.facing, hm]
      · have hs : panelId ∈ second.allPanelIds := (List.mem_append.mp h).resolve_left hf
        rw [ancestors, if_neg hf, List.findSome?_append, ← ihs hds hs, neighbor]
        cases hm : matchesAxis o direction with
        | true =>
            cases hw : wantSecond direction with
            | true => simp [hf, Ancestor.offers, Ancestor.facing, hw]
            | false => simp [hf, hs, Ancestor.offers, Ancestor.facing, edgePanel, hm, hw]
        | false => simp [hf, hs, Ancestor.offers, Ancestor.facing, hm]

/-! ## §3. The panes on the divider. -/

theorem mem_panes_of_touching {direction : Direction} {node : LayoutNode} {g : TabGroup Uuid}
    (h : g ∈ node.touching direction) : g ∈ node.panes := by
  induction node with
  | paneNode panelIds selected => exact h
  | splitNode o d first second ihf ihs =>
      rw [touching] at h
      rw [panes, List.mem_append]
      split at h
      · split at h
        · exact .inl (ihf h)
        · exact .inr (ihs h)
      · rcases List.mem_append.mp h with h | h
        · exact .inl (ihf h)
        · exact .inr (ihs h)

/-- A layout without panels offers none. -/
theorem edgePanel_isSome (direction : Direction) (node : LayoutNode) :
    (node.edgePanel direction).isSome ↔ node.allPanelIds ≠ [] := by
  unfold edgePanel
  split
  · simp
  · simp

/-- **The first panel is on the near side** for right and down, the last one for
left and up, where no pane is empty. -/
theorem edgePanel_touches {direction : Direction} {node : LayoutNode}
    (hne : ∀ g ∈ node.panes, g.tabs ≠ []) {panelId : Uuid}
    (h : node.edgePanel direction = some panelId) :
    ∃ g ∈ node.touching direction, panelId ∈ g.tabs := by
  induction node with
  | paneNode panelIds selected =>
      refine ⟨⟨panelIds, selected⟩, List.mem_singleton_self _, ?_⟩
      unfold edgePanel at h
      split at h
      · exact List.mem_of_mem_head? h
      · exact List.mem_of_mem_getLast? h
  | splitNode o d first second ihf ihs =>
      have hnef : ∀ g ∈ first.panes, g.tabs ≠ [] := fun g hg => hne g (List.mem_append_left _ hg)
      have hnes : ∀ g ∈ second.panes, g.tabs ≠ [] := fun g hg => hne g (List.mem_append_right _ hg)
      rw [touching]
      cases hw : wantSecond direction with
      | true =>
          have hfirst : first.edgePanel direction = some panelId := by
            rw [edgePanel, if_pos hw, allPanelIds,
                List.head?_append_of_ne_nil _ (allPanelIds_ne_nil hnef)] at h
            rwa [edgePanel, if_pos hw]
          obtain ⟨g, hg, hmem⟩ := ihf hnef hfirst
          refine ⟨g, ?_, hmem⟩
          split
          · exact hg
          · exact List.mem_append_left _ hg
      | false =>
          have hsecond : second.edgePanel direction = some panelId := by
            rw [edgePanel, if_neg (by simp [hw]), allPanelIds,
                List.getLast?_append_of_ne_nil _ (allPanelIds_ne_nil hnes)] at h
            rwa [edgePanel, if_neg (by simp [hw])]
          obtain ⟨g, hg, hmem⟩ := ihs hnes hsecond
          refine ⟨g, ?_, hmem⟩
          split
          · exact hg
          · exact List.mem_append_right _ hg

/-! ## §4. The nearest split that faces the direction. -/

/-- The nearest ancestor split on the direction's axis with the panel on the
side opposite to the direction. -/
def nearestFacing (node : LayoutNode) (panelId : Uuid) (direction : Direction) : Option Ancestor :=
  (node.ancestors panelId).find? (·.facing direction)

variable {node : LayoutNode} {panelId : Uuid} {direction : Direction}

theorem nearestFacing_isSome :
    (node.nearestFacing panelId direction).isSome ↔
      ∃ a ∈ node.ancestors panelId, a.facing direction = true := by
  rw [nearestFacing, List.find?_isSome]

theorem findSome?_offers_of_find {as : List Ancestor} {a : Ancestor}
    (h : as.find? (·.facing direction) = some a) {id : Uuid}
    (hid : a.sibling.edgePanel direction = some id) :
    as.findSome? (Ancestor.offers direction) = some id := by
  induction as with
  | nil => cases h
  | cons b as ih =>
      cases hb : b.facing direction with
      | true =>
          simp only [List.find?_cons, hb] at h
          obtain rfl := Option.some.inj h
          have hoffers : b.offers direction = some id := by rw [Ancestor.offers, if_pos hb, hid]
          rw [List.findSome?_cons, hoffers]
      | false =>
          simp only [List.find?_cons, hb] at h
          have hoffers : b.offers direction = none := by simp [Ancestor.offers, hb]
          rw [List.findSome?_cons, hoffers]
          exact ih h

/-- Its other child's panel is the neighbour. -/
theorem neighbor_of_nearest (hd : node.allPanelIds.Nodup) (h : panelId ∈ node.allPanelIds)
    {a : Ancestor} (ha : node.nearestFacing panelId direction = some a) {id : Uuid}
    (hid : a.sibling.edgePanel direction = some id) :
    node.neighbor panelId direction = some id := by
  rw [neighbor_eq hd h]
  exact findSome?_offers_of_find ha hid

/-- Without one there is no neighbour. -/
theorem neighbor_of_none (hd : node.allPanelIds.Nodup) (h : panelId ∈ node.allPanelIds)
    (hnone : node.nearestFacing panelId direction = none) :
    node.neighbor panelId direction = none := by
  rw [neighbor_eq hd h, List.findSome?_eq_none_iff]
  intro a ha
  have hfacing : ¬a.facing direction = true := List.find?_eq_none.mp hnone a ha
  rw [Ancestor.offers, if_neg hfacing]

theorem mem_panes_of_nearest (h : panelId ∈ node.allPanelIds) {a : Ancestor}
    (ha : node.nearestFacing panelId direction = some a) {g : TabGroup Uuid}
    (hg : g ∈ a.sibling.panes) : g ∈ node.panes := by
  obtain ⟨own, _, hplug⟩ := plug_ancestors h
  have hmem := mem_panes_of_sibling (List.mem_of_find?_eq_some ha) hg (ofGroup own)
  rwa [hplug] at hmem

/-- **Where the neighbour is**: in a layout without empty panes there is one
exactly when some split faces the direction, and it lies in a pane of the
nearest one's other child on the divider. -/
theorem neighbor_touches (hd : node.allPanelIds.Nodup) (hne : ∀ g ∈ node.panes, g.tabs ≠ [])
    (h : panelId ∈ node.allPanelIds) (direction : Direction) :
    ((node.neighbor panelId direction).isSome ↔
      ∃ a ∈ node.ancestors panelId, a.facing direction = true) ∧
    ∀ id, node.neighbor panelId direction = some id →
      ∃ a, node.nearestFacing panelId direction = some a ∧
        ∃ g ∈ a.sibling.touching direction, id ∈ g.tabs := by
  rw [← nearestFacing_isSome]
  cases ha : node.nearestFacing panelId direction with
  | none => simp [neighbor_of_none hd h ha]
  | some a =>
      have hnea : ∀ g ∈ a.sibling.panes, g.tabs ≠ [] := fun g hg =>
        hne g (mem_panes_of_nearest h ha hg)
      obtain ⟨id, hid⟩ := Option.isSome_iff_exists.mp
        ((edgePanel_isSome direction a.sibling).mpr (allPanelIds_ne_nil hnea))
      rw [neighbor_of_nearest hd h ha hid]
      refine ⟨by simp, ?_⟩
      intro id' hid'
      obtain rfl := Option.some.inj hid'
      exact ⟨a, rfl, edgePanel_touches hnea hid⟩

/-- The panel that the nearest facing split offers is the tab that a pane on its
divider shows. -/
def OffersShown (node : LayoutNode) (panelId : Uuid) (direction : Direction) : Prop :=
  ∀ a, node.nearestFacing panelId direction = some a →
    ∃ id, a.sibling.edgePanel direction = some id ∧ Shows (a.sibling.touching direction) id

end LayoutNode

namespace Workspace

/-! ## §5. The focus move. -/

variable {ws : Workspace} {panelId : Uuid} {direction : Direction}

/-- The move from a panel into a direction finds a panel exactly when a split
faces the direction, lands in a pane of the nearest one's other child on its
divider, and changes what no pane shows. -/
structure FocusesAdjacent (ws : Workspace) (panelId : Uuid) (direction : Direction) : Prop where
  found : (ws.layout.neighbor panelId direction).isSome ↔
    ∃ a ∈ ws.layout.ancestors panelId, a.facing direction = true
  adjacent : ∀ id, ws.layout.neighbor panelId direction = some id →
    ∃ a, ws.layout.nearestFacing panelId direction = some a ∧
      ∃ g ∈ a.sibling.touching direction, id ∈ g.tabs
  onlyFocus : ∀ id, ws.layout.neighbor panelId direction = some id →
    (ws.focusPanel id).1.focusedPanelId = some id ∧
      (ws.focusPanel id).1.layout.panes = ws.layout.panes

/-- What focusing a panel does to the tabs shown: its own pane shows it. -/
theorem focusPanel_panes (hd : ws.layout.allPanelIds.Nodup) {id : Uuid} (hin : id ∈ ws.panels)
    {g : TabGroup Uuid} (hg : g ∈ ws.layout.panes) (hid : id ∈ g.tabs) :
    (ws.focusPanel id).1.focusedPanelId = some id ∧
      ((ws.focusPanel id).1.layout.panes = ws.layout.panes ↔ g.selected = some id) := by
  have hmem : id ∈ ws.layout.allPanelIds := LayoutNode.mem_allPanelIds_of_pane hg hid
  obtain ⟨layout, hup⟩ := Option.isSome_iff_exists.mp
    ((ws.layout.updatePaneWith_isSome id fun ids _ => .paneNode ids (some id)).mpr hmem)
  obtain ⟨before, own, after, hpanes, hown, _, hpanes'⟩ := LayoutNode.panes_of_updatePaneWith hup
  have hsame : own = g := by
    rw [LayoutNode.allPanelIds_eq] at hd
    exact eq_of_mem_tabs hd (by rw [hpanes]; simp) hg hown hid
  have hselect : ws.layout.selectPanel id = some layout := hup
  rw [focusPanel, if_neg (not_not.mpr hin), hselect]
  refine ⟨rfl, ?_⟩
  show layout.panes = ws.layout.panes ↔ g.selected = some id
  rw [hpanes', hpanes, hsame]
  constructor
  · intro he
    have hone : (⟨g.tabs, some id⟩ : TabGroup Uuid) = g := by simpa [LayoutNode.panes] using he
    rw [← hone]
  · intro hsel
    have hone : (⟨g.tabs, some id⟩ : TabGroup Uuid) = g := by rw [← hsel]
    simp [LayoutNode.panes, hone]

/-- Where a pane on the divider shows the offered panel, the move only moves the
focus. -/
theorem focusesAdjacent_of_shown (hd : ws.layout.allPanelIds.Nodup)
    (hin : ∀ id ∈ ws.layout.allPanelIds, id ∈ ws.panels) (h : panelId ∈ ws.layout.allPanelIds)
    (ho : ws.layout.OffersShown panelId direction) : ws.FocusesAdjacent panelId direction := by
  cases ha : ws.layout.nearestFacing panelId direction with
  | none =>
      have hnb := LayoutNode.neighbor_of_none hd h ha
      refine ⟨?_, ?_, ?_⟩
      · rw [hnb, ← LayoutNode.nearestFacing_isSome, ha]
        simp
      · simp [hnb]
      · simp [hnb]
  | some a =>
      obtain ⟨id, hid, g, hg, hmem, hsel⟩ := ho a ha
      have hnb := LayoutNode.neighbor_of_nearest hd h ha hid
      have hgp := LayoutNode.mem_panes_of_nearest h ha (LayoutNode.mem_panes_of_touching hg)
      have hidp : id ∈ ws.layout.allPanelIds := LayoutNode.mem_allPanelIds_of_pane hgp hmem
      obtain ⟨hfocus, hpanes⟩ := focusPanel_panes hd (hin id hidp) hgp hmem
      refine ⟨?_, ?_, ?_⟩
      · rw [hnb, ← LayoutNode.nearestFacing_isSome, ha]
        simp
      · intro id' hid'
        obtain rfl : id = id' := Option.some.inj (hnb.symm.trans hid')
        exact ⟨a, ha, g, hg, hmem⟩
      · intro id' hid'
        obtain rfl : id = id' := Option.some.inj (hnb.symm.trans hid')
        exact ⟨hfocus, hpanes.mpr hsel⟩

/-- **When a focus move only moves the focus**: exactly where no split faces the
direction, or the panel that the nearest one offers is shown by a pane on its
divider. -/
theorem focusesAdjacent_iff (hd : ws.layout.allPanelIds.Nodup)
    (hin : ∀ id ∈ ws.layout.allPanelIds, id ∈ ws.panels) (h : panelId ∈ ws.layout.allPanelIds) :
    ws.FocusesAdjacent panelId direction ↔ ws.layout.OffersShown panelId direction := by
  constructor
  · intro hf a ha
    -- a split faces the direction, so the move finds a panel, and in its other child
    have hsome : (ws.layout.neighbor panelId direction).isSome := by
      rw [hf.found, ← LayoutNode.nearestFacing_isSome, ha]
      rfl
    obtain ⟨id, hid⟩ := Option.isSome_iff_exists.mp hsome
    obtain ⟨a', ha', g, hg, hmem⟩ := hf.adjacent id hid
    obtain rfl : a = a' := Option.some.inj (ha.symm.trans ha')
    have hside := LayoutNode.mem_panes_of_touching hg
    have hedge : (a.sibling.edgePanel direction).isSome := by
      rw [LayoutNode.edgePanel_isSome]
      exact List.ne_nil_of_mem (LayoutNode.mem_allPanelIds_of_pane hside hmem)
    obtain ⟨id', hid'⟩ := Option.isSome_iff_exists.mp hedge
    have hnb := LayoutNode.neighbor_of_nearest hd h ha hid'
    obtain rfl : id = id' := Option.some.inj (hid.symm.trans hnb)
    have hgp := LayoutNode.mem_panes_of_nearest h ha hside
    have hidp : id ∈ ws.layout.allPanelIds := LayoutNode.mem_allPanelIds_of_pane hgp hmem
    have hkeep := (focusPanel_panes hd (hin id hidp) hgp hmem).2.mp (hf.onlyFocus id hid).2
    exact ⟨id, hid', g, hg, hmem, hkeep⟩
  · exact focusesAdjacent_of_shown hd hin h

/-- What the `pane.focus_direction` request, the palette and the shortcut do to
the selected workspace. -/
def focusDirection (ws : Workspace) (direction : Direction) : Workspace × Option Uuid :=
  match ws.focusedPanelId with
  | none => (ws, none)
  | some current =>
      match ws.layout.neighbor current direction with
      | none => (ws, none)
      | some neighbor => ((ws.focusPanel neighbor).1, some neighbor)

/-- A pane with one tab, and to its right a pane that shows the second of two. -/
def besideTwoTabs : Workspace :=
  { new 0 1 "/" with
    panels := ((AList.singleton 1 (.newTerminal 1)).insert 2 (.newTerminal 2)).insert 3
                (.newTerminal 3)
    layout := .splitNode .horizontal 1 (.paneNode [1] (some 1)) (.paneNode [2, 3] (some 3)) }

theorem focusesAdjacent_iff_sample :
    besideTwoTabs.FocusesAdjacent 1 .right ↔ besideTwoTabs.layout.OffersShown 1 .right := by
  have hin : ∀ id ∈ besideTwoTabs.layout.allPanelIds, id ∈ besideTwoTabs.panels := by
    intro id hid
    have hperm : List.Perm [1, 2, 3] [3, 2, 1] := by decide
    exact hperm.mem_iff.mp hid
  exact focusesAdjacent_iff (by decide) hin (by decide)

/-- The move to the right takes the first tab of the pane, which shows the
second one. -/
theorem focusPanel_changes_shown :
    besideTwoTabs.layout.neighbor 1 .right = some 2 ∧
      besideTwoTabs.layout.panes = [⟨[1], some 1⟩, ⟨[2, 3], some 3⟩] ∧
      (besideTwoTabs.focusPanel 2).1.layout.panes = [⟨[1], some 1⟩, ⟨[2, 3], some 2⟩] ∧
      ¬besideTwoTabs.FocusesAdjacent 1 .right := by
  have hnb : besideTwoTabs.layout.neighbor 1 .right = some 2 := by decide
  have hpanes : besideTwoTabs.layout.panes = [⟨[1], some 1⟩, ⟨[2, 3], some 3⟩] := rfl
  have hafter : (besideTwoTabs.focusPanel 2).1.layout.panes
      = [⟨[1], some 1⟩, ⟨[2, 3], some 2⟩] := by decide
  refine ⟨hnb, hpanes, hafter, ?_⟩
  intro hf
  have hkeep := (hf.onlyFocus 2 hnb).2
  rw [hafter, hpanes] at hkeep
  exact absurd hkeep (by decide)

end Workspace

end Jmux.Model
