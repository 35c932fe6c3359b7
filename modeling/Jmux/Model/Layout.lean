/-
  Jmux.Model.Layout — the layout tree of a workspace (`model/panel.rs`).

  A layout is a pane with its tabs or a split of two layouts.  The source edits
  it in place and returns whether it found its panel; here an edit returns the
  new tree, and `none` where the source returns `false`, having written nothing.

  The panes from left to right (`panes`) are a row of tab groups, and the two
  spec lemmas say what every edit does to that row:
    * `panes_of_updatePaneWith` — one pane is replaced by the panes of another layout.
    * `panes_of_removePanel`    — one tab is closed, and its pane when that leaves it empty.
-/
import Jmux.Lib.TabGroups
import Mathlib.Data.Rat.Init
import Mathlib.Data.List.InsertIdx
import Mathlib.Logic.Equiv.Basic

namespace Jmux.Model

open Jmux.Lib

/-- A version 4 UUID: drawn at random, never drawn twice. -/
abbrev Uuid := Nat

inductive SplitOrientation
  | horizontal
  | vertical
  deriving DecidableEq, Repr

inductive Direction
  | left
  | right
  | up
  | down
  deriving DecidableEq, Repr

inductive LayoutNode
  | paneNode (panelIds : List Uuid) (selectedPanelId : Option Uuid)
  | splitNode (orientation : SplitOrientation) (dividerPosition : Rat) (first second : LayoutNode)
  deriving DecidableEq, Repr

namespace LayoutNode

/-! ## §1. Building and reading. -/

def singlePane (panelId : Uuid) : LayoutNode := paneNode [panelId] (some panelId)

/-- The existing content first, a new pane with the new panel second. -/
def split (self : LayoutNode) (orientation : SplitOrientation) (newPanelId : Uuid) : LayoutNode :=
  splitNode orientation (1 / 2) self (paneNode [newPanelId] (some newPanelId))

def allPanelIds : LayoutNode → List Uuid
  | paneNode panelIds _ => panelIds
  | splitNode _ _ first second => first.allPanelIds ++ second.allPanelIds

/-- The tabs of the first pane that holds the panel. -/
def findPaneWithPanelReadonly (panelId : Uuid) : LayoutNode → Option (List Uuid)
  | paneNode panelIds _ => if panelId ∈ panelIds then some panelIds else none
  | splitNode _ _ first second =>
      (first.findPaneWithPanelReadonly panelId).or (second.findPaneWithPanelReadonly panelId)

def isEmpty : LayoutNode → Bool
  | paneNode panelIds _ => panelIds.isEmpty
  | splitNode _ _ first second => first.isEmpty && second.isEmpty

/-! ## §2. Edits of the pane that holds a panel. -/

/-- Write `f` of its tabs and selection over the first pane that holds the
panel: what the callers of `find_pane_with_panel` do through the reference that
it returns, and the recursion of `select_panel` and `split_pane_with_panel`. -/
def updatePaneWith (panelId : Uuid) (f : List Uuid → Option Uuid → LayoutNode) :
    LayoutNode → Option LayoutNode
  | paneNode panelIds selected =>
      if panelId ∈ panelIds then some (f panelIds selected) else none
  | splitNode orientation divider first second =>
      match first.updatePaneWith panelId f with
      | some first' => some (splitNode orientation divider first' second)
      | none =>
          match second.updatePaneWith panelId f with
          | some second' => some (splitNode orientation divider first second')
          | none => none

def selectPanel (self : LayoutNode) (panelId : Uuid) : Option LayoutNode :=
  self.updatePaneWith panelId fun panelIds _ => paneNode panelIds (some panelId)

/-- Split the pane that holds the target, as `Workspace::split` and
`insert_panel` do. -/
def splitPaneOf (self : LayoutNode) (targetPanelId : Uuid) (orientation : SplitOrientation)
    (newPanelId : Uuid) : Option LayoutNode :=
  self.updatePaneWith targetPanelId fun panelIds selected =>
    (paneNode panelIds selected).split orientation newPanelId

/-- Left and up put the new pane first, right and down second. -/
def splitPaneWithPanel (self : LayoutNode) (targetPanelId panelId : Uuid)
    (orientation : SplitOrientation) (direction : Direction) : Option LayoutNode :=
  self.updatePaneWith targetPanelId fun panelIds selected =>
    let newPane := paneNode [panelId] (some panelId)
    let existing := paneNode panelIds selected
    if direction = .left ∨ direction = .up then
      splitNode orientation (1 / 2) newPane existing
    else
      splitNode orientation (1 / 2) existing newPane

/-- `panel_ids.insert(pos + 1, new)`, or a push where the target is not found. -/
def insertAfter (panelIds : List Uuid) (targetPanelId newPanelId : Uuid) : List Uuid :=
  match panelIds.idxOf? targetPanelId with
  | some pos => panelIds.insertIdx (pos + 1) newPanelId
  | none => panelIds ++ [newPanelId]

/-- A new tab after the target's, selected. -/
def addPanelToPane (self : LayoutNode) (targetPanelId newPanelId : Uuid) : Option LayoutNode :=
  self.updatePaneWith targetPanelId fun panelIds _ =>
    paneNode (insertAfter panelIds targetPanelId newPanelId) (some newPanelId)

/-- Take the tab out and put it back at the index, or last if there are fewer. -/
def moveWithin (panelIds : List Uuid) (panelId : Uuid) (newIndex : Nat) : List Uuid :=
  let rest := panelIds.erase panelId
  rest.insertIdx (min newIndex rest.length) panelId

def reorderPanelInPane (self : LayoutNode) (panelId : Uuid) (newIndex : Nat) :
    Option LayoutNode :=
  self.updatePaneWith panelId fun panelIds selected =>
    paneNode (moveWithin panelIds panelId newIndex) selected

/-! ## §3. Removing and swapping. -/

/-- A split of which one side may have become empty. -/
def collapse (orientation : SplitOrientation) (divider : Rat) (first second : LayoutNode) :
    LayoutNode :=
  if first.isEmpty then second
  else if second.isEmpty then first
  else splitNode orientation divider first second

def removePanel (panelId : Uuid) : LayoutNode → Option LayoutNode
  | paneNode panelIds selected =>
      if panelId ∈ panelIds then
        let rest := panelIds.erase panelId
        some (paneNode rest (if selected = some panelId then rest.head? else selected))
      else none
  | splitNode orientation divider first second =>
      match first.removePanel panelId with
      | some first' => some (collapse orientation divider first' second)
      | none =>
          match second.removePanel panelId with
          | some second' => some (collapse orientation divider first second')
          | none => none

/-- `a` for `b` and `b` for `a`. -/
def exchange (a b id : Uuid) : Uuid :=
  if id = a then b else if id = b then a else id

/-- Exchange the two ids in every pane; whether one of them was found. -/
def swapPanels (a b : Uuid) : LayoutNode → LayoutNode × Bool
  | paneNode panelIds selected =>
      (paneNode (panelIds.map (exchange a b)) (selected.map (exchange a b)),
        panelIds.any fun id => id == a || id == b)
  | splitNode orientation divider first second =>
      (splitNode orientation divider (first.swapPanels a b).1 (second.swapPanels a b).1,
        (first.swapPanels a b).2 || (second.swapPanels a b).2)

/-- `divider` is moved if the innermost split of the panel is found; its argument says whether
the panel is on the first side. -/
def resizePanel (panelId : Uuid) (divider : Rat → Bool → Rat) :
    LayoutNode → Option LayoutNode
  | paneNode _ _ => none
  | splitNode orientation position first second =>
      let inFirst := decide (panelId ∈ first.allPanelIds)
      let inSecond := decide (panelId ∈ second.allPanelIds)
      if inFirst || inSecond then
        -- deeper splits first
        match if inFirst then first.resizePanel panelId divider else none with
        | some first' => some (splitNode orientation position first' second)
        | none =>
            match if inSecond then second.resizePanel panelId divider else none with
            | some second' => some (splitNode orientation position first second')
            | none => some (splitNode orientation (divider position inFirst) first second)
      else none

/-! ## §4. The panes as a row of tab groups. -/

/-- The panes from left to right. -/
def panes : LayoutNode → List (TabGroup Uuid)
  | paneNode panelIds selected => [⟨panelIds, selected⟩]
  | splitNode _ _ first second => first.panes ++ second.panes

theorem allPanelIds_eq (node : LayoutNode) : node.allPanelIds = tabsOf node.panes := by
  induction node with
  | paneNode panelIds selected => simp [allPanelIds, panes]
  | splitNode o d first second ihf ihs => simp [allPanelIds, panes, ihf, ihs]

theorem mem_allPanelIds_of_pane {node : LayoutNode} {g : TabGroup Uuid} (hg : g ∈ node.panes)
    {id : Uuid} (hid : id ∈ g.tabs) : id ∈ node.allPanelIds := by
  rw [allPanelIds_eq]
  exact List.mem_flatMap.mpr ⟨g, hg, hid⟩

theorem panes_ne_nil (node : LayoutNode) : node.panes ≠ [] := by
  induction node with
  | paneNode panelIds selected => simp [panes]
  | splitNode o d first second ihf _ => simp [panes, ihf]

/-- A layout without an empty pane is not empty. -/
theorem isEmpty_eq_false (node : LayoutNode) (h : ∀ g ∈ node.panes, g.tabs ≠ []) :
    node.isEmpty = false := by
  induction node with
  | paneNode panelIds selected =>
      have hne : panelIds ≠ [] := h ⟨panelIds, selected⟩ (List.mem_singleton_self _)
      simpa [isEmpty] using hne
  | splitNode o d first second ihf _ =>
      have hf : first.isEmpty = false := ihf fun g hg => h g (List.mem_append_left _ hg)
      simp [isEmpty, hf]

theorem mem_allPanelIds_of_findPane {node : LayoutNode} {panelId : Uuid} {ids : List Uuid}
    (h : node.findPaneWithPanelReadonly panelId = some ids) :
    panelId ∈ ids ∧ ∃ g ∈ node.panes, g.tabs = ids := by
  induction node with
  | paneNode panelIds selected =>
      simp only [findPaneWithPanelReadonly] at h
      split at h
      · next hmem =>
          cases h
          exact ⟨hmem, ⟨ids, selected⟩, List.mem_singleton_self _, rfl⟩
      · cases h
  | splitNode o d first second ihf ihs =>
      simp only [findPaneWithPanelReadonly, Option.or_eq_some_iff] at h
      rcases h with h | ⟨_, h⟩
      · obtain ⟨hmem, g, hg, htabs⟩ := ihf h
        exact ⟨hmem, g, List.mem_append_left _ hg, htabs⟩
      · obtain ⟨hmem, g, hg, htabs⟩ := ihs h
        exact ⟨hmem, g, List.mem_append_right _ hg, htabs⟩

theorem findPane_isSome (node : LayoutNode) (panelId : Uuid) :
    (node.findPaneWithPanelReadonly panelId).isSome ↔ panelId ∈ node.allPanelIds := by
  induction node with
  | paneNode panelIds selected =>
      by_cases h : panelId ∈ panelIds <;> simp [findPaneWithPanelReadonly, allPanelIds, h]
  | splitNode o d first second ihf ihs =>
      rw [findPaneWithPanelReadonly, allPanelIds, List.mem_append, ← ihf, ← ihs, Option.isSome_or,
          Bool.or_eq_true]

/-- The pane edits find every panel of the tree, and no other. -/
theorem updatePaneWith_isSome (node : LayoutNode) (panelId : Uuid)
    (f : List Uuid → Option Uuid → LayoutNode) :
    (node.updatePaneWith panelId f).isSome ↔ panelId ∈ node.allPanelIds := by
  induction node with
  | paneNode panelIds selected =>
      by_cases h : panelId ∈ panelIds <;> simp [updatePaneWith, allPanelIds, h]
  | splitNode o d first second ihf ihs =>
      rw [allPanelIds, List.mem_append, ← ihf, ← ihs, updatePaneWith]
      cases first.updatePaneWith panelId f with
      | some first' => simp
      | none => cases second.updatePaneWith panelId f <;> simp

/-- **What a pane edit does**: the first pane with the panel is replaced. -/
theorem panes_of_updatePaneWith {node node' : LayoutNode} {panelId : Uuid}
    {f : List Uuid → Option Uuid → LayoutNode} (h : node.updatePaneWith panelId f = some node') :
    ∃ before g after, node.panes = before ++ g :: after ∧ panelId ∈ g.tabs ∧
      panelId ∉ tabsOf before ∧ node'.panes = before ++ (f g.tabs g.selected).panes ++ after := by
  induction node generalizing node' with
  | paneNode panelIds selected =>
      simp only [updatePaneWith] at h
      split at h
      · next hmem =>
          cases h
          exact ⟨[], ⟨panelIds, selected⟩, [], rfl, hmem, by simp, by simp⟩
      · cases h
  | splitNode o d first second ihf ihs =>
      simp only [updatePaneWith] at h
      split at h
      · next first' hf =>
          cases h
          obtain ⟨before, g, after, hpanes, hmem, hbefore, hnew⟩ := ihf hf
          refine ⟨before, g, after ++ second.panes, ?_, hmem, hbefore, ?_⟩
          · simp [panes, hpanes]
          · simp [panes, hnew]
      · next hf =>
          -- the first side does not hold the panel, so all of it stands before
          have hnot : panelId ∉ first.allPanelIds := by
            rw [← updatePaneWith_isSome first panelId f, hf]
            simp
          split at h
          · next second' hs =>
              cases h
              obtain ⟨before, g, after, hpanes, hmem, hbefore, hnew⟩ := ihs hs
              refine ⟨first.panes ++ before, g, after, ?_, hmem, ?_, ?_⟩
              · simp [panes, hpanes]
              · rw [tabsOf_append, List.mem_append, ← allPanelIds_eq]
                exact not_or.mpr ⟨hnot, hbefore⟩
              · simp [panes, hnew]
          · cases h

theorem removePanel_isSome (node : LayoutNode) (panelId : Uuid) :
    (node.removePanel panelId).isSome ↔ panelId ∈ node.allPanelIds := by
  induction node with
  | paneNode panelIds selected =>
      by_cases h : panelId ∈ panelIds <;> simp [removePanel, allPanelIds, h]
  | splitNode o d first second ihf ihs =>
      rw [allPanelIds, List.mem_append, ← ihf, ← ihs, removePanel]
      cases first.removePanel panelId with
      | some first' => simp
      | none => cases second.removePanel panelId <;> simp

theorem isEmpty_iff (node : LayoutNode) : node.isEmpty = true ↔ node.allPanelIds = [] := by
  induction node with
  | paneNode panelIds selected => simp [isEmpty, allPanelIds]
  | splitNode o d first second ihf ihs => simp [isEmpty, allPanelIds, ihf, ihs]

theorem allPanelIds_ne_nil {node : LayoutNode} (hne : ∀ g ∈ node.panes, g.tabs ≠ []) :
    node.allPanelIds ≠ [] := by
  intro hnil
  have hempty := (isEmpty_iff node).mpr hnil
  rw [isEmpty_eq_false node hne] at hempty
  cases hempty

/-- An empty side shows nothing. -/
theorem allPanelIds_collapse (orientation : SplitOrientation) (divider : Rat)
    (first second : LayoutNode) :
    (collapse orientation divider first second).allPanelIds =
      first.allPanelIds ++ second.allPanelIds := by
  unfold collapse
  split
  · next hf => simp [(isEmpty_iff first).mp hf]
  · split
    · next hs => simp [(isEmpty_iff second).mp hs]
    · rfl

/-- A removal takes the first tab with the id, in any layout. -/
theorem allPanelIds_removePanel {node node' : LayoutNode} {panelId : Uuid}
    (h : node.removePanel panelId = some node') :
    node'.allPanelIds = node.allPanelIds.erase panelId := by
  induction node generalizing node' with
  | paneNode panelIds selected =>
      simp only [removePanel] at h
      split at h
      · cases h
        rfl
      · cases h
  | splitNode o d first second ihf ihs =>
      simp only [removePanel] at h
      split at h
      · next first' hf =>
          cases h
          have hmem : panelId ∈ first.allPanelIds := by
            rw [← removePanel_isSome, hf]
            rfl
          rw [allPanelIds_collapse, ihf hf, allPanelIds, List.erase_append_left _ hmem]
      · next hf =>
          have hnot : panelId ∉ first.allPanelIds := by
            rw [← removePanel_isSome, hf]
            simp
          split at h
          · next second' hs =>
              cases h
              rw [allPanelIds_collapse, ihs hs, allPanelIds, List.erase_append_right _ hnot]
          · cases h

/-- The same where a removal that finds nothing leaves the layout. -/
theorem allPanelIds_removed (node : LayoutNode) (panelId : Uuid) :
    ((node.removePanel panelId).getD node).allPanelIds = node.allPanelIds.erase panelId := by
  cases h : node.removePanel panelId with
  | some node' => exact allPanelIds_removePanel h
  | none =>
      have hnot : panelId ∉ node.allPanelIds := by
        rw [← removePanel_isSome, h]
        simp
      exact (List.erase_of_not_mem hnot).symm

/-- A pane edit that adds `extra` to the tabs of one pane adds it to the layout's. -/
theorem allPanelIds_updatePaneWith {node node' : LayoutNode} {panelId : Uuid} (extra : List Uuid)
    {f : List Uuid → Option Uuid → LayoutNode}
    (hf : ∀ panelIds selected, (f panelIds selected).allPanelIds.Perm (extra ++ panelIds))
    (h : node.updatePaneWith panelId f = some node') :
    node'.allPanelIds.Perm (extra ++ node.allPanelIds) := by
  obtain ⟨before, g, after, hpanes, _, _, hpanes'⟩ := panes_of_updatePaneWith h
  have hg := hf g.tabs g.selected
  rw [allPanelIds_eq] at hg
  rw [allPanelIds_eq, allPanelIds_eq, hpanes, hpanes']
  exact tabsOf_replace before after hg

/-- Closing a tab leaves no empty group behind. -/
theorem remaining_tabs_ne_nil {before after : List (TabGroup Uuid)} {g : TabGroup Uuid}
    {panelId : Uuid} (h : ∀ n ∈ before ++ g :: after, n.tabs ≠ []) :
    ∀ n ∈ before ++ g.remains panelId ++ after, n.tabs ≠ [] := by
  intro n hn
  simp only [List.mem_append] at hn
  rcases hn with (hn | hn) | hn
  · exact h n (List.mem_append_left _ hn)
  · unfold TabGroup.remains at hn
    split at hn
    · cases hn
    · next hne =>
        obtain rfl := List.mem_singleton.mp hn
        exact hne
  · exact h n (List.mem_append_right _ (List.mem_cons_of_mem g hn))

/-- **What a removal does** to a layout without empty panes: the tab is closed
in the first pane with it, and a pane that held only that tab goes; the last
pane stays, empty. -/
theorem panes_of_removePanel {node node' : LayoutNode} {panelId : Uuid}
    (hne : ∀ g ∈ node.panes, g.tabs ≠ []) (h : node.removePanel panelId = some node') :
    ∃ before g after, node.panes = before ++ g :: after ∧ panelId ∈ g.tabs ∧
      panelId ∉ tabsOf before ∧
      (node'.panes = before ++ g.remains panelId ++ after ∨
        before ++ g.remains panelId ++ after = [] ∧ node'.isEmpty = true) := by
  induction node generalizing node' with
  | paneNode panelIds selected =>
      simp only [removePanel] at h
      split at h
      · next hmem =>
          obtain rfl := Option.some.inj h
          refine ⟨[], ⟨panelIds, selected⟩, [], rfl, hmem, by simp, ?_⟩
          by_cases hrest : panelIds.erase panelId = []
          · right
            simp [TabGroup.remains, isEmpty, hrest]
          · left
            simp [TabGroup.remains, TabGroup.close, panes, hrest]
      · cases h
  | splitNode o d first second ihf ihs =>
      have hnef : ∀ g ∈ first.panes, g.tabs ≠ [] := fun g hg => hne g (List.mem_append_left _ hg)
      have hnes : ∀ g ∈ second.panes, g.tabs ≠ [] := fun g hg => hne g (List.mem_append_right _ hg)
      simp only [removePanel] at h
      split at h
      · next first' hf =>
          obtain rfl := Option.some.inj h
          obtain ⟨before, g, after, hpanes, hmem, hbefore, hnew⟩ := ihf hnef hf
          refine ⟨before, g, after ++ second.panes, ?_, hmem, hbefore, .inl ?_⟩
          · simp [panes, hpanes]
          · rcases hnew with hnew | ⟨hnil, hemp⟩
            · have hfirst : first'.isEmpty = false :=
                isEmpty_eq_false first' (hnew ▸ remaining_tabs_ne_nil (hpanes ▸ hnef))
              simp [collapse, hfirst, isEmpty_eq_false second hnes, panes, hnew]
            · simp [collapse, hemp, ← List.append_assoc, hnil]
      · next hf =>
          have hnot : panelId ∉ first.allPanelIds := by
            rw [← removePanel_isSome, hf]
            simp
          split at h
          · next second' hs =>
              obtain rfl := Option.some.inj h
              obtain ⟨before, g, after, hpanes, hmem, hbefore, hnew⟩ := ihs hnes hs
              refine ⟨first.panes ++ before, g, after, ?_, hmem, ?_, .inl ?_⟩
              · simp [panes, hpanes]
              · rw [tabsOf_append, List.mem_append, ← allPanelIds_eq]
                exact not_or.mpr ⟨hnot, hbefore⟩
              · rcases hnew with hnew | ⟨hnil, hemp⟩
                · have hsecond : second'.isEmpty = false :=
                    isEmpty_eq_false second' (hnew ▸ remaining_tabs_ne_nil (hpanes ▸ hnes))
                  simp [collapse, hsecond, isEmpty_eq_false first hnef, panes, hnew]
                · simp [collapse, hemp, isEmpty_eq_false first hnef, List.append_assoc, hnil]
          · cases h

/-- Swapping renames the tabs of every pane. -/
theorem panes_swapPanels (node : LayoutNode) (a b : Uuid) :
    (node.swapPanels a b).1.panes = node.panes.map (TabGroup.rename (exchange a b)) := by
  induction node with
  | paneNode panelIds selected => rfl
  | splitNode o d first second ihf ihs => simp [swapPanels, panes, ihf, ihs]

theorem exchange_eq_swap (a b : Uuid) : exchange a b = Equiv.swap a b := by
  funext x
  rw [exchange, Equiv.swap_apply_def]

/-- What holds of the two ids and of a third holds of what the third becomes. -/
theorem swap_keeps {p : Uuid → Prop} {a b x : Uuid} (ha : p a) (hb : p b) (hx : p x) :
    p (Equiv.swap a b x) := by
  rw [Equiv.swap_apply_def]
  split
  · exact hb
  · split
    · exact ha
    · exact hx

end LayoutNode

end Jmux.Model
