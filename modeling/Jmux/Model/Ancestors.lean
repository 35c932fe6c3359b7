/-
  Jmux.Model.Ancestors — a pane and the splits above it.

  A split seen from one of its children is an `Ancestor`: it keeps the other
  child.  Ancestors stand innermost first, and `plug` puts a layout back below
  them.  What the source does by recursion from the root is then said about one
  ancestor at a time.

  Main results:
    * `plug_ancestors`  — a panel's pane, below its ancestors, is the layout.
    * `panes_plug`      — the panes before, of and after a plugged layout.
    * `removePanel_plug_of_rest` / `removePanel_plug_of_empty` — a removal below
      ancestors: all of them stay, or the innermost gives way to its other child.
-/
import Jmux.Model.Layout

namespace Jmux.Model

open Jmux.Lib

namespace LayoutNode

/-! ## §1. Ancestors. -/

/-- A split as one of its children sees it. -/
structure Ancestor where
  orientation     : SplitOrientation
  dividerPosition : Rat
  /-- The child is the first one. -/
  isFirst         : Bool
  /-- The other child. -/
  sibling         : LayoutNode
  deriving DecidableEq, Repr

/-- The pane of a tab group. -/
def ofGroup (g : TabGroup Uuid) : LayoutNode := paneNode g.tabs g.selected

/-- The split, with this child. -/
def Ancestor.attach (a : Ancestor) (child : LayoutNode) : LayoutNode :=
  if a.isFirst then splitNode a.orientation a.dividerPosition child a.sibling
  else splitNode a.orientation a.dividerPosition a.sibling child

/-- A layout below its ancestors, the innermost first. -/
def plug : List Ancestor → LayoutNode → LayoutNode
  | [], node => node
  | a :: as, node => plug as (a.attach node)

/-- The splits above the first pane that holds the panel. -/
def ancestors (panelId : Uuid) : LayoutNode → List Ancestor
  | paneNode _ _ => []
  | splitNode orientation divider first second =>
      if panelId ∈ first.allPanelIds then
        first.ancestors panelId ++ [⟨orientation, divider, true, second⟩]
      else second.ancestors panelId ++ [⟨orientation, divider, false, first⟩]

theorem plug_append (as bs : List Ancestor) (node : LayoutNode) :
    plug (as ++ bs) node = plug bs (plug as node) := by
  induction as generalizing node with
  | nil => rfl
  | cons a as ih =>
      show plug (as ++ bs) (a.attach node) = plug bs (plug as (a.attach node))
      exact ih (a.attach node)

/-- **Every panel is in a pane below its ancestors.** -/
theorem plug_ancestors {node : LayoutNode} {panelId : Uuid} (h : panelId ∈ node.allPanelIds) :
    ∃ g, panelId ∈ g.tabs ∧ plug (node.ancestors panelId) (ofGroup g) = node := by
  induction node with
  | paneNode ids selected => exact ⟨⟨ids, selected⟩, h, rfl⟩
  | splitNode o d first second ihf ihs =>
      by_cases hf : panelId ∈ first.allPanelIds
      · obtain ⟨g, hmem, hplug⟩ := ihf hf
        refine ⟨g, hmem, ?_⟩
        rw [ancestors, if_pos hf, plug_append, hplug]
        rfl
      · have hs : panelId ∈ second.allPanelIds := (List.mem_append.mp h).resolve_left hf
        obtain ⟨g, hmem, hplug⟩ := ihs hs
        refine ⟨g, hmem, ?_⟩
        rw [ancestors, if_neg hf, plug_append, hplug]
        rfl

/-! ## §2. The panes around a plugged layout. -/

/-- The panes to its left. -/
def panesBefore : List Ancestor → List (TabGroup Uuid)
  | [] => []
  | a :: as => panesBefore as ++ (if a.isFirst then [] else a.sibling.panes)

/-- The panes to its right. -/
def panesAfter : List Ancestor → List (TabGroup Uuid)
  | [] => []
  | a :: as => (if a.isFirst then a.sibling.panes else []) ++ panesAfter as

theorem panes_attach (a : Ancestor) (child : LayoutNode) :
    (a.attach child).panes =
      (if a.isFirst then [] else a.sibling.panes) ++ child.panes ++
        (if a.isFirst then a.sibling.panes else []) := by
  unfold Ancestor.attach
  split
  · simp [panes]
  · simp [panes]

theorem panes_plug (as : List Ancestor) (node : LayoutNode) :
    (plug as node).panes = panesBefore as ++ node.panes ++ panesAfter as := by
  induction as generalizing node with
  | nil => simp [plug, panesBefore, panesAfter]
  | cons a as ih =>
      rw [plug, ih, panes_attach, panesBefore, panesAfter]
      simp only [List.append_assoc]

/-- The panes of the other children are the panes around. -/
theorem mem_around_of_sibling {as : List Ancestor} {a : Ancestor} (ha : a ∈ as)
    {g : TabGroup Uuid} (hg : g ∈ a.sibling.panes) : g ∈ panesBefore as ++ panesAfter as := by
  induction as with
  | nil => cases ha
  | cons b as ih =>
      rw [panesBefore, panesAfter]
      rcases List.mem_cons.mp ha with rfl | ha
      · cases hside : a.isFirst with
        | true => simp [hg]
        | false => simp [hg]
      · have hrest := List.mem_append.mp (ih ha)
        rcases hrest with hrest | hrest
        · simp [hrest]
        · simp [hrest]

/-- They are panes of the whole layout. -/
theorem mem_panes_of_sibling {as : List Ancestor} {a : Ancestor} (ha : a ∈ as)
    {g : TabGroup Uuid} (hg : g ∈ a.sibling.panes) (node : LayoutNode) :
    g ∈ (plug as node).panes := by
  rw [panes_plug]
  have h := List.mem_append.mp (mem_around_of_sibling ha hg)
  rcases h with h | h
  · simp [h]
  · simp [h]

/-- No other child of an ancestor holds a panel of the plugged layout. -/
theorem not_mem_sibling {as : List Ancestor} {node : LayoutNode}
    (hd : (plug as node).allPanelIds.Nodup) {panelId : Uuid} (h : panelId ∈ node.allPanelIds)
    {a : Ancestor} (ha : a ∈ as) : panelId ∉ a.sibling.allPanelIds := by
  intro hmem
  rw [allPanelIds_eq] at hmem
  obtain ⟨g, hg, ht⟩ := List.mem_flatMap.mp hmem
  have haround := List.mem_append.mp (mem_around_of_sibling ha hg)
  rw [allPanelIds_eq, panes_plug, tabsOf_append, tabsOf_append, ← allPanelIds_eq] at hd
  rw [List.nodup_append', List.nodup_append'] at hd
  obtain ⟨⟨_, _, hbefore⟩, _, hafter⟩ := hd
  rcases haround with hb | hb
  · exact hbefore (List.mem_flatMap.mpr ⟨g, hb, ht⟩) h
  · exact hafter (List.mem_append_right _ h) (List.mem_flatMap.mpr ⟨g, hb, ht⟩)

/-- The row of panes when the other child takes the place of the innermost
split: the panes around, and no other. -/
theorem panes_plug_sibling (a : Ancestor) (as : List Ancestor) :
    (plug as a.sibling).panes = panesBefore (a :: as) ++ panesAfter (a :: as) := by
  rw [panes_plug, panesBefore, panesAfter]
  cases a.isFirst with
  | true => simp
  | false => simp

/-! ## §3. Removing below ancestors. -/

/-- A split with a child that is not empty is not empty. -/
theorem isEmpty_attach {a : Ancestor} (hs : a.sibling.isEmpty = false) (child : LayoutNode) :
    (a.attach child).isEmpty = false := by
  unfold Ancestor.attach
  split
  · simp [isEmpty, hs]
  · simp [isEmpty, hs]

/-- One split up: the other child takes its place when this one is left empty. -/
theorem removePanel_attach {a : Ancestor} {panelId : Uuid} (hp : panelId ∉ a.sibling.allPanelIds)
    (hs : a.sibling.isEmpty = false) {child child' : LayoutNode}
    (h : child.removePanel panelId = some child') :
    (a.attach child).removePanel panelId =
      some (if child'.isEmpty then a.sibling else a.attach child') := by
  have hnone : a.sibling.removePanel panelId = none := by
    rw [← Option.not_isSome_iff_eq_none, removePanel_isSome]
    exact hp
  cases hside : a.isFirst with
  | true =>
      have hat : ∀ c, a.attach c = splitNode a.orientation a.dividerPosition c a.sibling := by
        intro c
        simp [Ancestor.attach, hside]
      rw [hat, hat, removePanel, h]
      simp [collapse, hs]
  | false =>
      have hat : ∀ c, a.attach c = splitNode a.orientation a.dividerPosition a.sibling c := by
        intro c
        simp [Ancestor.attach, hside]
      rw [hat, hat, removePanel, hnone, h]
      simp [collapse, hs]

variable {as : List Ancestor} {panelId : Uuid}

/-- **All ancestors stay** above a layout with a panel left. -/
theorem removePanel_plug_of_rest (hp : ∀ a ∈ as, panelId ∉ a.sibling.allPanelIds)
    (hs : ∀ a ∈ as, a.sibling.isEmpty = false) {node node' : LayoutNode}
    (h : node.removePanel panelId = some node') (hrest : node'.isEmpty = false) :
    (plug as node).removePanel panelId = some (plug as node') := by
  induction as generalizing node node' with
  | nil => exact h
  | cons a as ih =>
      have hsa : a.sibling.isEmpty = false := hs a List.mem_cons_self
      have hup := removePanel_attach (hp a List.mem_cons_self) hsa h
      rw [hrest] at hup
      exact ih (fun b hb => hp b (List.mem_cons_of_mem a hb))
        (fun b hb => hs b (List.mem_cons_of_mem a hb)) hup (isEmpty_attach hsa node')

/-- **The innermost ancestor goes** with a layout that is left empty, and its
other child takes its place. -/
theorem removePanel_plug_of_empty {a : Ancestor}
    (hp : ∀ b ∈ a :: as, panelId ∉ b.sibling.allPanelIds)
    (hs : ∀ b ∈ a :: as, b.sibling.isEmpty = false) {node node' : LayoutNode}
    (h : node.removePanel panelId = some node') (hempty : node'.isEmpty = true) :
    (plug (a :: as) node).removePanel panelId = some (plug as a.sibling) := by
  have hsa : a.sibling.isEmpty = false := hs a List.mem_cons_self
  have hup := removePanel_attach (hp a List.mem_cons_self) hsa h
  rw [hempty] at hup
  exact removePanel_plug_of_rest (fun b hb => hp b (List.mem_cons_of_mem a hb))
    (fun b hb => hs b (List.mem_cons_of_mem a hb)) hup hsa

end LayoutNode

end Jmux.Model
