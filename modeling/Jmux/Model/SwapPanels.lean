/-
  Jmux.Model.SwapPanels — swapping two panels is renaming them.

  `swap_panels` walks over the whole tree and writes one id for the other,
  among the tabs and in the selections.  That is a renaming by the
  transposition of the two ids, so what holds of renamings holds of it.

  Main result: `swapPanels_exchanges` — two panels change places, nothing else
  moves, and a second swap takes the first one back.
-/
import Jmux.Model.Layout

namespace Jmux.Model

open Jmux.Lib

namespace LayoutNode

/-! ## §1. Renaming the panels of a layout. -/

/-- Every id renamed, in the tabs and in the selections. -/
def relabel (f : Uuid → Uuid) : LayoutNode → LayoutNode
  | paneNode panelIds selected => paneNode (panelIds.map f) (selected.map f)
  | splitNode orientation divider first second =>
      splitNode orientation divider (first.relabel f) (second.relabel f)

theorem relabel_relabel (f g : Uuid → Uuid) (node : LayoutNode) :
    (node.relabel f).relabel g = node.relabel (g ∘ f) := by
  induction node with
  | paneNode panelIds selected => simp [relabel]
  | splitNode o d first second ihf ihs => simp [relabel, ihf, ihs]

theorem relabel_id (node : LayoutNode) : node.relabel id = node := by
  induction node with
  | paneNode panelIds selected => simp [relabel]
  | splitNode o d first second ihf ihs => simp [relabel, ihf, ihs]

theorem allPanelIds_relabel (f : Uuid → Uuid) (node : LayoutNode) :
    (node.relabel f).allPanelIds = node.allPanelIds.map f := by
  induction node with
  | paneNode panelIds selected => rfl
  | splitNode o d first second ihf ihs => simp [relabel, allPanelIds, ihf, ihs]

theorem swapPanels_eq_relabel (node : LayoutNode) (a b : Uuid) :
    (node.swapPanels a b).1 = node.relabel (Equiv.swap a b) := by
  rw [← exchange_eq_swap]
  induction node with
  | paneNode panelIds selected => rfl
  | splitNode o d first second ihf ihs => rw [swapPanels, relabel, ihf, ihs]

theorem swapPanels_found (node : LayoutNode) (a b : Uuid) :
    (node.swapPanels a b).2 = true ↔ a ∈ node.allPanelIds ∨ b ∈ node.allPanelIds := by
  induction node with
  | paneNode panelIds selected =>
      simp only [swapPanels, allPanelIds, List.any_eq_true, Bool.or_eq_true, beq_iff_eq]
      constructor
      · intro h
        obtain ⟨x, hx, hab⟩ := h
        rcases hab with rfl | rfl
        · exact .inl hx
        · exact .inr hx
      · intro h
        rcases h with h | h
        · exact ⟨a, h, .inl rfl⟩
        · exact ⟨b, h, .inr rfl⟩
  | splitNode o d first second ihf ihs =>
      rw [swapPanels, Bool.or_eq_true, ihf, ihs, allPanelIds, List.mem_append, List.mem_append]
      exact or_or_or_comm

/-! ## §2. What a swap does. -/

/-- The two ids of a list without repetition change places. -/
theorem getElem?_map_swap {ids : List Uuid} (hd : ids.Nodup) {a b : Uuid} (ha : a ∈ ids)
    (hb : b ∈ ids) (k : Nat) :
    (ids.map (Equiv.swap a b))[k]? =
      if k = ids.idxOf a then some b else if k = ids.idxOf b then some a else ids[k]? := by
  rw [List.getElem?_map]
  by_cases hka : k = ids.idxOf a
  · rw [if_pos hka, hka, List.getElem?_idxOf ha, Option.map_some, Equiv.swap_apply_left]
  · rw [if_neg hka]
    by_cases hkb : k = ids.idxOf b
    · rw [if_pos hkb, hkb, List.getElem?_idxOf hb, Option.map_some, Equiv.swap_apply_right]
    · rw [if_neg hkb]
      by_cases hk : k < ids.length
      · have hna : ids[k] ≠ a := fun he => hka (by rw [← he, hd.idxOf_getElem k hk])
        have hnb : ids[k] ≠ b := fun he => hkb (by rw [← he, hd.idxOf_getElem k hk])
        rw [List.getElem?_eq_getElem hk, Option.map_some, Equiv.swap_apply_of_ne_of_ne hna hnb]
      · rw [List.getElem?_eq_none (by omega)]
        rfl

/-- Two panels have changed places: the one stands where the other stood, in the
row of ids and in the pane, under the same splits, and a pane that showed one of
its tabs shows the tab in the same place. -/
structure Exchanges (a b : Uuid) (node node' : LayoutNode) : Prop where
  places : ∀ k, node'.allPanelIds[k]? =
    if k = node.allPanelIds.idxOf a then some b
    else if k = node.allPanelIds.idxOf b then some a
    else node.allPanelIds[k]?
  shape : node'.relabel (fun _ => 0) = node.relabel fun _ => 0
  panes : node'.panes = node.panes.map (TabGroup.rename (Equiv.swap a b))
  ids : node'.allPanelIds.Perm node.allPanelIds
  selections : ∀ (i : Nat) (g g' : TabGroup Uuid), node.panes[i]? = some g → node'.panes[i]? = some g' →
    (g'.Valid ↔ g.Valid)

/-- **A swap** of two panels of a layout with distinct ids exchanges their
places and is undone by a second one. -/
theorem swapPanels_exchanges (node : LayoutNode) (hd : node.allPanelIds.Nodup) {a b : Uuid}
    (ha : a ∈ node.allPanelIds) (hb : b ∈ node.allPanelIds) :
    (node.swapPanels a b).2 = true ∧ Exchanges a b node (node.swapPanels a b).1 ∧
      ((node.swapPanels a b).1.swapPanels a b).1 = node := by
  have hrelabel := swapPanels_eq_relabel node a b
  have hids : (node.swapPanels a b).1.allPanelIds = node.allPanelIds.map (Equiv.swap a b) := by
    rw [hrelabel, allPanelIds_relabel]
  have hpanes : (node.swapPanels a b).1.panes =
      node.panes.map (TabGroup.rename (Equiv.swap a b)) := by
    rw [panes_swapPanels, exchange_eq_swap]
  refine ⟨(swapPanels_found node a b).mpr (.inl ha), ⟨?_, ?_, hpanes, ?_, ?_⟩, ?_⟩
  · intro k
    rw [hids]
    exact getElem?_map_swap hd ha hb k
  · rw [hrelabel, relabel_relabel]
    rfl
  · -- the transposition keeps the ids among themselves
    rw [hids, List.perm_ext_iff_of_nodup (hd.map (Equiv.swap a b).injective) hd]
    intro x
    have hmem : ∀ y, y ∈ node.allPanelIds → Equiv.swap a b y ∈ node.allPanelIds := fun y hy =>
      @swap_keeps (· ∈ node.allPanelIds) a b y ha hb hy
    rw [List.mem_map]
    constructor
    · intro h
      obtain ⟨y, hy, rfl⟩ := h
      exact hmem y hy
    · intro hx
      exact ⟨Equiv.swap a b x, hmem x hx, Equiv.swap_apply_self a b x⟩
  · intro i g g' hg hg'
    rw [hpanes, List.getElem?_map, hg] at hg'
    rw [← Option.some.inj hg']
    exact TabGroup.valid_rename_iff (Equiv.swap a b).injective g
  · rw [swapPanels_eq_relabel, hrelabel, relabel_relabel]
    have hself : (Equiv.swap a b : Uuid → Uuid) ∘ Equiv.swap a b = id :=
      funext (Equiv.swap_apply_self a b)
    rw [hself, relabel_id]

/-- The shown tab of one pane and a hidden tab of another one. -/
theorem swapPanels_exchanges_sample :
    ∃ node : LayoutNode,
      node = splitNode .vertical 1 (paneNode [1, 2] (some 1)) (paneNode [3, 4] (some 3)) ∧
        (node.swapPanels 1 4).2 = true ∧ Exchanges 1 4 node (node.swapPanels 1 4).1 ∧
        ((node.swapPanels 1 4).1.swapPanels 1 4).1 = node :=
  ⟨_, rfl, swapPanels_exchanges
    (splitNode .vertical 1 (paneNode [1, 2] (some 1)) (paneNode [3, 4] (some 3)))
    (by decide) (by decide) (by decide)⟩

end LayoutNode

end Jmux.Model
