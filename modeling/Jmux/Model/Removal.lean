/-
  Jmux.Model.Removal — what taking a panel out does to the layout.

  The source takes a panel out in place: the tab goes, and on the way back up
  every split with an empty child gives way to the other child.  In a layout
  without empty panes that is at most the innermost split above the panel's pane.

  Main results:
    * `removePanelInPlace_eq` — the removal in place and the one that gives the
      new tree agree.
    * `removePanelInPlace_exact` — what goes and what stays.
-/
import Jmux.Model.Ancestors

namespace Jmux.Model

open Jmux.Lib

namespace LayoutNode

/-! ## §1. In place. -/

/-- `remove_panel` as it writes to the tree: the tree it leaves, and whether it
found the panel. -/
def removePanelInPlace (panelId : Uuid) : LayoutNode → LayoutNode × Bool
  | paneNode panelIds selected =>
      match panelIds.idxOf? panelId with
      | some pos =>
          let rest := panelIds.eraseIdx pos
          (paneNode rest (if selected = some panelId then rest.head? else selected), true)
      | none => (paneNode panelIds selected, false)
  | splitNode orientation divider first second =>
      let onFirst := first.removePanelInPlace panelId
      -- the second child is left alone when the first one had the panel
      let onSecond := if onFirst.2 then (second, false) else second.removePanelInPlace panelId
      if onFirst.2 || onSecond.2 then (collapse orientation divider onFirst.1 onSecond.1, true)
      else (splitNode orientation divider onFirst.1 onSecond.1, false)

theorem removePanelInPlace_eq (node : LayoutNode) (panelId : Uuid) :
    node.removePanelInPlace panelId =
      ((node.removePanel panelId).getD node, (node.removePanel panelId).isSome) := by
  induction node with
  | paneNode panelIds selected =>
      have herase := List.erase_eq_eraseIdx panelIds panelId
      by_cases h : panelId ∈ panelIds
      · cases hpos : panelIds.idxOf? panelId with
        | none => exact absurd h (List.idxOf?_eq_none_iff.mp hpos)
        | some pos =>
            rw [hpos] at herase
            simp [removePanelInPlace, removePanel, hpos, h, herase]
      · have hpos : panelIds.idxOf? panelId = none := List.idxOf?_eq_none_iff.mpr h
        simp [removePanelInPlace, removePanel, hpos, h]
  | splitNode o d first second ihf ihs =>
      rw [removePanelInPlace, ihf, ihs, removePanel]
      cases hf : first.removePanel panelId with
      | some first' => simp
      | none =>
          cases hs : second.removePanel panelId with
          | some second' => simp
          | none => simp

/-! ## §2. What goes and what stays. -/

/-- The layout without a pane that closed its last tab: the innermost ancestor
gives way to its other child; a pane without ancestors stays, empty. -/
def giveWay : List Ancestor → LayoutNode → LayoutNode
  | [], emptied => emptied
  | a :: as, _ => plug as a.sibling

/-- What a removal makes of a layout: the one id goes from the row of ids, an
empty pane is left only when it was the only id, and the tab is closed in the
one pane that holds it, between the panes before and after. -/
structure Removes (panelId : Uuid) (node node' : LayoutNode) : Prop where
  order : node'.allPanelIds = node.allPanelIds.filter (· ≠ panelId)
  panes : ∃ before g after, node.panes = before ++ g :: after ∧ panelId ∈ g.tabs ∧
    panelId ∉ tabsOf before ∧ panelId ∉ tabsOf after ∧
    (node.allPanelIds ≠ [panelId] → node'.panes = before ++ g.remains panelId ++ after)
  noEmpty : node.allPanelIds ≠ [panelId] → ∀ g ∈ node'.panes, g.tabs ≠ []
  splits : ∃ g, panelId ∈ g.tabs ∧ plug (node.ancestors panelId) (ofGroup g) = node ∧
    node' =
      if g.tabs = [panelId] then giveWay (node.ancestors panelId) (ofGroup (g.close panelId))
      else plug (node.ancestors panelId) (ofGroup (g.close panelId))

theorem removePanel_ofGroup {g : TabGroup Uuid} {panelId : Uuid} (h : panelId ∈ g.tabs) :
    (ofGroup g).removePanel panelId = some (ofGroup (g.close panelId)) := by
  show (if panelId ∈ g.tabs then some (ofGroup (g.close panelId)) else none) = _
  rw [if_pos h]

theorem erase_eq_nil_iff {ids : List Uuid} {panelId : Uuid} (h : panelId ∈ ids) :
    ids.erase panelId = [] ↔ ids = [panelId] := by
  have hperm := List.perm_cons_erase h
  constructor
  · intro hnil
    rw [hnil] at hperm
    exact List.perm_singleton.mp hperm
  · intro hone
    rw [hone]
    simp

variable {node : LayoutNode} {panelId : Uuid}

/-- The removal, seen from the panel's pane. -/
theorem removePanel_split (hd : node.allPanelIds.Nodup) (hne : ∀ g ∈ node.panes, g.tabs ≠ [])
    (h : panelId ∈ node.allPanelIds) :
    ∃ g, panelId ∈ g.tabs ∧ plug (node.ancestors panelId) (ofGroup g) = node ∧
      node.removePanel panelId = some
        (if g.tabs = [panelId] then giveWay (node.ancestors panelId) (ofGroup (g.close panelId))
        else plug (node.ancestors panelId) (ofGroup (g.close panelId))) := by
  obtain ⟨g, hmem, hplug⟩ := plug_ancestors h
  refine ⟨g, hmem, hplug, ?_⟩
  have hgroup := removePanel_ofGroup hmem
  have hp : ∀ a ∈ node.ancestors panelId, panelId ∉ a.sibling.allPanelIds := fun a ha =>
    not_mem_sibling (by rwa [hplug]) hmem ha
  have hs : ∀ a ∈ node.ancestors panelId, a.sibling.isEmpty = false := fun a ha =>
    isEmpty_eq_false _ fun g' hg' => hne g' (hplug ▸ mem_panes_of_sibling ha hg' (ofGroup g))
  have hempty : (ofGroup (g.close panelId)).isEmpty = true ↔ g.tabs = [panelId] := by
    rw [isEmpty_iff, ← erase_eq_nil_iff hmem]
    rfl
  by_cases hone : g.tabs = [panelId]
  · rw [if_pos hone]
    cases has : node.ancestors panelId with
    | nil =>
        rw [has] at hplug
        rw [← hplug]
        exact hgroup
    | cons a as =>
        rw [has] at hplug hp hs
        rw [← hplug]
        exact removePanel_plug_of_empty hp hs hgroup (hempty.mpr hone)
  · rw [if_neg hone]
    have hrest : (ofGroup (g.close panelId)).isEmpty = false := by
      rw [Bool.eq_false_iff]
      exact fun he => hone (hempty.mp he)
    have hup := removePanel_plug_of_rest hp hs hgroup hrest
    rwa [hplug] at hup

/-- The row of panes that it leaves. -/
theorem panes_without {as : List Ancestor} {g : TabGroup Uuid} (hmem : panelId ∈ g.tabs)
    (hids : (plug as (ofGroup g)).allPanelIds ≠ [panelId]) :
    (if g.tabs = [panelId] then giveWay as (ofGroup (g.close panelId))
      else plug as (ofGroup (g.close panelId))).panes =
      panesBefore as ++ g.remains panelId ++ panesAfter as := by
  by_cases hone : g.tabs = [panelId]
  · have hnone : g.remains panelId = [] := by
      rw [TabGroup.remains, if_pos ((erase_eq_nil_iff hmem).mpr hone)]
    rw [if_pos hone, hnone, List.append_nil]
    cases as with
    | nil => exact absurd hone hids
    | cons a as => exact panes_plug_sibling a as
  · have hsome : g.remains panelId = [g.close panelId] := by
      rw [TabGroup.remains, if_neg ((erase_eq_nil_iff hmem).not.mpr hone)]
    rw [if_neg hone, panes_plug, hsome]
    rfl

/-- A panel of the layout is found and taken out. -/
theorem exists_removes (hd : node.allPanelIds.Nodup) (hne : ∀ g ∈ node.panes, g.tabs ≠ [])
    (h : panelId ∈ node.allPanelIds) :
    ∃ node', node.removePanel panelId = some node' ∧ Removes panelId node node' := by
  obtain ⟨g, hmem, hplug, hrm⟩ := removePanel_split hd hne h
  have hpanes : node.panes = panesBefore (node.ancestors panelId) ++
      g :: panesAfter (node.ancestors panelId) := by
    have hrow := panes_plug (node.ancestors panelId) (ofGroup g)
    rw [hplug] at hrow
    rw [hrow]
    simp [ofGroup, LayoutNode.panes]
  -- its own pane is the only one with the panel
  have hdistinct := hd
  rw [allPanelIds_eq, hpanes, tabsOf_append, tabsOf_cons, List.nodup_append',
      List.nodup_append'] at hdistinct
  obtain ⟨_, ⟨_, _, hafter⟩, hbefore⟩ := hdistinct
  have hleft : panelId ∉ tabsOf (panesBefore (node.ancestors panelId)) := fun hb =>
    hbefore hb (List.mem_append_left _ hmem)
  have hwithout (hids : node.allPanelIds ≠ [panelId]) :=
    @panes_without panelId (node.ancestors panelId) g hmem (by rwa [hplug])
  refine ⟨_, hrm, ?_, ?_, ?_, ?_⟩
  · rw [allPanelIds_removePanel hrm, hd.erase_eq_filter]
    exact List.filter_congr fun x _ => by simp [bne, beq_eq_decide]
  · exact ⟨_, g, _, hpanes, hmem, hleft, hafter hmem, hwithout⟩
  · intro hids
    rw [hwithout hids]
    exact remaining_tabs_ne_nil (hpanes ▸ hne)
  · exact ⟨g, hmem, hplug, rfl⟩

/-- **Removal is exact**: in a layout with distinct ids and no empty pane it
takes out the panel it is given and nothing else; a layout without that panel
stays as it is. -/
theorem removePanelInPlace_exact (node : LayoutNode) (hd : node.allPanelIds.Nodup)
    (hne : ∀ g ∈ node.panes, g.tabs ≠ []) (panelId : Uuid) :
    (panelId ∈ node.allPanelIds →
      (node.removePanelInPlace panelId).2 = true ∧
        Removes panelId node (node.removePanelInPlace panelId).1) ∧
    (panelId ∉ node.allPanelIds → node.removePanelInPlace panelId = (node, false)) := by
  rw [removePanelInPlace_eq]
  refine ⟨?_, ?_⟩
  · intro h
    obtain ⟨node', hrm, hremoves⟩ := exists_removes hd hne h
    rw [hrm]
    exact ⟨rfl, hremoves⟩
  · intro h
    have hnone : node.removePanel panelId = none := by
      rw [← Option.not_isSome_iff_eq_none, removePanel_isSome]
      exact h
    rw [hnone]
    rfl

/-- Two panes side by side; the first one closes its only tab. -/
theorem removePanelInPlace_exact_sample :
    ∃ node : LayoutNode,
      node = splitNode .horizontal 1 (paneNode [1] (some 1)) (paneNode [2, 3] (some 3)) ∧
        (node.removePanelInPlace 1).2 = true ∧ Removes 1 node (node.removePanelInPlace 1).1 := by
  refine ⟨_, rfl, ?_⟩
  have hexact := removePanelInPlace_exact
    (splitNode .horizontal 1 (paneNode [1] (some 1)) (paneNode [2, 3] (some 3)))
    (by decide) (by simp [LayoutNode.panes]) 1
  exact hexact.1 (by decide)

end LayoutNode

end Jmux.Model
