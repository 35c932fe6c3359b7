/-
  Jmux.Model.ShownFocus — whether the focus is on a tab that can be seen.

  Closing the focused tab picks two tabs: `Workspace::remove_panel` moves the
  focus to the tab on the left, and the layout lets the pane show its first tab.
  These are one tab only near the left end of the pane; and where the pane goes,
  the focus goes to the first panel of the layout, whichever tab its pane shows.

  Main results:
    * `removePanel_shows_other` — the focus on another panel stays on a shown tab.
    * `removePanel_showsFocus_iff` — when the focus is on a shown tab afterwards.
-/
import Jmux.Model.WellFormed

namespace Jmux.Model

open Jmux.Lib

/-! ## §1. The tab beside a tab. -/

/-- The tab that `neighborInPane` picks in a pane of several tabs, and when it
is the one that the pane shows next. -/
theorem beside_eq_head_iff {tabs : List Uuid} (hd : tabs.Nodup) {panelId : Uuid}
    (h : panelId ∈ tabs) (hmore : tabs ≠ [panelId]) :
    ∃ beside ∈ tabs.erase panelId,
      ((tabs.idxOf? panelId).bind fun idx =>
        if idx > 0 then tabs[idx - 1]? else tabs[idx + 1]?) = some beside ∧
      ((tabs.erase panelId).head? = some beside ↔ tabs.idxOf panelId ≤ 1) := by
  obtain ⟨left, right, rfl⟩ := List.append_of_mem h
  obtain ⟨hleft, _, hapart⟩ := List.nodup_append'.mp hd
  have hnot : panelId ∉ left := fun hmem => hapart hmem List.mem_cons_self
  have hidx : (left ++ panelId :: right).idxOf panelId = left.length := by
    rw [List.idxOf_append_of_notMem hnot]
    simp
  have hidx? : (left ++ panelId :: right).idxOf? panelId = some left.length := by
    rw [List.idxOf?_eq_some_iff]
    refine ⟨by simp, by simp, ?_⟩
    intro j hj he
    rw [List.getElem_append_left hj] at he
    exact hnot (he ▸ List.getElem_mem hj)
  have herase : (left ++ panelId :: right).erase panelId = left ++ right := by
    rw [List.erase_append_right _ hnot]
    simp
  rw [hidx, hidx?, herase, Option.bind_some]
  rcases List.eq_nil_or_concat left with hnil | ⟨rest, beside, hlast⟩
  · -- leftmost: the tab on the right, which comes first now
    subst hnil
    have hright : right ≠ [] := by
      intro hr
      subst hr
      exact hmore rfl
    obtain ⟨beside, right', rfl⟩ := List.exists_cons_of_ne_nil hright
    exact ⟨beside, by simp, by simp, by simp⟩
  · -- the tab on the left, which comes first only if nothing is left of it
    subst hlast
    refine ⟨beside, by simp, by simp, ?_⟩
    cases rest with
    | nil => simp
    | cons first rest =>
        have hne : first ≠ beside := by
          have hd' : (first :: (rest ++ [beside])).Nodup := by simpa using hleft
          intro he
          subst he
          exact (List.nodup_cons.mp hd').1 (by simp)
        constructor
        · intro hhead
          have he : first = beside := by simpa using hhead
          exact absurd he hne
        · intro hlen
          simp at hlen

namespace Workspace

/-! ## §2. The focus and the tabs shown. -/

/-- The focused panel is there, and the pane that holds it shows it. -/
def ShowsFocus (ws : Workspace) : Prop :=
  ∃ id ∈ ws.panels, ws.focusedPanelId = some id ∧ Shows ws.layout.panes id

/-- Where the focused tab is closed: its pane has other tabs and it is the first
or second of them, or its pane goes and the first of the other panes shows its
first tab. -/
def ClosesInView (ws : Workspace) (panelId : Uuid) : Prop :=
  ws.focusedPanelId = some panelId →
    ∀ g ∈ ws.layout.panes, panelId ∈ g.tabs →
      if g.tabs = [panelId] then
        ∀ other, ws.layout.panes.find? (panelId ∉ ·.tabs) = some other →
          other.selected = other.tabs.head?
      else g.tabs.idxOf panelId ≤ 1

variable {ws : Workspace} {panelId : Uuid}

/-- The pane of a panel of the workspace, and the row of panes without it. -/
theorem WellFormed.exists_pane (h : ws.WellFormed) (hp : panelId ∈ ws.panels)
    (hrest : ∃ id, id ∈ ws.panels.erase panelId) :
    ∃ before g after, ws.layout.panes = before ++ g :: after ∧ panelId ∈ g.tabs ∧
      panelId ∉ tabsOf before ∧ panelId ∉ tabsOf after ∧
      ((ws.layout.removePanel panelId).getD ws.layout).panes =
        before ++ g.remains panelId ++ after := by
  have hmem : panelId ∈ ws.layout.allPanelIds := (h.inStep.same panelId).mpr hp
  obtain ⟨node', hrm⟩ := Option.isSome_iff_exists.mp ((ws.layout.removePanel_isSome panelId).mpr hmem)
  obtain ⟨before, g, after, hpanes, ht, hbefore, hcase⟩ :=
    LayoutNode.panes_of_removePanel h.inStep.tabs_ne_nil hrm
  have hd := h.inStep.sound.distinct
  rw [hpanes, tabsOf_append, tabsOf_cons, List.nodup_append', List.nodup_append'] at hd
  have hafter : panelId ∉ tabsOf after := fun ha => hd.2.1.2.2 ht ha
  refine ⟨before, g, after, hpanes, ht, hbefore, hafter, ?_⟩
  rw [hrm]
  rcases hcase with hcase | ⟨_, hempty⟩
  · exact hcase
  · -- something is left, so the layout is not empty
    obtain ⟨id, hid⟩ := hrest
    have hin := (h.inStep.remove panelId ⟨id, hid⟩).same id
    rw [hrm, Option.getD_some, (LayoutNode.isEmpty_iff node').mp hempty] at hin
    exact absurd (hin.mpr hid) List.not_mem_nil

/-- The tab beside the panel, as the source looks it up in the layout. -/
theorem WellFormed.neighborInPane_eq (h : ws.WellFormed) {g : TabGroup Uuid}
    (hg : g ∈ ws.layout.panes) (ht : panelId ∈ g.tabs) :
    neighborInPane ws.layout panelId = (g.tabs.idxOf? panelId).bind fun idx =>
      if idx > 0 then g.tabs[idx - 1]? else g.tabs[idx + 1]? := by
  have hmem : panelId ∈ ws.layout.allPanelIds := LayoutNode.mem_allPanelIds_of_pane hg ht
  obtain ⟨ids, hfind⟩ :=
    Option.isSome_iff_exists.mp ((LayoutNode.findPane_isSome ws.layout panelId).mpr hmem)
  obtain ⟨hin, n, hn, hids⟩ := LayoutNode.mem_allPanelIds_of_findPane hfind
  have hng : n = g := eq_of_mem_tabs h.inStep.sound.distinct hn hg (hids.symm ▸ hin) ht
  rw [neighborInPane, hfind, ← hids, hng, Option.bind_some]

/-! ## §3. The focus after a removal. -/

/-- Which tab a removal of the focused panel puts the focus on. -/
def nextFocus (ws : Workspace) (panelId : Uuid) : Option Uuid :=
  ((neighborInPane ws.layout panelId).filter (· ∈ ws.panels.erase panelId)).or
    ((ws.layout.removePanel panelId).getD ws.layout).allPanelIds.head?

theorem removePanel_of_mem (hp : panelId ∈ ws.panels) :
    (ws.removePanel panelId).1.panels = ws.panels.erase panelId ∧
      (ws.removePanel panelId).1.layout = (ws.layout.removePanel panelId).getD ws.layout ∧
      (ws.removePanel panelId).1.focusedPanelId =
        if ws.focusedPanelId = some panelId then ws.nextFocus panelId else ws.focusedPanelId := by
  obtain ⟨panel, hpanel⟩ := Option.isSome_iff_exists.mp (AList.lookup_isSome.mpr hp)
  rw [Workspace.removePanel, hpanel]
  exact ⟨rfl, rfl, rfl⟩

/-- **The focus on another panel** stays where it is, on a tab that is shown. -/
theorem removePanel_shows_other (h : ws.WellFormed) (hf : ws.ShowsFocus)
    (hp : panelId ∈ ws.panels) (hother : ws.focusedPanelId ≠ some panelId) :
    (ws.removePanel panelId).1.ShowsFocus := by
  obtain ⟨id, hid, hfocus, hshows⟩ := hf
  obtain ⟨hpanels, hlayout, hfocus'⟩ := removePanel_of_mem hp
  have hne : id ≠ panelId := fun he => hother (he ▸ hfocus)
  have hleft : id ∈ ws.panels.erase panelId := AList.mem_erase.mpr ⟨hne, hid⟩
  obtain ⟨before, g, after, hpanes, _, _, _, hrow⟩ := h.exists_pane hp ⟨id, hleft⟩
  refine ⟨id, by rwa [hpanels], ?_, ?_⟩
  · rw [hfocus', if_neg hother, hfocus]
  · rw [hlayout, hrow]
    exact (hpanes ▸ hshows).close hne

/-- The focused tab goes and its pane stays: the pane shows its first tab, the
focus is on the one beside. -/
theorem shows_nextFocus_iff_of_rest (h : ws.WellFormed) {before after : List (TabGroup Uuid)}
    {g : TabGroup Uuid} (hpanes : ws.layout.panes = before ++ g :: after)
    (hrow : Sound (before ++ g.remains panelId ++ after)) (ht : panelId ∈ g.tabs)
    (hsel : g.selected = some panelId) (hmore : g.tabs ≠ [panelId]) :
    ∃ id ∈ ws.panels.erase panelId, ws.nextFocus panelId = some id ∧
      (Shows (before ++ g.remains panelId ++ after) id ↔ g.tabs.idxOf panelId ≤ 1) := by
  have hg : g ∈ ws.layout.panes := by
    rw [hpanes]
    simp
  have hgd : g.tabs.Nodup := (List.nodup_flatMap.mp h.inStep.sound.distinct).1 g hg
  obtain ⟨beside, hbeside, hpick, hhead⟩ := beside_eq_head_iff hgd ht hmore
  have hmem : beside ∈ ws.panels.erase panelId := by
    obtain ⟨hne, hin⟩ := hgd.mem_erase_iff.mp hbeside
    exact AList.mem_erase.mpr
      ⟨hne, (h.inStep.same beside).mp (LayoutNode.mem_allPanelIds_of_pane hg hin)⟩
  have hkept : g.remains panelId = [g.close panelId] := if_neg (List.ne_nil_of_mem hbeside)
  refine ⟨beside, hmem, ?_, ?_⟩
  · rw [nextFocus, h.neighborInPane_eq hg ht, hpick]
    simp [Option.filter, hmem]
  · rw [← hhead]
    have hclose : g.close panelId ∈ before ++ g.remains panelId ++ after := by simp [hkept]
    rw [shows_iff_selected hrow.distinct hclose hbeside]
    show (if g.selected = some panelId then (g.tabs.erase panelId).head? else g.selected) = _ ↔ _
    rw [if_pos hsel]

/-- The focused tab goes with its pane: the focus is on the first tab of the
first of the other panes. -/
theorem shows_nextFocus_iff_of_empty (h : ws.WellFormed) {before after : List (TabGroup Uuid)}
    {g : TabGroup Uuid} (hpanes : ws.layout.panes = before ++ g :: after)
    (hbefore : panelId ∉ tabsOf before) (hafter : panelId ∉ tabsOf after)
    (hlayout : ((ws.layout.removePanel panelId).getD ws.layout).panes = before ++ after)
    (hin : InStep ((ws.layout.removePanel panelId).getD ws.layout) (ws.panels.erase panelId))
    (hone : g.tabs = [panelId]) :
    ∃ id ∈ ws.panels.erase panelId, ws.nextFocus panelId = some id ∧
      (Shows (before ++ after) id ↔
        ∀ other, ws.layout.panes.find? (panelId ∉ ·.tabs) = some other →
          other.selected = other.tabs.head?) := by
  have hg : g ∈ ws.layout.panes := by
    rw [hpanes]
    simp
  have hpick : neighborInPane ws.layout panelId = none := by
    rw [h.neighborInPane_eq hg (by simp [hone]), hone]
    simp
  obtain ⟨id, hid, hhead⟩ := hin.head
  have hfind : ws.layout.panes.find? (panelId ∉ ·.tabs) = (before ++ after).head? := by
    have hapart : ∀ n ∈ before ++ after, panelId ∉ n.tabs := by
      intro n hn hmem
      rcases List.mem_append.mp hn with hn | hn
      · exact hbefore (List.mem_flatMap.mpr ⟨n, hn, hmem⟩)
      · exact hafter (List.mem_flatMap.mpr ⟨n, hn, hmem⟩)
    have hfilter : ws.layout.panes.filter (panelId ∉ ·.tabs) = before ++ after := by
      rw [hpanes, List.filter_append, List.filter_cons_of_neg (by simp [hone]),
          ← List.filter_append]
      exact List.filter_eq_self.mpr fun n hn => by simpa using hapart n hn
    rw [← hfilter, List.head?_filter]
  have hne := LayoutNode.panes_ne_nil ((ws.layout.removePanel panelId).getD ws.layout)
  rw [hlayout] at hne
  obtain ⟨first, others, hrow⟩ := List.exists_cons_of_ne_nil hne
  have hfirst : first.tabs.head? = some id := by
    rw [LayoutNode.allPanelIds_eq, hlayout, hrow, tabsOf_cons] at hhead
    have htabs : first.tabs ≠ [] := hin.tabs_ne_nil first (by rw [hlayout, hrow]; simp)
    rwa [List.head?_append_of_ne_nil _ htabs] at hhead
  refine ⟨id, hid, ?_, ?_⟩
  · rw [nextFocus, hpick, hhead]
    rfl
  · have hd := hin.sound.distinct
    rw [hlayout, hrow] at hd
    rw [hfind, hrow, shows_iff_selected hd List.mem_cons_self (List.mem_of_mem_head? hfirst),
        List.head?_cons]
    constructor
    · intro hsel other hother
      cases hother
      rw [hsel, hfirst]
    · intro hsel
      rw [hsel first rfl, hfirst]

/-- **When the focus stays in view**: in a workspace with the focus on a shown
tab, exactly where the focused tab is not the one that is closed, or is one of
the first two tabs of its pane, or goes with its pane and the first of the other
panes shows its first tab. -/
theorem removePanel_showsFocus_iff (h : ws.WellFormed) (hf : ws.ShowsFocus)
    (hp : panelId ∈ ws.panels) (hleft : (ws.removePanel panelId).1.isEmpty = false) :
    (ws.removePanel panelId).1.ShowsFocus ↔ ws.ClosesInView panelId := by
  by_cases hother : ws.focusedPanelId = some panelId
  · obtain ⟨hpanels, hlayout, hfocus⟩ := removePanel_of_mem hp
    have hrest : ∃ id, id ∈ ws.panels.erase panelId := by
      rw [isEmpty_eq_false, hpanels] at hleft
      exact hleft
    obtain ⟨before, g, after, hpanes, ht, hbefore, hafter, hrow⟩ := h.exists_pane hp hrest
    have hin := h.inStep_erase hrest
    have hg : g ∈ ws.layout.panes := by
      rw [hpanes]
      simp
    -- the focus was in view, so this pane shows the tab that goes
    have hsel : g.selected = some panelId := by
      obtain ⟨id, _, hid, hshows⟩ := hf
      obtain rfl : panelId = id := Option.some.inj (hother.symm.trans hid)
      exact (shows_iff_selected h.inStep.sound.distinct hg ht).mp hshows
    have hcloses : ws.ClosesInView panelId ↔
        if g.tabs = [panelId] then
          ∀ other, ws.layout.panes.find? (panelId ∉ ·.tabs) = some other →
            other.selected = other.tabs.head?
        else g.tabs.idxOf panelId ≤ 1 := by
      constructor
      · intro hc
        exact hc hother g hg ht
      · intro hc _ n hn htn
        rwa [eq_of_mem_tabs h.inStep.sound.distinct hn hg htn ht]
    have hshows : (ws.removePanel panelId).1.ShowsFocus ↔
        ∃ id ∈ ws.panels.erase panelId, ws.nextFocus panelId = some id ∧
          Shows (before ++ g.remains panelId ++ after) id := by
      rw [ShowsFocus, hpanels, hlayout, hfocus, if_pos hother, hrow]
    have hnext : ∃ id ∈ ws.panels.erase panelId, ws.nextFocus panelId = some id ∧
        (Shows (before ++ g.remains panelId ++ after) id ↔ ws.ClosesInView panelId) := by
      rw [hcloses]
      by_cases hone : g.tabs = [panelId]
      · have hnone : g.remains panelId = [] := by simp [TabGroup.remains, hone]
        rw [hnone, List.append_nil] at hrow ⊢
        rw [if_pos hone]
        exact shows_nextFocus_iff_of_empty h hpanes hbefore hafter hrow hin hone
      · rw [if_neg hone]
        exact shows_nextFocus_iff_of_rest h hpanes (hrow ▸ hin.sound) ht hsel hone
    obtain ⟨id, hid, hnextId, hiff⟩ := hnext
    rw [hshows, ← hiff]
    constructor
    · intro hex
      obtain ⟨id', _, hid', hsh⟩ := hex
      obtain rfl : id = id' := Option.some.inj (hnextId.symm.trans hid')
      exact hsh
    · intro hsh
      exact ⟨id, hid, hnextId, hsh⟩
  · constructor
    · intro _ hfocus
      exact absurd hfocus hother
    · intro _
      exact removePanel_shows_other h hf hp hother

/-- One pane with three tabs, the last one shown and in focus. -/
def threeTabs : Workspace :=
  { new 0 1 "/" with
    panels         := ((AList.singleton 1 (.newTerminal 1)).insert 2 (.newTerminal 2)).insert 3
                        (.newTerminal 3)
    layout         := .paneNode [1, 2, 3] (some 3)
    focusedPanelId := some 3 }

theorem threeTabs_wellFormed : threeTabs.WellFormed where
  inStep :=
    { sound :=
        { distinct := by decide
          valid := by
            intro g hg
            obtain rfl := List.mem_singleton.mp hg
            exact ⟨3, by decide, rfl⟩ }
      same := by
        intro id
        have hperm : List.Perm [1, 2, 3] [3, 2, 1] := by decide
        exact hperm.mem_iff }
  keyed := ((Keyed.singleton (.newTerminal 1)).insert (.newTerminal 2)).insert (.newTerminal 3)
  focused := ⟨3, by decide, rfl⟩

theorem threeTabs_showsFocus : threeTabs.ShowsFocus :=
  ⟨3, by decide, rfl, ⟨[1, 2, 3], some 3⟩, List.mem_singleton_self _, by decide, rfl⟩

theorem removePanel_showsFocus_iff_sample :
    (threeTabs.removePanel 3).1.ShowsFocus ↔ threeTabs.ClosesInView 3 :=
  removePanel_showsFocus_iff threeTabs_wellFormed threeTabs_showsFocus (by decide) (by decide)

/-- Closing the third tab: the focus goes to the second, the pane shows the
first. -/
theorem removePanel_leaves_view :
    threeTabs.WellFormed ∧ threeTabs.ShowsFocus ∧ 3 ∈ threeTabs.panels ∧
      (threeTabs.removePanel 3).1.isEmpty = false ∧
      (threeTabs.removePanel 3).1.focusedPanelId = some 2 ∧
      (threeTabs.removePanel 3).1.layout = .paneNode [1, 2] (some 1) ∧
      ¬(threeTabs.removePanel 3).1.ShowsFocus := by
  have hfocus : (threeTabs.removePanel 3).1.focusedPanelId = some 2 := by decide
  have hlayout : (threeTabs.removePanel 3).1.layout = .paneNode [1, 2] (some 1) := by decide
  refine ⟨threeTabs_wellFormed, threeTabs_showsFocus, by decide, by decide, hfocus, hlayout, ?_⟩
  intro hshows
  obtain ⟨id, _, hid, g, hg, _, hsel⟩ := hshows
  rw [hlayout] at hg
  obtain rfl := List.mem_singleton.mp hg
  rw [hfocus] at hid
  rw [← hid] at hsel
  cases hsel

end Workspace

end Jmux.Model
