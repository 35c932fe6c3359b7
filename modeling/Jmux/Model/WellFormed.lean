/-
  Jmux.Model.WellFormed — the workspace mutators keep the representation.

  `WellFormed` is what the mutators rely on and keep: the layout and the panels
  map are in step, every panel lies under its own id, and the focus is on a
  panel of the map.  A mutator that takes panels away keeps it as long as one is
  left (`Held`).
-/
import Jmux.Model.InStep
import Jmux.Model.AgentMonitor

namespace Jmux.Model

open Jmux.Lib

/-- Every panel lies under its own id. -/
def Keyed (panels : Panels) : Prop := ∀ id panel, panels.lookup id = some panel → panel.id = id

namespace Keyed

variable {panels : Panels}

theorem singleton (panel : Panel) : Keyed (AList.singleton panel.id panel) := by
  intro id other h
  rw [← AList.insert_empty, AList.lookup_insert_eq_ite] at h
  split at h
  · next hid =>
      cases h
      exact hid.symm
  · cases h

theorem insert (h : Keyed panels) (panel : Panel) : Keyed (panels.insert panel.id panel) := by
  intro id other hl
  rw [AList.lookup_insert_eq_ite] at hl
  split at hl
  · next hid =>
      cases hl
      exact hid.symm
  · exact h id other hl

theorem erase (h : Keyed panels) (panelId : Uuid) : Keyed (panels.erase panelId) := by
  intro id other hl
  rw [AList.lookup_erase_eq_ite] at hl
  split at hl
  · cases hl
  · exact h id other hl

theorem modify (h : Keyed panels) (panelId : Uuid) {f : Panel → Panel}
    (hf : ∀ panel, (f panel).id = panel.id) : Keyed (panels.modify panelId f) := by
  intro id other hl
  rw [AList.lookup_modify] at hl
  split at hl
  · next hid =>
      obtain ⟨panel, hpanel, rfl⟩ := Option.map_eq_some_iff.mp hl
      rw [hf, hid]
      exact h panelId panel hpanel
  · exact h id other hl

end Keyed

theorem mem_modify_iff (panels : Panels) (panelId id : Uuid) (f : Panel → Panel) :
    id ∈ panels.modify panelId f ↔ id ∈ panels := by
  rw [← AList.lookup_isSome, ← AList.lookup_isSome, AList.lookup_modify]
  split
  · next hid => rw [Option.isSome_map, hid]
  · rfl

namespace Workspace

structure WellFormed (ws : Workspace) : Prop where
  inStep  : InStep ws.layout ws.panels
  keyed   : Keyed ws.panels
  focused : ∃ id ∈ ws.panels, ws.focusedPanelId = some id

theorem isEmpty_eq_false {ws : Workspace} : ws.isEmpty = false ↔ ∃ id, id ∈ ws.panels := by
  simp only [isEmpty, List.isEmpty_eq_false_iff_exists_mem, AList.mem_keys]

theorem WellFormed.nonempty {ws : Workspace} (h : ws.WellFormed) : ∃ id, id ∈ ws.panels := by
  obtain ⟨id, hid, _⟩ := h.focused
  exact ⟨id, hid⟩

/-- Well-formed as long as a panel is left. -/
def Held (ws : Workspace) : Prop := ws.isEmpty = false → ws.WellFormed

theorem WellFormed.held {ws : Workspace} (h : ws.WellFormed) : ws.Held := fun _ => h

variable {ws : Workspace}

/-! ## §1. New workspaces. -/

theorem new_wellFormed (id panelId : Uuid) (home : String) :
    (new id panelId home).WellFormed where
  inStep  := .singlePane panelId _
  keyed   := Keyed.singleton (.newTerminal panelId)
  focused := ⟨panelId, by simp [new, AList.mem_keys], rfl⟩

theorem withDirectory_wellFormed (id panelId : Uuid) (home directory : String) :
    (withDirectory id panelId home directory).WellFormed := by
  have h := new_wellFormed id panelId home
  refine ⟨?_, ?_, panelId, ?_, rfl⟩
  · exact h.inStep.congr fun x => mem_modify_iff _ panelId x _
  · exact h.keyed.modify panelId fun _ => rfl
  · exact (mem_modify_iff _ panelId panelId _).mpr (by simp [new, AList.mem_keys])

/-! ## §2. Panels that come. -/

/-- A layout for the map with the new panel, and the focus on it. -/
theorem WellFormed.withNew (h : ws.WellFormed) (panel : Panel) {layout : LayoutNode}
    (hl : InStep layout (ws.panels.insert panel.id panel)) :
    ({ ws with panels := ws.panels.insert panel.id panel, layout }.shiftFocus
      panel.id).WellFormed where
  inStep  := hl
  keyed   := h.keyed.insert panel
  focused := ⟨panel.id, (AList.mem_insert _).mpr (.inl rfl), rfl⟩

/-- A pane edit for a new panel, in any pane of the workspace. -/
theorem WellFormed.inStep_new (h : ws.WellFormed) (panel : Panel) (hn : panel.id ∉ ws.panels)
    {target : Uuid} (ht : target ∈ ws.panels) {f : List Uuid → Option Uuid → LayoutNode}
    (hf : EditsPane [panel.id] target f) :
    ∃ layout, ws.layout.updatePaneWith target f = some layout ∧
      InStep layout (ws.panels.insert panel.id panel) := by
  obtain ⟨layout, hup⟩ := h.inStep.exists_update ht f
  refine ⟨layout, hup, h.inStep.update hf hup (List.nodup_singleton _) ?_ ?_⟩
  · intro id hid
    rw [List.mem_singleton.mp hid]
    exact hn
  · intro id
    rw [AList.mem_insert, List.mem_singleton]

theorem WellFormed.insertPanel (h : ws.WellFormed) {panel : Panel} (hn : panel.id ∉ ws.panels)
    (orientation : SplitOrientation) : (ws.insertPanel panel orientation).WellFormed := by
  obtain ⟨focused, hmem, hfocus⟩ := h.focused
  obtain ⟨layout, hup, hin⟩ :=
    h.inStep_new panel hn hmem (editsPane_split focused orientation panel.id)
  have hl : splitFocused ws.layout ws.focusedPanelId orientation panel.id = layout := by
    rw [splitFocused, hfocus, Option.bind_some, LayoutNode.splitPaneOf, hup]
  rw [Workspace.insertPanel, hl]
  exact h.withNew panel hin

theorem WellFormed.split (h : ws.WellFormed) {newId : Uuid} (hn : newId ∉ ws.panels)
    (orientation : SplitOrientation) (panelType : PanelType) :
    (ws.split orientation panelType newId).WellFormed :=
  h.insertPanel (by rwa [Panel.ofType_id]) orientation

/-- A new panel as a tab of a pane of the workspace. -/
theorem WellFormed.addTab (h : ws.WellFormed) (panel : Panel) (hn : panel.id ∉ ws.panels)
    {target : Uuid} (ht : target ∈ ws.panels) :
    ∃ layout, ws.layout.addPanelToPane target panel.id = some layout ∧
      ({ ws with panels := ws.panels.insert panel.id panel, layout }.shiftFocus
        panel.id).WellFormed := by
  obtain ⟨layout, hup, hin⟩ := h.inStep_new panel hn ht (editsPane_add target panel.id)
  exact ⟨layout, hup, h.withNew panel hin⟩

theorem WellFormed.reopenLastClosedPanel (h : ws.WellFormed) {newId : Uuid}
    (hn : newId ∉ ws.panels) : (ws.reopenLastClosedPanel newId).1.WellFormed := by
  unfold Workspace.reopenLastClosedPanel
  split
  · exact h
  · next closed _ =>
      obtain ⟨focused, hmem, hfocus⟩ := h.focused
      let panel : Panel := { closed with id := newId, pendingScrollback := none, ttyName := none }
      obtain ⟨layout, hadd, hwf⟩ := h.addTab panel hn hmem
      have hadd : ws.layout.addPanelToPane focused newId = some layout := hadd
      simp only [hfocus, Option.some_or, hadd, Option.getD_some]
      exact ⟨hwf.inStep, hwf.keyed, hwf.focused⟩

/-! ## §3. Panels that go. -/

/-- The layout after a removal from both, and the panel that can take the focus. -/
theorem WellFormed.inStep_erase (h : ws.WellFormed) {panelId : Uuid}
    (hrest : ∃ id, id ∈ ws.panels.erase panelId) :
    InStep ((ws.layout.removePanel panelId).getD ws.layout) (ws.panels.erase panelId) :=
  h.inStep.remove panelId hrest

/-- The focus after a removal is on a panel that is left, when the focus of the
removed panel goes to one of these. -/
theorem WellFormed.focus_erase (h : ws.WellFormed) {panelId : Uuid} {next : Option Uuid}
    (hnext : ∃ id ∈ ws.panels.erase panelId, next = some id) :
    ∃ id ∈ ws.panels.erase panelId,
      (if ws.focusedPanelId = some panelId then next else ws.focusedPanelId) = some id := by
  obtain ⟨focused, hmem, hfocus⟩ := h.focused
  split
  · exact hnext
  · next hne =>
      refine ⟨focused, AList.mem_erase.mpr ⟨?_, hmem⟩, hfocus⟩
      rintro rfl
      exact hne hfocus

theorem WellFormed.removePanel (h : ws.WellFormed) (panelId : Uuid) :
    (ws.removePanel panelId).1.Held := by
  unfold Workspace.removePanel
  split
  · exact h.held
  · intro hne
    have hrest : ∃ id, id ∈ ws.panels.erase panelId := isEmpty_eq_false.mp hne
    have hin := h.inStep_erase hrest
    refine ⟨hin, h.keyed.erase panelId, h.focus_erase ?_⟩
    -- a neighbour that is still there, or else the first panel of the layout
    cases hn : (neighborInPane ws.layout panelId).filter (· ∈ ws.panels.erase panelId) with
    | some neighbor =>
        obtain ⟨_, hmem⟩ := Option.filter_eq_some_iff.mp hn
        exact ⟨neighbor, by simpa using hmem, rfl⟩
    | none =>
        rw [Option.none_or]
        exact hin.head

theorem WellFormed.detachPanel (h : ws.WellFormed) {panelId : Uuid} {panel : Panel}
    {ws' : Workspace} (hd : ws.detachPanel panelId = some (panel, ws')) : ws'.Held := by
  unfold Workspace.detachPanel at hd
  split at hd
  · cases hd
  · obtain ⟨_, rfl⟩ := Prod.mk.inj (Option.some.inj hd)
    intro hne
    have hrest : ∃ id, id ∈ ws.panels.erase panelId := isEmpty_eq_false.mp hne
    have hin := h.inStep_erase hrest
    exact ⟨hin, h.keyed.erase panelId, h.focus_erase hin.head⟩

/-! ## §4. Panels that move. -/

/-- Another layout for the same panels, and the focus on one of them. -/
theorem WellFormed.withLayout (h : ws.WellFormed) {layout : LayoutNode} {panelId : Uuid}
    (hl : InStep layout ws.panels) (hp : panelId ∈ ws.panels) :
    ({ ws with layout }.shiftFocus panelId).WellFormed :=
  ⟨hl, h.keyed, panelId, hp, rfl⟩

theorem WellFormed.movePanelToPane (h : ws.WellFormed) (source target : Uuid) :
    (ws.movePanelToPane source target).1.WellFormed := by
  unfold Workspace.movePanelToPane
  split
  · exact h
  · next hne =>
      split
      · exact h
      · next hmem =>
          push Not at hmem
          split
          · exact h
          · obtain ⟨layout, hup, hin⟩ :=
              h.inStep.relocate (editsPane_add target source) hmem.1 hmem.2 hne
            have hadd : ((ws.layout.removePanel source).getD ws.layout).addPanelToPane target source
                = some layout := hup
            simp only [hadd]
            exact h.withLayout hin hmem.1

theorem WellFormed.splitPanelIntoPane (h : ws.WellFormed) (source target : Uuid)
    (orientation : SplitOrientation) (direction : Direction) :
    (ws.splitPanelIntoPane source target orientation direction).1.WellFormed := by
  unfold Workspace.splitPanelIntoPane
  split
  · exact h
  · next hne =>
      split
      · exact h
      · next hmem =>
          push Not at hmem
          obtain ⟨layout, hup, hin⟩ :=
            h.inStep.relocate (editsPane_splitWithPanel target orientation direction source)
              hmem.1 hmem.2 hne
          have hsplit : ((ws.layout.removePanel source).getD ws.layout).splitPaneWithPanel
              target source orientation direction = some layout := hup
          simp only [hsplit]
          exact h.withLayout hin hmem.1

/-- The pane that a drag goes to is another panel's. -/
theorem WellFormed.dragTarget (h : ws.WellFormed) {panelId target : Uuid}
    (ht : ws.dragTarget panelId = some target) : target ∈ ws.panels ∧ panelId ≠ target := by
  obtain ⟨focused, hmem, hfocus⟩ := h.focused
  unfold Workspace.dragTarget at ht
  split at ht
  · refine ⟨(h.inStep.same target).mp (List.mem_of_find?_eq_some ht), ?_⟩
    have hne := List.find?_some ht
    exact Ne.symm (of_decide_eq_true hne)
  · next hne =>
      obtain rfl : focused = target := Option.some.inj (hfocus.symm.trans ht)
      refine ⟨hmem, ?_⟩
      rintro rfl
      exact hne hfocus

theorem WellFormed.dragToSplit (h : ws.WellFormed) (panelId : Uuid) (direction : Direction) :
    (ws.dragToSplit panelId direction).1.WellFormed := by
  unfold Workspace.dragToSplit
  split
  · exact h
  · next hmem =>
      push Not at hmem
      split
      · exact h
      · next target ht =>
          obtain ⟨htarget, hne⟩ := h.dragTarget ht
          obtain ⟨layout, hup, hin⟩ :=
            h.inStep.relocate
              (editsPane_splitWithPanel target (dragOrientation direction) direction panelId)
              hmem htarget hne
          have hsplit : ((ws.layout.removePanel panelId).getD ws.layout).splitPaneWithPanel
              target panelId (dragOrientation direction) direction = some layout := hup
          simp only [hsplit]
          exact h.withLayout hin hmem

/-- An edit of one pane that only rearranges it. -/
theorem WellFormed.inStep_rearranged (h : ws.WellFormed) {target : Uuid} {layout : LayoutNode}
    {f : List Uuid → Option Uuid → LayoutNode} (hf : EditsPane [] target f)
    (hup : ws.layout.updatePaneWith target f = some layout) : InStep layout ws.panels :=
  h.inStep.update hf hup List.nodup_nil (by simp) (by simp)

theorem WellFormed.focusPanel (h : ws.WellFormed) (panelId : Uuid) :
    (ws.focusPanel panelId).1.WellFormed := by
  unfold Workspace.focusPanel
  split
  · exact h
  · next hmem =>
      push Not at hmem
      split
      · exact h
      · next layout hsel =>
          exact ⟨h.inStep_rearranged (editsPane_select panelId) hsel, h.keyed, panelId, hmem, rfl⟩

/-! ## §5. The subagent monitor's sync. -/

/-- A round over the stale panes; it may take the last panel away. -/
theorem Held.closeStale (h : ws.Held) (id : Uuid) : (ws.closeStale id).Held := by
  intro hne
  obtain ⟨other, hother⟩ : ∃ x, x ∈ ws.panels.erase id := isEmpty_eq_false.mp hne
  have hwf := h (isEmpty_eq_false.mpr ⟨other, (AList.mem_erase.mp hother).2⟩)
  have hin := hwf.inStep_erase ⟨other, hother⟩
  exact ⟨hin, hwf.keyed.erase id, hwf.focus_erase hin.head⟩

theorem Held.closeAllStale (h : ws.Held) (ids : List Uuid) :
    (ids.foldl Workspace.closeStale ws).Held := by
  induction ids generalizing ws with
  | nil => exact h
  | cons id ids ih => exact ih (h.closeStale id)

theorem mem_of_closeAllStale {ids : List Uuid} {x : Uuid}
    (hx : x ∈ (ids.foldl closeStale ws).panels) : x ∈ ws.panels := by
  induction ids generalizing ws with
  | nil => exact hx
  | cons id ids ih =>
      have hx' : x ∈ ws.panels.erase id := ih hx
      exact (AList.mem_erase.mp hx').2

theorem mem_of_isNonMonitor {id : Uuid} (h : ws.isNonMonitor id = true) : id ∈ ws.panels :=
  AList.lookup_isSome.mp (Option.isSome_of_any h)

/-- The pane that is split for a monitor is there. -/
theorem mem_of_monitorAnchor {prevMonitor : Option Uuid} {anchor : Uuid}
    (hprev : ∀ id, prevMonitor = some id → id ∈ ws.panels)
    (ha : ws.monitorAnchor prevMonitor = some anchor) : anchor ∈ ws.panels := by
  simp only [monitorAnchor, Option.or_eq_some_iff, Option.filter_eq_some_iff] at ha
  rcases ha with (hp | ⟨_, _, hfocus⟩) | ⟨_, hfirst⟩
  · exact hprev anchor hp
  · exact mem_of_isNonMonitor hfocus
  · exact mem_of_isNonMonitor (List.find?_some hfirst)

/-- **The rule for the loop over the subagents**, with ids for the next panes that are not
taken: what each new pane keeps, the loop keeps. -/
theorem addMonitors_rule (order : HashOrder) {P : Workspace → Prop}
    (hpane : ∀ (ws : Workspace) (panel : Panel) (anchor : Uuid) (orientation : SplitOrientation)
      (direction : Direction) (layout : LayoutNode), P ws → panel.id ∉ ws.panels →
      ws.layout.splitPaneWithPanel anchor panel.id orientation direction = some layout →
      P { ws with panels := ws.panels.insert panel.id panel, layout })
    (agents : List (Subagent × Uuid)) (prevMonitor : Option Uuid) (count : Nat) (changed : Bool)
    {ws : Workspace} (h : P ws) (hnd : (agents.map (·.2)).Nodup)
    (hnew : ∀ id ∈ agents.map (·.2), id ∉ ws.panels) :
    P (addMonitors order agents prevMonitor count changed ws).1 := by
  induction agents generalizing ws prevMonitor count changed with
  | nil => exact h
  | cons agent agents ih =>
      obtain ⟨agent, newId⟩ := agent
      obtain ⟨hhead, htail⟩ := List.nodup_cons.mp hnd
      have hfree : newId ∉ ws.panels := hnew newId List.mem_cons_self
      have hrest : ∀ id ∈ agents.map (·.2), id ∉ ws.panels :=
        fun id hid => hnew id (List.mem_cons_of_mem _ hid)
      unfold addMonitors
      split
      · exact ih _ _ _ h htail hrest
      · split
        · exact h
        · dsimp only
          split
          · next layout hsplit =>
              refine ih _ _ _ (hpane ws (.newAgentMonitor newId agent.transcript agent.title) _ _ _
                layout h hfree hsplit) htail ?_
              -- the later ids stay free: they differ from this one
              intro id hid hmem
              rcases (AList.mem_insert _).mp hmem with hsame | hold
              · exact hhead (hsame ▸ hid)
              · exact hrest id hid hold
          · -- the panel that found no pane is dropped, and the map is as before
            rw [AList.erase_insert_of_notMem hfree]
            exact ih _ _ _ h htail hrest

theorem WellFormed.addMonitors (order : HashOrder) {agents : List (Subagent × Uuid)}
    {prevMonitor : Option Uuid} {count : Nat} {changed : Bool} (h : ws.WellFormed)
    (hnd : (agents.map (·.2)).Nodup) (hnew : ∀ id ∈ agents.map (·.2), id ∉ ws.panels) :
    (Workspace.addMonitors order agents prevMonitor count changed ws).1.WellFormed := by
  refine addMonitors_rule order ?_ agents prevMonitor count changed h hnd hnew
  intro ws panel anchor orientation direction layout h hnewId hsplit
  have hanchor : anchor ∈ ws.panels := by
    rw [← h.inStep.same, ← LayoutNode.updatePaneWith_isSome ws.layout anchor]
    exact Option.isSome_of_eq_some hsplit
  obtain ⟨layout', hup, hin⟩ := h.inStep_new panel hnewId hanchor
    (editsPane_splitWithPanel anchor orientation direction panel.id)
  obtain rfl : layout' = layout := Option.some.inj (hup.symm.trans hsplit)
  obtain ⟨focused, hmem, hfocus⟩ := h.focused
  exact ⟨hin, h.keyed.insert panel, focused, (AList.mem_insert _).mpr (.inr hmem), hfocus⟩

/-- In an empty workspace the loop finds no anchor. -/
theorem addMonitors_of_isEmpty (order : HashOrder) {agents : List (Subagent × Uuid)}
    {count : Nat} {changed : Bool} (h : ws.isEmpty = true) :
    (addMonitors order agents none count changed ws).1 = ws := by
  have hnone : ∀ id, id ∉ ws.panels := by
    intro id hid
    rw [isEmpty_eq_false.mpr ⟨id, hid⟩] at h
    cases h
  cases agents with
  | nil => rfl
  | cons agent agents =>
      have hfind : (order.iter ws.panels).find? (agent.1.hasPane ·.2) = none := by
        refine List.find?_eq_none.mpr fun e he => ?_
        have hentry : e ∈ ws.panels.entries := (order.perm ws.panels).mem_iff.mp he
        exact absurd (AList.mem_of_lookup ((AList.mem_entries_iff_lookup _ e.1 e.2).mp hentry))
          (hnone e.1)
      have hanchor : ws.monitorAnchor none = none := by
        cases ha : ws.monitorAnchor none with
        | none => rfl
        | some anchor =>
            exact absurd (mem_of_monitorAnchor (by simp) ha) (hnone anchor)
      unfold addMonitors
      simp only [hfind, hanchor]

theorem WellFormed.syncWorkspace (h : ws.WellFormed) (order : HashOrder)
    {discovered : List (Subagent × Uuid)} (hnd : (discovered.map (·.2)).Nodup)
    (hnew : ∀ id ∈ discovered.map (·.2), id ∉ ws.panels) :
    (Workspace.syncWorkspace order discovered ws).1.Held := by
  unfold Workspace.syncWorkspace
  set desired := if ws.subagentMonitor then discovered else [] with hdesired
  have hsub : desired.Sublist discovered := by
    rw [hdesired]
    split
    · exact List.Sublist.refl _
    · exact List.nil_sublist _
  have hids := hsub.map (·.2)
  have hheld : ((ws.stalePanes order desired).foldl closeStale ws).Held := h.held.closeAllStale _
  intro hne
  cases hemp : ((ws.stalePanes order desired).foldl closeStale ws).isEmpty with
  | true =>
      simp only [addMonitors_of_isEmpty order hemp, hemp] at hne
      cases hne
  | false =>
      refine (hheld hemp).addMonitors order (hnd.sublist hids) ?_
      exact fun id hid hmem => hnew id (hids.subset hid) (mem_of_closeAllStale hmem)

end Workspace

end Jmux.Model
