/-
  Jmux.Model.MonitorSync — what the subagent monitor's sync leaves behind.

  `sync_workspace` closes the monitor panes whose subagent is gone and opens one
  for each subagent that has none, each beside the one before it.

  Main results:
    * `syncWorkspace_undisturbed` — the other panels, their panes and their order stay.
    * `syncWorkspace_settles`     — the same subagents again change nothing.
    * `syncWorkspace_exact_iff`   — each subagent has one pane afterwards, unless it
      had two before, or nothing can be split for the first.
-/
import Jmux.Model.References

namespace Jmux.Model

open Jmux.Lib

/-! ## §1. The panels that are no monitors. -/

namespace LayoutNode

/-- A tab outside `p` that goes, with or without its pane. -/
theorem residents_removed {p : Uuid → Bool} (node : LayoutNode) {panelId : Uuid}
    (hp : p panelId = false) :
    residents p ((node.removePanel panelId).getD node).panes = residents p node.panes := by
  induction node with
  | paneNode panelIds selected =>
      unfold removePanel
      split
      · next hmem =>
          have hfilter : (panelIds.erase panelId).filter p = panelIds.filter p := by
            rw [← List.erase_filter, List.erase_of_not_mem]
            simp [hp]
          simp [residents, panes, hfilter]
      · rfl
  | splitNode o d first second ihf ihs =>
      -- an emptied side has no residents
      have hcollapse : ∀ first second : LayoutNode,
          residents p (collapse o d first second).panes =
            residents p first.panes ++ residents p second.panes := by
        intro first second
        have hempty : ∀ node : LayoutNode, node.isEmpty = true → residents p node.panes = [] := by
          intro node hnode
          rw [residents_eq_nil_iff, ← allPanelIds_eq, (isEmpty_iff node).mp hnode]
          simp
        unfold collapse
        split
        · next hf => rw [hempty first hf, List.nil_append]
        · split
          · next hs => rw [hempty second hs, List.append_nil]
          · exact residents_append
      unfold removePanel
      cases hf : first.removePanel panelId with
      | some first' =>
          rw [hf] at ihf
          show residents p (collapse o d first' second).panes = _
          rw [hcollapse, panes, residents_append]
          exact congrArg (· ++ _) ihf
      | none =>
          dsimp only
          cases hs : second.removePanel panelId with
          | some second' =>
              rw [hs] at ihs
              show residents p (collapse o d first second').panes = _
              rw [hcollapse, panes, residents_append]
              exact congrArg (_ ++ ·) ihs
          | none => rfl

/-- A pane of its own for a tab outside `p`. -/
theorem residents_split {p : Uuid → Bool} {node node' : LayoutNode} {target newId : Uuid}
    {orientation : SplitOrientation} {direction : Direction} (hp : p newId = false)
    (h : node.splitPaneWithPanel target newId orientation direction = some node') :
    residents p node'.panes = residents p node.panes := by
  obtain ⟨before, g, after, hpanes, _, _, hpanes'⟩ := panes_of_updatePaneWith h
  have hnew : residents p [⟨[newId], some newId⟩] = [] := by
    simp [residents, hp]
  rw [hpanes, hpanes', residents_append, residents_append, residents_append, residents_cons g after,
    List.append_assoc]
  congr 2
  dsimp only
  split
  · rw [panes, residents_append, panes, hnew]
    rfl
  · rw [panes, residents_append, panes, panes, hnew, List.append_nil]

end LayoutNode

namespace Workspace

/-- Layout and map show the same panels, each under its own id; the workspace
may be empty. -/
structure Aligned (ws : Workspace) : Prop where
  listed : Listed ws.layout ws.panels
  shown  : ∀ id ∈ ws.panels, id ∈ ws.layout.allPanelIds
  keyed  : Keyed ws.panels

theorem WellFormed.aligned {ws : Workspace} (h : ws.WellFormed) : ws.Aligned where
  listed := by
    refine ⟨?_, fun id hid => (h.inStep.same id).mp hid⟩
    rw [LayoutNode.allPanelIds_eq]
    exact h.inStep.sound.distinct
  shown := fun id hid => (h.inStep.same id).mpr hid
  keyed := h.keyed

/-- The panels that are no monitors, pane by pane. -/
def otherPanes (ws : Workspace) : List (List Uuid) := residents ws.isNonMonitor ws.layout.panes

/-- The panels that are no monitors are the same, in the same panes and order. -/
structure Undisturbed (ws ws' : Workspace) : Prop where
  panels : ∀ id panel, panel.panelType ≠ .agentMonitor →
    (ws'.panels.lookup id = some panel ↔ ws.panels.lookup id = some panel)
  panes  : ws'.otherPanes = ws.otherPanes
  order  : ws'.layout.allPanelIds.filter ws'.isNonMonitor =
    ws.layout.allPanelIds.filter ws.isNonMonitor

variable {ws ws' : Workspace}

theorem isNonMonitor_iff {id : Uuid} :
    ws.isNonMonitor id = true ↔
      ∃ panel, ws.panels.lookup id = some panel ∧ panel.panelType ≠ .agentMonitor := by
  unfold isNonMonitor
  cases ws.panels.lookup id <;> simp

theorem isNonMonitor_congr (h : ∀ id panel, panel.panelType ≠ .agentMonitor →
    (ws'.panels.lookup id = some panel ↔ ws.panels.lookup id = some panel)) :
    ws'.isNonMonitor = ws.isNonMonitor := by
  funext id
  rw [Bool.eq_iff_iff, isNonMonitor_iff, isNonMonitor_iff]
  constructor
  · intro hex
    obtain ⟨panel, hl, ht⟩ := hex
    exact ⟨panel, (h id panel ht).mp hl, ht⟩
  · intro hex
    obtain ⟨panel, hl, ht⟩ := hex
    exact ⟨panel, (h id panel ht).mpr hl, ht⟩

/-- The order is that of the panes. -/
theorem undisturbed_of (h : ∀ id panel, panel.panelType ≠ .agentMonitor →
    (ws'.panels.lookup id = some panel ↔ ws.panels.lookup id = some panel))
    (hpanes : residents ws.isNonMonitor ws'.layout.panes =
      residents ws.isNonMonitor ws.layout.panes) : Undisturbed ws ws' where
  panels := h
  panes := by
    unfold otherPanes
    rw [isNonMonitor_congr h]
    exact hpanes
  order := by
    rw [isNonMonitor_congr h, LayoutNode.allPanelIds_eq, LayoutNode.allPanelIds_eq,
      ← flatten_residents, ← flatten_residents, hpanes]

theorem Undisturbed.refl (ws : Workspace) : Undisturbed ws ws :=
  undisturbed_of (fun _ _ _ => Iff.rfl) rfl

theorem Undisturbed.trans {ws'' : Workspace} (h : Undisturbed ws ws') (h' : Undisturbed ws' ws'') :
    Undisturbed ws ws'' where
  panels := fun id panel ht => (h'.panels id panel ht).trans (h.panels id panel ht)
  panes  := h'.panes.trans h.panes
  order  := h'.order.trans h.order

/-! ## §2. Closing the stale panes. -/

/-- Nothing lies under the id but, perhaps, a monitor. -/
def NoOther (ws : Workspace) (id : Uuid) : Prop := ws.isNonMonitor id = false

theorem closeStale_undisturbed {id : Uuid} (h : ws.NoOther id) :
    Undisturbed ws (ws.closeStale id) := by
  apply undisturbed_of
  · intro other panel ht
    show (ws.panels.erase id).lookup other = some panel ↔ _
    rw [AList.lookup_erase_eq_ite]
    split
    · next heq =>
        subst heq
        refine iff_of_false (by simp) ?_
        intro hl
        have := isNonMonitor_iff.mpr ⟨panel, hl, ht⟩
        rw [h] at this
        cases this
    · exact Iff.rfl
  · exact LayoutNode.residents_removed ws.layout h

theorem Aligned.closeStale (h : ws.Aligned) (id : Uuid) : (ws.closeStale id).Aligned where
  listed := h.listed.erase id
  shown := by
    intro other hother
    obtain ⟨hne, hmem⟩ := AList.mem_erase.mp hother
    show other ∈ ((ws.layout.removePanel id).getD ws.layout).allPanelIds
    rw [LayoutNode.allPanelIds_removed, h.listed.distinct.mem_erase_iff]
    exact ⟨hne, h.shown other hmem⟩
  keyed := h.keyed.erase id

/-- Closing panes takes their panels away and nothing else. -/
theorem closeAllStale_spec (ids : List Uuid) (h : ws.Aligned) (hids : ∀ id ∈ ids, ws.NoOther id) :
    (ids.foldl Workspace.closeStale ws).Aligned ∧
      Undisturbed ws (ids.foldl Workspace.closeStale ws) ∧
      (ids.foldl Workspace.closeStale ws).subagentMonitor = ws.subagentMonitor ∧
      ∀ id panel, (ids.foldl Workspace.closeStale ws).panels.lookup id = some panel ↔
        ws.panels.lookup id = some panel ∧ id ∉ ids := by
  induction ids generalizing ws with
  | nil => exact ⟨h, Undisturbed.refl ws, rfl, by simp⟩
  | cons id ids ih =>
      have hone := closeStale_undisturbed (hids id List.mem_cons_self)
      obtain ⟨hal, hun, hflag, hlookup⟩ := ih (h.closeStale id) (by
        intro other hother
        show (ws.closeStale id).isNonMonitor other = false
        rw [isNonMonitor_congr hone.panels]
        exact hids other (List.mem_cons_of_mem id hother))
      refine ⟨hal, hone.trans hun, hflag, ?_⟩
      intro other panel
      rw [List.foldl_cons, hlookup]
      show (ws.panels.erase id).lookup other = some panel ∧ _ ↔ _
      rw [AList.lookup_erase_eq_ite]
      split
      · next heq => simp [heq]
      · next hne => simp [hne]

/-! ## §3. Opening the missing panes. -/

/-- No panel is the subagent's pane. -/
def Lacks (ws : Workspace) (agent : Subagent) : Prop :=
  ∀ id panel, ws.panels.lookup id = some panel → agent.hasPane panel = false

theorem lacks_iff (order : HashOrder) (agent : Subagent) :
    (order.iter ws.panels).find? (agent.hasPane ·.2) = none ↔ ws.Lacks agent := by
  rw [List.find?_eq_none]
  constructor
  · intro h id panel hl
    simpa using h ⟨id, panel⟩ ((order.mem_iter ws.panels id panel).mpr hl)
  · intro h entry hentry
    obtain ⟨id, panel⟩ := entry
    simpa using h id panel ((order.mem_iter ws.panels id panel).mp hentry)

/-- The monitor pane that is opened for a subagent. -/
def newPane (agent : Subagent × Uuid) : Panel :=
  .newAgentMonitor agent.2 agent.1.transcript agent.1.title

/-- The workspace with the pane, in a layout that shows it. -/
def withPane (ws : Workspace) (agent : Subagent × Uuid) (layout : LayoutNode) : Workspace :=
  { ws with panels := ws.panels.insert agent.2 (newPane agent), layout }

theorem hasPane_newPane_iff {agent : Subagent} {other : Subagent × Uuid} :
    agent.hasPane (newPane other) = true ↔ other.1.transcript = agent.transcript := by
  simp [Subagent.hasPane, newPane, Panel.newAgentMonitor]

/-- From `ws` to `ws'` a pane came for each of the subagents that had none. -/
structure Opened (agents : List (Subagent × Uuid)) (ws ws' : Workspace) : Prop where
  aligned     : ws'.Aligned
  undisturbed : Undisturbed ws ws'
  flag        : ws'.subagentMonitor = ws.subagentMonitor
  panels      : ∀ id panel, ws'.panels.lookup id = some panel ↔
    ws.panels.lookup id = some panel ∨
      ∃ agent ∈ agents, ws.Lacks agent.1 ∧ id = agent.2 ∧ panel = newPane agent

/-- The subagents that the loop still has to see: each once, and the ids that
their panes would draw are free. -/
structure Pending (ws : Workspace) (agents : List (Subagent × Uuid)) : Prop where
  distinct : (agents.map (·.1.transcript)).Nodup
  drawn    : (agents.map (·.2)).Nodup
  free     : ∀ id ∈ agents.map (·.2), id ∉ ws.panels

theorem lookup_newPane_iff {agent : Subagent × Uuid} (hfree : agent.2 ∉ ws.panels) (id : Uuid)
    (panel : Panel) :
    (ws.panels.insert agent.2 (newPane agent)).lookup id = some panel ↔
      ws.panels.lookup id = some panel ∨ id = agent.2 ∧ panel = newPane agent := by
  rw [AList.lookup_insert_eq_ite]
  split
  · next heq =>
      subst heq
      rw [AList.lookup_eq_none.mpr hfree]
      simp [eq_comm]
  · next hne => simp [hne]

/-- A pane for one subagent is none for another. -/
theorem lacks_grown_iff {agent other : Subagent × Uuid} (hfree : agent.2 ∉ ws.panels)
    (hne : agent.1.transcript ≠ other.1.transcript) (layout : LayoutNode) :
    (ws.withPane agent layout).Lacks other.1 ↔ ws.Lacks other.1 := by
  unfold Lacks
  constructor
  · intro h id panel hl
    exact h id panel ((lookup_newPane_iff hfree id panel).mpr (.inl hl))
  · intro h id panel hl
    rcases (lookup_newPane_iff hfree id panel).mp hl with hold | ⟨_, rfl⟩
    · exact h id panel hold
    · rw [← Bool.not_eq_true, hasPane_newPane_iff]
      exact hne

/-- One pane comes. -/
theorem insert_opened {agent : Subagent × Uuid} {agents : List (Subagent × Uuid)}
    (h : ws.Aligned) (hpending : Pending ws (agent :: agents)) {anchor : Uuid}
    {orientation : SplitOrientation} {direction : Direction} {layout : LayoutNode}
    (hsplit : ws.layout.splitPaneWithPanel anchor agent.2 orientation direction = some layout) :
    (ws.withPane agent layout).Aligned ∧ Undisturbed ws (ws.withPane agent layout) ∧
      Pending (ws.withPane agent layout) agents := by
  have hfree : agent.2 ∉ ws.panels := hpending.free agent.2 List.mem_cons_self
  have hids := splitPaneWithPanel_ids hsplit
  have hother : ws.isNonMonitor agent.2 = false := by
    unfold isNonMonitor
    rw [AList.lookup_eq_none.mpr hfree]
    rfl
  obtain ⟨_, hdistinct⟩ := List.nodup_cons.mp hpending.distinct
  obtain ⟨hnew, hdrawn⟩ := List.nodup_cons.mp hpending.drawn
  refine ⟨⟨h.listed.insert hfree hids _, ?_, h.keyed.insert (newPane agent)⟩, ?_,
    ⟨hdistinct, hdrawn, ?_⟩⟩
  · intro id hid
    show id ∈ layout.allPanelIds
    rw [hids.mem_iff, List.mem_cons]
    rcases (AList.mem_insert _).mp hid with rfl | hold
    · exact .inl rfl
    · exact .inr (h.shown id hold)
  · apply undisturbed_of
    · intro id panel ht
      refine (lookup_newPane_iff hfree id panel).trans (or_iff_left ?_)
      intro hnewPane
      exact ht (by rw [hnewPane.2]; rfl)
    · exact LayoutNode.residents_split hother hsplit
  · intro id hid hmem
    rcases (AList.mem_insert _).mp hmem with rfl | hold
    · exact hnew hid
    · exact hpending.free id (List.mem_cons_of_mem _ hid) hold

theorem not_lacks {agent : Subagent} {id : Uuid} {panel : Panel}
    (hl : ws.panels.lookup id = some panel) (hhas : agent.hasPane panel = true) :
    ¬ ws.Lacks agent := by
  intro hlacks
  rw [hlacks id panel hl] at hhas
  cases hhas

/-- A subagent with a pane adds nothing. -/
theorem Opened.of_shown {agent : Subagent × Uuid} {agents : List (Subagent × Uuid)}
    (h : Opened agents ws ws') (hshown : ¬ ws.Lacks agent.1) : Opened (agent :: agents) ws ws' where
  aligned := h.aligned
  undisturbed := h.undisturbed
  flag := h.flag
  panels id panel := by
    rw [h.panels]
    apply or_congr Iff.rfl
    simp only [List.exists_mem_cons_iff]
    exact (or_iff_right fun hex => hshown hex.1).symm

/-- A pane that came first, and those of the others. -/
theorem Opened.of_withPane {agent : Subagent × Uuid} {agents : List (Subagent × Uuid)}
    {layout : LayoutNode} (h : Opened agents (ws.withPane agent layout) ws')
    (hpending : Pending ws (agent :: agents)) (hlacks : ws.Lacks agent.1)
    (hun : Undisturbed ws (ws.withPane agent layout)) : Opened (agent :: agents) ws ws' where
  aligned := h.aligned
  undisturbed := hun.trans h.undisturbed
  flag := h.flag
  panels id panel := by
    have hfree : agent.2 ∉ ws.panels := hpending.free agent.2 List.mem_cons_self
    refine (h.panels id panel).trans ?_
    refine (or_congr_left (lookup_newPane_iff hfree id panel)).trans ?_
    rw [or_assoc, List.exists_mem_cons_iff]
    refine or_congr Iff.rfl (or_congr (by simp [hlacks]) ?_)
    -- the others lack their panes as before
    refine exists_congr fun other => and_congr_right fun hother => and_congr_left fun _ => ?_
    apply lacks_grown_iff hfree
    intro heq
    exact (List.nodup_cons.mp hpending.distinct).1 (List.mem_map.mpr ⟨other, hother, heq.symm⟩)

/-- The loop with something to split for the first subagent without a pane: the
pane before it, which is the anchor from then on. -/
theorem addMonitors_opened (order : HashOrder) {agents : List (Subagent × Uuid)}
    {prevMonitor : Option Uuid} {count : Nat} {changed : Bool} (h : ws.Aligned)
    (hpending : Pending ws agents) (hprev : ∀ id, prevMonitor = some id → id ∈ ws.panels)
    (hway : ∀ first ∈ agents.head?, ws.Lacks first.1 → (ws.monitorAnchor prevMonitor).isSome) :
    Opened agents ws (addMonitors order agents prevMonitor count changed ws).1 := by
  induction agents generalizing ws prevMonitor count changed with
  | nil => exact ⟨h, Undisturbed.refl ws, rfl, by simp [addMonitors]⟩
  | cons agent agents ih =>
      obtain ⟨agent, newId⟩ := agent
      unfold addMonitors
      have htail : Pending ws agents :=
        ⟨(List.nodup_cons.mp hpending.distinct).2, (List.nodup_cons.mp hpending.drawn).2,
          fun id hid => hpending.free id (List.mem_cons_of_mem _ hid)⟩
      cases hfind : (order.iter ws.panels).find? (agent.hasPane ·.2) with
      | some existing =>
          have hentry : ws.panels.lookup existing.1 = some existing.2 :=
            (order.mem_iter ws.panels existing.1 existing.2).mp (List.mem_of_find?_eq_some hfind)
          have hhas : agent.hasPane existing.2 = true := by
            simpa using List.find?_some hfind
          refine (ih h htail ?_ ?_).of_shown (not_lacks hentry hhas)
          · intro id hid
            rw [← Option.some.inj hid, h.keyed existing.1 existing.2 hentry]
            exact AList.mem_of_lookup hentry
          · intro _ _ _
            simp [monitorAnchor]
      | none =>
          have hlacks : ws.Lacks agent := (lacks_iff order agent).mp hfind
          obtain ⟨anchor, ha⟩ := Option.isSome_iff_exists.mp (hway (agent, newId) rfl hlacks)
          have hshown := h.shown anchor (mem_of_monitorAnchor hprev ha)
          obtain ⟨layout, hsplit⟩ : ∃ layout, ws.layout.splitPaneWithPanel anchor newId
              (tiling count).1 (tiling count).2 = some layout :=
            Option.isSome_iff_exists.mp ((LayoutNode.updatePaneWith_isSome _ _ _).mpr hshown)
          obtain ⟨hal, hun, hpend⟩ := insert_opened h hpending hsplit
          simp only [ha, hsplit]
          have hopened : Opened agents (ws.withPane (agent, newId) layout)
              (addMonitors order agents (some newId) (count + 1) true
                (ws.withPane (agent, newId) layout)).1 := by
            refine ih hal hpend ?_ ?_
            · intro id hid
              rw [← Option.some.inj hid]
              exact (AList.mem_insert _).mpr (.inl rfl)
            · intro _ _ _
              simp [monitorAnchor]
          exact hopened.of_withPane hpending hlacks hun

theorem addMonitors_of_shown (order : HashOrder) {agents : List (Subagent × Uuid)}
    (h : ∀ agent ∈ agents, ¬ ws.Lacks agent.1) (prevMonitor : Option Uuid) (count : Nat)
    (changed : Bool) : addMonitors order agents prevMonitor count changed ws = (ws, changed) := by
  induction agents generalizing prevMonitor with
  | nil => rfl
  | cons agent agents ih =>
      obtain ⟨agent, newId⟩ := agent
      unfold addMonitors
      cases hfind : (order.iter ws.panels).find? (agent.hasPane ·.2) with
      | some existing => exact ih (fun a ha => h a (List.mem_cons_of_mem _ ha)) _
      | none => exact absurd ((lacks_iff order agent).mp hfind) (h (agent, newId) List.mem_cons_self)

theorem addMonitors_of_unanchored (order : HashOrder) {first : Subagent × Uuid}
    {rest : List (Subagent × Uuid)} (hlacks : ws.Lacks first.1)
    (hanchor : ws.monitorAnchor none = none) (count : Nat) (changed : Bool) :
    addMonitors order (first :: rest) none count changed ws = (ws, changed) := by
  unfold addMonitors
  rw [(lacks_iff order first.1).mpr hlacks]
  dsimp only
  rw [hanchor]

/-! ## §4. The whole sync. -/

/-- The subagents to be shown: none while the monitor is off. -/
def desired (ws : Workspace) (discovered : List (Subagent × Uuid)) : List (Subagent × Uuid) :=
  if ws.subagentMonitor then discovered else []

theorem Pending.desired {discovered : List (Subagent × Uuid)} (h : Pending ws discovered) :
    Pending ws (ws.desired discovered) := by
  unfold Workspace.desired
  split
  · exact h
  · exact ⟨List.nodup_nil, List.nodup_nil, by simp⟩

/-- The workspace once the stale panes are closed. -/
def cleaned (ws : Workspace) (order : HashOrder) (desired : List (Subagent × Uuid)) : Workspace :=
  (ws.stalePanes order desired).foldl closeStale ws

theorem mem_stalePanes {order : HashOrder} {desired : List (Subagent × Uuid)} {id : Uuid} :
    id ∈ ws.stalePanes order desired ↔ ∃ panel, ws.panels.lookup id = some panel ∧
      panel.panelType = .agentMonitor ∧ ∀ agent ∈ desired, agent.1.hasPane panel = false := by
  unfold stalePanes
  simp only [List.mem_map, List.mem_filter, decide_eq_true_eq, Bool.not_eq_true,
    List.any_eq_false]
  constructor
  · rintro ⟨⟨other, panel⟩, ⟨hentry, htype, hnone⟩, rfl⟩
    exact ⟨panel, (order.mem_iter _ _ _).mp hentry, htype, hnone⟩
  · rintro ⟨panel, hl, htype, hnone⟩
    exact ⟨⟨id, panel⟩, ⟨(order.mem_iter _ _ _).mpr hl, htype, hnone⟩, rfl⟩

/-- A monitor pane is left exactly if it is that of a subagent to be shown. -/
theorem cleaned_spec (h : ws.Aligned) (order : HashOrder) (desired : List (Subagent × Uuid)) :
    (ws.cleaned order desired).Aligned ∧ Undisturbed ws (ws.cleaned order desired) ∧
      (ws.cleaned order desired).subagentMonitor = ws.subagentMonitor ∧
      ∀ id panel, (ws.cleaned order desired).panels.lookup id = some panel ↔
        ws.panels.lookup id = some panel ∧
          (panel.panelType = .agentMonitor → ∃ agent ∈ desired, agent.1.hasPane panel = true) := by
  obtain ⟨hal, hun, hflag, hlookup⟩ := closeAllStale_spec (ws.stalePanes order desired) h (by
    intro id hid
    obtain ⟨panel, hl, htype, _⟩ := mem_stalePanes.mp hid
    show (ws.panels.lookup id).any _ = false
    rw [hl]
    simp [htype])
  refine ⟨hal, hun, hflag, ?_⟩
  intro id panel
  refine (hlookup id panel).trans (and_congr_right fun hl => ?_)
  rw [mem_stalePanes]
  constructor
  · intro hfresh htype
    by_contra hnone
    push Not at hnone
    refine hfresh ⟨panel, hl, htype, ?_⟩
    intro agent hagent
    simpa using hnone agent hagent
  · rintro hshown ⟨other, hl', htype, hnone⟩
    obtain rfl : panel = other := Option.some.inj (hl.symm.trans hl')
    obtain ⟨agent, hagent, hhas⟩ := hshown htype
    rw [hnone agent hagent] at hhas
    cases hhas

theorem Pending.cleaned {discovered : List (Subagent × Uuid)} (hpending : Pending ws discovered)
    (h : ws.Aligned) (order : HashOrder) (desired : List (Subagent × Uuid)) :
    Pending (ws.cleaned order desired) discovered := by
  refine ⟨hpending.distinct, hpending.drawn, ?_⟩
  intro id hid hmem
  obtain ⟨panel, hl⟩ := Option.isSome_iff_exists.mp (AList.lookup_isSome.mpr hmem)
  obtain ⟨_, _, _, hlookup⟩ := cleaned_spec h order desired
  exact hpending.free id hid (AList.mem_of_lookup ((hlookup id panel).mp hl).1)

/-- Something can be split for the first subagent, or it has its pane. -/
def Anchored (ws : Workspace) (desired : List (Subagent × Uuid)) : Prop :=
  ∀ first ∈ desired.head?, ws.Lacks first.1 → ∃ id, ws.isNonMonitor id = true

theorem monitorAnchor_isSome_iff (h : ws.Aligned) :
    (ws.monitorAnchor none).isSome ↔ ∃ id, ws.isNonMonitor id = true := by
  unfold monitorAnchor
  rw [Option.none_or, Option.isSome_or, Bool.or_eq_true, List.find?_isSome]
  constructor
  · rintro (hfocus | ⟨id, _, hid⟩)
    · obtain ⟨id, hid⟩ := Option.isSome_iff_exists.mp hfocus
      exact ⟨id, (Option.filter_eq_some_iff.mp hid).2⟩
    · exact ⟨id, hid⟩
  · rintro ⟨id, hid⟩
    exact .inr ⟨id, h.shown id (mem_of_isNonMonitor hid), hid⟩

/-- Otherwise the loop has no anchor for its first subagent. -/
theorem exists_first_of_not_anchored (h : ws.Aligned) {desired : List (Subagent × Uuid)}
    (hway : ¬ ws.Anchored desired) :
    ∃ first rest, desired = first :: rest ∧ ws.Lacks first.1 ∧ ws.monitorAnchor none = none := by
  unfold Anchored at hway
  push Not at hway
  obtain ⟨first, hfirst, hlacks, hnone⟩ := hway
  obtain ⟨rest, hdesired⟩ := List.head?_eq_some_iff.mp hfirst
  refine ⟨first, rest, hdesired, hlacks, ?_⟩
  rw [← Option.not_isSome_iff_eq_none, monitorAnchor_isSome_iff h]
  push Not
  exact hnone

/-- The two outcomes: every missing pane is opened, or the loop ends at the first
subagent for want of an anchor. -/
theorem syncWorkspace_cases (h : ws.Aligned) (order : HashOrder)
    {discovered : List (Subagent × Uuid)} (hpending : Pending ws discovered) :
    (Anchored (ws.cleaned order (ws.desired discovered)) (ws.desired discovered) ∧
      Opened (ws.desired discovered) (ws.cleaned order (ws.desired discovered))
        (ws.syncWorkspace order discovered).1) ∨
    (¬ Anchored (ws.cleaned order (ws.desired discovered)) (ws.desired discovered) ∧
      (ws.syncWorkspace order discovered).1 = ws.cleaned order (ws.desired discovered)) := by
  obtain ⟨hal, _, _, _⟩ := cleaned_spec h order (ws.desired discovered)
  by_cases hway : Anchored (ws.cleaned order (ws.desired discovered)) (ws.desired discovered)
  · refine .inl ⟨hway, ?_⟩
    refine addMonitors_opened order hal (hpending.desired.cleaned h order _) (by simp) ?_
    intro first hfirst hlacks
    exact (monitorAnchor_isSome_iff hal).mpr (hway first hfirst hlacks)
  · refine .inr ⟨hway, ?_⟩
    obtain ⟨first, rest, hdesired, hlacks, hanchor⟩ := exists_first_of_not_anchored hal hway
    show (addMonitors order (ws.desired discovered) none _ _
      (ws.cleaned order (ws.desired discovered))).1 = _
    rw [hdesired] at hlacks hanchor ⊢
    rw [addMonitors_of_unanchored order hlacks hanchor]

theorem syncWorkspace_undisturbed (h : ws.Aligned) (order : HashOrder)
    {discovered : List (Subagent × Uuid)} (hpending : Pending ws discovered) :
    (ws.syncWorkspace order discovered).1.Aligned ∧
      Undisturbed ws (ws.syncWorkspace order discovered).1 := by
  obtain ⟨hal, hun, _, _⟩ := cleaned_spec h order (ws.desired discovered)
  rcases syncWorkspace_cases h order hpending with ⟨_, hopened⟩ | ⟨_, hsame⟩
  · exact ⟨hopened.aligned, hun.trans hopened.undisturbed⟩
  · rw [hsame]
    exact ⟨hal, hun⟩

/-! ## §5. The same subagents again. -/

/-- Every monitor pane is that of a subagent to be shown. -/
def OnlyShows (ws : Workspace) (desired : List (Subagent × Uuid)) : Prop :=
  ∀ id panel, ws.panels.lookup id = some panel → panel.panelType = .agentMonitor →
    ∃ agent ∈ desired, agent.1.hasPane panel = true

theorem syncWorkspace_onlyShows (h : ws.Aligned) (order : HashOrder)
    {discovered : List (Subagent × Uuid)} (hpending : Pending ws discovered) :
    OnlyShows (ws.syncWorkspace order discovered).1 (ws.desired discovered) := by
  obtain ⟨_, _, _, hlookup⟩ := cleaned_spec h order (ws.desired discovered)
  intro id panel hl htype
  rcases syncWorkspace_cases h order hpending with ⟨_, hopened⟩ | ⟨_, hsame⟩
  · rcases (hopened.panels id panel).mp hl with hold | ⟨agent, hagent, _, _, rfl⟩
    · exact ((hlookup id panel).mp hold).2 htype
    · exact ⟨agent, hagent, hasPane_newPane_iff.mpr rfl⟩
  · rw [hsame] at hl
    exact ((hlookup id panel).mp hl).2 htype

/-- The same subagents, whatever ids their panes would draw. -/
theorem desired_agents {discovered discovered' : List (Subagent × Uuid)}
    (hflag : ws'.subagentMonitor = ws.subagentMonitor)
    (hsame : discovered'.map (·.1) = discovered.map (·.1)) :
    (ws'.desired discovered').map (·.1) = (ws.desired discovered).map (·.1) := by
  unfold desired
  rw [hflag]
  split
  · exact hsame
  · rfl

theorem OnlyShows.of_agents {desired desired' : List (Subagent × Uuid)}
    (h : OnlyShows ws desired) (hagents : desired'.map (·.1) = desired.map (·.1)) :
    OnlyShows ws desired' := by
  intro id panel hl htype
  obtain ⟨agent, hagent, hhas⟩ := h id panel hl htype
  have hmem : agent.1 ∈ desired'.map (·.1) := by
    rw [hagents]
    exact List.mem_map_of_mem hagent
  obtain ⟨again, hagain, heq⟩ := List.mem_map.mp hmem
  exact ⟨again, hagain, heq ▸ hhas⟩

/-- With no stale pane only the loop is left of the sync. -/
theorem syncWorkspace_of_onlyShows (order : HashOrder) {discovered : List (Subagent × Uuid)}
    (h : OnlyShows ws (ws.desired discovered)) :
    ws.syncWorkspace order discovered =
      addMonitors order (ws.desired discovered) none
        ((ws.panels.vals.filter (·.panelType = .agentMonitor)).length) false ws := by
  have hstale : ws.stalePanes order (ws.desired discovered) = [] := by
    rw [List.eq_nil_iff_forall_not_mem]
    intro id hid
    obtain ⟨panel, hl, htype, hnone⟩ := mem_stalePanes.mp hid
    obtain ⟨agent, hagent, hhas⟩ := h id panel hl htype
    rw [hnone agent hagent] at hhas
    cases hhas
  unfold Workspace.desired at hstale ⊢
  unfold Workspace.syncWorkspace
  dsimp only
  rw [hstale]
  rfl

/-- **The sync settles.** -/
theorem syncWorkspace_settles (h : ws.Aligned) (order : HashOrder)
    {discovered : List (Subagent × Uuid)} (hpending : Pending ws discovered)
    (order' : HashOrder) {discovered' : List (Subagent × Uuid)}
    (hsame : discovered'.map (·.1) = discovered.map (·.1)) :
    (ws.syncWorkspace order discovered).1.syncWorkspace order' discovered' =
      ((ws.syncWorkspace order discovered).1, false) := by
  have hcases := syncWorkspace_cases h order hpending
  have honly := syncWorkspace_onlyShows h order hpending
  obtain ⟨hal, _⟩ := syncWorkspace_undisturbed h order hpending
  obtain ⟨_, _, hcflag, _⟩ := cleaned_spec h order (ws.desired discovered)
  generalize (ws.syncWorkspace order discovered).1 = ws' at *
  have hflag : ws'.subagentMonitor = ws.subagentMonitor := by
    rcases hcases with ⟨_, hopened⟩ | ⟨_, heq⟩
    · exact hopened.flag.trans hcflag
    · rw [heq, hcflag]
  have hagents := desired_agents hflag hsame
  rw [syncWorkspace_of_onlyShows order' (honly.of_agents hagents)]
  rcases hcases with ⟨_, hopened⟩ | ⟨hway, heq⟩
  · -- every subagent has its pane by now
    apply addMonitors_of_shown
    intro again hagain hlacks
    have hmem : again.1 ∈ (ws.desired discovered).map (·.1) := by
      rw [← hagents]
      exact List.mem_map_of_mem hagain
    obtain ⟨agent, hagent, hagent'⟩ := List.mem_map.mp hmem
    rw [← hagent'] at hlacks
    have hbefore : (ws.cleaned order (ws.desired discovered)).Lacks agent.1 :=
      fun id panel hl => hlacks id panel ((hopened.panels id panel).mpr (.inl hl))
    have hentry : ws'.panels.lookup agent.2 = some (newPane agent) :=
      (hopened.panels _ _).mpr (.inr ⟨agent, hagent, hbefore, rfl, rfl⟩)
    exact not_lacks hentry (hasPane_newPane_iff.mpr rfl) hlacks
  · -- the loop ends where it ended before
    rw [← heq] at hway
    obtain ⟨first, rest, hdesired, hlacks, hanchor⟩ := exists_first_of_not_anchored hal hway
    rw [hdesired, List.map_cons] at hagents
    obtain ⟨again, rest', hd, hhead, _⟩ := List.map_eq_cons_iff.mp hagents
    rw [hd]
    apply addMonitors_of_unanchored order' _ hanchor
    rw [hhead]
    exact hlacks

/-! ## §6. One pane each. -/

/-- The monitor panes are exactly those of the subagents to be shown, one each. -/
structure ShowsExactly (ws : Workspace) (desired : List (Subagent × Uuid)) : Prop where
  each : ∀ agent ∈ desired, ∃ id,
    (∃ panel, ws.panels.lookup id = some panel ∧ agent.1.hasPane panel = true) ∧
    ∀ id' panel, ws.panels.lookup id' = some panel → agent.1.hasPane panel = true → id' = id
  only : OnlyShows ws desired

/-- No subagent to be shown has two panes. -/
def NoTwins (ws : Workspace) (desired : List (Subagent × Uuid)) : Prop :=
  ∀ agent ∈ desired, ∀ id id' panel panel', ws.panels.lookup id = some panel →
    ws.panels.lookup id' = some panel' → agent.1.hasPane panel = true →
    agent.1.hasPane panel' = true → id = id'

/-- What is asked of a sync: the right panes, the others as they were, and
nothing left to do. -/
structure Reconciled (order : HashOrder) (discovered : List (Subagent × Uuid)) (ws : Workspace) :
    Prop where
  exact       : ShowsExactly (ws.syncWorkspace order discovered).1 (ws.desired discovered)
  undisturbed : Undisturbed ws (ws.syncWorkspace order discovered).1
  settled     : ∀ (order' : HashOrder) (discovered' : List (Subagent × Uuid)),
    discovered'.map (·.1) = discovered.map (·.1) →
      (ws.syncWorkspace order discovered).1.syncWorkspace order' discovered' =
        ((ws.syncWorkspace order discovered).1, false)

section Exact

variable {order : HashOrder} {discovered : List (Subagent × Uuid)}

/-- Cleaning up leaves the panes of the subagents to be shown. -/
theorem lookup_cleaned_iff (h : ws.Aligned) {agent : Subagent × Uuid}
    {desired : List (Subagent × Uuid)} (hagent : agent ∈ desired) {id : Uuid} {panel : Panel}
    (hhas : agent.1.hasPane panel = true) :
    (ws.cleaned order desired).panels.lookup id = some panel ↔ ws.panels.lookup id = some panel := by
  obtain ⟨_, _, _, hlookup⟩ := cleaned_spec h order desired
  rw [hlookup]
  exact and_iff_left fun _ => ⟨agent, hagent, hhas⟩

theorem lacks_cleaned_iff (h : ws.Aligned) {agent : Subagent × Uuid}
    {desired : List (Subagent × Uuid)} (hagent : agent ∈ desired) :
    (ws.cleaned order desired).Lacks agent.1 ↔ ws.Lacks agent.1 := by
  constructor
  · intro hlacks id panel hl
    by_contra hhas
    rw [Bool.not_eq_false] at hhas
    have := hlacks id panel ((lookup_cleaned_iff h hagent hhas).mpr hl)
    rw [hhas] at this
    cases this
  · intro hlacks id panel hl
    by_contra hhas
    rw [Bool.not_eq_false] at hhas
    have := hlacks id panel ((lookup_cleaned_iff h hagent hhas).mp hl)
    rw [hhas] at this
    cases this

theorem anchored_cleaned_iff (h : ws.Aligned) (order : HashOrder)
    (desired : List (Subagent × Uuid)) :
    Anchored (ws.cleaned order desired) desired ↔ Anchored ws desired := by
  obtain ⟨_, hun, _, _⟩ := cleaned_spec h order desired
  unfold Anchored
  rw [isNonMonitor_congr hun.panels]
  refine forall_congr' fun first => forall_congr' fun hfirst => ?_
  rw [lacks_cleaned_iff h (List.mem_of_mem_head? hfirst)]

/-- A pane of before is a pane of after. -/
theorem lookup_synced (h : ws.Aligned) (hpending : Pending ws discovered)
    {agent : Subagent × Uuid} (hagent : agent ∈ ws.desired discovered) {id : Uuid} {panel : Panel}
    (hhas : agent.1.hasPane panel = true) (hl : ws.panels.lookup id = some panel) :
    (ws.syncWorkspace order discovered).1.panels.lookup id = some panel := by
  have hclean := (@lookup_cleaned_iff ws order h _ _ hagent _ _ hhas).mpr hl
  rcases syncWorkspace_cases h order hpending with ⟨_, hopened⟩ | ⟨_, heq⟩
  · exact (hopened.panels id panel).mpr (.inl hclean)
  · rw [heq]
    exact hclean

theorem showsExactly_of (h : ws.Aligned) (hpending : Pending ws discovered)
    (htwins : NoTwins ws (ws.desired discovered)) (hway : Anchored ws (ws.desired discovered)) :
    ShowsExactly (ws.syncWorkspace order discovered).1 (ws.desired discovered) := by
  refine ⟨?_, syncWorkspace_onlyShows h order hpending⟩
  rcases syncWorkspace_cases h order hpending with ⟨_, hopened⟩ | ⟨hnot, _⟩
  · intro agent hagent
    -- a pane that came for a subagent with this transcript came for this one
    have hsame : ∀ other ∈ ws.desired discovered, agent.1.hasPane (newPane other) = true →
        other = agent := by
      intro other hother hhas
      exact List.inj_on_of_nodup_map hpending.desired.distinct hother hagent
        (hasPane_newPane_iff.mp hhas)
    by_cases hlacks : (ws.cleaned order (ws.desired discovered)).Lacks agent.1
    · refine ⟨agent.2, ⟨newPane agent, ?_, hasPane_newPane_iff.mpr rfl⟩, ?_⟩
      · exact (hopened.panels _ _).mpr (.inr ⟨agent, hagent, hlacks, rfl, rfl⟩)
      · intro id' panel hl hhas
        rcases (hopened.panels id' panel).mp hl with hold | ⟨other, hother, _, rfl, rfl⟩
        · rw [hlacks id' panel hold] at hhas
          cases hhas
        · rw [hsame other hother hhas]
    · unfold Lacks at hlacks
      push Not at hlacks
      obtain ⟨id, panel, hl, hhas⟩ := hlacks
      rw [ne_eq, Bool.not_eq_false] at hhas
      refine ⟨id, ⟨panel, (hopened.panels id panel).mpr (.inl hl), hhas⟩, ?_⟩
      intro id' panel' hl' hhas'
      rcases (hopened.panels id' panel').mp hl' with hold | ⟨other, hother, hnone, _, rfl⟩
      · exact htwins agent hagent id' id panel' panel
          ((lookup_cleaned_iff h hagent hhas').mp hold) ((lookup_cleaned_iff h hagent hhas).mp hl)
          hhas' hhas
      · have := hnone id panel hl
        rw [hsame other hother hhas', hhas] at this
        cases this
  · exact absurd ((anchored_cleaned_iff h order _).mpr hway) hnot

theorem anchored_of_showsExactly (h : ws.Aligned) (hpending : Pending ws discovered)
    (hexact : ShowsExactly (ws.syncWorkspace order discovered).1 (ws.desired discovered)) :
    Anchored ws (ws.desired discovered) := by
  rw [← anchored_cleaned_iff h order]
  rcases syncWorkspace_cases h order hpending with ⟨hway, _⟩ | ⟨hnot, heq⟩
  · exact hway
  · intro first hfirst hlacks
    obtain ⟨id, ⟨panel, hl, hhas⟩, _⟩ := hexact.each first (List.mem_of_mem_head? hfirst)
    rw [heq] at hl
    rw [hlacks id panel hl] at hhas
    cases hhas

/-- **Reconciliation.**  A sync does what is asked of it exactly when none of the
subagents to be shown had two panes, and the first has one or there is a panel
that is no monitor. -/
theorem reconciled_iff (h : ws.Aligned) (order : HashOrder)
    {discovered : List (Subagent × Uuid)} (hpending : Pending ws discovered) :
    Reconciled order discovered ws ↔
      NoTwins ws (ws.desired discovered) ∧ Anchored ws (ws.desired discovered) := by
  constructor
  · intro hrec
    refine ⟨?_, anchored_of_showsExactly h hpending hrec.exact⟩
    intro agent hagent id id' panel panel' hl hl' hhas hhas'
    obtain ⟨one, _, hone⟩ := hrec.exact.each agent hagent
    rw [hone id panel (lookup_synced h hpending hagent hhas hl) hhas,
      hone id' panel' (lookup_synced h hpending hagent hhas' hl') hhas']
  · intro hcond
    obtain ⟨htwins, hway⟩ := hcond
    exact ⟨showsExactly_of h hpending htwins hway, (syncWorkspace_undisturbed h order hpending).2,
      fun order' _ hsame => syncWorkspace_settles h order hpending order' hsame⟩

end Exact

/-! ## §7. The subagents found on disk. -/

/-- A subagent older than this has finished. -/
def activeWindowSecs : Nat := 10 * 60

/-- Beyond this the newest subagents win. -/
def maxMonitorPanes : Nat := 6

/-- A file of a subagents directory, with its age in seconds and what
`meta_description` reads beside it. -/
structure TranscriptFile where
  path        : String
  name        : String
  mtime       : Nat
  age         : Nat
  description : Option String

/-- What the file system says. -/
structure ClaudeDisk where
  hasProjects      : Bool
  /-- the subagents directory of a session in a project directory, if it is there -/
  subagentsOf      : String → String → Option String
  sessionIdsForCwd : String → List String
  readDir          : String → Option (List TranscriptFile)

/-- The focused panel, then the terminals by their ids. -/
def monitorCandidates (order : HashOrder) (ws : Workspace) : List Panel :=
  (ws.focusedPanelId.bind ws.panels.lookup).toList ++
    (((order.iter ws.panels).map (·.2)).filter (·.panelType = .terminal)).mergeSort
      fun a b => a.id ≤ b.id

/-- The session that a terminal reports, else the newest one of its directory. -/
def subagentsDir (disk : ClaudeDisk) (order : HashOrder) (ws : Workspace) : Option String :=
  if disk.hasProjects then
    let terminals := (ws.monitorCandidates order).filter (·.panelType = .terminal)
    let dir (panel : Panel) : String := panel.directory.getD ws.currentDirectory
    (terminals.findSome? fun panel => panel.agentSessionId.bind (disk.subagentsOf (dir panel))).or
      (terminals.findSome? fun panel =>
        (disk.sessionIdsForCwd (dir panel)).findSome? (disk.subagentsOf (dir panel)))
  else none

/-- Take the pattern off the front as often as it is there. -/
def stripCopies (pattern : List Char) : Nat → List Char → List Char
  | 0, cs => cs
  | fuel + 1, cs =>
      if pattern.isPrefixOf cs then stripCopies pattern fuel (cs.drop pattern.length) else cs

/-- `str::trim_end_matches` with a text. -/
def trimEndText (text s : String) : String :=
  String.ofList (stripCopies text.toList.reverse s.length s.toList.reverse).reverse

/-- The recently active ones, at most six, oldest first. -/
def discoverSubagents (disk : ClaudeDisk) (order : HashOrder) (ws : Workspace) : List Subagent :=
  let files := ((ws.subagentsDir disk order).bind disk.readDir).getD []
  let live := files.filter fun file =>
    file.name.startsWith "agent-" ∧ file.name.endsWith ".jsonl" ∧ ¬ file.age > activeWindowSecs
  (((live.mergeSort fun a b => b.mtime ≤ a.mtime).take maxMonitorPanes).reverse).map fun file =>
    { transcript := file.path
      title      := file.description.getD (trimEndText ".jsonl" file.name) }

theorem lookup_of_mem_monitorCandidates {order : HashOrder} {panel : Panel}
    (h : panel ∈ ws.monitorCandidates order) : ∃ id, ws.panels.lookup id = some panel := by
  unfold monitorCandidates at h
  rcases List.mem_append.mp h with hfocus | hrest
  · obtain ⟨id, _, hl⟩ := Option.bind_eq_some_iff.mp (Option.mem_toList.mp hfocus)
    exact ⟨id, hl⟩
  · rw [List.mem_mergeSort] at hrest
    obtain ⟨entry, hentry, rfl⟩ := List.mem_map.mp (List.mem_filter.mp hrest).1
    exact ⟨entry.1, (order.mem_iter ws.panels entry.1 entry.2).mp hentry⟩

/-- Subagents are found through a terminal, which can be split for the first of them. -/
theorem anchored_of_discovered (disk : ClaudeDisk) (order : HashOrder)
    {discovered : List (Subagent × Uuid)}
    (hfound : discovered.map (·.1) = ws.discoverSubagents disk order) :
    Anchored ws (ws.desired discovered) := by
  intro first hfirst _
  have hne : ws.discoverSubagents disk order ≠ [] := by
    intro hnil
    rw [hnil, List.map_eq_nil_iff] at hfound
    rw [hfound] at hfirst
    unfold desired at hfirst
    split at hfirst <;> cases hfirst
  obtain ⟨dir, hdir⟩ : ∃ dir, ws.subagentsDir disk order = some dir := by
    cases hdir : ws.subagentsDir disk order with
    | some dir => exact ⟨dir, rfl⟩
    | none =>
        exfalso
        apply hne
        unfold discoverSubagents
        rw [hdir]
        simp
  have hterminal : ∃ panel ∈ (ws.monitorCandidates order).filter (·.panelType = .terminal), True := by
    by_contra hnone
    have hnil : (ws.monitorCandidates order).filter (·.panelType = .terminal) = [] := by
      rw [List.eq_nil_iff_forall_not_mem]
      intro panel hpanel
      exact hnone ⟨panel, hpanel, trivial⟩
    unfold subagentsDir at hdir
    rw [hnil] at hdir
    simp at hdir
  obtain ⟨panel, hpanel, _⟩ := hterminal
  obtain ⟨hcandidate, htype⟩ := List.mem_filter.mp hpanel
  obtain ⟨id, hl⟩ := lookup_of_mem_monitorCandidates hcandidate
  refine ⟨id, isNonMonitor_iff.mpr ⟨panel, hl, ?_⟩⟩
  rw [of_decide_eq_true htype]
  decide

/-! ## §8. How a subagent comes to have two panes. -/

def entryOrder : HashOrder := ⟨fun panels => panels.entries, HashOrder.perm_entries⟩

def agentOne : Subagent := ⟨"agent-1.jsonl", "one"⟩

/-- The monitor is on and has opened a pane. -/
def monitored : Workspace :=
  (Workspace.syncWorkspace entryOrder [(agentOne, 2)]
    { Workspace.new 100 1 "/" with subagentMonitor := true }).1

/-- The pane was closed by hand, opened again by the next sync, and the closed
tab then reopened. -/
def twinPanes : Workspace :=
  ((syncWorkspace entryOrder [(agentOne, 3)] (monitored.removePanel 2).1).1.reopenLastClosedPanel
    4).1

theorem twinPanes_wellFormed : twinPanes.WellFormed := by
  have hnew : { Workspace.new 100 1 "/" with subagentMonitor := true }.WellFormed := by
    have h := new_wellFormed 100 1 "/"
    exact ⟨h.inStep, h.keyed, h.focused⟩
  have hone : monitored.WellFormed :=
    hnew.syncWorkspace entryOrder (by decide) (by decide) (by decide)
  have hclosed : (monitored.removePanel 2).1.WellFormed := hone.removePanel 2 (by decide)
  have htwo : (syncWorkspace entryOrder [(agentOne, 3)] (monitored.removePanel 2).1).1.WellFormed :=
    hclosed.syncWorkspace entryOrder (by decide) (by decide) (by decide)
  exact htwo.reopenLastClosedPanel (by decide)

theorem twinPanes_pending : Pending twinPanes [(agentOne, 5)] :=
  ⟨by decide, by decide, by decide⟩

theorem reconciled_iff_monitored :
    Reconciled entryOrder [(agentOne, 5)] twinPanes ↔
      NoTwins twinPanes (twinPanes.desired [(agentOne, 5)]) ∧
        Anchored twinPanes (twinPanes.desired [(agentOne, 5)]) :=
  reconciled_iff twinPanes_wellFormed.aligned entryOrder twinPanes_pending

/-- Both panes stay. -/
theorem not_reconciled :
    ¬ ∀ (order : HashOrder) (discovered : List (Subagent × Uuid)) (ws : Workspace),
      ws.WellFormed → Pending ws discovered → Reconciled order discovered ws := by
  intro h
  have hrec := h entryOrder [(agentOne, 5)] twinPanes twinPanes_wellFormed twinPanes_pending
  obtain ⟨one, _, hone⟩ := hrec.exact.each (agentOne, 5) (by decide)
  have htwo := hone 3 (newPane (agentOne, 3)) (by decide) (by decide)
  have hthree := hone 4 (newPane (agentOne, 4)) (by decide) (by decide)
  rw [← htwo] at hthree
  exact absurd hthree (by decide)

end Workspace

end Jmux.Model
