/-
  Jmux.Model.InStep — a layout and a panels map that show the same panels.

  The mutators edit the layout tree and the hash map separately.  `InStep` says
  that the two agree, and there is one rule for each kind of edit:
    * `InStep.update`   — a pane edit, with panels that come or without.
    * `InStep.remove`   — a removal on both sides.
    * `InStep.relocate` — a removal and a pane edit that brings the panel back.
    * `InStep.swap`     — swapping two panels.
-/
import Jmux.Model.Workspace

namespace Jmux.Model

open Jmux.Lib

/-- The panes are a sound row of tab groups, and its tabs are the map's keys. -/
structure InStep (layout : LayoutNode) (panels : Panels) : Prop where
  sound : Sound layout.panes
  same  : ∀ id, id ∈ layout.allPanelIds ↔ id ∈ panels

/-- What a pane edit must do to a pane that shows one of its own tabs: give
panes that do, with the same tabs and the `extra` ones. -/
def EditsPane (extra : List Uuid) (target : Uuid) (f : List Uuid → Option Uuid → LayoutNode) :
    Prop :=
  ∀ g : TabGroup Uuid, g.Valid → target ∈ g.tabs →
    (∀ n ∈ (f g.tabs g.selected).panes, n.Valid) ∧
      (tabsOf (f g.tabs g.selected).panes).Perm (extra ++ g.tabs)

/-! ## §1. The pane edits of the source. -/

theorem editsPane_select (panelId : Uuid) :
    EditsPane [] panelId fun panelIds _ => .paneNode panelIds (some panelId) := by
  intro g _ ht
  refine ⟨?_, ?_⟩
  · intro n hn
    obtain rfl := List.mem_singleton.mp hn
    exact ⟨panelId, ht, rfl⟩
  · simp [LayoutNode.panes]

/-- Both ways to split a pane off a new panel. -/
theorem splitNode_edits {g : TabGroup Uuid} (hg : g.Valid) (orientation : SplitOrientation)
    (divider : Rat) (newId : Uuid) {first second : LayoutNode}
    (h : (first, second) = (.paneNode g.tabs g.selected, .singlePane newId) ∨
      (first, second) = (.singlePane newId, .paneNode g.tabs g.selected)) :
    (∀ n ∈ (LayoutNode.splitNode orientation divider first second).panes, n.Valid) ∧
      (tabsOf (LayoutNode.splitNode orientation divider first second).panes).Perm
        ([newId] ++ g.tabs) := by
  have hnew : (⟨[newId], some newId⟩ : TabGroup Uuid).Valid := TabGroup.single_valid newId
  rcases h with h | h
  · obtain ⟨rfl, rfl⟩ := Prod.mk.inj h
    refine ⟨?_, ?_⟩
    · simpa [LayoutNode.panes, LayoutNode.singlePane] using ⟨hg, hnew⟩
    · simp [LayoutNode.panes, LayoutNode.singlePane, List.perm_append_singleton]
  · obtain ⟨rfl, rfl⟩ := Prod.mk.inj h
    refine ⟨?_, ?_⟩
    · simpa [LayoutNode.panes, LayoutNode.singlePane] using ⟨hnew, hg⟩
    · simp [LayoutNode.panes, LayoutNode.singlePane]

theorem editsPane_split (target : Uuid) (orientation : SplitOrientation) (newId : Uuid) :
    EditsPane [newId] target fun panelIds selected =>
      (LayoutNode.paneNode panelIds selected).split orientation newId := by
  intro g hg _
  exact splitNode_edits hg orientation (1 / 2) newId (.inl rfl)

theorem editsPane_splitWithPanel (target : Uuid) (orientation : SplitOrientation)
    (direction : Direction) (newId : Uuid) :
    EditsPane [newId] target fun panelIds selected =>
      let newPane := LayoutNode.paneNode [newId] (some newId)
      let existing := LayoutNode.paneNode panelIds selected
      if direction = .left ∨ direction = .up then
        .splitNode orientation (1 / 2) newPane existing
      else
        .splitNode orientation (1 / 2) existing newPane := by
  intro g hg _
  show (∀ n ∈ LayoutNode.panes (if direction = .left ∨ direction = .up then _ else _), _) ∧
    (tabsOf (LayoutNode.panes (if direction = .left ∨ direction = .up then _ else _))).Perm _
  split
  · exact splitNode_edits hg orientation (1 / 2) newId (.inr rfl)
  · exact splitNode_edits hg orientation (1 / 2) newId (.inl rfl)

theorem insertAfter_perm (panelIds : List Uuid) (target newId : Uuid) :
    (LayoutNode.insertAfter panelIds target newId).Perm (newId :: panelIds) := by
  unfold LayoutNode.insertAfter
  split
  · next pos hpos =>
      obtain ⟨hlt, _⟩ := List.idxOf?_eq_some_iff.mp hpos
      exact List.perm_insertIdx newId panelIds (by omega)
  · exact List.perm_append_singleton newId panelIds

theorem editsPane_add (target newId : Uuid) :
    EditsPane [newId] target fun panelIds _ =>
      .paneNode (LayoutNode.insertAfter panelIds target newId) (some newId) := by
  intro g _ _
  have hperm := insertAfter_perm g.tabs target newId
  refine ⟨?_, ?_⟩
  · intro n hn
    obtain rfl := List.mem_singleton.mp hn
    exact ⟨newId, hperm.mem_iff.mpr List.mem_cons_self, rfl⟩
  · simpa [LayoutNode.panes] using hperm

theorem moveWithin_perm {panelIds : List Uuid} {panelId : Uuid} (h : panelId ∈ panelIds)
    (newIndex : Nat) : (LayoutNode.moveWithin panelIds panelId newIndex).Perm panelIds :=
  (List.perm_insertIdx panelId _ (Nat.min_le_right _ _)).trans (List.perm_cons_erase h).symm

theorem editsPane_reorder (panelId : Uuid) (newIndex : Nat) :
    EditsPane [] panelId fun panelIds selected =>
      .paneNode (LayoutNode.moveWithin panelIds panelId newIndex) selected := by
  intro g hg ht
  have hperm := moveWithin_perm ht newIndex
  obtain ⟨t, hmem, hsel⟩ := hg
  refine ⟨?_, ?_⟩
  · intro n hn
    obtain rfl := List.mem_singleton.mp hn
    exact ⟨t, hperm.mem_iff.mpr hmem, hsel⟩
  · simpa [LayoutNode.panes] using hperm

namespace InStep

variable {layout layout' : LayoutNode} {panels panels' : Panels}

/-! ## §2. What is in step has a first panel and a pane for each. -/

theorem tabs_ne_nil (h : InStep layout panels) : ∀ g ∈ layout.panes, g.tabs ≠ [] :=
  fun g hg => (h.sound.valid g hg).tabs_ne_nil

/-- The panel that takes the focus over. -/
theorem head (h : InStep layout panels) : ∃ id ∈ panels, layout.allPanelIds.head? = some id := by
  obtain ⟨g, gs, hpanes⟩ := List.exists_cons_of_ne_nil layout.panes_ne_nil
  have hg : g.tabs ≠ [] := h.tabs_ne_nil g (hpanes ▸ List.mem_cons_self)
  have hne : layout.allPanelIds ≠ [] := by
    rw [LayoutNode.allPanelIds_eq, hpanes, tabsOf_cons]
    simp [hg]
  obtain ⟨id, ids, hids⟩ := List.exists_cons_of_ne_nil hne
  refine ⟨id, (h.same id).mp (hids ▸ List.mem_cons_self), ?_⟩
  rw [hids]
  rfl

/-- A panel of the map has a pane to edit. -/
theorem exists_update (h : InStep layout panels) {target : Uuid} (ht : target ∈ panels)
    (f : List Uuid → Option Uuid → LayoutNode) :
    ∃ layout', layout.updatePaneWith target f = some layout' :=
  Option.isSome_iff_exists.mp ((layout.updatePaneWith_isSome target f).mpr ((h.same target).mpr ht))

/-! ## §3. The rules. -/

/-- One panel in one pane. -/
theorem singlePane (panelId : Uuid) (panel : Panel) :
    InStep (.singlePane panelId) (AList.singleton panelId panel) where
  sound :=
    { distinct := List.nodup_singleton panelId
      valid := by
        intro g hg
        obtain rfl := List.mem_singleton.mp hg
        exact TabGroup.single_valid panelId }
  same id := by simp [LayoutNode.singlePane, LayoutNode.allPanelIds, AList.mem_keys]

/-- Only the keys of the map matter. -/
theorem congr (h : InStep layout panels) (hp : ∀ id, id ∈ panels' ↔ id ∈ panels) :
    InStep layout panels' :=
  ⟨h.sound, fun id => (h.same id).trans (hp id).symm⟩

/-- **A pane edit**: the tabs that come must come into the map, too. -/
theorem update (h : InStep layout panels) {target : Uuid} {extra : List Uuid}
    {f : List Uuid → Option Uuid → LayoutNode} (hf : EditsPane extra target f)
    (hup : layout.updatePaneWith target f = some layout') (hx : extra.Nodup)
    (hnew : ∀ id ∈ extra, id ∉ panels) (hp : ∀ id, id ∈ panels' ↔ id ∈ extra ∨ id ∈ panels) :
    InStep layout' panels' := by
  obtain ⟨before, g, after, hpanes, ht, _, hpanes'⟩ := LayoutNode.panes_of_updatePaneWith hup
  have hsound : Sound (before ++ g :: after) := hpanes ▸ h.sound
  have hg : g.Valid := hsound.valid g (List.mem_append_right _ List.mem_cons_self)
  obtain ⟨hvalid, hperm⟩ := hf g hg ht
  have hmem : ∀ id, id ∈ tabsOf (before ++ g :: after) ↔ id ∈ panels := by
    intro id
    rw [← hpanes, ← LayoutNode.allPanelIds_eq]
    exact h.same id
  refine ⟨?_, fun id => ?_⟩
  · rw [hpanes']
    exact hsound.replace hvalid hperm hx fun id hid => (hmem id).not.mpr (hnew id hid)
  · rw [LayoutNode.allPanelIds_eq, hpanes', (tabsOf_replace before after hperm).mem_iff, List.mem_append,
        hmem id, hp id]

/-- **A removal** on both sides, as long as a panel is left. -/
theorem remove (h : InStep layout panels) (panelId : Uuid)
    (hrest : ∃ id, id ∈ panels.erase panelId) :
    InStep ((layout.removePanel panelId).getD layout) (panels.erase panelId) := by
  cases hrm : layout.removePanel panelId with
  | none =>
      have hnot : panelId ∉ panels := by
        rw [← h.same, ← LayoutNode.removePanel_isSome, hrm]
        simp
      refine h.congr fun id => ?_
      rw [AList.mem_erase]
      constructor
      · exact fun hid => hid.2
      · exact fun hid => ⟨fun he => hnot (he ▸ hid), hid⟩
  | some layout' =>
      obtain ⟨before, g, after, hpanes, ht, _, hcase⟩ :=
        LayoutNode.panes_of_removePanel h.tabs_ne_nil hrm
      have hsound : Sound (before ++ g :: after) := hpanes ▸ h.sound
      have hclose := tabsOf_close before after ht
      have hnd := List.nodup_cons.mp (hclose.nodup_iff.mp hsound.distinct)
      -- what the row holds after the close is what the smaller map holds
      have hmem : ∀ id, id ∈ tabsOf (before ++ g.remains panelId ++ after) ↔
          id ∈ panels.erase panelId := by
        intro id
        rw [AList.mem_erase, ← h.same, LayoutNode.allPanelIds_eq, hpanes, hclose.mem_iff,
            List.mem_cons]
        constructor
        · exact fun hid => ⟨fun he => hnd.1 (he ▸ hid), .inr hid⟩
        · rintro ⟨hne, rfl | hid⟩
          · exact absurd rfl hne
          · exact hid
      rcases hcase with hpanes' | ⟨hnil, _⟩
      · refine ⟨?_, fun id => ?_⟩
        · rw [Option.getD_some, hpanes']
          exact hsound.close ht
        · rw [Option.getD_some, LayoutNode.allPanelIds_eq, hpanes']
          exact hmem id
      · obtain ⟨id, hid⟩ := hrest
        have := (hmem id).mpr hid
        rw [hnil] at this
        cases this

/-- **A relocation**: out of its pane and, by an edit of the target's pane,
back in. -/
theorem relocate (h : InStep layout panels) {source target : Uuid}
    {f : List Uuid → Option Uuid → LayoutNode} (hf : EditsPane [source] target f)
    (hs : source ∈ panels) (ht : target ∈ panels) (hne : source ≠ target) :
    ∃ layout', ((layout.removePanel source).getD layout).updatePaneWith target f = some layout' ∧
      InStep layout' panels := by
  have htarget : target ∈ panels.erase source := AList.mem_erase.mpr ⟨hne.symm, ht⟩
  have hremoved := h.remove source ⟨target, htarget⟩
  obtain ⟨layout', hup⟩ := hremoved.exists_update htarget f
  refine ⟨layout', hup, hremoved.update hf hup (List.nodup_singleton source) ?_ ?_⟩
  · intro id hid
    rw [List.mem_singleton.mp hid, AList.mem_erase]
    exact fun hmem => hmem.1 rfl
  · intro id
    rw [List.mem_singleton, AList.mem_erase]
    by_cases hid : id = source
    · simp [hid, hs]
    · simp [hid]

/-- **A swap** of two panels of the map. -/
theorem swap (h : InStep layout panels) {a b : Uuid} (ha : a ∈ panels) (hb : b ∈ panels) :
    InStep (layout.swapPanels a b).1 panels where
  sound := by
    rw [LayoutNode.panes_swapPanels, LayoutNode.exchange_eq_swap]
    exact h.sound.rename (Equiv.swap a b).injective
  same id := by
    rw [LayoutNode.allPanelIds_eq, LayoutNode.panes_swapPanels, tabsOf_rename,
        ← LayoutNode.allPanelIds_eq, LayoutNode.exchange_eq_swap, List.mem_map]
    have hkeep : ∀ x, x ∈ panels → Equiv.swap a b x ∈ panels := fun x hx =>
      @LayoutNode.swap_keeps (· ∈ panels) a b x ha hb hx
    constructor
    · rintro ⟨x, hx, rfl⟩
      exact hkeep x ((h.same x).mp hx)
    · intro hid
      exact ⟨Equiv.swap a b id, (h.same _).mpr (hkeep id hid), Equiv.swap_apply_self a b id⟩

end InStep

end Jmux.Model
