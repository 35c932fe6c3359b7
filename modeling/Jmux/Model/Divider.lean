/-
  Jmux.Model.Divider — the divider of one split (`model/panel.rs`).

  The window reports a dragged divider by the panels on its two sides.  The
  source looks for the split from the root and stops at the first one that has
  these sides.

  Main results:
    * `set_divider_without` — nothing changes where no split has these sides.
    * `set_divider_plug`    — a split below its ancestors is found, whatever they are.
    * `set_divider_exact`   — the sides of a split set its divider and no other one.
-/
import Jmux.Model.Ancestors
import Mathlib.Algebra.Order.Ring.Unbundled.Rat
import Mathlib.Data.List.Induction
import Mathlib.Data.List.Sort

namespace Jmux.Model

namespace LayoutNode

/-! ## §1. The search. -/

def samePanelSet (node : LayoutNode) (expected : List Uuid) : Bool :=
  node.allPanelIds.insertionSort (· ≤ ·) == expected.insertionSort (· ≤ ·)

/-- The layout after the call, and what it returns. -/
def setDividerPositionForSplit (firstPanelIds secondPanelIds : List Uuid)
    (dividerPosition : Rat) : LayoutNode → LayoutNode × Bool
  | paneNode panelIds selected => (paneNode panelIds selected, false)
  | splitNode orientation current first second =>
      let isTarget := samePanelSet first firstPanelIds && samePanelSet second secondPanelIds
      if isTarget then
        (splitNode orientation (max 0 (min dividerPosition 1)) first second, true)
      else
        let (first, found) :=
          first.setDividerPositionForSplit firstPanelIds secondPanelIds dividerPosition
        -- `||` leaves the second side alone
        if found then (splitNode orientation current first second, true)
        else
          let (second, found) :=
            second.setDividerPositionForSplit firstPanelIds secondPanelIds dividerPosition
          (splitNode orientation current first second, found)

theorem samePanelSet_iff (node : LayoutNode) (expected : List Uuid) :
    node.samePanelSet expected = true ↔ node.allPanelIds.Perm expected := by
  unfold samePanelSet
  rw [beq_iff_eq]
  constructor
  · intro h
    have hleft := List.perm_insertionSort (· ≤ ·) node.allPanelIds
    have hright := List.perm_insertionSort (· ≤ ·) expected
    rw [h] at hleft
    exact hleft.symm.trans hright
  · intro h
    have hperm := ((List.perm_insertionSort (· ≤ ·) node.allPanelIds).trans h).trans
      (List.perm_insertionSort (· ≤ ·) expected).symm
    exact hperm.eq_of_pairwise' (List.pairwise_insertionSort (· ≤ ·) node.allPanelIds)
      (List.pairwise_insertionSort (· ≤ ·) expected)

/-! ## §2. The panels of a layout below its ancestors. -/

theorem sublist_attach (a : Ancestor) (child : LayoutNode) :
    child.allPanelIds.Sublist (a.attach child).allPanelIds := by
  unfold Ancestor.attach
  split
  · exact List.sublist_append_left child.allPanelIds a.sibling.allPanelIds
  · exact List.sublist_append_right a.sibling.allPanelIds child.allPanelIds

theorem sublist_plug (as : List Ancestor) (node : LayoutNode) :
    node.allPanelIds.Sublist (plug as node).allPanelIds := by
  induction as generalizing node with
  | nil => exact List.Sublist.refl node.allPanelIds
  | cons a as ih => exact (sublist_attach a node).trans (ih (a.attach node))

/-- The outermost ancestor is the root. -/
theorem plug_concat (as : List Ancestor) (a : Ancestor) (node : LayoutNode) :
    plug (as ++ [a]) node = a.attach (plug as node) := plug_append as [a] node

/-! ## §3. Only a split with these sides. -/

variable {firstIds secondIds : List Uuid} {position : Rat}

/-- A split of the layout has these sides. -/
def HasSplit (node : LayoutNode) (firstIds secondIds : List Uuid) : Prop :=
  ∃ as orientation divider first second, node = plug as (splitNode orientation divider first second) ∧
    firstIds.Perm first.allPanelIds ∧ secondIds.Perm second.allPanelIds

theorem HasSplit.attach {child : LayoutNode} (a : Ancestor) (h : child.HasSplit firstIds secondIds) :
    (a.attach child).HasSplit firstIds secondIds := by
  obtain ⟨as, orientation, divider, first, second, rfl, hsides⟩ := h
  exact ⟨as ++ [a], orientation, divider, first, second, (plug_concat as a _).symm, hsides⟩

/-- The panels of the first side are in the layout. -/
theorem HasSplit.first_subset {node : LayoutNode} (h : node.HasSplit firstIds secondIds) :
    firstIds ⊆ node.allPanelIds := by
  obtain ⟨as, orientation, divider, first, second, rfl, hfirst, -⟩ := h
  intro id hid
  apply (sublist_plug as (splitNode orientation divider first second)).subset
  exact List.mem_append_left second.allPanelIds (hfirst.mem_iff.mp hid)

/-- **Without such a split** the call returns `false` and the layout is as before. -/
theorem set_divider_without {node : LayoutNode} (h : ¬ node.HasSplit firstIds secondIds) :
    node.setDividerPositionForSplit firstIds secondIds position = (node, false) := by
  induction node with
  | paneNode ids selected => rfl
  | splitNode o d first second ihf ihs =>
      have hf : ¬ first.HasSplit firstIds secondIds := fun hs => h (hs.attach ⟨o, d, true, second⟩)
      have hs : ¬ second.HasSplit firstIds secondIds := fun hs => h (hs.attach ⟨o, d, false, first⟩)
      have htarget : (samePanelSet first firstIds && samePanelSet second secondIds) = false := by
        rw [Bool.eq_false_iff]
        intro htrue
        rw [Bool.and_eq_true, samePanelSet_iff, samePanelSet_iff] at htrue
        exact h ⟨[], o, d, first, second, rfl, htrue.1.symm, htrue.2.symm⟩
      unfold setDividerPositionForSplit
      simp only [htarget, ihf hf, ihs hs, Bool.false_eq_true, if_false]

/-! ## §4. Every split is found. -/

/-- A side with fewer panels is another one. -/
theorem samePanelSet_of_length_lt {node : LayoutNode} {ids : List Uuid}
    (h : ids.length < node.allPanelIds.length) : samePanelSet node ids = false := by
  rw [Bool.eq_false_iff]
  intro htrue
  have hlen := ((samePanelSet_iff node ids).mp htrue).length_eq
  omega

/-- **A split below its ancestors is found**: the side of an ancestor that holds it
has more panels than its own sides, and the other side shares none with it. -/
theorem set_divider_plug {as : List Ancestor} {orientation : SplitOrientation} {divider : Rat}
    {first second : LayoutNode}
    (hnodup : (plug as (splitNode orientation divider first second)).allPanelIds.Nodup)
    (hfirst : first.allPanelIds ≠ []) (hsecond : second.allPanelIds ≠ [])
    (hfirstIds : firstIds.Perm first.allPanelIds) (hsecondIds : secondIds.Perm second.allPanelIds) :
    (plug as (splitNode orientation divider first second)).setDividerPositionForSplit
        firstIds secondIds position =
      (plug as (splitNode orientation (max 0 (min position 1)) first second), true) := by
  induction as using List.reverseRecOn with
  | nil =>
      have htarget : (samePanelSet first firstIds && samePanelSet second secondIds) = true := by
        rw [Bool.and_eq_true, samePanelSet_iff, samePanelSet_iff]
        exact ⟨hfirstIds.symm, hsecondIds.symm⟩
      show setDividerPositionForSplit firstIds secondIds position
        (splitNode orientation divider first second) = _
      unfold setDividerPositionForSplit
      simp only [htarget, if_true]
      rfl
  | append_singleton as a ih =>
      rw [plug_concat] at hnodup ⊢
      rw [plug_concat]
      have ih := ih (hnodup.sublist (sublist_attach a _))
      -- the side of the ancestor has the panels of both sides of the split
      have hlonger := (sublist_plug as (splitNode orientation divider first second)).length_le
      have hsplit : (splitNode orientation divider first second).allPanelIds.length
          = first.allPanelIds.length + second.allPanelIds.length := List.length_append
      have hf := List.length_pos_of_ne_nil hfirst
      have hs := List.length_pos_of_ne_nil hsecond
      have hfl := hfirstIds.length_eq
      have hsl := hsecondIds.length_eq
      obtain ⟨o, d, isFirst, sibling⟩ := a
      cases isFirst with
      | true =>
          have htarget : samePanelSet (plug as (splitNode orientation divider first second)) firstIds
              = false := samePanelSet_of_length_lt (by omega)
          show setDividerPositionForSplit firstIds secondIds position
            (splitNode o d (plug as (splitNode orientation divider first second)) sibling) = _
          unfold setDividerPositionForSplit
          simp only [htarget, ih, Bool.false_and, Bool.false_eq_true, if_false, if_true]
          rfl
      | false =>
          have htarget : samePanelSet (plug as (splitNode orientation divider first second)) secondIds
              = false := samePanelSet_of_length_lt (by omega)
          -- the other side shares no panel with the split
          have hother : ¬ sibling.HasSplit firstIds secondIds := by
            intro hhas
            obtain ⟨id, hid⟩ := List.exists_mem_of_ne_nil first.allPanelIds hfirst
            have hin := hhas.first_subset (hfirstIds.mem_iff.mpr hid)
            have hbelow := (sublist_plug as (splitNode orientation divider first second)).subset
              (List.mem_append_left second.allPanelIds hid)
            exact List.disjoint_of_nodup_append hnodup hin hbelow
          show setDividerPositionForSplit firstIds secondIds position
            (splitNode o d sibling (plug as (splitNode orientation divider first second))) = _
          unfold setDividerPositionForSplit
          simp only [htarget, ih, set_divider_without hother, Bool.and_false, Bool.false_eq_true,
            if_false]
          rfl

/-- The panes of a split below its ancestors are panes of the layout. -/
theorem panes_subset_plug (as : List Ancestor) (node : LayoutNode) : node.panes ⊆ (plug as node).panes := by
  intro g hg
  rw [panes_plug]
  exact List.mem_append_left _ (List.mem_append_right _ hg)

/-- **Dragging a divider changes one split**: the ids of the two sides of a split,
in any order, set the divider of that split and of no other; ids that are not the
sides of a split set none. -/
theorem set_divider_exact {node : LayoutNode} (hnodup : node.allPanelIds.Nodup)
    (hpanes : ∀ g ∈ node.panes, g.tabs ≠ []) (firstIds secondIds : List Uuid) (position : Rat) :
    (∀ as orientation divider first second,
      node = plug as (splitNode orientation divider first second) →
      firstIds.Perm first.allPanelIds → secondIds.Perm second.allPanelIds →
      node.setDividerPositionForSplit firstIds secondIds position =
        (plug as (splitNode orientation (max 0 (min position 1)) first second), true)) ∧
    ((∀ as orientation divider first second,
      node = plug as (splitNode orientation divider first second) →
      ¬ (firstIds.Perm first.allPanelIds ∧ secondIds.Perm second.allPanelIds)) →
      node.setDividerPositionForSplit firstIds secondIds position = (node, false)) := by
  constructor
  · rintro as orientation divider first second rfl hfirstIds hsecondIds
    have hbelow : ∀ g ∈ (splitNode orientation divider first second).panes, g.tabs ≠ [] :=
      fun g hg => hpanes g (panes_subset_plug as _ hg)
    have hfirst := allPanelIds_ne_nil fun g hg => hbelow g (List.mem_append_left second.panes hg)
    have hsecond := allPanelIds_ne_nil fun g hg => hbelow g (List.mem_append_right first.panes hg)
    exact set_divider_plug hnodup hfirst hsecond hfirstIds hsecondIds
  · intro hnone
    apply set_divider_without
    rintro ⟨as, orientation, divider, first, second, hplug, hsides⟩
    exact hnone as orientation divider first second hplug hsides

/-- A pane beside a split of two panes. -/
def besideSplit (divider : Rat) : LayoutNode :=
  splitNode .horizontal (1 / 2) (paneNode [1] (some 1))
    (splitNode .vertical divider (paneNode [2, 3] (some 3)) (paneNode [4] (some 4)))

/-- The ids come in another order, and the position is beyond the end. -/
theorem set_divider_exact_beside :
    (besideSplit (1 / 2)).setDividerPositionForSplit [3, 2] [4] (3 / 2) =
      (besideSplit (max 0 (min (3 / 2) 1)), true) :=
  (set_divider_exact (by decide) (by decide) [3, 2] [4] (3 / 2)).1
    [⟨.horizontal, 1 / 2, false, paneNode [1] (some 1)⟩] .vertical (1 / 2)
    (paneNode [2, 3] (some 3)) (paneNode [4] (some 4)) rfl (by decide) (by decide)

end LayoutNode

end Jmux.Model
