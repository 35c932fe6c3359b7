/-
  Jmux.Model.GroupBlocks — the members of a group stand next to each other.

  The sidebar draws a group as one block.  `assign_to_group` moves the workspace
  behind the last member of its new group; `move_group_before` lifts all members
  out and puts them back in front of the target.

  Main results:
    * `groupsContiguous_assign_iff` — a workspace that leaves from strictly inside
      its block is not moved, and cuts the block in two, when nobody else is where
      it goes to.
    * `moveGroupBefore_stable` — a group moves as a block, the selection with it.
-/
import Jmux.Lib.Blocks
import Jmux.Model.Selection

namespace Jmux.Model

open Jmux.Lib

namespace TabManager

/-! ## §1. Blocks of the workspace list. -/

def isMember (groupId : Uuid) (ws : Workspace) : Bool := ws.groupId = some groupId

/-- The members of each group are one block. -/
def GroupsContiguous (tm : TabManager) : Prop :=
  ∀ g ∈ tm.groups, Contiguous (isMember g.id) tm.workspaces

theorem isMember_iff {groupId : Uuid} {ws : Workspace} :
    isMember groupId ws = true ↔ ws.groupId = some groupId := by
  simp [isMember]

theorem isMember_false_iff {groupId : Uuid} {ws : Workspace} :
    isMember groupId ws = false ↔ ws.groupId ≠ some groupId := by
  simp [isMember]

/-! ## §2. What an assignment does. -/

variable {tm : TabManager} {workspaceId : Uuid} {groupId : Option Uuid}
  {before after : List Workspace} {ws : Workspace}

/-- The assignment is carried out on `ws`, the first workspace with the id. -/
structure Accepts (tm : TabManager) (workspaceId : Uuid) (groupId : Option Uuid)
    (before : List Workspace) (ws : Workspace) (after : List Workspace) : Prop where
  around : tm.workspaces = before ++ ws :: after
  first  : ∀ x ∈ before, x.id ≠ workspaceId
  id     : ws.id = workspaceId
  group  : ∀ gid, groupId = some gid → (tm.group gid).isSome

/-- None of the workspaces is in the group that is assigned. -/
def NobodyIn (groupId : Option Uuid) (workspaces : List Workspace) : Prop :=
  ∀ gid, groupId = some gid → ∀ x ∈ workspaces, x.groupId ≠ some gid

theorem assignToGroup_groups (tm : TabManager) (workspaceId : Uuid) (groupId : Option Uuid) :
    (tm.assignToGroup workspaceId groupId).1.groups = tm.groups := by
  have hmove : ∀ (tm : TabManager) (fromIdx toIdx : Nat),
      (tm.moveWorkspace fromIdx toIdx).1.groups = tm.groups := by
    intro tm fromIdx toIdx
    unfold TabManager.moveWorkspace
    split
    · rfl
    · split <;> rfl
  unfold assignToGroup
  split
  · rfl
  · split
    · rfl
    · dsimp only
      split
      · rfl
      · split
        · rfl
        · exact hmove _ _ _

theorem assignToGroup_refused
    (h : ¬ ∃ before ws after, Accepts tm workspaceId groupId before ws after) :
    (tm.assignToGroup workspaceId groupId).1 = tm := by
  unfold assignToGroup
  split
  · rfl
  · next hgroup =>
      cases hi : tm.workspaceIndex workspaceId with
      | none => rfl
      | some i =>
          exfalso
          obtain ⟨hlt, hat, hfirst⟩ := List.findIdx?_eq_some_iff_getElem.mp hi
          refine h ⟨tm.workspaces.take i, tm.workspaces[i], tm.workspaces.drop (i + 1), ?_, ?_, ?_, ?_⟩
          · rw [← List.drop_eq_getElem_cons hlt, List.take_append_drop]
          · intro x hx
            obtain ⟨j, hj, rfl⟩ := List.mem_take_iff_getElem.mp hx
            simpa using hfirst j (by omega)
          · simpa using hat
          · intro gid hgid
            subst hgid
            simpa [Option.isSome_iff_ne_none] using hgroup

theorem Accepts.known (h : Accepts tm workspaceId groupId before ws after) :
    ¬ (groupId.any fun gid => (tm.group gid).isNone) = true := by
  cases groupId with
  | none => simp
  | some gid => simpa [Option.isSome_iff_ne_none] using h.group gid rfl

theorem Accepts.index (h : Accepts tm workspaceId groupId before ws after) :
    tm.workspaceIndex workspaceId = some before.length := by
  unfold workspaceIndex
  have hnone : before.findIdx? (·.id = workspaceId) = none := by
    rw [List.findIdx?_eq_none_iff]
    intro x hx
    simpa using h.first x hx
  rw [h.around, List.findIdx?_append, hnone, List.findIdx?_cons]
  simp [h.id]

theorem Accepts.edited (h : Accepts tm workspaceId groupId before ws after) :
    tm.workspaces.modify before.length (fun ws => { ws with groupId }) =
      before ++ { ws with groupId } :: after := by
  rw [h.around, List.modify_eq_take_cons_drop (by simp)]
  simp

/-- Alone in its group, or in none, the workspace stays where it is. -/
theorem Accepts.stays (h : Accepts tm workspaceId groupId before ws after)
    (hnobody : NobodyIn groupId (before ++ after)) :
    (tm.assignToGroup workspaceId groupId).1.workspaces =
      before ++ { ws with groupId } :: after := by
  unfold assignToGroup
  rw [if_neg h.known, h.index]
  dsimp only
  rw [h.edited]
  cases groupId with
  | none => rfl
  | some gid =>
      have hnone : ∀ x ∈ before ++ after, isMember gid x = false := by
        intro x hx
        exact isMember_false_iff.mpr (hnobody gid rfl x hx)
      have hlast := @getLast?_positions_other _ (isMember gid) before after
        { ws with groupId := some gid }
      rw [positions_of_none fun x hx => hnone x (List.mem_append_left after hx),
        positions_of_none fun x hx => hnone x (List.mem_append_right before hx)] at hlast
      unfold isMember at hlast
      dsimp only
      rw [hlast]
      rfl

/-- Otherwise it goes behind the last of the others. -/
theorem Accepts.joins {gid : Uuid} (h : Accepts tm workspaceId (some gid) before ws after)
    (hsome : ∃ x ∈ before ++ after, isMember gid x = true) :
    ∃ a m b, before ++ after = a ++ m :: b ∧ isMember gid m = true ∧
      (∀ z ∈ b, isMember gid z = false) ∧
      (tm.assignToGroup workspaceId (some gid)).1.workspaces =
        a ++ m :: { ws with groupId := some gid } :: b := by
  obtain ⟨a, m, b, last, hsplit, hm, hb, hlast, hmove⟩ :=
    moveOne_behind_last { ws with groupId := some gid } hsome
  refine ⟨a, m, b, hsplit, hm, hb, ?_⟩
  unfold isMember at hlast
  unfold assignToGroup
  rw [if_neg h.known, h.index]
  dsimp only
  rw [h.edited, hlast]
  exact (moveWorkspace_workspaces _ _ _).trans hmove

/-! ## §3. When the blocks stay whole. -/

/-- The workspace leaves its block from strictly inside, for no group or for one
that nobody else is in. -/
def CutsBlock (tm : TabManager) (workspaceId : Uuid) (groupId : Option Uuid) : Prop :=
  ∃ before ws after, Accepts tm workspaceId groupId before ws after ∧
    NobodyIn groupId (before ++ after) ∧
    ∃ old ∈ tm.groups, ws.groupId = some old.id ∧ groupId ≠ some old.id ∧
      (∃ x ∈ before, x.groupId = some old.id) ∧ ∃ x ∈ after, x.groupId = some old.id

theorem CutsBlock.not_contiguous (h : CutsBlock tm workspaceId groupId) :
    ¬ GroupsContiguous (tm.assignToGroup workspaceId groupId).1 := by
  obtain ⟨before, ws, after, hacc, hnobody, old, hold, _, hne, hbefore, hafter⟩ := h
  intro hcont
  have hblock := hcont old (by rw [assignToGroup_groups]; exact hold)
  rw [hacc.stays hnobody] at hblock
  -- what is left of the old block stands on both sides of the workspace
  have hin := hblock.between (by simpa [isMember_iff] using hbefore)
    (by simpa [isMember_iff] using hafter)
  exact hne (isMember_iff.mp hin)

theorem Accepts.others_contiguous (h : Accepts tm workspaceId groupId before ws after)
    (hcont : GroupsContiguous tm) {g : WorkspaceGroup} (hg : g ∈ tm.groups) :
    Contiguous (isMember g.id) (before ++ after) := by
  have hblock := hcont g hg
  rw [h.around] at hblock
  exact hblock.sublist ((List.Sublist.refl before).append (List.sublist_cons_self ws after))

theorem Accepts.stays_contiguous (h : Accepts tm workspaceId groupId before ws after)
    (hnobody : NobodyIn groupId (before ++ after)) (hcont : GroupsContiguous tm)
    (hcuts : ¬ CutsBlock tm workspaceId groupId) :
    GroupsContiguous (tm.assignToGroup workspaceId groupId).1 := by
  intro g hg
  rw [assignToGroup_groups] at hg
  rw [h.stays hnobody]
  by_cases hnew : groupId = some g.id
  · apply contiguous_insert_first
    · exact isMember_iff.mpr hnew
    · intro y hy
      exact isMember_false_iff.mpr (hnobody g.id hnew y hy)
  · have hout : isMember g.id { ws with groupId } = false := isMember_false_iff.mpr hnew
    rw [contiguous_insert_iff hout]
    refine ⟨h.others_contiguous hcont hg, ?_⟩
    intro hinside
    have hblock := hcont g hg
    rw [h.around] at hblock
    -- strictly inside a block it was one of the members
    have hold := isMember_iff.mp (hblock.between hinside.1 hinside.2)
    simp only [isMember_iff] at hinside
    exact hcuts ⟨before, ws, after, h, hnobody, g, hg, hold, hnew, hinside.1, hinside.2⟩

theorem Accepts.joins_contiguous {gid : Uuid} (h : Accepts tm workspaceId (some gid) before ws after)
    (hsome : ∃ x ∈ before ++ after, isMember gid x = true) (hcont : GroupsContiguous tm) :
    GroupsContiguous (tm.assignToGroup workspaceId (some gid)).1 := by
  obtain ⟨a, m, b, hsplit, hm, hb, hjoined⟩ := h.joins hsome
  intro g hg
  rw [assignToGroup_groups] at hg
  have hothers := h.others_contiguous hcont hg
  rw [hsplit] at hothers
  rw [hjoined]
  by_cases hnew : gid = g.id
  · subst hnew
    exact hothers.insert_behind_last hm (isMember_iff.mpr rfl) hb
  · have hout : isMember g.id { ws with groupId := some gid } = false :=
      isMember_false_iff.mpr fun heq => hnew (Option.some.inj heq)
    have hmout : isMember g.id m = false := by
      rw [isMember_false_iff, isMember_iff.mp hm]
      exact fun heq => hnew (Option.some.inj heq)
    rw [List.append_cons, contiguous_insert_iff hout, ← List.append_cons]
    refine ⟨hothers, ?_⟩
    -- the member that it stands behind would be inside the other block too
    intro hinside
    obtain ⟨⟨y, hy, hyg⟩, hz⟩ := hinside
    have hya : y ∈ a := by
      rcases List.mem_append.mp hy with hy | hy
      · exact hy
      · rw [List.mem_singleton.mp hy, hmout] at hyg
        exact absurd hyg (by simp)
    have hin := hothers.between ⟨y, hya, hyg⟩ hz
    rw [hmout] at hin
    exact absurd hin (by simp)

/-- **Groups stay blocks.**  From a state in which every group is one block, an
assignment leaves every group one block exactly when the workspace does not
leave from strictly inside its block for a place that nobody else is at. -/
theorem groupsContiguous_assign_iff (hcont : GroupsContiguous tm) (workspaceId : Uuid)
    (groupId : Option Uuid) :
    GroupsContiguous (tm.assignToGroup workspaceId groupId).1 ↔
      ¬ CutsBlock tm workspaceId groupId := by
  constructor
  · intro h hcuts
    exact hcuts.not_contiguous h
  · intro hcuts
    by_cases hacc : ∃ before ws after, Accepts tm workspaceId groupId before ws after
    · obtain ⟨before, ws, after, hacc⟩ := hacc
      by_cases hnobody : NobodyIn groupId (before ++ after)
      · exact hacc.stays_contiguous hnobody hcont hcuts
      · unfold NobodyIn at hnobody
        push Not at hnobody
        obtain ⟨gid, rfl, x, hx, hin⟩ := hnobody
        exact hacc.joins_contiguous ⟨x, hx, isMember_iff.mpr hin⟩ hcont
    · rw [assignToGroup_refused hacc]
      exact hcont

/-- A workspace in the group 7. -/
def memberTab (id panelId : Uuid) : Workspace :=
  { Workspace.new id panelId "/home" with groupId := some 7 }

def oneGroup : TabManager where
  workspaces    := [memberTab 1 11, memberTab 2 12, memberTab 3 13]
  selectedIndex := some 0
  groups        := [{ id := 7, name := "work" }]

theorem oneGroup_contiguous : GroupsContiguous oneGroup := by
  intro g hg
  rw [List.mem_singleton.mp hg]
  exact ⟨[], oneGroup.workspaces, [], by simp, by simp, by decide, by simp⟩

theorem groupsContiguous_assign_iff_oneGroup :
    GroupsContiguous (oneGroup.assignToGroup 3 none).1 ↔ ¬ CutsBlock oneGroup 3 none :=
  groupsContiguous_assign_iff oneGroup_contiguous 3 none

/-- The second of three members leaves the group: the block falls apart. -/
theorem not_groupsContiguous_assign :
    ¬ ∀ (tm : TabManager) (workspaceId : Uuid) (groupId : Option Uuid), GroupsContiguous tm →
      GroupsContiguous (tm.assignToGroup workspaceId groupId).1 := by
  intro h
  have hcuts : CutsBlock oneGroup 2 none := by
    refine ⟨[memberTab 1 11], memberTab 2 12, [memberTab 3 13], ⟨rfl, ?_, rfl, ?_⟩, ?_, ?_⟩
    · decide
    · intro gid hgid
      cases hgid
    · intro gid hgid
      cases hgid
    · exact ⟨{ id := 7, name := "work" }, List.mem_singleton.mpr rfl, rfl, by simp,
        ⟨_, List.mem_singleton.mpr rfl, rfl⟩, ⟨_, List.mem_singleton.mpr rfl, rfl⟩⟩
  exact hcuts.not_contiguous (h oneGroup 2 none oneGroup_contiguous)

/-! ## §4. A group moves as a block. -/

/-- What a move of the group before a workspace, or to the end, amounts to. -/
structure GroupMoved (groupId : Uuid) (targetWsId : Option Uuid) (tm tm' : TabManager) : Prop where
  block      : BlockMoved (isMember groupId) tm.workspaces tm'.workspaces
  /-- the members stand right before a target outside the group -/
  placed     : (tm.group groupId).isSome → ∀ before target after,
    tm.workspaces.filter (!isMember groupId ·) = before ++ target :: after →
    targetWsId = some target.id → (∀ x ∈ before, x.id ≠ target.id) →
      tm'.workspaces = before ++ tm.workspaces.filter (isMember groupId) ++ target :: after
  /-- without such a target they stand at the end -/
  atEnd      : (tm.group groupId).isSome →
    (∀ ws ∈ tm.workspaces, targetWsId = some ws.id → isMember groupId ws = true) →
      tm'.workspaces = tm.workspaces.filter (!isMember groupId ·) ++
        tm.workspaces.filter (isMember groupId)
  selectedId : tm'.selectedId = tm.selectedId
  selected   : tm.WorkspaceIds → tm'.selected = tm.selected

/-- Where the block goes among the workspaces outside the group. -/
def insertPlace (others : List Workspace) (targetWsId : Option Uuid) : Nat :=
  (targetWsId.bind fun tid => others.findIdx? (·.id = tid)).getD others.length

theorem insertPlace_le (others : List Workspace) (targetWsId : Option Uuid) :
    insertPlace others targetWsId ≤ others.length :=
  TabManager.placeBefore_le others targetWsId

theorem insertPlace_target {target : Workspace} (hfirst : ∀ x ∈ before, x.id ≠ target.id) :
    insertPlace (before ++ target :: after) (some target.id) = before.length := by
  unfold insertPlace
  have hnone : before.findIdx? (·.id = target.id) = none := by
    rw [List.findIdx?_eq_none_iff]
    intro x hx
    simpa using hfirst x hx
  show (List.findIdx? (fun ws => decide (ws.id = target.id)) (before ++ target :: after)).getD _ = _
  rw [List.findIdx?_append, hnone, List.findIdx?_cons]
  simp

theorem insertPlace_end {others : List Workspace} {targetWsId : Option Uuid}
    (h : ∀ ws ∈ others, targetWsId ≠ some ws.id) :
    insertPlace others targetWsId = others.length := by
  unfold insertPlace
  cases targetWsId with
  | none => rfl
  | some tid =>
      have hnone : others.findIdx? (·.id = tid) = none := by
        rw [List.findIdx?_eq_none_iff]
        intro ws hws
        have := h ws hws
        simp only [decide_eq_false_iff_not]
        intro hid
        exact this (congrArg some hid.symm)
      show (Option.getD (others.findIdx? _) _) = _
      rw [hnone]
      rfl

theorem moveGroupBefore_unknown {gid : Uuid} (h : ¬ (tm.group gid).isSome)
    (targetWsId : Option Uuid) : (tm.moveGroupBefore gid targetWsId).1 = tm := by
  unfold moveGroupBefore
  rw [if_pos (by simpa using h)]

/-- The members are spliced into the others; a group without members moves nothing. -/
theorem moveGroupBefore_workspaces {gid : Uuid} (h : (tm.group gid).isSome)
    (targetWsId : Option Uuid) :
    (tm.moveGroupBefore gid targetWsId).1.workspaces =
      let others := tm.workspaces.filter (!isMember gid ·)
      others.take (insertPlace others targetWsId) ++ tm.workspaces.filter (isMember gid) ++
        others.drop (insertPlace others targetWsId) := by
  have hle := insertPlace_le (tm.workspaces.filter (!isMember gid ·)) targetWsId
  have hpart : tm.workspaces.partition (·.groupId = some gid) =
      (tm.workspaces.filter (isMember gid), tm.workspaces.filter (!isMember gid ·)) :=
    List.partition_eq_filter_filter
  unfold moveGroupBefore
  rw [if_neg (by simpa [Option.isSome_iff_ne_none] using h), hpart]
  dsimp only
  split
  · next hnone =>
      rw [List.isEmpty_iff] at hnone
      have hall : tm.workspaces.filter (!isMember gid ·) = tm.workspaces := by
        rw [List.filter_eq_self]
        intro ws hws
        simpa using List.filter_eq_nil_iff.mp hnone ws hws
      rw [hnone, List.append_nil, List.take_append_drop, hall]
  · exact insertAll_eq hle _

theorem moveGroupBefore_blockMoved (tm : TabManager) (gid : Uuid) (targetWsId : Option Uuid) :
    BlockMoved (isMember gid) tm.workspaces (tm.moveGroupBefore gid targetWsId).1.workspaces := by
  by_cases h : (tm.group gid).isSome
  · rw [moveGroupBefore_workspaces h]
    exact blockMoved_resplice (List.take_append_drop _ _).symm
  · rw [moveGroupBefore_unknown h]
    exact BlockMoved.refl _ _

/-- The selection is found again by its id. -/
theorem moveGroupBefore_selectedId (tm : TabManager) (gid : Uuid) (targetWsId : Option Uuid) :
    (tm.moveGroupBefore gid targetWsId).1.selectedId = tm.selectedId := by
  have hperm := (moveGroupBefore_blockMoved tm gid targetWsId).perm
  revert hperm
  unfold moveGroupBefore
  split
  · intro _
    rfl
  · dsimp only
    split
    · intro _
      rfl
    · intro hperm
      rw [selectedId_eq]
      dsimp only at hperm ⊢
      cases hsid : tm.selectedId with
      | some sid =>
          have hmem : sid ∈ tm.workspaces.map (·.id) := keyAt_mem hsid
          exact keyAt_findIdx? ((hperm.map _).mem_iff.mpr hmem)
      | none =>
          -- nothing was selected, or an index out of range, which it still is
          rw [selectedId_eq] at hsid
          cases hidx : tm.selectedIndex with
          | none => rfl
          | some i =>
              rw [hidx, keyAt_some] at hsid
              rw [keyAt_some]
              simp only [Option.map_eq_none_iff, List.getElem?_eq_none_iff] at hsid ⊢
              rw [hperm.length_eq]
              exact hsid

theorem selected_eq_of_selectedId {tm' : TabManager} (hids : tm.WorkspaceIds)
    (hperm : tm'.workspaces.Perm tm.workspaces) (h : tm'.selectedId = tm.selectedId) :
    tm'.selected = tm.selected := by
  have hmem : ∀ {tm : TabManager} {ws : Workspace}, tm.selected = some ws → ws ∈ tm.workspaces := by
    intro tm ws hws
    obtain ⟨i, _, hi⟩ := Option.bind_eq_some_iff.mp hws
    exact List.mem_of_getElem? hi
  unfold selectedId at h
  cases hsel : tm.selected with
  | none =>
      rw [hsel] at h
      simpa using h
  | some ws =>
      rw [hsel] at h
      obtain ⟨ws', hsel', hid⟩ := Option.map_eq_some_iff.mp h
      have hin : ws' ∈ tm.workspaces := hperm.mem_iff.mp (hmem hsel')
      rw [hsel', List.inj_on_of_nodup_map hids hin (hmem hsel) hid]

/-- **A group moves as a block.** -/
theorem moveGroupBefore_stable (tm : TabManager) (groupId : Uuid) (targetWsId : Option Uuid) :
    GroupMoved groupId targetWsId tm (tm.moveGroupBefore groupId targetWsId).1 where
  block := moveGroupBefore_blockMoved tm groupId targetWsId
  placed := by
    intro hknown before target after hothers htarget hfirst
    rw [moveGroupBefore_workspaces hknown, hothers, htarget]
    dsimp only
    rw [insertPlace_target hfirst]
    simp
  atEnd := by
    intro hknown hin
    rw [moveGroupBefore_workspaces hknown]
    dsimp only
    rw [insertPlace_end, List.take_length, List.drop_length, List.append_nil]
    intro ws hws htarget
    obtain ⟨hmem, hout⟩ := List.mem_filter.mp hws
    simp [hin ws hmem htarget] at hout
  selectedId := moveGroupBefore_selectedId tm groupId targetWsId
  selected := by
    intro hids
    exact selected_eq_of_selectedId hids (moveGroupBefore_blockMoved tm groupId targetWsId).perm
      (moveGroupBefore_selectedId tm groupId targetWsId)

end TabManager

end Jmux.Model
