/-
  Jmux.Model.Selection — the selected workspace is followed by identity.

  The selection of a `TabManager` is an index into the workspaces.  Each
  operation below reorders, filters or splices that list and adjusts the index
  in its own way.

  Main result: `selection_by_identity` — from a sound selection every operation
  leaves a sound selection, on the workspace that was selected if it is still
  there, except in the states that `Misses` names.
-/
import Jmux.Lib.MoveOne
import Jmux.Model.TabManager

namespace Jmux.Model

open Jmux.Lib

/-! ## §1. The operations and the law. -/

inductive ListOp
  | remove (index : Nat)
  | removeById (id : Uuid)
  | closePanel (panelId : Uuid)
  | closeOthers (keepId : Uuid)
  | closeAbove (workspaceId : Uuid)
  | closeBelow (workspaceId : Uuid)
  | moveWorkspace (fromIdx toIdx : Nat)
  | moveGroupBefore (groupId : Uuid) (targetWsId : Option Uuid)
  | assignToGroup (workspaceId : Uuid) (groupId : Option Uuid)
  | addWorkspaceKeepSelection (workspace : Workspace) (placement : NewWorkspacePlacement)

def ListOp.apply (now : Nat) (tm : TabManager) : ListOp → TabManager
  | .remove index => ((tm.remove now index).map (·.2)).getD tm
  | .removeById id => ((tm.removeById now id).map (·.2)).getD tm
  | .closePanel panelId => (tm.closePanel now panelId).1
  | .closeOthers keepId => (tm.closeOthers keepId).1
  | .closeAbove workspaceId => (tm.closeAbove workspaceId).1
  | .closeBelow workspaceId => (tm.closeBelow workspaceId).1
  | .moveWorkspace fromIdx toIdx => (tm.moveWorkspace fromIdx toIdx).1
  | .moveGroupBefore groupId targetWsId => (tm.moveGroupBefore groupId targetWsId).1
  | .assignToGroup workspaceId groupId => (tm.assignToGroup workspaceId groupId).1
  | .addWorkspaceKeepSelection workspace placement =>
      tm.addWorkspaceKeepSelection workspace placement

/-- The workspace the operation was called for, where it may select that one instead. -/
def ListOp.mayTakeOver : ListOp → Option Uuid
  | .closeOthers keepId => some keepId
  | .closeAbove workspaceId => some workspaceId
  | _ => none

namespace TabManager

/-- No selection exactly when there are no workspaces, and otherwise in range. -/
def SelectionOn (tm : TabManager) : Prop := CursorOn tm.workspaces tm.selectedIndex

/-- The workspace selected before the operation is selected after it, if it still exists. -/
def Followed (op : ListOp) (tm tm' : TabManager) : Prop :=
  ∀ id, tm.selectedId = some id → (∃ ws ∈ tm'.workspaces, ws.id = id) →
    tm'.selectedId = some id ∨ (op.mayTakeOver.isSome ∧ tm'.selectedId = op.mayTakeOver)

def beforeSelected (tm : TabManager) : List Workspace :=
  tm.selectedIndex.elim [] (tm.workspaces.take ·)

def afterSelected (tm : TabManager) : List Workspace :=
  tm.selectedIndex.elim [] fun sel => tm.workspaces.drop (sel + 1)

/-- Where the index adjustment goes wrong: nothing selects the first workspace
that is added; `close_others` for an id that is gone selects the first pinned
workspace; `close_below` does not count the workspaces it removes above the
selected one. -/
def Misses (tm : TabManager) : ListOp → Prop
  | .closeOthers keepId =>
      tm.workspaceIndex keepId = none ∧ tm.selected.any (·.isPinned) ∧
        tm.beforeSelected.any (·.isPinned)
  | .closeBelow workspaceId =>
      tm.selected.any (·.isPinned) ∧
        (∃ targetIdx, tm.workspaceIndex workspaceId = some targetIdx ∧
          (tm.beforeSelected.drop (targetIdx + 1)).any (¬ ·.isPinned)) ∧
        tm.afterSelected.any (·.isPinned)
  | .addWorkspaceKeepSelection _ _ => tm.workspaces = []
  | _ => False

/-! ## §2. Operations that follow the selected workspace. -/

/-- The ids of the workspaces are distinct. -/
def WorkspaceIds (tm : TabManager) : Prop := (tm.workspaces.map (·.id)).Nodup

/-- The cursor of `tm'` is sound and follows that of `tm`. -/
structure Kept (tm tm' : TabManager) : Prop where
  on     : tm'.SelectionOn
  tracks : Tracks (·.id) tm.workspaces tm.selectedIndex tm'.workspaces tm'.selectedIndex

theorem selectedId_eq (tm : TabManager) :
    tm.selectedId = keyAt (·.id) tm.workspaces tm.selectedIndex := rfl

theorem Kept.followed {tm tm' : TabManager} (h : Kept tm tm') (op : ListOp) :
    Followed op tm tm' := by
  intro id hid hmem
  exact .inl (h.tracks id hid (List.mem_map.mpr hmem))

theorem Kept.refl {tm : TabManager} (h : tm.SelectionOn) : Kept tm tm where
  on     := h
  tracks := fun _ hk _ => hk

theorem selectionOn_none {tm : TabManager} (h : tm.SelectionOn) (hsel : tm.selectedIndex = none) :
    tm.workspaces = [] := by
  unfold SelectionOn at h
  rw [hsel] at h
  exact h

theorem selectionOn_some {tm : TabManager} (h : tm.SelectionOn) {sel : Nat}
    (hsel : tm.selectedIndex = some sel) : sel < tm.workspaces.length := by
  unfold SelectionOn at h
  rw [hsel] at h
  exact h

/-- Workspaces edited in place, with their ids. -/
structure Edited (tm tm' : TabManager) : Prop where
  ids   : tm'.workspaces.map (·.id) = tm.workspaces.map (·.id)
  index : tm'.selectedIndex = tm.selectedIndex

theorem Edited.selectedId {tm tm' : TabManager} (h : Edited tm tm') :
    tm'.selectedId = tm.selectedId := by
  have hkey : ∀ tm : TabManager,
      tm.selectedId = tm.selectedIndex.bind fun i => (tm.workspaces.map (·.id))[i]? := by
    intro tm
    unfold TabManager.selectedId TabManager.selected
    cases tm.selectedIndex <;> simp
  rw [hkey, hkey, h.ids, h.index]

theorem Edited.selectionOn {tm tm' : TabManager} (h : Edited tm tm') (hon : tm.SelectionOn) :
    tm'.SelectionOn := by
  have hlen : tm'.workspaces.length = tm.workspaces.length := by
    simpa using congrArg List.length h.ids
  unfold SelectionOn at hon ⊢
  rw [h.index]
  cases hsel : tm.selectedIndex with
  | none =>
      rw [hsel] at hon
      have hnil : tm.workspaces = [] := hon
      exact List.eq_nil_of_length_eq_zero (by rw [hlen, hnil]; rfl)
  | some sel =>
      rw [hsel] at hon
      show sel < tm'.workspaces.length
      rw [hlen]
      exact hon

theorem Edited.kept {tm tm' tm'' : TabManager} (h : Edited tm tm') (hk : Kept tm' tm'') :
    Kept tm tm'' where
  on     := hk.on
  tracks := by
    intro k hkey hmem
    exact hk.tracks k (h.selectedId.trans hkey) hmem

theorem Edited.workspaceIds {tm tm' : TabManager} (h : Edited tm tm') (hids : tm.WorkspaceIds) :
    tm'.WorkspaceIds := by
  unfold WorkspaceIds
  rw [h.ids]
  exact hids

variable {tm : TabManager}

theorem selectionAfterRemove_kept (hon : tm.SelectionOn) {index : Nat}
    (hi : index < tm.workspaces.length) :
    CursorOn (tm.workspaces.eraseIdx index)
      (selectionAfterRemove tm.selectedIndex index (tm.workspaces.eraseIdx index).length) := by
  unfold selectionAfterRemove
  split
  · rename_i h0
    exact List.eq_nil_of_length_eq_zero h0
  · rename_i h0
    cases hsel : tm.selectedIndex with
    | none =>
        rw [selectionOn_none hon hsel] at hi
        cases hi
    | some sel =>
        show (if sel ≥ _ then _ else _) < (tm.workspaces.eraseIdx index).length
        split
        · omega
        · split <;> omega

theorem remove_kept (hon : tm.SelectionOn) (hids : tm.WorkspaceIds) (now index : Nat) :
    Kept tm (((tm.remove now index).map (·.2)).getD tm) := by
  unfold TabManager.remove
  cases hws : tm.workspaces[index]? with
  | none => exact Kept.refl hon
  | some ws =>
      have hi : index < tm.workspaces.length := (List.getElem?_eq_some_iff.mp hws).1
      refine ⟨selectionAfterRemove_kept hon hi, ?_⟩
      show Tracks _ _ tm.selectedIndex (tm.workspaces.eraseIdx index)
        (selectionAfterRemove tm.selectedIndex index (tm.workspaces.eraseIdx index).length)
      cases hsel : tm.selectedIndex with
      | none => exact tracks_none
      | some sel =>
          have hs := selectionOn_some hon hsel
          have hlen := List.length_eraseIdx_of_lt hi
          unfold selectionAfterRemove
          split
          · rename_i h0
            -- the only workspace is the one that goes
            have : sel = index := by omega
            subst this
            exact tracks_of_gone fun x hx => notMem_eraseIdx hids hx
          · apply tracks_eraseIdx hids
            intro hne
            -- the clamp and the shift agree where both apply
            show (if sel ≥ _ then _ else if sel > index then sel - 1 else sel) = _
            split
            · rw [if_pos (by omega)]
              omega
            · rfl

theorem removeById_kept (hon : tm.SelectionOn) (hids : tm.WorkspaceIds) (now : Nat) (id : Uuid) :
    Kept tm (((tm.removeById now id).map (·.2)).getD tm) := by
  unfold TabManager.removeById
  cases tm.workspaces.findIdx? (·.id = id) with
  | none => exact Kept.refl hon
  | some index => exact remove_kept hon hids now index

theorem removePanel_id (ws : Workspace) (panelId : Uuid) : (ws.removePanel panelId).1.id = ws.id := by
  unfold Workspace.removePanel
  split <;> rfl

theorem closePanel_kept (hon : tm.SelectionOn) (hids : tm.WorkspaceIds) (now : Nat)
    (panelId : Uuid) : Kept tm (tm.closePanel now panelId).1 := by
  unfold TabManager.closePanel
  cases hf : tm.findWorkspaceWithPanel panelId with
  | none => exact Kept.refl hon
  | some ws =>
      -- first the panel goes, then perhaps its workspace
      have hedit : Edited tm { tm with
          workspaces := tm.workspaces.modifyFirst (panelId ∈ ·.panels)
            fun _ => (ws.removePanel panelId).1 } := by
        refine ⟨?_, rfl⟩
        obtain ⟨hp, as, bs, hws, has⟩ := List.find?_eq_some_iff_append.mp hf
        show (tm.workspaces.modifyFirst _ _).map (·.id) = _
        -- the first workspace that has the panel is the one that was found
        rw [hws, List.modifyFirst_append_cons (p := fun ws : Workspace => decide (panelId ∈ ws.panels))
          (by simpa using has) hp]
        simp [removePanel_id]
      have hon' := hedit.selectionOn hon
      dsimp only
      split
      · exact hedit.kept (removeById_kept hon' (hedit.workspaceIds hids) now _)
      · exact hedit.kept (Kept.refl hon')

theorem moveWorkspace_kept (hon : tm.SelectionOn) (fromIdx toIdx : Nat) :
    Kept tm (tm.moveWorkspace fromIdx toIdx).1 := by
  unfold TabManager.moveWorkspace
  cases hws : tm.workspaces[fromIdx]? with
  | none => exact Kept.refl hon
  | some ws =>
      have hfrom : fromIdx < tm.workspaces.length := (List.getElem?_eq_some_iff.mp hws).1
      dsimp only
      split
      · exact Kept.refl hon
      · rename_i hmove
        have hto : toIdx < tm.workspaces.length := by omega
        have hlen : ((tm.workspaces.eraseIdx fromIdx).insertIdx toIdx ws).length =
            tm.workspaces.length := by
          have := List.length_eraseIdx_of_lt hfrom
          rw [List.length_insertIdx, if_pos (by omega)]
          omega
        constructor
        · show CursorOn _ (tm.selectedIndex.map _)
          cases hsel : tm.selectedIndex with
          | none =>
              rw [selectionOn_none hon hsel] at hfrom
              cases hfrom
          | some sel =>
              show movedIndex fromIdx toIdx sel < List.length _
              rw [hlen]
              exact movedIndex_lt hto hfrom (selectionOn_some hon hsel)
        · show Tracks _ _ tm.selectedIndex _ (tm.selectedIndex.map _)
          cases tm.selectedIndex with
          | none => exact tracks_none
          | some sel => exact tracks_move hws hto

theorem moveWorkspace_workspaces (tm : TabManager) (fromIdx toIdx : Nat) :
    (tm.moveWorkspace fromIdx toIdx).1.workspaces = moveOne tm.workspaces fromIdx toIdx := by
  unfold TabManager.moveWorkspace moveOne
  cases tm.workspaces[fromIdx]? with
  | none => rfl
  | some ws =>
      dsimp only
      split
      · rfl
      · rfl

theorem assignToGroup_kept (hon : tm.SelectionOn) (workspaceId : Uuid) (groupId : Option Uuid) :
    Kept tm (tm.assignToGroup workspaceId groupId).1 := by
  unfold TabManager.assignToGroup
  split
  · exact Kept.refl hon
  · cases tm.workspaceIndex workspaceId with
    | none => exact Kept.refl hon
    | some idx =>
        have hedit : Edited tm { tm with
            workspaces := tm.workspaces.modify idx fun ws => { ws with groupId } } := by
          refine ⟨?_, rfl⟩
          apply List.ext_getElem?
          intro i
          simp only [List.getElem?_map, List.getElem?_modify]
          cases tm.workspaces[i]? <;> simp
          split <;> rfl
        have hon' := hedit.selectionOn hon
        dsimp only
        cases groupId with
        | none => exact hedit.kept (Kept.refl hon')
        | some gid =>
            dsimp only
            split
            · exact hedit.kept (Kept.refl hon')
            · exact hedit.kept (moveWorkspace_kept hon' _ _)

/-- A selection that is restored by id. -/
theorem kept_of_restored {workspaces : List Workspace} {sel : Nat}
    (hon : tm.SelectionOn) (hsel : tm.selectedIndex = some sel)
    (hperm : workspaces.Perm tm.workspaces) {tm' : TabManager} (hws : tm'.workspaces = workspaces)
    (hidx : ∀ sid, tm.selectedId = some sid →
      tm'.selectedIndex = workspaces.findIdx? (·.id = sid)) : Kept tm tm' := by
  have hs := selectionOn_some hon hsel
  have hid : tm.selectedId = some tm.workspaces[sel].id := by
    rw [selectedId_eq, hsel, keyAt_some, List.getElem?_eq_getElem hs]
    rfl
  have hmem : tm.workspaces[sel].id ∈ workspaces.map (·.id) :=
    List.mem_map_of_mem (hperm.mem_iff.mpr (List.getElem_mem hs))
  obtain ⟨i, hi, hcursor, hat⟩ := exists_findIdx? hmem
  -- the selected workspace is found again by its id
  have hindex : tm'.selectedIndex = some i := (hidx _ hid).trans hi
  constructor
  · show CursorOn tm'.workspaces tm'.selectedIndex
    rw [hws, hindex]
    exact hcursor
  · intro k hk _
    have hkid : tm.selectedId = some k := hk
    rw [hid] at hkid
    obtain rfl := Option.some.inj hkid
    rw [hws, hindex]
    exact hat

/-- The place before a workspace that is there, or else the end. -/
theorem placeBefore_le (others : List Workspace) (targetWsId : Option Uuid) :
    (targetWsId.bind fun tid => others.findIdx? (·.id = tid)).getD others.length ≤
      others.length := by
  cases targetWsId with
  | none => exact Nat.le_refl _
  | some tid =>
      show (Option.getD (others.findIdx? _) _) ≤ _
      cases hi : others.findIdx? (·.id = tid) with
      | none => exact Nat.le_refl _
      | some i => exact Nat.le_of_lt (cursorOn_of_findIdx? hi)

theorem moveGroupBefore_kept (hon : tm.SelectionOn) (groupId : Uuid) (targetWsId : Option Uuid) :
    Kept tm (tm.moveGroupBefore groupId targetWsId).1 := by
  unfold TabManager.moveGroupBefore
  split
  · exact Kept.refl hon
  · rw [List.partition_eq_filter_filter]
    dsimp only
    split
    · exact Kept.refl hon
    · rename_i hmembers
      cases hsel : tm.selectedIndex with
      | none =>
          rw [selectionOn_none hon hsel] at hmembers
          exact absurd rfl hmembers
      | some sel =>
          -- the members go in as a block, wherever the target leaves them
          generalize hat : ((targetWsId.bind fun tid => List.findIdx? _ _).getD _) = insertAt
          have hle : insertAt ≤
              (tm.workspaces.filter (not ∘ fun ws => decide (ws.groupId = some groupId))).length := by
            rw [← hat]
            exact placeBefore_le _ targetWsId
          refine kept_of_restored hon hsel ?_ rfl ?_
          · rw [insertAll_eq hle]
            refine List.Perm.trans ?_ (List.filter_append_perm
              (fun ws => decide (ws.groupId = some groupId)) tm.workspaces)
            rw [List.append_assoc]
            refine (List.perm_append_comm_assoc _ _ _).trans ?_
            rw [List.take_append_drop]
            exact List.Perm.refl _
          · intro sid hsid
            dsimp only
            rw [hsid]

/-- Inserting, with the selection shifted when it is at or above the place. -/
theorem insertAt_kept {sel insertAt : Nat} (hsel : tm.selectedIndex = some sel)
    (hs : sel < tm.workspaces.length) (hle : insertAt ≤ tm.workspaces.length)
    (workspace : Workspace) :
    Kept tm { tm with
      workspaces    := tm.workspaces.insertIdx insertAt workspace
      selectedIndex := tm.selectedIndex.map fun sel =>
        if insertAt ≤ sel then sel + 1 else sel } := by
  constructor
  · show CursorOn (tm.workspaces.insertIdx insertAt workspace) (tm.selectedIndex.map _)
    rw [hsel]
    show (if insertAt ≤ sel then sel + 1 else sel) < List.length _
    rw [List.length_insertIdx, if_pos hle]
    split <;> omega
  · show Tracks _ _ tm.selectedIndex (tm.workspaces.insertIdx insertAt workspace)
      (tm.selectedIndex.map _)
    rw [hsel]
    exact tracks_insertIdx workspace

/-- Nothing selects the first workspace that is added. -/
theorem addWorkspaceKeepSelection_iff (hon : tm.SelectionOn) (workspace : Workspace)
    (placement : NewWorkspacePlacement) (op : ListOp) :
    ((tm.addWorkspaceKeepSelection workspace placement).SelectionOn ∧
        Followed op tm (tm.addWorkspaceKeepSelection workspace placement)) ↔
      tm.workspaces ≠ [] := by
  cases hsel : tm.selectedIndex with
  | none =>
      have hnil := selectionOn_none hon hsel
      apply iff_of_false
      · rintro ⟨hon', _⟩
        have hlen := congrArg List.length (selectionOn_none hon' (by
          show tm.selectedIndex.map _ = none
          rw [hsel]
          rfl))
        cases placement <;> simp [addWorkspaceKeepSelection, hnil, hsel] at hlen
      · exact fun hne => hne hnil
  | some sel =>
      have hs := selectionOn_some hon hsel
      have hk : Kept tm (tm.addWorkspaceKeepSelection workspace placement) := by
        cases placement with
        | atEnd => exact insertAt_kept hsel hs (Nat.le_refl _) workspace
        | top => exact insertAt_kept hsel hs (Nat.zero_le _) workspace
        | afterCurrent =>
            refine insertAt_kept hsel hs ?_ workspace
            rw [hsel]
            exact hs
      refine iff_of_true ⟨hk.on, hk.followed op⟩ ?_
      intro hnil
      rw [hnil] at hs
      cases hs

/-! ## §3. Closing several at once. -/

/-- The workspaces around the selected one. -/
theorem around_selected (hon : tm.SelectionOn) {sel : Nat} (hsel : tm.selectedIndex = some sel) :
    ∃ above ws below, tm.workspaces = above ++ ws :: below ∧ above.length = sel ∧
      tm.selected = some ws ∧ tm.beforeSelected = above ∧ tm.afterSelected = below := by
  have hs := selectionOn_some hon hsel
  refine ⟨tm.workspaces.take sel, tm.workspaces[sel], tm.workspaces.drop (sel + 1), ?_, ?_, ?_,
    ?_, ?_⟩
  · rw [← List.drop_eq_getElem_cons hs, List.take_append_drop]
  · rw [List.length_take]
    omega
  · unfold TabManager.selected
    rw [hsel]
    exact List.getElem?_eq_getElem hs
  · unfold beforeSelected
    rw [hsel]
    rfl
  · unfold afterSelected
    rw [hsel]
    rfl

/-- A workspace that the filter drops cannot be missed. -/
theorem followed_of_gone (op : ListOp) {tm' : TabManager} {x : Workspace}
    (hsel : tm.selectedId = some x.id) (hgone : x.id ∉ tm'.workspaces.map (·.id)) :
    Followed op tm tm' := by
  intro id hid hmem
  obtain rfl : x.id = id := Option.some.inj (hsel.symm.trans hid)
  exact absurd (List.mem_map.mpr hmem) hgone

/-- The pinned workspaces of the second part are left, and the index is `q`:
right exactly when it counts what is left above the selected workspace. -/
theorem followed_filter_iff (op : ListOp) {tm' : TabManager} {q : Nat}
    (before : List Workspace) {l after : List Workspace} {x : Workspace} (hids : tm.WorkspaceIds)
    (hsel : tm.selectedId = some x.id)
    (hws : tm.workspaces = before ++ (l ++ x :: after))
    (hws' : tm'.workspaces = before ++ (l ++ x :: after).filter (·.isPinned))
    (hq : tm'.selectedIndex = some q)
    (hover : ¬ (op.mayTakeOver.isSome ∧ tm'.selectedId = op.mayTakeOver)) :
    Followed op tm tm' ↔ (x.isPinned → q = before.length + l.countP (·.isPinned)) := by
  have hnd : ((before ++ (l ++ x :: after)).map (·.id)).Nodup := hws ▸ hids
  have hid' : tm'.selectedId =
      keyAt (·.id) (before ++ (l ++ x :: after).filter (·.isPinned)) (some q) := by
    rw [selectedId_eq, hws', hq]
  constructor
  · intro hf hpin
    have hmem : ∃ ws ∈ tm'.workspaces, ws.id = x.id := by
      refine ⟨x, ?_, rfl⟩
      rw [hws']
      exact List.mem_append_right _ (List.mem_filter.mpr ⟨by simp, hpin⟩)
    rcases hf x.id hsel hmem with hkept | htaken
    · exact (keyAt_filter_iff hnd hpin q).mp (hid' ▸ hkept)
    · exact absurd htaken hover
  · intro hplace
    by_cases hpin : x.isPinned = true
    · intro id hid _
      obtain rfl : x.id = id := Option.some.inj (hsel.symm.trans hid)
      exact .inl (hid'.trans ((keyAt_filter_iff hnd hpin q).mpr (hplace hpin)))
    · exact followed_of_gone op hsel (hws' ▸ notMem_filter hnd hpin)

theorem closeOthers_workspaces (keepId : Uuid) :
    (tm.closeOthers keepId).1.workspaces =
      tm.workspaces.filter fun ws => !decide (ws.id ≠ keepId ∧ ¬ ws.isPinned) := by
  have := eraseAll_positions (fun ws : Workspace => decide (ws.id ≠ keepId ∧ ¬ ws.isPinned)) []
    tm.workspaces []
  simpa [TabManager.closeOthers] using this

/-- Without the workspace to keep, the pinned ones are left. -/
theorem closeOthers_absent {keepId : Uuid} (habs : tm.workspaceIndex keepId = none) :
    (tm.closeOthers keepId).1.workspaces = tm.workspaces.filter (·.isPinned) := by
  rw [closeOthers_workspaces]
  apply List.filter_congr
  intro ws hws
  -- no workspace has the id to keep
  have hid : ws.id ≠ keepId := by simpa using List.findIdx?_eq_none_iff.mp habs ws hws
  simp [hid]

theorem closeOthers_index (keepId : Uuid) :
    (tm.closeOthers keepId).1.selectedIndex =
      match (tm.closeOthers keepId).1.workspaces.findIdx? (·.id = keepId) with
      | some newIdx => some newIdx
      | none => if (tm.closeOthers keepId).1.workspaces.isEmpty then none else some 0 := rfl

/-- The workspace to keep, if it is there, takes the selection. -/
theorem closeOthers_present {keepId : Uuid} {keepIdx : Nat}
    (hkeep : tm.workspaceIndex keepId = some keepIdx) :
    (tm.closeOthers keepId).1.SelectionOn ∧
      (tm.closeOthers keepId).1.selectedId = some keepId := by
  obtain ⟨hlt, hid, _⟩ := List.findIdx?_eq_some_iff_getElem.mp hkeep
  have hid' : tm.workspaces[keepIdx].id = keepId := by simpa using hid
  have hmem : keepId ∈ (tm.closeOthers keepId).1.workspaces.map (·.id) := by
    rw [closeOthers_workspaces]
    refine List.mem_map.mpr ⟨tm.workspaces[keepIdx], ?_, hid'⟩
    exact List.mem_filter.mpr ⟨List.getElem_mem hlt, by simp [hid']⟩
  obtain ⟨i, hi, hcursor, hat⟩ := exists_findIdx? hmem
  have hindex : (tm.closeOthers keepId).1.selectedIndex = some i := by
    rw [closeOthers_index, hi]
  constructor
  · show CursorOn (tm.closeOthers keepId).1.workspaces (tm.closeOthers keepId).1.selectedIndex
    rw [hindex]
    exact hcursor
  · rw [selectedId_eq, hindex]
    exact hat

/-- Without it the first workspace left is selected. -/
theorem closeOthers_absent_index {keepId : Uuid} (habs : tm.workspaceIndex keepId = none) :
    (tm.closeOthers keepId).1.selectedIndex =
      if (tm.closeOthers keepId).1.workspaces.isEmpty then none else some 0 := by
  have hnone : (tm.closeOthers keepId).1.workspaces.findIdx? (·.id = keepId) = none := by
    apply List.findIdx?_eq_none_iff.mpr
    intro ws hin
    rw [closeOthers_absent habs] at hin
    exact List.findIdx?_eq_none_iff.mp habs ws (List.mem_of_mem_filter hin)
  rw [closeOthers_index, hnone]

theorem closeOthers_absent_selectionOn {keepId : Uuid} (habs : tm.workspaceIndex keepId = none) :
    (tm.closeOthers keepId).1.SelectionOn := by
  show CursorOn _ (tm.closeOthers keepId).1.selectedIndex
  rw [closeOthers_absent_index habs]
  split
  · rename_i hnil
    exact List.isEmpty_iff.mp hnil
  · rename_i hcons
    exact List.length_pos_iff.mpr fun hnil => hcons (List.isEmpty_iff.mpr hnil)

/-- A pinned selected workspace stays, and is the first left if no pinned one
stands above it. -/
theorem closeOthers_absent_followed_iff (hids : tm.WorkspaceIds) {keepId : Uuid}
    (habs : tm.workspaceIndex keepId = none) {above below : List Workspace} {ws : Workspace}
    (hsplit : tm.workspaces = above ++ ws :: below) (hsid : tm.selectedId = some ws.id)
    (hpin : ws.isPinned = true) :
    Followed (.closeOthers keepId) tm (tm.closeOthers keepId).1 ↔
      ¬ above.any (·.isPinned) = true := by
  have hws := closeOthers_absent habs
  rw [hsplit] at hws
  have hzero : (tm.closeOthers keepId).1.selectedIndex = some 0 := by
    rw [closeOthers_absent_index habs]
    refine if_neg fun hnil => ?_
    have hin : ws ∈ (tm.closeOthers keepId).1.workspaces := by
      rw [hws]
      exact List.mem_filter.mpr ⟨by simp, hpin⟩
    rw [List.isEmpty_iff.mp hnil] at hin
    cases hin
  -- no workspace has the id that was to be kept, so none takes over
  have hover : ¬ (true ∧ (tm.closeOthers keepId).1.selectedId = some keepId) := by
    rintro ⟨_, hkeep⟩
    obtain ⟨other, hin, hid⟩ := List.mem_map.mp (keyAt_mem hkeep)
    rw [closeOthers_absent habs] at hin
    have hne := List.findIdx?_eq_none_iff.mp habs other (List.mem_of_mem_filter hin)
    exact absurd hid (by simpa using hne)
  rw [followed_filter_iff (.closeOthers keepId) [] hids hsid hsplit hws hzero hover]
  simp [hpin, @eq_comm Nat 0, List.countP_eq_zero]

theorem closeOthers_iff (hon : tm.SelectionOn) (hids : tm.WorkspaceIds) (keepId : Uuid) :
    ((tm.closeOthers keepId).1.SelectionOn ∧
        Followed (.closeOthers keepId) tm (tm.closeOthers keepId).1) ↔
      ¬ Misses tm (.closeOthers keepId) := by
  cases habs : tm.workspaceIndex keepId with
  | some keepIdx =>
      obtain ⟨hon', hkeep⟩ := closeOthers_present habs
      exact iff_of_true ⟨hon', fun id _ _ => .inr ⟨rfl, hkeep⟩⟩ (by simp [Misses, habs])
  | none =>
      refine (and_iff_right (closeOthers_absent_selectionOn habs)).trans ?_
      cases hsel : tm.selectedIndex with
      | none =>
          refine iff_of_true ?_ (by simp [Misses, TabManager.selected, hsel])
          intro id hid
          rw [selectedId_eq, hsel] at hid
          cases hid
      | some sel =>
          obtain ⟨above, ws, below, hsplit, _, hselected, habove, _⟩ := around_selected hon hsel
          have hsid : tm.selectedId = some ws.id := by
            rw [TabManager.selectedId, hselected]
            rfl
          by_cases hpin : ws.isPinned = true
          · rw [closeOthers_absent_followed_iff hids habs hsplit hsid hpin]
            simp [Misses, habs, habove, hselected, hpin]
          · -- the selected workspace goes too
            refine iff_of_true (followed_of_gone _ hsid ?_) (by simp [Misses, hselected, hpin])
            have hnd : (([] ++ (above ++ ws :: below)).map Workspace.id).Nodup := by
              rw [List.nil_append, ← hsplit]
              exact hids
            rw [closeOthers_absent habs, hsplit]
            exact notMem_filter hnd hpin

theorem closeAbove_of_absent {workspaceId : Uuid} (hi : tm.workspaceIndex workspaceId = none) :
    (tm.closeAbove workspaceId).1 = tm := by
  unfold TabManager.closeAbove
  rw [hi]

/-- What `close_above` leaves: the pinned above the target, and everything from it on. -/
theorem closeAbove_workspaces {workspaceId : Uuid} {targetIdx : Nat}
    (hi : tm.workspaceIndex workspaceId = some targetIdx) :
    (tm.closeAbove workspaceId).1.workspaces =
      (tm.workspaces.take targetIdx).filter (·.isPinned) ++ tm.workspaces.drop targetIdx := by
  have herase := eraseAll_positions (fun ws : Workspace => decide ¬ ws.isPinned) []
    (tm.workspaces.take targetIdx) (tm.workspaces.drop targetIdx)
  rw [List.nil_append, List.take_append_drop] at herase
  unfold TabManager.closeAbove
  rw [hi]
  simpa using herase

/-- The target takes the selection. -/
theorem closeAbove_index {workspaceId : Uuid} {targetIdx : Nat}
    (hi : tm.workspaceIndex workspaceId = some targetIdx) :
    (tm.closeAbove workspaceId).1.selectedIndex =
      ((tm.closeAbove workspaceId).1.workspaces.findIdx? (·.id = workspaceId)).or
        tm.selectedIndex := by
  unfold TabManager.closeAbove
  rw [hi]
  dsimp only
  cases List.findIdx? (fun ws : Workspace => decide (ws.id = workspaceId)) _ with
  | none => rfl
  | some newIdx => rfl

theorem closeAbove_spec (hon : tm.SelectionOn) (workspaceId : Uuid) :
    (tm.closeAbove workspaceId).1.SelectionOn ∧
      Followed (.closeAbove workspaceId) tm (tm.closeAbove workspaceId).1 := by
  cases hi : tm.workspaceIndex workspaceId with
  | none =>
      rw [closeAbove_of_absent hi]
      exact ⟨hon, (Kept.refl hon).followed _⟩
  | some targetIdx =>
      obtain ⟨hlt, hid, _⟩ := List.findIdx?_eq_some_iff_getElem.mp hi
      have hmem : workspaceId ∈ (tm.closeAbove workspaceId).1.workspaces.map (·.id) := by
        -- the target is not among what is closed
        rw [closeAbove_workspaces hi, List.drop_eq_getElem_cons hlt]
        refine List.mem_map.mpr ⟨tm.workspaces[targetIdx], ?_, by simpa using hid⟩
        exact List.mem_append_right _ List.mem_cons_self
      obtain ⟨newIdx, hn, hcursor, hat⟩ := exists_findIdx? hmem
      have hindex : (tm.closeAbove workspaceId).1.selectedIndex = some newIdx := by
        rw [closeAbove_index hi, hn, Option.some_or]
      constructor
      · show CursorOn (tm.closeAbove workspaceId).1.workspaces
          (tm.closeAbove workspaceId).1.selectedIndex
        rw [hindex]
        exact hcursor
      · intro id _ _
        refine .inr ⟨rfl, ?_⟩
        rw [selectedId_eq, hindex]
        exact hat

theorem closeBelow_of_absent {workspaceId : Uuid} (hi : tm.workspaceIndex workspaceId = none) :
    (tm.closeBelow workspaceId).1 = tm := by
  unfold TabManager.closeBelow
  rw [hi]

/-- What `close_below` leaves: everything down to the target, and the pinned below it. -/
theorem closeBelow_workspaces {workspaceId : Uuid} {targetIdx : Nat}
    (hi : tm.workspaceIndex workspaceId = some targetIdx) :
    (tm.closeBelow workspaceId).1.workspaces =
      tm.workspaces.take (targetIdx + 1) ++
        (tm.workspaces.drop (targetIdx + 1)).filter (·.isPinned) := by
  have hlt : targetIdx < tm.workspaces.length := (List.findIdx?_eq_some_iff_getElem.mp hi).1
  have herase := eraseAll_positions (fun ws : Workspace => decide ¬ ws.isPinned)
    (tm.workspaces.take (targetIdx + 1)) (tm.workspaces.drop (targetIdx + 1)) []
  rw [List.append_nil, List.append_nil, List.take_append_drop, List.length_take,
    Nat.min_eq_left (by omega)] at herase
  unfold TabManager.closeBelow
  rw [hi]
  simpa using herase

theorem closeBelow_index {workspaceId : Uuid} {targetIdx : Nat}
    (hi : tm.workspaceIndex workspaceId = some targetIdx) :
    (tm.closeBelow workspaceId).1.selectedIndex = tm.selectedIndex.map fun sel =>
      if sel ≥ (tm.closeBelow workspaceId).1.workspaces.length then
        (tm.closeBelow workspaceId).1.workspaces.length - 1
      else sel := by
  unfold TabManager.closeBelow
  rw [hi]

theorem closeBelow_keeps_target {workspaceId : Uuid} {targetIdx : Nat}
    (hi : tm.workspaceIndex workspaceId = some targetIdx) :
    targetIdx < (tm.closeBelow workspaceId).1.workspaces.length := by
  have hlt : targetIdx < tm.workspaces.length := (List.findIdx?_eq_some_iff_getElem.mp hi).1
  rw [closeBelow_workspaces hi, List.length_append, List.length_take]
  omega

/-- The target stays, so something is left to select. -/
theorem closeBelow_selectionOn (hon : tm.SelectionOn) {workspaceId : Uuid} {targetIdx : Nat}
    (hi : tm.workspaceIndex workspaceId = some targetIdx) :
    (tm.closeBelow workspaceId).1.SelectionOn := by
  have hleft := closeBelow_keeps_target hi
  unfold SelectionOn
  rw [closeBelow_index hi]
  cases hsel : tm.selectedIndex with
  | none =>
      unfold TabManager.workspaceIndex at hi
      rw [selectionOn_none hon hsel] at hi
      cases hi
  | some sel =>
      show (if sel ≥ (tm.closeBelow workspaceId).1.workspaces.length then
          (tm.closeBelow workspaceId).1.workspaces.length - 1 else sel) < List.length _
      split <;> omega

/-- Nothing at or above a selected workspace that is not below the target goes. -/
theorem closeBelow_kept (hon : tm.SelectionOn) {workspaceId : Uuid} {targetIdx sel : Nat}
    (hi : tm.workspaceIndex workspaceId = some targetIdx) (hsel : tm.selectedIndex = some sel)
    (hup : sel ≤ targetIdx) : Kept tm (tm.closeBelow workspaceId).1 := by
  have hleft := closeBelow_keeps_target hi
  have hindex : (tm.closeBelow workspaceId).1.selectedIndex = some sel := by
    rw [closeBelow_index hi, hsel]
    exact congrArg some (if_neg (by omega))
  refine ⟨closeBelow_selectionOn hon hi, ?_⟩
  rw [hsel, hindex]
  apply tracks_of_same
  have hlt : targetIdx < tm.workspaces.length := (List.findIdx?_eq_some_iff_getElem.mp hi).1
  rw [closeBelow_workspaces hi, List.getElem?_append_left (by rw [List.length_take]; omega),
    List.getElem?_take_of_lt (by omega)]

/-- The list below the target, around a selected workspace that is there. -/
theorem below_target {above below : List Workspace} {ws : Workspace} {targetIdx : Nat}
    (hsplit : tm.workspaces = above ++ ws :: below) (hdown : targetIdx < above.length) :
    tm.workspaces.take (targetIdx + 1) = above.take (targetIdx + 1) ∧
      tm.workspaces.drop (targetIdx + 1) = above.drop (targetIdx + 1) ++ ws :: below := by
  constructor
  · rw [hsplit, List.take_append_of_le_length (by omega)]
  · rw [hsplit, List.drop_append_of_le_length (by omega)]

/-- Below the target the index goes wrong as it does not count what is closed
above the selected workspace, unless the clamp makes up for it. -/
theorem closeBelow_followed_iff (hids : tm.WorkspaceIds) {workspaceId : Uuid}
    {targetIdx sel : Nat} (hi : tm.workspaceIndex workspaceId = some targetIdx)
    (hsel : tm.selectedIndex = some sel) (hdown : targetIdx < sel)
    {above below : List Workspace} {ws : Workspace}
    (hsplit : tm.workspaces = above ++ ws :: below) (hlen : above.length = sel)
    (hselected : tm.selected = some ws) :
    Followed (.closeBelow workspaceId) tm (tm.closeBelow workspaceId).1 ↔
      ¬ (ws.isPinned = true ∧ (above.drop (targetIdx + 1)).any (¬ ·.isPinned) = true ∧
        below.any (·.isPinned) = true) := by
  obtain ⟨htake, hdrop⟩ := below_target hsplit (hlen.symm ▸ hdown)
  have hwhole : tm.workspaces = above.take (targetIdx + 1) ++
      (above.drop (targetIdx + 1) ++ ws :: below) := by
    rw [← htake, ← hdrop, List.take_append_drop]
  have hws := closeBelow_workspaces hi
  rw [htake, hdrop] at hws
  have hindex := closeBelow_index hi
  rw [hsel] at hindex
  have hsid : tm.selectedId = some ws.id := by
    rw [TabManager.selectedId, hselected]
    rfl
  have hover : ¬ ((ListOp.closeBelow workspaceId).mayTakeOver.isSome ∧
      (tm.closeBelow workspaceId).1.selectedId =
        (ListOp.closeBelow workspaceId).mayTakeOver) := by
    rintro ⟨hsome, _⟩
    cases hsome
  rw [followed_filter_iff _ _ hids hsid hwhole hws hindex hover]
  -- what is left is counted in three parts: down to the target, from there to
  -- the selected workspace, and from that on
  have hlow : (above.take (targetIdx + 1)).length = targetIdx + 1 := by
    rw [List.length_take]
    omega
  have hmid : (above.drop (targetIdx + 1)).length = sel - (targetIdx + 1) := by
    rw [List.length_drop, hlen]
  have hcount : (tm.closeBelow workspaceId).1.workspaces.length =
      targetIdx + 1 + ((above.drop (targetIdx + 1)).countP (·.isPinned) +
        ((below.countP (·.isPinned)) + if ws.isPinned then 1 else 0)) := by
    rw [hws, List.length_append, hlow, ← List.countP_eq_length_filter,
      List.countP_append, List.countP_cons]
  have hpins : below.any (·.isPinned) = true ↔ 0 < below.countP (·.isPinned) := by
    rw [List.countP_pos_iff, List.any_eq_true]
  have hgap := any_not_iff_countP_lt (fun ws : Workspace => ws.isPinned)
    (above.drop (targetIdx + 1))
  rw [hmid] at hgap
  rw [hgap, hpins, hcount, hlow]
  have hle := List.countP_le_length (p := (·.isPinned)) (l := above.drop (targetIdx + 1))
  rw [hmid] at hle
  by_cases hpin : ws.isPinned = true
  · simp only [hpin, if_true, true_and, forall_const]
    split <;> omega
  · simp [hpin]

theorem closeBelow_iff (hon : tm.SelectionOn) (hids : tm.WorkspaceIds) (workspaceId : Uuid) :
    ((tm.closeBelow workspaceId).1.SelectionOn ∧
        Followed (.closeBelow workspaceId) tm (tm.closeBelow workspaceId).1) ↔
      ¬ Misses tm (.closeBelow workspaceId) := by
  cases hi : tm.workspaceIndex workspaceId with
  | none =>
      rw [closeBelow_of_absent hi]
      exact iff_of_true ⟨hon, (Kept.refl hon).followed _⟩ (by simp [Misses, hi])
  | some targetIdx =>
      have hon' := closeBelow_selectionOn hon hi
      refine (and_iff_right hon').trans ?_
      cases hsel : tm.selectedIndex with
      | none =>
          unfold TabManager.workspaceIndex at hi
          rw [selectionOn_none hon hsel] at hi
          cases hi
      | some sel =>
          obtain ⟨above, ws, below, hsplit, hlen, hselected, habove, hbelow⟩ :=
            around_selected hon hsel
          by_cases hdown : targetIdx < sel
          · have hmiss : Misses tm (.closeBelow workspaceId) ↔
                ws.isPinned = true ∧ (above.drop (targetIdx + 1)).any (¬ ·.isPinned) = true ∧
                  below.any (·.isPinned) = true := by
              simp [Misses, hi, hselected, habove, hbelow]
            rw [hmiss]
            exact closeBelow_followed_iff hids hi hsel hdown hsplit hlen hselected
          · -- nothing stands between the target and the selected workspace
            have hup : sel ≤ targetIdx := Nat.le_of_not_lt hdown
            refine iff_of_true ((closeBelow_kept hon hi hsel hup).followed _) ?_
            rintro ⟨_, ⟨t, ht, hany⟩, _⟩
            obtain rfl : targetIdx = t := Option.some.inj (hi.symm.trans ht)
            rw [habove, List.drop_eq_nil_of_le (by omega)] at hany
            cases hany

end TabManager

/-! ## §4. The law. -/

open TabManager in
/-- **The selected workspace is tracked by identity** by every operation, and
in every state but those that `Misses` names. -/
theorem selection_by_identity {tm : TabManager} (hon : tm.SelectionOn) (hids : tm.WorkspaceIds)
    (now : Nat) (op : ListOp) :
    ((op.apply now tm).SelectionOn ∧ Followed op tm (op.apply now tm)) ↔ ¬ Misses tm op := by
  have hkept : ∀ tm', Kept tm tm' → Misses tm op = False →
      (tm'.SelectionOn ∧ Followed op tm tm' ↔ ¬ Misses tm op) := by
    intro tm' hk hmiss
    rw [hmiss]
    exact iff_of_true ⟨hk.on, hk.followed op⟩ id
  cases op with
  | remove index => exact hkept _ (remove_kept hon hids now index) rfl
  | removeById id => exact hkept _ (removeById_kept hon hids now id) rfl
  | closePanel panelId => exact hkept _ (closePanel_kept hon hids now panelId) rfl
  | closeOthers keepId => exact closeOthers_iff hon hids keepId
  | closeAbove workspaceId =>
      exact iff_of_true (closeAbove_spec hon workspaceId) id
  | closeBelow workspaceId => exact closeBelow_iff hon hids workspaceId
  | moveWorkspace fromIdx toIdx => exact hkept _ (moveWorkspace_kept hon fromIdx toIdx) rfl
  | moveGroupBefore groupId targetWsId =>
      exact hkept _ (moveGroupBefore_kept hon groupId targetWsId) rfl
  | assignToGroup workspaceId groupId =>
      exact hkept _ (assignToGroup_kept hon workspaceId groupId) rfl
  | addWorkspaceKeepSelection workspace placement =>
      exact addWorkspaceKeepSelection_iff hon workspace placement _

/-- Five workspaces, the third open to closing and the last two pinned; the
fourth is selected. -/
def pinnedBelow : TabManager where
  workspaces :=
    [.new 1 101 "/", .new 2 102 "/", .new 3 103 "/", { Workspace.new 4 104 "/" with isPinned := true },
      { Workspace.new 5 105 "/" with isPinned := true }]
  selectedIndex := some 3

/-- `close_below` of the second workspace selects the fifth instead of the fourth. -/
theorem selection_jumps :
    pinnedBelow.SelectionOn ∧ pinnedBelow.WorkspaceIds ∧ pinnedBelow.selectedId = some 4 ∧
      ((ListOp.closeBelow 2).apply 0 pinnedBelow).selectedId = some 5 ∧
      ¬ TabManager.Followed (.closeBelow 2) pinnedBelow ((ListOp.closeBelow 2).apply 0 pinnedBelow) := by
  refine ⟨by unfold TabManager.SelectionOn; decide, by unfold TabManager.WorkspaceIds; decide,
    by decide, by decide, ?_⟩
  intro hf
  rcases hf 4 (by decide) (by decide) with h | ⟨h, _⟩
  · exact absurd h (by decide)
  · cases h

/-- The law applied to the same manager, where the third workspace is closed by its id. -/
theorem selection_by_identity_pinned :
    ((ListOp.removeById 3).apply 0 pinnedBelow).SelectionOn ∧
      TabManager.Followed (.removeById 3) pinnedBelow ((ListOp.removeById 3).apply 0 pinnedBelow) :=
  (selection_by_identity (by unfold TabManager.SelectionOn; decide)
    (by unfold TabManager.WorkspaceIds; decide) 0 (.removeById 3)).mpr id

end Jmux.Model
