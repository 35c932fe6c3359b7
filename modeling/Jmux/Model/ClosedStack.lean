/-
  Jmux.Model.ClosedStack — closed workspaces can be reopened.

  Four operations remove workspaces from a `TabManager`.  Only `remove` puts
  them on the closed stack.

  Main result: `closed_can_be_reopened` — the removed workspaces are recorded
  and come back, most recently closed first, except when one of the other three
  operations removes a workspace that has panels.
-/
import Jmux.Model.Selection

namespace Jmux.Model

open Jmux.Lib

/-! ## §1. What goes and what comes back. -/

inductive RemoveOp
  | remove (index : Nat)
  | closeOthers (keepId : Uuid)
  | closeAbove (workspaceId : Uuid)
  | closeBelow (workspaceId : Uuid)

def RemoveOp.listOp : RemoveOp → ListOp
  | .remove index => .remove index
  | .closeOthers keepId => .closeOthers keepId
  | .closeAbove workspaceId => .closeAbove workspaceId
  | .closeBelow workspaceId => .closeBelow workspaceId

def RemoveOp.apply (now : Nat) (tm : TabManager) (op : RemoveOp) : TabManager :=
  op.listOp.apply now tm

namespace TabManager

/-- The workspaces that a step removes. -/
def gone (tm tm' : TabManager) : List Workspace :=
  tm.workspaces.filter fun ws => ws.id ∉ tm'.workspaces.map (·.id)

/-- The stack with one more workspace, the oldest dropped beyond the cap. -/
def remember (closed : List Workspace) (ws : Workspace) : List Workspace :=
  let closed := closed ++ [ws]
  closed.drop (closed.length - closedStackCap)

def closedWorkspaces (tm : TabManager) : List Workspace := tm.closedStack.map (·.workspace)

/-- So many calls of `reopen_last_closed`, and the ids they return. -/
def reopenTimes : Nat → TabManager → TabManager × List Uuid
  | 0, tm => (tm, [])
  | n + 1, tm =>
      match tm.reopenLastClosed with
      | (tm, none) => (tm, [])
      | (tm, some id) =>
          let (tm, ids) := reopenTimes n tm
          (tm, id :: ids)

/-- Every removed workspace that has panels is on the stack, and the stack comes
back from the top. -/
structure Reopenable (tm tm' : TabManager) : Prop where
  recorded : ∃ order : List Workspace, order.Perm ((gone tm tm').filter (¬ ·.isEmpty)) ∧
    tm'.closedWorkspaces = order.foldl remember tm.closedWorkspaces
  reopened : ∀ n ≤ tm'.closedStack.length,
    (reopenTimes n tm').2 = (tm'.closedWorkspaces.reverse.take n).map (·.id) ∧
      (reopenTimes n tm').1.workspaces =
        tm'.workspaces ++ tm'.closedWorkspaces.reverse.take n

/-- An id names one workspace, live or closed. -/
def Apart (tm : TabManager) : Prop := ((tm.workspaces ++ tm.closedWorkspaces).map (·.id)).Nodup

/-- Where a workspace with panels goes unrecorded. -/
def Forgets (tm : TabManager) : RemoveOp → Prop
  | .remove _ => False
  | .closeOthers keepId =>
      ∃ ws ∈ tm.workspaces, ws.id ≠ keepId ∧ ¬ ws.isPinned ∧ ¬ ws.isEmpty
  | .closeAbove workspaceId =>
      ∃ targetIdx, tm.workspaceIndex workspaceId = some targetIdx ∧
        ∃ ws ∈ tm.workspaces.take targetIdx, ¬ ws.isPinned ∧ ¬ ws.isEmpty
  | .closeBelow workspaceId =>
      ∃ targetIdx, tm.workspaceIndex workspaceId = some targetIdx ∧
        ∃ ws ∈ tm.workspaces.drop (targetIdx + 1), ¬ ws.isPinned ∧ ¬ ws.isEmpty

/-! ## §2. Reopening. -/

variable {tm tm' : TabManager}

theorem Apart.workspaceIds (h : Apart tm) : tm.WorkspaceIds := by
  unfold Apart at h
  rw [List.map_append] at h
  exact (List.nodup_append.mp h).1

/-- A closed workspace is not live. -/
theorem Apart.not_live (h : Apart tm) {ws : Workspace} (hws : ws ∈ tm.closedWorkspaces) :
    ws.id ∉ tm.workspaces.map (·.id) := by
  unfold Apart at h
  rw [List.map_append] at h
  intro hlive
  exact (List.nodup_append.mp h).2.2 _ hlive _ (List.mem_map_of_mem hws) rfl

theorem Apart.mono (h : Apart tm)
    (hsub : (tm'.workspaces ++ tm'.closedWorkspaces).Subperm (tm.workspaces ++ tm.closedWorkspaces)) :
    Apart tm' := by
  obtain ⟨l, hperm, hl⟩ := hsub
  exact (hperm.map _).nodup_iff.mp ((hl.map _).nodup h)

theorem addUnlessLive_of_not_live (tm : TabManager) {ws : Workspace} (h : ws.id ∉ tm.workspaces.map (·.id)) :
    tm.addUnlessLive ws = tm.addWorkspace ws := by
  unfold addUnlessLive
  rw [if_neg]
  intro hlive
  obtain ⟨live, hlive⟩ := Option.isSome_iff_exists.mp hlive
  refine h (List.mem_map.mpr ⟨live, List.mem_of_find?_eq_some hlive, ?_⟩)
  simpa using List.find?_some hlive

/-- **Reopening gives the stack back**, from the top. -/
theorem reopenTimes_spec (n : Nat) : ∀ tm : TabManager, Apart tm → n ≤ tm.closedStack.length →
    (reopenTimes n tm).2 = (tm.closedWorkspaces.reverse.take n).map (·.id) ∧
      (reopenTimes n tm).1.workspaces = tm.workspaces ++ tm.closedWorkspaces.reverse.take n := by
  induction n with
  | zero =>
      intro tm _ _
      simp [reopenTimes]
  | succ n ih =>
      intro tm hapart hn
      obtain ⟨older, entry, hstack⟩ : ∃ older entry, tm.closedStack = older ++ [entry] := by
        refine ⟨tm.closedStack.dropLast, tm.closedStack.getLast ?_, ?_⟩
        · intro hnil
          rw [hnil] at hn
          cases hn
        · rw [List.dropLast_append_getLast]
      have hclosed : tm.closedWorkspaces = older.map (·.workspace) ++ [entry.workspace] := by
        simp [closedWorkspaces, hstack]
      -- the top entry is not live, so it comes back
      have hfree : entry.workspace.id ∉ tm.workspaces.map (·.id) :=
        hapart.not_live (by simp [hclosed])
      have hcall : tm.reopenLastClosed =
          ({ tm with closedStack := older }.addWorkspace entry.workspace,
            some entry.workspace.id) := by
        unfold reopenLastClosed
        rw [hstack, List.getLast?_concat, List.dropLast_concat]
        dsimp only
        rw [addUnlessLive_of_not_live { tm with closedStack := older } hfree]
      -- one id goes from the stack to the list
      have happ : Apart ({ tm with closedStack := older }.addWorkspace entry.workspace) := by
        apply hapart.mono
        rw [hclosed]
        refine List.Perm.subperm ?_
        show ((tm.workspaces ++ [entry.workspace]) ++ older.map (·.workspace)).Perm _
        rw [List.append_assoc]
        exact List.Perm.append_left _ List.perm_append_comm
      have hlen : n ≤ older.length := by
        rw [hstack, List.length_append, List.length_singleton] at hn
        omega
      obtain ⟨hids, hlive⟩ := ih _ happ hlen
      have hrest : ({ tm with closedStack := older }.addWorkspace entry.workspace).closedWorkspaces =
          older.map (·.workspace) := rfl
      rw [hrest] at hids hlive
      simp only [reopenTimes, hcall]
      constructor
      · rw [hids, hclosed, List.reverse_append, List.reverse_singleton]
        rfl
      · rw [hlive, hclosed, List.reverse_append, List.reverse_singleton]
        show tm.workspaces ++ [entry.workspace] ++ _ = _
        rw [List.append_assoc]
        rfl

/-! ## §3. Removing one: recorded. -/

theorem recordClosed_workspaces (closed : List ClosedEntry) (entry : ClosedEntry) :
    (recordClosed closed entry).map (·.workspace) =
      remember (closed.map (·.workspace)) entry.workspace := by
  unfold recordClosed remember
  dsimp only
  split
  · simp [List.map_drop]
  · rename_i hle
    have : (closed ++ [entry]).length - closedStackCap = 0 := by omega
    simp only [List.length_append, List.length_map, List.length_singleton] at this ⊢
    rw [this]
    simp

/-- Remembering only drops from what is there. -/
theorem remember_sublist (closed : List Workspace) (ws : Workspace) :
    (remember closed ws).Sublist (closed ++ [ws]) := List.drop_sublist _ _

theorem gone_eraseIdx (hids : tm.WorkspaceIds) {index : Nat} {ws : Workspace}
    (hws : tm.workspaces[index]? = some ws)
    (hleft : tm'.workspaces = tm.workspaces.eraseIdx index) : gone tm tm' = [ws] := by
  obtain ⟨hlt, rfl⟩ := List.getElem?_eq_some_iff.mp hws
  have hsplit : tm.workspaces = tm.workspaces.take index ++
      tm.workspaces[index] :: tm.workspaces.drop (index + 1) := by
    rw [← List.drop_eq_getElem_cons hlt, List.take_append_drop]
  have hgone := notMem_eraseIdx hids hws
  unfold gone
  rw [hleft]
  rw [List.eraseIdx_eq_take_drop_succ] at hgone ⊢
  generalize tm.workspaces[index] = ws at hsplit hgone
  generalize tm.workspaces.take index = above at hsplit hgone ⊢
  generalize tm.workspaces.drop (index + 1) = below at hsplit hgone ⊢
  -- above and below the position everything is still there
  rw [hsplit, List.filter_append, List.filter_cons_of_pos (by simpa using hgone)]
  rw [List.filter_eq_nil_iff.mpr, List.filter_eq_nil_iff.mpr]
  · rfl
  · intro x hx
    simp only [decide_eq_true_eq, not_not]
    exact List.mem_map_of_mem (List.mem_append_right _ hx)
  · intro x hx
    simp only [decide_eq_true_eq, not_not]
    exact List.mem_map_of_mem (List.mem_append_left _ hx)

/-- What is left of the list and the stack after one workspace went from one to the other. -/
theorem Apart.remembered (hapart : Apart tm) {index : Nat} {ws : Workspace}
    (hws : tm.workspaces[index]? = some ws)
    (hleft : tm'.workspaces = tm.workspaces.eraseIdx index)
    (hclosed : tm'.closedWorkspaces.Sublist (tm.closedWorkspaces ++ [ws])) : Apart tm' := by
  obtain ⟨hlt, rfl⟩ := List.getElem?_eq_some_iff.mp hws
  apply hapart.mono
  rw [hleft]
  have hback : (tm.workspaces.eraseIdx index ++ (tm.closedWorkspaces ++ [tm.workspaces[index]])).Perm
      (tm.workspaces ++ tm.closedWorkspaces) := by
    rw [← List.append_assoc]
    refine List.perm_append_comm.trans ?_
    show (tm.workspaces[index] :: (tm.workspaces.eraseIdx index ++ tm.closedWorkspaces)).Perm _
    exact List.Perm.append_right _ (List.getElem_cons_eraseIdx_perm hlt)
  exact ((List.Sublist.refl _).append hclosed).subperm.trans hback.subperm

theorem remove_reopenable (hapart : Apart tm) (now index : Nat) :
    Reopenable tm ((RemoveOp.remove index).apply now tm) := by
  show Reopenable tm (((tm.remove now index).map (·.2)).getD tm)
  unfold TabManager.remove
  cases hws : tm.workspaces[index]? with
  | none =>
      refine ⟨⟨[], ?_, rfl⟩, fun n hn => reopenTimes_spec n tm hapart hn⟩
      have hnil : gone tm tm = [] := List.filter_eq_nil_iff.mpr fun x hx => by
        simpa using List.mem_map_of_mem (f := (·.id)) hx
      show List.Perm [] ((gone tm tm).filter _)
      rw [hnil]
      exact List.Perm.refl _
  | some ws =>
      dsimp only [Option.map_some, Option.getD_some]
      generalize hafter : TabManager.mk _ _ _ _ _ _ = after
      have hleft : after.workspaces = tm.workspaces.eraseIdx index := by
        rw [← hafter]
      have hclosed : after.closedWorkspaces =
          if ws.isEmpty then tm.closedWorkspaces else remember tm.closedWorkspaces ws := by
        rw [← hafter]
        unfold closedWorkspaces
        dsimp only
        split
        · rfl
        · exact recordClosed_workspaces _ _
      have happ : Apart after := by
        apply hapart.remembered hws hleft
        rw [hclosed]
        split
        · exact List.sublist_append_left _ _
        · exact remember_sublist _ _
      refine ⟨?_, fun n hn => reopenTimes_spec n after happ hn⟩
      rw [gone_eraseIdx hapart.workspaceIds hws hleft, hclosed]
      by_cases hempty : ws.isEmpty = true
      · exact ⟨[], by simp [hempty], by simp [hempty]⟩
      · exact ⟨[ws], by simp [hempty], by simp [hempty]⟩

/-! ## §4. Closing several: not recorded. -/

/-- Of the positions erased, the workspaces that stood there are gone. -/
theorem mem_gone_eraseAll (hids : tm.WorkspaceIds) {p : Workspace → Bool}
    {above l below : List Workspace} (hws : tm.workspaces = above ++ l ++ below)
    (hleft : tm'.workspaces = eraseAll tm.workspaces (positions p l above.length))
    {ws : Workspace} : ws ∈ gone tm tm' ↔ ws ∈ l ∧ p ws = true := by
  rw [hws, eraseAll_positions] at hleft
  unfold WorkspaceIds at hids
  rw [hws] at hids
  have hnd : (above ++ l ++ below).Nodup := List.Nodup.of_map _ hids
  unfold gone
  simp only [List.mem_filter, hws, hleft, decide_eq_true_eq, List.mem_map, not_exists, not_and]
  constructor
  · rintro ⟨hmem, hout⟩
    -- gone, so not among what is left
    have hkept : ws ∉ above ++ l.filter (!p ·) ++ below := fun hin => hout ws hin rfl
    simp only [List.mem_append, List.mem_filter, not_or] at hmem hkept
    obtain ⟨⟨habove, hl⟩, hbelow⟩ := hkept
    rcases hmem with (h | h) | h
    · exact absurd h habove
    · refine ⟨h, ?_⟩
      by_contra hp
      exact hl ⟨h, by simpa using hp⟩
    · exact absurd h hbelow
  · rintro ⟨hmem, hp⟩
    have hin : ws ∈ above ++ l ++ below := by simp [hmem]
    refine ⟨hin, fun y hy hyid => ?_⟩
    have hyin : y ∈ above ++ l ++ below := by
      simp only [List.mem_append, List.mem_filter] at hy ⊢
      tauto
    -- an id names one workspace, so what is left would be the erased one
    obtain rfl : y = ws := List.inj_on_of_nodup_map hids hyin hin hyid
    rw [List.append_assoc, List.nodup_append'] at hnd
    have hrest := List.nodup_append'.mp hnd.2.1
    simp only [List.mem_append, List.mem_filter] at hy
    rcases hy with (h | ⟨_, h⟩) | h
    · exact hnd.2.2 h (List.mem_append_left _ hmem)
    · simp [hp] at h
    · exact hrest.2.2 hmem h

theorem mem_remember (closed : List Workspace) (ws : Workspace) : ws ∈ remember closed ws := by
  unfold remember
  dsimp only
  rw [List.length_append, List.length_singleton, List.drop_append_of_le_length]
  · exact List.mem_append_right _ (List.mem_singleton.mpr rfl)
  · unfold closedStackCap
    omega

/-- **A step that leaves the stack alone** meets the law exactly when it removes
only workspaces without panels. -/
theorem unrecorded_iff (hapart : Apart tm) (hstack : tm'.closedStack = tm.closedStack)
    (hsub : tm'.workspaces.Sublist tm.workspaces) :
    Reopenable tm tm' ↔ ∀ ws ∈ gone tm tm', ws.isEmpty := by
  have hclosed : tm'.closedWorkspaces = tm.closedWorkspaces := by
    unfold closedWorkspaces
    rw [hstack]
  constructor
  · rintro ⟨⟨order, hperm, heq⟩, _⟩ ws hgone
    by_contra hpanels
    -- the last one recorded would be live and closed at once
    have hin : ws ∈ order := hperm.mem_iff.mpr (List.mem_filter.mpr ⟨hgone, by simpa using hpanels⟩)
    obtain ⟨first, last, rfl⟩ : ∃ first last, order = first ++ [last] :=
      ⟨order.dropLast, order.getLast (List.ne_nil_of_mem hin),
        (List.dropLast_append_getLast _).symm⟩
    rw [List.foldl_append, hclosed] at heq
    have hon : last ∈ tm.closedWorkspaces := by
      rw [heq]
      exact mem_remember _ _
    have hlast : last ∈ gone tm tm' :=
      List.mem_of_mem_filter (hperm.mem_iff.mp (List.mem_append_right _ (List.mem_singleton.mpr rfl)))
    exact hapart.not_live hon (List.mem_map_of_mem (List.mem_of_mem_filter hlast))
  · intro hempty
    have happ : Apart tm' := by
      apply hapart.mono
      rw [hclosed]
      exact (hsub.append (List.Sublist.refl _)).subperm
    refine ⟨⟨[], ?_, hclosed⟩, fun n hn => reopenTimes_spec n tm' happ hn⟩
    rw [List.filter_eq_nil_iff.mpr fun ws hws => by simpa using hempty ws hws]

/-- The same for the positions of a test within a part of the list. -/
theorem close_iff (hapart : Apart tm) {p : Workspace → Bool} (above l below : List Workspace)
    (hws : tm.workspaces = above ++ l ++ below)
    (hleft : tm'.workspaces = eraseAll tm.workspaces (positions p l above.length))
    (hstack : tm'.closedStack = tm.closedStack) :
    Reopenable tm tm' ↔ ¬ ∃ ws ∈ l, p ws = true ∧ ¬ ws.isEmpty := by
  rw [unrecorded_iff hapart hstack (hleft ▸ eraseAll_sublist _ _)]
  simp only [mem_gone_eraseAll hapart.workspaceIds hws hleft]
  constructor
  · rintro h ⟨ws, hl, hp, hpanels⟩
    exact hpanels (h ws ⟨hl, hp⟩)
  · rintro h ws ⟨hl, hp⟩
    by_contra hpanels
    exact h ⟨ws, hl, hp, hpanels⟩

/-- `close_above` erases above the target, and leaves the stack. -/
theorem closeAbove_leaves {workspaceId : Uuid} {targetIdx : Nat}
    (hi : tm.workspaceIndex workspaceId = some targetIdx) :
    (tm.closeAbove workspaceId).1.workspaces = eraseAll tm.workspaces
        (positions (fun ws => ¬ ws.isPinned) (tm.workspaces.take targetIdx) 0) ∧
      (tm.closeAbove workspaceId).1.closedStack = tm.closedStack := by
  unfold TabManager.closeAbove
  rw [hi]
  exact ⟨rfl, rfl⟩

/-- `close_below` erases below it, where positions count on from the part above. -/
theorem closeBelow_leaves {workspaceId : Uuid} {targetIdx : Nat}
    (hi : tm.workspaceIndex workspaceId = some targetIdx) :
    (tm.closeBelow workspaceId).1.workspaces = eraseAll tm.workspaces
        (positions (fun ws => ¬ ws.isPinned) (tm.workspaces.drop (targetIdx + 1))
          (tm.workspaces.take (targetIdx + 1)).length) ∧
      (tm.closeBelow workspaceId).1.closedStack = tm.closedStack := by
  have hlt : targetIdx < tm.workspaces.length := (List.findIdx?_eq_some_iff_getElem.mp hi).1
  have hlen : (tm.workspaces.take (targetIdx + 1)).length = targetIdx + 1 := by
    rw [List.length_take]
    omega
  unfold TabManager.closeBelow
  rw [hi, hlen]
  exact ⟨rfl, rfl⟩

end TabManager

/-! ## §5. The law. -/

open TabManager in
/-- **Every closed workspace can be reopened**, except when `Forgets` holds. -/
theorem closed_can_be_reopened {tm : TabManager} (hapart : Apart tm) (now : Nat) (op : RemoveOp) :
    Reopenable tm (op.apply now tm) ↔ ¬ Forgets tm op := by
  have hsame : Reopenable tm tm := by
    rw [unrecorded_iff hapart rfl (List.Sublist.refl _)]
    intro ws hgone
    have := List.mem_filter.mp hgone
    simp only [decide_eq_true_eq] at this
    exact absurd (List.mem_map_of_mem this.1) this.2
  cases op with
  | remove index => exact iff_of_true (remove_reopenable hapart now index) id
  | closeOthers keepId =>
      have hleft : (tm.closeOthers keepId).1.workspaces = eraseAll tm.workspaces
          (positions (fun ws => ws.id ≠ keepId ∧ ¬ ws.isPinned) tm.workspaces 0) := rfl
      refine (close_iff hapart [] tm.workspaces [] (by simp) hleft rfl).trans ?_
      simp [Forgets]
  | closeAbove workspaceId =>
      show Reopenable tm (tm.closeAbove workspaceId).1 ↔ _
      cases hi : tm.workspaceIndex workspaceId with
      | none =>
          rw [closeAbove_of_absent hi]
          exact iff_of_true hsame (by simp [Forgets, hi])
      | some targetIdx =>
          obtain ⟨hleft, hstack⟩ := closeAbove_leaves hi
          refine (close_iff hapart [] (tm.workspaces.take targetIdx)
            (tm.workspaces.drop targetIdx) (by simp) hleft hstack).trans ?_
          simp [Forgets, hi]
  | closeBelow workspaceId =>
      show Reopenable tm (tm.closeBelow workspaceId).1 ↔ _
      cases hi : tm.workspaceIndex workspaceId with
      | none =>
          rw [closeBelow_of_absent hi]
          exact iff_of_true hsame (by simp [Forgets, hi])
      | some targetIdx =>
          obtain ⟨hleft, hstack⟩ := closeBelow_leaves hi
          refine (close_iff hapart (tm.workspaces.take (targetIdx + 1))
            (tm.workspaces.drop (targetIdx + 1)) [] (by simp) hleft hstack).trans ?_
          simp [Forgets, hi]

/-- Three workspaces, the first selected, and one closed before. -/
def threeAndOne : TabManager where
  workspaces    := [.new 1 101 "/", .new 2 102 "/", .new 3 103 "/"]
  selectedIndex := some 0
  closedStack   := [{ workspace := .new 4 104 "/", closedAt := 0, title := "Terminal" }]

/-- `close_others` of the first forgets the other two. -/
theorem close_forgets :
    threeAndOne.Apart ∧
      ((RemoveOp.closeOthers 1).apply 0 threeAndOne).workspaces.map (·.id) = [1] ∧
      (TabManager.reopenTimes 3 ((RemoveOp.closeOthers 1).apply 0 threeAndOne)).2 = [4] ∧
      ¬ TabManager.Reopenable threeAndOne ((RemoveOp.closeOthers 1).apply 0 threeAndOne) := by
  have hapart : threeAndOne.Apart := by
    unfold TabManager.Apart
    decide
  have hleft : ((RemoveOp.closeOthers 1).apply 0 threeAndOne).workspaces.map (·.id) = [1] := by
    decide
  have hback :
      (TabManager.reopenTimes 3 ((RemoveOp.closeOthers 1).apply 0 threeAndOne)).2 = [4] := by
    decide
  refine ⟨hapart, hleft, hback, ?_⟩
  rintro ⟨⟨order, hperm, heq⟩, _⟩
  -- two workspaces would have to be recorded, and the stack has not grown
  have hlen : order.length = 2 := by
    rw [hperm.length_eq]
    decide
  obtain ⟨a, b, rfl⟩ := List.length_eq_two.mp hlen
  have := congrArg List.length heq
  simp [TabManager.closedWorkspaces, threeAndOne, TabManager.remember, closedStackCap,
    RemoveOp.apply, RemoveOp.listOp, ListOp.apply, TabManager.closeOthers] at this

/-- `remove` of the second records it, and two calls give it and the older one back. -/
theorem closed_can_be_reopened_one :
    TabManager.Reopenable threeAndOne ((RemoveOp.remove 1).apply 0 threeAndOne) :=
  (closed_can_be_reopened (by unfold TabManager.Apart; decide) 0 (.remove 1)).mpr id

example : (TabManager.reopenTimes 2 ((RemoveOp.remove 1).apply 0 threeAndOne)).2 = [2, 4] := by
  decide

end Jmux.Model
