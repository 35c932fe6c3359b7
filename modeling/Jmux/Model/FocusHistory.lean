/-
  Jmux.Model.FocusHistory — back and forward through the workspaces visited.

  The history is a list of workspace ids with a cursor.  `focus_back` and
  `focus_forward` walk the cursor over entries whose workspace is gone until
  `select_by_id` succeeds.  A walk that finds nothing leaves the cursor at the
  end of the history that it ran into.

  Main results:
    * `focusBackFrom_spec`, `focusForwardFrom_spec` — where a walk stops.
    * `navigation_safe_iff` — over every run, navigation is safe exactly when no
      walk runs over dead entries only.
-/
import Jmux.Lib.Transition
import Jmux.Model.Selection

namespace Jmux.Model

open Jmux.Lib

/-! ## §1. The operations of a run. -/

/-- Entries kept in the history. -/
def focusHistoryCap : Nat := 50

/-- The selection becomes the newest entry, unless the cursor is on it already;
what was ahead of the cursor is dropped. -/
def TabManager.recordFocusIfChanged (tm : TabManager) : TabManager :=
  match tm.selectedId with
  | none => tm
  | some id =>
      if tm.focusHistory[tm.focusPos]? = some id then tm
      else
        let pushed := tm.focusHistory.take (tm.focusPos + 1) ++ [id]
        let focusHistory :=
          if pushed.length > focusHistoryCap then pushed.drop (pushed.length - focusHistoryCap)
          else pushed
        { tm with focusHistory, focusPos := focusHistory.length - 1 }

/-- The selects and closes of a tab manager. -/
inductive TabOp
  | select (index : Nat)
  | selectById (id : Uuid)
  | selectNext (wrap : Bool)
  | selectPrevious (wrap : Bool)
  | selectLast
  | remove (index : Nat)
  | removeById (id : Uuid)
  | closePanel (panelId : Uuid)
  | closeOthers (keepId : Uuid)
  | closeAbove (workspaceId : Uuid)
  | closeBelow (workspaceId : Uuid)

def TabOp.apply (now : Nat) (tm : TabManager) : TabOp → TabManager
  | .select index => (tm.select index).1
  | .selectById id => (tm.selectById id).1
  | .selectNext wrap => tm.selectNext wrap
  | .selectPrevious wrap => tm.selectPrevious wrap
  | .selectLast => tm.selectLast
  | .remove index => ((tm.remove now index).map (·.2)).getD tm
  | .removeById id => ((tm.removeById now id).map (·.2)).getD tm
  | .closePanel panelId => (tm.closePanel now panelId).1
  | .closeOthers keepId => (tm.closeOthers keepId).1
  | .closeAbove workspaceId => (tm.closeAbove workspaceId).1
  | .closeBelow workspaceId => (tm.closeBelow workspaceId).1

inductive NavOp
  | tab (now : Nat) (op : TabOp)
  | recordFocusIfChanged
  | focusBack
  | focusForward

/-- Every operation can be called in every state. -/
def navStep (tm : TabManager) : NavOp → Option TabManager
  | .tab now op => some (op.apply now tm)
  | .recordFocusIfChanged => some tm.recordFocusIfChanged
  | .focusBack => some tm.focusBack.1
  | .focusForward => some tm.focusForward.1

namespace TabManager

/-! ## §2. Where a walk stops. -/

/-- The history has an entry there, for a workspace that still exists. -/
def LiveEntry (tm : TabManager) (i : Nat) : Prop :=
  ∃ id, tm.focusHistory[i]? = some id ∧ id ∈ tm.workspaces.map (·.id)

variable {tm tm' : TabManager}

theorem selectById_of_mem {id : Uuid} (h : id ∈ tm.workspaces.map (·.id)) :
    ∃ index, tm.workspaces[index]?.map (·.id) = some id ∧
      tm.selectById id = ({ tm with selectedIndex := some index }, true) := by
  obtain ⟨index, hindex, _, hat⟩ := exists_findIdx? h
  refine ⟨index, hat, ?_⟩
  unfold selectById workspaceIndex
  rw [hindex]

theorem selectById_of_notMem {id : Uuid} (h : id ∉ tm.workspaces.map (·.id)) :
    tm.selectById id = (tm, false) := by
  have hnone : tm.workspaces.findIdx? (·.id = id) = none := by
    rw [List.findIdx?_eq_none_iff]
    intro ws hws
    simp only [decide_eq_false_iff_not]
    intro hid
    exact h (List.mem_map.mpr ⟨ws, hws, hid⟩)
  unfold selectById workspaceIndex
  rw [hnone]

/-- The manager at an entry of its history, with the workspace of that entry selected. -/
structure Visits (tm : TabManager) (p : Nat) (id : Uuid) (walk : TabManager × Option Uuid) :
    Prop where
  entry : tm.focusHistory[p]? = some id
  walk  : ∃ index, tm.workspaces[index]?.map (·.id) = some id ∧
    walk = ({ tm with selectedIndex := some index, focusPos := p }, some id)

theorem Visits.live {p : Nat} {id : Uuid} {walk : TabManager × Option Uuid}
    (h : Visits tm p id walk) : tm.LiveEntry p := by
  obtain ⟨index, hat, _⟩ := h.walk
  obtain ⟨ws, hws, hid⟩ := Option.map_eq_some_iff.mp hat
  exact ⟨id, h.entry, List.mem_map.mpr ⟨ws, List.mem_of_getElem? hws, hid⟩⟩

/-- Walking back stops at the last live entry before the cursor. -/
theorem focusBackFrom_spec (tm : TabManager) (pos : Nat) :
    ((∀ i < pos, ¬ tm.LiveEntry i) ∧ tm.focusBackFrom pos = ({ tm with focusPos := 0 }, none)) ∨
    ∃ p id, p < pos ∧ (∀ i, p < i → i < pos → ¬ tm.LiveEntry i) ∧
      Visits tm p id (tm.focusBackFrom pos) := by
  induction pos with
  | zero =>
      refine .inl ⟨?_, rfl⟩
      intro i hi
      omega
  | succ pos ih =>
      by_cases hlive : tm.LiveEntry pos
      · obtain ⟨id, hentry, hmem⟩ := hlive
        obtain ⟨index, hat, hselect⟩ := selectById_of_mem hmem
        refine .inr ⟨pos, id, Nat.lt_succ_self pos, ?_, hentry, index, hat, ?_⟩
        · intro i hi hlt
          omega
        · unfold focusBackFrom
          rw [hentry]
          dsimp only
          rw [hselect]
      · -- the entry is skipped, or there is none
        have hskip : tm.focusBackFrom (pos + 1) = tm.focusBackFrom pos := by
          rw [focusBackFrom.eq_def]
          dsimp only
          cases hentry : tm.focusHistory[pos]? with
          | none => rfl
          | some id =>
              have hgone : id ∉ tm.workspaces.map (·.id) := fun hmem => hlive ⟨id, hentry, hmem⟩
              dsimp only
              rw [selectById_of_notMem hgone]
        rw [hskip]
        rcases ih with ⟨hnone, hwalk⟩ | ⟨p, id, hp, hbetween, hvisits⟩
        · refine .inl ⟨?_, hwalk⟩
          intro i hi
          by_cases heq : i = pos
          · rw [heq]
            exact hlive
          · exact hnone i (by omega)
        · refine .inr ⟨p, id, by omega, ?_, hvisits⟩
          intro i hi hlt
          by_cases heq : i = pos
          · rw [heq]
            exact hlive
          · exact hbetween i hi (by omega)

/-- Walking forward stops at the first live entry behind the cursor. -/
theorem focusForwardFrom_spec (tm : TabManager) (ahead pos : Nat) :
    ((∀ i, pos < i → i ≤ pos + ahead → ¬ tm.LiveEntry i) ∧
      tm.focusForwardFrom ahead pos = ({ tm with focusPos := pos + ahead }, none)) ∨
    ∃ p id, pos < p ∧ p ≤ pos + ahead ∧ (∀ i, pos < i → i < p → ¬ tm.LiveEntry i) ∧
      Visits tm p id (tm.focusForwardFrom ahead pos) := by
  induction ahead generalizing pos with
  | zero =>
      refine .inl ⟨?_, rfl⟩
      intro i hi hle
      omega
  | succ ahead ih =>
      by_cases hlive : tm.LiveEntry (pos + 1)
      · obtain ⟨id, hentry, hmem⟩ := hlive
        obtain ⟨index, hat, hselect⟩ := selectById_of_mem hmem
        refine .inr ⟨pos + 1, id, by omega, by omega, ?_, hentry, index, hat, ?_⟩
        · intro i hi hlt
          omega
        · unfold focusForwardFrom
          rw [hentry]
          dsimp only
          rw [hselect]
      · have hskip : tm.focusForwardFrom (ahead + 1) pos = tm.focusForwardFrom ahead (pos + 1) := by
          rw [focusForwardFrom.eq_def]
          dsimp only
          cases hentry : tm.focusHistory[pos + 1]? with
          | none => rfl
          | some id =>
              have hgone : id ∉ tm.workspaces.map (·.id) := fun hmem => hlive ⟨id, hentry, hmem⟩
              dsimp only
              rw [selectById_of_notMem hgone]
        rw [hskip]
        rcases ih (pos + 1) with ⟨hnone, hwalk⟩ | ⟨p, id, hp, hle, hbetween, hvisits⟩
        · refine .inl ⟨?_, ?_⟩
          · intro i hi hle
            by_cases heq : i = pos + 1
            · rw [heq]
              exact hlive
            · exact hnone i (by omega) (by omega)
          · rw [hwalk]
            congr 2
            omega
        · refine .inr ⟨p, id, by omega, by omega, ?_, hvisits⟩
          intro i hi hlt
          by_cases heq : i = pos + 1
          · rw [heq]
            exact hlive
          · exact hbetween i (by omega) hlt

/-- The same history and cursor, and no workspace that was not there before. -/
structure Narrows (tm tm' : TabManager) : Prop where
  history : tm'.focusHistory = tm.focusHistory
  pos     : tm'.focusPos = tm.focusPos
  ids     : ∀ id ∈ tm'.workspaces.map (·.id), id ∈ tm.workspaces.map (·.id)

theorem Narrows.refl (tm : TabManager) : Narrows tm tm where
  history := rfl
  pos     := rfl
  ids     := fun _ h => h

theorem Narrows.trans {tm'' : TabManager} (h : Narrows tm tm') (h' : Narrows tm' tm'') :
    Narrows tm tm'' where
  history := h'.history.trans h.history
  pos     := h'.pos.trans h.pos
  ids     := fun id hid => h.ids id (h'.ids id hid)

theorem Narrows.live {i : Nat} (h : Narrows tm tm') (hlive : tm'.LiveEntry i) : tm.LiveEntry i := by
  obtain ⟨id, hentry, hmem⟩ := hlive
  rw [h.history] at hentry
  exact ⟨id, hentry, h.ids id hmem⟩

theorem narrows_of_sublist {workspaces : List Workspace} {selectedIndex : Option Nat}
    {closedStack : List ClosedEntry} (h : workspaces.Sublist tm.workspaces) :
    Narrows tm { tm with workspaces, selectedIndex, closedStack } where
  history := rfl
  pos     := rfl
  ids     := fun _ hid => (h.map _).subset hid

theorem narrows_select (selectedIndex : Option Nat) : Narrows tm { tm with selectedIndex } :=
  narrows_of_sublist (List.Sublist.refl _)

theorem narrows_remove (tm : TabManager) (now index : Nat) :
    Narrows tm (((tm.remove now index).map (·.2)).getD tm) := by
  unfold remove
  cases tm.workspaces[index]? with
  | none => exact Narrows.refl tm
  | some ws => exact narrows_of_sublist (List.eraseIdx_sublist tm.workspaces index)

theorem narrows_removeById (tm : TabManager) (now : Nat) (id : Uuid) :
    Narrows tm (((tm.removeById now id).map (·.2)).getD tm) := by
  unfold removeById
  cases tm.workspaces.findIdx? (·.id = id) with
  | none => exact Narrows.refl tm
  | some index => exact narrows_remove tm now index

theorem narrows_closePanel (tm : TabManager) (now : Nat) (panelId : Uuid) :
    Narrows tm (tm.closePanel now panelId).1 := by
  unfold closePanel
  cases hfound : tm.findWorkspaceWithPanel panelId with
  | none => exact Narrows.refl tm
  | some ws =>
      -- the panel goes first; the workspace keeps its id
      have hedit : Narrows tm { tm with
          workspaces := tm.workspaces.modifyFirst (panelId ∈ ·.panels)
            fun _ => (ws.removePanel panelId).1 } := by
        refine ⟨rfl, rfl, ?_⟩
        intro id hid
        have hids := List.map_modifyFirst_of_found (p := fun ws : Workspace => panelId ∈ ws.panels)
          (f := fun _ => (ws.removePanel panelId).1) (g := (·.id)) (l := tm.workspaces)
          (by
            intro found hsome
            have : found = ws := Option.some.inj (hsome.symm.trans hfound)
            rw [this]
            exact removePanel_id ws panelId)
        rw [hids] at hid
        exact hid
      dsimp only
      split
      · exact hedit.trans (narrows_removeById _ now _)
      · exact hedit

theorem narrows_apply (now : Nat) (op : TabOp) (tm : TabManager) :
    Narrows tm (op.apply now tm) := by
  cases op with
  | select index =>
      show Narrows tm (tm.select index).1
      unfold TabManager.select
      split
      · exact narrows_select _
      · exact Narrows.refl tm
  | selectById id =>
      show Narrows tm (tm.selectById id).1
      unfold TabManager.selectById
      split
      · exact narrows_select _
      · exact Narrows.refl tm
  | selectNext wrap =>
      show Narrows tm (tm.selectNext wrap)
      unfold TabManager.selectNext
      repeat' split
      all_goals first | exact Narrows.refl tm | exact narrows_select _
  | selectPrevious wrap =>
      show Narrows tm (tm.selectPrevious wrap)
      unfold TabManager.selectPrevious
      repeat' split
      all_goals first | exact Narrows.refl tm | exact narrows_select _
  | selectLast =>
      show Narrows tm tm.selectLast
      unfold TabManager.selectLast
      split
      · exact Narrows.refl tm
      · exact narrows_select _
  | remove index => exact narrows_remove tm now index
  | removeById id => exact narrows_removeById tm now id
  | closePanel panelId => exact narrows_closePanel tm now panelId
  | closeOthers keepId => exact narrows_of_sublist (eraseAll_sublist _ _)
  | closeAbove workspaceId =>
      show Narrows tm (tm.closeAbove workspaceId).1
      unfold TabManager.closeAbove
      split
      · exact Narrows.refl tm
      · exact narrows_of_sublist (eraseAll_sublist _ _)
  | closeBelow workspaceId =>
      show Narrows tm (tm.closeBelow workspaceId).1
      unfold TabManager.closeBelow
      split
      · exact Narrows.refl tm
      · exact narrows_of_sublist (eraseAll_sublist _ _)

/-- Selects and closes, each with its time. -/
def runTabs (tm : TabManager) (ops : List (Nat × TabOp)) : TabManager :=
  ops.foldl (fun tm op => op.2.apply op.1 tm) tm

theorem narrows_runTabs (ops : List (Nat × TabOp)) (tm : TabManager) :
    Narrows tm (tm.runTabs ops) := by
  induction ops generalizing tm with
  | nil => exact Narrows.refl tm
  | cons op ops ih => exact (narrows_apply op.1 op.2 tm).trans (ih _)

/-! ## §4. Safe navigation. -/

/-- Back from a selection that the cursor is on, then selects and closes that
leave its workspace alive: forward is that workspace again. -/
def ReturnsForward (tm : TabManager) : Prop :=
  ∀ (id found : Uuid) (ops : List (Nat × TabOp)),
    tm.selectedId = some id → tm.focusHistory[tm.focusPos]? = some id →
    tm.focusBack.2 = some found →
    id ∈ (tm.focusBack.1.runTabs ops).workspaces.map (·.id) →
      (tm.focusBack.1.runTabs ops).focusForward.2 = some id ∧
        (tm.focusBack.1.runTabs ops).focusForward.1.selectedId = some id

def NavSafe (tm : TabManager) : NavOp → Prop
  | .focusBack => (tm.focusBack.2 = none → tm.focusBack.1 = tm) ∧ tm.ReturnsForward
  | .focusForward => tm.focusForward.2 = none → tm.focusForward.1 = tm
  | _ => True

/-- A walk that finds a live entry, or has no entry in its direction at all. -/
def HasWay (tm : TabManager) : NavOp → Prop
  | .focusBack => tm.focusPos = 0 ∨ ∃ i < tm.focusPos, tm.LiveEntry i
  | .focusForward =>
      tm.focusHistory.length ≤ tm.focusPos + 1 ∨ ∃ i, tm.focusPos < i ∧ tm.LiveEntry i
  | _ => True

theorem LiveEntry.lt {i : Nat} (h : tm.LiveEntry i) : i < tm.focusHistory.length := by
  obtain ⟨id, hentry, _⟩ := h
  exact (List.getElem?_eq_some_iff.mp hentry).1

/-- The first live entry behind the cursor is where forward goes. -/
theorem focusForward_visits {q : Nat} {id : Uuid} (hq : tm.focusPos < q)
    (hentry : tm.focusHistory[q]? = some id) (hmem : id ∈ tm.workspaces.map (·.id))
    (hbetween : ∀ i, tm.focusPos < i → i < q → ¬ tm.LiveEntry i) :
    Visits tm q id tm.focusForward := by
  have hlive : tm.LiveEntry q := ⟨id, hentry, hmem⟩
  have hlt := hlive.lt
  rcases focusForwardFrom_spec tm (tm.focusHistory.length - (tm.focusPos + 1)) tm.focusPos with
    ⟨hnone, _⟩ | ⟨p, id', hp, _, hbefore, hvisits⟩
  · exact absurd hlive (hnone q hq (by omega))
  · have hle : q ≤ p := by
      by_contra h
      exact hbetween p hp (by omega) hvisits.live
    have hge : p ≤ q := by
      by_contra h
      exact hbefore q hq (by omega) hlive
    obtain rfl : p = q := by omega
    have hid : id' = id := Option.some.inj (hvisits.entry.symm.trans hentry)
    rw [hid] at hvisits
    exact hvisits

theorem returnsForward (tm : TabManager) : tm.ReturnsForward := by
  intro id found ops _ hcursor hback halive
  rcases focusBackFrom_spec tm tm.focusPos with ⟨_, hwalk⟩ | ⟨p, stop, hp, hbetween, hvisits⟩
  · have : tm.focusBack = ({ tm with focusPos := 0 }, none) := hwalk
    rw [this] at hback
    cases hback
  · obtain ⟨index, _, hwalk⟩ := hvisits.walk
    have hstop : tm.focusBack = ({ tm with selectedIndex := some index, focusPos := p }, some stop) :=
      hwalk
    have hnarrow := narrows_runTabs ops tm.focusBack.1
    rw [hstop] at halive hnarrow ⊢
    have hpos := hnarrow.pos
    -- the entries between were dead, and stay so
    have hforward := focusForward_visits (q := tm.focusPos) (by rw [hpos]; exact hp)
      (by rw [hnarrow.history]; exact hcursor) halive
      (by
        rw [hpos]
        intro i hi hlt hlive
        exact hbetween i hi hlt (hnarrow.live hlive))
    obtain ⟨index', hat, hwalk'⟩ := hforward.walk
    rw [hwalk']
    exact ⟨rfl, hat⟩

theorem focusBack_unchanged_iff (tm : TabManager) :
    (tm.focusBack.2 = none → tm.focusBack.1 = tm) ↔ tm.HasWay .focusBack := by
  rcases focusBackFrom_spec tm tm.focusPos with ⟨hnone, hwalk⟩ | ⟨p, stop, hp, _, hvisits⟩
  · have hback : tm.focusBack = ({ tm with focusPos := 0 }, none) := hwalk
    rw [hback]
    constructor
    · intro h
      exact .inl (congrArg TabManager.focusPos (h rfl)).symm
    · intro h _
      rcases h with h0 | ⟨i, hi, hlive⟩
      · show { tm with focusPos := 0 } = tm
        rw [← h0]
      · exact absurd hlive (hnone i hi)
  · obtain ⟨index, _, hwalk⟩ := hvisits.walk
    have hback : tm.focusBack = ({ tm with selectedIndex := some index, focusPos := p }, some stop) :=
      hwalk
    rw [hback]
    refine iff_of_true ?_ (.inr ⟨p, hp, hvisits.live⟩)
    intro h
    cases h

theorem focusForward_unchanged_iff (tm : TabManager) :
    (tm.focusForward.2 = none → tm.focusForward.1 = tm) ↔ tm.HasWay .focusForward := by
  rcases focusForwardFrom_spec tm (tm.focusHistory.length - (tm.focusPos + 1)) tm.focusPos with
    ⟨hnone, hwalk⟩ | ⟨p, stop, hp, _, _, hvisits⟩
  · have hforward : tm.focusForward = ({ tm with
        focusPos := tm.focusPos + (tm.focusHistory.length - (tm.focusPos + 1)) }, none) := hwalk
    rw [hforward]
    constructor
    · intro h
      have hpos : tm.focusPos + (tm.focusHistory.length - (tm.focusPos + 1)) = tm.focusPos :=
        congrArg TabManager.focusPos (h rfl)
      exact .inl (by omega)
    · intro h _
      rcases h with hend | ⟨i, hi, hlive⟩
      · have hpos : tm.focusPos + (tm.focusHistory.length - (tm.focusPos + 1)) = tm.focusPos := by
          omega
        rw [hpos]
      · have := hlive.lt
        exact absurd hlive (hnone i hi (by omega))
  · obtain ⟨index, _, hwalk⟩ := hvisits.walk
    have hforward : tm.focusForward =
        ({ tm with selectedIndex := some index, focusPos := p }, some stop) := hwalk
    rw [hforward]
    refine iff_of_true ?_ (.inr ⟨p, hp, hvisits.live⟩)
    intro h
    cases h

/-- **Safe navigation.**  Over every run of selects, closes and moves through the
history, a walk without a result changes nothing, and back is undone by forward,
exactly when no walk meets entries in its direction that are all dead. -/
theorem navigation_safe_iff (tm : TabManager) (ops : List NavOp) :
    EveryStep navStep NavSafe tm ops ↔ EveryStep navStep HasWay tm ops := by
  apply everyStep_congr (fun _ => True)
  · intro _ _ _ _ _
    trivial
  · intro tm op _
    cases op with
    | tab now op => exact Iff.rfl
    | recordFocusIfChanged => exact Iff.rfl
    | focusBack =>
        show (_ ∧ tm.ReturnsForward) ↔ _
        rw [focusBack_unchanged_iff]
        exact and_iff_left tm.returnsForward
    | focusForward => exact focusForward_unchanged_iff tm
  · trivial

/-- The first of two workspaces visited is closed: going back finds nothing, and
the cursor is no longer on the selection. -/
theorem not_navigation_safe :
    ¬ ∀ (tm : TabManager) (ops : List NavOp), EveryStep navStep NavSafe tm ops := by
  intro h
  let tm : TabManager :=
    { workspaces := [.new 1 11 "/", .new 2 12 "/"], selectedIndex := some 0 }
  have hrun := h tm [.recordFocusIfChanged, .tab 0 (.selectById 2), .recordFocusIfChanged,
    .tab 0 (.removeById 1), .focusBack]
  have hlast := (hrun.2 _ rfl).2 _ rfl |>.2 _ rfl |>.2 _ rfl |>.1.1
  have hpos := congrArg TabManager.focusPos (hlast (by decide))
  exact absurd hpos (by decide)

end TabManager

end Jmux.Model
