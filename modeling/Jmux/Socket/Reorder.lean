/-
  Jmux.Socket.Reorder — `workspace.reorder_workspaces`
  (`handle_workspace_reorder_workspaces` in `socket/v2/workspace.rs`).

  The names of a request are texts; what is no text in its list is not read.  A
  text that is a number is an index, any other one a title.

  Main results:
    * `moveWorkspace_selected`   — a move keeps the selected workspace selected.
    * `reorderWorkspaces_spec`   — the loop brings the workspaces into the order.
    * `reorder_exact`            — what a request makes of any list of workspaces.
-/
import Jmux.Lib.PlaceInOrder
import Jmux.Socket.WorkspaceAction

namespace Jmux.Socket

open Jmux.Lib Jmux.Model

variable {F : Type}

/-! ## §1. The handler. -/

/-- The workspace at the index, or the first one with the title. -/
def namedWorkspace (tm : TabManager) (name : String) : Option Workspace :=
  match Str.parseUsize name.toList with
  | some idx => tm.workspaces[idx]?
  | none => tm.workspaces.find? (·.displayTitle = name)

/-- One round of the loop that resolves the names. -/
def resolveName (tm : TabManager) (name : String) : Except Response Uuid :=
  match Str.parseUsize name.toList with
  | some idx =>
      match tm.workspaces[idx]? with
      | some ws => .ok ws.id
      | none => .error (notFound s!"No workspace at index {idx}")
  | none =>
      match tm.workspaces.find? (·.displayTitle = name) with
      | some ws => .ok ws.id
      | none => .error (notFound s!"No workspace named '{name}'")

/-- The manager afterwards, and the order that the answer lists. -/
def handleWorkspaceReorderWorkspaces (params : Value F) (tm : TabManager) :
    TabManager × Except Response (List Uuid) :=
  match (params.get "workspaces").bind Value.asArray with
  | none => (tm, .error (invalidParams "Provide 'workspaces' array of names"))
  | some items =>
      let names := items.filterMap Value.asStr
      if names = [] then (tm, .error (invalidParams "'workspaces' array must not be empty"))
      else
        match names.mapM (resolveName tm) with
        | .error e => (tm, .error e)
        | .ok targetIds =>
            (reorderWorkspaces tm targetIds,
              .ok (targetIds ++ tm.workspaces.map (·.id)).eraseDups)

/-- The texts of the list that a request gives. -/
def requestedNames (params : Value F) : List String :=
  (((params.get "workspaces").bind Value.asArray).getD []).filterMap Value.asStr

/-! ## §2. The names. -/

theorem resolveName_eq_ok {tm : TabManager} {name : String} {id : Uuid} :
    resolveName tm name = .ok id ↔ (namedWorkspace tm name).map (·.id) = some id := by
  unfold resolveName namedWorkspace
  cases Str.parseUsize name.toList with
  | some idx =>
      dsimp only
      cases tm.workspaces[idx]? with
      | none => simp
      | some ws => simp
  | none =>
      dsimp only
      cases tm.workspaces.find? (·.displayTitle = name) with
      | none => simp
      | some ws => simp

theorem resolveName_eq_error {tm : TabManager} {name : String} {e : Response}
    (h : resolveName tm name = .error e) : e.isError = true ∧ namedWorkspace tm name = none := by
  unfold resolveName at h
  unfold namedWorkspace
  cases hidx : Str.parseUsize name.toList with
  | some idx =>
      rw [hidx] at h
      dsimp only at h ⊢
      cases hws : tm.workspaces[idx]? with
      | none =>
          rw [hws] at h
          cases h
          exact ⟨rfl, rfl⟩
      | some ws =>
          rw [hws] at h
          cases h
  | none =>
      rw [hidx] at h
      dsimp only at h ⊢
      cases hws : tm.workspaces.find? (·.displayTitle = name) with
      | none =>
          rw [hws] at h
          cases h
          exact ⟨rfl, rfl⟩
      | some ws =>
          rw [hws] at h
          cases h

/-- All names or an error. -/
theorem mapM_resolveName_eq_ok {tm : TabManager} {names : List String} {ids : List Uuid} :
    names.mapM (resolveName tm) = .ok ids ↔
      ∃ requested : List Workspace, names.map (namedWorkspace tm) = requested.map some ∧
        requested.map (·.id) = ids := by
  induction names generalizing ids with
  | nil =>
      rw [List.mapM_nil]
      constructor
      · intro h
        cases h
        exact ⟨[], rfl, rfl⟩
      · rintro ⟨requested, h, rfl⟩
        obtain rfl := List.map_eq_nil_iff.mp h.symm
        rfl
  | cons name names ih =>
      rw [List.mapM_cons]
      constructor
      · intro h
        obtain ⟨id, hid, h⟩ := bind_eq_ok.mp h
        obtain ⟨rest, hrest, h⟩ := bind_eq_ok.mp h
        obtain ⟨ws, hws, rfl⟩ := Option.map_eq_some_iff.mp (resolveName_eq_ok.mp hid)
        obtain ⟨requested, hnames, rfl⟩ := ih.mp hrest
        refine ⟨ws :: requested, ?_, Except.ok.inj h⟩
        rw [List.map_cons, List.map_cons, hws, hnames]
      · rintro ⟨requested, hnames, rfl⟩
        cases requested with
        | nil => cases hnames
        | cons ws requested =>
            obtain ⟨hws, hrest⟩ := List.cons.inj hnames
            refine bind_eq_ok.mpr ⟨ws.id, resolveName_eq_ok.mpr (by rw [hws]; rfl), ?_⟩
            exact bind_eq_ok.mpr ⟨requested.map (·.id), ih.mpr ⟨requested, hrest, rfl⟩, rfl⟩

/-- A name that stands for no workspace. -/
theorem mapM_resolveName_eq_error {tm : TabManager} {names : List String} {e : Response}
    (h : names.mapM (resolveName tm) = .error e) :
    e.isError = true ∧ ∃ name ∈ names, namedWorkspace tm name = none := by
  induction names with
  | nil => cases h
  | cons name names ih =>
      rw [List.mapM_cons] at h
      cases hname : resolveName tm name with
      | error e' =>
          rw [hname] at h
          obtain rfl : e' = e := Except.error.inj h
          obtain ⟨herr, hnone⟩ := resolveName_eq_error hname
          exact ⟨herr, name, List.mem_cons_self, hnone⟩
      | ok id =>
          rw [hname, ok_bind] at h
          cases hrest : names.mapM (resolveName tm) with
          | error e' =>
              rw [hrest] at h
              obtain rfl : e' = e := Except.error.inj h
              obtain ⟨herr, other, hmem, hnone⟩ := ih hrest
              exact ⟨herr, other, List.mem_cons_of_mem name hmem, hnone⟩
          | ok ids =>
              rw [hrest] at h
              cases h

theorem namedWorkspace_mem {tm : TabManager} {name : String} {ws : Workspace}
    (h : namedWorkspace tm name = some ws) : ws ∈ tm.workspaces := by
  unfold namedWorkspace at h
  split at h
  · exact List.mem_of_getElem? h
  · exact List.mem_of_find?_eq_some h

theorem requested_subset {tm : TabManager} {names : List String} {requested : List Workspace}
    (h : names.map (namedWorkspace tm) = requested.map some) : requested ⊆ tm.workspaces := by
  intro ws hws
  have hmem : some ws ∈ names.map (namedWorkspace tm) := h ▸ List.mem_map_of_mem hws
  obtain ⟨name, -, hname⟩ := List.mem_map.mp hmem
  exact namedWorkspace_mem hname

/-! ## §3. The loop. -/

/-- **A move keeps the selected workspace selected**, if one is. -/
theorem moveWorkspace_selected (tm : TabManager) (fromIdx toIdx : Nat) :
    (tm.moveWorkspace fromIdx toIdx).1.selected = tm.selected := by
  unfold TabManager.moveWorkspace
  cases hws : tm.workspaces[fromIdx]? with
  | none => rfl
  | some ws =>
      dsimp only
      split
      · rfl
      · next hmove =>
          have hto : toIdx < tm.workspaces.length := by omega
          unfold TabManager.selected
          cases tm.selectedIndex with
          | none => rfl
          | some sel => exact getElem?_move hws hto

/-- Only the order and the index of the selected workspace change. -/
theorem moveWorkspace_frame (tm : TabManager) (fromIdx toIdx : Nat) :
    (tm.moveWorkspace fromIdx toIdx).1 =
      { tm with
        workspaces    := (tm.moveWorkspace fromIdx toIdx).1.workspaces
        selectedIndex := (tm.moveWorkspace fromIdx toIdx).1.selectedIndex } := by
  unfold TabManager.moveWorkspace
  split
  · rfl
  · split
    · rfl
    · rfl

/-- One round of the loop. -/
def placeWorkspace (tm : TabManager) (id : Uuid) (desired : Nat) : TabManager :=
  match tm.workspaceIndex id with
  | some currentIdx =>
      if currentIdx ≠ desired then (tm.moveWorkspace currentIdx desired).1 else tm
  | none => tm

theorem placeWorkspace_workspaces (tm : TabManager) (id : Uuid) (desired : Nat) :
    (placeWorkspace tm id desired).workspaces = place (·.id) tm.workspaces id desired := by
  unfold placeWorkspace place TabManager.workspaceIndex
  cases tm.workspaces.findIdx? (·.id = id) with
  | none => rfl
  | some currentIdx =>
      dsimp only
      split
      · exact TabManager.moveWorkspace_workspaces tm currentIdx desired
      · rfl

/-- What a round keeps. -/
structure SameButOrder (tm tm' : TabManager) : Prop where
  selected : tm'.selected = tm.selected
  frame    : tm' = { tm with workspaces := tm'.workspaces, selectedIndex := tm'.selectedIndex }

theorem placeWorkspace_same (tm : TabManager) (id : Uuid) (desired : Nat) :
    SameButOrder tm (placeWorkspace tm id desired) := by
  unfold placeWorkspace
  split
  · split
    · exact ⟨moveWorkspace_selected tm _ _, moveWorkspace_frame tm _ _⟩
    · exact ⟨rfl, rfl⟩
  · exact ⟨rfl, rfl⟩

theorem SameButOrder.trans {tm tm' tm'' : TabManager} (h : SameButOrder tm tm')
    (h' : SameButOrder tm' tm'') : SameButOrder tm tm'' where
  selected := h'.selected.trans h.selected
  frame := by
    have hframe := h'.frame
    rw [h.frame] at hframe
    exact hframe

theorem placeWorkspaces (entries : List (Uuid × Nat)) (tm : TabManager) :
    (entries.foldl (fun tm entry => placeWorkspace tm entry.1 entry.2) tm).workspaces =
        entries.foldl (fun l entry => place (·.id) l entry.1 entry.2) tm.workspaces ∧
      SameButOrder tm (entries.foldl (fun tm entry => placeWorkspace tm entry.1 entry.2) tm) := by
  induction entries generalizing tm with
  | nil => exact ⟨rfl, rfl, rfl⟩
  | cons entry entries ih =>
      obtain ⟨hws, hsame⟩ := ih (placeWorkspace tm entry.1 entry.2)
      rw [placeWorkspace_workspaces] at hws
      exact ⟨hws, (placeWorkspace_same tm entry.1 entry.2).trans hsame⟩

/-- **The loop** brings the requested workspaces to the front, in the order of the
request, and leaves the others behind them as they stood. -/
theorem reorderWorkspaces_spec {tm : TabManager} (hids : tm.WorkspaceIds) {requested : List Workspace}
    (hsub : requested ⊆ tm.workspaces) :
    (reorderWorkspaces tm (requested.map (·.id))).workspaces = listedFirst requested tm.workspaces ∧
      SameButOrder tm (reorderWorkspaces tm (requested.map (·.id))) := by
  have horder : (requested.map (·.id) ++ tm.workspaces.map (·.id)).eraseDups
      = (listedFirst requested tm.workspaces).map (·.id) := by
    rw [eraseDups_append_all hids, map_listedFirst hids hsub]
  have hperm : (listedFirst requested tm.workspaces).Perm tm.workspaces :=
    listedFirst_perm (List.Nodup.of_map _ hids) hsub
  obtain ⟨hws, hsame⟩ := placeWorkspaces
    (requested.map (·.id) ++ tm.workspaces.map (·.id)).eraseDups.zipIdx tm
  refine ⟨?_, hsame⟩
  rw [horder] at hws
  obtain ⟨hmap, hplaced⟩ := placeAll_map_key (hperm.map fun ws : Workspace => ws.id) hids
  have hlist : (reorderWorkspaces tm (requested.map (·.id))).workspaces
      = placeAll (·.id) tm.workspaces ((listedFirst requested tm.workspaces).map (·.id)) 0 := by
    rw [← horder] at hws ⊢
    exact hws
  rw [hlist]
  exact eq_of_map_key_eq hids hplaced.subset hperm.subset hmap

/-! ## §4. The request. -/

/-- The requested workspaces are in front, the others as they stood behind them, none is
lost or doubled, the same one is selected, and the answer lists the order. -/
structure Reordered (tm : TabManager) (requested : List Workspace)
    (served : TabManager × Except Response (List Uuid)) : Prop where
  order     : served.1.workspaces = requested.eraseDups ++ tm.workspaces.filter (· ∉ requested)
  conserved : served.1.workspaces.Perm tm.workspaces
  selected  : served.1.selected = tm.selected
  frame     : served.1 =
    { tm with workspaces := served.1.workspaces, selectedIndex := served.1.selectedIndex }
  answer    : served.2 = .ok (served.1.workspaces.map (·.id))

/-- **Reordering is exact**: a request whose names all stand for workspaces brings these
to the front, and any other one is answered with an error and changes nothing. -/
theorem reorder_exact {tm : TabManager} (hids : tm.WorkspaceIds) (params : Value F) :
    (∃ requested : List Workspace, requested ≠ [] ∧
      (requestedNames params).map (namedWorkspace tm) = requested.map some ∧
      Reordered tm requested (handleWorkspaceReorderWorkspaces params tm)) ∨
    ((requestedNames params = [] ∨
        ∃ name ∈ requestedNames params, namedWorkspace tm name = none) ∧
      ∃ e : Response, e.isError = true ∧
        handleWorkspaceReorderWorkspaces params tm = (tm, .error e)) := by
  unfold handleWorkspaceReorderWorkspaces requestedNames
  cases (params.get "workspaces").bind Value.asArray with
  | none => exact .inr ⟨.inl rfl, _, rfl, rfl⟩
  | some items =>
      rw [Option.getD_some]
      dsimp only
      by_cases hempty : items.filterMap Value.asStr = []
      · rw [if_pos hempty]
        exact .inr ⟨.inl hempty, _, rfl, rfl⟩
      · rw [if_neg hempty]
        cases hids' : (items.filterMap Value.asStr).mapM (resolveName tm) with
        | error e =>
            obtain ⟨herr, hunknown⟩ := mapM_resolveName_eq_error hids'
            exact .inr ⟨.inr hunknown, e, herr, rfl⟩
        | ok targetIds =>
            obtain ⟨requested, hnames, rfl⟩ := mapM_resolveName_eq_ok.mp hids'
            have hsub := requested_subset hnames
            obtain ⟨horder, hsame⟩ := reorderWorkspaces_spec hids hsub
            refine .inl ⟨requested, ?_, hnames, ?_⟩
            · rintro rfl
              exact hempty (List.map_eq_nil_iff.mp hnames)
            · refine ⟨horder, ?_, hsame.selected, hsame.frame, ?_⟩
              · rw [horder]
                exact listedFirst_perm (List.Nodup.of_map _ hids) hsub
              · show Except.ok _ = Except.ok ((reorderWorkspaces tm _).workspaces.map (·.id))
                rw [horder, map_listedFirst hids hsub, eraseDups_append_all hids]

def threeTabs : TabManager where
  workspaces    := [.new 10 1 "/", { Workspace.new 20 2 "/" with customTitle := some "notes" },
    { Workspace.new 30 3 "/" with customTitle := some "build" }]
  selectedIndex := some 1

/-- The third one by its title, the first one by its index, the third one again. -/
def sampleOrder : Value Int := .obj [("workspaces", .arr [.str "build", .str "0", .str "2"])]

theorem threeTabs_ids : threeTabs.WorkspaceIds := by
  show (threeTabs.workspaces.map (·.id)).Nodup
  decide

theorem reorder_exact_three :
    ∃ requested, requested.map (·.id) = [30, 10, 30] ∧
      Reordered threeTabs requested (handleWorkspaceReorderWorkspaces sampleOrder threeTabs) := by
  have hnames : ((requestedNames sampleOrder).map (namedWorkspace threeTabs)).map
      (·.map (·.id)) = [some 30, some 10, some 30] := by decide
  rcases reorder_exact threeTabs_ids sampleOrder with
    ⟨requested, -, hreq, h⟩ | ⟨-, e, -, h⟩
  · refine ⟨requested, ?_, h⟩
    rw [hreq, List.map_map] at hnames
    have hsome : (requested.map (·.id)).map some = [30, 10, 30].map some := by
      rw [List.map_map]
      exact hnames
    exact List.map_injective_iff.mpr (Option.some_injective _) hsome
  · have hok : (handleWorkspaceReorderWorkspaces sampleOrder threeTabs).2.isOk = true := by decide
    rw [h] at hok
    cases hok

end Jmux.Socket
