/-
  Jmux.Socket.V1Place — the calls on a place, from the line to the operation: what
  shells report and notifications.

  Main results:
    * `handleNotificationCreate_eq` — a notification is for the place that is given.
    * `settled_reportGitBranch`, `settled_reportPr` — without the workspace the branch
                             and the request go to the selected one.
    * `settled_reportPorts` — ports are read as numbers but sent as texts.
-/
import Jmux.Socket.V1Serve

namespace Jmux.Socket

open Jmux.Lib Jmux.Model

variable {F : Type} {env : V2Env F} {tm : TabManager} {op : Operation F} {args : List String}
  {o : Options}

/-! ## §1. A place and its parameters. -/

namespace Located

variable {tab panel : Option String} {ws : Workspace} {p wsId : Option Uuid}
  (h : Located env tm tab panel ws p wsId)

include h

/-- The panel is in the workspace of the place. -/
theorem filter_panels : p.filter (· ∈ ws.panels) = p := by
  cases p with
  | none => rfl
  | some q =>
      have howner : tm.workspaces.find? (fun w => decide (q ∈ w.panels)) = some ws := h.owner q rfl
      exact if_pos (List.find?_some howner)

theorem pwdWorkspace_eq : pwdWorkspace tm p wsId = .ok ws := by
  cases p with
  | none => exact h.workspace rfl _
  | some q =>
      show orElseReturn _ (tm.findWorkspaceWithPanel q) = _
      rw [h.owner q rfl]
      rfl

/-- With a workspace that is named, or without a panel, the workspace is found. -/
theorem workspaceOr_eq (hnamed : wsId ≠ none ∨ p = none) (message : String) :
    workspaceOr tm wsId message = .ok ws := by
  cases p with
  | none => exact h.workspace rfl message
  | some q =>
      cases wsId with
      | none => exact (hnamed.elim (· rfl) (nomatch ·)).elim
      | some id =>
          show orElseReturn _ (tm.workspace id) = _
          rw [show tm.workspace id = some ws from h.named q rfl]
          rfl

theorem panel_eq_none : panel = none ↔ p = none := by
  cases panel with
  | none => exact iff_of_true rfl (parses_none h.panel)
  | some s =>
      obtain ⟨u, rfl, _⟩ := parses_some h.panel
      exact iff_of_false (Option.some_ne_none _) (Option.some_ne_none _)

theorem tab_eq_none : tab = none ↔ wsId = none := by
  cases tab with
  | none => exact iff_of_true rfl (parses_none h.tab)
  | some s =>
      obtain ⟨u, rfl, _⟩ := parses_some h.tab
      exact iff_of_false (Option.some_ne_none _) (Option.some_ne_none _)

/-- A notification is for the workspace of the place, or for one with its id. -/
theorem notificationTarget_eq : ∃ target, notificationTarget tm wsId p = .ok target ∧
    target.id = ws.id ∧ p.filter (· ∈ target.panels) = p := by
  cases wsId with
  | some id =>
      have hfound : workspaceOr tm (some id) "Workspace not found" = .ok ws :=
        h.workspaceOr_eq (.inl (Option.some_ne_none _)) _
      exact ⟨ws, hfound, rfl, h.filter_panels⟩
  | none =>
      cases p with
      | some q =>
          refine ⟨ws, ?_, rfl, h.filter_panels⟩
          show orElseReturn _ (((tm.findWorkspaceWithPanel q).map (·.id)).bind tm.workspace) = _
          rw [h.owner q rfl, Option.map_some, Option.bind_some,
            show tm.workspace ws.id = some ws from h.named q rfl]
          rfl
      | none =>
          have hselected : tm.selected = some ws := by
            have hor : orElseReturn _ tm.selected = .ok ws := h.workspace rfl ""
            cases hs : tm.selected with
            | none => rw [hs] at hor; cases hor
            | some s => rw [hs] at hor; cases hor; rfl
          have hmem : ws ∈ tm.workspaces := by
            obtain ⟨i, _, hi⟩ := Option.bind_eq_some_iff.mp hselected
            exact List.mem_of_getElem? hi
          -- another workspace may have the same id and come first
          cases hfind : tm.workspace ws.id with
          | none =>
              exact absurd rfl (of_decide_eq_false
                (Bool.eq_false_iff.mpr (List.find?_eq_none.mp hfind ws hmem)))
          | some target =>
              have hid : decide (target.id = ws.id) = true :=
                @List.find?_some Workspace (fun w => decide (w.id = ws.id)) target _ hfind
              refine ⟨target, ?_, of_decide_eq_true hid, rfl⟩
              show orElseReturn _ (tm.selectedId.bind tm.workspace) = _
              unfold TabManager.selectedId
              rw [hselected, Option.map_some, Option.bind_some, hfind]
              rfl

end Located

/-! ## §2. Notifications. -/

theorem handleNotificationCreate_eq {place : Option (Workspace × Option Uuid)}
    {tab panel : Option String} (hplace : place = placeOf env tm tab panel)
    {title : String} {body : Option String} (hnames : notifyAt place title body = some op)
    {params : Value F} (htitle : strParam "title" params = some title)
    (hbody : strParam "body" params = some (body.getD ""))
    (htab : eitherParam "workspace" "workspace_id" params = tab.map .str)
    (hpanel : eitherParam "surface" "panel" params = panel.map .str)
    (hdesktop : params.get "send_desktop" = none) :
    handleNotificationCreate env tm params = .ok op := by
  obtain ⟨⟨ws, p⟩, hws, h⟩ := Option.bind_eq_some_iff.mp hnames
  obtain ⟨⟨hfits, hbodyFits⟩, h⟩ := Option.ite_none_right_eq_some.mp h
  cases h
  obtain ⟨wsId, hloc⟩ := placeOf_spec (hplace ▸ hws)
  obtain ⟨target, htarget, hid, hfilter⟩ := hloc.notificationTarget_eq
  unfold handleNotificationCreate
  dsimp only
  rw [htitle, hbody, hdesktop, parseWorkspaceParam_eq hloc.tab htab, ok_bind,
    panelOrNull_eq hloc.panel hpanel, ok_bind, htarget, ok_bind, hid, hfilter, Option.getD_some,
    Option.getD_some, truncateStr_self hfits, truncateStr_self hbodyFits]
  rfl

theorem settled_notify (hop : V1Call.intended env tm ⟨.notify, args, o⟩ = some op) :
    Settled env tm ⟨.notify, args, o⟩ op := by
  dsimp only [V1Call.intended] at hop
  obtain ⟨title, hargs, h⟩ := oneOrTwo_some hop
  refine settled_of_agrees rfl not_false fun l hl => ?_
  show some (handleNotificationCreate env tm (.obj _)) = _
  have htitle : l.arg 0 "" = title := by rw [hl.arg, hargs]; rfl
  rw [htitle, show l.arg 1 "" = args[1]?.getD "" from hl.arg 1 "", hl.target]
  refine congrArg some (handleNotificationCreate_eq rfl h ?_ ?_ ?_ ?_ ?_)
  all_goals simp [strParam, eitherParam, Value.asStr]

theorem settled_notifySurface
    (hop : V1Call.intended env tm ⟨.notifySurface, args, o⟩ = some op) :
    Settled env tm ⟨.notifySurface, args, o⟩ op := by
  dsimp only [V1Call.intended] at hop
  cases args with
  | nil => cases hop
  | cons id rest =>
      obtain ⟨title, hrest, h⟩ := oneOrTwo_some hop
      refine settled_of_agrees rfl not_false fun l hl => ?_
      show some (handleNotificationCreate env tm (.obj _)) = _
      have htitle : l.arg 1 "" = title := by
        rw [hl.arg]
        show (rest[0]?).getD "" = title
        rw [hrest]
        rfl
      rw [show l.arg 0 "" = id from hl.arg 0 "", htitle,
        show l.arg 2 "" = rest[1]?.getD "" from hl.arg 2 ""]
      refine congrArg some (handleNotificationCreate_eq rfl h ?_ ?_ ?_ ?_ ?_)
      all_goals simp [strParam, eitherParam, Value.asStr]

theorem settled_notifyTarget (hop : V1Call.intended env tm ⟨.notifyTarget, args, o⟩ = some op) :
    Settled env tm ⟨.notifyTarget, args, o⟩ op := by
  dsimp only [V1Call.intended] at hop
  match args, hop with
  | ws :: id :: rest, hop =>
      obtain ⟨title, hrest, h⟩ := oneOrTwo_some hop
      refine settled_of_agrees rfl not_false fun l hl => ?_
      show some (handleNotificationCreate env tm (.obj _)) = _
      have htitle : l.arg 2 "" = title := by
        rw [hl.arg]
        show (rest[0]?).getD "" = title
        rw [hrest]
        rfl
      rw [show l.arg 0 "" = ws from hl.arg 0 "", show l.arg 1 "" = id from hl.arg 1 "", htitle,
        show l.arg 3 "" = rest[1]?.getD "" from hl.arg 3 ""]
      refine congrArg some (handleNotificationCreate_eq rfl h ?_ ?_ ?_ ?_ ?_)
      all_goals simp [strParam, eitherParam, Value.asStr]

/-! ## §3. Reports. -/

theorem settled_reportPwd (hop : V1Call.intended env tm ⟨.reportPwd, args, o⟩ = some op) :
    Settled env tm ⟨.reportPwd, args, o⟩ op := by
  dsimp only [V1Call.intended] at hop
  obtain ⟨dir, rfl, h⟩ := oneArg_some hop
  obtain ⟨⟨ws, p⟩, hplace, h⟩ := Option.bind_eq_some_iff.mp h
  obtain ⟨hfits, h⟩ := Option.ite_none_right_eq_some.mp h
  cases h
  obtain ⟨wsId, hloc⟩ := placeOf_spec hplace
  refine settled_of_agrees rfl not_false fun l hl => ?_
  show some (handleWorkspaceReportPwd env tm (.obj _)) = _
  rw [show l.arg 0 "" = dir from hl.arg 0 "", hl.target]
  generalize hp : Value.obj _ = params
  have hdir : strParam "directory" params = some dir := by simp [← hp, strParam, Value.asStr]
  have hpanel : lenientPanel env params = p :=
    lenientPanel_eq hloc.panel (by simp [← hp, eitherParam])
  have hid : parseWorkspaceParam env params = .ok wsId :=
    parseWorkspaceParam_eq hloc.tab (by simp [← hp, eitherParam])
  unfold handleWorkspaceReportPwd
  rw [hdir, orElseReturn_some, ok_bind, hpanel, hid, ok_bind, hloc.pwdWorkspace_eq, ok_bind,
    truncateStr_self hfits]
  rfl

theorem branch_eq {l : V1Line} {c : V1Call} (hl : Parsed l c) {branch : String}
    (hargs : c.args = [branch]) : l.branch = branchOf branch := by
  have harg : l.arg 0 "" = branch := by rw [hl.arg, hargs]; rfl
  have hstatus : l.flags.get "status" = none := hl.flags "status"
  unfold V1Line.branch branchOf
  rw [harg, hstatus]
  rfl

theorem settled_reportGitBranch
    (hop : V1Call.intended env tm ⟨.reportGitBranch, args, o⟩ = some op) :
    Settled env tm ⟨.reportGitBranch, args, o⟩ op := by
  dsimp only [V1Call.intended] at hop
  obtain ⟨branch, rfl, h⟩ := oneArg_some hop
  obtain ⟨⟨ws, p⟩, hplace, h⟩ := Option.bind_eq_some_iff.mp h
  obtain ⟨⟨hnonempty, hfits⟩, h⟩ := Option.ite_none_right_eq_some.mp h
  cases h
  obtain ⟨wsId, hloc⟩ := placeOf_spec hplace
  have hdiffers : V1Call.Differs env tm ⟨.reportGitBranch, [branch], o⟩ ↔ wsId = none ∧
      ∃ q, p = some q ∧ ∀ s, tm.selected = some s → s.id = ws.id → q ∉ s.panels := by
    show (o.tab = none ∧ ∃ ws' q, placeOf env tm o.tab o.panel = some (ws', some q) ∧ _) ↔ _
    rw [show placeOf env tm o.tab o.panel = some (ws, p) from hplace, hloc.tab_eq_none]
    simp
  refine settled_of_answer rfl fun l hl => ?_
  rw [hdiffers]
  show some (handleWorkspaceReportGit env tm (.obj _)) = _ ↔ _
  rw [branch_eq hl rfl, hl.target]
  generalize hp : Value.obj _ = params
  have hid : parseWorkspaceParam env params = .ok wsId :=
    parseWorkspaceParam_eq hloc.tab (by simp [← hp, eitherParam])
  have hdirty : params.get "is_dirty" = some (.bool (branchOf branch).2) := by simp [← hp]
  have hbranch : strParam "branch" params = some (branchOf branch).1 := by
    simp [← hp, strParam, Value.asStr]
  have hsurface : (strParam "surface" params).bind env.parseUuid = p := by
    rw [show strParam "surface" params = o.panel by simp [← hp, strParam]]
    exact parses_bind hloc.panel
  unfold handleWorkspaceReportGit
  dsimp only
  rw [hid, ok_bind, hdirty, hbranch, orElseReturn_some, ok_bind, hsurface, if_neg hnonempty,
    truncateStr_self hfits]
  cases p with
  | none =>
      rw [hloc.workspaceOr_eq (.inr rfl)]
      exact iff_of_true rfl (by simp)
  | some q =>
      cases wsId with
      | some id =>
          rw [hloc.workspaceOr_eq (.inl (Option.some_ne_none _)), ok_bind, hloc.filter_panels]
          exact iff_of_true rfl (by simp)
      | none =>
          -- the handler is left with the selected workspace
          show some (orElseReturn _ tm.selected >>= _) = _ ↔ _
          cases tm.selected with
          | none =>
              exact iff_of_false (fun h => by cases h)
                fun h => h ⟨rfl, q, rfl, fun s hs => by cases hs⟩
          | some s =>
              constructor
              · rintro h ⟨-, q', hq, hall⟩
                cases hq
                obtain ⟨hid, hfilter, _⟩ :=
                  Operation.setGitBranch.inj (Except.ok.inj (Option.some.inj h))
                exact hall s rfl hid (of_decide_eq_true (Option.filter_eq_some_iff.mp hfilter).2)
              · intro h
                have hboth : s.id = ws.id ∧ q ∈ s.panels := by
                  by_contra hne
                  refine h ⟨rfl, q, rfl, fun s' hs' hid hmem => ?_⟩
                  cases hs'
                  exact hne ⟨hid, hmem⟩
                have hfilter : (some q).filter (· ∈ s.panels) = some q :=
                  if_pos (decide_eq_true hboth.2)
                rw [orElseReturn_some, ok_bind, hfilter, hboth.1]
                rfl

theorem settled_clearGitBranch
    (hop : V1Call.intended env tm ⟨.clearGitBranch, args, o⟩ = some op) :
    Settled env tm ⟨.clearGitBranch, args, o⟩ op := by
  dsimp only [V1Call.intended] at hop
  obtain ⟨_, h⟩ := noArgs_some hop
  obtain ⟨⟨ws, p⟩, hplace, rfl⟩ := Option.map_eq_some_iff.mp h
  obtain ⟨wsId, hloc⟩ := placeOf_spec hplace
  refine settled_of_answer rfl fun l hl => ?_
  show some (handleWorkspaceReportGit env tm (.obj [("branch", .str ""),
    ("workspace", (l.workspaceId.map .str).getD .null)])) = _ ↔ ¬ (o.panel ≠ none)
  rw [show l.workspaceId = o.tab from hl.workspaceId]
  generalize hp : Value.obj _ = params
  have hid : parseWorkspaceParam env params = .ok wsId := by
    have htab : Parses env o.tab wsId := hloc.tab
    cases htext : o.tab with
    | none =>
        -- a `null` is no workspace
        rw [htext] at htab
        rw [parses_none htab, ← hp, htext]
        unfold parseWorkspaceParam
        rw [show eitherParam "workspace" "workspace_id" (.obj [("branch", .str ""),
          ("workspace", ((none : Option String).map Value.str).getD .null)] : Value F)
          = some .null by simp [eitherParam]]
    | some t => exact parseWorkspaceParam_eq htab (by simp [← hp, eitherParam, htext])
  have hbranch : strParam "branch" params = some "" := by simp [← hp, strParam, Value.asStr]
  have hsurface : strParam "surface" params = none := by simp [← hp, strParam]
  unfold handleWorkspaceReportGit
  dsimp only
  rw [hid, ok_bind, hbranch, orElseReturn_some, ok_bind, hsurface, if_pos rfl, not_not,
    show o.panel = none ↔ p = none from hloc.panel_eq_none]
  cases p with
  | none =>
      rw [hloc.workspaceOr_eq (.inr rfl)]
      exact iff_of_true rfl rfl
  | some q =>
      refine iff_of_false (fun h => ?_) (Option.some_ne_none q)
      cases hws : workspaceOr tm wsId "Workspace not found" with
      | error r => rw [hws] at h; cases h
      | ok s =>
          rw [hws] at h
          obtain ⟨_, hpanel, _⟩ := Operation.setGitBranch.inj (Except.ok.inj (Option.some.inj h))
          cases hpanel

theorem settled_reportPr (hop : V1Call.intended env tm ⟨.reportPr, args, o⟩ = some op) :
    Settled env tm ⟨.reportPr, args, o⟩ op := by
  dsimp only [V1Call.intended] at hop
  obtain ⟨status, hargs, h⟩ := oneOrTwo_some hop
  obtain ⟨⟨ws, p⟩, hplace, h⟩ := Option.bind_eq_some_iff.mp h
  obtain ⟨⟨hfits, hurlFits⟩, h⟩ := Option.ite_none_right_eq_some.mp h
  cases h
  obtain ⟨wsId, hloc⟩ := placeOf_spec hplace
  have hdiffers : V1Call.Differs env tm ⟨.reportPr, args, o⟩
      ↔ wsId = none ∧ p ≠ none ∧ some ws.id ≠ tm.selectedId := by
    show (o.tab = none ∧ o.panel ≠ none ∧ (placeOf env tm o.tab o.panel).map (·.1.id) ≠ _) ↔ _
    rw [show placeOf env tm o.tab o.panel = some (ws, p) from hplace, hloc.tab_eq_none,
      show o.panel ≠ none ↔ p ≠ none from not_congr hloc.panel_eq_none]
    rfl
  refine settled_of_answer rfl fun l hl => ?_
  rw [hdiffers]
  show some (handleWorkspaceReportPr env tm (.obj _)) = _ ↔ _
  have hstatus : (l.flags.get "state").getD (l.arg 0 "") = status := by
    rw [show l.flags.get "state" = none from hl.flags "state", hl.arg, hargs]
    rfl
  rw [hstatus, show l.args = args from hl.args, hl.target]
  generalize hp : Value.obj _ = params
  have hid : parseWorkspaceParam env params = .ok wsId :=
    parseWorkspaceParam_eq hloc.tab (by simp [← hp, eitherParam])
  have hs : strParam "status" params = some status := by simp [← hp, strParam, Value.asStr]
  have hu : strParam "url" params = args[1]? := by simp [← hp, strParam]
  unfold handleWorkspaceReportPr
  rw [hid, ok_bind, hs, hu, Option.map_some, truncateStr_self hfits, map_truncateStr_self hurlFits]
  by_cases hnamed : wsId ≠ none ∨ p = none
  · rw [hloc.workspaceOr_eq hnamed]
    exact iff_of_true rfl fun h => hnamed.elim (· h.1) h.2.1
  · obtain ⟨hws, hpanel⟩ := not_or.mp hnamed
    obtain rfl := not_not.mp hws
    have hselected := @selected_iff F tm ws
      (fun s => pure (.setPr s.id (some status) args[1]?)) (.setPr · (some status) args[1]?)
      (fun _ => rfl) (fun h => (Operation.setPr.inj h).1) (notFound "No workspace")
    rw [Option.some.injEq, show (¬ (none = none ∧ p ≠ none ∧ some ws.id ≠ tm.selectedId))
      ↔ some ws.id = tm.selectedId by simp [hpanel]]
    exact hselected

/-! ## §4. Reports on a tab. -/

/-- The handler writes to the panel that is given, or to the tab of the selected
workspace. -/
theorem Located.reportTarget_eq {tab panel : Option String} {ws : Workspace} {q : Uuid}
    {wsId : Option Uuid} (h : Located env tm tab panel ws (some q) wsId) :
    reportTarget tm (some q) = .ok (tabOf (ws, some q)) := by
  unfold reportTarget
  dsimp only
  rw [h.owner q rfl]
  rfl

theorem reportTarget_none_iff {named : Uuid → Operation F} (hop : op ≠ .nothing) :
    (reportTarget tm none >>= fun target => pure (match target with
      | some panel => named panel
      | none => .nothing)) = .ok op ↔
    ∃ target, (tm.selected.bind fun ws => tabOf (ws, none)) = some target ∧ named target = op := by
  unfold reportTarget
  cases tm.selected with
  | none =>
      refine iff_of_false (fun h => by cases h) ?_
      rintro ⟨target, h, _⟩
      cases h
  | some ws =>
      show Except.ok (match tabOf (ws, none) with
        | some panel => named panel
        | none => .nothing) = _ ↔ ∃ target, tabOf (ws, none) = some target ∧ _
      cases tabOf (ws, none) with
      | none =>
          refine iff_of_false (fun h => hop (Except.ok.inj h).symm) ?_
          rintro ⟨target, h, _⟩
          cases h
      | some panel => simp

theorem settled_reportTty (hop : V1Call.intended env tm ⟨.reportTty, args, o⟩ = some op) :
    Settled env tm ⟨.reportTty, args, o⟩ op := by
  dsimp only [V1Call.intended] at hop
  obtain ⟨tty, rfl, h⟩ := oneArg_some hop
  obtain ⟨target, htarget, h⟩ := Option.bind_eq_some_iff.mp h
  obtain ⟨hfits, h⟩ := Option.ite_none_right_eq_some.mp h
  cases h
  obtain ⟨⟨ws, p⟩, hplace, htab⟩ := Option.bind_eq_some_iff.mp htarget
  obtain ⟨wsId, hloc⟩ := placeOf_spec hplace
  have hdiffers : V1Call.Differs env tm ⟨.reportTty, [tty], o⟩ ↔ p = none ∧
      some target ≠ tm.selected.bind fun ws => tabOf (ws, none) := by
    show (o.panel = none ∧ (placeOf env tm o.tab o.panel).bind tabOf ≠ _) ↔ _
    rw [show (placeOf env tm o.tab o.panel).bind tabOf = some target from htarget,
      show o.panel = none ↔ p = none from hloc.panel_eq_none]
  refine settled_of_answer rfl fun l hl => ?_
  rw [hdiffers]
  show some (handleWorkspaceReportTty env tm (.obj _)) = _ ↔ _
  rw [show l.arg 0 "" = tty from hl.arg 0 "", hl.target, Option.some.injEq]
  generalize hp : Value.obj _ = params
  have hread : strParam "tty" params = some tty := by simp [← hp, strParam, Value.asStr]
  have hpanel : lenientPanel env params = p :=
    lenientPanel_eq hloc.panel (by simp [← hp, eitherParam])
  unfold handleWorkspaceReportTty
  rw [hread, orElseReturn_some, ok_bind, hpanel, truncateStr_self hfits]
  cases p with
  | some q =>
      rw [hloc.reportTarget_eq, ok_bind, htab]
      exact iff_of_true rfl fun h => by cases h.1
  | none =>
      refine (@reportTarget_none_iff F tm (.setTty target tty) (.setTty · tty)
        fun h => by cases h).trans ?_
      rw [not_and, not_not]
      constructor
      · rintro ⟨t, ht, h⟩ -
        rw [ht, (Operation.setTty.inj h).1]
      · intro h
        exact ⟨target, (h rfl).symm, rfl⟩

/-- The ports are texts, which the handler skips. -/
theorem filterMap_portOf_str (args : List String) :
    (args.map (Value.str (F := F))).filterMap portOf = [] := by
  rw [List.filterMap_map]
  exact List.filterMap_eq_nil_iff.mpr fun _ _ => rfl

theorem settled_reportPorts (hop : V1Call.intended env tm ⟨.reportPorts, args, o⟩ = some op) :
    Settled env tm ⟨.reportPorts, args, o⟩ op := by
  dsimp only [V1Call.intended] at hop
  obtain ⟨ports, hports, h⟩ := Option.bind_eq_some_iff.mp hop
  obtain ⟨target, htarget, h⟩ := Option.bind_eq_some_iff.mp h
  obtain ⟨hfits, h⟩ := Option.ite_none_right_eq_some.mp h
  cases h
  have hempty : args = [] ↔ ports = [] := by
    cases args with
    | nil =>
        cases hports
        exact iff_of_true rfl rfl
    | cons a as =>
        rw [List.mapM_cons] at hports
        obtain ⟨port, _, hports⟩ := Option.bind_eq_some_iff.mp hports
        obtain ⟨rest, _, hports⟩ := Option.bind_eq_some_iff.mp hports
        cases hports
        exact iff_of_false (List.cons_ne_nil a as) (List.cons_ne_nil port rest)
  refine settled_of_answer rfl fun l hl => ?_
  show some (handleWorkspaceReportPorts env tm (.obj _)) = _
    ↔ ¬ (args ≠ [] ∨ (placeOf env tm o.tab o.panel).bind tabOf ≠ _)
  rw [show (placeOf env tm o.tab o.panel).bind tabOf = some target from htarget,
    show l.args = args from hl.args, hl.inWorkspace, Option.some.injEq]
  generalize hp : Value.obj _ = params
  have hread : (params.get "ports").bind Value.asArray = some (args.map .str) := by
    simp [← hp, Value.asArray]
  have hpanel : lenientPanel env params = none := by simp [← hp, lenientPanel, eitherParam]
  unfold handleWorkspaceReportPorts
  rw [hread, orElseReturn_some, ok_bind, hpanel, filterMap_portOf_str]
  refine (@reportTarget_none_iff F tm (.setPorts target ports) (.setPorts · [])
    fun h => by cases h).trans ?_
  rw [not_or, not_not, not_not, hempty]
  constructor
  · rintro ⟨t, ht, h⟩
    obtain ⟨rfl, hnil⟩ := Operation.setPorts.inj h
    exact ⟨hnil.symm, ht.symm⟩
  · rintro ⟨hnil, hsame⟩
    exact ⟨target, hsame.symm, by rw [hnil]⟩

end Jmux.Socket
