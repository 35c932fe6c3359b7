/-
  Jmux.Socket.TelemetryRuns — where reports get to when panels move.

  `report_git` goes by the workspace that a report names; the other handlers look
  the panel up first.

  Main results:
    * `follows_of_routed` — a report that is routed to its panel follows it.
    * `routed_of_follows` — news reaches the panel in no other way.
    * `telemetry_follows` — both, along every run of moves and reports.
-/
import Jmux.Socket.Telemetry

namespace Jmux.Socket

open Jmux.Lib Jmux.Model

variable {F : Type}

/-! ## §1. What the handlers go by. -/

theorem workspaceOr_eq_ok {tm : TabManager} {wsId : Option Uuid} {message : String}
    {ws : Workspace} :
    workspaceOr tm wsId message = .ok ws ↔ namedOrSelected tm wsId = some ws :=
  orElseReturn_eq_ok

section

variable {env : ReportEnv F} {tm : TabManager} {params : Value F} {panelId : Uuid}

theorem mem_of_namedOrSelected {wsId : Option Uuid} {ws : Workspace}
    (h : namedOrSelected tm wsId = some ws) : ws ∈ tm.workspaces := by
  cases wsId with
  | none => exact mem_of_selected h
  | some id => exact List.mem_of_find?_eq_some h

theorem reportPwd_eq_ok {op : Operation F} :
    handleWorkspaceReportPwd env.toV2Env tm params = .ok op ↔
      ∃ d, strParam "directory" params = some d ∧
        ∃ wsId, parseWorkspaceParam env.toV2Env params = .ok wsId ∧
          ∃ ws, pwdWorkspace tm (lenientPanel env.toV2Env params) wsId = .ok ws ∧
            op = .setDirectory ws.id (lenientPanel env.toV2Env params)
              (truncateStr d maxDirectoryLen) := by
  simp only [handleWorkspaceReportPwd, bind_eq_ok, orElseReturn_eq_ok, pure, Except.pure,
    Except.ok.injEq, eq_comm (a := op)]

theorem reportGit_eq_ok {op : Operation F} :
    handleWorkspaceReportGit env.toV2Env tm params = .ok op ↔
      ∃ wsId, parseWorkspaceParam env.toV2Env params = .ok wsId ∧
        ∃ b, strParam "branch" params = some b ∧
          ∃ ws, namedOrSelected tm wsId = some ws ∧
            op = .setGitBranch ws.id
              (((strParam "surface" params).bind env.parseUuid).filter (· ∈ ws.panels))
              (gitBranchOf b (((params.get "is_dirty").bind Value.asBool).getD false)) := by
  simp only [handleWorkspaceReportGit, bind_eq_ok, orElseReturn_eq_ok, workspaceOr_eq_ok, pure,
    Except.pure, Except.ok.injEq, eq_comm (a := op)]
  rfl

/-- The panel is found, or the focused panel of the selected workspace is it. -/
theorem reportTarget_of_targets (hl : ∀ id, lenientPanel env.toV2Env params = some id → id = panelId)
    {owner : Workspace} (hf : tm.findWorkspaceWithPanel panelId = some owner)
    (h : Targets env tm params panelId) :
    reportTarget tm (lenientPanel env.toV2Env params) = .ok (some panelId) := by
  have hmem : panelId ∈ owner.panels := by simpa using List.find?_some hf
  cases hp : lenientPanel env.toV2Env params with
  | some id =>
      obtain rfl := hl id hp
      simp [reportTarget, hf, hmem, pure, Except.pure]
  | none =>
      rcases h with h | ⟨ws, hs, hfocus, hp'⟩
      · rw [hp] at h
        cases h
      · simp [reportTarget, hs, hfocus, hp', pure, Except.pure]

theorem targets_of_reportTarget
    (h : reportTarget tm (lenientPanel env.toV2Env params) = .ok (some panelId)) :
    Targets env tm params panelId := by
  cases hp : lenientPanel env.toV2Env params with
  | some id => exact .inl (by rw [hp]; rfl)
  | none =>
      rw [hp] at h
      obtain ⟨ws, hws, h⟩ := bind_eq_ok.mp h
      have hfocus := Except.ok.inj h
      rw [Option.none_or, Option.filter_eq_some_iff] at hfocus
      exact .inr ⟨ws, orElseReturn_eq_ok.mp hws, hfocus.1, by simpa using hfocus.2⟩

/-! ## §2. One report. -/

variable {s : Telemetry} {v : Reported}

/-- Whatever is written to the panel alone follows it. -/
theorem follows_putPanel {owner : Workspace} (hf : s.tm.findWorkspaceWithPanel panelId = some owner)
    (v : Reported) : Follows s panelId v (s.putPanel panelId v, okResponse) :=
  ⟨rfl, owner, hf, .panel⟩

theorem ofWorkspace_of_git {kind : ReportKind} (hkind : kind = .pwd ∨ kind = .git)
    (hv : saidByParams env params kind = some v) : v.ofWorkspace = true := by
  rcases hkind with rfl | rfl
  · obtain ⟨_, _, rfl⟩ := Option.map_eq_some_iff.mp hv
    rfl
  · obtain ⟨_, _, rfl⟩ := Option.map_eq_some_iff.mp hv
    rfl

/-- The branches of the two handlers that go by the panel only. -/
theorem finish_onPanel {α : Type} {x : Except Response α} {a : α} (hx : x = .ok a)
    {write : α → Telemetry} (hw : write a = s.putPanel panelId v) {owner : Workspace}
    (hf : s.tm.findWorkspaceWithPanel panelId = some owner) :
    Follows s panelId v (finish s write x) := by
  rw [hx]
  show Follows s panelId v (write a, okResponse)
  rw [hw]
  exact follows_putPanel hf v

/-- **A report that is routed to the panel follows it.** -/
theorem follows_of_routed (hd : DistinctIds s.tm) {kind : ReportKind}
    (hl : ∀ id, lenientPanel env.toV2Env params = some id → id = panelId)
    (hf : (s.tm.findWorkspaceWithPanel panelId).isSome = true)
    (hv : saidByParams env params kind = some v) (h : Routed env s.tm params panelId kind) :
    Follows s panelId v (serveReport env s params kind) := by
  obtain ⟨owner, hf⟩ := Option.isSome_iff_exists.mp hf
  cases kind with
  | pwd =>
      obtain ⟨wsId, hws, h⟩ := h
      have hv' := ofWorkspace_of_git (.inl rfl) hv
      obtain ⟨d, hdir, rfl⟩ := Option.map_eq_some_iff.mp hv
      cases hp : lenientPanel env.toV2Env params with
      | some id =>
          obtain rfl := hl id hp
          have hok : pwdWorkspace s.tm (some id) wsId = .ok owner := orElseReturn_eq_ok.mpr hf
          have hx := reportPwd_eq_ok.mpr ⟨d, hdir, wsId, hws, owner, by rw [hp]; exact hok, rfl⟩
          rw [hp] at hx
          show Follows s id _ (finish s s.perform (handleWorkspaceReportPwd env.toV2Env s.tm params))
          rw [hx]
          refine ⟨rfl, owner, hf, ?_⟩
          show Put s id owner.id _ (if _ then _ else _)
          split
          · exact .both hv'
          · exact .panel
      | none =>
          rcases h with h | ⟨ws, hnamed, hmem⟩
          · rw [hp] at h
            cases h
          · have hok : pwdWorkspace s.tm none wsId = .ok ws := workspaceOr_eq_ok.mpr hnamed
            have hx := reportPwd_eq_ok.mpr ⟨d, hdir, wsId, hws, ws, by rw [hp]; exact hok, rfl⟩
            rw [hp] at hx
            show Follows s panelId _
              (finish s s.perform (handleWorkspaceReportPwd env.toV2Env s.tm params))
            rw [hx]
            exact ⟨rfl, ws, findWorkspaceWithPanel_eq hd (mem_of_namedOrSelected hnamed) hmem,
              .workspace hv'⟩
  | git =>
      obtain ⟨wsId, hws, ws, hnamed, hmem, hsurface⟩ := h
      have hv' := ofWorkspace_of_git (.inr rfl) hv
      obtain ⟨b, hb, rfl⟩ := Option.map_eq_some_iff.mp hv
      show Follows s panelId _ (finish s s.perform (handleWorkspaceReportGit env.toV2Env s.tm params))
      rw [reportGit_eq_ok.mpr ⟨wsId, hws, b, hb, ws, hnamed, rfl⟩]
      refine ⟨rfl, ws, findWorkspaceWithPanel_eq hd (mem_of_namedOrSelected hnamed) hmem, ?_⟩
      cases hs : ((strParam "surface" params).bind env.parseUuid).filter (· ∈ ws.panels) with
      | none => exact .workspace hv'
      | some id =>
          obtain ⟨hid, hin⟩ := Option.filter_eq_some_iff.mp hs
          obtain rfl := hsurface id hid (by simpa using hin)
          exact .both hv'
  | tty =>
      have htarget := reportTarget_of_targets hl hf h
      obtain ⟨t, ht, rfl⟩ := Option.map_eq_some_iff.mp hv
      refine finish_onPanel (a := .setTty panelId (truncateStr t 256)) ?_ rfl hf
      simp [handleWorkspaceReportTty, ht, htarget, pure, Except.pure]
  | ports =>
      have htarget := reportTarget_of_targets hl hf h
      obtain ⟨items, hitems, rfl⟩ := Option.map_eq_some_iff.mp hv
      refine finish_onPanel (a := .setPorts panelId ((items.filterMap portOf).take 256)) ?_ rfl hf
      simp [handleWorkspaceReportPorts, hitems, htarget, pure, Except.pure]
  | agentSession =>
      obtain ⟨hclaude, h⟩ := h
      have htarget := reportTarget_of_targets hl hf h
      obtain ⟨sessionId, hsession, rfl⟩ := Option.map_eq_some_iff.mp hv
      refine finish_onPanel (a := some (panelId, sessionId)) ?_ rfl hf
      simp [handleWorkspaceReportAgentSession, hsession, hclaude, htarget, pure, Except.pure]

/-! ### Only so. -/

theorem finish_cases {α : Type} (s : Telemetry) (write : α → Telemetry) (x : Except Response α) :
    (finish s write x).1 = s ∨ ∃ a, x = .ok a ∧ (finish s write x).1 = write a := by
  cases x with
  | error e => exact .inl rfl
  | ok a => exact .inr ⟨a, rfl, rfl⟩

/-- A workspace without the panel is not the one that holds it. -/
theorem id_ne_of_notMem (hd : DistinctIds tm) {ws : Workspace} (hws : ws ∈ tm.workspaces)
    (hn : panelId ∉ ws.panels) :
    ∀ owner, tm.findWorkspaceWithPanel panelId = some owner → owner.id ≠ ws.id := by
  intro owner hf hid
  have howner : owner = ws :=
    List.inj_on_of_nodup_map hd.workspaceIds (List.mem_of_find?_eq_some hf) hws hid
  have hmem : panelId ∈ owner.panels := by simpa using List.find?_some hf
  exact hn (howner ▸ hmem)

/-- News that reaches the panel through the handlers that go by the panel. -/
theorem targets_of_has (hd : DistinctIds s.tm) {t : Option Uuid}
    (ht : reportTarget s.tm (lenientPanel env.toV2Env params) = .ok t) {w : Reported}
    (hhas : (t.elim s (s.putPanel · w)).Has panelId v) (hnews : ¬ s.Has panelId v) :
    Targets env s.tm params panelId := by
  cases t with
  | none => exact absurd hhas hnews
  | some id =>
      by_cases hid : panelId = id
      · exact targets_of_reportTarget (hid ▸ ht)
      · exact absurd (s.has_of_putPanel hd hid hhas) hnews

/-- The branch of another panel of the same workspace is written as well. -/
theorem not_put_other {owner id : Uuid} {b : Option (String × Bool)} (hne : id ≠ panelId)
    (hpanel : ¬ s.panelBranch id = b) :
    ¬ Put s panelId owner (.gitBranch b)
      ((s.putPanel id (.gitBranch b)).putWorkspace owner (.gitBranch b)) := by
  have hwritten : ((s.putPanel id (.gitBranch b)).putWorkspace owner (.gitBranch b)).panelBranch id
      = b := Function.update_self _ _ _
  have hother : (s.putPanel panelId (.gitBranch b)).panelBranch id = s.panelBranch id :=
    Function.update_of_ne hne _ _
  generalize hs' : (s.putPanel id (.gitBranch b)).putWorkspace owner (.gitBranch b) = s' at hwritten
  intro hput
  cases hput with
  | panel => exact hpanel (hother.symm.trans hwritten)
  | workspace => exact hpanel hwritten
  | both => exact hpanel (hother.symm.trans hwritten)

/-- A directory that is news to the panel got there by the panel or by its workspace. -/
theorem routed_pwd (hd : DistinctIds s.tm) (hnew : ¬ s.Has panelId v)
    (hhas : (serveReport env s params .pwd).1.Has panelId v) :
    Routed env s.tm params panelId .pwd := by
  rcases finish_cases s s.perform (handleWorkspaceReportPwd env.toV2Env s.tm params) with
    hsame | ⟨op, hok, hwrite⟩
  · exact absurd (hsame ▸ hhas) hnew
  · obtain ⟨d, -, wsId, hws, ws, hpwd, rfl⟩ := reportPwd_eq_ok.mp hok
    refine ⟨wsId, hws, ?_⟩
    cases hp : lenientPanel env.toV2Env params with
    | some id => exact .inl rfl
    | none =>
        rw [hp] at hpwd hwrite
        have hnamed := workspaceOr_eq_ok.mp hpwd
        by_cases hmem : panelId ∈ ws.panels
        · exact .inr ⟨ws, hnamed, hmem⟩
        · have hserved : (serveReport env s params .pwd).1
              = s.putWorkspace ws.id (.directory (truncateStr d maxDirectoryLen)) := hwrite
          rw [hserved] at hhas
          have hne := id_ne_of_notMem hd (mem_of_namedOrSelected hnamed) hmem
          exact absurd (s.has_of_putWorkspace hd hne hhas) hnew

/-- A branch that is news got there by the workspace that the report names. -/
theorem routed_git (hd : DistinctIds s.tm) (hv : saidByParams env params .git = some v)
    (hnews : ∀ id, id = panelId ∨ (strParam "surface" params).bind env.parseUuid = some id →
      ¬ s.Has id v)
    (h : Follows s panelId v (serveReport env s params .git)) :
    Routed env s.tm params panelId .git := by
  obtain ⟨-, owner, hf, hput⟩ := h
  have hhas := Telemetry.has_of_put hd hf hput
  have hnew := hnews panelId (.inl rfl)
  rcases finish_cases s s.perform (handleWorkspaceReportGit env.toV2Env s.tm params) with
    hsame | ⟨op, hok, hwrite⟩
  · exact absurd (hsame ▸ hhas) hnew
  · obtain ⟨wsId, hws, b, hb, ws, hnamed, rfl⟩ := reportGit_eq_ok.mp hok
    have hv' : v = .gitBranch (gitBranchOf b (((params.get "is_dirty").bind Value.asBool).getD
        false)) := by
      obtain ⟨b', hb', rfl⟩ := Option.map_eq_some_iff.mp hv
      rw [Option.some.inj (hb.symm.trans hb')]
    subst hv'
    have hws' := mem_of_namedOrSelected hnamed
    generalize gitBranchOf b (((params.get "is_dirty").bind Value.asBool).getD false) = branch
      at hwrite hput hhas hnew hnews
    have hserved : (serveReport env s params .git).1 = _ := hwrite
    by_cases hmem : panelId ∈ ws.panels
    · refine ⟨wsId, hws, ws, hnamed, hmem, fun id hid hin => ?_⟩
      by_contra hne
      have hfilter : ((strParam "surface" params).bind env.parseUuid).filter (· ∈ ws.panels)
          = some id := Option.filter_eq_some_iff.mpr ⟨hid, by simpa using hin⟩
      rw [hfilter] at hserved
      obtain rfl : owner = ws :=
        Option.some.inj (hf.symm.trans (findWorkspaceWithPanel_eq hd hws' hmem))
      rw [hserved] at hput
      exact not_put_other hne (fun hb => hnews id (.inr hid) (.inl hb)) hput
    · have hne := id_ne_of_notMem hd hws' hmem
      cases hs : ((strParam "surface" params).bind env.parseUuid).filter (· ∈ ws.panels) with
      | none =>
          rw [hs] at hserved
          rw [hserved] at hhas
          exact absurd (s.has_of_putWorkspace hd hne (w := .gitBranch branch) hhas) hnew
      | some id =>
          rw [hs] at hserved
          rw [hserved] at hhas
          have hin : id ∈ ws.panels := by simpa using (Option.filter_eq_some_iff.mp hs).2
          have hid : panelId ≠ id := fun h => hmem (h ▸ hin)
          have hone : (s.putPanel id (.gitBranch branch)).Has panelId (.gitBranch branch) :=
            Telemetry.has_of_putWorkspace (w := .gitBranch branch)
              (s := s.putPanel id (.gitBranch branch)) hd hne hhas
          exact absurd (s.has_of_putPanel hd hid hone) hnew

/-- **News reaches the panel in no other way.** -/
theorem routed_of_follows (hd : DistinctIds s.tm) {kind : ReportKind}
    (hv : saidByParams env params kind = some v)
    (hnews : ∀ id, id = panelId ∨ (strParam "surface" params).bind env.parseUuid = some id →
      ¬ s.Has id v)
    (h : Follows s panelId v (serveReport env s params kind)) :
    Routed env s.tm params panelId kind := by
  obtain ⟨hanswer, owner, hf, hput⟩ := h
  have hhas := Telemetry.has_of_put hd hf hput
  have hnew := hnews panelId (.inl rfl)
  cases kind with
  | pwd => exact routed_pwd hd hnew hhas
  | git => exact routed_git hd hv hnews ⟨hanswer, owner, hf, hput⟩
  | tty =>
      rcases finish_cases s s.perform (handleWorkspaceReportTty env.toV2Env s.tm params) with
        hsame | ⟨op, hok, hwrite⟩
      · exact absurd (hsame ▸ hhas) hnew
      · obtain ⟨name, -, hok⟩ := bind_eq_ok.mp hok
        obtain ⟨t, ht, hok⟩ := bind_eq_ok.mp hok
        refine targets_of_has (w := .tty (truncateStr name 256)) hd ht ?_ hnew
        rw [← Except.ok.inj hok] at hwrite
        rw [show (serveReport env s params .tty).1 = _ from hwrite] at hhas
        cases t <;> exact hhas
  | ports =>
      rcases finish_cases s s.perform (handleWorkspaceReportPorts env.toV2Env s.tm params) with
        hsame | ⟨op, hok, hwrite⟩
      · exact absurd (hsame ▸ hhas) hnew
      · obtain ⟨items, -, hok⟩ := bind_eq_ok.mp hok
        obtain ⟨t, ht, hok⟩ := bind_eq_ok.mp hok
        refine targets_of_has (w := .ports ((items.filterMap portOf).take 256)) hd ht ?_ hnew
        rw [← Except.ok.inj hok] at hwrite
        rw [show (serveReport env s params .ports).1 = _ from hwrite] at hhas
        cases t <;> exact hhas
  | agentSession =>
      rcases finish_cases s (fun write => write.elim s fun w => s.putPanel w.1 (.agentSession w.2))
        (handleWorkspaceReportAgentSession env s.tm params) with hsame | ⟨write, hok, hwrite⟩
      · exact absurd (hsame ▸ hhas) hnew
      · obtain ⟨sessionId, -, hok⟩ := bind_eq_ok.mp hok
        by_cases hclaude : isClaude params = true
        · rw [if_pos hclaude] at hok
          obtain ⟨t, ht, hok⟩ := bind_eq_ok.mp hok
          refine ⟨hclaude, targets_of_has (w := .agentSession sessionId) hd ht ?_ hnew⟩
          rw [← Except.ok.inj hok] at hwrite
          rw [show (serveReport env s params .agentSession).1 = _ from hwrite] at hhas
          cases t <;> exact hhas
        · rw [if_neg hclaude] at hok
          rw [← Except.ok.inj hok] at hwrite
          rw [show (serveReport env s params .agentSession).1 = s from hwrite] at hhas
          exact absurd hhas hnew

end

/-! ## §3. Both protocols. -/

section

variable {env : ReportEnv F} {s : Telemetry} {v : Reported} {panelId : Uuid}

/-- What the first of two can be read as is what the two can be read as. -/
theorem or_bind_of_bind_or {α β : Type} {a b : Option α} {f : α → Option β} {x y : β}
    (h : (a.or b).bind f = some x) (hc : (a.bind f).or (b.bind f) = some y) : x = y := by
  cases a with
  | none =>
      simp only [Option.none_or, Option.bind_none] at h hc
      exact Option.some.inj (h.symm.trans hc)
  | some a =>
      simp only [Option.some_or, Option.bind_some] at h hc
      rw [h, Option.some_or] at hc
      exact Option.some.inj hc

/-- The panel of a line, in the request that becomes of it. -/
theorem lenientPanel_line (env : ReportEnv F) (command : ReportCommand) (line : V1Line) :
    lenientPanel env.toV2Env ((Report.v1 command line).params env) = line.panelId.bind env.parseUuid ∨
      lenientPanel env.toV2Env ((Report.v1 command line).params env) = none := by
  have hpanel : ∀ fields : List (String × Value F),
      Value.get "panel" (.obj fields) = none → Value.get "surface" (.obj fields) = none →
        lenientPanel env.toV2Env (.obj (fields ++ line.target)) = line.panelId.bind env.parseUuid := by
    intro fields hp hs
    have hp' : Value.get "panel" (.obj (fields ++ line.target (F := F))) = none := by
      simp [hp, V1Line.target, V1Line.inWorkspace, V1Line.onPanel]
    have hs' : Value.get "surface" (.obj (fields ++ line.target)) = line.panelId.map (.str (F := F)) := by
      simp [hs, V1Line.target, V1Line.inWorkspace, V1Line.onPanel]
    rw [lenientPanel, eitherParam, hp', hs', Option.none_or, Value.bind_asStr_map_str]
  cases command with
  | reportPwd => exact .inl (hpanel _ (by simp) (by simp))
  | reportGitBranch => exact .inl (hpanel _ (by simp) (by simp))
  | clearGitBranch =>
      right
      simp [Report.params, ReportCommand.command, V1Command.build, request, Dispatched.params,
        lenientPanel, eitherParam]
  | reportTty => exact .inl (hpanel _ (by simp) (by simp))
  | reportPorts =>
      right
      simp [Report.params, ReportCommand.command, V1Command.build, request, Dispatched.params,
        lenientPanel, eitherParam, V1Line.inWorkspace]
  | reportAgentSession => exact .inl (hpanel _ (by simp) (by simp))

theorem lenientPanel_of_carries {r : Report F} (hc : r.carries env = some panelId) :
    ∀ id, lenientPanel env.toV2Env (r.params env) = some id → id = panelId := by
  intro id h
  cases r with
  | v2 kind params =>
      unfold lenientPanel eitherParam at h
      rw [Option.bind_assoc] at h
      refine or_bind_of_bind_or h (f := fun v : Value F => v.asStr.bind env.parseUuid) ?_
      have hc : ((strParam "panel" params).bind env.parseUuid).or
        ((strParam "surface" params).bind env.parseUuid) = some panelId := hc
      unfold strParam at hc
      rwa [Option.bind_assoc, Option.bind_assoc] at hc
  | v1 command line =>
      rcases lenientPanel_line env command line with hline | hline
      · rw [hline] at h
        exact or_bind_of_bind_or h hc
      · rw [hline] at h
        cases h

/-- The method of a report. -/
def ReportKind.method : ReportKind → V2Method
  | .pwd => .workspaceReportPwd
  | .git => .workspaceReportGitBranch
  | .tty => .workspaceReportTty
  | .ports => .workspaceReportPorts
  | .agentSession => .workspaceReportAgentSession

/-- **A routed report follows its panel**, over either protocol. -/
theorem Report.follows_of_routed (hd : DistinctIds s.tm) {r : Report F}
    (hc : r.carries env = some panelId) (hf : (s.tm.findWorkspaceWithPanel panelId).isSome = true)
    (h : r.Routed env s.tm panelId v) : Follows s panelId v (r.serve env s) :=
  Socket.follows_of_routed hd (lenientPanel_of_carries hc) hf h.1 h.2

/-- The request that becomes of a line says what the line says, unless it is about ports. -/
theorem saidByParams_line (env : ReportEnv F) (command : ReportCommand) (line : V1Line)
    (hports : command ≠ .reportPorts) :
    saidByParams env ((Report.v1 command line).params env) command.kind
      = saidByLine env line command := by
  cases command with
  | reportPorts => exact absurd rfl hports
  | clearGitBranch =>
      simp [Report.params, ReportCommand.command, V1Command.build, request, Dispatched.params,
        ReportCommand.kind, saidByParams, saidByLine, strParam, gitBranchOf, Value.asStr]
  | reportPwd | reportGitBranch | reportTty | reportAgentSession =>
      simp [Report.params, ReportCommand.command, V1Command.build, request, Dispatched.params,
        ReportCommand.kind, saidByParams, saidByLine, strParam, sessionIdParam, V1Line.target,
        V1Line.inWorkspace, V1Line.onPanel, Value.asStr, Value.asBool]

/-- The ports of a line are sent as texts, of which the handler takes none. -/
theorem saidByParams_reportPorts (env : ReportEnv F) (line : V1Line) :
    saidByParams env ((Report.v1 .reportPorts line).params env) .ports = some (.ports []) := by
  have hitems : (Value.get "ports" ((Report.v1 .reportPorts line).params env)).bind Value.asArray
      = some (line.args.map (.str (F := F))) := by
    simp [Report.params, ReportCommand.command, V1Command.build, request, Dispatched.params,
      V1Line.inWorkspace, Value.asArray]
  have hnone : (line.args.map (.str (F := F))).filterMap portOf = [] := by
    refine List.filterMap_eq_nil_iff.mpr fun v hv => ?_
    obtain ⟨a, -, rfl⟩ := List.mem_map.mp hv
    rfl
  rw [saidByParams, hitems, Option.map_some, hnone]
  rfl

/-- Other ports than the handler writes are not there afterwards. -/
theorem ports_eq_of_follows (hd : DistinctIds s.tm) {params : Value F} {ports told : List Nat}
    (hv : saidByParams env params .ports = some (.ports told)) (hnew : ¬ s.Has panelId (.ports ports))
    (h : Follows s panelId (.ports ports) (serveReport env s params .ports)) : ports = told := by
  obtain ⟨-, owner, hf, hput⟩ := h
  have hhas := Telemetry.has_of_put hd hf hput
  rcases finish_cases s s.perform (handleWorkspaceReportPorts env.toV2Env s.tm params) with
    hsame | ⟨op, hok, hwrite⟩
  · exact absurd (hsame ▸ hhas) hnew
  · obtain ⟨items, hitems, hok⟩ := bind_eq_ok.mp hok
    obtain ⟨t, ht, hok⟩ := bind_eq_ok.mp hok
    rw [← Except.ok.inj hok] at hwrite
    rw [show (serveReport env s params .ports).1 = _ from hwrite] at hhas
    rw [saidByParams, orElseReturn_eq_ok.mp hitems, Option.map_some] at hv
    cases t with
    | none => exact absurd hhas hnew
    | some id =>
        by_cases hid : panelId = id
        · subst hid
          rcases hhas with hhas | ⟨ws, -, hhas⟩
          · have hwritten : (s.putPanel panelId (.ports ((items.filterMap portOf).take 256))).panelPorts
                panelId = _ := Function.update_self _ _ _
            exact (hhas.symm.trans hwritten).trans (Reported.ports.inj (Option.some.inj hv))
          · exact hhas.elim
        · have hhas : (s.putPanel id (.ports ((items.filterMap portOf).take 256))).Has panelId
              (.ports ports) := hhas
          exact absurd (s.has_of_putPanel hd hid hhas) hnew

/-- **News that follows its panel has been routed to it**, over either protocol. -/
theorem Report.routed_of_follows (hd : DistinctIds s.tm) {r : Report F} (hsaid : r.said env = some v)
    (hnews : r.News env s panelId v) (h : Follows s panelId v (r.serve env s)) :
    r.Routed env s.tm panelId v := by
  have hv : saidByParams env (r.params env) r.kind = some v := by
    cases r with
    | v2 kind params => exact hsaid
    | v1 command line =>
        by_cases hports : command = .reportPorts
        · subst hports
          obtain rfl : Reported.ports _ = v := Option.some.inj hsaid
          have hnone := saidByParams_reportPorts env line
          have heq := ports_eq_of_follows hd hnone (hnews panelId (.inl rfl)) h
          rw [heq]
          exact hnone
        · exact (saidByParams_line env command line hports).trans hsaid
  exact ⟨hv, Socket.routed_of_follows hd hv hnews h⟩

end

/-! ## §4. Runs. -/

/-- A panel moves to another workspace, or a report arrives. -/
inductive TelemetryStep (F : Type)
  | move (now : Nat) (request : MoveRequest)
  | report (r : Report F)

def TelemetryStep.apply (env : ReportEnv F) (s : Telemetry) : TelemetryStep F → Telemetry
  | move now request => { s with tm := (request.serve now s.tm).1 }
  | report r => (r.serve env s).1

/-- The state after the steps, one after another. -/
def Telemetry.run (env : ReportEnv F) (s : Telemetry) (steps : List (TelemetryStep F)) : Telemetry :=
  steps.foldl (TelemetryStep.apply env) s

variable {env : ReportEnv F} {s : Telemetry}

theorem serveReport_distinct (hd : DistinctIds s.tm) (params : Value F) (kind : ReportKind) :
    DistinctIds (serveReport env s params kind).1.tm := by
  have hfinish : ∀ {α : Type} (write : α → Telemetry) (x : Except Response α),
      (∀ a, DistinctIds (write a).tm) → DistinctIds (finish s write x).1.tm := by
    intro α write x hwrite
    rcases finish_cases s write x with h | ⟨a, -, h⟩
    · rw [h]
      exact hd
    · rw [h]
      exact hwrite a
  cases kind with
  | pwd => exact hfinish _ _ (Telemetry.perform_distinct hd)
  | git => exact hfinish _ _ (Telemetry.perform_distinct hd)
  | tty => exact hfinish _ _ (Telemetry.perform_distinct hd)
  | ports => exact hfinish _ _ (Telemetry.perform_distinct hd)
  | agentSession =>
      refine hfinish _ _ fun write => ?_
      cases write with
      | none => exact hd
      | some w => exact Telemetry.putPanel_distinct hd w.1 (.agentSession w.2)

theorem apply_distinct (hd : DistinctIds s.tm) (step : TelemetryStep F) :
    DistinctIds (step.apply env s).tm := by
  cases step with
  | move now request => exact serve_distinct hd now request
  | report r => exact serveReport_distinct hd _ _

theorem run_distinct (hd : DistinctIds s.tm) (steps : List (TelemetryStep F)) :
    DistinctIds (s.run env steps).tm := by
  induction steps generalizing s with
  | nil => exact hd
  | cons step steps ih => exact ih (apply_distinct hd step)

/-- **Telemetry follows the panel**: at every point of every run of moves and reports, a
report that carries the id of a panel is written to that panel or to the workspace that
holds it by then and nowhere else, if it is routed to the panel; if it is news, only
then. -/
theorem telemetry_follows (env : ReportEnv F) {s₀ s : Telemetry} (hd : DistinctIds s₀.tm)
    {steps : List (TelemetryStep F)} (hrun : s₀.run env steps = s) {r : Report F} {panelId : Uuid}
    {v : Reported} (hc : r.carries env = some panelId) (hsaid : r.said env = some v)
    (hf : (s.tm.findWorkspaceWithPanel panelId).isSome = true) :
    (r.Routed env s.tm panelId v → Follows s panelId v (r.serve env s)) ∧
      (r.News env s panelId v →
        (Follows s panelId v (r.serve env s) ↔ r.Routed env s.tm panelId v)) := by
  have hd' : DistinctIds s.tm := hrun ▸ run_distinct hd steps
  have hforth : r.Routed env s.tm panelId v → Follows s panelId v (r.serve env s) :=
    fun h => Report.follows_of_routed hd' hc hf h
  exact ⟨hforth, fun hnews => ⟨Report.routed_of_follows hd' hsaid hnews, hforth⟩⟩

/-! ## §5. A panel that has moved. -/

def sampleReportEnv : ReportEnv Int where
  floats    := { parse := fun s => Str.parseI64 s.toList, isFinite := fun _ => true, ofInt := id }
  parse     := fun _ => none
  parseUuid := fun s =>
    if s = "00000000-0000-0000-0000-000000000001" then some 1
    else if s = "00000000-0000-0000-0000-00000000000a" then some 10
    else none
  reread    := id
  uuidText  := fun _ => "00000000-0000-0000-0000-000000000001"

/-- Panels 1 and 3 in workspace 10, panel 2 in workspace 20. -/
def startedIn : Telemetry where
  tm :=
    { workspaces    := [(Workspace.new 10 1 "/").insertPanel (.newTerminal 3) .horizontal,
        .new 20 2 "/"]
      selectedIndex := some 0 }

theorem startedIn_distinct : DistinctIds startedIn.tm where
  workspaceIds := by decide
  panelIds     := by decide
  keyed ws hws := by
    rcases List.mem_cons.mp hws with rfl | hws
    · exact (Workspace.new_wellFormed 10 1 "/").keyed.insert (.newTerminal 3)
    · obtain rfl := List.mem_singleton.mp hws
      exact (Workspace.new_wellFormed 20 2 "/").keyed

/-- Panel 1 moves to workspace 20. -/
def movedAway : Telemetry := startedIn.run sampleReportEnv [.move 0 (.movePanelToWorkspace 1 20)]

/-- What the shell of panel 1 reports: its panel, and the workspace it was started in. -/
def fromShell (key : String) (value : String) : Value Int :=
  .obj [("workspace", .str "00000000-0000-0000-0000-00000000000a"),
    ("surface", .str "00000000-0000-0000-0000-000000000001"), (key, .str value)]

/-- The directory gets to the panel. -/
theorem telemetry_follows_moved :
    Follows movedAway 1 (.directory "/src")
      ((Report.v2 .pwd (fromShell "directory" "/src")).serve sampleReportEnv movedAway) := by
  have hmoved : startedIn.run sampleReportEnv [.move 0 (.movePanelToWorkspace 1 20)] = movedAway :=
    rfl
  refine (telemetry_follows sampleReportEnv startedIn_distinct hmoved ?_ ?_ ?_).1 ⟨?_, ?_⟩
  · decide
  · decide
  · decide
  · decide
  · exact ⟨some 10, by rfl, .inl (by decide)⟩

/-- The branch gets to the workspace that the panel has left. -/
theorem telemetry_left_behind :
    let report := Report.v2 .git (fromShell "branch" "main")
    let served := report.serve sampleReportEnv movedAway
    DistinctIds startedIn.tm ∧ report.carries sampleReportEnv = some 1 ∧
      report.said sampleReportEnv = some (.gitBranch (some ("main", false))) ∧
      (movedAway.tm.findWorkspaceWithPanel 1).map (·.id) = some 20 ∧
      served.1.workspaceBranch 10 = some ("main", false) ∧ served.1.workspaceBranch 20 = none ∧
      served.1.panelBranch 1 = none ∧
      ¬ Follows movedAway 1 (.gitBranch (some ("main", false))) served := by
  intro report served
  have hfound : (movedAway.tm.findWorkspaceWithPanel 1).map (·.id) = some 20 := by decide
  have hws : served.1.workspaceBranch 20 = none := by decide
  have hpanel : served.1.panelBranch 1 = none := by decide
  refine ⟨startedIn_distinct, by decide, by decide, hfound, by decide, hws, hpanel, ?_⟩
  rintro ⟨-, owner, hf, hput⟩
  have hid : owner.id = 20 := by
    rw [hf] at hfound
    exact Option.some.inj hfound
  have hnone : ∀ ws, served.1.tm.findWorkspaceWithPanel 1 = some ws → ws.id = 20 := by
    intro ws hws'
    have h : served.1.tm = movedAway.tm := rfl
    rw [h, hf] at hws'
    exact Option.some.inj hws' ▸ hid
  rcases Telemetry.has_of_put (run_distinct startedIn_distinct _) hf hput with h | ⟨ws, hws', h⟩
  · cases hpanel.symm.trans h
  · have h : served.1.workspaceBranch ws.id = _ := h
    rw [hnone ws hws', hws] at h
    cases h

end Jmux.Socket
