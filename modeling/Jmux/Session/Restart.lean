/-
  Jmux.Session.Restart — a panel over save and restore
  (`enrich_snapshot_with_live_proc` of `session/store.rs` between the capture
  and the restore).

  Main results:
    * `restart_survives_iff`   — which panels come back as they were saved.
    * `resume_respected_iff`   — over any cycles of save and restore, when the
                                  setting that resumes agents is respected.
-/
import Jmux.Lib.Transition
import Jmux.Session.Create
import Jmux.Session.Restore

namespace Jmux.Session

open Jmux.Lib Jmux.Model

/-! ## §1. What `/proc` adds to a snapshot. -/

/-- What the processes of the local panels tell when a session is saved. -/
structure LiveProc where
  cwd           : Uuid → Option String := fun _ => none
  claudeSession : Uuid → Option String := fun _ => none

def enrichPanel (live : LiveProc) (snapshot : SessionPanelSnapshot) : SessionPanelSnapshot :=
  let panel : SessionPanelSnapshot :=
    match live.cwd snapshot.id with
    | some cwd =>
        { snapshot with
          directory := some cwd
          terminal  := snapshot.terminal.map fun t => { t with workingDirectory := some cwd } }
    | none => snapshot
  -- only for a Claude that was not launched through the wrapper
  match panel.agentSessionId, live.claudeSession panel.id with
  | none, some id =>
      { panel with
        agentSessionId     := some id
        agentResumeCommand := some s!"claude --resume {id}" }
  | _, _ => panel

def enrichWorkspace (live : LiveProc) (ws : SessionWorkspaceSnapshot) : SessionWorkspaceSnapshot :=
  { ws with
    panels           := ws.panels.map (enrichPanel live)
    currentDirectory :=
      ((ws.focusedPanelId.bind live.cwd).or (ws.panels.findSome? (live.cwd ·.id))).getD
        ws.currentDirectory }

/-- The closed workspaces are saved as they were captured. -/
def enrichSnapshotWithLiveProc (live : LiveProc) (snapshot : AppSessionSnapshot) :
    AppSessionSnapshot :=
  { snapshot with
    windows := snapshot.windows.map fun w =>
      { w with
        tabManager :=
          { w.tabManager with
            workspaces := w.tabManager.workspaces.map (enrichWorkspace live) } } }

/-! ## §2. One panel. -/

/-- The panel as a session file holds it. -/
def savedPanel (captured : Captured) (live : LiveProc) (panel : Panel) : SessionPanelSnapshot :=
  enrichPanel live (capturePanel captured panel)

/-- The panel that a restart gives back; `none` when the restore skips it. -/
def restartPanel (env : RestoreEnv) (remoteConfig : Option RemoteConfig) (captured : Captured)
    (live : LiveProc) (panel : Panel) : Option Panel :=
  let snapshot := savedPanel captured live panel
  (restoredPanelType env snapshot.panelType).map (restoredPanel env remoteConfig snapshot)

/-- The agent session of the panel: the reported one, or the one that `/proc` gives. -/
def sessionOf (live : LiveProc) (panel : Panel) : Option String :=
  panel.agentSessionId.or (live.claudeSession panel.id)

/-- The command that is saved for the panel's agent. -/
def savedResume (live : LiveProc) (panel : Panel) : Option String :=
  match sessionOf live panel with
  | some id => some s!"claude --resume {id}"
  | none =>
      if panel.panelType = .terminal then detectAgentResumeCommand panel.title panel.command
      else none

section Saved

variable (env : RestoreEnv) (captured : Captured) (live : LiveProc) (panel : Panel)

/-- What the saved panel holds besides what the capture gave it. -/
theorem savedPanel_fields :
    (savedPanel captured live panel).directory = (live.cwd panel.id).or panel.directory ∧
      (savedPanel captured live panel).agentSessionId = sessionOf live panel ∧
      (savedPanel captured live panel).agentResumeCommand = savedResume live panel := by
  have hid : (capturePanel captured panel).id = panel.id := rfl
  unfold savedPanel enrichPanel savedResume sessionOf
  rw [hid]
  cases hcwd : live.cwd panel.id <;> cases hlive : live.claudeSession panel.id <;>
    cases hs : panel.agentSessionId <;>
    simp [hs, hlive, capturePanel, SessionPanelSnapshot.fromPanel]

/-- What it has from the capture as it was. -/
theorem savedPanel_captured :
    (savedPanel captured live panel).id = panel.id ∧
      (savedPanel captured live panel).panelType = panelTypeName panel.panelType ∧
      (savedPanel captured live panel).customTitle = panel.customTitle ∧
      (savedPanel captured live panel).command = panel.command ∧
      (savedPanel captured live panel).browser = (capturePanel captured panel).browser ∧
      (savedPanel captured live panel).markdown = (capturePanel captured panel).markdown := by
  unfold savedPanel enrichPanel
  cases live.cwd (capturePanel captured panel).id <;> dsimp only <;> split <;>
    exact ⟨rfl, rfl, rfl, rfl, rfl, rfl⟩

/-- A build without `webkit` skips browser and markdown panels. -/
def IsRestored (env : RestoreEnv) (panelType : PanelType) : Prop :=
  panelType ≠ .agentMonitor ∧
    (env.webkit = true ∨ (panelType ≠ .browser ∧ panelType ≠ .markdown))

theorem restoredPanelType_of_restored {panelType : PanelType} (h : IsRestored env panelType) :
    restoredPanelType env (panelTypeName panelType) = some panelType := by
  obtain ⟨hmonitor, hweb⟩ := h
  cases panelType <;> simp_all [restoredPanelType, panelTypeName]

theorem restoredPanelType_none {panelType : PanelType} (hm : panelType ≠ .agentMonitor)
    (h : ¬ IsRestored env panelType) :
    restoredPanelType env (panelTypeName panelType) = none := by
  cases panelType <;> simp_all [restoredPanelType, panelTypeName, IsRestored]

end Saved

/-! ## §3. What a restart keeps. -/

/-- The command that the restore puts in place of the panel's own. -/
def resumedAs (env : RestoreEnv) (remoteConfig : Option RemoteConfig) (live : LiveProc)
    (panel : Panel) : Option String :=
  match remoteConfig with
  | some remoteConfig =>
      ((sessionOf live panel).filter fun _ => env.agentRestore.isEnabledFor "claude").map
        (buildRemoteClaudeResume env.shellEscape remoteConfig
          ((live.cwd panel.id).or panel.directory))
  | none => (savedResume live panel).filter env.agentRestore.isEnabledFor

theorem restoredCommand_saved (env : RestoreEnv) (remoteConfig : Option RemoteConfig)
    (captured : Captured) (live : LiveProc) (panel : Panel) :
    restoredCommand env remoteConfig (savedPanel captured live panel)
      = (resumedAs env remoteConfig live panel).or panel.command := by
  have ⟨hdir, hsession, hresume⟩ := savedPanel_fields captured live panel
  have ⟨_, _, _, hcommand, _⟩ := savedPanel_captured captured live panel
  cases remoteConfig with
  | none => simp [restoredCommand, resumedAs, hresume, hcommand]
  | some remoteConfig =>
      simp only [restoredCommand, resumedAs, hsession, hdir, hcommand]
      cases (sessionOf live panel).filter fun _ => env.agentRestore.isEnabledFor "claude" <;> rfl

/-- Same id, type, custom title, directory, file and URL, and the same command
unless the panel runs an agent. -/
structure Survives (before after : Panel) (runsAgent : Bool) : Prop where
  id          : after.id = before.id
  panelType   : after.panelType = before.panelType
  customTitle : after.customTitle = before.customTitle
  directory   : after.directory = before.directory
  file        : after.markdownFile = before.markdownFile
  url         : after.browserUrl = before.browserUrl
  command     : runsAgent = false → after.command = before.command

/-- The condition under which a panel survives a restart. -/
structure Restartable (env : RestoreEnv) (remoteConfig : Option RemoteConfig)
    (captured : Captured) (live : LiveProc) (panel : Panel) (runsAgent : Bool) : Prop where
  restored  : IsRestored env panel.panelType
  /-- Only a markdown panel has a file. -/
  file      : panel.panelType = .markdown ∨ panel.markdownFile = none
  /-- Only a browser has a URL, and its web view is where the panel says. -/
  url       :
    if panel.panelType = .browser then
      ∀ url, captured.browserUrl panel.id = some url → panel.browserUrl = some url
    else panel.browserUrl = none
  /-- The shell is where the panel says. -/
  directory : ∀ cwd, live.cwd panel.id = some cwd → panel.directory = some cwd
  /-- A panel that runs no agent is not taken for one. -/
  command   :
    runsAgent = true ∨
      ∀ command, resumedAs env remoteConfig live panel = some command →
        panel.command = some command

theorem or_eq_right_iff {α : Type*} (a b : Option α) :
    a.or b = b ↔ ∀ x, a = some x → b = some x := by
  cases a with
  | none => simp
  | some x => simp [eq_comm]

section Restored

variable (env : RestoreEnv) (remoteConfig : Option RemoteConfig) (captured : Captured)
  (live : LiveProc) (panel : Panel)

theorem restartPanel_of_restored (hr : IsRestored env panel.panelType) :
    restartPanel env remoteConfig captured live panel =
      some (restoredPanel env remoteConfig (savedPanel captured live panel) panel.panelType) := by
  have ⟨_, htype, _⟩ := savedPanel_captured captured live panel
  simp only [restartPanel, htype, restoredPanelType_of_restored env hr, Option.map_some]

theorem restored_url :
    (restoredPanel env remoteConfig (savedPanel captured live panel) panel.panelType).browserUrl =
      if panel.panelType = .browser then (captured.browserUrl panel.id).or panel.browserUrl
      else none := by
  have ⟨_, _, _, _, hbrowser, _⟩ := savedPanel_captured captured live panel
  simp only [restoredPanel, hbrowser, capturePanel, SessionPanelSnapshot.fromPanel]
  by_cases hb : panel.panelType = .browser <;> simp [hb]

theorem restored_file :
    (restoredPanel env remoteConfig (savedPanel captured live panel) panel.panelType).markdownFile =
      if panel.panelType = .markdown then panel.markdownFile else none := by
  have ⟨_, _, _, _, _, hmarkdown⟩ := savedPanel_captured captured live panel
  simp only [restoredPanel, hmarkdown, capturePanel, SessionPanelSnapshot.fromPanel]
  by_cases hm : panel.panelType = .markdown <;> simp [hm, Function.comp_def]

end Restored

/-- **A panel survives a restart exactly when** it is `Restartable`: the file of a
notes or preview panel is lost, and a title that names an agent starts it. -/
theorem restart_survives_iff (env : RestoreEnv) (remoteConfig : Option RemoteConfig)
    (captured : Captured) (live : LiveProc) (panel : Panel) (runsAgent : Bool)
    (hm : panel.panelType ≠ .agentMonitor) :
    (∃ after, restartPanel env remoteConfig captured live panel = some after ∧
        Survives panel after runsAgent) ↔
      Restartable env remoteConfig captured live panel runsAgent := by
  have ⟨hdir, _, _⟩ := savedPanel_fields captured live panel
  have ⟨hid, htype, htitle, _⟩ := savedPanel_captured captured live panel
  by_cases hr : IsRestored env panel.panelType
  · rw [restartPanel_of_restored env remoteConfig captured live panel hr]
    have hurl := restored_url env remoteConfig captured live panel
    have hfile := restored_file env remoteConfig captured live panel
    have hcommand := restoredCommand_saved env remoteConfig captured live panel
    constructor
    · intro ⟨after, hafter, hs⟩
      obtain rfl := Option.some.inj hafter
      have hs_url := hurl.symm.trans hs.url
      have hs_file := hfile.symm.trans hs.file
      have hs_dir := hdir.symm.trans hs.directory
      refine ⟨hr, ?_, ?_, (or_eq_right_iff _ _).mp hs_dir, ?_⟩
      · by_cases hmd : panel.panelType = .markdown
        · exact .inl hmd
        · rw [if_neg hmd] at hs_file
          exact .inr hs_file.symm
      · by_cases hb : panel.panelType = .browser
        · rw [if_pos hb] at hs_url ⊢
          exact (or_eq_right_iff _ _).mp hs_url
        · rw [if_neg hb] at hs_url ⊢
          exact hs_url.symm
      · cases runsAgent with
        | true => exact .inl rfl
        | false =>
            exact .inr ((or_eq_right_iff _ _).mp (hcommand.symm.trans (hs.command rfl)))
    · intro h
      refine ⟨_, rfl, hid, rfl, htitle, ?_, ?_, ?_, ?_⟩
      · exact hdir.trans ((or_eq_right_iff _ _).mpr h.directory)
      · rw [hfile]
        rcases h.file with hmd | hnone
        · rw [if_pos hmd]
        · rw [hnone, ite_self]
      · have h_url := h.url
        rw [hurl]
        by_cases hb : panel.panelType = .browser
        · rw [if_pos hb] at h_url ⊢
          exact (or_eq_right_iff _ _).mpr h_url
        · rw [if_neg hb] at h_url ⊢
          exact h_url.symm
      · intro hrun
        have h_command := h.command.resolve_left (by simp [hrun])
        exact hcommand.trans ((or_eq_right_iff _ _).mpr h_command)
  · -- the restore skips the panel
    have hnone : restartPanel env remoteConfig captured live panel = none := by
      simp only [restartPanel, htype, restoredPanelType_none env hm hr, Option.map_none]
    rw [hnone]
    constructor
    · intro ⟨after, hafter, _⟩
      cases hafter
    · intro h
      exact absurd h.restored hr

def shellEscapeSample (word : String) : String := word

def sampleEnv : RestoreEnv := { shellEscape := shellEscapeSample }

/-- A shell in its directory comes back. -/
theorem restart_survives_shell :
    ∃ after, restartPanel sampleEnv none {} {}
        { Panel.newTerminal 7 with directory := some "/home/me" } = some after ∧
      Survives { Panel.newTerminal 7 with directory := some "/home/me" } after false :=
  (restart_survives_iff sampleEnv none {} {} _ false (by decide)).mpr
    { restored  := ⟨by decide, .inl rfl⟩
      file      := .inr rfl
      url       := rfl
      directory := by simp
      command   := .inr (by decide) }

/-- A shell that an editor has given a title. -/
def editingPanel : Panel := { Panel.newTerminal 7 with title := some "vim claude.md" }

/-- A notes panel comes back without its file, and the shell as an agent. -/
theorem restart_loses_panel :
    (¬ ∃ after, restartPanel sampleEnv none {} {} (.newNotes 7 "/home/me/todo.txt") = some after ∧
        Survives (.newNotes 7 "/home/me/todo.txt") after false) ∧
      (¬ ∃ after, restartPanel sampleEnv none {} {} editingPanel = some after ∧
        Survives editingPanel after false) := by
  constructor
  · intro ⟨after, hafter, hs⟩
    obtain rfl := Option.some.inj hafter
    exact absurd hs.file (by decide)
  · intro ⟨after, hafter, hs⟩
    obtain rfl := Option.some.inj hafter
    exact absurd (hs.command rfl) (by decide)

/-! ## §4. Cycles of save and restore. -/

/-- One run of Claude in the panel, and whether the wrapper reported it. -/
structure AgentRun where
  session  : String
  reported : Bool
  deriving DecidableEq, Repr

/-- What happens to a panel until its next restart, and the settings of that. -/
structure Cycle where
  ran       : List AgentRun := []
  title     : Option String := none
  directory : Option String := none
  captured  : Captured := {}
  live      : LiveProc := {}
  settings  : AgentRestoreSettings := {}

/-- `workspace.report_agent_session` keeps the last reported session. -/
def reportedAfter (session : String) (ran : List AgentRun) : String :=
  ((ran.filter (·.reported)).getLast?.map (·.session)).getD session

def ranAfter (session : String) (ran : List AgentRun) : String :=
  (ran.getLast?.map (·.session)).getD session

/-- The panel when the session is saved. -/
def Cycle.used (cycle : Cycle) (panel : Panel) : Panel :=
  { panel with
    title          := cycle.title
    directory      := cycle.directory
    agentSessionId :=
      ((cycle.ran.filter (·.reported)).getLast?.map (·.session)).or panel.agentSessionId }

/-- The panel after the restart. -/
def Cycle.restart (env : RestoreEnv) (remoteConfig : Option RemoteConfig) (panel : Panel)
    (cycle : Cycle) : Option Panel :=
  restartPanel { env with agentRestore := cycle.settings } remoteConfig cycle.captured cycle.live
    (cycle.used panel)

/-- The command that resumes a session, in the panel's directory. -/
def resumeCommand (env : RestoreEnv) (remoteConfig : Option RemoteConfig) (id : Uuid)
    (cycle : Cycle) (session : String) : String :=
  match remoteConfig with
  | some remoteConfig =>
      buildRemoteClaudeResume env.shellEscape remoteConfig
        ((cycle.live.cwd id).or cycle.directory) session
  | none => s!"claude --resume {session}"

theorem isEnabledFor_claude (settings : AgentRestoreSettings) :
    settings.isEnabledFor "claude" = settings.claudeCode := rfl

theorem isEnabledFor_resume (settings : AgentRestoreSettings) (session : String) :
    settings.isEnabledFor s!"claude --resume {session}" = settings.claudeCode := by
  have hstarts : Str.startsWith s!"claude --resume {session}" "claude" = true := by
    simp [Str.startsWith, toString, String.toList_append]
  unfold AgentRestoreSettings.isEnabledFor
  rw [if_pos hstarts]

/-- What a panel with an agent session is resumed as. -/
theorem resumedAs_session (env : RestoreEnv) (remoteConfig : Option RemoteConfig)
    (cycle : Cycle) (panel : Panel) {session : String}
    (hs : (cycle.used panel).agentSessionId = some session) :
    resumedAs { env with agentRestore := cycle.settings } remoteConfig cycle.live
        (cycle.used panel) =
      if cycle.settings.claudeCode = true then
        some (resumeCommand env remoteConfig panel.id cycle session)
      else none := by
  have hsession : sessionOf cycle.live (cycle.used panel) = some session := by
    unfold sessionOf
    rw [hs, Option.some_or]
  cases remoteConfig with
  | none =>
      simp only [resumedAs, savedResume, hsession, Option.filter, isEnabledFor_resume]
      rfl
  | some remoteConfig =>
      by_cases hon : cycle.settings.claudeCode = true
      · simp only [resumedAs, hsession, isEnabledFor_claude, hon, Option.filter_some, if_true,
          Option.map_some]
        rfl
      · simp [resumedAs, hsession, isEnabledFor_claude, hon]

/-- One cycle of a panel with an agent session. -/
theorem Cycle.restart_session (env : RestoreEnv) (remoteConfig : Option RemoteConfig)
    (cycle : Cycle) {panel : Panel} {session : String}
    (hs : panel.agentSessionId = some session) (hr : IsRestored env panel.panelType) :
    ∃ after, cycle.restart env remoteConfig panel = some after ∧
      after.id = panel.id ∧ after.panelType = panel.panelType ∧
      after.agentSessionId = some (reportedAfter session cycle.ran) ∧
      after.command =
        if cycle.settings.claudeCode = true then
          some (resumeCommand env remoteConfig panel.id cycle (reportedAfter session cycle.ran))
        else panel.command := by
  have hused : (cycle.used panel).agentSessionId = some (reportedAfter session cycle.ran) := by
    simp only [Cycle.used, reportedAfter, hs]
    cases (cycle.ran.filter (·.reported)).getLast?.map (·.session) <;> rfl
  let env' : RestoreEnv := { env with agentRestore := cycle.settings }
  have ⟨_, hsession, _⟩ := savedPanel_fields cycle.captured cycle.live (cycle.used panel)
  have ⟨hid, _⟩ := savedPanel_captured cycle.captured cycle.live (cycle.used panel)
  refine ⟨_, restartPanel_of_restored env' remoteConfig cycle.captured cycle.live
    (cycle.used panel) hr, hid, rfl, ?_, ?_⟩
  · show (savedPanel cycle.captured cycle.live (cycle.used panel)).agentSessionId = _
    rw [hsession, sessionOf, hused, Option.some_or]
  · show restoredCommand env' remoteConfig
      (savedPanel cycle.captured cycle.live (cycle.used panel)) = _
    rw [restoredCommand_saved, resumedAs_session env remoteConfig cycle panel hused]
    by_cases hon : cycle.settings.claudeCode = true
    · rw [if_pos hon, if_pos hon, Option.some_or]
    · rw [if_neg hon, if_neg hon, Option.none_or]
      rfl

/-! ### Any number of cycles. -/

/-- The session that the wrapper reported last. -/
def lastReported (session : String) (cycles : List Cycle) : String :=
  reportedAfter session (cycles.flatMap (·.ran))

/-- The session that the agent ran last. -/
def lastRan (session : String) (cycles : List Cycle) : String :=
  ranAfter session (cycles.flatMap (·.ran))

theorem lastReported_cons (session : String) (c : Cycle) (cycles : List Cycle) :
    lastReported session (c :: cycles) = lastReported (reportedAfter session c.ran) cycles := by
  simp only [lastReported, reportedAfter, List.flatMap_cons, List.filter_append,
    List.getLast?_append]
  cases ((cycles.flatMap (·.ran)).filter (·.reported)).getLast? <;> rfl

/-- The command that the panel holds after the cycles. -/
def commandAfter (resume : Cycle → String → String) :
    String → Option String → List Cycle → Option String
  | _, command, [] => command
  | session, command, c :: cycles =>
      commandAfter resume (reportedAfter session c.ran)
        (if c.settings.claudeCode = true then some (resume c (reportedAfter session c.ran))
          else command) cycles

theorem commandAfter_concat (resume : Cycle → String → String) (session : String)
    (command : Option String) (cycles : List Cycle) (c : Cycle) :
    commandAfter resume session command (cycles ++ [c]) =
      if c.settings.claudeCode = true then
        some (resume c (lastReported session (cycles ++ [c])))
      else commandAfter resume session command cycles := by
  induction cycles generalizing session command with
  | nil => simp [commandAfter, lastReported]
  | cons d cycles ih =>
      rw [List.cons_append, commandAfter, ih, lastReported_cons]
      rfl

/-- **The cycles of a panel**: it is resumed with the session that was reported
last, and left with the command of the last cycle that resumed it. -/
theorem exec_restart (env : RestoreEnv) (remoteConfig : Option RemoteConfig)
    (cycles : List Cycle) {panel : Panel} {session : String}
    (hs : panel.agentSessionId = some session) (hr : IsRestored env panel.panelType) :
    ∃ after, exec (Cycle.restart env remoteConfig) panel cycles = some after ∧
      after.command =
        commandAfter (resumeCommand env remoteConfig panel.id) session panel.command cycles := by
  induction cycles generalizing panel session with
  | nil => exact ⟨panel, rfl, rfl⟩
  | cons c cycles ih =>
      obtain ⟨next, hnext, hid, htype, hsession, hcommand⟩ :=
        c.restart_session env remoteConfig hs hr
      obtain ⟨after, hafter, hlast⟩ := ih hsession (htype ▸ hr)
      refine ⟨after, exec_cons.mpr ⟨next, hnext, hafter⟩, ?_⟩
      rw [hlast, hid, hcommand]
      rfl

/-- A split of a list with one more element is at that element, or before it. -/
theorem concat_eq_append_cons {α : Type*} {as bs cs : List α} {a b : α}
    (h : as ++ [a] = bs ++ b :: cs) :
    (cs = [] ∧ bs = as ∧ b = a) ∨ ∃ cs', cs = cs' ++ [a] ∧ as = bs ++ b :: cs' := by
  rcases List.eq_nil_or_concat cs with rfl | ⟨cs', d, rfl⟩
  · obtain ⟨rfl, hb⟩ := List.append_inj' h rfl
    exact .inl ⟨rfl, rfl, (List.cons.inj hb).1.symm⟩
  · have hsplit : as ++ [a] = (bs ++ b :: cs') ++ [d] := by simpa using h
    obtain ⟨rfl, hd⟩ := List.append_inj' hsplit rfl
    obtain rfl := (List.cons.inj hd).1
    exact .inr ⟨cs', by simp, rfl⟩

/-- The command is the panel's own, or that of the last cycle that resumed. -/
theorem commandAfter_eq_iff (resume : Cycle → String → String) (session : String)
    (command : Option String) (cycles : List Cycle) :
    commandAfter resume session command cycles = command ↔
      ∀ earlier d later, cycles = earlier ++ d :: later → d.settings.claudeCode = true →
        (∀ c ∈ later, c.settings.claudeCode = false) →
        command = some (resume d (lastReported session (earlier ++ [d]))) := by
  induction cycles using List.reverseRecOn with
  | nil => simp [commandAfter]
  | append_singleton cycles c ih =>
      rw [commandAfter_concat]
      by_cases hon : c.settings.claudeCode = true
      · rw [if_pos hon]
        constructor
        · intro h earlier d later heq hd hoff
          rcases concat_eq_append_cons heq with ⟨_, rfl, rfl⟩ | ⟨later', rfl, _⟩
          · exact h.symm
          · have hc := hoff c (by simp)
            simp [hon] at hc
        · intro h
          exact (h cycles c [] rfl hon (by simp)).symm
      · rw [if_neg hon, ih]
        constructor
        · intro h earlier d later heq hd hoff
          rcases concat_eq_append_cons heq with ⟨_, _, rfl⟩ | ⟨later', rfl, hcycles⟩
          · exact absurd hd hon
          · exact h earlier d later' hcycles hd fun e he => hoff e (by simp [he])
        · intro h earlier d later heq hd hoff
          refine h earlier d (later ++ [c]) (by simp [heq]) hd fun e he => ?_
          rcases List.mem_append.mp he with he | he
          · exact hoff e he
          · obtain rfl := List.mem_singleton.mp he
            simpa using hon

/-- What the claim about one cycle says: with the setting on the panel resumes
the session that its agent ran last, with the setting off it has the command that
it was created with. -/
def Respected (env : RestoreEnv) (remoteConfig : Option RemoteConfig) (panel : Panel)
    (session : String) (cycles : List Cycle) (c : Cycle) (after : Panel) : Prop :=
  if c.settings.claudeCode = true then
    after.command =
      some (resumeCommand env remoteConfig panel.id c (lastRan session (cycles ++ [c])))
  else after.command = panel.command

/-- The escape of a word keeps words apart, as a quoting that the shell undoes must. -/
theorem resumeCommand_injective (env : RestoreEnv) (hescape : Function.Injective env.shellEscape)
    (remoteConfig : Option RemoteConfig) (id : Uuid) (c : Cycle) :
    Function.Injective (resumeCommand env remoteConfig id c) := by
  intro s t h
  cases remoteConfig with
  | none =>
      have hwords : "claude --resume " ++ s = "claude --resume " ++ t := h
      exact (String.append_right_inj _).mp hwords
  | some remoteConfig =>
      unfold resumeCommand buildRemoteClaudeResume at h
      dsimp only at h
      generalize (c.live.cwd id).or c.directory = directory at h
      have hword : env.shellEscape s = env.shellEscape t := by
        simp only [toString, String.append_right_inj] at h
        cases directory with
        | none => simpa using hescape h
        | some dir => simpa using hescape h
      exact hescape hword

/-- **The resume setting is respected exactly when**, in every cycle with the setting
on, the agent's last run was reported, and every cycle with the setting off follows
cycles that are all off, or that resumed last with the panel's own command. -/
theorem resume_respected_iff (env : RestoreEnv) (hescape : Function.Injective env.shellEscape)
    (remoteConfig : Option RemoteConfig) {panel : Panel} {session : String}
    (hs : panel.agentSessionId = some session) (hr : IsRestored env panel.panelType)
    (cycles : List Cycle) :
    (∀ earlier c later, cycles = earlier ++ c :: later →
        ∃ after, exec (Cycle.restart env remoteConfig) panel (earlier ++ [c]) = some after ∧
          Respected env remoteConfig panel session earlier c after) ↔
      ∀ earlier c later, cycles = earlier ++ c :: later →
        if c.settings.claudeCode = true then
          lastReported session (earlier ++ [c]) = lastRan session (earlier ++ [c])
        else
          ∀ before d between, earlier = before ++ d :: between → d.settings.claudeCode = true →
            (∀ e ∈ between, e.settings.claudeCode = false) →
            panel.command =
              some (resumeCommand env remoteConfig panel.id d
                (lastReported session (before ++ [d]))) := by
  refine forall_congr' fun earlier => forall_congr' fun c => forall_congr' fun later =>
    imp_congr_right fun heq => ?_
  obtain ⟨after, hafter, hcommand⟩ := exec_restart env remoteConfig (earlier ++ [c]) hs hr
  rw [commandAfter_concat] at hcommand
  have hthis : (∃ p, exec (Cycle.restart env remoteConfig) panel (earlier ++ [c]) = some p ∧
      Respected env remoteConfig panel session earlier c p) ↔
      Respected env remoteConfig panel session earlier c after := by
    simp [hafter]
  rw [hthis, Respected]
  by_cases hon : c.settings.claudeCode = true
  · rw [if_pos hon] at hcommand
    rw [if_pos hon, if_pos hon, hcommand, Option.some.injEq]
    exact (resumeCommand_injective env hescape remoteConfig panel.id c).eq_iff
  · rw [if_neg hon] at hcommand
    rw [if_neg hon, if_neg hon, hcommand]
    exact commandAfter_eq_iff _ session panel.command earlier

/-- A tab that was created with a command, in which Claude has run. -/
def agentPanel : Panel :=
  { Panel.newTerminal 7 with command := some "make watch", agentSessionId := some "s1" }

def resumeOn : Cycle := { ran := [⟨"s2", true⟩] }

def resumeOff : Cycle := { settings := { claudeCode := false } }

/-- A cycle without resuming, then one that resumes the new session. -/
theorem resume_respected_off_on :
    ∃ after, exec (Cycle.restart sampleEnv none) agentPanel [resumeOff, resumeOn] = some after ∧
      Respected sampleEnv none agentPanel "s1" [resumeOff] resumeOn after := by
  have hescape : Function.Injective sampleEnv.shellEscape := fun _ _ h => h
  have hrestored : IsRestored sampleEnv agentPanel.panelType := ⟨by decide, .inl rfl⟩
  have hsession : agentPanel.agentSessionId = some "s1" := rfl
  refine (resume_respected_iff sampleEnv hescape none hsession hrestored
    [resumeOff, resumeOn]).mpr ?_ [resumeOff] resumeOn [] rfl
  intro earlier c later heq
  rcases concat_eq_append_cons (show [resumeOff] ++ [resumeOn] = _ from heq)
    with ⟨_, rfl, rfl⟩ | ⟨later', _, heq'⟩
  · rw [if_pos (by decide)]
    decide
  · rcases concat_eq_append_cons (show [] ++ [resumeOff] = _ from heq')
      with ⟨_, rfl, rfl⟩ | ⟨later'', _, heq''⟩
    · rw [if_neg (by decide)]
      intro before d between hnil
      simp at hnil
    · simp at heq''

/-- The setting is turned off after a restart that resumed the session. -/
theorem resume_left_over :
    ¬ ∃ after, exec (Cycle.restart sampleEnv none) agentPanel [resumeOn, resumeOff] = some after ∧
      Respected sampleEnv none agentPanel "s1" [resumeOn] resumeOff after := by
  intro ⟨after, hafter, hrespected⟩
  obtain rfl := Option.some.inj hafter
  exact absurd hrespected (by unfold Respected; decide)

end Jmux.Session
