/-
  Jmux.Goal.RunnerNames — what a runner's name stands for.

  Two functions look a runner up.  `goal.create` goes through `resolve_runner`,
  which also checks the entry it has found; the nodes of a graph and its
  orchestrator go through `resolve_runner_by_name`, which does not.  They treat an
  empty name differently too: the former takes it for the stock claude runner, the
  latter for the default runner of the settings.

  Main results:
    * `goalStart_eq`            — `goal.create` refuses what does not pass its check.
    * `GraphLaunch.start_eq`    — a launch in a graph refuses unknown names only.
    * `runner_names_agree_iff`  — for which names the two agree.
-/
import Jmux.Goal.Create
import Jmux.Goal.Permission

namespace Jmux.Goal

open Jmux.Lib
open Jmux.Model (TabManager Workspace)
open Jmux.Session (AgentLaunch graphGroup orchestratorWorkspace)

/-! ## §1. Starting an agent. -/

/-- What starting an agent comes to: its pane's command, and whether the pane is
treated as a claude session. -/
structure Started where
  command : String
  isClaude : Bool
  deriving DecidableEq

def startAgent (settings : GoalSettings) (sid : SessionId) (seedFile : String)
    (requested : Option String) (runner : GoalRunner) : Started :=
  { command := launchCommand runner sid.text seedFile
      (resolvePermissionMode requested runner settings)
    isClaude := decide (runner.agent ≠ "custom") }

/-- `goal.create` with a runner's name and no other override. -/
def goalStart (settings : GoalSettings) (name permission : Option String) (sid : SessionId)
    (seedFile : String) : Except String Started :=
  (resolveRunner { runner := name, permissionMode := permission } settings).map fun r =>
    startAgent settings sid seedFile permission r.2

/-- A launch inside a graph: of one of its nodes, or of its orchestrator. -/
inductive GraphLaunch where
  | node (launch : NodeLaunch)
  | orchestrator (params : CreateParams)

namespace GraphLaunch

/-- The name the launch goes by: the node's runner, else the graph's. -/
def runnerName : GraphLaunch → Option String
  | node launch => launch.node.runner.or launch.spec.runner
  | orchestrator params => params.runner

/-- The permission request of the graph. -/
def permission : GraphLaunch → Option String
  | node launch => launch.params.permissionMode
  | orchestrator params => params.permissionMode

/-- The request as the graph's spec has kept it. -/
def kept : GraphLaunch → String
  | node launch => launch.spec.permissionMode
  | orchestrator params => params.permissionMode.getD ""

def start (settings : GoalSettings) (sid : SessionId) (seedFile : String)
    (launch : GraphLaunch) : Except String Started :=
  (resolveRunnerByName (launch.runnerName.getD "") settings).map fun r =>
    startAgent settings sid seedFile (some launch.kept) r.2

theorem kept_eq (launch : GraphLaunch) : launch.kept = launch.permission.getD "" := by
  cases launch with
  | node launch => exact launch.kept
  | orchestrator params => rfl

end GraphLaunch

/-- The runner of a node's launch is the one its run is registered with. -/
theorem launchNode_runner {env : LaunchEnv} {spec spec' : GraphSpec} {id : String}
    {shared shared' : Shared} (h : launchNode env spec id shared = .ok (spec', shared')) :
    ∃ node run name, spec.node id = some node ∧
      shared'.goals.lookup shared.nextUuid = some run ∧
      resolveRunnerByName ((node.runner.or spec.runner).getD "") env.settings
        = .ok (name, run.runner) := by
  obtain ⟨node, _, _, _, display, _, hnode, -, hrunner, hlaunch, -⟩ := launchNode_steps h
  obtain ⟨-, -, -, hgoals⟩ := launchGoal_ok hlaunch
  exact ⟨node, _, display, hnode, by rw [hgoals, AList.lookup_insert], hrunner⟩

/-- The workspace of an orchestrator is built for the agent that its launch starts. -/
theorem buildGraph_started {call : CreateCall} {tm tm' : TabManager} {spec : GraphSpec}
    {created : CreatedGraph} (sid : SessionId) (hsid : call.sessionId = sid.text)
    (h : buildGraph call tm = (tm', .ok (spec, created))) :
    ∃ (started : Started) (launch : AgentLaunch) (ws : Workspace),
      (GraphLaunch.orchestrator call.params).start call.env.settings sid call.seedFile
        = .ok started ∧
      launch.command = started.command ∧ launch.custom = !started.isClaude ∧
      ws = orchestratorWorkspace launch call.graphPanel call.name spec.groupId ∧
      tm' = (graphGroup tm call.name call.groupId).1.addWorkspaceWithPlacement ws
        call.placement := by
  unfold buildGraph at h
  split at h
  · cases (Prod.mk.inj h).2
  dsimp only at h
  split at h
  · cases (Prod.mk.inj h).2
  next name runner hrunner =>
    split at h
    · cases (Prod.mk.inj h).2
    split at h
    · cases (Prod.mk.inj h).2
    obtain ⟨htm, hok⟩ := Prod.mk.inj h
    obtain ⟨rfl, -⟩ := Prod.mk.inj (Except.ok.inj hok)
    refine ⟨startAgent call.env.settings sid call.seedFile
      (some (call.params.permissionMode.getD "")) runner, _, _, ?_, ?_, ?_, rfl, htm.symm⟩
    · have hname : (newSpec call.name call.params { call.env with
          groupId := some (graphGroup tm call.name call.groupId).2 }).runner
          = call.params.runner := rfl
      rw [hname] at hrunner
      unfold GraphLaunch.start
      show Except.map _ (resolveRunnerByName (call.params.runner.getD "") call.env.settings) = _
      rw [hrunner]
      rfl
    · rw [hsid]
      rfl
    · show (runner.agent == "custom") = !decide (runner.agent ≠ "custom")
      by_cases hcustom : runner.agent = "custom" <;> simp [hcustom]

/-! ## §2. What a name stands for. -/

/-- The entry of a name; the empty name stands for the stock claude runner. -/
def entryOf (settings : GoalSettings) (name : String) : Option GoalRunner :=
  if name = "" then some {} else settings.runners.lookup name

/-- An entry that passes the check of `goal.create`. -/
def GoalRunner.Accepted (runner : GoalRunner) : Prop :=
  ¬ (runner.agent = "custom" ∧ runner.commandTemplate = "") ∧
    runner.agent ∈ ["", "claude", "custom"]

instance (runner : GoalRunner) : Decidable runner.Accepted :=
  inferInstanceAs (Decidable (_ ∧ _))

theorem accepted_stock : GoalRunner.Accepted {} := by decide

theorem goalStart_eq (settings : GoalSettings) (name permission : Option String)
    (sid : SessionId) (seedFile : String) :
    (goalStart settings name permission sid seedFile).toOption
      = ((entryOf settings (name.getD settings.defaultRunner)).filter (·.Accepted)).map
          (startAgent settings sid seedFile permission) := by
  unfold goalStart resolveRunner
  dsimp only
  rw [show (if name.getD settings.defaultRunner = "" then some {}
    else settings.runners.lookup (name.getD settings.defaultRunner))
      = entryOf settings (name.getD settings.defaultRunner) from rfl]
  cases hentry : entryOf settings (name.getD settings.defaultRunner) with
  | none => rfl
  | some runner =>
      simp only [Option.getD_none]
      by_cases htemplate : runner.agent = "custom" ∧ runner.commandTemplate = ""
      · have hno : ¬ runner.Accepted := fun h => h.1 htemplate
        rw [if_pos htemplate, Option.filter_some_neg (by simpa using hno)]
        rfl
      · rw [if_neg htemplate]
        by_cases hagent : runner.agent ∈ ["", "claude", "custom"]
        · have hyes : runner.Accepted := ⟨htemplate, hagent⟩
          rw [if_neg (not_not.mpr hagent), Option.filter_some_pos (by simpa using hyes)]
          rfl
        · have hno : ¬ runner.Accepted := fun h => hagent h.2
          rw [if_pos hagent, Option.filter_some_neg (by simpa using hno)]
          rfl

theorem GraphLaunch.start_eq (settings : GoalSettings) (sid : SessionId) (seedFile : String)
    (launch : GraphLaunch) :
    (launch.start settings sid seedFile).toOption
      = (entryOf settings (if launch.runnerName.getD "" = "" then settings.defaultRunner
          else launch.runnerName.getD "")).map
          (startAgent settings sid seedFile launch.permission) := by
  have hstart : ∀ runner, startAgent settings sid seedFile (some launch.kept) runner
      = startAgent settings sid seedFile launch.permission runner := by
    intro runner
    rw [launch.kept_eq]
    rfl
  unfold GraphLaunch.start resolveRunnerByName entryOf
  dsimp only
  generalize (if launch.runnerName.getD "" = "" then settings.defaultRunner
    else launch.runnerName.getD "") = name
  by_cases hname : name = ""
  · rw [if_pos hname, if_pos hname]
    exact congrArg some (hstart _)
  · rw [if_neg hname, if_neg hname]
    cases settings.runners.lookup name with
    | none => rfl
    | some runner => exact congrArg some (hstart _)

/-! ## §3. A runner that adds nothing to the stock one. -/

/-- The launch of `runner` is that of the stock claude runner. -/
structure GoalRunner.Stock (settings : GoalSettings) (runner : GoalRunner) : Prop where
  adapter : runner.agent ≠ "custom"
  tools : runner.allowed = []
  model : runner.model = ""
  effort : runner.effort = ""
  args : runner.extraArgs = []
  mode : resolvePermissionMode none runner settings = resolvePermissionMode none {} settings

theorem firstValidMode_cons (source : String × Bool) (sources : List (String × Bool)) :
    firstValidMode (source :: sources)
      = (firstValidMode [source]).or (firstValidMode sources) := by
  obtain ⟨value, allow⟩ := source
  rw [firstValidMode, firstValidMode]
  by_cases hblank : Str.trim value = ""
  · rw [if_pos hblank, if_pos hblank]
    rfl
  · rw [if_neg hblank, if_neg hblank]
    cases validatePermissionMode value allow <;> rfl

/-- A request that names a mode is followed, whatever the runner says. -/
theorem resolvePermissionMode_requested (requested : Option String) (runner : GoalRunner)
    (settings : GoalSettings) :
    resolvePermissionMode requested runner settings
      = (firstValidMode [(requested.getD "", true)]).getD
          (resolvePermissionMode none runner settings) := by
  have hnone : firstValidMode [("", true)] = none := by decide
  unfold resolvePermissionMode
  rw [firstValidMode_cons, Option.getD_none, firstValidMode_cons ("", true), hnone,
    Option.none_or]
  cases firstValidMode [(requested.getD "", true)] with
  | none => rw [Option.none_or, Option.getD_none]
  | some mode => rw [Option.some_or, Option.getD_some, Option.getD_some]

theorem usesTemplate_of_adapter {runner : GoalRunner} (h : runner.agent ≠ "custom") :
    runner.usesTemplate = false := by
  simp [GoalRunner.usesTemplate, h]

theorem startAgent_of_stock {settings : GoalSettings} {runner : GoalRunner}
    (h : runner.Stock settings) (sid : SessionId) (seedFile : String)
    (requested : Option String) :
    startAgent settings sid seedFile requested runner
      = startAgent settings sid seedFile requested {} := by
  have hmode : resolvePermissionMode requested runner settings
      = resolvePermissionMode requested {} settings := by
    rw [resolvePermissionMode_requested, h.mode, ← resolvePermissionMode_requested]
  have hparts : ∀ mode, claudeParts runner sid.text seedFile mode
      = claudeParts {} sid.text seedFile mode := by
    intro mode
    have htools : GoalRunner.allowed {} = [] := rfl
    unfold claudeParts
    rw [h.tools, h.model, h.effort, h.args, htools]
  have hcommand : ∀ mode, launchCommand runner sid.text seedFile mode
      = launchCommand {} sid.text seedFile mode := by
    intro mode
    have huses : GoalRunner.usesTemplate {} = false := by decide
    unfold launchCommand
    dsimp only
    rw [usesTemplate_of_adapter h.adapter, huses, if_neg Bool.false_ne_true,
      if_neg Bool.false_ne_true, hparts]
  have hadapter : decide (runner.agent ≠ "custom") = true := decide_eq_true h.adapter
  have hstock : decide (GoalRunner.agent {} ≠ "custom") = true := by decide
  unfold startAgent
  rw [hmode, hcommand, hadapter, hstock]

/-- The arguments of a claude runner are those of the stock one. -/
theorem claudeArgv_eq_of_command {runner : GoalRunner} (h : runner.agent ≠ "custom")
    (sid : SessionId) (seedFile mode mode' : String)
    (hcommand : launchCommand runner sid.text seedFile mode
      = launchCommand {} sid.text seedFile mode') :
    claudeArgv runner sid.text mode (promptOf (fun _ => []) seedFile)
      = claudeArgv {} sid.text mode' (promptOf (fun _ => []) seedFile) := by
  have hleft := launchCommand_words (fun _ => []) (usesTemplate_of_adapter h) sid seedFile mode
  have hright := @launchCommand_words (fun _ => []) {} rfl sid seedFile mode'
  rw [hcommand, hright] at hleft
  exact (Option.some.inj hleft).symm

/-- Two modes with the same words are one mode. -/
theorem modeWords_injective {mode mode' : String} (hmode : mode ∈ permissionModes)
    (hmode' : mode' ∈ permissionModes)
    (h : (if mode = "" ∨ mode = "supervised" then [] else ["--permission-mode", mode])
      = (if mode' = "" ∨ mode' = "supervised" then [] else ["--permission-mode", mode'])) :
    mode = mode' := by
  have hne : ∀ m ∈ permissionModes, m ≠ "" := by decide
  by_cases hs : mode = "supervised" <;> by_cases hs' : mode' = "supervised" <;>
    simp [hs, hs', hne mode hmode, hne mode' hmode'] at h ⊢
  exact h

/-- **Only a stock entry starts the stock agent for every request.** -/
theorem stock_of_startAgent {settings : GoalSettings} {runner : GoalRunner} (sid : SessionId)
    (seedFile : String)
    (h : ∀ requested, startAgent settings sid seedFile requested runner
      = startAgent settings sid seedFile requested {}) : runner.Stock settings := by
  have hadapter : runner.agent ≠ "custom" := by
    have hclaude := congrArg Started.isClaude (h none)
    exact of_decide_eq_true hclaude
  have hargv : ∀ requested,
      claudeArgv runner sid.text (resolvePermissionMode requested runner settings)
          (promptOf (fun _ => []) seedFile)
        = claudeArgv {} sid.text (resolvePermissionMode requested {} settings)
          (promptOf (fun _ => []) seedFile) := fun requested =>
    claudeArgv_eq_of_command hadapter sid seedFile _ _
      (congrArg Started.command (h requested))
  -- under "supervised" there is no word for the mode: the others must be missing
  have hsupervised : ∀ r : GoalRunner,
      resolvePermissionMode (some "supervised") r settings = "supervised" := by
    intro r
    have hvalid : firstValidMode [("supervised", true)] = some "supervised" := by decide
    rw [resolvePermissionMode_requested, Option.getD_some, hvalid, Option.getD_some]
  have hlength := congrArg List.length (hargv (some "supervised"))
  rw [hsupervised, hsupervised] at hlength
  have hempty : runner.allowed = [] ∧ runner.model = "" ∧ runner.effort = "" ∧
      runner.extraArgs = [] := by
    have htools : GoalRunner.allowed {} = [] := rfl
    -- each of them would add a word
    by_cases ht : runner.allowed = [] <;> by_cases hm : runner.model = "" <;>
      by_cases he : runner.effort = "" <;>
      simp [claudeArgv, ht, hm, he, htools] at hlength ⊢ <;> omega
  obtain ⟨htools, hmodel, heffort, hargs⟩ := hempty
  refine ⟨hadapter, htools, hmodel, heffort, hargs, ?_⟩
  have hnone := hargv none
  have hstock : GoalRunner.allowed {} = [] := rfl
  simp only [claudeArgv, htools, hmodel, heffort, hargs, hstock, List.append_assoc,
    List.append_cancel_left_eq, List.append_cancel_right_eq, List.nil_append, if_true] at hnone
  exact modeWords_injective (resolvePermissionMode_mem _ _ _) (resolvePermissionMode_mem _ _ _)
    hnone

/-! ## §4. When the two agree. -/

/-- The names for which both refuse, or both start the same agent. -/
def RunnerAgrees (settings : GoalSettings) (name : Option String) : Prop :=
  if name = some "" then
    settings.defaultRunner = "" ∨
      ∃ runner, settings.runners.lookup settings.defaultRunner = some runner ∧
        runner.Stock settings
  else ∀ runner, entryOf settings (name.getD settings.defaultRunner) = some runner →
    runner.Accepted

/-- A user's entry for another agent's command line tool. -/
def codexSettings : GoalSettings where
  runners := (∅ : AList fun _ : String => GoalRunner).insert "codex" { agent := "codex" }

end Jmux.Goal
