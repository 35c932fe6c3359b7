/-
  Jmux.Goal.Permission — which launches may bypass the permission checks.

  A bare goal takes the mode of its own create request.  A graph keeps the mode
  of its create request in its spec, and every node it launches, now or days
  later, passes that mode on.

  Main results:
    * `launched_mode_requested`     — in every run the mode of a launched node was
                                       asked for by a `graph.create` of that run.
    * `bypass_never_configured_iff` — a launch of a claude runner carries a bypass
                                       only on request, exactly when the configured
                                       words carry none.
-/
import Jmux.Goal.LaunchCommand
import Jmux.Goal.WorldInvariant

namespace Jmux.Goal

open Jmux.Lib

/-! ## §1. The mode of a graph is never edited. -/

theorem finishAll_permissionMode (goals : GoalRegistry) (git : String → GitOutcome)
    (ids : List String) (s : GraphSpec) :
    (finishAll goals git s ids).permissionMode = s.permissionMode := by
  induction ids generalizing s with
  | nil => rfl
  | cons id ids ih =>
      show (finishAll goals git (finishNode goals (git id) s id) ids).permissionMode = _
      rw [ih]
      rfl

theorem syncNodeStates_permissionMode (goals : GoalRegistry) (git : String → GitOutcome)
    (s : GraphSpec) : (syncNodeStates goals git s).permissionMode = s.permissionMode :=
  finishAll_permissionMode _ _ _ _

/-- The tick's spec, and the spec of every launch it has made, ask for `mode`. -/
structure Tick.Mode (t : Tick) (mode : String) : Prop where
  spec : t.spec.permissionMode = mode
  calls : ∀ c ∈ t.calls, c.spec.permissionMode = mode

theorem launchReady_mode (env : String → LaunchEnv) {mode : String} :
    ∀ (ids : List String) (slots : Nat) (t : Tick), t.Mode mode →
      (launchReady env ids slots t).Mode mode
  | [], _, t, ht => by
      unfold launchReady
      exact ht
  | _ :: _, 0, t, ht => by
      unfold launchReady
      exact ht
  | id :: ids, slots + 1, t, ht => by
      have hcalls : ∀ c ∈ t.calls ++ [LaunchCall.of (env id) t.spec id],
          c.spec.permissionMode = mode := by
        intro c hc
        rcases List.mem_append.mp hc with hc | hc
        · exact ht.calls c hc
        · obtain rfl : c = LaunchCall.of (env id) t.spec id := by simpa using hc
          exact ht.spec
      rw [launchReady]
      split
      next spec shared hlaunch =>
        refine launchReady_mode env ids slots _ ⟨?_, hcalls⟩
        obtain ⟨branch, wt, rfl, _⟩ := launchNode_ok hlaunch
        exact ht.spec
      · exact launchReady_mode env ids (slots + 1) _ ⟨ht.spec, hcalls⟩

theorem tickProposing_permissionMode (env : ProposalEnv) (s : GraphSpec) :
    (tickProposing env s).permissionMode = s.permissionMode := by
  unfold tickProposing
  dsimp only
  split
  · rfl
  split
  · rfl
  split
  · rfl
  split
  · rfl
  split <;> rfl

theorem processGraph_mode (env : TickEnv) (s : GraphSpec) (shared : Shared) :
    (processGraph env s shared).Mode s.permissionMode := by
  have hnone : ∀ (spec : GraphSpec), spec.permissionMode = s.permissionMode →
      (⟨spec, shared, []⟩ : Tick).Mode s.permissionMode :=
    fun spec h => ⟨h, fun c hc => absurd hc List.not_mem_nil⟩
  unfold processGraph tickRunning scheduleSynced
  split
  · exact hnone _ (tickProposing_permissionMode _ _)
  · split
    · exact hnone _ rfl
    have hsync := syncNodeStates_permissionMode shared.goals env.git s
    split
    · exact hnone _ hsync
    have hlaunched := launchReady_mode env.launch
      (syncNodeStates shared.goals env.git s).readyIds
      ((syncNodeStates shared.goals env.git s).maxConcurrency
        - (syncNodeStates shared.goals env.git s).activeCount)
      ⟨syncNodeStates shared.goals env.git s, shared, []⟩ (hnone _ hsync)
    dsimp only
    split
    · exact ⟨hlaunched.spec, hlaunched.calls⟩
    · exact hlaunched
  · exact hnone _ rfl

/-- An edit that a client can ask for keeps the mode. -/
def KeepsMode (f : GraphSpec → Except String GraphSpec) : Prop :=
  ∀ s s', f s = .ok s' → s'.permissionMode = s.permissionMode

theorem approveGraph_keepsMode (file : ProposalFile) : KeepsMode (approveGraph file) := by
  intro s s' h
  obtain ⟨-, nodes, -, rfl⟩ := approveGraph_ok h
  rfl

theorem reviseGraph_keepsMode (env : ReviseEnv) : KeepsMode (reviseGraph env) := by
  intro s s' h
  obtain ⟨-, -, -, -, rfl⟩ := reviseGraph_ok h
  rfl

theorem resumeGraph_keepsMode (goals : GoalRegistry) (git : String → GitOutcome) :
    KeepsMode (resumeGraph goals git) := by
  intro s s' h
  obtain rfl := resumeGraph_ok h
  exact finishAll_permissionMode goals git s.mergeRetries s.resumeLoop

theorem updateNodeGoal_keepsMode (id text : String) : KeepsMode (updateNodeGoal id text) := by
  intro s s' h
  obtain ⟨-, -, rfl⟩ := updateNodeGoal_ok h
  rfl

/-! ## §2. Over a run. -/

/-- The modes that the `graph.create` requests among the actions ask for. -/
def requestedModes (acts : List Act) : List String :=
  acts.filterMap fun
    | .thread _ (.createBegin _ params _) => some (params.permissionMode.getD "")
    | _ => none

/-- Every graph, every graph in the making and every launch has one of the modes. -/
structure World.ModesIn (w : World) (modes : List String) : Prop where
  graphs : ∀ g s, w.graphs.lookup g = some s → s.permissionMode ∈ modes
  creating : ∀ t s, w.threads t = .creating s → s.permissionMode ∈ modes
  launches : ∀ l ∈ w.launches, l.call.spec.permissionMode ∈ modes

namespace World.ModesIn

variable {w w' : World} {modes : List String}

theorem mono {more : List String} (h : w.ModesIn modes) : w.ModesIn (modes ++ more) :=
  ⟨fun g s hs => List.mem_append_left _ (h.graphs g s hs),
    fun t s hs => List.mem_append_left _ (h.creating t s hs),
    fun l hl => List.mem_append_left _ (h.launches l hl)⟩

/-- A step that leaves graphs, threads and launches alone. -/
theorem of_eq (h : w.ModesIn modes) (hg : w'.graphs = w.graphs) (ht : w'.threads = w.threads)
    (hl : w'.launches = w.launches) : w'.ModesIn modes :=
  ⟨fun g s hs => h.graphs g s (hg ▸ hs), fun t s hs => h.creating t s (ht ▸ hs),
    fun l hl' => h.launches l (hl ▸ hl')⟩

/-- Moving a thread, to a graph in the making only if its mode is there. -/
theorem setThread (h : w.ModesIn modes) (t : Nat) {th : Thread}
    (hth : ∀ s, th = .creating s → s.permissionMode ∈ modes) :
    (w.setThread t th).ModesIn modes := by
  refine ⟨h.graphs, fun i s hs => ?_, h.launches⟩
  dsimp only [World.setThread] at hs
  split at hs
  · exact hth s hs
  · exact h.creating i s hs

theorem editGraph (h : w.ModesIn modes) (name : String)
    {f : GraphSpec → Except String GraphSpec} (hf : KeepsMode f) :
    (w.editGraph name f).ModesIn modes := by
  rcases w.editGraph_eq name f with heq | ⟨s, s', hs, hok, heq⟩
  · rw [heq]
    exact h
  · rw [heq]
    refine ⟨fun g r hr => ?_, h.creating, h.launches⟩
    rw [AList.lookup_insert_eq_ite] at hr
    split at hr
    · obtain rfl := Option.some.inj hr
      rw [hf s s' hok]
      exact h.graphs name s hs
    · exact h.graphs g r hr

theorem processNamed (h : w.ModesIn modes) (name : String) (env : TickEnv) :
    (w.processNamed name env).ModesIn modes := by
  unfold World.processNamed
  split
  · exact h
  next s hs =>
    have hmode := processGraph_mode env s w.shared
    have hmem := h.graphs name s hs
    refine ⟨fun g r hr => ?_, h.creating, fun l hl => ?_⟩
    · rw [AList.lookup_insert_eq_ite] at hr
      split at hr
      · obtain rfl := Option.some.inj hr
        rw [hmode.spec]
        exact hmem
      · exact h.graphs g r hr
    · rcases List.mem_append.mp hl with hl | hl
      · exact h.launches l hl
      -- a launch of this very tick
      · obtain ⟨c, hc, rfl⟩ := List.mem_map.mp hl
        show c.spec.permissionMode ∈ modes
        rw [hmode.calls c hc]
        exact hmem

theorem serve (h : w.ModesIn modes) (r : Request) : (w.serve r).ModesIn modes := by
  have hok : ∀ f : GraphSpec → GraphSpec, (∀ s, (f s).permissionMode = s.permissionMode) →
      KeepsMode fun s => .ok (f s) := by
    intro f hf s s' h
    obtain rfl := Except.ok.inj h
    exact hf s
  cases r with
  | approve g file => exact h.editGraph g (approveGraph_keepsMode file)
  | revise g env => exact h.editGraph g (reviseGraph_keepsMode env)
  | pause g => exact h.editGraph g (hok (setGraphState .paused) fun _ => rfl)
  | resume g git => exact h.editGraph g (resumeGraph_keepsMode w.shared.goals git)
  | updateGoal g id text => exact h.editGraph g (updateNodeGoal_keepsMode id text)
  | updatePosition g id x y => exact h.editGraph g (hok (updateNodePosition id x y) fun _ => rfl)
  | stopRun ws => exact h.of_eq rfl rfl rfl
  | createGoal spec env =>
      dsimp only [World.serve]
      split
      · exact h
      · exact h.of_eq rfl rfl rfl

theorem threadStep {t : Nat} {a : ThreadStep} (h : w.ModesIn modes)
    (hs : w.threadStep t a = some w') :
    w'.ModesIn (modes ++ requestedModes [.thread t a]) := by
  have hplain : ∀ (w : World) {th : Thread}, w.ModesIn modes → (∀ s, th ≠ .creating s) →
      (w.setThread t th).ModesIn (modes ++ requestedModes [.thread t a]) :=
    fun w th hw hth => (hw.setThread t fun s he => absurd he (hth s)).mono
  have hok : ∀ f : GraphSpec → GraphSpec, (∀ s, (f s).permissionMode = s.permissionMode) →
      KeepsMode fun s => .ok (f s) := by
    intro f hf s s' h
    obtain rfl := Except.ok.inj h
    exact hf s
  cases World.threadStep_turn hs with
  | createRefused _ _ _ | stopUnknown _ | completeNothing _ _ _ | acceptUnknown _ _
  | continueRefused _ _ => exact h.mono
  | createBegin name params env w₁ hw₁ =>
      have hold : w₁.ModesIn modes := by
        rcases World.releaseName_eq hw₁ with rfl | rfl
        · exact h
        · refine ⟨fun g s hs => h.graphs g s ?_, h.creating, h.launches⟩
          rw [AList.lookup_erase_eq_ite] at hs
          split at hs
          · cases hs
          · exact hs
      -- the spec takes the mode of the request
      refine hold.mono.setThread t fun s he => ?_
      obtain rfl := Thread.creating.inj he
      exact List.mem_append_right _ List.mem_cons_self
  | createInsert spec hspec =>
      have hmem := h.creating t spec hspec
      have hins : (w.insertGraph spec).ModesIn modes := by
        refine ⟨fun g s hs => ?_, h.creating, h.launches⟩
        dsimp only [World.insertGraph] at hs
        rw [AList.lookup_insert_eq_ite] at hs
        split at hs
        · obtain rfl := Option.some.inj hs
          exact hmem
        · exact h.graphs g s hs
      exact hplain _ hins fun _ he => by cases he
  | stopBegin g => exact hplain _ (h.editGraph g (hok _ fun _ => rfl)) fun _ he => by cases he
  | acceptFinish git link _ =>
      exact hplain _ (h.editGraph link.graph (hok _ fun _ => rfl)) fun _ he => by cases he
  | continueFinish link _ =>
      exact hplain _ (h.editGraph link.graph (hok _ fun _ => rfl)) fun _ he => by cases he
  | advanceWrite ws run _ =>
      refine hplain _ (h.of_eq rfl rfl rfl) fun _ he => ?_
      split at he <;> cases he
  | advanceSend ws run _ => exact hplain _ (h.of_eq rfl rfl rfl) fun _ he => by cases he
  | stopRuns _ _ | completeWrite _ _ | acceptMark _ =>
      exact hplain _ (h.of_eq rfl rfl rfl) fun _ he => by cases he
  | createFail _ _ | completeBegin _ _ _ | acceptUnlinked _ _ | acceptRead _ _ _
  | continueBegin _ _ _ _ | panelContinue _ | advanceUnsent _ _ _ | continueUnlinked _ _
  | continueRead _ _ _ => exact hplain _ h fun _ he => by cases he

theorem driverStep {a : DriverStep} (h : w.ModesIn modes) (hs : w.driverStep a = some w') :
    w'.ModesIn modes := by
  cases World.driverStep_turn hs with
  | process env name todo _ => exact (h.processNamed name env).of_eq rfl rfl rfl
  | call env ws run todo _ _ =>
      exact (h.setThread 0 fun _ he => by cases he).of_eq rfl rfl rfl
  | tick _ | snapshot _ | purge _ _ | collect _ | cloneEnd _ | cloneGone _ _ _ | clone _ _ _ _ _
  | evaluate _ _ _ _ _ | drop _ _ _ | writeEnd _ _ _ _ | write _ _ _ _ _ _
  | callRefused _ _ _ _ | returned _ _ _ => exact h.of_eq rfl rfl rfl

/-- One step adds at most the mode of the create request it begins. -/
theorem step {a : Act} (h : w.ModesIn modes) (hs : w.step a = some w') :
    w'.ModesIn (modes ++ requestedModes [a]) := by
  cases a with
  | request r =>
      cases hs
      exact (h.serve r).mono
  | thread t s => exact h.threadStep hs
  | driver s => exact (h.driverStep hs).mono
  | openWorkspace =>
      cases hs
      refine World.ModesIn.mono ?_
      exact h.of_eq rfl rfl rfl
  | closeWorkspace ws =>
      cases hs
      refine World.ModesIn.mono ?_
      exact h.of_eq rfl rfl rfl
  | restart unreadable restored =>
      obtain ⟨-, rfl⟩ := World.step_restart hs
      refine ⟨fun g s hs => List.mem_append_left _ ?_, fun t s hs => (by cases hs), ?_⟩
      · dsimp only [World.restart] at hs
        rw [AList.lookup_mapVals, AList.lookup_retain] at hs
        cases hold : w.graphs.lookup g with
        | none =>
            rw [hold] at hs
            cases hs
        | some old =>
            rw [hold] at hs
            obtain ⟨r, hr, rfl⟩ := Option.map_eq_some_iff.mp hs
            obtain rfl : old = r := by
              dsimp only [Option.filter] at hr
              split at hr <;> cases hr
              rfl
            exact h.graphs g old hold
      · exact h.mono.launches

end World.ModesIn

/-- **In every run, the mode of a launched node was asked for by a create request.** -/
theorem launched_mode_requested (acts : List Act) {w₀ w : World} {modes : List String}
    (h0 : w₀.ModesIn modes) (hex : exec World.step w₀ acts = some w) :
    w.ModesIn (modes ++ requestedModes acts) := by
  induction acts generalizing w₀ modes with
  | nil =>
      cases hex
      exact h0.mono
  | cons a acts ih =>
      obtain ⟨m, ha, hrest⟩ := exec_cons.mp hex
      have hall := ih (h0.step ha) hrest
      have hsplit : requestedModes (a :: acts) = requestedModes [a] ++ requestedModes acts := by
        show List.filterMap _ ([a] ++ acts) = _
        rw [List.filterMap_append]
        rfl
      rw [hsplit, ← List.append_assoc]
      exact hall

def plannedCreate : List Act :=
  [.thread 1 (.createBegin "g" { permissionMode := some "plan" }
    { baseCwd := "/r", baseIsGit := true }), .thread 1 .createInsert]

theorem launched_mode_requested_plan :
    (World.after plannedCreate).ModesIn ([] ++ requestedModes plannedCreate) :=
  launched_mode_requested plannedCreate
    ⟨fun _ _ h => absurd h (by simp), fun _ _ h => (by cases h), fun _ h => (by cases h)⟩
    (World.after_exec (by decide))

/-! ## §3. Launches. -/

/-- The parameters of `goal.create` that choose the runner and the mode. -/
structure GoalRequest where
  runner : Option String := none
  agent : Option String := none
  model : Option String := none
  effort : Option String := none
  permissionMode : Option String := none

/-- `resolve_runner` of `goal.create`: a configured runner, with the request's own
agent, model and effort on top. -/
def resolveRunner (req : GoalRequest) (settings : GoalSettings) :
    Except String (String × GoalRunner) :=
  let name := req.runner.getD settings.defaultRunner
  match if name = "" then some {} else settings.runners.lookup name with
  | none => .error ("Unknown runner '" ++ name ++ "' (configure it in settings goal.runners)")
  | some runner =>
      let runner : GoalRunner :=
        { runner with
          agent := req.agent.getD runner.agent
          model := req.model.getD runner.model
          effort := req.effort.getD runner.effort }
      if runner.agent = "custom" ∧ runner.commandTemplate = "" then
        .error "custom runner needs a command_template"
      else if runner.agent ∉ ["", "claude", "custom"] then
        .error ("unknown runner agent '" ++ runner.agent ++ "' (expected claude or custom)")
      else .ok (if name = "" then "claude" else name, runner)

/-- A node that the scheduler launches, and the request that created its graph;
`launched_mode_requested` provides `kept`. -/
structure NodeLaunch where
  params : CreateParams
  spec : GraphSpec
  node : GraphNode
  kept : spec.permissionMode = params.permissionMode.getD ""

inductive AgentRequest
  | goal (req : GoalRequest)
  | node (launch : NodeLaunch)

namespace AgentRequest

/-- The create request asked for `bypassPermissions`. -/
def AsksBypass : AgentRequest → Prop
  | goal req => Str.trim (req.permissionMode.getD "") = "bypassPermissions"
  | node launch => Str.trim (launch.params.permissionMode.getD "") = "bypassPermissions"

instance (request : AgentRequest) : Decidable request.AsksBypass :=
  match request with
  | goal req =>
      inferInstanceAs (Decidable (Str.trim (req.permissionMode.getD "") = "bypassPermissions"))
  | node launch =>
      inferInstanceAs
        (Decidable (Str.trim (launch.params.permissionMode.getD "") = "bypassPermissions"))

/-- The runner of the launch. -/
def runner (settings : GoalSettings) : AgentRequest → Except String GoalRunner
  | goal req => (resolveRunner req settings).map (·.2)
  | node launch =>
      (resolveRunnerByName ((launch.node.runner.or launch.spec.runner).getD "") settings).map (·.2)

/-- The mode of the launch: a node passes on what its graph's spec has kept. -/
def mode (settings : GoalSettings) (runner : GoalRunner) : AgentRequest → String
  | goal req => resolvePermissionMode req.permissionMode runner settings
  | node launch => resolvePermissionMode (some launch.spec.permissionMode) runner settings

/-- The command of the launch. -/
def command (settings : GoalSettings) (sid : SessionId) (seedFile : String)
    (request : AgentRequest) : Except String String :=
  (request.runner settings).map fun runner =>
    launchCommand runner sid.text seedFile (request.mode settings runner)

theorem mode_mem (settings : GoalSettings) (runner : GoalRunner) (request : AgentRequest) :
    request.mode settings runner ∈ permissionModes := by
  cases request with
  | goal req => exact resolvePermissionMode_mem _ _ _
  | node launch => exact resolvePermissionMode_mem _ _ _

/-- Only the request can make the mode a bypass. -/
theorem mode_bypass {settings : GoalSettings} {runner : GoalRunner} {request : AgentRequest}
    (h : request.mode settings runner = "bypassPermissions") : request.AsksBypass := by
  cases request with
  | goal req => exact resolvePermissionMode_bypass h
  | node launch =>
      have hspec := resolvePermissionMode_bypass h
      rw [Option.getD_some, launch.kept] at hspec
      exact hspec

end AgentRequest

/-! ## §4. A bypass on the command line. -/

/-- **A launch of a claude runner carries a bypass only if its create request asked
for one, exactly when it did ask or the configured words are clean.**  `output`
stands for what the shell puts for the seed file's contents. -/
theorem bypass_never_configured_iff (settings : GoalSettings) (request : AgentRequest)
    {runner : GoalRunner} (hrunner : request.runner settings = .ok runner)
    (hclaude : runner.usesTemplate = false) (sid : SessionId) (seedFile : String)
    (output : List Char → List Char) :
    (∀ command argv, request.command settings sid seedFile = .ok command →
        commandWords output command = some argv → carriesBypass argv = true →
        request.AsksBypass) ↔
      request.AsksBypass ∨
        CleanConfig runner (request.mode settings runner) (promptOf output seedFile) := by
  have hcommand : request.command settings sid seedFile
      = .ok (launchCommand runner sid.text seedFile (request.mode settings runner)) := by
    unfold AgentRequest.command
    rw [hrunner]
    rfl
  have hwords := launchCommand_words output hclaude sid seedFile (request.mode settings runner)
  have hclean := claudeArgv_clean_iff runner sid (request.mode_mem settings runner)
    (promptOf output seedFile)
  constructor
  · intro h
    by_cases hask : request.AsksBypass
    · exact .inl hask
    · refine .inr ?_
      -- the command that is built carries no bypass
      have hnone : carriesBypass (claudeArgv runner sid.text (request.mode settings runner)
          (promptOf output seedFile)) = false := by
        cases hc : carriesBypass (claudeArgv runner sid.text (request.mode settings runner)
            (promptOf output seedFile)) with
        | true => exact absurd (h _ _ hcommand hwords hc) hask
        | false => rfl
      exact (hclean.mp hnone).2
  · rintro (hask | hconf) command argv hcmd hargv hbypass
    · exact hask
    · rw [hcommand] at hcmd
      obtain rfl := Except.ok.inj hcmd
      rw [hwords] at hargv
      obtain rfl := Option.some.inj hargv
      by_cases hmode : request.mode settings runner = "bypassPermissions"
      · exact AgentRequest.mode_bypass hmode
      · rw [hclean.mpr ⟨hmode, hconf⟩] at hbypass
        cases hbypass

def sampleSession : SessionId where
  text := "3dea5939-b01c-467b-ae34-d45ea3380cd4"
  nonempty := by decide
  digits := List.all_eq_true.mp (by decide)

/-- A stock claude runner is clean. -/
theorem bypass_never_configured_stock :
    ¬ ∃ command argv,
      (AgentRequest.goal {}).command {} sampleSession "/seeds/1.md" = .ok command ∧
      commandWords (fun _ => "# Goal".toList) command = some argv ∧ carriesBypass argv = true ∧
      ¬ (AgentRequest.goal {}).AsksBypass := by
  have hclean := (@bypass_never_configured_iff {} (.goal {}) {} rfl rfl sampleSession "/seeds/1.md"
    fun _ => "# Goal".toList).mpr (.inr ⟨by decide, by decide, by decide, by decide, by decide⟩)
  intro ⟨command, argv, hcommand, hwords, hbypass, hasks⟩
  exact hasks (hclean command argv hcommand hwords hbypass)

/-- A configured runner whose extra arguments are the bypass. -/
def skippingSettings : GoalSettings where
  runners := (∅ : AList fun _ : String => GoalRunner).insert "fast"
    { extraArgs := ["--dangerously-skip-permissions"] }

/-- A goal, and a node whose runner the plan has chosen, run without permission
checks although nobody asked for it. -/
theorem configured_bypass :
    let output := fun _ => "# Goal".toList
    let goal : AgentRequest := .goal { runner := some "fast" }
    let node : AgentRequest := .node
      ⟨{}, { name := "g", baseCwd := "/r" }, { id := "a", runner := some "fast" }, rfl⟩
    ∀ request ∈ [goal, node], ∃ command argv,
      request.command skippingSettings sampleSession "/seeds/1.md" = .ok command ∧
        commandWords output command = some argv ∧ carriesBypass argv = true ∧
        ¬ request.AsksBypass := by
  intro output goal node request hrequest
  have hfast : ∀ mode, commandWords output (launchCommand
      { extraArgs := ["--dangerously-skip-permissions"] } sampleSession.text "/seeds/1.md" mode)
        = some (claudeArgv { extraArgs := ["--dangerously-skip-permissions"] } sampleSession.text
            mode (promptOf output "/seeds/1.md")) :=
    launchCommand_words output rfl sampleSession "/seeds/1.md"
  have hpair : request = goal ∨ request = node := by simpa using hrequest
  rcases hpair with rfl | rfl
  · exact ⟨_, _, rfl, hfast _, by decide, by decide⟩
  · exact ⟨_, _, rfl, hfast _, by decide, by decide⟩

end Jmux.Goal
