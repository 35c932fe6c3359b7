/-
  Jmux.Goal.Iterate — `advance_iteration` and `drive_one` as single calls, and
  whether a run can stall.

  `World` cuts both functions at their lock steps.  Here each is one function on
  the goal registry; §3 says that the steps of the world compute it when no
  other party comes in between.

  Main results:
    * `advanceIteration_of_accepts` / `_of_refused` — when a call advances.
    * `driveTick_steps`   — the main loop's steps for one run are `driveTick`.
    * `no_silent_stall`   — out of time, a tick takes the run out of its place
                             exactly unless a blocked report below the cap meets
                             a refused advance.
-/
import Jmux.Goal.WorldInvariant

namespace Jmux.Goal

open Jmux.Lib

/-! ## §1. `advance_iteration`. -/

/-- What one call of `advance_iteration` meets. -/
structure AdvanceCall where
  env : AdvanceEnv := {}
  /-- There is a UI event channel to send the prompt through. -/
  delivered : Bool := true

def advanceIteration (call : AdvanceCall) (goals : GoalRegistry) (ws : Uuid) :
    Except String (Nat × GoalRegistry) :=
  match goals.lookup ws with
  | none => .error "no goal registered for that workspace"
  | some run =>
      -- a double-fired continue would bump the counter past the file
      if !finishedFile call.env.file then
        .error ("iteration " ++ toString run.iteration ++ " has no finished iteration file yet")
      -- an idle shell would execute the prompt
      else if stateDetectionIsClaude run.runner && !call.env.agentAlive then
        .error "the agent process is not running in that pane — resume it first"
      else if !call.delivered then .error "no UI event channel"
      else .ok (run.iteration + 1, beginIteration goals ws (run.iteration + 1))

/-- The call gets through its guards and its prompt is delivered. -/
def AdvanceCall.accepts (call : AdvanceCall) (run : GoalRun) : Bool :=
  advanceGuards run call.env && call.delivered

theorem advanceIteration_of_accepts {call : AdvanceCall} {goals : GoalRegistry} {ws : Uuid}
    {run : GoalRun} (hrun : goals.lookup ws = some run) (h : call.accepts run = true) :
    advanceIteration call goals ws
      = .ok (run.iteration + 1, beginIteration goals ws (run.iteration + 1)) := by
  unfold AdvanceCall.accepts advanceGuards at h
  simp only [Bool.and_eq_true, Bool.or_eq_true, Bool.not_eq_true'] at h
  obtain ⟨⟨hfile, hagent⟩, hsent⟩ := h
  have halive : (stateDetectionIsClaude run.runner && !call.env.agentAlive) = false := by
    rcases hagent with h | h <;> simp [h]
  simp [advanceIteration, hrun, hfile, halive, hsent]

theorem advanceIteration_of_refused {call : AdvanceCall} {goals : GoalRegistry} {ws : Uuid}
    {run : GoalRun} (hrun : goals.lookup ws = some run) (h : call.accepts run = false) :
    ∃ e, advanceIteration call goals ws = .error e := by
  unfold advanceIteration
  rw [hrun]
  dsimp only
  split
  · exact ⟨_, rfl⟩
  next hfile =>
    split
    · exact ⟨_, rfl⟩
    next hagent =>
      split
      · exact ⟨_, rfl⟩
      next hsent =>
        -- all three guards passed, so the call was accepted
        exfalso
        unfold AdvanceCall.accepts advanceGuards at h
        simp only [Bool.not_eq_true, Bool.not_eq_false'] at hfile hagent hsent
        cases hc : stateDetectionIsClaude run.runner <;> simp_all

theorem advanceIteration_missing {call : AdvanceCall} {goals : GoalRegistry} {ws : Uuid}
    (hrun : goals.lookup ws = none) :
    advanceIteration call goals ws = .error "no goal registered for that workspace" := by
  unfold advanceIteration
  rw [hrun]

/-! ## §2. `drive_one`. -/

/-- Clone the run, evaluate it, and do what the plan says.  `now` is the clock
that `escalate` reads. -/
def driveTick (ws : Uuid) (workspaceOpen : Bool) (obs : Observation) (call : AdvanceCall)
    (now : Nat) (goals : GoalRegistry) : GoalRegistry :=
  match goals.lookup ws with
  | none => goals
  | some run =>
      match driveOne ws run workspaceOpen obs with
      | .drop ws => goals.erase ws
      | .write ws due => due.foldl (fun goals wb => World.applyWriteBack goals ws now wb) goals
      | .advance ws =>
          match advanceIteration call goals ws with
          | .ok (_, goals) => goals
          -- the failure goes to the log only
          | .error _ => goals

/-! ## §3. The same, as steps of the world. -/

/-- The main loop's own steps: the driver's, and those of its `advance_iteration`. -/
def Act.OfMainLoop : Act → Prop
  | .driver _ => True
  | .thread t _ => t = 0
  | _ => False

/-- The write-backs of one plan, one lock step each. -/
theorem writes_steps (ws : Uuid) (now : Nat) (todo : List Uuid) (due : List WriteBack) :
    ∀ w : World, w.driver = .writing ws due todo →
      ∃ acts w', (∀ a ∈ acts, a.OfMainLoop) ∧ exec World.step w acts = some w' ∧
        w'.driver = .driving todo ∧
        w'.shared.goals
          = due.foldl (fun goals wb => World.applyWriteBack goals ws now wb) w.shared.goals := by
  induction due with
  | nil =>
      intro w hd
      refine ⟨[.driver (.write now)], { w with driver := .driving todo }, ?_, ?_, rfl, rfl⟩
      · simp [Act.OfMainLoop]
      · simp [exec, World.step, World.driverStep, hd]
  | cons wb due ih =>
      intro w hd
      let w₁ : World :=
        { w.setGoals (World.applyWriteBack w.shared.goals ws now wb) with
          driver := .writing ws due todo }
      have hstep : w.step (.driver (.write now)) = some w₁ := by
        simp [World.step, World.driverStep, hd, w₁]
      obtain ⟨acts, w', hacts, hex, hdrv, hgoals⟩ := ih w₁ rfl
      refine ⟨.driver (.write now) :: acts, w', ?_, exec_cons.mpr ⟨w₁, hstep, hex⟩, hdrv, ?_⟩
      · intro a ha
        rcases List.mem_cons.mp ha with rfl | ha
        · trivial
        · exact hacts a ha
      · rw [hgoals]
        rfl

/-- `advance_iteration` on the main loop: clone and guards, prompt, write-back. -/
theorem advance_steps (call : AdvanceCall) (ws : Uuid) (todo : List Uuid) (w : World)
    (hd : w.driver = .calling ws todo)
    (hfit : ∀ run, w.shared.goals.lookup ws = some run → run.iteration + 1 < 2 ^ 32) :
    ∃ acts w', (∀ a ∈ acts, a.OfMainLoop) ∧ exec World.step w acts = some w' ∧
      w'.driver = .driving todo ∧
      w'.shared.goals = match advanceIteration call w.shared.goals ws with
        | .ok (_, goals) => goals
        | .error _ => w.shared.goals := by
  have hcall : ∀ a ∈ [Act.driver (.call call.env)], a.OfMainLoop := by
    simp [Act.OfMainLoop]
  cases hrun : w.shared.goals.lookup ws with
  | none =>
      have hclone : w.cloneForAdvance ws call.env = none := by
        simp [World.cloneForAdvance, hrun]
      rw [advanceIteration_missing hrun]
      refine ⟨_, { w with driver := .driving todo }, hcall, ?_, rfl, rfl⟩
      simp [exec, World.step, World.driverStep, hd, hclone]
  | some run =>
      cases hguard : advanceGuards run call.env with
      | false =>
          have hclone : w.cloneForAdvance ws call.env = none := by
            simp [World.cloneForAdvance, Option.filter, hrun, hguard]
          have hrefused : call.accepts run = false := by simp [AdvanceCall.accepts, hguard]
          obtain ⟨e, he⟩ := advanceIteration_of_refused hrun hrefused
          rw [he]
          refine ⟨_, { w with driver := .driving todo }, hcall, ?_, rfl, rfl⟩
          simp [exec, World.step, World.driverStep, hd, hclone]
      | true =>
          have hclone : w.cloneForAdvance ws call.env = some run := by
            simp [World.cloneForAdvance, Option.filter, hrun, hguard]
          have hnext : World.nextIteration run = some (run.iteration + 1) := by
            unfold World.nextIteration
            rw [if_pos (hfit run hrun)]
          cases hsent : call.delivered with
          | false =>
              have hrefused : call.accepts run = false := by
                simp [AdvanceCall.accepts, hsent]
              obtain ⟨e, he⟩ := advanceIteration_of_refused hrun hrefused
              rw [he]
              refine ⟨[.driver (.call call.env), .thread 0 (.advanceSend false),
                .driver .returned], { (w.setThread 0 (.advancing ws run)).setThread 0 .idle with
                  driver := .driving todo }, by simp [Act.OfMainLoop], ?_, rfl, rfl⟩
              simp [exec, World.step, World.driverStep, World.threadStep, World.setThread, hd,
                hclone, hnext]
          | true =>
              have haccepts : call.accepts run = true := by
                simp [AdvanceCall.accepts, hguard, hsent]
              rw [advanceIteration_of_accepts hrun haccepts]
              refine ⟨[.driver (.call call.env), .thread 0 (.advanceSend true),
                .thread 0 .advanceWrite, .driver .returned],
                { ((w.setThread 0 (.advancing ws run)).setThread 0 (.sent ws run)).setThread 0 .idle
                  with
                  driver := .driving todo
                  prompts := w.prompts ++ [(ws, run.iteration + 1)]
                  shared :=
                    { w.shared with
                      goals := beginIteration w.shared.goals ws (run.iteration + 1) } },
                by simp [Act.OfMainLoop], ?_, rfl, rfl⟩
              simp [exec, World.step, World.driverStep, World.threadStep, World.setThread,
                World.setGoals, hd, hclone, hnext]

def EveryRun (P : Uuid → GoalRun → Prop) (goals : GoalRegistry) : Prop :=
  ∀ ws run, goals.lookup ws = some run → P ws run

/-- `P` holds of a run that is launched from a spec of the kind, the scheduler launches
specs of the kind, and what is done to a registered run keeps `P`. -/
structure RunLaw (kind : LaunchSpec → Prop) (P : Uuid → GoalRun → Prop) : Prop where
  node     : ∀ (s : GraphSpec) id spec, spec.outputDirRel = s.nodeOutputDir id → kind spec
  launched : ∀ spec env ws, kind spec → P ws (spec.run env ws)
  kept     : ∀ (op : GoalOp) ws run run', op.onRun ws (some run) = some run' → P ws run → P ws run'

/-- The part of the law that is about launches. -/
structure LaunchLaw (kind : LaunchSpec → Prop) (P : Uuid → GoalRun → Prop) : Prop where
  node     : ∀ (s : GraphSpec) id spec, spec.outputDirRel = s.nodeOutputDir id → kind spec
  launched : ∀ spec env ws, kind spec → P ws (spec.run env ws)

/-- Bare goals are created from specs of the kind. -/
def CreatesBy (kind : LaunchSpec → Prop) (_ : World) : Act → Prop
  | .request (.createGoal spec _) => kind { spec with graph := none }
  | _ => True

section

variable {kind : LaunchSpec → Prop} {P : Uuid → GoalRun → Prop}

theorem RunLaw.launches (law : RunLaw kind P) : LaunchLaw kind P := ⟨law.node, law.launched⟩

theorem EveryRun.insert {goals : GoalRegistry} (h : EveryRun P goals) (ws : Uuid) {run : GoalRun}
    (hrun : P ws run) : EveryRun P (goals.insert ws run) := by
  intro k r hr
  rw [AList.lookup_insert_eq_ite] at hr
  split at hr
  next hk =>
    obtain rfl : run = r := Option.some.inj hr
    rw [hk]
    exact hrun
  · exact h k r hr

theorem launchGoal_everyRun (law : LaunchLaw kind P) {spec : LaunchSpec} {env : LaunchEnv}
    {shared shared' : Shared} {ws : Uuid} (hspec : kind spec) (hall : EveryRun P shared.goals)
    (h : launchGoal spec env shared = .ok (ws, shared')) : EveryRun P shared'.goals := by
  obtain ⟨_, _, _, hgoals⟩ := launchGoal_ok h
  rw [hgoals]
  exact hall.insert ws (law.launched spec env ws hspec)

theorem launchNode_everyRun (law : LaunchLaw kind P) {env : LaunchEnv} {s s' : GraphSpec}
    {id : String} {shared shared' : Shared} (hall : EveryRun P shared.goals)
    (h : launchNode env s id shared = .ok (s', shared')) : EveryRun P shared'.goals := by
  obtain ⟨_, cwd, _, _, name, runner, -, -, -, hlaunch, -⟩ := launchNode_steps h
  have hkind : kind (s.nodeLaunch env id cwd name runner) := law.node s id _ rfl
  exact launchGoal_everyRun law hkind hall hlaunch

theorem launchReady_everyRun (law : LaunchLaw kind P) (env : String → LaunchEnv) :
    ∀ (ids : List String) (slots : Nat) (t : Tick), EveryRun P t.shared.goals →
      EveryRun P (launchReady env ids slots t).shared.goals
  | [], _, t, hall => by
      unfold launchReady
      exact hall
  | _ :: _, 0, t, hall => by
      unfold launchReady
      exact hall
  | id :: ids, slots + 1, t, hall => by
      rw [launchReady]
      split
      next hlaunch =>
        exact launchReady_everyRun law env ids slots _ (launchNode_everyRun law hall hlaunch)
      · exact launchReady_everyRun law env ids (slots + 1) _ hall

theorem processGraph_everyRun (law : LaunchLaw kind P) (env : TickEnv) (s : GraphSpec)
    {shared : Shared} (hall : EveryRun P shared.goals) :
    EveryRun P (processGraph env s shared).shared.goals := by
  unfold processGraph tickRunning scheduleSynced
  split
  · exact hall
  · split
    · exact hall
    split
    · exact hall
    -- the launches are all that touches the runs
    have hlaunched := launchReady_everyRun law env.launch
      (syncNodeStates shared.goals env.git s).readyIds
      ((syncNodeStates shared.goals env.git s).maxConcurrency
        - (syncNodeStates shared.goals env.git s).activeCount)
      ⟨syncNodeStates shared.goals env.git s, shared, []⟩ hall
    dsimp only
    split <;> exact hlaunched
  · exact hall

/-- What every launch establishes holds of every run after a step, if the step's own
operation keeps it. -/
theorem step_everyRun (law : LaunchLaw kind P) {w w' : World} {a : Act} (hw : w.Wf)
    (hall : EveryRun P w.shared.goals) (hkind : CreatesBy kind w a)
    (hkept : ∀ ws run run', (goalOp w a).onRun ws (some run) = some run' → P ws run → P ws run')
    (h : w.step a = some w') : EveryRun P w'.shared.goals := by
  intro ws run' hrun'
  rcases step_lookup_goals hw h ws with heq | ⟨hop, _⟩
  · rw [hrun'] at heq
    cases hrun : w.shared.goals.lookup ws with
    | none =>
        rw [hrun] at heq
        cases hop : goalOp w a <;> rw [hop] at heq <;> simp [GoalOp.onRun] at heq
    | some run =>
        rw [hrun] at heq
        exact hkept ws run run' heq.symm (hall ws run hrun)
  -- a new run: a request or a scheduler tick has launched it
  · refine (?_ : EveryRun P w'.shared.goals) ws run' hrun'
    cases a with
    | request r =>
        cases r with
        | createGoal spec env =>
            cases h
            dsimp only [World.serve]
            split
            · exact hall
            next hlaunch => exact launchGoal_everyRun law hkind hall hlaunch
        | _ => cases hop
    | driver s =>
        cases s with
        | process env =>
            dsimp only [World.step, World.driverStep] at h
            split at h <;> cases h
            dsimp only [World.processNamed]
            split
            · exact hall
            next spec _ => exact processGraph_everyRun law env spec hall
        | purge | drop | write _ =>
            dsimp only [goalOp] at hop
            split at hop <;> cases hop
        | _ => cases hop
    | thread t s =>
        cases s with
        | completeWrite | stopRuns | advanceWrite =>
            dsimp only [goalOp] at hop
            split at hop <;> cases hop
        | _ => cases hop
    | openWorkspace => cases hop
    | closeWorkspace k => cases hop
    | restart unreadable restored => cases hop

/-- **What every launch establishes and nothing undoes** holds of every registered run. -/
theorem reach_everyRun (law : RunLaw kind P) {w₀ w : World} (h0 : w₀.Start)
    (hr : Reach World.step (CreatesBy kind) w₀ w) : EveryRun P w.shared.goals := by
  have hstart : EveryRun P w₀.shared.goals := by
    intro ws run hrun
    rw [h0.goals] at hrun
    cases hrun
  have hboth : w.Wf ∧ EveryRun P w.shared.goals :=
    hr.invariant (fun w => w.Wf ∧ EveryRun P w.shared.goals) ⟨h0.wf, hstart⟩
      fun _ _ _ hinv hkind h => ⟨step_wf hinv.1 h,
        step_everyRun law.launches hinv.1 hinv.2 hkind (law.kept _) h⟩
  exact hboth.2

end

/-- No operation on a registered run changes its workspace or its output directory. -/
theorem GoalOp.onRun_frame {op : GoalOp} {ws : Uuid} {r r' : GoalRun}
    (h : op.onRun ws (some r) = some r') :
    r'.workspaceId = r.workspaceId ∧ r'.outputDirRel = r.outputDirRel := by
  have hset : ∀ (f : SetRun) (r : GoalRun),
      (f.apply r).workspaceId = r.workspaceId ∧ (f.apply r).outputDirRel = r.outputDirRel := by
    intro f r
    cases f <;> exact ⟨rfl, rfl⟩
  have hescalate : ∀ (r : GoalRun) (s : GoalStatus) (now : Nat),
      (r.escalate s now).workspaceId = r.workspaceId ∧
        (r.escalate s now).outputDirRel = r.outputDirRel := by
    intro r s now
    dsimp only [GoalRun.escalate]
    split <;> exact ⟨rfl, rfl⟩
  have hstop : ∀ (g : String) (r : GoalRun), (r.stopIfOf g).workspaceId = r.workspaceId ∧
      (r.stopIfOf g).outputDirRel = r.outputDirRel := by
    intro g r
    unfold GoalRun.stopIfOf
    split <;> exact ⟨rfl, rfl⟩
  cases op with
  | keep | grow =>
      cases h
      exact ⟨rfl, rfl⟩
  | setRun k f | escalate k _ _ | stop k | markDone k | begin k _ =>
      dsimp only [GoalOp.onRun] at h
      split at h <;> cases h <;> first | exact ⟨rfl, rfl⟩ | exact hset _ _ | exact hescalate _ _ _
  | stopOf g =>
      cases h
      exact hstop g r
  | purge live =>
      dsimp only [GoalOp.onRun, Option.filter] at h
      split at h <;> cases h
      exact ⟨rfl, rfl⟩
  | drop k =>
      dsimp only [GoalOp.onRun] at h
      split at h <;> cases h
      exact ⟨rfl, rfl⟩
  | clear => cases h

/-- A run is registered under its own workspace. -/
def Keyed (goals : GoalRegistry) : Prop :=
  ∀ ws run, goals.lookup ws = some run → run.workspaceId = ws

theorem keyed_law : RunLaw (fun _ => True) fun ws run => run.workspaceId = ws where
  node _ _ _ _ := trivial
  launched _ _ _ _ := rfl
  kept _ _ _ _ hop hrun := (GoalOp.onRun_frame hop).1.trans hrun

/-- In every world that is reached, the key of a run is the run's own workspace. -/
theorem reachable_keyed {w₀ w : World} (h0 : w₀.Start) (hr : Reachable World.step w₀ w) :
    Keyed w.shared.goals := by
  refine reach_everyRun keyed_law h0 (hr.mono fun w a _ => ?_)
  unfold CreatesBy
  split <;> trivial

/-! ## §5. No silent stall. -/

/-- After a tick the run is done, blocked or escalated, or in a later iteration. -/
def MovedOn (before : GoalRun) (goals : GoalRegistry) (ws : Uuid) : Prop :=
  ∃ after, goals.lookup ws = some after ∧
    (after.status = .done ∨ (∃ d, after.status = .blocked d) ∨
      (∃ d, after.status = .needsAttention d) ∨ before.iteration < after.iteration)

theorem GoalStatus.not_running_iff (s : GoalStatus) :
    (s = .done ∨ (∃ d, s = .blocked d) ∨ ∃ d, s = .needsAttention d) ↔ s ≠ .running := by
  cases s <;> simp

theorem MovedOn.of_status {before after : GoalRun} {goals : GoalRegistry} {ws : Uuid}
    (h : goals.lookup ws = some after) (hst : after.status ≠ .running) :
    MovedOn before goals ws := by
  refine ⟨after, h, ?_⟩
  rcases after.status.not_running_iff.mpr hst with hd | hb | hn
  · exact .inl hd
  · exact .inr (.inl hb)
  · exact .inr (.inr (.inl hn))

/-- A tick whose plan is one write-back of a status moves the run on. -/
theorem driveTick_write {ws : Uuid} {opened : Bool} {obs : Observation} {call : AdvanceCall}
    {now : Nat} {goals : GoalRegistry} {run : GoalRun} {wb : WriteBack}
    (hrun : goals.lookup ws = some run) (hplan : driveOne ws run opened obs = .write ws [wb])
    (hwb : wb = .setRun .finished ∨ ∃ status, wb = .escalate status ∧ status ≠ .running) :
    MovedOn run (driveTick ws opened obs call now goals) ws := by
  unfold driveTick
  rw [hrun]
  dsimp only
  rw [hplan]
  dsimp only [List.foldl_cons, List.foldl_nil]
  rcases hwb with rfl | ⟨status, rfl, hst⟩
  · have hafter : (setRun goals ws .finished).lookup ws = some (SetRun.finished.apply run) := by
      unfold setRun
      rw [AList.lookup_modify, if_pos rfl, hrun, Option.map_some]
    exact .of_status hafter (by simp [SetRun.apply])
  · have hafter : (escalate goals ws status now).lookup ws = some (run.escalate status now) := by
      unfold escalate
      rw [AList.lookup_modify, if_pos rfl, hrun, Option.map_some]
    exact .of_status hafter (by rw [GoalRun.escalate_status]; exact hst)

/-- What `drive_one` plans for an awake run that is out of time. -/
theorem driveOne_overtime {ws : Uuid} {run : GoalRun} {obs : Observation}
    (hkey : run.workspaceId = ws) (hawake : obs.hibernated = false)
    (hcap : 0 < run.wallClockMinutes)
    (hover : run.wallClockMinutes * 60 < obs.now - run.startedEpoch) :
    (parseIterationFile obs.file = some (some "blocked") ∧
        run.iteration < run.startedIterationCap ∧ driveOne ws run true obs = .advance ws) ∨
      (¬ (parseIterationFile obs.file = some (some "blocked") ∧
          run.iteration < run.startedIterationCap) ∧
        ∃ wb, driveOne ws run true obs = .write ws [wb] ∧
          (wb = .setRun .finished ∨ ∃ status, wb = .escalate status ∧ status ≠ .running)) := by
  unfold driveOne
  rw [Bool.not_true, if_neg Bool.false_ne_true]
  split
  next status hfile =>
    unfold onIterationFile
    rw [hkey]
    by_cases hdone : status = "done"
    · subst hdone
      refine .inr ⟨?_, .setRun .finished, rfl, .inl rfl⟩
      rw [hfile]
      simp
    rw [if_neg hdone]
    by_cases hblocked : status = "blocked"
    · subst hblocked
      rw [if_pos rfl]
      by_cases hmore : run.iteration < run.startedIterationCap
      · rw [if_pos hmore]
        exact .inl ⟨hfile, hmore, rfl⟩
      · rw [if_neg hmore]
        exact .inr ⟨fun h => hmore h.2, _, rfl, .inr ⟨_, rfl, by simp⟩⟩
    · rw [if_neg hblocked]
      refine .inr ⟨?_, _, rfl, .inr ⟨_, rfl, by simp⟩⟩
      rw [hfile]
      simp [hblocked]
  next hfile =>
    refine .inr ⟨?_, _, rfl, .inr ⟨_, rfl, by simp⟩⟩
    rw [hfile]
    simp
  next hfile =>
    -- without a report the clock decides
    rw [hawake, if_neg Bool.false_ne_true, if_pos ⟨hcap, hover⟩]
    refine .inr ⟨?_, _, rfl, .inr ⟨_, rfl, by simp⟩⟩
    rw [hfile]
    simp

/-- A refused advance leaves no trace in the registry, tick after tick. -/
theorem driveTick_refused {ws : Uuid} {opened : Bool} {obs : Observation} {call : AdvanceCall}
    {now : Nat} {goals : GoalRegistry} {run : GoalRun} (hrun : goals.lookup ws = some run)
    (hplan : driveOne ws run opened obs = .advance ws) (href : call.accepts run = false) :
    driveTick ws opened obs call now goals = goals := by
  obtain ⟨e, he⟩ := advanceIteration_of_refused hrun href
  unfold driveTick
  rw [hrun]
  dsimp only
  rw [hplan]
  dsimp only
  rw [he]

/-- **Out of time, a tick moves the run on unless it is refused its next
iteration**: the report says `blocked`, iterations are left, and
`advance_iteration` fails. -/
theorem no_silent_stall {goals : GoalRegistry} {ws : Uuid} {run : GoalRun}
    (obs : Observation) (call : AdvanceCall) (now : Nat) (hkeyed : Keyed goals)
    (hrun : goals.lookup ws = some run)
    (hawake : obs.hibernated = false) (hcap : 0 < run.wallClockMinutes)
    (hover : run.wallClockMinutes * 60 < obs.now - run.startedEpoch) :
    MovedOn run (driveTick ws true obs call now goals) ws ↔
      ¬ (run.status = .running ∧ parseIterationFile obs.file = some (some "blocked") ∧
        run.iteration < run.startedIterationCap ∧ call.accepts run = false) := by
  have hkey := hkeyed ws run hrun
  rcases driveOne_overtime hkey hawake hcap hover with ⟨hfile, hmore, hplan⟩ | ⟨hnot, wb, hplan, hwb⟩
  · cases hacc : call.accepts run with
    | true =>
        refine ⟨fun _ h => by simp at h, fun _ => ?_⟩
        have htick : driveTick ws true obs call now goals
            = beginIteration goals ws (run.iteration + 1) := by
          unfold driveTick
          rw [hrun]
          dsimp only
          rw [hplan]
          dsimp only
          rw [advanceIteration_of_accepts hrun hacc]
        refine ⟨run.begin (run.iteration + 1), ?_, .inr (.inr (.inr ?_))⟩
        · rw [htick]
          unfold beginIteration
          rw [AList.lookup_modify, if_pos rfl, hrun, Option.map_some]
        · rw [GoalRun.begin_iteration]
          exact Nat.lt_succ_self _
    | false =>
        rw [driveTick_refused hrun hplan hacc]
        constructor
        · rintro ⟨after, hafter, hst⟩ ⟨hrunning, _⟩
          obtain rfl : run = after := Option.some.inj (hrun.symm.trans hafter)
          rw [hrunning] at hst
          simp at hst
        · intro h
          have hst : run.status ≠ .running := fun hr => h ⟨hr, hfile, hmore, rfl⟩
          exact .of_status hrun hst
  · exact ⟨fun _ h => hnot ⟨h.2.1, h.2.2.1⟩, fun _ => driveTick_write hrun hplan hwb⟩

/-- A run of a stock claude runner, launched in workspace 0 at epoch 0, with two
hours and three iterations. -/
def overtimeRun : GoalRun :=
  LaunchSpec.run
    { goalName := "mapsite", goalPath := "goal.md", cwd := "/repo", outputDirRel := "docs/roadmap"
      runnerName := "claude", runner := {}, maxIterations := 3, wallClockMinutes := 120
      graph := none } {} 0

theorem overtimeRun_keyed : Keyed ((∅ : GoalRegistry).insert 0 overtimeRun) :=
  EveryRun.insert (fun _ _ h => by cases h) 0 rfl

/-- A tick of the main loop that has come to this run. -/
def overtimeTick : World where
  shared := { goals := (∅ : GoalRegistry).insert 0 overtimeRun }
  driver := .driving [0]

/-- Without a report the overtime ends the run. -/
theorem no_silent_stall_noReport :
    MovedOn overtimeRun
      (driveTick 0 true { now := 7201 } {} 7201 ((∅ : GoalRegistry).insert 0 overtimeRun)) 0 :=
  (no_silent_stall { now := 7201 } {} 7201 overtimeRun_keyed (by rw [AList.lookup_insert])
    rfl (by decide) (by decide)).mpr (by decide)

/-- The agent reports `blocked` and exits: the tick leaves the run where it is,
and so does every later one. -/
theorem blocked_report_stalls :
    ¬ ∀ (goals : GoalRegistry) (ws : Uuid) (run : GoalRun) (obs : Observation)
        (call : AdvanceCall) (now : Nat),
      Keyed goals → goals.lookup ws = some run → run.status.isTerminal = false →
      obs.hibernated = false → 0 < run.wallClockMinutes →
      run.wallClockMinutes * 60 < obs.now - run.startedEpoch →
      MovedOn run (driveTick ws true obs call now goals) ws := by
  intro h
  let report := "---\nstatus: blocked\n---\n"
  let obs : Observation := { file := some report, now := 7201, agentAlive := false }
  let call : AdvanceCall := { env := { file := some report, agentAlive := false } }
  have hmoved := h ((∅ : GoalRegistry).insert 0 overtimeRun) 0 overtimeRun obs call 7201
    overtimeRun_keyed (by rw [AList.lookup_insert]) rfl rfl (by decide) (by decide)
  have hplan : driveOne 0 overtimeRun true obs = .advance 0 := by decide
  rw [driveTick_refused (by rw [AList.lookup_insert]) hplan (by decide)] at hmoved
  obtain ⟨after, hafter, hst⟩ := hmoved
  obtain rfl : overtimeRun = after := by
    rw [AList.lookup_insert] at hafter
    exact Option.some.inj hafter
  simp [overtimeRun, LaunchSpec.run] at hst

end Jmux.Goal
