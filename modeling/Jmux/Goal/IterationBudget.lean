/-
  Jmux.Goal.IterationBudget — how many iterations a run makes whose agent keeps
  reporting `blocked`.

  A run starts at the number behind the highest iteration file in its directory; the
  driver compares that number, which goes on counting, with `max_iterations`.  The files
  of earlier runs so count against the run's own iterations.

  Main results:
    * `blocked_progress`      — where a run is after so many reports.
    * `ownIterations_iff`     — when the iterations that it makes are `max_iterations`.
    * `iteration_budget_iff`  — the same for every launch.
    * `earlier_files_count`   — a run that is stopped after its first iteration.
-/
import Jmux.Goal.Iterate

namespace Jmux.Goal

open Jmux.Lib

/-! ## §1. The driver's visits. -/

/-- One visit of the driver to a run: what it observes, what `advance_iteration` meets,
and the clock. -/
structure Visit where
  obs  : Observation := {}
  call : AdvanceCall := {}
  now  : Nat := 0

/-- The visit finds the report of the iteration, and the agent that wrote it. -/
structure Visit.Reports (v : Visit) : Prop where
  blocked   : parseIterationFile v.obs.file = some (some "blocked")
  same      : v.call.env.file = v.obs.file
  alive     : v.call.env.agentAlive = true
  delivered : v.call.delivered = true

def Plan.writes : Plan → List WriteBack
  | .write _ due => due
  | _ => []

/-- The visit finds no report, and nothing to escalate. -/
structure Visit.Waits (v : Visit) (ws : Uuid) (run : GoalRun) : Prop where
  noReport : parseIterationFile v.obs.file = none
  quiet    : ∀ status, .escalate status ∉ (driveOne ws run true v.obs).writes

def Visit.drive (v : Visit) (ws : Uuid) (goals : GoalRegistry) : GoalRegistry :=
  driveTick ws true v.obs v.call v.now goals

/-- From one registry to another the driver has met so many reports of the run, which it
visits as long as it is not terminal; the other parties leave the run alone. -/
inductive BlockedRun (ws : Uuid) : Nat → GoalRegistry → GoalRegistry → Prop
  | start (goals : GoalRegistry) : BlockedRun ws 0 goals goals
  | report {k : Nat} {goals goals' : GoalRegistry} (v : Visit) (before : BlockedRun ws k goals goals')
      (visited : ws ∈ nonTerminalIds goals') (reports : v.Reports) :
      BlockedRun ws (k + 1) goals (v.drive ws goals')
  | wait {k : Nat} {goals goals' : GoalRegistry} {run : GoalRun} (v : Visit)
      (before : BlockedRun ws k goals goals') (visited : ws ∈ nonTerminalIds goals')
      (found : goals'.lookup ws = some run) (waits : v.Waits ws run) :
      BlockedRun ws k goals (v.drive ws goals')
  | others {k : Nat} {goals goals' goals'' : GoalRegistry} (before : BlockedRun ws k goals goals')
      (same : goals''.lookup ws = goals'.lookup ws) : BlockedRun ws k goals goals''

/-! ## §2. What a visit does. -/

/-- In its `k`-th own iteration, counted from zero. -/
structure InIteration (ws : Uuid) (launched : GoalRun) (k : Nat) (run : GoalRun) : Prop where
  status : run.status = .running
  number : run.iteration = launched.iteration + k
  cap    : run.maxIterations = launched.maxIterations
  key    : run.workspaceId = ws

section Visits

variable {ws : Uuid} {launched run : GoalRun} {goals : GoalRegistry} {v : Visit} {k : Nat}

theorem visited_iff (hrun : goals.lookup ws = some run) :
    ws ∈ nonTerminalIds goals ↔ run.status.isTerminal = false := by
  unfold nonTerminalIds
  simp only [List.mem_map, List.mem_filter, Bool.not_eq_true']
  constructor
  · rintro ⟨⟨key, found⟩, ⟨hmem, hstatus⟩, rfl⟩
    have hlookup : goals.lookup key = some found := AList.mem_lookup_iff.mpr hmem
    rw [hrun] at hlookup
    rw [Option.some.inj hlookup]
    exact hstatus
  · intro hstatus
    exact ⟨⟨ws, run⟩, ⟨AList.mem_lookup_iff.mp hrun, hstatus⟩, rfl⟩

theorem driveOne_blocked (h : v.Reports) :
    driveOne ws run true v.obs = onIterationFile run "blocked" := by
  simp [driveOne, h.blocked]

theorem Visit.Reports.accepts (h : v.Reports) (run : GoalRun) : v.call.accepts run = true := by
  have hfile : finishedFile v.call.env.file = true := by
    rw [h.same]
    simp [finishedFile, h.blocked]
  simp [AdvanceCall.accepts, advanceGuards, hfile, h.alive, h.delivered]

/-- Below the cap a report starts the next iteration. -/
theorem report_continues (hrun : goals.lookup ws = some run) (hin : InIteration ws launched k run)
    (h : v.Reports) (hcap : run.iteration < run.startedIterationCap) :
    ∃ run', (v.drive ws goals).lookup ws = some run' ∧ InIteration ws launched (k + 1) run' := by
  have hplan : driveOne ws run true v.obs = .advance ws := by
    rw [driveOne_blocked h]
    simp [onIterationFile, hcap, hin.key]
  refine ⟨run.begin (run.iteration + 1), ?_, rfl, ?_, hin.cap, hin.key⟩
  · unfold Visit.drive driveTick
    rw [hrun]
    dsimp only
    rw [hplan]
    dsimp only
    rw [advanceIteration_of_accepts hrun (h.accepts run)]
    show (beginIteration goals ws (run.iteration + 1)).lookup ws = _
    rw [beginIteration, AList.lookup_modify, if_pos rfl, hrun]
    rfl
  · rw [GoalRun.begin_iteration, hin.number]
    rfl

/-- At the cap it stops the run. -/
theorem report_stops (hrun : goals.lookup ws = some run) (hin : InIteration ws launched k run)
    (h : v.Reports) (hcap : ¬ run.iteration < run.startedIterationCap) :
    ∃ run', (v.drive ws goals).lookup ws = some run' ∧
      run'.status = .blocked "the agent could not finish" ∧
      run'.iteration = launched.iteration + k := by
  have hplan : driveOne ws run true v.obs =
      .write ws [.escalate (.blocked "the agent could not finish")] := by
    rw [driveOne_blocked h]
    simp [onIterationFile, hcap, hin.key]
  refine ⟨run.escalate (.blocked "the agent could not finish") v.now, ?_, by simp, ?_⟩
  · unfold Visit.drive driveTick
    rw [hrun]
    dsimp only
    rw [hplan]
    show (escalate goals ws _ v.now).lookup ws = _
    rw [escalate, AList.lookup_modify, if_pos rfl, hrun]
    rfl
  · rw [GoalRun.escalate_iteration, hin.number]

/-- Without a report the driver only writes to the run, and does not finish it. -/
theorem driveOne_noReport (h : parseIterationFile v.obs.file = none) :
    ∃ due, driveOne ws run true v.obs = .write ws due ∧ .setRun .finished ∉ due := by
  have hidle : .setRun .finished ∉ driveIdle run v.obs := by
    unfold driveIdle
    dsimp only
    split_ifs <;> simp
  have hscreen : .setRun .finished ∉ driveScreen run v.obs := by
    unfold driveScreen
    cases v.obs.screen with
    | none =>
        dsimp only
        split_ifs <;> simp
    | some screen =>
        have hback : WriteBack.setRun .finished ∉
            (if run.noTextTicks ≠ 0 then [WriteBack.setRun .textBack] else []) := by
          split_ifs <;> simp
        simp only [List.mem_append, not_or]
        refine ⟨hback, ?_⟩
        cases screen.menu with
        | true => simp
        | false =>
            rcases screen.state with _ | (_ | _ | _)
            · exact hidle
            · simp
            · simp
            · exact hidle
  unfold driveOne
  simp only [h, Bool.not_true, Bool.false_eq_true, if_false]
  split_ifs
  · exact ⟨_, rfl, by simp⟩
  · exact ⟨_, rfl, by simp⟩
  · exact ⟨_, rfl, by simp⟩
  · exact ⟨_, rfl, hscreen⟩

theorem InIteration.setRun (hin : InIteration ws launched k run) {f : SetRun} (hf : f ≠ .finished) :
    InIteration ws launched k (f.apply run) := by
  refine ⟨?_, (SetRun.apply_iteration f run).trans hin.number, ?_, ?_⟩
  · cases f <;> simp [SetRun.apply, hin.status, GoalStatus.clearAttention] at hf ⊢
  · rw [← hin.cap]
    cases f <;> rfl
  · rw [← hin.key]
    cases f <;> rfl

/-- The write-backs of a quiet visit keep the run in its iteration. -/
theorem writes_keep {due : List WriteBack} (now : Nat) (hfinished : .setRun .finished ∉ due)
    (hquiet : ∀ status, .escalate status ∉ due) (hrun : goals.lookup ws = some run)
    (hin : InIteration ws launched k run) :
    ∃ run', (due.foldl (fun goals wb => World.applyWriteBack goals ws now wb) goals).lookup ws
      = some run' ∧ InIteration ws launched k run' := by
  induction due generalizing goals run with
  | nil => exact ⟨run, hrun, hin⟩
  | cons wb due ih =>
      simp only [List.mem_cons, not_or] at hfinished hquiet
      cases wb with
      | escalate status => exact absurd rfl (hquiet status).1
      | setRun f =>
          have hf : f ≠ .finished := by
            rintro rfl
            exact hfinished.1 rfl
          have hstep : (World.applyWriteBack goals ws now (.setRun f)).lookup ws
              = some (f.apply run) := by
            show (Jmux.Goal.setRun goals ws f).lookup ws = _
            rw [Jmux.Goal.setRun, AList.lookup_modify, if_pos rfl, hrun]
            rfl
          exact ih hfinished.2 (fun status => (hquiet status).2) hstep (hin.setRun hf)

theorem wait_keeps (hrun : goals.lookup ws = some run) (hin : InIteration ws launched k run)
    (h : v.Waits ws run) :
    ∃ run', (v.drive ws goals).lookup ws = some run' ∧ InIteration ws launched k run' := by
  obtain ⟨due, hplan, hfinished⟩ := @driveOne_noReport ws run v h.noReport
  have hquiet := h.quiet
  rw [hplan] at hquiet
  unfold Visit.drive driveTick
  rw [hrun]
  dsimp only
  rw [hplan]
  exact writes_keep v.now hfinished hquiet hrun hin

end Visits

/-! ## §3. The iterations of a run. -/

/-- The iterations that a run makes of its own. -/
def ownIterations (start cap : Nat) : Nat := max (max cap 1 + 1 - start) 1

/-- After `k` reports the run is in its next iteration, or it has made them all and is
stopped. -/
def AfterReports (launched : GoalRun) (total k : Nat) (run : GoalRun) : Prop :=
  (k < total → run.status = .running ∧ run.iteration = launched.iteration + k) ∧
  (k = total → run.status = .blocked "the agent could not finish" ∧
    run.iteration + 1 = launched.iteration + total)

/-- A run that keeps reporting `blocked` makes so many iterations, and then it is stopped. -/
def MakesIterations (ws : Uuid) (goals : GoalRegistry) (launched : GoalRun) (total : Nat) : Prop :=
  ∀ k goals', BlockedRun ws k goals goals' →
    k ≤ total ∧ ∃ run, goals'.lookup ws = some run ∧ AfterReports launched total k run

section Progress

variable {ws : Uuid} {launched : GoalRun} {goals goals' : GoalRegistry} {k : Nat}

theorem ownIterations_pos (start cap : Nat) : 0 < ownIterations start cap := by
  unfold ownIterations
  omega

/-- The cap is met in the last of them. -/
theorem below_cap_iff {start cap k : Nat} (hk : k < ownIterations start cap) :
    start + k < max cap 1 ↔ k + 1 < ownIterations start cap := by
  unfold ownIterations at hk ⊢
  omega

/-- **Where a run is after so many reports**, whatever else the driver has seen. -/
theorem blocked_progress (hlaunched : goals.lookup ws = some launched)
    (hkey : launched.workspaceId = ws) (hrunning : launched.status = .running)
    (h : BlockedRun ws k goals goals') :
    (k < ownIterations launched.iteration launched.maxIterations ∧
      ∃ run, goals'.lookup ws = some run ∧ InIteration ws launched k run) ∨
    (k = ownIterations launched.iteration launched.maxIterations ∧
      ∃ run, goals'.lookup ws = some run ∧ run.status = .blocked "the agent could not finish" ∧
        run.iteration + 1 = launched.iteration + k) := by
  induction h with
  | start => exact .inl ⟨ownIterations_pos _ _, launched, hlaunched, hrunning, rfl, rfl, hkey⟩
  | others before same ih =>
      rw [same]
      exact ih hlaunched
  | @report k goals goals' v before visited reports ih =>
      rcases ih hlaunched with ⟨hk, run, hrun, hin⟩ | ⟨-, run, hrun, hstatus, -⟩
      · have hcap := @below_cap_iff launched.iteration launched.maxIterations k hk
        rw [← hin.number, ← hin.cap] at hcap
        by_cases hmore : run.iteration < run.startedIterationCap
        · exact .inl ⟨hin.cap ▸ hcap.mp hmore, report_continues hrun hin reports hmore⟩
        · obtain ⟨run', hrun', hstatus, hnumber⟩ := report_stops hrun hin reports hmore
          have hlast : ¬ k + 1 < ownIterations launched.iteration launched.maxIterations :=
            fun h => hmore (hcap.mpr (hin.cap.symm ▸ h))
          refine .inr ⟨by omega, run', hrun', hstatus, ?_⟩
          rw [hnumber]
          rfl
      · rw [visited_iff hrun, hstatus] at visited
        exact nomatch visited
  | @wait k goals goals' run v before visited found waits ih =>
      rcases ih hlaunched with ⟨hk, run', hrun, hin⟩ | ⟨-, run', hrun, hstatus, -⟩
      · obtain rfl := Option.some.inj (found.symm.trans hrun)
        exact .inl ⟨hk, wait_keeps hrun hin waits⟩
      · rw [visited_iff hrun, hstatus] at visited
        exact nomatch visited

theorem makes_ownIterations (hlaunched : goals.lookup ws = some launched)
    (hkey : launched.workspaceId = ws) (hrunning : launched.status = .running) :
    MakesIterations ws goals launched
      (ownIterations launched.iteration launched.maxIterations) := by
  intro k goals' h
  rcases blocked_progress hlaunched hkey hrunning h with
    ⟨hk, run, hrun, hin⟩ | ⟨hk, run, hrun, hstatus, hnumber⟩
  · exact ⟨hk.le, run, hrun, fun _ => ⟨hin.status, hin.number⟩, fun heq => absurd hk (by omega)⟩
  · exact ⟨hk.le, run, hrun, fun hlt => absurd hlt (by omega), fun heq => ⟨hstatus, heq ▸ hnumber⟩⟩

/-- A visit that finds a report. -/
def blockedVisit : Visit where
  obs  := { file := some "---\nstatus: blocked\n---\n" }
  call := { env := { file := some "---\nstatus: blocked\n---\n" } }

theorem blockedVisit_reports : blockedVisit.Reports := ⟨by decide, rfl, rfl, rfl⟩

/-- An agent can report `blocked` in each of the iterations. -/
theorem exists_blockedRun (hlaunched : goals.lookup ws = some launched)
    (hkey : launched.workspaceId = ws) (hrunning : launched.status = .running)
    (hk : k ≤ ownIterations launched.iteration launched.maxIterations) :
    ∃ goals', BlockedRun ws k goals goals' := by
  induction k with
  | zero => exact ⟨goals, .start goals⟩
  | succ k ih =>
      obtain ⟨goals', before⟩ := ih (by omega)
      rcases blocked_progress hlaunched hkey hrunning before with
        ⟨-, run, hrun, hin⟩ | ⟨heq, -⟩
      · have hvisited : ws ∈ nonTerminalIds goals' := by
          rw [visited_iff hrun, hin.status]
          rfl
        exact ⟨_, .report blockedVisit before hvisited blockedVisit_reports⟩
      · omega

/-- The iterations that a run makes are so many and no others. -/
theorem makesIterations_iff {total : Nat} (hlaunched : goals.lookup ws = some launched)
    (hkey : launched.workspaceId = ws) (hrunning : launched.status = .running) :
    MakesIterations ws goals launched total ↔
      total = ownIterations launched.iteration launched.maxIterations := by
  constructor
  · intro hmakes
    obtain ⟨goals', hall⟩ := exists_blockedRun hlaunched hkey hrunning (le_refl _)
    obtain ⟨hle, run, hrun, hbelow, -⟩ := hmakes _ goals' hall
    obtain ⟨-, run', hrun', -, hstopped⟩ :=
      makes_ownIterations hlaunched hkey hrunning _ goals' hall
    obtain rfl := Option.some.inj (hrun.symm.trans hrun')
    by_contra hne
    have hrunning' := (hbelow (by omega)).1
    rw [(hstopped rfl).1] at hrunning'
    exact nomatch hrunning'
  · rintro rfl
    exact makes_ownIterations hlaunched hkey hrunning

end Progress

/-! ## §4. Launches. -/

theorem ownIterations_iff {start cap : Nat} (hstart : 1 ≤ start) (hcap : 1 ≤ cap) :
    cap = ownIterations start cap ↔ start = 1 ∨ cap = 1 := by
  unfold ownIterations
  omega

/-- There is no file of an earlier iteration. -/
def NoIterationFiles (names : List String) : Prop :=
  ∀ name ∈ names, ∀ n, iterationOfFileName name = some n → n = 0

theorem LaunchEnv.iteration_eq (env : LaunchEnv) :
    env.iteration = (env.outputNames.filterMap iterationOfFileName).foldl max 0 + 1 := by
  have hsome : nextIterationNumber env.outputNames = some env.iteration :=
    (Option.some_get env.fits).symm
  unfold nextIterationNumber at hsome
  dsimp only at hsome
  split_ifs at hsome with hfits
  exact (Option.some.inj hsome).symm

theorem foldl_max_eq_zero_iff (numbers : List Nat) :
    numbers.foldl max 0 = 0 ↔ ∀ n ∈ numbers, n = 0 := by
  have hle := foldl_max_le_iff numbers 0 0
  simp only [Nat.le_zero, true_and] at hle
  exact hle

/-- A run starts with iteration 1 exactly when there is none. -/
theorem LaunchEnv.iteration_eq_one_iff (env : LaunchEnv) :
    env.iteration = 1 ↔ NoIterationFiles env.outputNames := by
  rw [env.iteration_eq, Nat.add_eq_right, foldl_max_eq_zero_iff]
  unfold NoIterationFiles
  simp only [List.mem_filterMap]
  constructor
  · intro h name hname n hn
    exact h n ⟨name, hname, hn⟩
  · rintro h n ⟨name, hname, hn⟩
    exact h name hname n hn

section Launches

variable {spec : LaunchSpec} {env : LaunchEnv} {shared shared' : Shared} {ws : Uuid}

theorem launched_makesIterations_iff (hlaunch : launchGoal spec env shared = .ok (ws, shared'))
    (hcap : 1 ≤ spec.maxIterations) :
    MakesIterations ws shared'.goals (spec.run env ws) spec.maxIterations ↔
      NoIterationFiles env.outputNames ∨ spec.maxIterations = 1 := by
  obtain ⟨-, -, -, hgoals⟩ := launchGoal_ok hlaunch
  have hrun : shared'.goals.lookup ws = some (spec.run env ws) := by
    rw [hgoals, AList.lookup_insert]
  rw [makesIterations_iff hrun rfl rfl, ← env.iteration_eq_one_iff]
  have hstart : 1 ≤ env.iteration := by
    rw [env.iteration_eq]
    omega
  exact ownIterations_iff hstart hcap

end Launches

/-- **A launched run that keeps reporting `blocked` makes its own `max_iterations`
iterations** exactly when no iteration file was there before, or one is all it gets. -/
theorem iteration_budget_iff {spec : LaunchSpec} {env : LaunchEnv} {shared shared' : Shared}
    {ws : Uuid} (hlaunch : launchGoal spec env shared = .ok (ws, shared'))
    (hcap : 1 ≤ spec.maxIterations) :
    MakesIterations ws shared'.goals (spec.run env ws) spec.maxIterations ↔
      NoIterationFiles env.outputNames ∨ spec.maxIterations = 1 :=
  launched_makesIterations_iff hlaunch hcap

/-- A bare goal with the default of three iterations. -/
def budgetSpec : LaunchSpec where
  goalName := "mapsite"
  goalPath := "goal.md"
  cwd := "/repo"
  outputDirRel := "docs/roadmap"
  runnerName := "claude"
  runner := {}
  maxIterations := 3
  wallClockMinutes := 120
  graph := none

/-- In an empty directory all three are made. -/
theorem iteration_budget_empty :
    launchGoal budgetSpec {} {} = .ok (0, ⟨(∅ : GoalRegistry).insert 0 (budgetSpec.run {} 0), [0], 3⟩) ∧
    1 ≤ budgetSpec.maxIterations ∧
    (MakesIterations 0 ((∅ : GoalRegistry).insert 0 (budgetSpec.run {} 0)) (budgetSpec.run {} 0) 3 ↔
      NoIterationFiles [] ∨ (3 : Nat) = 1) :=
  ⟨rfl, by decide, @iteration_budget_iff budgetSpec {} {} _ 0 rfl (by decide)⟩

/-- The reports of an earlier goal are in the directory. -/
def laterEnv : LaunchEnv where
  outputNames := ["iteration-1.md", "iteration-2.md", "iteration-3.md"]

/-- The run gets no second iteration. -/
theorem earlier_files_count : ¬ ∀ (spec : LaunchSpec) (env : LaunchEnv) (shared shared' : Shared)
    (ws : Uuid), launchGoal spec env shared = .ok (ws, shared') → 1 ≤ spec.maxIterations →
    MakesIterations ws shared'.goals (spec.run env ws) spec.maxIterations := by
  intro h
  have hmakes := h budgetSpec laterEnv {} _ 0 rfl (by decide)
  rcases (@launched_makesIterations_iff budgetSpec laterEnv {} _ 0 rfl (by decide)).mp hmakes
    with hnone | hone
  · exact absurd (hnone "iteration-3.md" (by decide) 3 (by decide)) (by decide)
  · exact absurd hone (by decide)

end Jmux.Goal
