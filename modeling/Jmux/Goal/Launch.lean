/-
  Jmux.Goal.Launch — `launch_goal`: open a workspace and register a run in it.

  Both `goal.create` and the graph scheduler come through here.  What the
  launch reads from the machine (directory listing, clock, settings, the answers
  of git and of the file system) is the `LaunchEnv` of that one call.  The seed
  and command texts go to the agent only and are not part of the state.
-/
import Jmux.Goal.IterationFile
import Jmux.Goal.Run

namespace Jmux.Goal

/-! ## §1. The part of the shared state a launch touches. -/

/-- The goal registry, the ids of the open workspaces, and the source of fresh
ids: every id handed out so far is below `nextUuid`. -/
structure Shared where
  goals : GoalRegistry := ∅
  workspaces : List Uuid := []
  nextUuid : Uuid := 0

/-- Where `launch_goal` gives up, with the answer of the file system (and the
directory as the message shows it). -/
inductive LaunchError where
  | outputDir (dir answer : String)
  | seedDir (answer : String)
  | seedFile (answer : String)
  | noPanel

def LaunchError.message : LaunchError → String
  | .outputDir dir answer => "cannot create " ++ dir ++ ": " ++ answer
  | .seedDir answer => "cannot create seed dir: " ++ answer
  | .seedFile answer => "cannot write seed file: " ++ answer
  | .noPanel => "new workspace has no panel"

/-- Numbering starts in an empty output directory. -/
theorem nextIterationNumber_nil : (nextIterationNumber []).isSome = true := by decide

/-- What one launch reads from its surroundings.  `fits` says that numbering the
next iteration does not overflow; a launch that overflows panics and has no
outcome. -/
structure LaunchEnv where
  settings : GoalSettings := {}
  worktreeExists : Bool := false
  makeParent : Except String Unit := .ok ()
  worktreeAdd : Except String Unit := .ok ()
  makeFiles : Except LaunchError Unit := .ok ()
  outputNames : List String := []
  epochNow : Nat := 0
  fits : (nextIterationNumber outputNames).isSome = true := by exact nextIterationNumber_nil

def LaunchEnv.iteration (env : LaunchEnv) : Nat :=
  (nextIterationNumber env.outputNames).get env.fits

/-- Everything needed to launch a goal run. -/
structure LaunchSpec where
  goalName : String
  goalPath : String
  cwd : String
  outputDirRel : String
  runnerName : String
  runner : GoalRunner
  maxIterations : Nat
  wallClockMinutes : Nat
  graph : Option GraphLink

/-! ## §2. The launch. -/

/-- The run that `launch_goal` registers. -/
def LaunchSpec.run (spec : LaunchSpec) (env : LaunchEnv) (ws : Uuid) : GoalRun :=
  { workspaceId := ws
    panelId := ws + 1
    sessionId := ws + 2
    goalName := spec.goalName
    goalPath := spec.goalPath
    cwd := spec.cwd
    outputDirRel := spec.outputDirRel
    iteration := env.iteration
    maxIterations := spec.maxIterations
    runnerName := spec.runnerName
    runner := spec.runner
    status := .running
    nudgesSent := 0
    idleTicks := 0
    noTextTicks := 0
    startedEpoch := env.epochNow
    wallClockMinutes := spec.wallClockMinutes
    lastEscalationEpoch := 0
    graph := spec.graph }

/-- Create the workspace, launch the runner, and register the run.  Returns the
id of the new workspace. -/
def launchGoal (spec : LaunchSpec) (env : LaunchEnv) (shared : Shared) :
    Except String (Uuid × Shared) :=
  match env.makeFiles with
  | .error e => .error e.message
  | .ok _ =>
      let ws := shared.nextUuid
      .ok (ws,
        { goals := register shared.goals (spec.run env ws)
          workspaces := ws :: shared.workspaces
          nextUuid := ws + 3 })

/-- **What a launch does**: a run under a fresh workspace id, nothing else. -/
theorem launchGoal_ok {spec : LaunchSpec} {env : LaunchEnv} {shared shared' : Shared} {ws : Uuid}
    (h : launchGoal spec env shared = .ok (ws, shared')) :
    ws = shared.nextUuid ∧ shared'.nextUuid = shared.nextUuid + 3 ∧
      shared'.workspaces = ws :: shared.workspaces ∧
      shared'.goals = shared.goals.insert ws (spec.run env ws) := by
  unfold launchGoal at h
  split at h
  · cases h
  · obtain ⟨rfl, rfl⟩ := Prod.mk.inj (Except.ok.inj h)
    exact ⟨rfl, rfl, rfl, rfl⟩

end Jmux.Goal
