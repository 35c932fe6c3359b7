/-
  Jmux.Goal.Run — the goal registry (`goal/mod.rs`).

  A goal run is one agent working toward one goal in one workspace.  The runs
  live in a registry keyed by workspace id; the driver on the main loop and the
  socket handlers change them through short critical sections on one lock.
  Each definition below is what one such critical section does to the registry.

  A `Uuid` is only ever compared, so a number stands for it.  Counters and
  epochs are natural numbers: the release profile keeps overflow checks on, so
  the arithmetic never wraps.
-/
import Jmux.Lib.FiniteMap

namespace Jmux.Goal

/-- A v4 UUID. -/
abbrev Uuid := Nat

/-! ## §1. Runs. -/

/-- Lifecycle state of a goal run. -/
inductive GoalStatus where
  | running
  /-- Still running, but the driver has given up nudging and has escalated. -/
  | needsAttention (detail : String)
  | done
  | blocked (detail : String)
  deriving DecidableEq, Repr

namespace GoalStatus

def isTerminal : GoalStatus → Bool
  | .done | .blocked _ => true
  | _ => false

@[simp] theorem isTerminal_running : running.isTerminal = false := rfl
@[simp] theorem isTerminal_needsAttention (d : String) :
    (needsAttention d).isTerminal = false := rfl
@[simp] theorem isTerminal_done : done.isTerminal = true := rfl
@[simp] theorem isTerminal_blocked (d : String) : (blocked d).isTerminal = true := rfl

end GoalStatus

/-- Ties a goal run to the graph node it executes. -/
structure GraphLink where
  graph : String
  node : String
  deriving DecidableEq, Repr

/-- A named goal runner: which agent CLI, model and effort executes a goal. -/
structure GoalRunner where
  agent : String := ""
  model : String := ""
  effort : String := ""
  extraArgs : List String := []
  permissionMode : String := ""
  allowedTools : List String := []
  commandTemplate : String := ""
  stateDetection : String := ""
  deriving DecidableEq, Repr

/-- Settings for goal-driven agent workspaces. -/
structure GoalSettings where
  defaultRunner : String := ""
  runners : AList (fun _ : String => GoalRunner) := ∅
  idleTicksBeforeNudge : Nat := 5
  nudgeBudget : Nat := 3
  wallClockMinutes : Nat := 120
  maxIterations : Nat := 3
  outputDir : String := "docs/roadmap"
  permissionMode : String := "acceptEdits"
  confirmBeforeRun : Bool := false

/-- One registered goal run. -/
structure GoalRun where
  workspaceId : Uuid
  panelId : Uuid
  sessionId : Uuid
  goalName : String
  goalPath : String
  cwd : String
  outputDirRel : String
  iteration : Nat
  maxIterations : Nat
  runnerName : String
  runner : GoalRunner
  status : GoalStatus
  nudgesSent : Nat
  idleTicks : Nat
  noTextTicks : Nat
  startedEpoch : Nat
  wallClockMinutes : Nat
  lastEscalationEpoch : Nat
  graph : Option GraphLink
  deriving DecidableEq, Repr

/-- The iteration ceiling for auto-continuation. -/
def GoalRun.startedIterationCap (run : GoalRun) : Nat := max run.maxIterations 1

/-- Repo-relative iteration file path for iteration `n` under `dirRel`. -/
def iterationRel (dirRel : String) (n : Nat) : String :=
  dirRel ++ "/iteration-" ++ toString n ++ ".md"

def GoalRun.outputRel (run : GoalRun) (n : Nat) : String := iterationRel run.outputDirRel n

/-- Whether screen classification (and nudging) applies to this runner. -/
def stateDetectionIsClaude (runner : GoalRunner) : Bool :=
  if runner.stateDetection = "claude" then true
  else if runner.stateDetection = "none" then false
  else runner.agent ≠ "custom"

/-- Look up a runner by name: the empty name means the default runner, and an
empty default means the stock claude runner. -/
def resolveRunnerByName (name : String) (settings : GoalSettings) :
    Except String (String × GoalRunner) :=
  -- an empty default is not looked up
  let name := if name = "" then settings.defaultRunner else name
  if name = "" then .ok ("claude", {})
  else match settings.runners.lookup name with
    | some r => .ok (name, r)
    | none =>
        .error ("unknown runner '" ++ name ++ "' (configure it in settings goal.runners)")

/-! ## §2. The registry and its critical sections. -/

abbrev GoalRegistry := AList (fun _ : Uuid => GoalRun)

/-- Register a run under its workspace. -/
def register (goals : GoalRegistry) (run : GoalRun) : GoalRegistry :=
  goals.insert run.workspaceId run

/-- The in-place mutations the driver performs through `set_run`. -/
inductive SetRun where
  /-- `no_text_ticks = ticks`. -/
  | noTextTicks (ticks : Nat)
  /-- The terminal is readable again: reset the watchdog, clear a stale escalation. -/
  | textBack
  /-- A turn is visibly running: clear a stale escalation. -/
  | working
  /-- `idle_ticks = idle`. -/
  | idleTicks (idle : Nat)
  /-- A nudge went out. -/
  | nudged
  /-- The iteration file says done. -/
  | finished
  deriving DecidableEq, Repr

/-- Clear a `NeedsAttention` status. -/
def GoalStatus.clearAttention : GoalStatus → GoalStatus
  | .needsAttention _ => .running
  | s => s

def SetRun.apply : SetRun → GoalRun → GoalRun
  | .noTextTicks ticks, r => { r with noTextTicks := ticks }
  | .textBack, r => { r with noTextTicks := 0, status := r.status.clearAttention }
  | .working, r => { r with idleTicks := 0, status := r.status.clearAttention }
  | .idleTicks idle, r => { r with idleTicks := idle }
  | .nudged, r => { r with nudgesSent := r.nudgesSent + 1, idleTicks := 0 }
  | .finished, r => { r with status := .done }

/-- Mutate a registry entry in place (no-op if it was removed). -/
def setRun (goals : GoalRegistry) (ws : Uuid) (f : SetRun) : GoalRegistry :=
  goals.modify ws f.apply

/-- Minimum seconds between escalation notifications for one goal. -/
def escalationMinSecs : Nat := 60

/-- What `escalate` does to the run it finds under the lock. -/
def GoalRun.escalate (run : GoalRun) (status : GoalStatus) (now : Nat) : GoalRun :=
  let rateOk := decide (now - run.lastEscalationEpoch ≥ escalationMinSecs)
  -- the status changes at once, the notification waits for the rate limit
  let enteringTerminal := status.isTerminal && !run.status.isTerminal
  if run.status ≠ status ∨ rateOk = true then
    let shouldNotify := rateOk || enteringTerminal
    { run with
      status := status
      lastEscalationEpoch := if shouldNotify then now else run.lastEscalationEpoch }
  else run

/-- Set a status and send a (rate-limited) escalation notification. -/
def escalate (goals : GoalRegistry) (ws : Uuid) (status : GoalStatus) (now : Nat) :
    GoalRegistry :=
  goals.modify ws (·.escalate status now)

/-- Human stop: mark the run blocked so the driver stops driving it. -/
def GoalRun.stop (run : GoalRun) : GoalRun := { run with status := .blocked "stopped by user" }

def stopRun (goals : GoalRegistry) (ws : Uuid) : GoalRegistry := goals.modify ws GoalRun.stop

/-- `goal.complete` with effective status done, and `goal.accept`. -/
def GoalRun.markDone (run : GoalRun) : GoalRun := { run with status := .done }

def markDone (goals : GoalRegistry) (ws : Uuid) : GoalRegistry :=
  goals.modify ws GoalRun.markDone

/-- The write-back of `advance_iteration`: iteration `next` begins. -/
def GoalRun.begin (run : GoalRun) (next : Nat) : GoalRun :=
  { run with
    iteration := next, idleTicks := 0, nudgesSent := 0, noTextTicks := 0, status := .running }

def beginIteration (goals : GoalRegistry) (ws : Uuid) (next : Nat) : GoalRegistry :=
  goals.modify ws (·.begin next)

/-- The loop of `stop_graph` over the runs of one graph. -/
def GoalRun.stopIfOf (graph : String) (run : GoalRun) : GoalRun :=
  if (run.graph.any (·.graph = graph)) && !run.status.isTerminal then
    { run with status := .blocked "graph stopped" }
  else run

def stopRunsOf (goals : GoalRegistry) (graph : String) : GoalRegistry :=
  goals.mapVals fun _ run => run.stopIfOf graph

/-- Purge terminal runs whose workspace is gone. -/
def purge (goals : GoalRegistry) (live : List Uuid) : GoalRegistry :=
  goals.retain fun ws run => !run.status.isTerminal || decide (ws ∈ live)

/-- The runs the driver will visit: everything not terminal. -/
def nonTerminalIds (goals : GoalRegistry) : List Uuid :=
  (goals.entries.filter fun e => !e.2.status.isTerminal).map (·.1)

/-! ## §3. What each section does to a run's status, iteration and link. -/

/-- The link to a graph node never changes once the run is registered. -/
@[simp] theorem SetRun.apply_graph (f : SetRun) (r : GoalRun) : (f.apply r).graph = r.graph := by
  cases f <;> rfl

@[simp] theorem SetRun.apply_iteration (f : SetRun) (r : GoalRun) :
    (f.apply r).iteration = r.iteration := by
  cases f <;> rfl

/-- No driver mutation revives a terminal run. -/
theorem SetRun.apply_terminal (f : SetRun) {r : GoalRun} (h : r.status.isTerminal = true) :
    (f.apply r).status.isTerminal = true := by
  obtain ⟨d, hd⟩ | hd : (∃ d, r.status = .blocked d) ∨ r.status = .done := by
    cases hs : r.status <;> simp_all
  all_goals cases f <;> simp [SetRun.apply, hd, GoalStatus.clearAttention]

@[simp] theorem GoalRun.escalate_graph (r : GoalRun) (s : GoalStatus) (now : Nat) :
    (r.escalate s now).graph = r.graph := by
  dsimp only [GoalRun.escalate]
  split <;> rfl

@[simp] theorem GoalRun.escalate_iteration (r : GoalRun) (s : GoalStatus) (now : Nat) :
    (r.escalate s now).iteration = r.iteration := by
  dsimp only [GoalRun.escalate]
  split <;> rfl

/-- `escalate` leaves the run in exactly the escalated status. -/
@[simp] theorem GoalRun.escalate_status (r : GoalRun) (s : GoalStatus) (now : Nat) :
    (r.escalate s now).status = s := by
  dsimp only [GoalRun.escalate]
  split
  next => rfl
  next h =>
    push Not at h
    exact h.1

@[simp] theorem GoalRun.begin_graph (r : GoalRun) (n : Nat) : (r.begin n).graph = r.graph := rfl
@[simp] theorem GoalRun.begin_status (r : GoalRun) (n : Nat) : (r.begin n).status = .running := rfl
@[simp] theorem GoalRun.begin_iteration (r : GoalRun) (n : Nat) : (r.begin n).iteration = n := rfl
@[simp] theorem GoalRun.stop_graph (r : GoalRun) : r.stop.graph = r.graph := rfl
@[simp] theorem GoalRun.stop_iteration (r : GoalRun) : r.stop.iteration = r.iteration := rfl
@[simp] theorem GoalRun.stop_terminal (r : GoalRun) : r.stop.status.isTerminal = true := rfl
@[simp] theorem GoalRun.markDone_graph (r : GoalRun) : r.markDone.graph = r.graph := rfl
@[simp] theorem GoalRun.markDone_status (r : GoalRun) : r.markDone.status = .done := rfl
@[simp] theorem GoalRun.markDone_iteration (r : GoalRun) :
    r.markDone.iteration = r.iteration := rfl

@[simp] theorem GoalRun.stopIfOf_graph (g : String) (r : GoalRun) :
    (r.stopIfOf g).graph = r.graph := by
  unfold GoalRun.stopIfOf
  split <;> rfl

@[simp] theorem GoalRun.stopIfOf_iteration (g : String) (r : GoalRun) :
    (r.stopIfOf g).iteration = r.iteration := by
  unfold GoalRun.stopIfOf
  split <;> rfl

/-- Stopping a graph keeps terminal runs as they are. -/
theorem GoalRun.stopIfOf_of_terminal (g : String) {r : GoalRun}
    (h : r.status.isTerminal = true) : r.stopIfOf g = r := by
  simp [GoalRun.stopIfOf, h]

/-- The purge keeps a run unless it is terminal and its workspace is gone. -/
theorem lookup_purge (goals : GoalRegistry) (live : List Uuid) (ws : Uuid) :
    (purge goals live).lookup ws
      = (goals.lookup ws).filter fun run => !run.status.isTerminal || decide (ws ∈ live) :=
  AList.lookup_retain _ _ _

end Jmux.Goal
