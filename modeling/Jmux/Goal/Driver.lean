/-
  Jmux.Goal.Driver — `drive_one` and `on_iteration_file` (`goal/mod.rs`).

  The driver clones a run under the registry lock, looks at the iteration file,
  the clock and the terminal without the lock, and writes back through separate
  lock steps.  `driveOne` is the evaluation in the middle: from the clone and
  what was observed to the write-backs that follow.
-/
import Jmux.Goal.IterationFile
import Jmux.Goal.Run

namespace Jmux.Goal

/-! ## §1. What the driver observes. -/

/-- What `classify` makes of a screen. -/
inductive ClaudeState where
  | working
  | waiting
  | needsInput
  deriving DecidableEq, Repr

/-- A readable terminal: whether a selection menu is open, and its state. -/
structure Screen where
  menu : Bool := false
  state : Option ClaudeState := none
  deriving DecidableEq

structure Observation where
  /-- The text of the current iteration file, if it can be read. -/
  file : Option String := none
  hibernated : Bool := false
  now : Nat := 0
  /-- `none`: there is no terminal to read. -/
  screen : Option Screen := none
  agentAlive : Bool := true
  /-- Whether the nudge could be typed into the pane. -/
  sent : Bool := true
  settings : GoalSettings := {}

/-! ## §2. What it decides. -/

/-- One write-back into the registry. -/
inductive WriteBack where
  | setRun (f : SetRun)
  | escalate (status : GoalStatus)
  deriving DecidableEq

/-- The outcome of `drive_one` on a clone of the run in workspace `ws`. -/
inductive Plan where
  /-- The workspace is gone: drop the run. -/
  | drop (ws : Uuid)
  | write (ws : Uuid) (due : List WriteBack)
  /-- Start the next iteration. -/
  | advance (ws : Uuid)
  deriving DecidableEq

/-- Handle a parsed iteration file: finish, iterate, or escalate. -/
def onIterationFile (run : GoalRun) (status : String) : Plan :=
  let ws := run.workspaceId
  if status = "done" then .write ws [.setRun .finished]
  else if status = "blocked" then
    -- an agent that could not finish gets another iteration, up to the cap
    if run.iteration < run.startedIterationCap then .advance ws
    else .write ws [.escalate (.blocked "the agent could not finish")]
  else .write ws [.escalate (.needsAttention ("unrecognised status '" ++ status ++ "'"))]

/-- Count toward a nudge; past the debounce, nudge a live agent or escalate. -/
def driveIdle (run : GoalRun) (obs : Observation) : List WriteBack :=
  let idle := run.idleTicks + 1
  if idle < obs.settings.idleTicksBeforeNudge then [.setRun (.idleTicks idle)]
  -- nudges are typed into the pane, so only a live agent gets one
  else if !obs.agentAlive then [.escalate (.blocked "the agent exited")]
  else if run.nudgesSent ≥ obs.settings.nudgeBudget then
    [.escalate (.needsAttention ("stalled after " ++ toString run.nudgesSent ++ " reminders"))]
  else if obs.sent then [.setRun .nudged]
  -- a nudge that could not be typed leaves no trace
  else []

/-- Screen-state driving (claude runners only). -/
def driveScreen (run : GoalRun) (obs : Observation) : List WriteBack :=
  match obs.screen with
  | none =>
      let ticks := run.noTextTicks + 1
      let detail :=
        if obs.agentAlive then "running but its terminal cannot be read" else "failed to start"
      .setRun (.noTextTicks ticks) ::
        (if ticks = 30 then [.escalate (.needsAttention detail)] else [])
  | some screen =>
      -- the watchdog is reset before the screen is judged
      let back := if run.noTextTicks ≠ 0 then [WriteBack.setRun .textBack] else []
      back ++
        if screen.menu then [.escalate (.needsAttention "waiting on a prompt")]
        else match screen.state with
          | some .working | some .waiting => [.setRun .working]
          | some .needsInput | none => driveIdle run obs

/-- Advance one goal run by one tick. -/
def driveOne (ws : Uuid) (run : GoalRun) (workspaceOpen : Bool) (obs : Observation) : Plan :=
  if !workspaceOpen then .drop ws
  else match parseIterationFile obs.file with
    | some (some status) => onIterationFile run status
    | some none => .write ws [.escalate (.needsAttention "iteration report has no status line")]
    | none =>
        -- a hibernated pane has no screen to judge and no clock to run
        if obs.hibernated then .write ws []
        else if run.wallClockMinutes > 0
            ∧ obs.now - run.startedEpoch > run.wallClockMinutes * 60 then
          .write ws [.escalate (.blocked "ran out of time")]
        else if !stateDetectionIsClaude run.runner then .write ws []
        else .write ws (driveScreen run obs)

/-! ## §3. `advance_iteration` between its lock steps. -/

/-- What `advance_iteration` reads after it has cloned the run. -/
structure AdvanceEnv where
  file : Option String := none
  agentAlive : Bool := true

/-- The guards before the prompt: the iteration must have a finished file, and a
claude runner's agent must be alive. -/
def advanceGuards (run : GoalRun) (env : AdvanceEnv) : Bool :=
  finishedFile env.file && (!stateDetectionIsClaude run.runner || env.agentAlive)

/-- `goal.complete`: the file's status, else the request's, else nothing. -/
def effectiveStatus (file : Option String) (param : Option String) : String :=
  ((parseIterationFile file).join.or
    (param.map fun s => String.ofList (s.toList.map Lib.Str.toAsciiLowercase))).getD ""

end Jmux.Goal
