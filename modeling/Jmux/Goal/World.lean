/-
  Jmux.Goal.World — the goal subsystem as one transition system.

  Two locks protect the state: one on the graph registry, one on the goal
  registry.  A step of the system is one critical section.  The parties are the
  main loop, which runs the scheduler and the driver tick after tick (its place
  in the tick is `Driver`), and the socket threads and panel handlers, whose
  multi-step requests are at some point in the middle (`Thread`).

  A scheduler tick of one graph holds the graph lock throughout and is one step;
  every edit of a graph is saved before the lock is released, so a restart finds
  the registry as it was.  What the machine answers (git, files, clock, screens)
  comes with the step.  A request that is answered with an error leaves the state
  as it is; `none` means the step is not possible in the state.
-/
import Jmux.Goal.Driver
import Jmux.Goal.Scheduler

namespace Jmux.Goal

/-! ## §1. The parties. -/

/-- Where a socket thread is in its request.  Thread 0 is the main loop's own
call of `advance_iteration`. -/
inductive Thread where
  | idle
  /-- `create_graph` has released the name and builds the spec. -/
  | creating (spec : GraphSpec)
  /-- `stop_graph` has set the state; the runs are next. -/
  | stopping (graph : String)
  /-- `goal.complete` has resolved to done. -/
  | completing (ws : Uuid)
  /-- `goal.accept` has marked the run; `accept_node` is next. -/
  | accepted (ws : Uuid)
  | accepting (link : GraphLink)
  /-- `advance_iteration` holds this clone and has passed its guards. -/
  | advancing (ws : Uuid) (run : GoalRun)
  /-- The prompt is out; the write-back is next. -/
  | sent (ws : Uuid) (run : GoalRun)
  /-- `goal.continue`: the advance has returned; `continue_node` is next. -/
  | advanced (ws : Uuid)
  | continuing (link : GraphLink)
  deriving DecidableEq

/-- Where the main loop is in its tick. -/
inductive Driver where
  | idle
  /-- `scheduler_tick` over the graph names it has collected. -/
  | scheduling (todo : List String)
  /-- The ids of the open workspaces have been collected for the purge. -/
  | purging (live : List Uuid)
  | purged
  | driving (todo : List Uuid)
  | evaluating (ws : Uuid) (run : GoalRun) (todo : List Uuid)
  | dropping (ws : Uuid) (todo : List Uuid)
  | writing (ws : Uuid) (due : List WriteBack) (todo : List Uuid)
  | calling (ws : Uuid) (todo : List Uuid)
  /-- Inside `advance_iteration`, as thread 0. -/
  | advancing (todo : List Uuid)
  deriving DecidableEq

/-- A call of `launch_node` by the scheduler: the graph, the registry in which
the tick found the other graphs, and the call itself. -/
structure Launch where
  graph : String
  graphs : GraphRegistry
  call : LaunchCall

structure World where
  graphs : GraphRegistry := ∅
  shared : Shared := {}
  driver : Driver := .idle
  threads : Nat → Thread := fun _ => .idle
  /-- History: each prompt that went out, with the iteration it announces. -/
  prompts : List (Uuid × Nat) := []
  /-- History: the calls of `launch_node`. -/
  launches : List Launch := []

/-! ## §2. Actions. -/

/-- Requests that take one critical section. -/
inductive Request where
  | approve (graph : String) (file : ProposalFile)
  | revise (graph : String) (env : ReviseEnv)
  | pause (graph : String)
  | resume (graph : String) (git : String → GitOutcome)
  | updateGoal (graph node text : String)
  | updatePosition (graph node : String) (x y : Rat)
  | stopRun (ws : Uuid)
  | createGoal (spec : LaunchSpec) (env : LaunchEnv)

/-- The critical sections of the requests that take several. -/
inductive ThreadStep where
  | createBegin (name : String) (params : CreateParams) (env : CreateEnv)
  | createFail
  | createInsert
  | stopBegin (graph : String)
  | stopRuns
  | completeBegin (ws : Uuid) (file param : Option String)
  | completeWrite
  | acceptMark (ws : Uuid)
  | acceptRead
  | acceptFinish (git : GitOutcome)
  | continueBegin (ws : Uuid) (env : AdvanceEnv)
  /-- The panel calls `continue_node` even when the advance has failed. -/
  | panelContinue (ws : Uuid)
  | advanceSend (delivered : Bool)
  | advanceWrite
  | continueRead
  | continueFinish

inductive DriverStep where
  | tick
  | process (env : TickEnv)
  | snapshot
  | purge
  | collect
  | clone
  | evaluate (obs : Observation)
  | drop
  | write (now : Nat)
  | call (env : AdvanceEnv)
  | returned

inductive Act where
  | request (r : Request)
  | thread (t : Nat) (s : ThreadStep)
  | driver (s : DriverStep)
  | openWorkspace
  | closeWorkspace (ws : Uuid)
  /-- The app goes down and comes up again: graphs whose `graph.json` cannot be
  read are lost, the session restores some workspaces. -/
  | restart (unreadable : List String) (restored : List Uuid)

/-! ## §3. One critical section. -/

def Shared.openWorkspace (shared : Shared) : Shared :=
  { shared with
    workspaces := shared.nextUuid :: shared.workspaces, nextUuid := shared.nextUuid + 1 }

namespace World

def setThread (w : World) (t : Nat) (th : Thread) : World :=
  { w with threads := fun i => if i = t then th else w.threads i }

def setGoals (w : World) (goals : GoalRegistry) : World :=
  { w with shared := { w.shared with goals := goals } }

/-- Edit one graph under the lock; an unknown name or an error changes nothing. -/
def editGraph (w : World) (name : String) (f : GraphSpec → Except String GraphSpec) : World :=
  match w.graphs.lookup name with
  | none => w
  | some spec =>
      match f spec with
      | .error _ => w
      | .ok spec' => { w with graphs := w.graphs.insert name spec' }

/-- A socket thread that can take a request. -/
def free (w : World) (t : Nat) : Bool := decide (t ≠ 0) && decide (w.threads t = .idle)

def serve (w : World) : Request → World
  | .approve g file => w.editGraph g (approveGraph file)
  | .revise g env => w.editGraph g (reviseGraph env)
  | .pause g => w.editGraph g fun s => .ok (setGraphState .paused s)
  | .resume g git => w.editGraph g (resumeGraph w.shared.goals git)
  | .updateGoal g id text => w.editGraph g (updateNodeGoal id text)
  | .updatePosition g id x y => w.editGraph g fun s => .ok (updateNodePosition id x y s)
  -- whatever status the run has
  | .stopRun ws => w.setGoals (stopRun w.shared.goals ws)
  | .createGoal spec env =>
      -- a bare goal never belongs to a graph
      match launchGoal { spec with graph := none } env w.shared with
      | .error _ => w
      | .ok (_, shared) => { w with shared := shared }

/-- The first lock step of `create_graph`: release the name of a finished graph. -/
def releaseName (w : World) (name : String) : Option World :=
  match w.graphs.lookup name with
  | none => some w
  | some existing =>
      -- only a finished graph gives its name away
      if existing.status = .stopped ∨ existing.status = .complete then
        some { w with graphs := w.graphs.erase name }
      else none

/-- `create_graph` opens the orchestrator workspace and registers the graph. -/
def insertGraph (w : World) (spec : GraphSpec) : World :=
  { w with
    graphs := w.graphs.insert spec.name
      { spec with orchestratorWorkspace := some w.shared.nextUuid }
    shared := w.shared.openWorkspace }

/-- `iteration + 1` is checked arithmetic on 32 bits: at the maximum the call panics. -/
def nextIteration (run : GoalRun) : Option Nat :=
  if run.iteration + 1 < 2 ^ 32 then some (run.iteration + 1) else none

/-- The clone and the guards of `advance_iteration`. -/
def cloneForAdvance (w : World) (ws : Uuid) (env : AdvanceEnv) : Option GoalRun :=
  (w.shared.goals.lookup ws).filter fun run => advanceGuards run env

def threadStep (w : World) (t : Nat) : ThreadStep → Option World
  -- the name is checked before the lock is taken
  | .createBegin name params env =>
      if !w.free t then none
      else if !validNodeId name then some w
      else match w.releaseName name with
        | none => some w
        | some w' => some (w'.setThread t (.creating (newSpec name params env)))
  | .createFail =>
      match w.threads t with
      | .creating _ => some (w.setThread t .idle)
      | _ => none
  | .createInsert =>
      match w.threads t with
      | .creating spec => some ((w.insertGraph spec).setThread t .idle)
      | _ => none
  | .stopBegin g =>
      if !w.free t then none
      else match w.graphs.lookup g with
        | none => some w
        | some _ =>
            some ((w.editGraph g fun s => .ok (setGraphState .stopped s)).setThread t (.stopping g))
  | .stopRuns =>
      match w.threads t with
      | .stopping g => some ((w.setGoals (stopRunsOf w.shared.goals g)).setThread t .idle)
      | _ => none
  | .completeBegin ws file param =>
      if !w.free t then none
      else if (w.shared.goals.lookup ws).isSome ∧ effectiveStatus file param = "done" then
        some (w.setThread t (.completing ws))
      else some w
  | .completeWrite =>
      match w.threads t with
      | .completing ws => some ((w.setGoals (markDone w.shared.goals ws)).setThread t .idle)
      | _ => none
  | .acceptMark ws =>
      if !w.free t then none
      else if (w.shared.goals.lookup ws).isSome then
        some ((w.setGoals (markDone w.shared.goals ws)).setThread t (.accepted ws))
      else some w
  | .acceptRead =>
      match w.threads t with
      | .accepted ws =>
          match linkOf w.shared.goals ws with
          | none => some (w.setThread t .idle)
          | some link => some (w.setThread t (.accepting link))
      | _ => none
  | .acceptFinish git =>
      match w.threads t with
      | .accepting link =>
          some ((w.editGraph link.graph fun s =>
            .ok (finishNode w.shared.goals git s link.node)).setThread t .idle)
      | _ => none
  | .continueBegin ws env =>
      if !w.free t then none
      else match w.cloneForAdvance ws env with
        | none => some w
        | some run => some (w.setThread t (.advancing ws run))
  -- no advance before it
  | .panelContinue ws => if w.free t then some (w.setThread t (.advanced ws)) else none
  | .advanceSend delivered =>
      match w.threads t with
      | .advancing ws run =>
          match nextIteration run with
          | none => none
          | some next =>
              if delivered then
                some ({ w with prompts := w.prompts ++ [(ws, next)] }.setThread t (.sent ws run))
              else some (w.setThread t .idle)
      | _ => none
  | .advanceWrite =>
      match w.threads t with
      | .sent ws run =>
          some ((w.setGoals (beginIteration w.shared.goals ws (run.iteration + 1))).setThread t
            -- the main loop has no `continue_node` after its call
            (if t = 0 then .idle else .advanced ws))
      | _ => none
  | .continueRead =>
      match w.threads t with
      | .advanced ws =>
          match linkOf w.shared.goals ws with
          | none => some (w.setThread t .idle)
          | some link => some (w.setThread t (.continuing link))
      | _ => none
  | .continueFinish =>
      match w.threads t with
      | .continuing link =>
          some ((w.editGraph link.graph fun s => .ok (continueSpec s link.node)).setThread t .idle)
      | _ => none

/-- `process_graph`: one scheduler tick of the named graph. -/
def processNamed (w : World) (g : String) (env : TickEnv) : World :=
  match w.graphs.lookup g with
  | none => w
  | some spec =>
      let t := processGraph env spec w.shared
      { w with
        graphs := w.graphs.insert g t.spec
        shared := t.shared
        launches := w.launches ++ t.calls.map fun c => ⟨g, w.graphs, c⟩ }

def applyWriteBack (goals : GoalRegistry) (ws : Uuid) (now : Nat) : WriteBack → GoalRegistry
  | .setRun f => setRun goals ws f
  | .escalate status => escalate goals ws status now

/-- What the main loop does with the plan of one `drive_one`. -/
def afterEvaluate (todo : List Uuid) : Plan → Driver
  | .drop ws => .dropping ws todo
  | .write ws due => .writing ws due todo
  | .advance ws => .calling ws todo

def driverStep (w : World) : DriverStep → Option World
  | .tick =>
      match w.driver with
      | .idle => some { w with driver := .scheduling w.graphs.keys }
      | _ => none
  | .process env =>
      match w.driver with
      -- a graph that was dropped since is skipped by `processNamed`
      | .scheduling (g :: todo) => some { w.processNamed g env with driver := .scheduling todo }
      | _ => none
  | .snapshot =>
      match w.driver with
      | .scheduling [] => some { w with driver := .purging w.shared.workspaces }
      | _ => none
  | .purge =>
      match w.driver with
      | .purging live =>
          some { w.setGoals (purge w.shared.goals live) with driver := .purged }
      | _ => none
  | .collect =>
      match w.driver with
      | .purged => some { w with driver := .driving (nonTerminalIds w.shared.goals) }
      | _ => none
  | .clone =>
      match w.driver with
      | .driving [] => some { w with driver := .idle }
      | .driving (ws :: todo) =>
          match w.shared.goals.lookup ws with
          | none => some { w with driver := .driving todo }
          | some run => some { w with driver := .evaluating ws run todo }
      | _ => none
  | .evaluate obs =>
      match w.driver with
      | .evaluating ws run todo =>
          some { w with
            driver := afterEvaluate todo (driveOne ws run (decide (ws ∈ w.shared.workspaces)) obs) }
      | _ => none
  | .drop =>
      match w.driver with
      | .dropping ws todo =>
          some { w.setGoals (w.shared.goals.erase ws) with driver := .driving todo }
      | _ => none
  | .write now =>
      match w.driver with
      | .writing _ [] todo => some { w with driver := .driving todo }
      | .writing ws (wb :: due) todo =>
          some { w.setGoals (applyWriteBack w.shared.goals ws now wb) with
            driver := .writing ws due todo }
      | _ => none
  | .call env =>
      match w.driver with
      | .calling ws todo =>
          match w.cloneForAdvance ws env with
          | none => some { w with driver := .driving todo }
          | some run =>
              some { w.setThread 0 (.advancing ws run) with driver := .advancing todo }
      | _ => none
  | .returned =>
      match w.driver with
      | .advancing todo =>
          -- the main loop waits for its own call
          if w.threads 0 = .idle then some { w with driver := .driving todo } else none
      | _ => none

/-- Everything in memory is gone; the graphs come back from their files. -/
def restart (w : World) (unreadable : List String) (restored : List Uuid) : World :=
  { w with
    graphs := (w.graphs.retain fun g _ => decide (g ∉ unreadable)).mapVals fun _ => reconcile
    shared := { goals := ∅, workspaces := restored, nextUuid := w.shared.nextUuid }
    driver := .idle
    threads := fun _ => .idle }

/-- **One step of the system.** -/
def step (w : World) : Act → Option World
  | .request r => some (w.serve r)
  | .thread t s => w.threadStep t s
  | .driver s => w.driverStep s
  | .openWorkspace => some { w with shared := w.shared.openWorkspace }
  | .closeWorkspace ws =>
      some { w with shared := { w.shared with workspaces := w.shared.workspaces.erase ws } }
  | .restart unreadable restored =>
      if restored.all (· < w.shared.nextUuid) then some (w.restart unreadable restored) else none

end World

end Jmux.Goal
