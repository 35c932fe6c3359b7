/-
  Jmux.Goal.Scheduler — the graph scheduler and the graph operations
  (`goal/graph.rs`, from `approve_graph` to `launch_node`).

  Every function here runs with the graph registry locked and edits one spec in
  place, so each is a function from the spec to the spec.  The answers of git,
  the file system and the clock are parameters (`GitOutcome`, `ProposalEnv`,
  `LaunchEnv`); notifications and the generated `graph.md` are left out.
-/
import Jmux.Goal.Proposal
import Jmux.Goal.Launch

namespace Jmux.Goal

open Jmux.Lib

/-! ## §1. `finish_node`. -/

/-- Whether `git status --porcelain` output shows nothing but the graph's own
state directory (`ownDir`, repo-relative with a trailing slash). -/
def baseIsClean (porcelain ownDir : String) : Bool :=
  (Str.lines porcelain).all fun line =>
    let path := Str.trimMatches Str.isWhitespace ((Str.getFrom 3 line).getD [])
    -- a rename reports "old -> new"
    let path := Str.afterLast " -> ".toList path
    let path := Str.trimMatches (· == '"') path
    path.isEmpty || ownDir.toList.isPrefixOf path || path ++ ['/'] == ownDir.toList

/-- What git answers while one node is being finished: the status of the base
checkout, and the merge of the node's branch. -/
structure GitOutcome where
  status : Except String String := .ok ""
  merge : Except String String := .ok ""

/-- The iteration a node reports: its run's, unless it has seen a later one. -/
def GraphNode.reportedIteration (goals : GoalRegistry) (node : GraphNode) : Nat :=
  match node.workspace.bind goals.lookup with
  -- a node never reports less than it has shown
  | some run => max run.iteration node.iteration
  | none => node.iteration

/-- The merge step of `finish_node`: in worktree mode the branch has to merge
into a clean base, otherwise the node waits for the user. -/
def GraphNode.mergeBack (name ownDir : String) (git : GitOutcome) (node : GraphNode) : GraphNode :=
  let finished := { node with status := .done, detail := none }
  -- "merge waiting" keeps its "merge" prefix: `graph resume` retries by it
  let waiting :=
    { node with
      status := .blocked
      detail := some ("merge waiting: your checkout has uncommitted changes — commit or "
        ++ "stash them, then: jmux graph resume " ++ name) }
  match node.worktree, node.branch with
  | some _, some _ =>
      match git.status with
      | .ok out =>
          if baseIsClean out ownDir then
            match git.merge with
            | .ok _ => finished
            | .error e => { node with status := .blocked, detail := some ("merge conflict: " ++ e) }
          else waiting
      -- a status that cannot be read counts as unclean
      | .error _ => waiting
  | _, _ => finished

/-- `finish_node` on the node it has found. -/
def GraphNode.finish (goals : GoalRegistry) (name ownDir : String) (git : GitOutcome)
    (node : GraphNode) : GraphNode :=
  if node.status = .done then node
  else { node with iteration := node.reportedIteration goals }.mergeBack name ownDir git

/-- Node finished: in worktree mode merge its branch back, then mark it done. -/
def finishNode (goals : GoalRegistry) (git : GitOutcome) (spec : GraphSpec) (id : String) :
    GraphSpec :=
  spec.modifyNode id (·.finish goals spec.name spec.ownDir git)

/-- `finish_node` for each id of a list, in order. -/
def finishAll (goals : GoalRegistry) (git : String → GitOutcome) (spec : GraphSpec)
    (ids : List String) : GraphSpec :=
  ids.foldl (fun s id => finishNode goals (git id) s id) spec

/-! ## §2. `sync_node_states`. -/

/-- The loop body of `sync_node_states`: the node afterwards, and whether its
run is done and waits to be finished. -/
def GraphNode.sync (goals : GoalRegistry) (reviewIterations : Bool) (node : GraphNode) :
    GraphNode × Bool :=
  if node.status ≠ .running then (node, false)
  else match node.workspace with
    | none =>
        ({ node with status := .interrupted, detail := some "no workspace to watch" }, false)
    | some ws =>
        match goals.lookup ws with
        | none =>
            ({ node with
              status := .interrupted
              detail := some "its workspace was closed, or jmux restarted" }, false)
        | some run =>
            -- the iteration is taken over before the status is looked at
            let node := { node with iteration := run.iteration }
            match run.status with
            | .done =>
                if reviewIterations then ({ node with status := .review }, false)
                else (node, true)
            | .blocked d => ({ node with status := .blocked, detail := some d }, false)
            -- a run that needs attention is still at work
            | _ => (node, false)

/-- Reflect terminal goal-run states into node states. -/
def syncNodeStates (goals : GoalRegistry) (git : String → GitOutcome) (spec : GraphSpec) :
    GraphSpec :=
  let synced := spec.nodes.map (·.sync goals spec.reviewIterations)
  -- nodes are finished after the loop, by id
  let toFinish := (synced.filter (·.2)).map (·.1.id)
  finishAll goals git { spec with nodes := synced.map (·.1) } toFinish

/-! ## §3. `launch_node`. -/

def trimEndSlash (path : String) : String :=
  String.ofList (Str.trimEndMatches (· == '/') path.toList)

/-- The per-node worktree. -/
def GraphSpec.worktreePath (spec : GraphSpec) (id : String) : String :=
  trimEndSlash spec.baseCwd ++ "-worktrees/" ++ id

def GraphSpec.branchName (spec : GraphSpec) (id : String) : String :=
  "graph/" ++ spec.name ++ "/" ++ id

/-- Working directory, branch and worktree of a launch. -/
def prepareWorktree (env : LaunchEnv) (spec : GraphSpec) (id : String) :
    Except String (String × Option String × Option String) :=
  if spec.useWorktrees then
    match env.makeParent with
    | .error e => .error ("cannot create worktrees dir: " ++ e)
    | .ok _ =>
        match env.worktreeAdd with
        | .error e => .error ("git worktree add failed: " ++ e)
        | .ok _ =>
            .ok (spec.worktreePath id, some (spec.branchName id), some (spec.worktreePath id))
  else .ok (spec.baseCwd, none, none)

/-- The worktree that a call of `launch_node` removes by force before it starts. -/
def forcedRemoval (env : LaunchEnv) (spec : GraphSpec) (id : String) : Option String :=
  if (spec.node id).isSome && spec.useWorktrees && env.worktreeExists then
    some (spec.worktreePath id)
  else none

/-- `launch_node` marks the node it has launched. -/
def GraphNode.launched (ws : Uuid) (branch worktree : Option String) (node : GraphNode) :
    GraphNode :=
  { node with
    status := .running, workspace := some ws, branch := branch, worktree := worktree
    detail := none }

/-- The tick marks the node whose launch has failed. -/
def GraphNode.launchFailed (e : String) (node : GraphNode) : GraphNode :=
  { node with status := .blocked, detail := some e }

def launchNode (env : LaunchEnv) (spec : GraphSpec) (id : String) (shared : Shared) :
    Except String (GraphSpec × Shared) :=
  match spec.node id with
  | none => .error ("unknown node '" ++ id ++ "'")
  | some node =>
      match prepareWorktree env spec id with
      | .error e => .error e
      | .ok (cwd, branch, worktree) =>
          -- the node's runner, else the graph's, else the default
          let runnerName := (node.runner.or spec.runner).getD ""
          match resolveRunnerByName runnerName env.settings with
          | .error e => .error e
          | .ok (runnerDisplay, runner) =>
              let launch : LaunchSpec :=
                { goalName := spec.name ++ "/" ++ id
                  goalPath := "graph:" ++ spec.name ++ ":" ++ id
                  cwd := cwd
                  outputDirRel := spec.nodeOutputDir id
                  runnerName := runnerDisplay
                  runner := runner
                  maxIterations := spec.maxIterations
                  wallClockMinutes := env.settings.wallClockMinutes
                  graph := some { graph := spec.name, node := id } }
              match launchGoal launch env shared with
              | .error e => .error e
              | .ok (ws, shared) => .ok (spec.modifyNode id (·.launched ws branch worktree), shared)

/-! ## §4. One scheduler tick of one graph. -/

/-- One call of `launch_node`: the spec it was called on, the node, and the
worktree it removed by force. -/
structure LaunchCall where
  spec : GraphSpec
  node : String
  forced : Option String

def LaunchCall.of (env : LaunchEnv) (spec : GraphSpec) (id : String) : LaunchCall :=
  ⟨spec, id, forcedRemoval env spec id⟩

/-- The state of a tick: the spec under edit, the shared state, and the calls of
`launch_node` so far. -/
structure Tick where
  spec : GraphSpec
  shared : Shared
  calls : List LaunchCall := []

/-- What a tick reads while the graph waits for a plan.  The file is read again
when the plan review is skipped. -/
structure ProposalEnv where
  mtime : Option Nat := none
  file : ProposalFile := .error ""
  reread : ProposalFile := .error ""

structure TickEnv where
  proposal : ProposalEnv := {}
  git : String → GitOutcome := fun _ => {}
  launch : String → LaunchEnv := fun _ => {}

/-- Poll for a (new-enough) valid proposal. -/
def tickProposing (env : ProposalEnv) (spec : GraphSpec) : GraphSpec :=
  let waits := { spec with proposalWaitTicks := spec.proposalWaitTicks + 1 }
  match env.mtime with
  | none => waits
  | some mtime =>
      -- the file of an earlier round
      if spec.minProposalMtime.any (mtime < ·) then spec
      else match parseProposal env.file with
        | .error _ => waits
        | .ok _ =>
            if spec.review then { spec with status := .proposed }
            else match parseProposal env.reread with
              | .ok nodes => { spec with nodes := nodes, status := .running }
              -- the file has changed between the two readings
              | .error _ => spec

def GraphSpec.doneIds (spec : GraphSpec) : List String :=
  (spec.nodes.filter (·.status = .done)).map (·.id)

/-- Pending, with every dependency among `doneIds`. -/
def GraphNode.ready (doneIds : List String) (n : GraphNode) : Bool :=
  n.status = .pending && n.deps.all (· ∈ doneIds)

def GraphSpec.readyIds (spec : GraphSpec) : List String :=
  (spec.nodes.filter (·.ready spec.doneIds)).map (·.id)

/-- The launch loop: `slots` launches at most; a failed launch blocks its node. -/
def launchReady (env : String → LaunchEnv) : List String → Nat → Tick → Tick
  | [], _, t => t
  | _ :: _, 0, t => t
  | id :: ids, slots + 1, t =>
      let calls := t.calls ++ [.of (env id) t.spec id]
      match launchNode (env id) t.spec id t.shared with
      | .ok (spec, shared) => launchReady env ids slots ⟨spec, shared, calls⟩
      | .error e =>
          -- a failed launch takes no slot
          launchReady env ids (slots + 1)
            ⟨t.spec.modifyNode id (·.launchFailed e), t.shared, calls⟩

/-- Nothing running, nothing launchable, not everything done. -/
def stalled (doneIds : List String) (spec : GraphSpec) : Bool :=
  let anyActive := spec.nodes.any fun n => n.status.isActive || n.status = .pending
  -- `doneIds` is from before the launches
  let anyProgressable :=
    spec.nodes.any (·.ready doneIds) || spec.nodes.any (·.status.isActive)
  anyActive && !anyProgressable

/-- The part of `tick_running` after the sync. -/
def scheduleSynced (env : TickEnv) (spec : GraphSpec) (shared : Shared) : Tick :=
  if spec.nodes.all (·.status = .done) then ⟨{ spec with status := .complete }, shared, []⟩
  else
    -- `saturating_sub`: a lowered limit gives no slots
    let slots := spec.maxConcurrency - spec.activeCount
    let t := launchReady env.launch spec.readyIds slots ⟨spec, shared, []⟩
    if stalled spec.doneIds t.spec then { t with spec := { t.spec with status := .paused } } else t

def tickRunning (env : TickEnv) (spec : GraphSpec) (shared : Shared) : Tick :=
  -- never let a graph without nodes vacuously complete
  if spec.nodes = [] then ⟨{ spec with status := .proposing }, shared, []⟩
  else scheduleSynced env (syncNodeStates shared.goals env.git spec) shared

/-- `process_graph` on the spec it has found. -/
def processGraph (env : TickEnv) (spec : GraphSpec) (shared : Shared) : Tick :=
  match spec.status with
  | .proposing => ⟨tickProposing env.proposal spec, shared, []⟩
  | .running => tickRunning env spec shared
  | _ => ⟨spec, shared, []⟩

/-! ## §5. The operations a client can ask for. -/

/-- Approve: re-read the proposal, build the node set, start running. -/
def approveGraph (file : ProposalFile) (spec : GraphSpec) : Except String GraphSpec :=
  if spec.status ≠ .proposing ∧ spec.status ≠ .proposed then
    .error ("graph '" ++ spec.name ++ "' is " ++ graphStateLabel spec.status
      ++ " — there is no plan waiting for approval")
  else match parseProposal file with
    | .error e => .error e
    | .ok nodes => .ok { spec with nodes := nodes, status := .running }

/-- What `revise_graph` finds in the orchestrator's workspace. -/
structure ReviseEnv where
  panel : Option Uuid := none
  agentAlive : Bool := false
  epochNow : Nat := 0

/-- Ask the orchestrator to revise the proposal. -/
def reviseGraph (env : ReviseEnv) (spec : GraphSpec) : Except String GraphSpec :=
  if spec.status ≠ .proposing ∧ spec.status ≠ .proposed then
    .error ("graph '" ++ spec.name ++ "' is " ++ graphStateLabel spec.status
      ++ " — its plan is not under review")
  else if spec.orchestratorWorkspace.isNone then
    .error ("the workspace that wrote the plan is gone (jmux restarted?) — edit "
      ++ "proposal.json yourself, then approve")
  else if env.panel.isNone then
    .error "that workspace is gone — edit proposal.json yourself instead"
  else if !env.agentAlive then
    .error ("the agent that wrote the plan is not running — edit proposal.json "
      ++ "yourself, then approve")
  else
    .ok { spec with
      minProposalMtime := some env.epochNow, status := .proposing, proposalWaitTicks := 0 }

def setGraphState (state : GraphState) (spec : GraphSpec) : GraphSpec :=
  { spec with status := state }

/-- `resume` puts an interrupted node back to pending. -/
def GraphNode.resume (n : GraphNode) : GraphNode :=
  if n.status = .interrupted then { n with status := .pending, detail := none } else n

/-- A blocked node whose merge `resume` retries. -/
def GraphNode.mergePending (n : GraphNode) : Bool :=
  n.status = .blocked && n.detail.any (Str.startsWith · "merge")

/-- Resume: relaunch interrupted nodes, retry pending merges, keep going. -/
def resumeGraph (goals : GoalRegistry) (git : String → GitOutcome) (spec : GraphSpec) :
    Except String GraphSpec :=
  if spec.nodes = [] then
    .error ("graph '" ++ spec.name ++ "' has no approved plan yet — review the plan, then "
      ++ "run: jmux graph approve " ++ spec.name)
  else
    let nodes := spec.nodes.map (·.resume)
    -- the two retry prefixes of `merge_back`: "merge conflict" and "merge waiting"
    let retries := (nodes.filter (·.mergePending)).map (·.id)
    let spec := finishAll goals git { spec with nodes := nodes } retries
    .ok { spec with status := .running }

/-- `continue_node` on the node it has found: a review node runs again. -/
def GraphNode.continued (n : GraphNode) : GraphNode :=
  if n.status = .review then { n with status := .running, detail := none } else n

def continueSpec (spec : GraphSpec) (id : String) : GraphSpec :=
  spec.modifyNode id GraphNode.continued

/-- `update_node_goal`. -/
def updateNodeGoal (id goalText : String) (spec : GraphSpec) : Except String GraphSpec :=
  if Str.trim goalText = "" then .error "goal text cannot be empty"
  else if (spec.node id).isNone then .error ("unknown node '" ++ id ++ "'")
  else .ok (spec.modifyNode id fun n => { n with goal := goalText })

/-- `update_node_position`, for a node of an approved plan. -/
def updateNodePosition (id : String) (x y : Rat) (spec : GraphSpec) : GraphSpec :=
  spec.modifyNode id fun n => { n with pos := some (x, y) }

/-! ### What an accepted request has checked and written. -/

theorem approveGraph_ok {file : ProposalFile} {s s' : GraphSpec}
    (h : approveGraph file s = .ok s') :
    (s.status = .proposing ∨ s.status = .proposed) ∧ ∃ nodes, parseProposal file = .ok nodes ∧
      s' = { s with nodes := nodes, status := .running } := by
  unfold approveGraph at h
  split at h
  · cases h
  next hs =>
    have hplanning : s.status = .proposing ∨ s.status = .proposed := by
      by_contra hno
      push Not at hno
      exact hs hno
    split at h
    · cases h
    next nodes hnodes => exact ⟨hplanning, nodes, hnodes, (Except.ok.inj h).symm⟩

theorem reviseGraph_ok {env : ReviseEnv} {s s' : GraphSpec} (h : reviseGraph env s = .ok s') :
    (s.status = .proposing ∨ s.status = .proposed) ∧ s.orchestratorWorkspace.isSome ∧
      env.panel.isSome ∧ env.agentAlive ∧
      s' = { s with
        minProposalMtime := some env.epochNow, status := .proposing, proposalWaitTicks := 0 } := by
  unfold reviseGraph at h
  split at h
  · cases h
  next hs =>
    have hplanning : s.status = .proposing ∨ s.status = .proposed := by
      by_contra hno
      push Not at hno
      exact hs hno
    split at h
    · cases h
    next hworkspace =>
      split at h
      · cases h
      next hpanel =>
        split at h
        · cases h
        next halive =>
          refine ⟨hplanning, ?_, ?_, ?_, (Except.ok.inj h).symm⟩
          · simpa [← Option.ne_none_iff_isSome] using hworkspace
          · simpa [← Option.ne_none_iff_isSome] using hpanel
          · simpa using halive

theorem updateNodeGoal_ok {id text : String} {s s' : GraphSpec}
    (h : updateNodeGoal id text s = .ok s') :
    Str.trim text ≠ "" ∧ (s.node id).isSome ∧
      s' = s.modifyNode id fun n => { n with goal := text } := by
  unfold updateNodeGoal at h
  split at h
  · cases h
  next htext =>
    split at h
    · cases h
    next hnode =>
      refine ⟨htext, ?_, (Except.ok.inj h).symm⟩
      simpa [← Option.ne_none_iff_isSome] using hnode

/-! ## §6. Restart. -/

/-- A node that was running when the app went down. -/
def GraphNode.reconcile (n : GraphNode) : GraphNode :=
  if n.status.isActive then
    { n with
      status := .interrupted, detail := some "interrupted by a restart", workspace := none }
  else n

/-- Restart reconciliation of one loaded graph (`ensure_loaded`).  The wait
counter is not serialized. -/
def reconcile (spec : GraphSpec) : GraphSpec :=
  { spec with
    nodes := spec.nodes.map (·.reconcile)
    status := if spec.status = .running ∧ spec.activeCount ≠ 0 then .paused else spec.status
    orchestratorWorkspace := none
    proposalWaitTicks := 0 }

/-! ## §7. Node operations addressed through a run (`accept_node`, `continue_node`). -/

/-- The graph link of the run in a workspace. -/
def linkOf (goals : GoalRegistry) (ws : Uuid) : Option GraphLink :=
  (goals.lookup ws).bind (·.graph)

/-- `accept_node` once it has the link: finish the linked node. -/
def acceptLinked (goals : GoalRegistry) (git : GitOutcome) (graphs : GraphRegistry)
    (link : GraphLink) : GraphRegistry :=
  graphs.modify link.graph fun spec => finishNode goals git spec link.node

/-- `continue_node` once it has the link. -/
def continueLinked (graphs : GraphRegistry) (link : GraphLink) : GraphRegistry :=
  graphs.modify link.graph fun spec => continueSpec spec link.node

/-- Human accepted a node's current iteration: finish it now. -/
def acceptNode (goals : GoalRegistry) (git : GitOutcome) (graphs : GraphRegistry) (ws : Uuid) :
    GraphRegistry :=
  match linkOf goals ws with
  | none => graphs
  | some link => acceptLinked goals git graphs link

/-- Human asked for another iteration on a review node: back to running. -/
def continueNode (goals : GoalRegistry) (graphs : GraphRegistry) (ws : Uuid) : GraphRegistry :=
  match linkOf goals ws with
  | none => graphs
  | some link => continueLinked graphs link

end Jmux.Goal
