/-
  Jmux.Goal.Handoff — the reports that a node's seed refers to (`goal/graph.rs`).

  A node writes its iteration report where it works.  `finish_node` commits the
  node's worktree and merges it into the base; `launch_node` makes a worktree of the
  base's HEAD for a later node and puts the paths of its dependencies' reports into
  that node's seed.  Here the scheduler's operations run next to the files they
  work on; what the agents and the user do to files and branches are steps as well.

  Main results:
    * `tick_does`        — a scheduler tick is a sequence of these steps.
    * `handoffs_real`    — when every finished node's report is committed under the
                           number that the node shows, each reference names it.
    * `handoff_missing`  — a report that git ignores does not reach the next node.
-/
import Jmux.Goal.LaunchMoves
import Jmux.Goal.Worktrees
import Jmux.Lib.FileTree
import Jmux.Lib.Transition

namespace Jmux.Goal

open Jmux.Lib

/-! ## §1. Reports and references. -/

/-- The path lies in the node's output directory. -/
def GraphSpec.inOutputDir (spec : GraphSpec) (id path : String) : Bool :=
  Str.startsWith path (spec.nodeOutputDir id ++ "/")

theorem inOutputDir_iterationRel (spec : GraphSpec) (id : String) (n : Nat) :
    spec.inOutputDir id (iterationRel (spec.nodeOutputDir id) n) = true := by
  unfold GraphSpec.inOutputDir Str.startsWith iterationRel
  have hslash : "/iteration-".toList = "/".toList ++ "iteration-".toList := by decide
  simp only [String.toList_append, hslash, List.append_assoc]
  rw [← List.append_assoc, List.isPrefixOf_iff_prefix]
  exact List.prefix_append _ _

/-- A dependency's final iteration report, by reference. -/
def GraphSpec.upstreamRef (spec : GraphSpec) (d : String) : Option String :=
  (spec.node d).bind fun dep =>
    if dep.iteration > 0 then some (iterationRel (spec.nodeOutputDir d) dep.iteration) else none

/-- The references that `launch_node` puts into the seed. -/
def GraphSpec.upstreamRefs (spec : GraphSpec) (node : GraphNode) : List String :=
  node.deps.filterMap spec.upstreamRef

/-- Where the node works: in its own worktree, or in the base. -/
def GraphSpec.nodeCwd (spec : GraphSpec) (id : String) : String :=
  if spec.useWorktrees then spec.worktreePath id else spec.baseCwd

/-! ## §2. The state. -/

variable {κ : Type*}

/-- A reference in a seed: the file that the node finds under it when it starts,
and the report that the dependency was finished with. -/
structure Handoff (κ : Type*) where
  node : String
  dep : String
  ref : String
  found : Option κ
  expected : Option κ
  deriving DecidableEq

/-- A graph over a checkout: HEAD of the base, the files of the directories, and for
each node its branch and the tree that the branch was made from.  `final` keeps the
report of each node that is done. -/
structure Yard (κ : Type*) where
  spec : GraphSpec
  shared : Shared := {}
  head : FileTree String κ := fun _ => none
  dirs : String → Option (FileTree String κ) := fun _ => none
  branch : String → FileTree String κ := fun _ _ => none
  fork : String → FileTree String κ := fun _ _ => none
  final : String → Option κ := fun _ => none
  handoffs : List (Handoff κ) := []

/-- What git answers while a node is finished.  `add -A` leaves out what is ignored
and not tracked yet; the answers of `add` and `commit` themselves are not looked at. -/
structure NodeGit (κ : Type*) where
  recorded : Bool := true
  leaves : String → Bool := fun _ => false
  both : FileTree String κ := fun _ => none
  outcome : GitOutcome := {}

/-- The edits of a spec that touch no file. -/
inductive QuietEdit where
  | sync
  | status (st : GraphState)
  | resume
  | continued (id : String)
  | goal (id text : String)
  | position (id : String) (x y : Rat)
  | restart

def QuietEdit.apply (goals : GoalRegistry) : QuietEdit → GraphSpec → GraphSpec
  | sync, s => s.syncLoop goals
  | status st, s => setGraphState st s
  | resume, s => { s with nodes := s.nodes.map (·.resume) }
  | continued id, s => continueSpec s id
  | goal id text, s => s.modifyNode id fun n => { n with goal := text }
  | position id x y, s => updateNodePosition id x y s
  | restart, s => reconcile s

inductive YardAct (κ : Type*) where
  | edit (e : QuietEdit)
  /-- Anything that happens to the goal runs. -/
  | drive (goals : GoalRegistry)
  | launch (id : String) (env : LaunchEnv)
  | finish (id : String) (git : NodeGit κ)
  /-- Someone writes or removes a file. -/
  | write (dir path : String) (content : Option κ)
  /-- A commit in the node's worktree. -/
  | commit (id : String) (tree : FileTree String κ)
  /-- HEAD of the base moves. -/
  | commitBase (tree : FileTree String κ)

namespace Yard

/-! ## §3. Launching and finishing. -/

/-- The worktree part of `launch_node`. -/
def addWorktree (id : String) (env : LaunchEnv) (y : Yard κ) : Yard κ :=
  if y.spec.useWorktrees then
    let wt := y.spec.worktreePath id
    -- an earlier run's worktree goes first
    let dirs := if env.worktreeExists then Function.update y.dirs wt none else y.dirs
    match env.makeParent, env.worktreeAdd with
    | .ok _, .ok _ =>
        { y with
          dirs := Function.update dirs wt (some y.head)
          branch := Function.update y.branch id y.head
          fork := Function.update y.fork id y.head }
    | _, _ => { y with dirs := dirs }
  else y

/-- The hand-offs of a node that is about to start. -/
def handoffsOf (node : GraphNode) (y : Yard κ) : List (Handoff κ) :=
  node.deps.filterMap fun d => (y.spec.upstreamRef d).map fun ref =>
    { node := node.id, dep := d, ref := ref
      found := (y.dirs (y.spec.nodeCwd node.id)).bind (· ref)
      expected := y.final d }

/-- `launch_node`, and what the tick does when it fails. -/
def launch (id : String) (env : LaunchEnv) (node : GraphNode) (y : Yard κ) : Yard κ :=
  let y' := y.addWorktree id env
  match launchNode env y.spec id y.shared with
  | .ok (spec, shared) =>
      { y' with
        spec := spec, shared := shared, handoffs := y.handoffs ++ y'.handoffsOf node }
  | .error e => { y' with spec := y.spec.modifyNode id (·.launchFailed e) }

/-- The node's branch after `git add -A` and `git commit` in its worktree. -/
def commitWork (id wt : String) (git : NodeGit κ) (y : Yard κ) : FileTree String κ :=
  match y.dirs wt with
  | some files =>
      if git.recorded then FileTree.record git.leaves (y.branch id) files else y.branch id
  -- the directory is gone, so git fails
  | none => y.branch id

/-- The report of the node's run, in the directory the node works in. -/
def report (node : GraphNode) (y : Yard κ) : Option κ :=
  (node.run y.shared.goals).bind fun run =>
    (y.dirs (node.worktree.getD y.spec.baseCwd)).bind
      (· (iterationRel (y.spec.nodeOutputDir node.id) run.iteration))

variable [DecidableEq κ]

/-- The git part of `finish_node`. -/
def mergeWork (node : GraphNode) (git : NodeGit κ) (y : Yard κ) : Yard κ :=
  match node.worktree, node.branch with
  | some wt, some _ =>
      let tip := y.commitWork node.id wt git
      { y with
        branch := Function.update y.branch node.id tip
        head := if node.mergeRefused y.spec.ownDir git.outcome then y.head
          else FileTree.merge git.both (y.fork node.id) y.head tip }
  | _, _ => y

/-- `finish_node`. -/
def finish (id : String) (git : NodeGit κ) (y : Yard κ) : Yard κ :=
  let spec := finishNode y.shared.goals git.outcome y.spec id
  match y.spec.node id with
  | none => { y with spec := spec }
  | some node =>
      if node.status = .done then { y with spec := spec }
      else if node.mergeRefused y.spec.ownDir git.outcome then
        { y.mergeWork node git with spec := spec }
      else
        { y.mergeWork node git with
          spec := spec, final := Function.update y.final id (y.report node) }

/-- One step; only a pending node is launched. -/
def step (y : Yard κ) : YardAct κ → Option (Yard κ)
  | .edit e => some { y with spec := e.apply y.shared.goals y.spec }
  | .drive goals => some { y with shared := { y.shared with goals := goals } }
  | .launch id env =>
      (y.spec.node id).bind fun node =>
        if node.status = .pending then some (y.launch id env node) else none
  | .finish id git => some (y.finish id git)
  | .write dir path content =>
      some { y with
        dirs := Function.update y.dirs dir
          ((y.dirs dir).map fun files => Function.update files path content) }
  | .commit id tree => some { y with branch := Function.update y.branch id tree }
  | .commitBase tree => some { y with head := tree }

/-! ## §4. A tick is a sequence of steps. -/

@[simp] theorem mergeWork_shared (node : GraphNode) (git : NodeGit κ) (y : Yard κ) :
    (y.mergeWork node git).shared = y.shared := by
  unfold mergeWork
  split <;> rfl

theorem finish_spec (id : String) (git : NodeGit κ) (y : Yard κ) :
    (y.finish id git).spec = finishNode y.shared.goals git.outcome y.spec id := by
  unfold finish
  dsimp only
  split
  · rfl
  · split
    · rfl
    · split <;> rfl

theorem finish_shared (id : String) (git : NodeGit κ) (y : Yard κ) :
    (y.finish id git).shared = y.shared := by
  unfold finish
  dsimp only
  split
  · rfl
  · split
    · rfl
    · split <;> exact mergeWork_shared _ _ _

omit [DecidableEq κ] in
@[simp] theorem addWorktree_shared (id : String) (env : LaunchEnv) (y : Yard κ) :
    (y.addWorktree id env).shared = y.shared := by
  unfold addWorktree
  split
  · dsimp only
    split <;> rfl
  · rfl

/-- The actions do to the spec and the shared state what `after` says. -/
def Does (y : Yard κ) (acts : List (YardAct κ)) (spec : GraphSpec) (shared : Shared) : Prop :=
  ∃ y', exec step y acts = some y' ∧ y'.spec = spec ∧ y'.shared = shared

theorem Does.append {y : Yard κ} {as bs : List (YardAct κ)} {spec spec' : GraphSpec}
    {shared shared' : Shared} (h : y.Does as spec shared)
    (h' : ∀ y' : Yard κ, y'.spec = spec → y'.shared = shared → y'.Does bs spec' shared') :
    y.Does (as ++ bs) spec' shared' := by
  obtain ⟨m, hm, hspec, hshared⟩ := h
  obtain ⟨y', hy', hspec', hshared'⟩ := h' m hspec hshared
  exact ⟨y', exec_append.mpr ⟨m, hm, hy'⟩, hspec', hshared'⟩

theorem finishAll_does (git : String → NodeGit κ) :
    ∀ (ids : List String) (y : Yard κ),
      y.Does (ids.map fun id => .finish id (git id))
        (finishAll y.shared.goals (fun id => (git id).outcome) y.spec ids) y.shared
  | [], y => ⟨y, rfl, rfl, rfl⟩
  | id :: ids, y => by
      obtain ⟨y', hy', hspec, hshared⟩ := finishAll_does git ids (y.finish id (git id))
      rw [finish_shared] at hshared
      rw [finish_spec, finish_shared] at hspec
      exact ⟨y', exec_cons.mpr ⟨_, rfl, hy'⟩, hspec, hshared⟩

/-- An edit of the spec, and the nodes that are finished after it. -/
theorem edit_finishAll_does (e : QuietEdit) (git : String → NodeGit κ) (ids : List String)
    (y : Yard κ) :
    y.Does (.edit e :: ids.map fun id => .finish id (git id))
      (finishAll y.shared.goals (fun id => (git id).outcome) (e.apply y.shared.goals y.spec) ids)
      y.shared := by
  obtain ⟨y', hy', hdone⟩ :=
    finishAll_does git ids { y with spec := e.apply y.shared.goals y.spec }
  exact ⟨y', exec_cons.mpr ⟨_, rfl, hy'⟩, hdone⟩

/-- What a tick launches. -/
def launchActs (env : String → LaunchEnv) (calls : List LaunchCall) : List (YardAct κ) :=
  calls.map fun c => .launch c.node (env c.node)

theorem launchReady_does (env : String → LaunchEnv) :
    ∀ (ids : List String) (slots : Nat) (t : Tick) (y : Yard κ), ids.Nodup →
      (∀ i ∈ ids, ∃ n, t.spec.node i = some n ∧ n.status = .pending) →
      y.spec = t.spec → y.shared = t.shared →
      ∃ calls, (launchReady env ids slots t).calls = t.calls ++ calls ∧
        y.Does (launchActs env calls) (launchReady env ids slots t).spec
          (launchReady env ids slots t).shared
  | [], _, t, y, _, _, hspec, hshared =>
      ⟨[], by simp [launchReady], y, rfl, by simp [launchReady, hspec],
        by simp [launchReady, hshared]⟩
  | _ :: _, 0, t, y, _, _, hspec, hshared =>
      ⟨[], by simp [launchReady], y, rfl, by simp [launchReady, hspec],
        by simp [launchReady, hshared]⟩
  | id :: ids, slots + 1, t, y, hnd, hpend, hspec, hshared => by
      obtain ⟨hid, hids⟩ := List.nodup_cons.mp hnd
      obtain ⟨node, hnode, hst⟩ := hpend id List.mem_cons_self
      have hlater : ∀ (f : GraphNode → GraphNode), (∀ n, (f n).id = n.id) →
          ∀ i ∈ ids, ∃ n, (t.spec.modifyNode id f).node i = some n ∧ n.status = .pending := by
        intro f hf i hi
        have hne : i ≠ id := fun h => hid (h ▸ hi)
        rw [GraphSpec.modifyNode_node hf, if_neg hne]
        exact hpend i (List.mem_cons_of_mem id hi)
      have hstep : y.step (.launch id (env id)) = some (y.launch id (env id) node) := by
        show (y.spec.node id).bind _ = _
        rw [hspec, hnode, Option.bind_some, if_pos hst]
      rw [launchReady]
      split
      next s' shared' hlaunch =>
        obtain ⟨branch, wt, rfl, -⟩ := launchNode_ok hlaunch
        have hy : (y.launch id (env id) node).spec
              = t.spec.modifyNode id (·.launched t.shared.nextUuid branch wt) ∧
            (y.launch id (env id) node).shared = shared' := by
          unfold launch
          rw [hspec, hshared, hlaunch]
          exact ⟨rfl, rfl⟩
        obtain ⟨calls, hcalls, y', hy', hdone⟩ := launchReady_does env ids slots
          ⟨_, shared', t.calls ++ [.of (env id) t.spec id]⟩ _ hids
          (hlater (·.launched t.shared.nextUuid branch wt) fun _ => rfl) hy.1 hy.2
        refine ⟨[.of (env id) t.spec id] ++ calls, hcalls.trans (List.append_assoc _ _ _), y', ?_,
          hdone⟩
        exact exec_cons.mpr ⟨_, hstep, hy'⟩
      next e hfail =>
        have hy : (y.launch id (env id) node).spec = t.spec.modifyNode id (·.launchFailed e) ∧
            (y.launch id (env id) node).shared = t.shared := by
          unfold launch
          rw [hspec, hshared, hfail]
          exact ⟨rfl, by rw [← hshared, ← addWorktree_shared id (env id) y]⟩
        obtain ⟨calls, hcalls, y', hy', hdone⟩ := launchReady_does env ids (slots + 1)
          ⟨_, t.shared, t.calls ++ [.of (env id) t.spec id]⟩ _ hids
          (hlater (·.launchFailed e) fun _ => rfl) hy.1 hy.2
        refine ⟨[.of (env id) t.spec id] ++ calls, hcalls.trans (List.append_assoc _ _ _), y', ?_,
          hdone⟩
        exact exec_cons.mpr ⟨_, hstep, hy'⟩

/-- **A tick of a running graph is a sequence of steps**: the sync, the finished
nodes, the launches, and the new status of the graph. -/
theorem tick_does (env : TickEnv) (git : String → NodeGit κ) (y : Yard κ)
    (hgit : ∀ id, (git id).outcome = env.git id) (hnd : y.spec.ids.Nodup) :
    ∃ st, y.Does
      ((.edit .sync :: (y.spec.toFinish y.shared.goals).map fun id => .finish id (git id)) ++
        launchActs env.launch (scheduleSynced env (syncNodeStates y.shared.goals env.git y.spec)
          y.shared).calls ++ [.edit (.status st)])
      (scheduleSynced env (syncNodeStates y.shared.goals env.git y.spec) y.shared).spec
      (scheduleSynced env (syncNodeStates y.shared.goals env.git y.spec) y.shared).shared := by
  have hsynced : y.Does
      (.edit .sync :: (y.spec.toFinish y.shared.goals).map fun id => .finish id (git id))
      (syncNodeStates y.shared.goals env.git y.spec) y.shared := by
    have hfinished := edit_finishAll_does .sync git (y.spec.toFinish y.shared.goals) y
    have houtcome : (fun id => (git id).outcome) = env.git := funext hgit
    rw [houtcome] at hfinished
    rw [syncNodeStates_eq]
    exact hfinished
  generalize hs : syncNodeStates y.shared.goals env.git y.spec = s at hsynced ⊢
  have hnds : s.ids.Nodup := by
    rw [← hs, (syncNodeStates_frame y.shared.goals env.git y.spec).ids]
    exact hnd
  have hstatus : ∀ (y' : Yard κ) (st : GraphState),
      y'.Does [.edit (.status st)] { y'.spec with status := st } y'.shared :=
    fun y' st => ⟨_, rfl, rfl, rfl⟩
  unfold scheduleSynced
  split
  · refine ⟨.complete, ?_⟩
    rw [List.append_assoc]
    refine hsynced.append fun y' hspec hshared => ?_
    have hdone := hstatus y' .complete
    rw [hspec, hshared] at hdone
    exact hdone
  · have hready : ∀ i ∈ s.readyIds, ∃ n, s.node i = some n ∧ n.status = .pending := by
      intro i hi
      obtain ⟨n, hn, hpend, -⟩ := mem_readyIds hnds hi
      exact ⟨n, hn, hpend⟩
    dsimp only
    generalize ht : launchReady env.launch s.readyIds (s.maxConcurrency - s.activeCount)
      ⟨s, y.shared, []⟩ = t
    have hlaunched : ∀ y' : Yard κ, y'.spec = s → y'.shared = y.shared →
        y'.Does (launchActs env.launch t.calls) t.spec t.shared := by
      intro y' hspec hshared
      obtain ⟨calls, hcalls, hdone⟩ := launchReady_does env.launch s.readyIds
        (s.maxConcurrency - s.activeCount) ⟨s, y.shared, []⟩ y'
        (hnds.sublist (List.filter_sublist.map _)) hready hspec hshared
      rw [ht] at hcalls hdone
      rw [hcalls]
      exact hdone
    split
    · refine ⟨.paused, (hsynced.append hlaunched).append fun y' hspec hshared => ?_⟩
      have hdone := hstatus y' .paused
      rw [hspec, hshared] at hdone
      exact hdone
    · refine ⟨t.spec.status, (hsynced.append hlaunched).append fun y' hspec hshared => ?_⟩
      have hdone := hstatus y' t.spec.status
      rw [hspec, hshared] at hdone
      exact hdone

/-- A resume is one as well: it finishes the nodes whose merge is retried. -/
theorem resume_does (git : String → NodeGit κ) (y : Yard κ) {spec : GraphSpec}
    (h : resumeGraph y.shared.goals (fun id => (git id).outcome) y.spec = .ok spec) :
    ∃ ids : List String, y.Does
      ((.edit .resume :: ids.map fun id => .finish id (git id)) ++ [.edit (.status .running)])
      spec y.shared := by
  unfold resumeGraph at h
  split at h
  · cases h
  dsimp only at h
  obtain rfl := Except.ok.inj h
  let ids := ((y.spec.nodes.map (·.resume)).filter (·.mergePending)).map (·.id)
  have hfinished := edit_finishAll_does .resume git ids y
  refine ⟨ids, hfinished.append fun y' hspec hshared => ⟨_, rfl, ?_, hshared⟩⟩
  exact congrArg (fun s : GraphSpec => { s with status := .running }) hspec

/-! ## §5. Who touches which files. -/

/-- What the agents and the user keep to: the files in a node's output directory are
changed only where the node works and before it is done, no commit of another node
carries changes of them, and HEAD of the base moves without them. -/
def Orderly (y : Yard κ) : YardAct κ → Prop
  | .write dir path _ => ∀ n ∈ y.spec.nodes, y.spec.inOutputDir n.id path = true →
      dir = y.spec.nodeCwd n.id ∧ n.status ≠ .done
  | .commit id tree => ∀ n ∈ y.spec.nodes, n.id ≠ id →
      ∀ p, y.spec.inOutputDir n.id p = true → tree p = y.branch id p
  | .commitBase tree => ∀ n ∈ y.spec.nodes,
      ∀ p, y.spec.inOutputDir n.id p = true → tree p = y.head p
  | _ => True

/-- A node that is finished shows the number of its run's last iteration, and in a
worktree `git add` and `git commit` record the report of that iteration. -/
def Recorded (y : Yard κ) : YardAct κ → Prop
  | .finish id git => ∀ n ∈ y.spec.node id, n.status ≠ .done →
      ∀ run ∈ n.run y.shared.goals, n.iteration ≤ run.iteration ∧
        (y.spec.useWorktrees = true → git.recorded = true ∧
          git.leaves (iterationRel (y.spec.nodeOutputDir id) run.iteration) = false)
  | _ => True

/-- A plan that nobody has started. -/
structure Start (y : Yard κ) : Prop where
  plan : WellFormedPlan y.spec.nodes
  final : ∀ id, y.final id = none
  handoffs : y.handoffs = []

/-- What a node that is launched now finds under a path. -/
def visible (y : Yard κ) (path : String) : Option κ :=
  if y.spec.useWorktrees then y.head path else (y.dirs y.spec.baseCwd).bind (· path)

/-- **The invariant.** -/
structure Sound (y : Yard κ) : Prop where
  valid : ∀ id n, y.spec.node id = some n → validNodeId id = true
  own : ∀ id n p, y.spec.node id = some n → n.worktree = some p → y.spec.OwnWorktree id p
  equipped : ∀ id n, y.spec.node id = some n → n.workspace.isSome = true →
    y.spec.useWorktrees = true → n.worktree.isSome = true ∧ n.branch.isSome = true
  /-- The reports of a node that is not done are as they were when its branch was made. -/
  base : ∀ id n, y.spec.node id = some n → n.worktree.isSome = true → n.status ≠ .done →
    ∀ p, y.spec.inOutputDir id p = true → y.fork id p = y.head p
  /-- No worktree has changed another node's reports. -/
  apart : ∀ id n, y.spec.node id = some n → n.worktree.isSome = true →
    ∀ d m, y.spec.node d = some m → d ≠ id → ∀ p, y.spec.inOutputDir d p = true →
      y.branch id p = y.fork id p ∧
        ∀ files, y.dirs (y.spec.worktreePath id) = some files → files p = y.fork id p
  kept : ∀ id n c, y.spec.node id = some n → y.final id = some c →
    n.status = .done ∧ y.visible (iterationRel (y.spec.nodeOutputDir id) n.iteration) = some c
  handed : ∀ h ∈ y.handoffs, ∀ c, h.expected = some c → h.found = some c

omit [DecidableEq κ] in
theorem Start.sound {y : Yard κ} (h : y.Start) : y.Sound where
  valid id n hn := by
    rw [← GraphSpec.node_id hn]
    exact h.plan.valid n (GraphSpec.node_mem hn)
  own id n p hn hp := by
    rw [(h.plan.unlaunched n (GraphSpec.node_mem hn)).2] at hp
    cases hp
  equipped id n hn hws := by
    rw [(h.plan.unlaunched n (GraphSpec.node_mem hn)).1] at hws
    cases hws
  base id n hn hwt := by
    rw [(h.plan.unlaunched n (GraphSpec.node_mem hn)).2] at hwt
    cases hwt
  apart id n hn hwt := by
    rw [(h.plan.unlaunched n (GraphSpec.node_mem hn)).2] at hwt
    cases hwt
  kept id n c _ hc := by
    rw [h.final id] at hc
    cases hc
  handed hd hmem := by
    rw [h.handoffs] at hmem
    cases hmem

/-! ## §6. Edits of the spec. -/

end Yard

/-- The node keeps what the files are about. -/
structure NodeKept (n n' : GraphNode) : Prop where
  worktree : n'.worktree = n.worktree
  branch : n'.branch = n.branch
  workspace : n'.workspace = n.workspace ∨ n'.workspace = none
  done : n'.status = .done ↔ n.status = .done
  iteration : n.status = .done → n'.iteration = n.iteration

theorem NodeKept.refl (n : GraphNode) : NodeKept n n :=
  ⟨rfl, rfl, .inl rfl, Iff.rfl, fun _ => rfl⟩

structure SpecKept (s s' : GraphSpec) : Prop where
  frame : SpecFrame s s'
  back : ∀ id n', s'.node id = some n' → ∃ n, s.node id = some n ∧ NodeKept n n'

theorem SpecKept.mapNodes {f : GraphNode → GraphNode} (hid : ∀ n, (f n).id = n.id)
    (hf : ∀ n, NodeKept n (f n)) (s : GraphSpec) :
    SpecKept s { s with nodes := s.nodes.map f } := by
  refine ⟨.mapNodes hid s, fun id n' hn' => ?_⟩
  rw [mapNodes_node hid] at hn'
  obtain ⟨n, hn, rfl⟩ := Option.map_eq_some_iff.mp hn'
  exact ⟨n, hn, hf n⟩

theorem SpecKept.modifyNode {f : GraphNode → GraphNode} (hid : ∀ n, (f n).id = n.id)
    {s : GraphSpec} {id : String} (hf : ∀ n, s.node id = some n → NodeKept n (f n)) :
    SpecKept s (s.modifyNode id f) := by
  refine ⟨.modifyNode hid s id, fun i n' hn' => ?_⟩
  rw [GraphSpec.modifyNode_node hid] at hn'
  by_cases hi : i = id
  · subst hi
    rw [if_pos rfl] at hn'
    obtain ⟨n, hn, rfl⟩ := Option.map_eq_some_iff.mp hn'
    exact ⟨n, hn, hf n hn⟩
  · rw [if_neg hi] at hn'
    exact ⟨n', hn', .refl n'⟩

theorem GraphNode.sync_kept (goals : GoalRegistry) (review : Bool) (n : GraphNode) :
    NodeKept n (n.sync goals review).1 := by
  have hrunning : ∀ {st : NodeState}, n.status = .running → st ≠ .done →
      (st = .done ↔ n.status = .done) := by
    intro st hr hst
    rw [hr]
    exact ⟨fun h => absurd h hst, fun h => by cases h⟩
  have hopen : n.status = .running → ∀ it, n.status = .done → it = n.iteration := by
    intro hr it hd
    rw [hr] at hd
    cases hd
  rcases n.sync_cases goals review with ⟨-, h⟩ | ⟨hr, -, d, h⟩ | ⟨hr, run, -, hcase⟩
  · rw [h]
    exact .refl n
  · rw [h]
    exact ⟨rfl, rfl, .inl rfl, hrunning hr (by simp), hopen hr _⟩
  · rcases hcase with ⟨-, -, h⟩ | ⟨-, -, h⟩ | ⟨d, -, h⟩ | ⟨-, h⟩ <;> rw [h]
    · exact ⟨rfl, rfl, .inl rfl, hrunning hr (by simp), hopen hr _⟩
    · exact ⟨rfl, rfl, .inl rfl, Iff.rfl, hopen hr _⟩
    · exact ⟨rfl, rfl, .inl rfl, hrunning hr (by simp), hopen hr _⟩
    · exact ⟨rfl, rfl, .inl rfl, Iff.rfl, hopen hr _⟩

theorem GraphNode.resume_kept (n : GraphNode) : NodeKept n n.resume := by
  unfold GraphNode.resume
  split
  next h => exact ⟨rfl, rfl, .inl rfl, by rw [h]; simp, fun _ => rfl⟩
  next => exact .refl n

theorem GraphNode.continued_kept (n : GraphNode) : NodeKept n n.continued := by
  unfold GraphNode.continued
  split
  next h => exact ⟨rfl, rfl, .inl rfl, by rw [h]; simp, fun _ => rfl⟩
  next => exact .refl n

theorem GraphNode.reconcile_kept (n : GraphNode) : NodeKept n n.reconcile := by
  unfold GraphNode.reconcile
  split
  next h =>
    refine ⟨rfl, rfl, .inr rfl, ⟨fun hd => (by cases hd), fun hd => ?_⟩, fun _ => rfl⟩
    rw [hd] at h
    cases h
  next => exact .refl n

theorem QuietEdit.kept (goals : GoalRegistry) (e : QuietEdit) (s : GraphSpec) :
    SpecKept s (e.apply goals s) := by
  cases e with
  | sync =>
      exact .mapNodes (fun n => n.sync_id goals s.reviewIterations)
        (fun n => n.sync_kept goals s.reviewIterations) s
  | status st => exact ⟨⟨⟨rfl, rfl, rfl, rfl, rfl, rfl⟩, rfl⟩, fun id n hn => ⟨n, hn, .refl n⟩⟩
  | resume =>
      refine .mapNodes (fun n => ?_) GraphNode.resume_kept s
      unfold GraphNode.resume
      split <;> rfl
  | continued id =>
      refine .modifyNode (fun n => ?_) fun n _ => n.continued_kept
      unfold GraphNode.continued
      split <;> rfl
  | goal id text =>
      exact @SpecKept.modifyNode (fun n => { n with goal := text }) (fun _ => rfl) s id
        fun n _ => ⟨rfl, rfl, .inl rfl, Iff.rfl, fun _ => rfl⟩
  | position id x y =>
      exact @SpecKept.modifyNode (fun n => { n with pos := some (x, y) }) (fun _ => rfl) s id
        fun n _ => ⟨rfl, rfl, .inl rfl, Iff.rfl, fun _ => rfl⟩
  | restart =>
      have hid : ∀ n : GraphNode, n.reconcile.id = n.id := by
        intro n
        unfold GraphNode.reconcile
        split <;> rfl
      have hmap := SpecKept.mapNodes hid GraphNode.reconcile_kept s
      exact ⟨⟨⟨rfl, rfl, rfl, rfl, rfl, rfl⟩, hmap.frame.ids⟩, hmap.back⟩

theorem SpecFrame.nodeOutputDir {s s' : GraphSpec} (h : SpecFrame s s') (id : String) :
    s'.nodeOutputDir id = s.nodeOutputDir id := by
  unfold GraphSpec.nodeOutputDir GraphSpec.outputDirRel
  rw [h.outputDir, h.name]

theorem SpecFrame.inOutputDir {s s' : GraphSpec} (h : SpecFrame s s') (id p : String) :
    s'.inOutputDir id p = s.inOutputDir id p := by
  unfold GraphSpec.inOutputDir
  rw [h.nodeOutputDir]

theorem SpecFrame.worktreePath {s s' : GraphSpec} (h : SpecFrame s s') (id : String) :
    s'.worktreePath id = s.worktreePath id := by
  unfold GraphSpec.worktreePath
  rw [h.baseCwd]

namespace Yard

/-- An edit that keeps the nodes keeps the invariant. -/
theorem Sound.edit {y : Yard κ} (hy : y.Sound) {spec : GraphSpec} (h : SpecKept y.spec spec)
    (shared : Shared) : Sound { y with spec := spec, shared := shared } where
  valid id n' hn' := by
    obtain ⟨n, hn, -⟩ := h.back id n' hn'
    exact hy.valid id n hn
  own id n' p hn' hp := by
    obtain ⟨n, hn, hkept⟩ := h.back id n' hn'
    rw [hkept.worktree] at hp
    exact h.frame.ownWorktree.mpr (hy.own id n p hn hp)
  equipped id n' hn' hws huse := by
    obtain ⟨n, hn, hkept⟩ := h.back id n' hn'
    have hws' : n.workspace.isSome = true := by
      rcases hkept.workspace with hw | hw
      · rw [← hw]
        exact hws
      · rw [hw] at hws
        cases hws
    rw [hkept.worktree, hkept.branch]
    exact hy.equipped id n hn hws' (h.frame.useWorktrees ▸ huse)
  base id n' hn' hwt hst p hp := by
    obtain ⟨n, hn, hkept⟩ := h.back id n' hn'
    rw [h.frame.inOutputDir] at hp
    exact hy.base id n hn (hkept.worktree ▸ hwt) (fun hd => hst (hkept.done.mpr hd)) p hp
  apart id n' hn' hwt d m' hm' hne p hp := by
    obtain ⟨n, hn, hkept⟩ := h.back id n' hn'
    obtain ⟨m, hm, -⟩ := h.back d m' hm'
    rw [h.frame.inOutputDir] at hp
    obtain ⟨hbranch, hfiles⟩ := hy.apart id n hn (hkept.worktree ▸ hwt) d m hm hne p hp
    refine ⟨hbranch, fun files hf => hfiles files ?_⟩
    rw [← h.frame.worktreePath]
    exact hf
  kept id n' c hn' hc := by
    obtain ⟨n, hn, hkept⟩ := h.back id n' hn'
    obtain ⟨hdone, hvisible⟩ := hy.kept id n c hn hc
    refine ⟨hkept.done.mpr hdone, ?_⟩
    unfold visible at hvisible ⊢
    dsimp only
    rw [h.frame.useWorktrees, h.frame.baseCwd, h.frame.nodeOutputDir, hkept.iteration hdone]
    exact hvisible
  handed := hy.handed

/-! ## §7. Changes of the files. -/

theorem Sound.drive {y : Yard κ} (hy : y.Sound) (shared : Shared) :
    Sound { y with shared := shared } :=
  hy.edit ⟨.refl _, fun _ n hn => ⟨n, hn, .refl n⟩⟩ shared

theorem mem_of_node {spec : GraphSpec} {id : String} {n : GraphNode} (h : spec.node id = some n) :
    n ∈ spec.nodes ∧ n.id = id :=
  ⟨GraphSpec.node_mem h, GraphSpec.node_id h⟩

/-- Different nodes have different worktrees. -/
theorem Sound.worktreePath_ne {y : Yard κ} (hy : y.Sound) {id d : String} {n m : GraphNode}
    (hn : y.spec.node id = some n) (hm : y.spec.node d = some m) (hne : d ≠ id) :
    y.spec.worktreePath d ≠ y.spec.worktreePath id := by
  intro h
  exact hne (worktreePath_inj (hy.valid d m hm) (hy.valid id n hn) h).2

theorem Sound.write {y : Yard κ} (hy : y.Sound) {dir path : String} {content : Option κ}
    (hok : y.Orderly (.write dir path content)) :
    Sound { y with
      dirs := Function.update y.dirs dir
        ((y.dirs dir).map fun files => Function.update files path content) } where
  valid := hy.valid
  own := hy.own
  equipped := hy.equipped
  base := hy.base
  apart id n hn hwt d m hm hne p hp := by
    obtain ⟨hbranch, hfiles⟩ := hy.apart id n hn hwt d m hm hne p hp
    refine ⟨hbranch, fun files hf => ?_⟩
    dsimp only at hf
    by_cases hdir : y.spec.worktreePath id = dir
    · subst hdir
      rw [Function.update_self] at hf
      obtain ⟨old, hold, rfl⟩ := Option.map_eq_some_iff.mp hf
      have hother : p ≠ path := by
        rintro rfl
        -- reports of `d` are written in the worktree of `d`
        obtain ⟨hmem, hid⟩ := mem_of_node hm
        obtain ⟨hwhere, -⟩ := hok m hmem (hid ▸ hp)
        obtain ⟨wt, hwt⟩ := Option.isSome_iff_exists.mp hwt
        have huse := (hy.own id n wt hn hwt).1
        rw [hid, GraphSpec.nodeCwd, if_pos huse] at hwhere
        exact hy.worktreePath_ne hn hm hne hwhere.symm
      rw [Function.update_of_ne hother]
      exact hfiles old hold
    · rw [Function.update_of_ne hdir] at hf
      exact hfiles files hf
  kept id n c hn hc := by
    obtain ⟨hdone, hvisible⟩ := hy.kept id n c hn hc
    refine ⟨hdone, ?_⟩
    unfold visible at hvisible ⊢
    dsimp only
    cases huse : y.spec.useWorktrees with
    | true =>
        rw [huse] at hvisible
        exact hvisible
    | false =>
        rw [huse, if_neg Bool.false_ne_true] at hvisible
        rw [if_neg Bool.false_ne_true]
        by_cases hdir : y.spec.baseCwd = dir
        · subst hdir
          rw [Function.update_self]
          obtain ⟨old, hold, hread⟩ := Option.bind_eq_some_iff.mp hvisible
          have hother : iterationRel (y.spec.nodeOutputDir id) n.iteration ≠ path := by
            rintro rfl
            -- nobody touches the reports of a node that is done
            obtain ⟨hmem, hid⟩ := mem_of_node hn
            obtain ⟨-, hopen⟩ := hok n hmem (hid ▸ inOutputDir_iterationRel _ _ _)
            exact hopen hdone
          rw [hold, Option.map_some, Option.bind_some, Function.update_of_ne hother]
          exact hread
        · rw [Function.update_of_ne hdir]
          exact hvisible
  handed := hy.handed

theorem Sound.commit {y : Yard κ} (hy : y.Sound) {id : String} {tree : FileTree String κ}
    (hok : y.Orderly (.commit id tree)) :
    Sound { y with branch := Function.update y.branch id tree } where
  valid := hy.valid
  own := hy.own
  equipped := hy.equipped
  base := hy.base
  apart i n hn hwt d m hm hne p hp := by
    obtain ⟨hbranch, hfiles⟩ := hy.apart i n hn hwt d m hm hne p hp
    refine ⟨?_, hfiles⟩
    dsimp only
    by_cases hi : i = id
    · subst hi
      obtain ⟨hmem, hid⟩ := mem_of_node hm
      rw [Function.update_self, hok m hmem (hid ▸ hne) p (hid ▸ hp)]
      exact hbranch
    · rw [Function.update_of_ne hi]
      exact hbranch
  kept i n c hn hc := by
    obtain ⟨hdone, hvisible⟩ := hy.kept i n c hn hc
    unfold visible at hvisible ⊢
    exact ⟨hdone, hvisible⟩
  handed := hy.handed

theorem Sound.commitBase {y : Yard κ} (hy : y.Sound) {tree : FileTree String κ}
    (hok : y.Orderly (.commitBase tree)) : Sound { y with head := tree } where
  valid := hy.valid
  own := hy.own
  equipped := hy.equipped
  base id n hn hwt hst p hp := by
    obtain ⟨hmem, hid⟩ := mem_of_node hn
    show y.fork id p = tree p
    rw [hok n hmem p (hid ▸ hp)]
    exact hy.base id n hn hwt hst p hp
  apart := hy.apart
  kept id n c hn hc := by
    obtain ⟨hdone, hvisible⟩ := hy.kept id n c hn hc
    refine ⟨hdone, ?_⟩
    obtain ⟨hmem, hid⟩ := mem_of_node hn
    have hsame := hok n hmem (iterationRel (y.spec.nodeOutputDir id) n.iteration)
      (hid ▸ inOutputDir_iterationRel _ _ _)
    unfold visible at hvisible ⊢
    dsimp only
    rw [hsame]
    exact hvisible
  handed := hy.handed

/-! ## §8. A launch. -/

/-- The worktree that a launch has made: its files, its branch and what the branch
was made from are the base's HEAD. -/
structure Forked (y : Yard κ) (id : String) : Prop where
  fork : y.fork id = y.head
  branch : y.branch id = y.head
  files : y.dirs (y.spec.worktreePath id) = some y.head

/-- What the worktree part of a launch does. -/
theorem addWorktree_cases (id : String) (env : LaunchEnv) (y : Yard κ) :
    (y.spec.useWorktrees = false ∧ y.addWorktree id env = y) ∨
    (y.spec.useWorktrees = true ∧ ∃ dirs : String → Option (FileTree String κ),
      (∀ dir, dir ≠ y.spec.worktreePath id → dirs dir = y.dirs dir) ∧
      ((env.makeParent.isOk = true ∧ env.worktreeAdd.isOk = true ∧
          dirs (y.spec.worktreePath id) = some y.head ∧
          y.addWorktree id env = { y with
            dirs := dirs
            branch := Function.update y.branch id y.head
            fork := Function.update y.fork id y.head }) ∨
        ((env.makeParent.isOk = false ∨ env.worktreeAdd.isOk = false) ∧
          (dirs (y.spec.worktreePath id) = y.dirs (y.spec.worktreePath id) ∨
            dirs (y.spec.worktreePath id) = none) ∧
          y.addWorktree id env = { y with dirs := dirs }))) := by
  unfold addWorktree
  cases huse : y.spec.useWorktrees with
  | false => exact .inl ⟨rfl, rfl⟩
  | true =>
      refine .inr ⟨rfl, ?_⟩
      rw [if_pos rfl]
      dsimp only
      generalize hd : (if env.worktreeExists = true then
        Function.update y.dirs (y.spec.worktreePath id) none else y.dirs) = dirs
      have hother : ∀ dir, dir ≠ y.spec.worktreePath id → dirs dir = y.dirs dir := by
        intro dir hdir
        rw [← hd]
        split
        · exact Function.update_of_ne hdir _ _
        · rfl
      have hown : dirs (y.spec.worktreePath id) = y.dirs (y.spec.worktreePath id) ∨
          dirs (y.spec.worktreePath id) = none := by
        rw [← hd]
        split
        · exact .inr (Function.update_self _ _ _)
        · exact .inl rfl
      cases hp : env.makeParent with
      | error e => exact ⟨dirs, hother, .inr ⟨.inl rfl, hown, rfl⟩⟩
      | ok u =>
          cases ha : env.worktreeAdd with
          | error e => exact ⟨dirs, hother, .inr ⟨.inr rfl, hown, rfl⟩⟩
          | ok v =>
              refine ⟨Function.update dirs (y.spec.worktreePath id) (some y.head),
                fun dir hdir => ?_, .inl ⟨rfl, rfl, Function.update_self _ _ _, rfl⟩⟩
              rw [Function.update_of_ne hdir]
              exact hother dir hdir

theorem Sound.addWorktree {y : Yard κ} (hy : y.Sound) {id : String} {n : GraphNode}
    (hn : y.spec.node id = some n) (env : LaunchEnv) : (y.addWorktree id env).Sound := by
  rcases y.addWorktree_cases id env with ⟨-, heq⟩ | ⟨huse, dirs, hother, hcase⟩
  · rw [heq]
    exact hy
  have hfar : ∀ i m, y.spec.node i = some m → i ≠ id →
      dirs (y.spec.worktreePath i) = y.dirs (y.spec.worktreePath i) :=
    fun i m hm hi => hother _ (hy.worktreePath_ne hn hm hi)
  have hkept : ∀ i m c, y.spec.node i = some m → y.final i = some c → m.status = .done ∧
      (if y.spec.useWorktrees then
          y.head (iterationRel (y.spec.nodeOutputDir i) m.iteration)
        else (dirs y.spec.baseCwd).bind
          (· (iterationRel (y.spec.nodeOutputDir i) m.iteration))) = some c := by
    intro i m c hm hc
    obtain ⟨hdone, hvisible⟩ := hy.kept i m c hm hc
    unfold visible at hvisible
    rw [if_pos huse] at hvisible
    rw [if_pos huse]
    exact ⟨hdone, hvisible⟩
  rcases hcase with ⟨-, -, hfiles, heq⟩ | ⟨-, hfiles, heq⟩
  · rw [heq]
    refine ⟨hy.valid, hy.own, hy.equipped, ?_, ?_, hkept, hy.handed⟩
    · intro i m hm hwt hst p hp
      dsimp only
      by_cases hi : i = id
      · subst hi
        rw [Function.update_self]
      · rw [Function.update_of_ne hi]
        exact hy.base i m hm hwt hst p hp
    · intro i m hm hwt d k hk hne p hp
      dsimp only
      by_cases hi : i = id
      · subst hi
        rw [Function.update_self, Function.update_self]
        refine ⟨rfl, fun files hf => ?_⟩
        rw [hfiles] at hf
        obtain rfl := Option.some.inj hf
        rfl
      · rw [Function.update_of_ne hi, Function.update_of_ne hi]
        obtain ⟨hbranch, hold⟩ := hy.apart i m hm hwt d k hk hne p hp
        refine ⟨hbranch, fun files hf => hold files ?_⟩
        rw [← hfar i m hm hi]
        exact hf
  · rw [heq]
    refine ⟨hy.valid, hy.own, hy.equipped, hy.base, ?_, hkept, hy.handed⟩
    intro i m hm hwt d k hk hne p hp
    obtain ⟨hbranch, hold⟩ := hy.apart i m hm hwt d k hk hne p hp
    refine ⟨hbranch, fun files hf => hold files ?_⟩
    dsimp only at hf
    by_cases hi : i = id
    · subst hi
      rcases hfiles with hsame | hgone
      · rw [← hsame]
        exact hf
      · rw [hgone] at hf
        cases hf
    · rw [← hfar i m hm hi]
      exact hf

/-- A node that is launched in the worktree that has been made for it. -/
theorem Sound.launched {y : Yard κ} (hy : y.Sound) {id : String} {n : GraphNode}
    (hn : y.spec.node id = some n) (hpend : n.status = .pending) {branch wt : Option String}
    (hwith : y.spec.useWorktrees = true →
      wt = some (y.spec.worktreePath id) ∧ branch.isSome = true ∧ y.Forked id)
    (hwithout : y.spec.useWorktrees = false → wt = none) (ws : Uuid) (shared : Shared) :
    Sound { y with spec := y.spec.modifyNode id (·.launched ws branch wt), shared := shared } := by
  have hid : ∀ m : GraphNode, (m.launched ws branch wt).id = m.id := fun _ => rfl
  have hframe : SpecFrame y.spec (y.spec.modifyNode id (·.launched ws branch wt)) :=
    .modifyNode hid y.spec id
  have hself : (y.spec.modifyNode id (·.launched ws branch wt)).node id
      = some (n.launched ws branch wt) := by
    rw [GraphSpec.modifyNode_node hid, if_pos rfl, hn]
    rfl
  have hothers : ∀ i, i ≠ id →
      (y.spec.modifyNode id (·.launched ws branch wt)).node i = y.spec.node i := by
    intro i hi
    rw [GraphSpec.modifyNode_node hid, if_neg hi]
  have hback : ∀ i m, (y.spec.modifyNode id (·.launched ws branch wt)).node i = some m →
      ∃ k, y.spec.node i = some k := fun i m hm => hframe.node_before hm
  refine ⟨?_, ?_, ?_, ?_, ?_, ?_, hy.handed⟩
  · intro i m hm
    obtain ⟨k, hk⟩ := hback i m hm
    exact hy.valid i k hk
  · intro i m p hm hp
    by_cases hi : i = id
    · subst hi
      obtain rfl := Option.some.inj (hself.symm.trans hm)
      refine hframe.ownWorktree.mpr ?_
      cases huse : y.spec.useWorktrees with
      | true =>
          rw [show (n.launched ws branch wt).worktree = wt from rfl, (hwith huse).1] at hp
          exact ⟨huse, (Option.some.inj hp).symm⟩
      | false =>
          rw [show (n.launched ws branch wt).worktree = wt from rfl, hwithout huse] at hp
          cases hp
    · rw [hothers i hi] at hm
      exact hframe.ownWorktree.mpr (hy.own i m p hm hp)
  · intro i m hm hws huse
    by_cases hi : i = id
    · subst hi
      obtain rfl := Option.some.inj (hself.symm.trans hm)
      obtain ⟨hwt, hbranch, -⟩ := hwith huse
      refine ⟨?_, hbranch⟩
      show wt.isSome = true
      rw [hwt]
      rfl
    · rw [hothers i hi] at hm
      exact hy.equipped i m hm hws huse
  · intro i m hm hwt hst p hp
    rw [hframe.inOutputDir] at hp
    by_cases hi : i = id
    · subst hi
      obtain rfl := Option.some.inj (hself.symm.trans hm)
      cases huse : y.spec.useWorktrees with
      | true => exact congrFun (hwith huse).2.2.fork p
      | false =>
          rw [show (n.launched ws branch wt).worktree = wt from rfl, hwithout huse] at hwt
          cases hwt
    · rw [hothers i hi] at hm
      exact hy.base i m hm hwt hst p hp
  · intro i m hm hwt d k hk hne p hp
    rw [hframe.inOutputDir] at hp
    obtain ⟨k₀, hk₀⟩ := hback d k hk
    dsimp only
    rw [hframe.worktreePath]
    by_cases hi : i = id
    · subst hi
      obtain rfl := Option.some.inj (hself.symm.trans hm)
      cases huse : y.spec.useWorktrees with
      | true =>
          have hforked := (hwith huse).2.2
          rw [hforked.fork, hforked.branch, hforked.files]
          exact ⟨rfl, fun files hf => by rw [Option.some.inj hf]⟩
      | false =>
          rw [show (n.launched ws branch wt).worktree = wt from rfl, hwithout huse] at hwt
          cases hwt
    · rw [hothers i hi] at hm
      exact hy.apart i m hm hwt d k₀ hk₀ hne p hp
  · intro i m c hm hc
    by_cases hi : i = id
    · subst hi
      -- a node that was pending has no report yet
      have hdone := (hy.kept i n c hn hc).1
      rw [hpend] at hdone
      cases hdone
    · rw [hothers i hi] at hm
      obtain ⟨hdone, hvisible⟩ := hy.kept i m c hm hc
      refine ⟨hdone, ?_⟩
      unfold visible at hvisible ⊢
      dsimp only
      rw [hframe.useWorktrees, hframe.baseCwd, hframe.nodeOutputDir]
      exact hvisible

theorem addWorktree_spec (id : String) (env : LaunchEnv) (y : Yard κ) :
    (y.addWorktree id env).spec = y.spec := by
  rcases y.addWorktree_cases id env with ⟨-, heq⟩ | ⟨-, dirs, -, ⟨-, -, -, heq⟩ | ⟨-, -, heq⟩⟩ <;>
    rw [heq]

/-- A worktree that git has made starts at the base's HEAD. -/
theorem addWorktree_forked {env : LaunchEnv} {y : Yard κ} {id : String} {u v : Unit}
    (huse : y.spec.useWorktrees = true) (hp : env.makeParent = .ok u)
    (ha : env.worktreeAdd = .ok v) : (y.addWorktree id env).Forked id := by
  unfold addWorktree
  rw [if_pos huse]
  simp only [hp, ha]
  refine ⟨?_, ?_, ?_⟩
  · simp only [Function.update_self]
  · simp only [Function.update_self]
  · simp only [Function.update_self]

/-- A launch that gets through has the worktree it needs. -/
theorem launchNode_forked {env : LaunchEnv} {y : Yard κ} {id : String} {spec' : GraphSpec}
    {shared' : Shared} (h : launchNode env y.spec id y.shared = .ok (spec', shared')) :
    ∃ branch wt, spec' = y.spec.modifyNode id (·.launched y.shared.nextUuid branch wt) ∧
      (y.spec.useWorktrees = true → wt = some (y.spec.worktreePath id) ∧
        branch.isSome = true ∧ (y.addWorktree id env).Forked id) ∧
      (y.spec.useWorktrees = false → wt = none) := by
  obtain ⟨_, _, branch, wt, _, _, -, hprep, -, -, rfl⟩ := launchNode_steps h
  refine ⟨branch, wt, rfl, fun huse => ?_, fun huse => ?_⟩
  · unfold prepareWorktree at hprep
    rw [if_pos huse] at hprep
    cases hp : env.makeParent with
    | error e =>
        rw [hp] at hprep
        cases hprep
    | ok u =>
        cases ha : env.worktreeAdd with
        | error e =>
            rw [hp, ha] at hprep
            cases hprep
        | ok v =>
            rw [hp, ha] at hprep
            obtain ⟨-, hplace⟩ := Prod.mk.inj (Except.ok.inj hprep)
            obtain ⟨rfl, rfl⟩ := Prod.mk.inj hplace
            exact ⟨rfl, rfl, addWorktree_forked huse hp ha⟩
  · unfold prepareWorktree at hprep
    rw [if_neg (by simp [huse])] at hprep
    cases hprep
    rfl

/-- **What a node finds when it starts** is what its dependencies were finished with. -/
theorem handoffsOf_real {y : Yard κ} (hy : y.Sound) {node : GraphNode}
    (hforked : y.spec.useWorktrees = true → y.Forked node.id) :
    ∀ h ∈ y.handoffsOf node, ∀ c, h.expected = some c → h.found = some c := by
  intro h hmem c hc
  unfold handoffsOf at hmem
  obtain ⟨d, -, hd⟩ := List.mem_filterMap.mp hmem
  obtain ⟨ref, href, rfl⟩ := Option.map_eq_some_iff.mp hd
  unfold GraphSpec.upstreamRef at href
  obtain ⟨dep, hdep, hiter⟩ := Option.bind_eq_some_iff.mp href
  split at hiter
  next =>
    obtain rfl := Option.some.inj hiter
    have hvisible := (hy.kept d dep c hdep hc).2
    unfold visible at hvisible
    show (y.dirs (y.spec.nodeCwd node.id)).bind _ = some c
    unfold GraphSpec.nodeCwd
    cases huse : y.spec.useWorktrees with
    | true =>
        rw [huse, if_pos rfl] at hvisible
        rw [if_pos rfl, (hforked huse).files]
        exact hvisible
    | false =>
        rw [huse, if_neg Bool.false_ne_true] at hvisible
        rw [if_neg Bool.false_ne_true]
        exact hvisible
  · cases hiter

theorem Sound.launch {y : Yard κ} (hy : y.Sound) {id : String} {n : GraphNode}
    (hn : y.spec.node id = some n) (hpend : n.status = .pending) (env : LaunchEnv) :
    (y.launch id env n).Sound := by
  have hmade := hy.addWorktree hn env
  have hspec := y.addWorktree_spec id env
  have hid := GraphSpec.node_id hn
  unfold Yard.launch
  cases hlaunch : launchNode env y.spec id y.shared with
  | error e =>
      dsimp only
      have hkept : SpecKept y.spec (y.spec.modifyNode id (·.launchFailed e)) := by
        refine @SpecKept.modifyNode (·.launchFailed e) (fun _ => rfl) _ _ fun m hm => ?_
        obtain rfl := Option.some.inj (hn.symm.trans hm)
        refine ⟨rfl, rfl, .inl rfl, ?_, fun _ => rfl⟩
        rw [hpend]
        exact ⟨fun h => (by cases h), fun h => (by cases h)⟩
      rw [← hspec] at hkept ⊢
      exact hmade.edit hkept _
  | ok r =>
      obtain ⟨spec', shared'⟩ := r
      obtain ⟨branch, wt, rfl, hwith, hwithout⟩ := launchNode_forked hlaunch
      dsimp only
      rw [← hspec] at hn hwith hwithout ⊢
      have hdone := hmade.launched hn hpend hwith hwithout y.shared.nextUuid shared'
      refine ⟨hdone.valid, hdone.own, hdone.equipped, hdone.base, hdone.apart, hdone.kept, ?_⟩
      intro h hmem
      rcases List.mem_append.mp hmem with hold | hnew
      · exact hy.handed h hold
      · have hforked : (y.addWorktree id env).spec.useWorktrees = true →
            (y.addWorktree id env).Forked n.id := by
          intro huse
          rw [hid]
          exact (hwith huse).2.2
        exact handoffsOf_real hmade hforked h hnew

/-! ## §9. A finish. -/

/-- The commit of a worktree changes no report of another node. -/
theorem commitWork_orderly {y : Yard κ} (hy : y.Sound) {id wt : String} {n : GraphNode}
    (hn : y.spec.node id = some n) (hwt : n.worktree = some wt) (git : NodeGit κ) :
    y.Orderly (.commit id (y.commitWork id wt git)) := by
  intro m hm hne p hp
  have hpath := (hy.own id n wt hn hwt).2
  obtain ⟨k, hk⟩ : ∃ k, y.spec.node m.id = some k :=
    Option.isSome_iff_exists.mp (List.find?_isSome.mpr ⟨m, hm, by simp⟩)
  obtain ⟨hbranch, hfiles⟩ := hy.apart id n hn (by rw [hwt]; rfl) m.id k hk hne p hp
  unfold commitWork
  cases hdir : y.dirs wt with
  | none => rfl
  | some files =>
      have hsame := hfiles files (hpath ▸ hdir)
      dsimp only
      split
      · exact FileTree.record_eq_of_agree rfl (hsame.trans hbranch.symm)
      · rfl

/-- The node is done, with the report `final`, and HEAD of the base is `head`. -/
theorem Sound.finished {y : Yard κ} (hy : y.Sound) {id : String} {n : GraphNode}
    (hn : y.spec.node id = some n) {f : GraphNode → GraphNode} (hid : ∀ m, (f m).id = m.id)
    (hwt : (f n).worktree = n.worktree) (hbr : (f n).branch = n.branch)
    (hws : (f n).workspace = n.workspace) (hdone : (f n).status = .done)
    {head : FileTree String κ} {final : Option κ}
    (hothers : ∀ d m, y.spec.node d = some m → d ≠ id → ∀ p, y.spec.inOutputDir d p = true →
      head p = y.head p)
    (hfinal : ∀ c, final = some c →
      ({ y with head := head } : Yard κ).visible
        (iterationRel (y.spec.nodeOutputDir id) (f n).iteration) = some c) :
    Sound { y with
      spec := y.spec.modifyNode id f, head := head
      final := Function.update y.final id final } := by
  have hframe : SpecFrame y.spec (y.spec.modifyNode id f) := .modifyNode hid y.spec id
  have hself : (y.spec.modifyNode id f).node id = some (f n) := by
    rw [GraphSpec.modifyNode_node hid, if_pos rfl, hn]
    rfl
  have hrest : ∀ i, i ≠ id → (y.spec.modifyNode id f).node i = y.spec.node i := by
    intro i hi
    rw [GraphSpec.modifyNode_node hid, if_neg hi]
  have hback : ∀ i m, (y.spec.modifyNode id f).node i = some m →
      ∃ k, y.spec.node i = some k ∧ m.worktree = k.worktree ∧ m.branch = k.branch ∧
        m.workspace = k.workspace := by
    intro i m hm
    by_cases hi : i = id
    · subst hi
      obtain rfl := Option.some.inj (hself.symm.trans hm)
      exact ⟨n, hn, hwt, hbr, hws⟩
    · rw [hrest i hi] at hm
      exact ⟨m, hm, rfl, rfl, rfl⟩
  refine ⟨?_, ?_, ?_, ?_, ?_, ?_, hy.handed⟩
  · intro i m hm
    obtain ⟨k, hk, -⟩ := hback i m hm
    exact hy.valid i k hk
  · intro i m p hm hp
    obtain ⟨k, hk, hkwt, -⟩ := hback i m hm
    exact hframe.ownWorktree.mpr (hy.own i k p hk (hkwt ▸ hp))
  · intro i m hm hmws huse
    obtain ⟨k, hk, hkwt, hkbr, hkws⟩ := hback i m hm
    rw [hkwt, hkbr]
    exact hy.equipped i k hk (hkws ▸ hmws) huse
  · intro i m hm hmwt hst p hp
    rw [hframe.inOutputDir] at hp
    by_cases hi : i = id
    · subst hi
      obtain rfl := Option.some.inj (hself.symm.trans hm)
      exact absurd hdone hst
    · rw [hrest i hi] at hm
      show y.fork i p = head p
      rw [hothers i m hm hi p hp]
      exact hy.base i m hm hmwt hst p hp
  · intro i m hm hmwt d k hk hne p hp
    rw [hframe.inOutputDir] at hp
    obtain ⟨m₀, hm₀, hkwt, -⟩ := hback i m hm
    obtain ⟨k₀, hk₀, -⟩ := hback d k hk
    obtain ⟨hbranch, hfiles⟩ := hy.apart i m₀ hm₀ (hkwt ▸ hmwt) d k₀ hk₀ hne p hp
    refine ⟨hbranch, fun files hf => hfiles files ?_⟩
    rw [← hframe.worktreePath]
    exact hf
  · intro i m c hm hc
    dsimp only at hc
    by_cases hi : i = id
    · subst hi
      obtain rfl := Option.some.inj (hself.symm.trans hm)
      rw [Function.update_self] at hc
      have hvisible := hfinal c hc
      refine ⟨hdone, ?_⟩
      unfold visible at hvisible ⊢
      dsimp only at hvisible ⊢
      rw [hframe.useWorktrees, hframe.baseCwd, hframe.nodeOutputDir]
      exact hvisible
    · rw [Function.update_of_ne hi] at hc
      rw [hrest i hi] at hm
      obtain ⟨hst, hvisible⟩ := hy.kept i m c hm hc
      refine ⟨hst, ?_⟩
      have hsame := hothers i m hm hi _ (inOutputDir_iterationRel y.spec i m.iteration)
      unfold visible at hvisible ⊢
      dsimp only
      rw [hframe.useWorktrees, hframe.baseCwd, hframe.nodeOutputDir, hsame]
      exact hvisible

/-- **What `finish_node` makes of an open node.** -/
theorem finish_open (goals : GoalRegistry) (name ownDir : String) (git : GitOutcome)
    {n : GraphNode} (hopen : n.status ≠ .done) :
    ∃ d, n.finish goals name ownDir git = { n with
      iteration := n.reportedIteration goals
      status := if n.mergeRefused ownDir git then .blocked else .done
      detail := d } := by
  unfold GraphNode.finish
  rw [if_neg hopen]
  obtain ⟨st, d, -, h⟩ := GraphNode.mergeBack_cases name ownDir git
    { n with iteration := n.reportedIteration goals }
  have hstatus := GraphNode.mergeBack_status name ownDir git
    { n with iteration := n.reportedIteration goals }
  rw [h] at hstatus ⊢
  obtain rfl : st = if n.mergeRefused ownDir git then NodeState.blocked else .done := hstatus
  exact ⟨d, rfl⟩

variable [DecidableEq κ]

/-- The report that is committed reaches HEAD of the base. -/
theorem merged_report {y : Yard κ} (hy : y.Sound) {id : String} {n : GraphNode}
    (hn : y.spec.node id = some n) (hopen : n.status ≠ .done) {git : NodeGit κ}
    (hrec : y.Recorded (.finish id git)) {c : κ} (hc : y.report n = some c)
    (hmerged : n.mergeRefused y.spec.ownDir git.outcome = false) :
    (y.mergeWork n git).visible
      (iterationRel (y.spec.nodeOutputDir id) (n.reportedIteration y.shared.goals)) = some c := by
  have hid := GraphSpec.node_id hn
  unfold report at hc
  obtain ⟨run, hrun, hfile⟩ := Option.bind_eq_some_iff.mp hc
  obtain ⟨files, hdir, hread⟩ := Option.bind_eq_some_iff.mp hfile
  obtain ⟨hle, hcommit⟩ := hrec n hn hopen run hrun
  have hnumber : n.reportedIteration y.shared.goals = run.iteration := by
    have hlookup : n.workspace.bind y.shared.goals.lookup = some run := hrun
    unfold GraphNode.reportedIteration
    rw [hlookup]
    exact Nat.max_eq_left hle
  have hws : n.workspace.isSome = true := by
    unfold GraphNode.run at hrun
    cases hw : n.workspace with
    | none =>
        rw [hw] at hrun
        cases hrun
    | some ws => rfl
  rw [hid] at hread
  rw [hnumber]
  unfold visible mergeWork
  cases huse : y.spec.useWorktrees with
  | true =>
      obtain ⟨hwt, hbr⟩ := hy.equipped id n hn hws huse
      obtain ⟨wt, hwt⟩ := Option.isSome_iff_exists.mp hwt
      obtain ⟨br, hbr⟩ := Option.isSome_iff_exists.mp hbr
      rw [hwt, Option.getD_some] at hdir
      rw [hwt, hbr]
      dsimp only
      obtain ⟨hrecorded, hstaged⟩ := hcommit huse
      have hbase := hy.base id n hn (by rw [hwt]; rfl) hopen _
        (inOutputDir_iterationRel y.spec id run.iteration)
      rw [huse, if_pos rfl, hmerged, if_neg Bool.false_ne_true, hid,
        FileTree.merge_of_ours_kept hbase.symm]
      unfold commitWork
      rw [hdir]
      dsimp only
      rw [hrecorded, if_pos rfl, FileTree.record_of_staged hstaged]
      exact hread
  | false =>
      have hwt : n.worktree = none := by
        cases hw : n.worktree with
        | none => rfl
        | some wt =>
            have hown := (hy.own id n wt hn hw).1
            rw [huse] at hown
            cases hown
      rw [hwt, Option.getD_none] at hdir
      rw [hwt]
      dsimp only
      rw [huse, if_neg Bool.false_ne_true, hdir]
      exact hread

theorem mergeWork_eq (n : GraphNode) (git : NodeGit κ) (y : Yard κ) :
    ∃ branch head, y.mergeWork n git = { y with branch := branch, head := head } := by
  unfold mergeWork
  split
  · exact ⟨_, _, rfl⟩
  · exact ⟨y.branch, y.head, rfl⟩

/-- The branch of a worktree node after its work is committed. -/
theorem Sound.committed {y : Yard κ} (hy : y.Sound) {id : String} {n : GraphNode}
    (hn : y.spec.node id = some n) (git : NodeGit κ) :
    Sound { y with branch := (y.mergeWork n git).branch } := by
  have hid := GraphSpec.node_id hn
  unfold mergeWork
  cases hwt : n.worktree with
  | none => exact hy
  | some wt =>
      cases hbr : n.branch with
      | none => exact hy
      | some br =>
          dsimp only
          rw [hid]
          exact hy.commit (commitWork_orderly hy hn hwt git)

/-- A merge moves HEAD of the base without the reports of other nodes. -/
theorem mergeWork_head_of_other {y : Yard κ} (hy : y.Sound) {id : String} {n : GraphNode}
    (hn : y.spec.node id = some n) (git : NodeGit κ) {d : String} {m : GraphNode}
    (hm : y.spec.node d = some m) (hne : d ≠ id) {p : String}
    (hp : y.spec.inOutputDir d p = true) : (y.mergeWork n git).head p = y.head p := by
  have hid := GraphSpec.node_id hn
  unfold mergeWork
  cases hwt : n.worktree with
  | none => rfl
  | some wt =>
      cases hbr : n.branch with
      | none => rfl
      | some br =>
          dsimp only
          split
          · rfl
          · obtain ⟨hmem, hmid⟩ := mem_of_node hm
            have htip := commitWork_orderly hy hn hwt git m hmem (hmid ▸ hne) p (hmid ▸ hp)
            have hbranch := (hy.apart id n hn (by rw [hwt]; rfl) d m hm hne p hp).1
            rw [hid]
            exact FileTree.merge_of_theirs_kept (htip.trans hbranch)

theorem mergeWork_refused (y : Yard κ) {n : GraphNode} {git : NodeGit κ}
    (h : n.mergeRefused y.spec.ownDir git.outcome = true) : (y.mergeWork n git).head = y.head := by
  unfold mergeWork
  split
  · dsimp only
    rw [if_pos h]
  · rfl

theorem Sound.finish {y : Yard κ} (hy : y.Sound) {id : String} {git : NodeGit κ}
    (hrec : y.Recorded (.finish id git)) : (y.finish id git).Sound := by
  let f : GraphNode → GraphNode :=
    (·.finish y.shared.goals y.spec.name y.spec.ownDir git.outcome)
  have hfid : ∀ m, (f m).id = m.id := fun m => m.finish_id _ _ _ _
  unfold Yard.finish
  dsimp only
  cases hn : y.spec.node id with
  | none =>
      have hkept : SpecKept y.spec (y.spec.modifyNode id f) := by
        refine .modifyNode hfid fun m hm => ?_
        rw [hn] at hm
        cases hm
      exact hy.edit hkept y.shared
  | some n =>
      dsimp only
      by_cases hdone : n.status = .done
      · rw [if_pos hdone]
        have hkept : SpecKept y.spec (y.spec.modifyNode id f) := by
          refine .modifyNode hfid fun m hm => ?_
          obtain rfl := Option.some.inj (hn.symm.trans hm)
          rcases n.finish_cases y.shared.goals y.spec.name y.spec.ownDir git.outcome with
            ⟨-, h⟩ | ⟨h, -⟩
          · show NodeKept n (n.finish _ _ _ _)
            rw [h]
            exact .refl n
          · exact absurd hdone h
        exact hy.edit hkept y.shared
      · rw [if_neg hdone]
        have hcommitted := hy.committed hn git
        have hothers : ∀ d m, y.spec.node d = some m → d ≠ id → ∀ p,
            y.spec.inOutputDir d p = true → (y.mergeWork n git).head p = y.head p :=
          fun d m hm hne p hp => mergeWork_head_of_other hy hn git hm hne hp
        obtain ⟨d, hf⟩ := finish_open y.shared.goals y.spec.name y.spec.ownDir git.outcome hdone
        obtain ⟨branch, head, hwork⟩ := y.mergeWork_eq n git
        cases hrefused : n.mergeRefused y.spec.ownDir git.outcome with
        | true =>
            have hhead := mergeWork_refused y hrefused
            rw [hwork] at hcommitted hhead ⊢
            obtain rfl : head = y.head := hhead
            have hkept : SpecKept y.spec (y.spec.modifyNode id f) := by
              refine .modifyNode hfid fun m hm => ?_
              obtain rfl := Option.some.inj (hn.symm.trans hm)
              show NodeKept n (n.finish _ _ _ _)
              rw [hf, hrefused]
              exact ⟨rfl, rfl, .inl rfl, ⟨fun h => (by cases h), fun h => absurd h hdone⟩,
                fun h => absurd h hdone⟩
            exact hcommitted.edit hkept y.shared
        | false =>
            have hreport : ∀ c, y.report n = some c → (y.mergeWork n git).visible
                (iterationRel (y.spec.nodeOutputDir id)
                  (n.reportedIteration y.shared.goals)) = some c :=
              fun c hc => merged_report hy hn hdone hrec hc hrefused
            have hfn : f n = { n with
                iteration := n.reportedIteration y.shared.goals, status := .done
                detail := d } := by
              show n.finish _ _ _ _ = _
              rw [hf, hrefused]
              rfl
            rw [hwork] at hcommitted hothers hreport ⊢
            rw [if_neg Bool.false_ne_true]
            exact hcommitted.finished hn hfid (by rw [hfn]) (by rw [hfn]) (by rw [hfn])
              (by rw [hfn]) hothers (by rw [hfn]; exact hreport)

/-- **Every step keeps the invariant.** -/
theorem step_sound {y y' : Yard κ} {a : YardAct κ} (hy : y.Sound)
    (hok : y.Orderly a ∧ y.Recorded a) (h : y.step a = some y') : y'.Sound := by
  cases a with
  | edit e =>
      cases h
      exact hy.edit (e.kept y.shared.goals y.spec) y.shared
  | drive goals =>
      cases h
      exact hy.drive _
  | launch id env =>
      obtain ⟨n, hn, hlaunch⟩ := Option.bind_eq_some_iff.mp h
      split at hlaunch
      next hpend =>
        cases hlaunch
        exact hy.launch hn hpend env
      · cases hlaunch
  | finish id git =>
      cases h
      exact hy.finish hok.2
  | write dir path content =>
      cases h
      exact hy.write hok.1
  | commit id tree =>
      cases h
      exact hy.commit hok.1
  | commitBase tree =>
      cases h
      exact hy.commitBase hok.1

/-- **Upstream hand-off.**  In every run in which each finished node's report is
recorded under the number that the node shows, a reference in a seed names a file
that is there when the node starts, with the contents of the report that the
dependency was finished with. -/
theorem handoffs_real {y₀ y : Yard κ} (h0 : y₀.Start)
    (hr : Reach step (fun y a => y.Orderly a ∧ y.Recorded a) y₀ y) :
    ∀ h ∈ y.handoffs, ∀ c, h.expected = some c → h.found = some c :=
  (hr.invariant Sound h0.sound fun _ _ _ hy hok h => step_sound hy hok h).handed

/-! ## §10. Two nodes, the second after the first. -/

/-- Two nodes over the checkout `/r`, nothing launched yet. -/
def ofChain : Yard String where
  spec :=
    { name := "g", baseCwd := "/r", status := .running
      nodes := [{ id := "a", goal := "do a" }, { id := "b", goal := "do b", deps := ["a"] }] }

def chainReport : String := "docs/roadmap/g/a/iteration-1.md"

/-- Node `a` writes its report and is finished, then node `b` is launched. -/
def chainActs (leaves : String → Bool) : List (YardAct String) :=
  [.launch "a" {}, .write "/r-worktrees/a" chainReport (some "done"),
   .finish "a" { leaves := leaves }, .launch "b" {}]

theorem ofChain_start : ofChain.Start where
  plan := by
    refine ⟨by decide, by decide, ?_, by decide, by decide⟩
    decide
  final _ := rfl
  handoffs := rfl

theorem tick_does_ofChain :
    ∃ st, ofChain.Does
      ((.edit .sync :: (ofChain.spec.toFinish ∅).map fun id => .finish id {}) ++
        launchActs (fun _ => {})
          (scheduleSynced {} (syncNodeStates ∅ (fun _ => {}) ofChain.spec) {}).calls ++
          [.edit (.status st)])
      (scheduleSynced {} (syncNodeStates ∅ (fun _ => {}) ofChain.spec) {}).spec
      (scheduleSynced {} (syncNodeStates ∅ (fun _ => {}) ofChain.spec) {}).shared :=
  tick_does {} (fun _ => {}) ofChain (fun _ => rfl) (by decide)

/-- The user and the agents keep to their files, and git records every commit. -/
def Committed : YardAct κ → Prop
  | .finish _ git => git.recorded = true
  | _ => True

theorem chainActs_orderly (leaves : String → Bool) :
    EveryStep step (fun (y : Yard String) a => y.Orderly a ∧ Committed a) ofChain
      (chainActs leaves) := by
  refine ⟨⟨trivial, trivial⟩, fun y₁ h₁ => ⟨⟨?_, trivial⟩, fun y₂ h₂ =>
    ⟨⟨trivial, rfl⟩, fun y₃ h₃ => ⟨⟨trivial, trivial⟩, fun _ _ => trivial⟩⟩⟩⟩
  obtain rfl := Option.some.inj h₁
  show ∀ n ∈ _, _ → _
  decide

theorem chainActs_recorded :
    EveryStep step (fun (y : Yard String) a => y.Orderly a ∧ y.Recorded a) ofChain
      (chainActs fun _ => false) := by
  refine ⟨⟨trivial, trivial⟩, fun y₁ h₁ => ⟨⟨?_, trivial⟩, fun y₂ h₂ =>
    ⟨⟨trivial, ?_⟩, fun y₃ h₃ => ⟨⟨trivial, trivial⟩, fun _ _ => trivial⟩⟩⟩⟩
  · obtain rfl := Option.some.inj h₁
    show ∀ n ∈ _, _ → _
    decide
  · obtain rfl := Option.some.inj h₁
    obtain rfl := Option.some.inj h₂
    show ∀ n ∈ _, _ → ∀ run ∈ _, _
    decide

/-- A report that is recorded reaches the node behind it. -/
theorem handoff_found :
    ∃ y h, exec step ofChain (chainActs fun _ => false) = some y ∧ h ∈ y.handoffs ∧
      h.node = "b" ∧ h.dep = "a" ∧ h.found = some "done" := by
  have hhandoffs : (exec step ofChain (chainActs fun _ => false)).map (·.handoffs)
      = some [⟨"b", "a", chainReport, some "done", some "done"⟩] := by decide
  obtain ⟨y, hy, hlist⟩ := Option.map_eq_some_iff.mp hhandoffs
  have hmem : ⟨"b", "a", chainReport, some "done", some "done"⟩ ∈ y.handoffs := by
    rw [hlist]
    exact List.mem_singleton_self _
  exact ⟨y, _, hy, hmem, rfl, rfl,
    handoffs_real ofChain_start (reach_of_exec hy chainActs_recorded) _ hmem "done" rfl⟩

/-- **A report is missing**: git ignores the output directory, so the worktree of the
next node is made without the report that its seed refers to. -/
theorem handoff_missing :
    ¬ ∀ y₀ y : Yard String, y₀.Start →
      Reach step (fun y a => y.Orderly a ∧ Committed a) y₀ y →
        ∀ h ∈ y.handoffs, ∀ c, h.expected = some c → h.found = some c := by
  intro hall
  have hhandoffs : (exec step ofChain (chainActs fun _ => true)).map (·.handoffs)
      = some [⟨"b", "a", chainReport, none, some "done"⟩] := by decide
  obtain ⟨y, hy, hlist⟩ := Option.map_eq_some_iff.mp hhandoffs
  have hmem : ⟨"b", "a", chainReport, none, some "done"⟩ ∈ y.handoffs := by
    rw [hlist]
    exact List.mem_singleton_self _
  have hfound := hall ofChain y ofChain_start (reach_of_exec hy (chainActs_orderly _)) _ hmem
    "done" rfl
  cases hfound

end Yard

end Jmux.Goal
