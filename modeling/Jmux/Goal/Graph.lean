/-
  Jmux.Goal.Graph — the data model of `jmux graph` (`goal/graph.rs`).

  A graph is a list of nodes with dependencies, each node executed as a goal
  run.  The registry maps graph names to specs; it is the scheduler's state.

  `node` and `modifyNode` are the source's `node`/`node_mut`: the first node
  with the id.  `modifyNode_node` is the one equation the proofs use.
-/
import Jmux.Goal.Run
import Jmux.Lib.FirstMatch
import Jmux.Lib.Str

namespace Jmux.Goal

open Jmux.Lib

/-! ## §1. States. -/

inductive GraphState where
  | proposing
  | proposed
  | running
  | complete
  | paused
  | stopped
  deriving DecidableEq, Repr

inductive NodeState where
  | pending
  | running
  | review
  | done
  | blocked
  /-- The app restarted (or the workspace vanished) while the node ran. -/
  | interrupted
  deriving DecidableEq, Repr

/-- The node occupies a concurrency slot: `Running | Review`. -/
def NodeState.isActive : NodeState → Bool
  | .running | .review => true
  | _ => false

structure GraphNode where
  id : String
  title : String := ""
  goal : String := ""
  deps : List String := []
  runner : Option String := none
  status : NodeState := .pending
  workspace : Option Uuid := none
  iteration : Nat := 0
  branch : Option String := none
  worktree : Option String := none
  detail : Option String := none
  pos : Option (Rat × Rat) := none
  deriving DecidableEq

structure GraphSpec where
  name : String
  baseCwd : String
  goalPath : String := ""
  status : GraphState := .proposing
  maxConcurrency : Nat := 1
  maxIterations : Nat := 4
  review : Bool := true
  reviewIterations : Bool := false
  useWorktrees : Bool := true
  outputDir : String := "docs/roadmap"
  permissionMode : String := ""
  runner : Option String := none
  orchestratorWorkspace : Option Uuid := none
  groupId : Option Uuid := none
  minProposalMtime : Option Nat := none
  proposalWaitTicks : Nat := 0
  nodes : List GraphNode := []
  deriving DecidableEq

abbrev GraphRegistry := AList (fun _ : String => GraphSpec)

/-! ## §2. Plain-language labels and paths. -/

def graphStateLabel : GraphState → String
  | .proposing => "planning…"
  | .proposed => "plan review"
  | .running => "working"
  | .complete => "finished"
  | .paused => "paused"
  | .stopped => "stopped"

/-- Validate `goal.output_dir`: a directory inside the repo, so an absolute path
or a `..` component is an error.  Returns the cleaned relative path. -/
def validateOutputDir (dir : String) : Except String String :=
  let dir := Str.trim dir
  if dir = "" then .error "output_dir is empty"
  else
    let parts := dir.toList.splitOn '/'
    let normal := parts.filter fun p => p ≠ [] ∧ p ≠ ['.']
    if parts.head? = some [] ∨ ['.', '.'] ∈ parts then
      .error ("output_dir '" ++ dir ++ "' must be a repo-relative path without '..'")
    else if normal = [] then .error ("output_dir '" ++ dir ++ "' names no directory")
    else .ok (String.ofList (['/'].intercalate normal))

def defaultGoalOutputDir : String := "docs/roadmap"

/-- The directory to use for a setting: the default when it is unusable. -/
def outputDirOrDefault (dir : String) : String :=
  match validateOutputDir dir with
  | .ok d => d
  | .error _ => defaultGoalOutputDir

namespace GraphSpec

/-- Repo-relative output root, re-validated on read. -/
def outputDirRel (spec : GraphSpec) : String := outputDirOrDefault spec.outputDir

/-- Repo-relative iteration dir for a node. -/
def nodeOutputDir (spec : GraphSpec) (nodeId : String) : String :=
  spec.outputDirRel ++ "/" ++ spec.name ++ "/" ++ nodeId

/-- The graph's own state directory, with a trailing slash. -/
def ownDir (spec : GraphSpec) : String := spec.outputDirRel ++ "/" ++ spec.name ++ "/"

/-! ## §3. Finding and editing one node. -/

def node (spec : GraphSpec) (id : String) : Option GraphNode :=
  spec.nodes.find? fun n => n.id = id

/-- Edit the node that `node_mut` finds. -/
def modifyNode (spec : GraphSpec) (id : String) (f : GraphNode → GraphNode) : GraphSpec :=
  { spec with nodes := spec.nodes.modifyFirst (fun n => n.id = id) f }

def ids (spec : GraphSpec) : List String := spec.nodes.map (·.id)

/-- The node holds `st` as its status. -/
def HasStatus (spec : GraphSpec) (id : String) (st : NodeState) : Prop :=
  ∃ n, spec.node id = some n ∧ n.status = st

instance (spec : GraphSpec) (id : String) (st : NodeState) : Decidable (spec.HasStatus id st) :=
  match h : spec.node id with
  | none => .isFalse fun ⟨_, hn, _⟩ => by simp [h] at hn
  | some n =>
      if hs : n.status = st then .isTrue ⟨n, h, hs⟩
      else .isFalse fun ⟨m, hm, hms⟩ => hs (by
        obtain rfl : n = m := Option.some.inj (h.symm.trans hm)
        exact hms)

/-- Nodes that occupy a concurrency slot. -/
def activeCount (spec : GraphSpec) : Nat := spec.nodes.countP (·.status.isActive)

theorem node_id {spec : GraphSpec} {id : String} {n : GraphNode} (h : spec.node id = some n) :
    n.id = id := by
  have := List.find?_some h
  simpa using this

theorem node_mem {spec : GraphSpec} {id : String} {n : GraphNode} (h : spec.node id = some n) :
    n ∈ spec.nodes :=
  List.mem_of_find?_eq_some h

/-- With distinct ids, being a node of the graph is being found by id. -/
theorem node_eq_some {spec : GraphSpec} (hnd : spec.ids.Nodup) {id : String} {n : GraphNode} :
    spec.node id = some n ↔ n ∈ spec.nodes ∧ n.id = id :=
  List.find?_key_eq_some hnd

/-- **Frame and effect of an edit**: only the node with that id changes. -/
theorem modifyNode_node {f : GraphNode → GraphNode} (hf : ∀ n, (f n).id = n.id)
    (spec : GraphSpec) (id id' : String) :
    (spec.modifyNode id f).node id' = if id' = id then (spec.node id).map f else spec.node id' := by
  unfold modifyNode node
  by_cases h : id' = id
  · subst h
    rw [if_pos rfl]
    exact List.find?_modifyFirst_self (by simp [hf]) _
  · rw [if_neg h]
    refine List.find?_modifyFirst_of_disjoint (fun n hn => ?_) _
    have hn' : n.id = id := by simpa using hn
    simp only [hf, hn', decide_eq_false_iff_not, and_self]
    exact fun he => h he.symm

theorem modifyNode_ids {f : GraphNode → GraphNode} (hf : ∀ n, (f n).id = n.id)
    (spec : GraphSpec) (id : String) : (spec.modifyNode id f).ids = spec.ids :=
  List.map_modifyFirst _ _ _ hf _

@[simp] theorem modifyNode_status (spec : GraphSpec) (id : String) (f : GraphNode → GraphNode) :
    (spec.modifyNode id f).status = spec.status := rfl
@[simp] theorem modifyNode_maxConcurrency (spec : GraphSpec) (id : String)
    (f : GraphNode → GraphNode) : (spec.modifyNode id f).maxConcurrency = spec.maxConcurrency := rfl
@[simp] theorem modifyNode_name (spec : GraphSpec) (id : String) (f : GraphNode → GraphNode) :
    (spec.modifyNode id f).name = spec.name := rfl
@[simp] theorem modifyNode_baseCwd (spec : GraphSpec) (id : String) (f : GraphNode → GraphNode) :
    (spec.modifyNode id f).baseCwd = spec.baseCwd := rfl
@[simp] theorem modifyNode_useWorktrees (spec : GraphSpec) (id : String)
    (f : GraphNode → GraphNode) : (spec.modifyNode id f).useWorktrees = spec.useWorktrees := rfl
@[simp] theorem modifyNode_reviewIterations (spec : GraphSpec) (id : String)
    (f : GraphNode → GraphNode) :
    (spec.modifyNode id f).reviewIterations = spec.reviewIterations := rfl

end GraphSpec

end Jmux.Goal
