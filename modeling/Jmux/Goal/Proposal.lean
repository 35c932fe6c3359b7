/-
  Jmux.Goal.Proposal — `parse_proposal` and the request side of `create_graph`.

  The orchestrator writes `proposal.json`; parsing checks the plan (node count,
  ids, goals, dependencies, no cycle) and turns it into pending nodes.  Reading
  the file and decoding its JSON are the caller's inputs; every check after
  that is the source's, in the source's order.

  Main results:
    * `parseProposal_wellFormed` — an accepted plan has distinct valid ids and
                                     only pending nodes without a workspace.
    * `notMem_slash_of_valid`    — a valid id contains no path separator.
-/
import Jmux.Goal.Graph
import Mathlib.Data.List.Dedup

namespace Jmux.Goal

open Jmux.Lib

/-! ## §1. The file. -/

structure ProposalNode where
  id : String
  title : String := ""
  goal : String
  deps : List String := []
  runner : Option String := none
  pos : Option (Rat × Rat) := none
  deriving DecidableEq

structure Proposal where
  nodes : List ProposalNode
  deriving DecidableEq

/-- What reading `proposal.json` gives: an I/O error, a decoding error or a plan. -/
abbrev ProposalFile := Except String (Except String Proposal)

/-! ## §2. Ids. -/

/-- A character that a node id or a graph name may contain. -/
def isNodeIdChar (c : Char) : Bool :=
  (decide ('a' ≤ c) && decide (c ≤ 'z')) || (decide ('0' ≤ c) && decide (c ≤ '9'))
    || c == '-' || c == '_'

def validNodeId (id : String) : Bool :=
  decide (id ≠ "") && decide (id.utf8ByteSize ≤ 64) && id.toList.all isNodeIdChar

/-- Node ids are safe path components. -/
theorem notMem_slash_of_valid {id : String} (h : validNodeId id = true) : '/' ∉ id.toList := by
  intro hmem
  simp only [validNodeId, Bool.and_eq_true] at h
  have hchar := List.all_eq_true.mp h.2 '/' hmem
  exact absurd hchar (by decide)

/-! ## §3. The checks. -/

/-- The dependency loop of one node; `seen` holds the dependencies before this one. -/
def checkDeps (ids : List String) (id : String) : List String → List String → Except String Unit
  | _, [] => .ok ()
  | seen, d :: ds =>
      if d ∉ ids then .error ("node '" ++ id ++ "' depends on unknown node '" ++ d ++ "'")
      else if d = id then .error ("node '" ++ id ++ "' depends on itself")
      else if d ∈ seen then .error ("node '" ++ id ++ "' lists dep '" ++ d ++ "' twice")
      else checkDeps ids id (d :: seen) ds

def checkNode (ids : List String) (n : ProposalNode) : Except String Unit :=
  if !validNodeId n.id then
    .error ("node id '" ++ n.id ++ "' is invalid (lowercase letters, digits, hyphens)")
  else if Str.trim n.goal = "" then .error ("node '" ++ n.id ++ "' has an empty goal")
  else checkDeps ids n.id [] n.deps

def checkNodes (ids : List String) : List ProposalNode → Except String Unit
  | [] => .ok ()
  | n :: ns =>
      match checkNode ids n with
      | .error e => .error e
      | .ok _ => checkNodes ids ns

/-! ## §4. The cycle check (Kahn). -/

/-- The indegree table: every id at zero, then the number of its dependencies. -/
def indegrees (nodes : List ProposalNode) : AList (fun _ : String => Nat) :=
  -- `entry(id).or_insert(0)` for every node before any dependency counts
  let zero := nodes.foldl (fun m n => if n.id ∈ m then m else m.insert n.id 0) ∅
  nodes.foldl (fun m n => m.modify n.id (· + n.deps.length)) zero

/-- Node `id` is done: its dependents lose one unmet dependency, and those that
have none left join the queue (whose head is the next one to pop). -/
def releaseDependents (nodes : List ProposalNode) (id : String)
    (state : AList (fun _ : String => Nat) × List String) :
    AList (fun _ : String => Nat) × List String :=
  nodes.foldl (fun st n =>
    if id ∈ n.deps then
      let table := st.1.modify n.id (· - 1)
      -- `queue.pop()` takes the last one pushed
      (table, if table.lookup n.id = some 0 then n.id :: st.2 else st.2)
    else st) state

/-- The queue loop; the result is the number of nodes it could order. -/
def kahn (nodes : List ProposalNode) :
    Nat → AList (fun _ : String => Nat) → List String → Nat → Nat
  | 0, _, _, seen => seen
  | _ + 1, _, [], seen => seen
  | fuel + 1, table, id :: queue, seen =>
      let st := releaseDependents nodes id (table, queue)
      kahn nodes fuel st.1 st.2 (seen + 1)

/-- How many nodes can be ordered.  A node enters the queue when its indegree
becomes zero, hence at most once: `nodes.length + 1` rounds are enough. -/
def orderedCount (nodes : List ProposalNode) : Nat :=
  let table := indegrees nodes
  let queue := ((table.entries.filter fun e => e.2 = 0).map (·.1)).reverse
  kahn nodes (nodes.length + 1) table queue 0

/-! ## §5. `parse_proposal`. -/

def ProposalNode.toGraphNode (n : ProposalNode) : GraphNode :=
  { id := n.id
    title := if n.title = "" then n.id else n.title
    goal := n.goal
    deps := n.deps
    runner := n.runner
    pos := n.pos }

/-- Parse + validate a proposal file into graph nodes. -/
def parseProposal (file : ProposalFile) : Except String (List GraphNode) :=
  match file with
  | .error e => .error ("cannot read proposal: " ++ e)
  | .ok (.error e) => .error ("proposal.json is invalid: " ++ e)
  | .ok (.ok proposal) =>
      if proposal.nodes = [] then .error "proposal has no nodes"
      else if proposal.nodes.length > 50 then .error "proposal has too many nodes (max 50)"
      else
        let ids := proposal.nodes.map (·.id)
        -- the ids are compared before any of them is checked
        if ids.dedup.length ≠ ids.length then .error "duplicate node ids"
        else match checkNodes ids proposal.nodes with
          | .error e => .error e
          | .ok _ =>
              if orderedCount proposal.nodes ≠ proposal.nodes.length then
                .error "dependency cycle detected"
              else .ok (proposal.nodes.map (·.toGraphNode))

/-- What the scheduler relies on about a plan it has accepted. -/
structure WellFormedPlan (nodes : List GraphNode) : Prop where
  nonempty : nodes ≠ []
  nodup : (nodes.map (·.id)).Nodup
  valid : ∀ n ∈ nodes, validNodeId n.id = true
  pending : ∀ n ∈ nodes, n.status = .pending
  unlaunched : ∀ n ∈ nodes, n.workspace = none ∧ n.worktree = none

theorem checkNodes_valid {ids : List String} :
    ∀ {ns : List ProposalNode}, checkNodes ids ns = .ok () → ∀ n ∈ ns, validNodeId n.id = true
  | [], _, n, hn => absurd hn List.not_mem_nil
  | m :: ms, h, n, hn => by
      rw [checkNodes] at h
      split at h
      · cases h
      next hm =>
        rcases List.mem_cons.mp hn with rfl | hn
        · unfold checkNode at hm
          by_cases hv : validNodeId n.id = true
          · exact hv
          · rw [if_pos (by simp [hv])] at hm
            cases hm
        · exact checkNodes_valid h n hn

theorem ProposalNode.ids_toGraphNode (ns : List ProposalNode) :
    (ns.map (·.toGraphNode)).map (·.id) = ns.map (·.id) := by
  rw [List.map_map]
  rfl

/-- **An accepted plan is well formed.** -/
theorem parseProposal_wellFormed {file : ProposalFile} {nodes : List GraphNode}
    (h : parseProposal file = .ok nodes) : WellFormedPlan nodes := by
  unfold parseProposal at h
  split at h
  · cases h
  · cases h
  next proposal =>
    dsimp only at h
    split at h
    · cases h
    next hne =>
      split at h
      · cases h
      split at h
      · cases h
      next hdup =>
        split at h
        · cases h
        next hcheck =>
          split at h
          · cases h
          obtain rfl := Except.ok.inj h
          have hids := ProposalNode.ids_toGraphNode proposal.nodes
          refine ⟨by simpa using hne, ?_, ?_, ?_, ?_⟩
          · rw [hids]
            have hlen : (proposal.nodes.map (·.id)).dedup.length
                = (proposal.nodes.map (·.id)).length := by omega
            exact List.dedup_eq_self.mp ((List.dedup_sublist _).eq_of_length hlen)
          · intro n hn
            obtain ⟨p, hp, rfl⟩ := List.mem_map.mp hn
            exact checkNodes_valid hcheck p hp
          · intro n hn
            obtain ⟨p, _, rfl⟩ := List.mem_map.mp hn
            rfl
          · intro n hn
            obtain ⟨p, _, rfl⟩ := List.mem_map.mp hn
            exact ⟨rfl, rfl⟩

/-! ## §6. What a `graph.create` request asks for. -/

/-- The parameters `create_graph` reads, as far as they are present. -/
structure CreateParams where
  maxConcurrency : Option Nat := none
  maxIterations : Option Nat := none
  review : Option Bool := none
  reviewIterations : Option Bool := none
  useWorktrees : Option Bool := none
  permissionMode : Option String := none
  runner : Option String := none
  deriving DecidableEq

/-- Per-node worktrees are on unless opted out or the base is no git checkout. -/
def resolveUseWorktrees (params : CreateParams) (baseIsGit : Bool) : Bool :=
  params.useWorktrees.getD true && baseIsGit

/-- `(n as u32).clamp(lo, hi)`. -/
def clampU32 (lo hi n : Nat) : Nat := max lo (min hi (n % 2 ^ 32))

/-- What `create_graph` reads from its surroundings. -/
structure CreateEnv where
  goalPath : String := ""
  baseCwd : String
  baseIsGit : Bool
  settings : GoalSettings := {}
  epochNow : Nat := 0
  groupId : Option Uuid := none

/-- The spec `create_graph` builds before it opens the orchestrator workspace. -/
def newSpec (name : String) (params : CreateParams) (env : CreateEnv) : GraphSpec :=
  { name := name
    baseCwd := env.baseCwd
    goalPath := env.goalPath
    status := .proposing
    maxConcurrency := (params.maxConcurrency.map (clampU32 1 8)).getD 1
    maxIterations := (params.maxIterations.map (clampU32 1 20)).getD 4
    review := params.review.getD true
    reviewIterations := params.reviewIterations.getD false
    useWorktrees := resolveUseWorktrees params env.baseIsGit
    outputDir := outputDirOrDefault env.settings.outputDir
    permissionMode := params.permissionMode.getD ""
    runner := params.runner
    groupId := env.groupId
    minProposalMtime := some env.epochNow }

end Jmux.Goal
