/-
  Jmux.Goal.NodeMoves — what an edit of a graph can do to its nodes.

  Every operation of the scheduler edits one spec.  This file says once, per
  operation, how each node of the spec may change (`NodeMove`), what the spec
  keeps (`SpecFrame`), and that nothing but a launch takes a concurrency slot.
  The invariants are then case analyses over eight kinds of move.

  Main results:
    * `syncNodeStates_node` — the sync, node by node.
    * `launchReady_effect`  — the launch loop, with its calls of `launch_node`.
    * `tickRunning_moves`, `processGraph_moves`, `resumeGraph_moves`, … — the
      moves of each operation.
    * `processGraph_activeCount_le` — a tick respects `max_concurrency`.
-/
import Jmux.Goal.Scheduler

namespace Jmux.Goal

/-! ## §1. Moves and frames. -/

inductive MoveKind where
  | stays
  | settles
  | lost
  | reviewed
  | resumed
  | continued
  | launched
  | cut
  deriving DecidableEq

/-- What the sync of a running graph can do to a node. -/
def MoveKind.ofSync : List MoveKind := [.stays, .settles, .lost, .reviewed]

/-- What a tick of a running graph can do to a node. -/
def MoveKind.ofTick : List MoveKind := MoveKind.ofSync ++ [.launched]

/-- `p` is the worktree that `launch_node` would give node `id` of the spec. -/
def GraphSpec.OwnWorktree (spec : GraphSpec) (id p : String) : Prop :=
  spec.useWorktrees = true ∧ p = spec.worktreePath id

/-- Marked as running in a fresh workspace with an id in `[lo, hi)`. -/
structure Launched (spec : GraphSpec) (lo hi : Uuid) (n n' : GraphNode) : Prop where
  before : n.status = .pending
  status : n'.status = .running
  workspace : ∃ ws, n'.workspace = some ws ∧ lo ≤ ws ∧ ws < hi
  worktree : ∀ p, n'.worktree = some p → spec.OwnWorktree n.id p

/-- Node `n` became `n'` by a move of the given kind, in an edit that read the
goal registry of `before` and left the shared state `after`. -/
def NodeMove (spec : GraphSpec) (before after : Shared) (n n' : GraphNode) : MoveKind → Prop
  | .stays => n'.status = n.status ∧ n'.workspace = n.workspace ∧ n'.worktree = n.worktree
  | .settles =>
      n.status ≠ .done ∧ (n'.status = .done ∨ n'.status = .blocked) ∧
        n'.workspace = n.workspace ∧ n'.worktree = n.worktree
  | .lost =>
      n.status = .running ∧ n.workspace.bind before.goals.lookup = none ∧
        n'.status = .interrupted ∧ n'.workspace = n.workspace ∧ n'.worktree = n.worktree
  | .reviewed =>
      n.status = .running ∧ (∃ run, n.workspace.bind before.goals.lookup = some run) ∧
        n'.status = .review ∧ n'.workspace = n.workspace ∧ n'.worktree = n.worktree
  | .resumed =>
      n.status = .interrupted ∧ n'.status = .pending ∧
        n'.workspace = n.workspace ∧ n'.worktree = n.worktree
  | .continued =>
      n.status = .review ∧ n'.status = .running ∧
        n'.workspace = n.workspace ∧ n'.worktree = n.worktree
  | .launched => Launched spec before.nextUuid after.nextUuid n n'
  | .cut =>
      n.status.isActive = true ∧ n'.status = .interrupted ∧
        n'.workspace = none ∧ n'.worktree = n.worktree

/-- The settings of a graph, which no edit changes. -/
structure SameSettings (s s' : GraphSpec) : Prop where
  name : s'.name = s.name
  baseCwd : s'.baseCwd = s.baseCwd
  outputDir : s'.outputDir = s.outputDir
  useWorktrees : s'.useWorktrees = s.useWorktrees
  maxConcurrency : s'.maxConcurrency = s.maxConcurrency
  reviewIterations : s'.reviewIterations = s.reviewIterations

namespace SameSettings

theorem refl (s : GraphSpec) : SameSettings s s := ⟨rfl, rfl, rfl, rfl, rfl, rfl⟩

theorem symm {s s' : GraphSpec} (h : SameSettings s s') : SameSettings s' s :=
  ⟨h.name.symm, h.baseCwd.symm, h.outputDir.symm, h.useWorktrees.symm, h.maxConcurrency.symm,
    h.reviewIterations.symm⟩

/-- Where a node's worktree lies is decided by the settings. -/
theorem ownWorktree {s s' : GraphSpec} (h : SameSettings s s') {id p : String} :
    s'.OwnWorktree id p ↔ s.OwnWorktree id p := by
  unfold GraphSpec.OwnWorktree GraphSpec.worktreePath
  rw [h.baseCwd, h.useWorktrees]

end SameSettings

/-- The settings and the node ids are kept. -/
structure SpecFrame (s s' : GraphSpec) : Prop extends SameSettings s s' where
  ids : s'.ids = s.ids

namespace SpecFrame

theorem refl (s : GraphSpec) : SpecFrame s s := ⟨.refl s, rfl⟩

theorem trans {s₁ s₂ s₃ : GraphSpec} (h : SpecFrame s₁ s₂) (h' : SpecFrame s₂ s₃) :
    SpecFrame s₁ s₃ :=
  ⟨⟨h'.name.trans h.name, h'.baseCwd.trans h.baseCwd, h'.outputDir.trans h.outputDir,
    h'.useWorktrees.trans h.useWorktrees, h'.maxConcurrency.trans h.maxConcurrency,
    h'.reviewIterations.trans h.reviewIterations⟩, h'.ids.trans h.ids⟩

theorem ownDir {s s' : GraphSpec} (h : SpecFrame s s') : s'.ownDir = s.ownDir := by
  unfold GraphSpec.ownDir GraphSpec.outputDirRel
  rw [h.outputDir, h.name]

theorem modifyNode {f : GraphNode → GraphNode} (hf : ∀ n, (f n).id = n.id)
    (s : GraphSpec) (id : String) : SpecFrame s (s.modifyNode id f) :=
  ⟨⟨rfl, rfl, rfl, rfl, rfl, rfl⟩, GraphSpec.modifyNode_ids hf s id⟩

theorem mapNodes {f : GraphNode → GraphNode} (hf : ∀ n, (f n).id = n.id) (s : GraphSpec) :
    SpecFrame s { s with nodes := s.nodes.map f } := by
  refine ⟨⟨rfl, rfl, rfl, rfl, rfl, rfl⟩, ?_⟩
  show (s.nodes.map f).map (·.id) = s.nodes.map (·.id)
  rw [List.map_map]
  exact List.map_congr_left fun n _ => hf n

end SpecFrame

/-- Every node of `s` has moved, by one of the given kinds, to its place in `s'`. -/
structure SpecMoves (ks : List MoveKind) (before after : Shared) (s s' : GraphSpec) : Prop where
  frame : SpecFrame s s'
  moves : ∀ id n, s.node id = some n →
    ∃ n', s'.node id = some n' ∧ ∃ k ∈ ks, NodeMove s before after n n' k

/-- Changing the graph's own status is invisible to the nodes. -/
theorem SpecMoves.withStatus {ks : List MoveKind} {before after : Shared} {s s' : GraphSpec}
    (h : SpecMoves ks before after s s') (st : GraphState) :
    SpecMoves ks before after s { s' with status := st } :=
  ⟨⟨⟨h.frame.name, h.frame.baseCwd, h.frame.outputDir, h.frame.useWorktrees,
     h.frame.maxConcurrency, h.frame.reviewIterations⟩, h.frame.ids⟩, h.moves⟩

/-- A node found by id after the edit was found by the same id before it. -/
theorem SpecFrame.node_before {s s' : GraphSpec} (h : SpecFrame s s') {id : String}
    {n' : GraphNode} (hn : s'.node id = some n') : ∃ n, s.node id = some n := by
  have hmem : id ∈ s'.ids :=
    List.mem_map.mpr ⟨n', GraphSpec.node_mem hn, GraphSpec.node_id hn⟩
  rw [h.ids] at hmem
  obtain ⟨m, hm, hmid⟩ := List.mem_map.mp hmem
  exact Option.isSome_iff_exists.mp
    (List.find?_isSome.mpr ⟨m, hm, by simpa using hmid⟩)

/-- The move that produced a node of the edited spec. -/
theorem SpecMoves.back {ks : List MoveKind} {before after : Shared} {s s' : GraphSpec}
    (h : SpecMoves ks before after s s') {id : String} {n' : GraphNode}
    (hn : s'.node id = some n') :
    ∃ n, s.node id = some n ∧ ∃ k ∈ ks, NodeMove s before after n n' k := by
  obtain ⟨n, hn0⟩ := h.frame.node_before hn
  obtain ⟨m, hm, k, hk, hmove⟩ := h.moves id n hn0
  -- a node is found once, so this is the move that made it
  obtain rfl : m = n' := Option.some.inj (hm.symm.trans hn)
  exact ⟨n, hn0, k, hk, hmove⟩

/-- **Done is final**: no move leaves it. -/
theorem NodeMove.done {spec : GraphSpec} {before after : Shared} {n n' : GraphNode} {k : MoveKind}
    (h : NodeMove spec before after n n' k) (hd : n.status = .done) : n'.status = .done := by
  cases k with
  | stays => exact h.1.trans hd
  -- every other kind starts from a status that is not done
  | settles => exact absurd hd h.1
  | lost => exact absurd (h.1.symm.trans hd) (by decide)
  | reviewed => exact absurd (h.1.symm.trans hd) (by decide)
  | resumed => exact absurd (h.1.symm.trans hd) (by decide)
  | continued => exact absurd (h.1.symm.trans hd) (by decide)
  | launched => exact absurd (h.before.symm.trans hd) (by decide)
  | cut =>
      -- a done node holds no slot, so a restart leaves it
      have h1 := h.1
      rw [hd] at h1
      exact absurd h1 (by decide)

/-! ## §2. Edits of every node and of one node. -/

/-- A loop over all nodes, as seen from one id. -/
theorem mapNodes_node {f : GraphNode → GraphNode} (hf : ∀ n, (f n).id = n.id) (s : GraphSpec)
    (id : String) :
    GraphSpec.node { s with nodes := s.nodes.map f } id = (s.node id).map f := by
  unfold GraphSpec.node
  show (s.nodes.map f).find? _ = _
  rw [List.find?_map]
  congr 2
  funext n
  simp [hf]

/-- An edit of one node that makes it move. -/
theorem modifyNode_moves {ks : List MoveKind} {before after : Shared} {f : GraphNode → GraphNode}
    (hid : ∀ n, (f n).id = n.id) (s : GraphSpec) (id : String)
    (hmove : ∀ n, s.node id = some n → ∃ k ∈ ks, NodeMove s before after n (f n) k)
    (hstay : MoveKind.stays ∈ ks) : SpecMoves ks before after s (s.modifyNode id f) := by
  refine ⟨.modifyNode hid s id, fun i n hn => ?_⟩
  rw [GraphSpec.modifyNode_node hid]
  by_cases hi : i = id
  · subst hi
    rw [if_pos rfl, hn]
    exact ⟨f n, rfl, hmove n hn⟩
  · rw [if_neg hi]
    exact ⟨n, hn, .stays, hstay, rfl, rfl, rfl⟩

/-- Slots are freed, not taken, when no inactive node becomes active. -/
theorem mapNodes_activeCount_le {f : GraphNode → GraphNode}
    (hf : ∀ n, (f n).status.isActive = true → n.status.isActive = true) (s : GraphSpec) :
    GraphSpec.activeCount { s with nodes := s.nodes.map f } ≤ s.activeCount := by
  unfold GraphSpec.activeCount
  show (s.nodes.map f).countP _ ≤ _
  rw [List.countP_map]
  exact List.countP_mono_left fun n _ h => hf n h

theorem modifyNode_activeCount_le {f : GraphNode → GraphNode} (s : GraphSpec) (id : String)
    (hf : ∀ n, (f n).status.isActive = true → n.status.isActive = true) :
    (s.modifyNode id f).activeCount ≤ s.activeCount :=
  List.countP_modifyFirst_le (fun n _ h => hf n h) s.nodes

/-! ## §3. Finishing nodes. -/

/-- The merge step settles the node and touches nothing else of it. -/
theorem GraphNode.mergeBack_cases (name ownDir : String) (git : GitOutcome) (n : GraphNode) :
    ∃ st d, (st = NodeState.done ∨ st = .blocked) ∧
      n.mergeBack name ownDir git = { n with status := st, detail := d } := by
  -- without a worktree and a branch there is nothing to merge
  unfold GraphNode.mergeBack
  split
  · split
    · split
      · split
        · exact ⟨.done, _, .inl rfl, rfl⟩
        · exact ⟨.blocked, _, .inr rfl, rfl⟩
      · exact ⟨.blocked, _, .inr rfl, rfl⟩
    · exact ⟨.blocked, _, .inr rfl, rfl⟩
  · exact ⟨.done, _, .inl rfl, rfl⟩

/-- The node's branch does not merge: the base checkout is not clean, git does
not answer, or there is a conflict. -/
def GraphNode.mergeRefused (ownDir : String) (git : GitOutcome) (n : GraphNode) : Bool :=
  n.worktree.isSome && n.branch.isSome &&
    match git.status, git.merge with
    | .ok out, .ok _ => !baseIsClean out ownDir
    | _, _ => true

/-- **When a finished node is done.** -/
theorem GraphNode.mergeBack_status (name ownDir : String) (git : GitOutcome) (n : GraphNode) :
    (n.mergeBack name ownDir git).status
      = if n.mergeRefused ownDir git then .blocked else .done := by
  unfold GraphNode.mergeBack GraphNode.mergeRefused
  cases hwt : n.worktree with
  | none => rfl
  | some wt =>
      cases hbr : n.branch with
      | none => rfl
      | some branch =>
          -- a status that git does not give counts as not clean
          cases hs : git.status with
          | error e => rfl
          | ok out =>
              cases hm : git.merge with
              | error e =>
                  dsimp only
                  split <;> rfl
              | ok _ => cases hc : baseIsClean out ownDir <;> simp [hc]

/-- **What `finish_node` does to a node**: nothing if it is done, otherwise it
settles as done or as blocked. -/
theorem GraphNode.finish_cases (goals : GoalRegistry) (name ownDir : String) (git : GitOutcome)
    (n : GraphNode) :
    (n.status = .done ∧ n.finish goals name ownDir git = n) ∨
    (n.status ≠ .done ∧ ∃ it st d, (st = .done ∨ st = .blocked) ∧
      n.finish goals name ownDir git = { n with iteration := it, status := st, detail := d }) := by
  by_cases hd : n.status = .done
  · refine .inl ⟨hd, ?_⟩
    unfold GraphNode.finish
    rw [if_pos hd]
  · refine .inr ⟨hd, ?_⟩
    unfold GraphNode.finish
    rw [if_neg hd]
    obtain ⟨st, d, hst, h⟩ := GraphNode.mergeBack_cases name ownDir git
      { n with iteration := n.reportedIteration goals }
    exact ⟨n.reportedIteration goals, st, d, hst, h⟩

@[simp] theorem GraphNode.finish_id (goals : GoalRegistry) (name ownDir : String)
    (git : GitOutcome) (n : GraphNode) : (n.finish goals name ownDir git).id = n.id := by
  rcases n.finish_cases goals name ownDir git with ⟨_, h⟩ | ⟨_, it, st, d, _, h⟩
  · rw [h]
  · rw [h]

/-- A finished node does not hold a slot. -/
theorem GraphNode.finish_inactive (goals : GoalRegistry) (name ownDir : String)
    (git : GitOutcome) (n : GraphNode) :
    (n.finish goals name ownDir git).status.isActive = false := by
  rcases n.finish_cases goals name ownDir git with ⟨hd, h⟩ | ⟨_, it, st, d, hst, h⟩
  · rw [h, hd]
    rfl
  · rw [h]
    rcases hst with rfl | rfl <;> rfl

theorem GraphNode.finish_move (s : GraphSpec) (before after : Shared) (goals : GoalRegistry)
    (name ownDir : String) (git : GitOutcome) (n : GraphNode) :
    ∃ k ∈ [MoveKind.stays, .settles],
      NodeMove s before after n (n.finish goals name ownDir git) k := by
  rcases n.finish_cases goals name ownDir git with ⟨_, h⟩ | ⟨hd, it, st, d, hst, h⟩
  · rw [h]
    exact ⟨.stays, by simp, rfl, rfl, rfl⟩
  · rw [h]
    exact ⟨.settles, by simp, hd, hst, rfl, rfl⟩

theorem finishNode_activeCount_le (goals : GoalRegistry) (git : GitOutcome) (s : GraphSpec)
    (id : String) : (finishNode goals git s id).activeCount ≤ s.activeCount :=
  modifyNode_activeCount_le s id fun n h => by
    rw [n.finish_inactive goals s.name s.ownDir git] at h
    cases h

theorem finishAll_frame (goals : GoalRegistry) (git : String → GitOutcome) :
    ∀ (ids : List String) (s : GraphSpec), SpecFrame s (finishAll goals git s ids)
  | [], s => .refl s
  | id :: ids, s =>
      have h1 := SpecFrame.modifyNode (fun n => n.finish_id goals s.name s.ownDir (git id)) s id
      h1.trans (finishAll_frame goals git ids (finishNode goals (git id) s id))

theorem finishAll_activeCount_le (goals : GoalRegistry) (git : String → GitOutcome) :
    ∀ (ids : List String) (s : GraphSpec),
      (finishAll goals git s ids).activeCount ≤ s.activeCount
  | [], _ => Nat.le_refl _
  | id :: ids, s =>
      Nat.le_trans (finishAll_activeCount_le goals git ids (finishNode goals (git id) s id))
        (finishNode_activeCount_le goals (git id) s id)

theorem finishAll_status (goals : GoalRegistry) (git : String → GitOutcome) :
    ∀ (ids : List String) (s : GraphSpec), (finishAll goals git s ids).status = s.status
  | [], _ => rfl
  | id :: ids, s => finishAll_status goals git ids (finishNode goals (git id) s id)

/-- **Finishing a list of nodes, node by node.** -/
theorem finishAll_node (goals : GoalRegistry) (git : String → GitOutcome) :
    ∀ (ids : List String) (s : GraphSpec), ids.Nodup → ∀ i : String,
      (finishAll goals git s ids).node i =
        if i ∈ ids then (s.node i).map (·.finish goals s.name s.ownDir (git i)) else s.node i
  | [], _, _, i => by
      rw [if_neg List.not_mem_nil]
      rfl
  | id :: ids, s, hnd, i => by
      obtain ⟨hid, hids⟩ := List.nodup_cons.mp hnd
      have hf := fun n : GraphNode => n.finish_id goals s.name s.ownDir (git id)
      have hframe := SpecFrame.modifyNode hf s id
      show (finishAll goals git (finishNode goals (git id) s id) ids).node i = _
      rw [finishAll_node goals git ids _ hids i]
      unfold finishNode
      -- finishing node `id` changes no name that the later ones are finished with
      rw [GraphSpec.modifyNode_node hf, hframe.name, hframe.ownDir]
      by_cases hi : i = id
      · subst hi
        rw [if_neg hid, if_pos rfl, if_pos List.mem_cons_self]
      · rw [if_neg hi]
        by_cases hmem : i ∈ ids
        · rw [if_pos hmem, if_pos (List.mem_cons_of_mem id hmem)]
        · have hcons : i ∉ id :: ids := fun h => by
            rcases List.mem_cons.mp h with h | h
            · exact hi h
            · exact hmem h
          rw [if_neg hmem, if_neg hcons]

/-! ## §4. The sync. -/

/-- The run a node's workspace holds, if any. -/
def GraphNode.run (goals : GoalRegistry) (n : GraphNode) : Option GoalRun :=
  n.workspace.bind goals.lookup

/-- **What the loop body of the sync does**: only running nodes are looked at,
and what happens to one is decided by its run. -/
theorem GraphNode.sync_cases (goals : GoalRegistry) (review : Bool) (n : GraphNode) :
    (n.status ≠ .running ∧ n.sync goals review = (n, false)) ∨
    (n.status = .running ∧ n.run goals = none ∧
      ∃ d, n.sync goals review = ({ n with status := .interrupted, detail := d }, false)) ∨
    (n.status = .running ∧ ∃ run, n.run goals = some run ∧
      ((run.status = .done ∧ review = true ∧
          n.sync goals review = ({ n with iteration := run.iteration, status := .review }, false)) ∨
       (run.status = .done ∧ review = false ∧
          n.sync goals review = ({ n with iteration := run.iteration }, true)) ∨
       (∃ d, run.status = .blocked d ∧ n.sync goals review =
          ({ n with iteration := run.iteration, status := .blocked, detail := some d }, false)) ∨
       (run.status.isTerminal = false ∧
          n.sync goals review = ({ n with iteration := run.iteration }, false)))) := by
  by_cases hr : n.status = .running
  · right
    unfold GraphNode.sync GraphNode.run
    -- only the run decides what becomes of a running node
    rw [if_neg (by simp [hr])]
    cases hw : n.workspace with
    | none => exact .inl ⟨hr, rfl, _, rfl⟩
    | some ws =>
        simp only [Option.bind_some]
        cases hl : goals.lookup ws with
        | none => exact .inl ⟨hr, rfl, _, rfl⟩
        | some run =>
            refine .inr ⟨hr, run, rfl, ?_⟩
            dsimp only
            cases run.status with
            | done =>
                cases review with
                | true => exact .inl ⟨rfl, rfl, rfl⟩
                | false => exact .inr (.inl ⟨rfl, rfl, rfl⟩)
            | blocked d => exact .inr (.inr (.inl ⟨d, rfl, rfl⟩))
            | running => exact .inr (.inr (.inr ⟨rfl, rfl⟩))
            | needsAttention d => exact .inr (.inr (.inr ⟨rfl, rfl⟩))
  · refine .inl ⟨hr, ?_⟩
    unfold GraphNode.sync
    rw [if_pos hr]

theorem GraphNode.sync_id (goals : GoalRegistry) (review : Bool) (n : GraphNode) :
    (n.sync goals review).1.id = n.id := by
  rcases n.sync_cases goals review with
    ⟨_, h⟩ | ⟨_, _, d, h⟩ | ⟨_, run, _, ⟨_, _, h⟩ | ⟨_, _, h⟩ | ⟨d, _, h⟩ | ⟨_, h⟩⟩ <;> rw [h]

/-- The sync of one node, with the finishing that may follow. -/
def GraphNode.synced (goals : GoalRegistry) (spec : GraphSpec) (git : GitOutcome)
    (n : GraphNode) : GraphNode :=
  let r := n.sync goals spec.reviewIterations
  if r.2 then r.1.finish goals spec.name spec.ownDir git else r.1

/-- The loop of the sync, before any node is finished. -/
def GraphSpec.syncLoop (goals : GoalRegistry) (s : GraphSpec) : GraphSpec :=
  { s with nodes := s.nodes.map fun n => (n.sync goals s.reviewIterations).1 }

def GraphSpec.toFinish (goals : GoalRegistry) (s : GraphSpec) : List String :=
  (s.nodes.filter fun n => (n.sync goals s.reviewIterations).2).map (·.id)

theorem syncNodeStates_eq (goals : GoalRegistry) (git : String → GitOutcome) (s : GraphSpec) :
    syncNodeStates goals git s = finishAll goals git (s.syncLoop goals) (s.toFinish goals) := by
  have hids : ((s.nodes.map (·.sync goals s.reviewIterations)).filter (·.2)).map (·.1.id)
      = s.toFinish goals := by
    unfold GraphSpec.toFinish
    rw [List.filter_map, List.map_map]
    exact List.map_congr_left fun n _ => n.sync_id goals s.reviewIterations
  unfold syncNodeStates GraphSpec.syncLoop
  dsimp only
  rw [hids, List.map_map]
  rfl

theorem syncNodeStates_status (goals : GoalRegistry) (git : String → GitOutcome) (s : GraphSpec) :
    (syncNodeStates goals git s).status = s.status := by
  rw [syncNodeStates_eq, finishAll_status]
  rfl

theorem syncLoop_frame (goals : GoalRegistry) (s : GraphSpec) : SpecFrame s (s.syncLoop goals) :=
  .mapNodes (fun n => n.sync_id goals s.reviewIterations) s

theorem syncNodeStates_frame (goals : GoalRegistry) (git : String → GitOutcome) (s : GraphSpec) :
    SpecFrame s (syncNodeStates goals git s) := by
  rw [syncNodeStates_eq]
  exact (syncLoop_frame goals s).trans (finishAll_frame goals git _ _)

theorem mem_toFinish (goals : GoalRegistry) {s : GraphSpec} (hnd : s.ids.Nodup) {id : String}
    {n : GraphNode} (hn : s.node id = some n) :
    id ∈ s.toFinish goals ↔ (n.sync goals s.reviewIterations).2 = true := by
  unfold GraphSpec.toFinish
  rw [List.mem_map]
  constructor
  · rintro ⟨m, hm, hmid⟩
    obtain ⟨hmem, hsync⟩ := List.mem_filter.mp hm
    have hmn : s.node id = some m := (GraphSpec.node_eq_some hnd).mpr ⟨hmem, hmid⟩
    obtain rfl : n = m := Option.some.inj (hn.symm.trans hmn)
    exact hsync
  · intro h
    exact ⟨n, List.mem_filter.mpr ⟨GraphSpec.node_mem hn, h⟩, GraphSpec.node_id hn⟩

/-- **The sync, node by node.** -/
theorem syncNodeStates_node (goals : GoalRegistry) (git : String → GitOutcome) {s : GraphSpec}
    (hnd : s.ids.Nodup) (id : String) :
    (syncNodeStates goals git s).node id = (s.node id).map (·.synced goals s (git id)) := by
  have hframe := syncLoop_frame goals s
  have hsub : (s.toFinish goals).Nodup := hnd.sublist (List.filter_sublist.map _)
  -- the loop first, then the nodes it collected
  have hloop : (s.syncLoop goals).node id
      = (s.node id).map fun n => (n.sync goals s.reviewIterations).1 :=
    mapNodes_node (fun n => n.sync_id goals s.reviewIterations) s id
  rw [syncNodeStates_eq, finishAll_node goals git _ _ hsub id, hframe.name, hframe.ownDir, hloop]
  cases hn : s.node id with
  | none => simp
  | some n =>
      have hmem := mem_toFinish goals hnd hn
      by_cases hf : (n.sync goals s.reviewIterations).2 = true
      · rw [if_pos (hmem.mpr hf)]
        simp [GraphNode.synced, hf]
      · rw [if_neg (fun h => hf (hmem.mp h))]
        simp [GraphNode.synced, hf]

theorem GraphNode.synced_move (s : GraphSpec) (before after : Shared) (git : GitOutcome)
    (n : GraphNode) :
    ∃ k ∈ MoveKind.ofSync, NodeMove s before after n (n.synced before.goals s git) k := by
  unfold GraphNode.synced MoveKind.ofSync
  rcases n.sync_cases before.goals s.reviewIterations with
    ⟨_, h⟩ | ⟨hr, hrun, d, h⟩ | ⟨hr, run, hrun, hcase⟩
  · rw [h]
    exact ⟨.stays, by simp, rfl, rfl, rfl⟩
  · rw [h]
    exact ⟨.lost, by simp, hr, hrun, rfl, rfl, rfl⟩
  · rcases hcase with ⟨_, _, h⟩ | ⟨_, _, h⟩ | ⟨d, _, h⟩ | ⟨_, h⟩
    · rw [h]
      exact ⟨.reviewed, by simp, hr, ⟨run, hrun⟩, rfl, rfl, rfl⟩
    · rw [h]
      -- the run is done and no review is due: the node is finished
      have hnd : n.status ≠ .done := by rw [hr]; decide
      rcases GraphNode.finish_cases before.goals s.name s.ownDir git
          { n with iteration := run.iteration } with ⟨hd, _⟩ | ⟨_, it, st, d, hst, hfin⟩
      · exact absurd hd hnd
      · refine ⟨.settles, by simp, hnd, ?_⟩
        dsimp only
        rw [if_pos rfl, hfin]
        exact ⟨hst, rfl, rfl⟩
    · rw [h]
      exact ⟨.settles, by simp, by rw [hr]; decide, .inr rfl, rfl, rfl⟩
    · rw [h]
      exact ⟨.stays, by simp, rfl, rfl, rfl⟩

/-- The sync neither makes a node pending nor starts a pending one. -/
theorem NodeMove.sync_pending {s : GraphSpec} {before after : Shared} {n m : GraphNode}
    {k : MoveKind} (hk : k ∈ MoveKind.ofSync) (h : NodeMove s before after n m k)
    (hp : n.status = .pending ∧ m.status = .running ∨ m.status = .pending) :
    n.status = .pending ∧ m.status = .pending ∧ m.workspace = n.workspace ∧
      m.worktree = n.worktree := by
  simp only [MoveKind.ofSync, List.mem_cons, List.not_mem_nil, or_false] at hk
  -- of the four moves of a sync only `stays` can end in pending
  rcases hk with rfl | rfl | rfl | rfl
  · rcases hp with ⟨hn, hm⟩ | hm
    · exact absurd (hm.symm.trans (h.1.trans hn)) (by decide)
    · exact ⟨h.1.symm.trans hm, hm, h.2⟩
  · rcases hp with ⟨_, hm⟩ | hm
    · rcases h.2.1 with hst | hst <;> exact absurd (hst.symm.trans hm) (by decide)
    · rcases h.2.1 with hst | hst <;> exact absurd (hst.symm.trans hm) (by decide)
  · rcases hp with ⟨_, hm⟩ | hm <;> exact absurd (h.2.2.1.symm.trans hm) (by decide)
  · rcases hp with ⟨_, hm⟩ | hm <;> exact absurd (h.2.2.1.symm.trans hm) (by decide)

theorem syncNodeStates_moves {before after : Shared} {s : GraphSpec} (hnd : s.ids.Nodup)
    (git : String → GitOutcome) :
    SpecMoves MoveKind.ofSync before after s (syncNodeStates before.goals git s) := by
  refine ⟨syncNodeStates_frame before.goals git s, fun id n hn => ?_⟩
  rw [syncNodeStates_node before.goals git hnd id, hn]
  exact ⟨_, rfl, n.synced_move s before after (git id)⟩

theorem GraphNode.sync_active (goals : GoalRegistry) (review : Bool) (n : GraphNode)
    (h : (n.sync goals review).1.status.isActive = true) : n.status.isActive = true := by
  by_cases hr : n.status = .running
  · rw [hr]
    rfl
  · rcases n.sync_cases goals review with ⟨_, hs⟩ | ⟨hr', _⟩ | ⟨hr', _⟩
    · rwa [hs] at h
    · exact absurd hr' hr
    · exact absurd hr' hr

theorem syncNodeStates_activeCount_le (goals : GoalRegistry) (git : String → GitOutcome)
    (s : GraphSpec) : (syncNodeStates goals git s).activeCount ≤ s.activeCount := by
  rw [syncNodeStates_eq]
  refine Nat.le_trans (finishAll_activeCount_le goals git _ _) ?_
  exact mapNodes_activeCount_le (fun n h => n.sync_active goals s.reviewIterations h) s

end Jmux.Goal
