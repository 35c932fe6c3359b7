/-
  Jmux.Goal.SpecEdits — the invariant of a spec, kept by every operation.

  `GraphSpec.WellFormed` is what the scheduler maintains about one graph: ids
  do not repeat, a graph under planning has no nodes, no more than
  `max_concurrency` nodes hold a slot, and a recorded worktree is the node's own.
  Each operation is one theorem: which moves it makes (`SpecEdit`) and that the
  invariant survives.

  Main results: `processGraph_edit`, `approveGraph_edit`, `resumeGraph_edit`,
  `finishNode_edit`, `continueSpec_edit`, `reconcile_edit`.
-/
import Jmux.Goal.LaunchMoves

namespace Jmux.Goal

/-! ## §1. The invariant. -/

structure GraphSpec.WellFormed (s : GraphSpec) : Prop where
  nodup : s.ids.Nodup
  valid : ∀ id ∈ s.ids, validNodeId id = true
  unplanned : s.status = .proposing ∨ s.status = .proposed → s.nodes = []
  slots : s.activeCount ≤ s.maxConcurrency
  worktrees : ∀ id n p, s.node id = some n → n.worktree = some p → s.OwnWorktree id p

theorem GraphSpec.WellFormed.valid_of_node {s : GraphSpec} (h : s.WellFormed) {id : String}
    {n : GraphNode} (hn : s.node id = some n) : validNodeId id = true :=
  h.valid id (List.mem_map.mpr ⟨n, GraphSpec.node_mem hn, GraphSpec.node_id hn⟩)

/-- Without nodes there is little to check. -/
theorem GraphSpec.wellFormed_of_nil {s : GraphSpec} (h : s.nodes = []) : s.WellFormed where
  nodup := by
    unfold GraphSpec.ids
    rw [h]
    exact List.nodup_nil
  valid id hid := by
    unfold GraphSpec.ids at hid
    rw [h] at hid
    exact absurd hid List.not_mem_nil
  unplanned _ := h
  slots := by
    unfold GraphSpec.activeCount
    rw [h]
    exact Nat.zero_le _
  worktrees id n p hn := by
    have hmem := GraphSpec.node_mem hn
    rw [h] at hmem
    exact absurd hmem List.not_mem_nil

/-- What one operation does to a spec: the nodes move, or the plan is put in place. -/
inductive SpecEdit (ks : List MoveKind) (before after : Shared) (s s' : GraphSpec) : Prop
  | moved (h : SpecMoves ks before after s s')
  | planned (hs : s.nodes = []) (hset : SameSettings s s') (hplan : WellFormedPlan s'.nodes)
      (hrun : s'.status = .running)

/-- No kind of move changes whose worktree a node records. -/
theorem NodeMove.worktree_cases {s : GraphSpec} {before after : Shared} {n n' : GraphNode}
    {k : MoveKind} (h : NodeMove s before after n n' k) {p : String}
    (hp : n'.worktree = some p) : n.worktree = some p ∨ s.OwnWorktree n.id p := by
  cases k with
  | stays => exact .inl (h.2.2.symm.trans hp)
  | settles => exact .inl (h.2.2.2.symm.trans hp)
  | lost => exact .inl (h.2.2.2.2.symm.trans hp)
  | reviewed => exact .inl (h.2.2.2.2.symm.trans hp)
  | resumed => exact .inl (h.2.2.2.symm.trans hp)
  | continued => exact .inl (h.2.2.2.symm.trans hp)
  | launched => exact .inr (Launched.worktree h p hp)
  | cut => exact .inl (h.2.2.2.symm.trans hp)

/-- After any moves a recorded worktree is still the node's own. -/
theorem GraphSpec.WellFormed.moved_worktrees {ks : List MoveKind} {before after : Shared}
    {s s' : GraphSpec} (hw : s.WellFormed) (hm : SpecMoves ks before after s s') {id p : String}
    {n' : GraphNode} (hn' : s'.node id = some n') (hp : n'.worktree = some p) :
    s'.OwnWorktree id p := by
  obtain ⟨n, hn, k, _, hmove⟩ := hm.back hn'
  refine hm.frame.ownWorktree.mpr ?_
  rcases hmove.worktree_cases hp with h | h
  · exact hw.worktrees id n p hn h
  · rw [GraphSpec.node_id hn] at h
    exact h

/-- **Moves keep the invariant**, as long as the slots and the planning state
are accounted for. -/
theorem GraphSpec.WellFormed.moved {ks : List MoveKind} {before after : Shared}
    {s s' : GraphSpec} (hw : s.WellFormed) (hm : SpecMoves ks before after s s')
    (hst : s'.status = .proposing ∨ s'.status = .proposed →
      s.status = .proposing ∨ s.status = .proposed ∨ s.nodes = [])
    (hslots : s'.activeCount ≤ s.maxConcurrency) : s'.WellFormed where
  nodup := hm.frame.ids ▸ hw.nodup
  valid := hm.frame.ids ▸ hw.valid
  unplanned h := by
    -- moves keep the ids, so a plan that was empty stays empty
    have hnil : s.nodes = [] := by
      rcases hst h with h | h | h
      · exact hw.unplanned (.inl h)
      · exact hw.unplanned (.inr h)
      · exact h
    have hids : s'.ids = [] := by
      rw [hm.frame.ids]
      unfold GraphSpec.ids
      rw [hnil]
      rfl
    exact List.map_eq_nil_iff.mp hids
  slots := hm.frame.maxConcurrency ▸ hslots
  worktrees id n' p hn' hp := hw.moved_worktrees hm hn' hp

/-- A plan that has just been accepted. -/
theorem GraphSpec.WellFormed.planned {s s' : GraphSpec} (hplan : WellFormedPlan s'.nodes)
    (hrun : s'.status = .running) (_ : SameSettings s s') : s'.WellFormed where
  nodup := hplan.nodup
  valid id hid := by
    obtain ⟨n, hn, rfl⟩ := List.mem_map.mp hid
    exact hplan.valid n hn
  unplanned h := by
    rw [hrun] at h
    rcases h with h | h <;> cases h
  slots := by
    -- every node of a fresh plan is pending
    have hzero : s'.activeCount = 0 := by
      refine List.countP_eq_zero.mpr fun n hn => ?_
      rw [hplan.pending n hn]
      decide
    omega
  worktrees id n p hn hp := by
    have hnone := (hplan.unlaunched n (GraphSpec.node_mem hn)).2
    rw [hnone] at hp
    cases hp

/-! ## §2. The operations. -/

/-- An operation that leaves the nodes where they are. -/
theorem SpecMoves.ofNodes {ks : List MoveKind} {before after : Shared} {s s' : GraphSpec}
    (hstay : MoveKind.stays ∈ ks) (hset : SameSettings s s') (hnodes : s'.nodes = s.nodes) :
    SpecMoves ks before after s s' := by
  refine ⟨⟨hset, ?_⟩, fun id n hn => ⟨n, ?_, .stays, hstay, rfl, rfl, rfl⟩⟩
  · unfold GraphSpec.ids
    rw [hnodes]
  · unfold GraphSpec.node at hn ⊢
    rw [hnodes]
    exact hn

/-- What every operation is shown to do. -/
def EditOk (ks : List MoveKind) (before after : Shared) (s s' : GraphSpec) : Prop :=
  SpecEdit ks before after s s' ∧ s'.WellFormed

theorem EditOk.ofNodes {ks : List MoveKind} {before after : Shared} {s s' : GraphSpec}
    (hw : s.WellFormed) (hstay : MoveKind.stays ∈ ks) (hset : SameSettings s s')
    (hnodes : s'.nodes = s.nodes)
    (hst : s'.status = .proposing ∨ s'.status = .proposed →
      s.status = .proposing ∨ s.status = .proposed ∨ s.nodes = []) :
    EditOk ks before after s s' := by
  have hm : SpecMoves ks before after s s' := .ofNodes hstay hset hnodes
  refine ⟨.moved hm, hw.moved hm hst ?_⟩
  unfold GraphSpec.activeCount
  rw [hnodes]
  exact hw.slots

theorem parseProposal_edit {ks : List MoveKind} {before after : Shared} {s : GraphSpec}
    {file : ProposalFile} {nodes : List GraphNode} (hw : s.WellFormed)
    (hs : s.status = .proposing ∨ s.status = .proposed) (h : parseProposal file = .ok nodes) :
    EditOk ks before after s { s with nodes := nodes, status := .running } := by
  have hplan := parseProposal_wellFormed h
  have hset : SameSettings s { s with nodes := nodes, status := .running } :=
    ⟨rfl, rfl, rfl, rfl, rfl, rfl⟩
  exact ⟨.planned (hw.unplanned hs) hset hplan rfl, .planned hplan rfl hset⟩

theorem tickProposing_edit {ks : List MoveKind} {before after : Shared} {s : GraphSpec}
    (env : ProposalEnv) (hw : s.WellFormed) (hs : s.status = .proposing)
    (hstay : MoveKind.stays ∈ ks) : EditOk ks before after s (tickProposing env s) := by
  have hsame : SameSettings s s := ⟨rfl, rfl, rfl, rfl, rfl, rfl⟩
  have hwait : EditOk ks before after s
      { s with proposalWaitTicks := s.proposalWaitTicks + 1 } :=
    .ofNodes hw hstay ⟨rfl, rfl, rfl, rfl, rfl, rfl⟩ rfl fun _ => .inl hs
  have hskip : EditOk ks before after s s := .ofNodes hw hstay hsame rfl fun _ => .inl hs
  dsimp only [tickProposing]
  split
  · exact hwait
  · split
    · exact hskip
    · split
      · exact hwait
      · split
        · exact .ofNodes hw hstay ⟨rfl, rfl, rfl, rfl, rfl, rfl⟩ rfl fun _ => .inl hs
        · split
          next nodes hnodes => exact parseProposal_edit hw (.inl hs) hnodes
          next => exact hskip

/-- **A scheduler tick.** -/
theorem processGraph_edit (env : TickEnv) {s : GraphSpec} (shared : Shared) (hw : s.WellFormed) :
    EditOk MoveKind.ofTick shared (processGraph env s shared).shared s
      (processGraph env s shared).spec := by
  unfold processGraph
  split
  next hs => exact tickProposing_edit env.proposal hw hs (by decide)
  next hs =>
    have heff := tickRunning_effect env shared hw.nodup
    refine ⟨.moved heff.moves, hw.moved heff.moves (fun h => ?_) (heff.slots hw.slots)⟩
    exact .inr (.inr (tickRunning_planning env hs h))
  next => exact .ofNodes hw (by decide) ⟨rfl, rfl, rfl, rfl, rfl, rfl⟩ rfl
            fun h => h.elim .inl (fun h => .inr (.inl h))

/-- **Approval.** -/
theorem approveGraph_edit {file : ProposalFile} {before after : Shared} {s s' : GraphSpec}
    (hw : s.WellFormed) (h : approveGraph file s = .ok s') :
    EditOk [.stays] before after s s' := by
  obtain ⟨hplanning, nodes, hnodes, rfl⟩ := approveGraph_ok h
  exact parseProposal_edit hw hplanning hnodes

theorem reviseGraph_edit {env : ReviseEnv} {before after : Shared} {s s' : GraphSpec}
    (hw : s.WellFormed) (h : reviseGraph env s = .ok s') : EditOk [.stays] before after s s' := by
  obtain ⟨hplanning, -, -, -, rfl⟩ := reviseGraph_ok h
  refine .ofNodes hw (by decide) ⟨rfl, rfl, rfl, rfl, rfl, rfl⟩ rfl fun _ => ?_
  rcases hplanning with hs | hs
  · exact .inl hs
  · exact .inr (.inl hs)

/-- Pause and stop. -/
theorem setGraphState_edit {st : GraphState} {before after : Shared} {s : GraphSpec}
    (hw : s.WellFormed) (hst : st = .paused ∨ st = .stopped) :
    EditOk [.stays] before after s (setGraphState st s) := by
  refine .ofNodes hw (by decide) ⟨rfl, rfl, rfl, rfl, rfl, rfl⟩ rfl fun h => ?_
  unfold setGraphState at h
  rcases hst with rfl | rfl <;> rcases h with h | h <;> cases h

/-- An edit of one node that keeps its slot and its kind of move. -/
theorem modifyNode_edit {ks : List MoveKind} {before after : Shared} {s : GraphSpec}
    {f : GraphNode → GraphNode} {id : String} (hw : s.WellFormed) (hid : ∀ n, (f n).id = n.id)
    (hmove : ∀ n, ∃ k ∈ ks, NodeMove s before after n (f n) k) (hstay : MoveKind.stays ∈ ks)
    (hactive : ∀ n, (f n).status.isActive = true → n.status.isActive = true) :
    EditOk ks before after s (s.modifyNode id f) := by
  have hm := modifyNode_moves hid s id (fun n _ => hmove n) hstay
  refine ⟨.moved hm, hw.moved hm (fun h => ?_) ?_⟩
  · rcases h with h | h
    · exact .inl h
    · exact .inr (.inl h)
  · exact Nat.le_trans (modifyNode_activeCount_le s id hactive) hw.slots

/-- **`finish_node`**, as `goal.accept` calls it. -/
theorem finishNode_edit {goals : GoalRegistry} {git : GitOutcome} {before after : Shared}
    {s : GraphSpec} {id : String} (hw : s.WellFormed) :
    EditOk [.stays, .settles] before after s (finishNode goals git s id) :=
  modifyNode_edit hw (fun n => n.finish_id goals s.name s.ownDir git)
    (fun n => n.finish_move s before after goals s.name s.ownDir git) (by decide)
    fun n h => by
      rw [n.finish_inactive goals s.name s.ownDir git] at h
      cases h

theorem GraphNode.continued_id (n : GraphNode) : n.continued.id = n.id := by
  unfold GraphNode.continued
  split <;> rfl

/-- **`continue_node`.** -/
theorem continueSpec_edit {before after : Shared} {s : GraphSpec} {id : String}
    (hw : s.WellFormed) : EditOk [.stays, .continued] before after s (continueSpec s id) := by
  have hcases : ∀ n : GraphNode, (n.status = .review ∧
      n.continued = { n with status := .running, detail := none }) ∨ n.continued = n := by
    intro n
    unfold GraphNode.continued
    split
    next h => exact .inl ⟨h, rfl⟩
    next => exact .inr rfl
  refine modifyNode_edit hw (fun n => n.continued_id) (fun n => ?_) (by decide) (fun n h => ?_)
  · rcases hcases n with ⟨hr, h⟩ | h
    · rw [h]
      exact ⟨.continued, by decide, hr, rfl, rfl, rfl⟩
    · rw [h]
      exact ⟨.stays, by decide, rfl, rfl, rfl⟩
  · rcases hcases n with ⟨hr, _⟩ | hc
    · rw [hr]
      rfl
    · rwa [hc] at h

theorem updateNodeGoal_edit {id text : String} {before after : Shared} {s s' : GraphSpec}
    (hw : s.WellFormed) (h : updateNodeGoal id text s = .ok s') :
    EditOk [.stays] before after s s' := by
  obtain ⟨-, -, rfl⟩ := updateNodeGoal_ok h
  exact modifyNode_edit hw (fun _ => rfl) (fun _ => ⟨.stays, by decide, rfl, rfl, rfl⟩)
    (by decide) fun _ h => h

theorem updateNodePosition_edit {id : String} {x y : Rat} {before after : Shared}
    {s : GraphSpec} (hw : s.WellFormed) :
    EditOk [.stays] before after s (updateNodePosition id x y s) :=
  modifyNode_edit hw (fun _ => rfl) (fun _ => ⟨.stays, by decide, rfl, rfl, rfl⟩)
    (by decide) fun _ h => h

/-- What `resume` does to one node, including the merge it may retry. -/
theorem GraphNode.resume_cases (n : GraphNode) :
    (n.status = .interrupted ∧ n.resume = { n with status := .pending, detail := none }) ∨
    (n.status ≠ .interrupted ∧ n.resume = n) := by
  unfold GraphNode.resume
  split
  next h => exact .inl ⟨h, rfl⟩
  next h => exact .inr ⟨h, rfl⟩

theorem GraphNode.resume_id (n : GraphNode) : n.resume.id = n.id := by
  rcases n.resume_cases with ⟨_, h⟩ | ⟨_, h⟩ <;> rw [h]

/-- Resuming and, where a merge is pending, retrying it is one move. -/
theorem GraphNode.resume_move (s : GraphSpec) (before after : Shared) (goals : GoalRegistry)
    (name ownDir : String) (git : GitOutcome) (retry : Bool) (n : GraphNode)
    (hretry : retry = true → n.resume.status = .blocked) :
    ∃ k ∈ [MoveKind.stays, .settles, .resumed], NodeMove s before after n
      (if retry = true then n.resume.finish goals name ownDir git else n.resume) k := by
  rcases n.resume_cases with ⟨hi, h⟩ | ⟨_, h⟩
  · by_cases hr : retry = true
    -- a merge is retried for blocked nodes only, and this one is pending again
    · have hb := hretry hr
      rw [h] at hb
      cases hb
    · rw [if_neg hr, h]
      exact ⟨.resumed, by decide, hi, rfl, rfl, rfl⟩
  · rw [h]
    by_cases hr : retry = true
    · rw [if_pos hr]
      obtain ⟨k, hk, hmove⟩ := n.finish_move s before after goals name ownDir git
      exact ⟨k, List.mem_append_left [MoveKind.resumed] hk, hmove⟩
    · rw [if_neg hr]
      exact ⟨.stays, by decide, rfl, rfl, rfl⟩

/-- The loop of `resume`, before any merge is retried. -/
def GraphSpec.resumeLoop (s : GraphSpec) : GraphSpec := { s with nodes := s.nodes.map (·.resume) }

def GraphSpec.mergeRetries (s : GraphSpec) : List String :=
  (s.resumeLoop.nodes.filter (·.mergePending)).map (·.id)

theorem resumeLoop_frame (s : GraphSpec) : SpecFrame s s.resumeLoop :=
  .mapNodes (fun n => n.resume_id) s

theorem resumeLoop_node (s : GraphSpec) (id : String) :
    s.resumeLoop.node id = (s.node id).map (·.resume) :=
  mapNodes_node (fun n => n.resume_id) s id

theorem resumeLoop_activeCount_le (s : GraphSpec) : s.resumeLoop.activeCount ≤ s.activeCount := by
  refine mapNodes_activeCount_le (fun n hn => ?_) s
  rcases n.resume_cases with ⟨_, hr⟩ | ⟨_, hr⟩
  · rw [hr] at hn
    cases hn
  · rwa [hr] at hn

/-- Those whose merge is tried again, by what they are after the loop. -/
theorem mem_mergeRetries_iff {s : GraphSpec} (hnd : s.ids.Nodup) {id : String} {n : GraphNode}
    (hn : s.node id = some n) : id ∈ s.mergeRetries ↔ n.resume.mergePending = true := by
  have hnd' : s.resumeLoop.ids.Nodup := (resumeLoop_frame s).ids ▸ hnd
  have hloop : s.resumeLoop.node id = some n.resume := by
    rw [resumeLoop_node, hn]
    rfl
  unfold GraphSpec.mergeRetries
  rw [List.mem_map]
  constructor
  · intro h
    obtain ⟨m, hm, hmid⟩ := h
    obtain ⟨hmem, hpending⟩ := List.mem_filter.mp hm
    have hfound := (GraphSpec.node_eq_some hnd').mpr ⟨hmem, hmid⟩
    rw [hloop] at hfound
    rw [Option.some.inj hfound]
    exact hpending
  · intro hpending
    exact ⟨n.resume, List.mem_filter.mpr ⟨GraphSpec.node_mem hloop, hpending⟩,
      GraphSpec.node_id hloop⟩

/-- A node whose merge is retried is blocked. -/
theorem blocked_of_mem_mergeRetries {s : GraphSpec} (hnd : s.ids.Nodup) {id : String}
    (hid : id ∈ s.mergeRetries) {n : GraphNode} (hn : s.node id = some n) :
    n.resume.status = .blocked := by
  have hpending := (mem_mergeRetries_iff hnd hn).mp hid
  unfold GraphNode.mergePending at hpending
  simp only [Bool.and_eq_true, decide_eq_true_eq] at hpending
  exact hpending.1

theorem mergeRetries_nodup {s : GraphSpec} (hnd : s.ids.Nodup) : s.mergeRetries.Nodup := by
  have hnd' : s.resumeLoop.ids.Nodup := (resumeLoop_frame s).ids ▸ hnd
  exact hnd'.sublist (List.filter_sublist.map _)

theorem resumeGraph_ok {goals : GoalRegistry} {git : String → GitOutcome} {s s' : GraphSpec}
    (h : resumeGraph goals git s = .ok s') :
    s' = { finishAll goals git s.resumeLoop s.mergeRetries with status := .running } := by
  unfold resumeGraph at h
  split at h
  · cases h
  · exact (Except.ok.inj h).symm

/-- **Resume.** -/
theorem resumeGraph_edit {goals : GoalRegistry} {git : String → GitOutcome}
    {before after : Shared} {s s' : GraphSpec} (hw : s.WellFormed)
    (h : resumeGraph goals git s = .ok s') :
    EditOk [.stays, .settles, .resumed] before after s s' := by
  obtain rfl := resumeGraph_ok h
  have hm : SpecMoves [.stays, .settles, .resumed] before after s
      (finishAll goals git s.resumeLoop s.mergeRetries) := by
    refine ⟨(resumeLoop_frame s).trans (finishAll_frame goals git _ _), fun id n hn => ?_⟩
    rw [finishAll_node goals git _ _ (mergeRetries_nodup hw.nodup) id, resumeLoop_node, hn]
    have hmove := n.resume_move s before after goals s.resumeLoop.name s.resumeLoop.ownDir (git id)
      (decide (id ∈ s.mergeRetries))
      (fun hr => blocked_of_mem_mergeRetries hw.nodup (of_decide_eq_true hr) hn)
    by_cases hid : id ∈ s.mergeRetries
    · rw [if_pos (decide_eq_true hid)] at hmove
      rw [if_pos hid]
      exact ⟨_, rfl, hmove⟩
    · rw [if_neg (by simpa using hid)] at hmove
      rw [if_neg hid]
      exact ⟨_, rfl, hmove⟩
  have hm' := hm.withStatus .running
  refine ⟨.moved hm', hw.moved hm' (fun h => ?_) ?_⟩
  · rcases h with h | h <;> cases h
  · exact Nat.le_trans (finishAll_activeCount_le goals git _ _)
      (Nat.le_trans (resumeLoop_activeCount_le s) hw.slots)

theorem GraphNode.reconcile_cases (n : GraphNode) :
    (n.status.isActive = true ∧ n.reconcile = { n with
      status := .interrupted, detail := some "interrupted by a restart", workspace := none }) ∨
    (n.status.isActive = false ∧ n.reconcile = n) := by
  unfold GraphNode.reconcile
  split
  next h => exact .inl ⟨h, rfl⟩
  next h => exact .inr ⟨by simpa using h, rfl⟩

theorem GraphNode.reconcile_id (n : GraphNode) : n.reconcile.id = n.id := by
  rcases n.reconcile_cases with ⟨_, h⟩ | ⟨_, h⟩ <;> rw [h]

/-- **Restart.** -/
theorem reconcile_edit {before after : Shared} {s : GraphSpec} (hw : s.WellFormed) :
    EditOk [.stays, .cut] before after s (reconcile s) := by
  have hid := GraphNode.reconcile_id
  have hframe := SpecFrame.mapNodes hid s
  have hm : SpecMoves [.stays, .cut] before after s (reconcile s) := by
    refine ⟨⟨⟨rfl, rfl, rfl, rfl, rfl, rfl⟩, hframe.ids⟩, fun id n hn => ?_⟩
    have hnode : (reconcile s).node id = (s.node id).map (·.reconcile) := mapNodes_node hid s id
    rw [hnode, hn]
    refine ⟨n.reconcile, rfl, ?_⟩
    -- running and review nodes are cut off, the rest stays
    rcases n.reconcile_cases with ⟨ha, h⟩ | ⟨_, h⟩
    · rw [h]
      exact ⟨.cut, by decide, ha, rfl, rfl, rfl⟩
    · rw [h]
      exact ⟨.stays, by decide, rfl, rfl, rfl⟩
  refine ⟨.moved hm, hw.moved hm (fun h => ?_) ?_⟩
  -- only a running graph is paused by the restart
  · dsimp only [reconcile] at h
    split at h
    · rcases h with h | h <;> cases h
    · rcases h with h | h
      · exact .inl h
      · exact .inr (.inl h)
  · refine Nat.le_trans (mapNodes_activeCount_le (fun n hn => ?_) s) hw.slots
    rcases n.reconcile_cases with ⟨_, h⟩ | ⟨_, h⟩
    · rw [h] at hn
      cases hn
    · rwa [h] at hn

end Jmux.Goal
