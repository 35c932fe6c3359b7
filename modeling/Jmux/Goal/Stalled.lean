/-
  Jmux.Goal.Stalled — when a tick leaves a graph at work that cannot go on.

  `tick_running` pauses a graph in which nothing runs and nothing can be launched; but
  only a graph that has a pending node.  When every node that is not done is blocked or
  interrupted, the graph stays at work for good.

  Main results:
    * `launchReady_blocks` / `_starts` — the launch loop, by which launches fail.
    * `syncNodeStates_mem`             — the nodes after the sync.
    * `scheduleSynced_canProgress_iff` — the tick after the sync.
    * `tick_canProgress_iff`           — when a tick leaves a graph that can go on.
    * `blocked_graph_hangs`            — a graph of one blocked node.
-/
import Jmux.Goal.Revive

namespace Jmux.Goal

open Jmux.Lib

/-! ## §1. Graphs that can go on. -/

/-- The graph is finished or paused, or a node is at work, or a node can be launched. -/
def GraphSpec.CanProgress (s : GraphSpec) : Prop :=
  (s.status = .complete ∨ s.status = .paused) ∨ (∃ n ∈ s.nodes, n.status.isActive = true) ∨
    ∃ n ∈ s.nodes, n.status = .pending ∧ ∀ d ∈ n.deps, ∃ m ∈ s.nodes, m.id = d ∧ m.status = .done

/-- There is no cycle of dependencies. -/
def GraphSpec.Acyclic (s : GraphSpec) : Prop :=
  ∃ rank : String → Nat, ∀ n ∈ s.nodes, ∀ d ∈ n.deps, rank d < rank n.id

/-- The tick leaves the node at work: it waits for a review, or its run goes on. -/
def GraphNode.StaysActive (goals : GoalRegistry) (s : GraphSpec) (n : GraphNode) : Prop :=
  n.status = .review ∨ (n.status = .running ∧ ∃ run, n.run goals = some run ∧
    (run.status.isTerminal = false ∨ (run.status = .done ∧ s.reviewIterations = true)))

/-- The node is done, or its run is and its branch merges. -/
def GraphNode.BecomesDone (goals : GoalRegistry) (s : GraphSpec) (git : GitOutcome)
    (n : GraphNode) : Prop :=
  n.status = .done ∨ (n.status = .running ∧ ∃ run, n.run goals = some run ∧
    run.status = .done ∧ s.reviewIterations = false ∧ n.mergeRefused s.ownDir git = false)

/-- One of the steps of `launch_node` fails. -/
def GraphNode.launchFails (env : LaunchEnv) (s : GraphSpec) (n : GraphNode) : Bool :=
  (s.useWorktrees && (!env.makeParent.isOk || !env.worktreeAdd.isOk)) ||
    !(resolveRunnerByName ((n.runner.or s.runner).getD "") env.settings).isOk ||
    !env.makeFiles.isOk

/-- No node is at work, not all nodes are done, and each node that is pending can be
launched, but its launch fails. -/
structure GraphSpec.Stuck (env : TickEnv) (goals : GoalRegistry) (s : GraphSpec) : Prop where
  unfinished : ∃ n ∈ s.nodes, ¬ n.BecomesDone goals s (env.git n.id)
  inactive   : ∀ n ∈ s.nodes, ¬ n.StaysActive goals s
  refused    : ∀ n ∈ s.nodes, n.status = .pending → 0 < s.maxConcurrency ∧
    n.launchFails (env.launch n.id) s = true ∧
    ∀ d ∈ n.deps, ∃ m ∈ s.nodes, m.id = d ∧ m.BecomesDone goals s (env.git m.id)

/-! ## §2. The launch loop. -/

section Launches

variable {env : String → LaunchEnv}

/-- Which launches fail. -/
theorem launchNode_fails_iff {env : LaunchEnv} {s : GraphSpec} {id : String} {n : GraphNode}
    (hn : s.node id = some n) (shared : Shared) :
    (∃ e, launchNode env s id shared = .error e) ↔ n.launchFails env s = true := by
  unfold launchNode prepareWorktree GraphNode.launchFails launchGoal
  rw [hn]
  dsimp only
  generalize (n.runner.or s.runner).getD "" = name
  cases s.useWorktrees with
  | false =>
      cases resolveRunnerByName name env.settings with
      | error e => simp [Except.isOk, Except.toBool]
      | ok runner => cases env.makeFiles <;> simp [Except.isOk, Except.toBool]
  | true =>
      cases env.makeParent with
      | error e => simp [Except.isOk, Except.toBool]
      | ok _ =>
          cases env.worktreeAdd with
          | error e => simp [Except.isOk, Except.toBool]
          | ok _ =>
              cases resolveRunnerByName name env.settings with
              | error e => simp [Except.isOk, Except.toBool]
              | ok runner => cases env.makeFiles <;> simp [Except.isOk, Except.toBool]

/-- The ids name pending nodes of the spec, each of them once. -/
structure Launchable (s : GraphSpec) (ids : List String) : Prop where
  nodup : ids.Nodup
  pending : ∀ id ∈ ids, ∃ n, s.node id = some n ∧ n.status = .pending

theorem Launchable.tail {s : GraphSpec} {id : String} {ids : List String}
    (h : Launchable s (id :: ids)) {f : GraphNode → GraphNode} (hf : ∀ n, (f n).id = n.id) :
    Launchable (s.modifyNode id f) ids := by
  obtain ⟨hid, hids⟩ := List.nodup_cons.mp h.nodup
  refine ⟨hids, fun i hi => ?_⟩
  have hne : i ≠ id := fun heq => hid (heq ▸ hi)
  rw [GraphSpec.modifyNode_node hf, if_neg hne]
  exact h.pending i (List.mem_cons_of_mem id hi)

/-- What the loop leaves alone. -/
theorem launchReady_keeps (ids : List String) (slots : Nat) (t : Tick)
    (h : Launchable t.spec ids) {i : String} {n : GraphNode} (hn : t.spec.node i = some n)
    (hi : i ∉ ids) : (launchReady env ids slots t).spec.node i = some n := by
  have hpending : ∀ id ∈ ids, ∀ m, t.spec.node id = some m → m.status = .pending := by
    intro id hid m hm
    obtain ⟨m', hm', hst⟩ := h.pending id hid
    rw [Option.some.inj (hm.symm.trans hm')]
    exact hst
  obtain ⟨new, heff⟩ := launchReady_effect env ids slots t h.nodup hpending
  obtain ⟨n', hn', -, hsame⟩ := heff.nodes i n hn
  by_cases heq : n' = n
  · rw [hn', heq]
  · exact absurd (hsame heq).1 hi

/-- When every launch fails, every node that was to be launched is blocked. -/
theorem launchReady_blocks (ids : List String) (slots : Nat) (t : Tick)
    (h : Launchable t.spec ids)
    (hfails : ∀ id ∈ ids, ∀ n, t.spec.node id = some n → n.launchFails (env id) t.spec = true)
    {i : String} (hi : i ∈ ids) :
    ∃ n, (launchReady env ids (slots + 1) t).spec.node i = some n ∧ n.status = .blocked := by
  induction ids generalizing t with
  | nil => exact absurd hi List.not_mem_nil
  | cons id ids ih =>
      obtain ⟨n, hn, -⟩ := h.pending id List.mem_cons_self
      obtain ⟨hid, -⟩ := List.nodup_cons.mp h.nodup
      obtain ⟨e, hlaunch⟩ := (launchNode_fails_iff hn t.shared).mpr
        (hfails id List.mem_cons_self n hn)
      have htail := @Launchable.tail _ _ _ h (·.launchFailed e) fun _ => rfl
      have hnode := @GraphSpec.modifyNode_node (·.launchFailed e) (fun _ => rfl) t.spec id
      rw [launchReady, hlaunch]
      rcases List.mem_cons.mp hi with rfl | hi
      · refine ⟨n.launchFailed e, launchReady_keeps ids _ _ htail ?_ hid, rfl⟩
        rw [hnode, if_pos rfl, hn]
        rfl
      · refine ih _ htail (fun j hj m hm => ?_) hi
        have hne : j ≠ id := fun heq => hid (heq ▸ hj)
        rw [hnode, if_neg hne] at hm
        exact hfails j (List.mem_cons_of_mem id hj) m hm

/-- When a launch succeeds, a node is at work. -/
theorem launchReady_starts (ids : List String) (slots : Nat) (t : Tick)
    (h : Launchable t.spec ids) {id : String} {n : GraphNode} (hid : id ∈ ids)
    (hn : t.spec.node id = some n) (hstarts : n.launchFails (env id) t.spec = false) :
    ∃ i m, (launchReady env ids (slots + 1) t).spec.node i = some m ∧ m.status = .running := by
  induction ids generalizing t n with
  | nil => exact absurd hid List.not_mem_nil
  | cons first ids ih =>
      obtain ⟨hfirst, -⟩ := List.nodup_cons.mp h.nodup
      obtain ⟨n₀, hn₀, -⟩ := h.pending first List.mem_cons_self
      rw [launchReady]
      cases hlaunch : launchNode (env first) t.spec first t.shared with
      | ok launched =>
          obtain ⟨spec, shared⟩ := launched
          obtain ⟨branch, worktree, rfl, -⟩ := launchNode_ok hlaunch
          let launch := fun n : GraphNode => n.launched t.shared.nextUuid branch worktree
          have htail := @Launchable.tail _ _ _ h launch fun _ => rfl
          refine ⟨first, launch n₀, launchReady_keeps ids _ _ htail ?_ hfirst, rfl⟩
          have hnode := @GraphSpec.modifyNode_node launch (fun _ => rfl) t.spec first first
          exact hnode.trans (by rw [if_pos rfl, hn₀]; rfl)
      | error e =>
          rcases List.mem_cons.mp hid with rfl | hid
          · have hfails := (launchNode_fails_iff hn t.shared).mp ⟨e, hlaunch⟩
            rw [hstarts] at hfails
            cases hfails
          · have hne : id ≠ first := fun heq => hfirst (heq ▸ hid)
            refine ih _ (h.tail fun _ => rfl) hid ?_ hstarts
            have hnode := @GraphSpec.modifyNode_node (·.launchFailed e) (fun _ => rfl) t.spec first id
            exact hnode.trans (by rw [if_neg hne, hn])

end Launches

/-! ## §3. The sync. -/

section Sync

variable {goals : GoalRegistry} {s : GraphSpec} {git : GitOutcome} {n : GraphNode}

/-- What the sync makes of a node, with the finishing that may follow. -/
theorem GraphNode.synced_cases (goals : GoalRegistry) (s : GraphSpec) (git : GitOutcome)
    (n : GraphNode) :
    (n.status ≠ .running ∧ n.synced goals s git = n) ∨
    (n.status = .running ∧ n.run goals = none ∧
      (n.synced goals s git).status = .interrupted) ∨
    (n.status = .running ∧ ∃ run, n.run goals = some run ∧
      ((run.status = .done ∧ (n.synced goals s git).status = n.doneStatus s git) ∨
       (∃ d, run.status = .blocked d ∧ (n.synced goals s git).status = .blocked) ∨
       (run.status.isTerminal = false ∧ (n.synced goals s git).status = .running))) := by
  rcases n.sync_cases goals s.reviewIterations with
    ⟨hno, h⟩ | ⟨hst, hnone, d, h⟩ | ⟨hst, run, hrun, hcase⟩
  · refine .inl ⟨hno, ?_⟩
    unfold GraphNode.synced
    rw [h]
    rfl
  · refine .inr (.inl ⟨hst, hnone, ?_⟩)
    unfold GraphNode.synced
    rw [h]
    rfl
  · refine .inr (.inr ⟨hst, run, hrun, ?_⟩)
    rcases hcase with ⟨hdone, -, -⟩ | ⟨hdone, -, -⟩ | ⟨d, hd, h⟩ | ⟨hterm, h⟩
    · exact .inl ⟨hdone, GraphNode.synced_done s git hst hrun hdone⟩
    · exact .inl ⟨hdone, GraphNode.synced_done s git hst hrun hdone⟩
    · refine .inr (.inl ⟨d, hd, ?_⟩)
      unfold GraphNode.synced
      rw [h]
      rfl
    · refine .inr (.inr ⟨hterm, ?_⟩)
      rw [GraphNode.synced_working s git hst hrun hterm]
      exact hst

theorem GraphNode.synced_id (goals : GoalRegistry) (s : GraphSpec) (git : GitOutcome)
    (n : GraphNode) : (n.synced goals s git).id = n.id := by
  unfold GraphNode.synced
  dsimp only
  split_ifs
  · rw [GraphNode.finish_id, GraphNode.sync_id]
  · exact n.sync_id goals s.reviewIterations

theorem GraphNode.doneStatus_cases (s : GraphSpec) (git : GitOutcome) (n : GraphNode) :
    (s.reviewIterations = true ∧ n.doneStatus s git = .review) ∨
    (s.reviewIterations = false ∧ n.mergeRefused s.ownDir git = true ∧
      n.doneStatus s git = .blocked) ∨
    (s.reviewIterations = false ∧ n.mergeRefused s.ownDir git = false ∧
      n.doneStatus s git = .done) := by
  unfold GraphNode.doneStatus
  cases s.reviewIterations <;> cases n.mergeRefused s.ownDir git <;> simp

theorem GraphNode.synced_active_iff :
    (n.synced goals s git).status.isActive = true ↔ n.StaysActive goals s := by
  unfold GraphNode.StaysActive
  rcases n.synced_cases goals s git with ⟨hno, h⟩ | ⟨hst, hnone, h⟩ | ⟨hst, run, hrun, hcase⟩
  · rw [h]
    cases hstatus : n.status <;> simp_all [NodeState.isActive]
  · rw [h, hst, hnone]
    simp [NodeState.isActive]
  · rw [hst, hrun]
    rcases hcase with ⟨hdone, h⟩ | ⟨d, hd, h⟩ | ⟨hterm, h⟩
    · rw [h]
      rcases n.doneStatus_cases s git with ⟨hreview, h⟩ | ⟨hreview, -, h⟩ | ⟨hreview, -, h⟩
      · simp [h, hreview, hdone, NodeState.isActive]
      · simp [h, hreview, hdone, NodeState.isActive]
      · simp [h, hreview, hdone, NodeState.isActive]
    · simp [h, hd, NodeState.isActive]
    · simp [h, hterm, NodeState.isActive]

theorem GraphNode.synced_done_iff :
    (n.synced goals s git).status = .done ↔ n.BecomesDone goals s git := by
  unfold GraphNode.BecomesDone
  rcases n.synced_cases goals s git with ⟨hno, h⟩ | ⟨hst, hnone, h⟩ | ⟨hst, run, hrun, hcase⟩
  · rw [h]
    simp [hno]
  · rw [h, hst, hnone]
    simp
  · rw [hst, hrun]
    rcases hcase with ⟨hdone, h⟩ | ⟨d, hd, h⟩ | ⟨hterm, h⟩
    · rw [h]
      rcases n.doneStatus_cases s git with ⟨hreview, h⟩ | ⟨hreview, hmerge, h⟩ | ⟨hreview, hmerge, h⟩
      · simp [h, hreview]
      · simp [h, hmerge]
      · simp [h, hreview, hmerge, hdone]
    · simp [h, hd]
    · have hopen : run.status ≠ .done := by
        intro hdone
        rw [hdone] at hterm
        exact nomatch hterm
      simp [h, hopen]

/-- Only a pending node is pending after the sync, and it is the same node. -/
theorem GraphNode.synced_pending (h : n.status = .pending) : n.synced goals s git = n := by
  rcases n.synced_cases goals s git with ⟨-, hsame⟩ | ⟨hst, -⟩ | ⟨hst, -⟩
  · exact hsame
  · rw [h] at hst
    exact nomatch hst
  · rw [h] at hst
    exact nomatch hst

theorem GraphNode.synced_pending_iff :
    (n.synced goals s git).status = .pending ↔ n.status = .pending := by
  constructor
  · intro h
    rcases n.synced_cases goals s git with ⟨-, hsame⟩ | ⟨-, -, hst⟩ | ⟨-, run, -, hcase⟩
    · rwa [hsame] at h
    · rw [hst] at h
      exact nomatch h
    · rcases hcase with ⟨-, hst⟩ | ⟨d, -, hst⟩ | ⟨-, hst⟩
      · rw [hst] at h
        rcases n.doneStatus_cases s git with ⟨-, hd⟩ | ⟨-, -, hd⟩ | ⟨-, -, hd⟩
        all_goals
          rw [hd] at h
          exact nomatch h
      · rw [hst] at h
        exact nomatch h
      · rw [hst] at h
        exact nomatch h
  · intro h
    rw [GraphNode.synced_pending h]
    exact h

/-- **The nodes after the sync.** -/
theorem syncNodeStates_mem (goals : GoalRegistry) (git : String → GitOutcome) (hnd : s.ids.Nodup)
    {m : GraphNode} : m ∈ (syncNodeStates goals git s).nodes ↔
      ∃ n ∈ s.nodes, n.id = m.id ∧ n.synced goals s (git n.id) = m := by
  have hnd' : (syncNodeStates goals git s).ids.Nodup := (syncNodeStates_frame goals git s).ids ▸ hnd
  have hfind : m ∈ (syncNodeStates goals git s).nodes ↔
      (syncNodeStates goals git s).node m.id = some m := by
    rw [GraphSpec.node_eq_some hnd']
    simp
  rw [hfind, syncNodeStates_node goals git hnd, Option.map_eq_some_iff]
  constructor
  · rintro ⟨n, hn, hsync⟩
    have hid := GraphSpec.node_id hn
    exact ⟨n, GraphSpec.node_mem hn, hid, by rw [hid]; exact hsync⟩
  · rintro ⟨n, hn, hid, hsync⟩
    exact ⟨n, (GraphSpec.node_eq_some hnd).mpr ⟨hn, hid⟩, by rw [← hid]; exact hsync⟩

theorem finishAll_runner (goals : GoalRegistry) (git : String → GitOutcome) (ids : List String)
    (s : GraphSpec) : (finishAll goals git s ids).runner = s.runner := by
  induction ids generalizing s with
  | nil => rfl
  | cons id ids ih => exact ih (finishNode goals (git id) s id)

theorem syncNodeStates_runner (goals : GoalRegistry) (git : String → GitOutcome) (s : GraphSpec) :
    (syncNodeStates goals git s).runner = s.runner := by
  rw [syncNodeStates_eq, finishAll_runner]
  rfl

/-- The sync does not decide whether a launch fails. -/
theorem launchFails_synced (env : LaunchEnv) (goals : GoalRegistry) (git : String → GitOutcome)
    (s : GraphSpec) (n : GraphNode) :
    n.launchFails env (syncNodeStates goals git s) = n.launchFails env s := by
  unfold GraphNode.launchFails
  rw [(syncNodeStates_frame goals git s).useWorktrees, syncNodeStates_runner]

end Sync

/-! ## §4. The tick. -/

section Tick

variable {env : TickEnv} {s : GraphSpec} {shared : Shared}

theorem activeCount_eq_zero_iff : s.activeCount = 0 ↔ ∀ n ∈ s.nodes, n.status.isActive = false := by
  unfold GraphSpec.activeCount
  rw [List.countP_eq_zero]
  simp

theorem ready_iff {doneIds : List String} {n : GraphNode} :
    n.ready doneIds = true ↔ n.status = .pending ∧ ∀ d ∈ n.deps, d ∈ doneIds := by
  simp [GraphNode.ready]

theorem mem_readyIds_iff (hnd : s.ids.Nodup) {n : GraphNode} (hn : n ∈ s.nodes) :
    n.id ∈ s.readyIds ↔ n.ready s.doneIds = true := by
  unfold GraphSpec.readyIds
  constructor
  · intro h
    obtain ⟨m, hm, hid⟩ := List.mem_map.mp h
    obtain ⟨hmem, hready⟩ := List.mem_filter.mp hm
    have hsame : s.node n.id = some m := (GraphSpec.node_eq_some hnd).mpr ⟨hmem, hid⟩
    rw [(GraphSpec.node_eq_some hnd).mpr ⟨hn, rfl⟩] at hsame
    rw [Option.some.inj hsame]
    exact hready
  · intro h
    exact List.mem_map_of_mem (List.mem_filter.mpr ⟨hn, h⟩)

theorem readyIds_launchable (hnd : s.ids.Nodup) : Launchable s s.readyIds where
  nodup := hnd.sublist (List.filter_sublist.map _)
  pending id hid := by
    obtain ⟨n, hn, hst, -⟩ := mem_readyIds hnd hid
    exact ⟨n, hn, hst⟩

/-- The graph after the launches. -/
def GraphSpec.afterLaunches (env : TickEnv) (s : GraphSpec) (shared : Shared) : GraphSpec :=
  (launchReady env.launch s.readyIds (s.maxConcurrency - s.activeCount) ⟨s, shared, []⟩).spec

theorem afterLaunches_ids (env : TickEnv) (shared : Shared) (hnd : s.ids.Nodup) :
    (s.afterLaunches env shared).ids = s.ids := by
  have hlaunchable := readyIds_launchable hnd
  obtain ⟨new, heff⟩ := launchReady_effect env.launch s.readyIds (s.maxConcurrency - s.activeCount)
    ⟨s, shared, []⟩ hlaunchable.nodup fun id hid m hm => by
      obtain ⟨m', hm', hst⟩ := hlaunchable.pending id hid
      rw [Option.some.inj (hm.symm.trans hm')]
      exact hst
  exact heff.frame.ids

/-- A node that is not ready is as it was. -/
theorem afterLaunches_keeps (env : TickEnv) (shared : Shared) (hnd : s.ids.Nodup) {n : GraphNode}
    (hn : n ∈ s.nodes) (hready : n.ready s.doneIds = false) :
    n ∈ (s.afterLaunches env shared).nodes := by
  have hnode : s.node n.id = some n := (GraphSpec.node_eq_some hnd).mpr ⟨hn, rfl⟩
  refine GraphSpec.node_mem (launchReady_keeps s.readyIds _ ⟨s, shared, []⟩
    (readyIds_launchable hnd) hnode fun hid => ?_)
  rw [(mem_readyIds_iff hnd hn).mp hid] at hready
  exact nomatch hready

/-- Every other node of the graph was ready. -/
theorem afterLaunches_mem (hnd : s.ids.Nodup) {m : GraphNode}
    (hm : m ∈ (s.afterLaunches env shared).nodes) :
    ∃ n ∈ s.nodes, n.id = m.id ∧ (m = n ∨ n.ready s.doneIds = true) := by
  have hids := afterLaunches_ids env shared hnd
  have hmem : m.id ∈ s.ids := hids ▸ List.mem_map_of_mem hm
  obtain ⟨n, hn, hid⟩ := List.mem_map.mp hmem
  refine ⟨n, hn, hid, ?_⟩
  cases hready : n.ready s.doneIds with
  | true => exact .inr rfl
  | false =>
      have hkept := afterLaunches_keeps env shared hnd hn hready
      have hnd' : (s.afterLaunches env shared).ids.Nodup := hids ▸ hnd
      have hfound := (GraphSpec.node_eq_some hnd').mpr ⟨hm, rfl⟩
      rw [(GraphSpec.node_eq_some hnd').mpr ⟨hkept, hid⟩] at hfound
      exact .inl (Option.some.inj hfound).symm

/-- Some node is at work, or it is pending and stays so or is launched. -/
def GraphSpec.GoesOn (env : TickEnv) (s : GraphSpec) : Prop :=
  (∃ n ∈ s.nodes, n.status.isActive = true) ∨ ∃ n ∈ s.nodes, n.status = .pending ∧
    ¬ (0 < s.maxConcurrency ∧ n.launchFails (env.launch n.id) s = true ∧
      ∀ d ∈ n.deps, d ∈ s.doneIds)

theorem afterLaunches_waiting (hnd : s.ids.Nodup) (h : s.GoesOn env) :
    ∃ m ∈ (s.afterLaunches env shared).nodes, m.status.isActive = true ∨ m.status = .pending := by
  by_cases hactive : ∃ n ∈ s.nodes, n.status.isActive = true
  · obtain ⟨n, hn, hst⟩ := hactive
    refine ⟨n, afterLaunches_keeps env shared hnd hn ?_, .inl hst⟩
    rw [Bool.eq_false_iff]
    intro hready
    rw [(ready_iff.mp hready).1] at hst
    exact nomatch hst
  · obtain ⟨n, hn, hpending, hnot⟩ := h.resolve_left hactive
    cases hready : n.ready s.doneIds with
    | false => exact ⟨n, afterLaunches_keeps env shared hnd hn hready, .inr hpending⟩
    | true =>
        have hnone : s.activeCount = 0 := by
          rw [activeCount_eq_zero_iff]
          intro m hm
          rw [Bool.eq_false_iff]
          exact fun hst => hactive ⟨m, hm, hst⟩
        cases hslots : s.maxConcurrency with
        | zero =>
            -- without a slot nothing is launched
            refine ⟨n, ?_, .inr hpending⟩
            unfold GraphSpec.afterLaunches
            rw [hslots, hnone]
            cases s.readyIds <;> exact hn
        | succ slots =>
            have hstarts : n.launchFails (env.launch n.id) s = false := by
              rw [Bool.eq_false_iff]
              exact fun hfails => hnot ⟨hslots ▸ Nat.succ_pos _, hfails, (ready_iff.mp hready).2⟩
            have hnode : s.node n.id = some n := (GraphSpec.node_eq_some hnd).mpr ⟨hn, rfl⟩
            obtain ⟨i, m, hm, hst⟩ := @launchReady_starts env.launch s.readyIds slots
              ⟨s, shared, []⟩ (readyIds_launchable hnd) n.id n
              ((mem_readyIds_iff hnd hn).mpr hready) hnode hstarts
            refine ⟨m, ?_, .inl (by rw [hst]; rfl)⟩
            unfold GraphSpec.afterLaunches
            rw [hslots, hnone]
            exact GraphSpec.node_mem hm

theorem goesOn_of_waiting (hnd : s.ids.Nodup) {m : GraphNode}
    (hm : m ∈ (s.afterLaunches env shared).nodes)
    (hwaiting : m.status.isActive = true ∨ m.status = .pending) : s.GoesOn env := by
  by_contra hnot
  unfold GraphSpec.GoesOn at hnot
  push Not at hnot
  obtain ⟨hinactive, hpending⟩ := hnot
  have hnone : s.activeCount = 0 := by
    rw [activeCount_eq_zero_iff]
    intro n hn
    rw [Bool.eq_false_iff]
    exact hinactive n hn
  obtain ⟨n, hn, hid, hcase⟩ := afterLaunches_mem hnd hm
  have hready : n.ready s.doneIds = true := by
    rcases hcase with rfl | hready
    · rcases hwaiting with hactive | hst
      · exact absurd hactive (hinactive m hn)
      · exact ready_iff.mpr ⟨hst, (hpending m hn hst).2.2⟩
    · exact hready
  -- the node was launched, and its launch has failed
  obtain ⟨slots, hslots⟩ := Nat.exists_eq_succ_of_ne_zero
    (Nat.ne_of_gt (hpending n hn (ready_iff.mp hready).1).1)
  have hfails : ∀ id ∈ s.readyIds, ∀ n', s.node id = some n' →
      n'.launchFails (env.launch id) s = true := by
    intro id hid n' hn'
    obtain ⟨n'', hn'', hst, -⟩ := mem_readyIds hnd hid
    obtain rfl := Option.some.inj (hn'.symm.trans hn'')
    rw [← GraphSpec.node_id hn']
    exact (hpending n' (GraphSpec.node_mem hn') hst).2.1
  obtain ⟨m', hm', hblocked⟩ := @launchReady_blocks env.launch s.readyIds slots
    ⟨s, shared, []⟩ (readyIds_launchable hnd) hfails n.id ((mem_readyIds_iff hnd hn).mpr hready)
  have hafter : (s.afterLaunches env shared).node n.id = some m' := by
    unfold GraphSpec.afterLaunches
    rw [hslots, hnone]
    exact hm'
  have hnd' : (s.afterLaunches env shared).ids.Nodup := (afterLaunches_ids env shared hnd) ▸ hnd
  have hfound := (GraphSpec.node_eq_some hnd').mpr ⟨hm, hid.symm⟩
  obtain rfl := Option.some.inj (hafter.symm.trans hfound)
  rw [hblocked] at hwaiting
  simp [NodeState.isActive] at hwaiting

theorem stalled_iff {doneIds : List String} {t : GraphSpec} :
    stalled doneIds t = true ↔
      (∃ n ∈ t.nodes, n.status.isActive = true ∨ n.status = .pending) ∧
        ¬ ((∃ n ∈ t.nodes, n.ready doneIds = true) ∨ ∃ n ∈ t.nodes, n.status.isActive = true) := by
  simp [stalled]

/-- What was done before the launches is done after them. -/
theorem done_afterLaunches (hnd : s.ids.Nodup) {d : String} (hd : d ∈ s.doneIds) :
    ∃ m ∈ (s.afterLaunches env shared).nodes, m.id = d ∧ m.status = .done := by
  obtain ⟨n, hn, hst⟩ := (mem_doneIds hnd).mp hd
  refine ⟨n, afterLaunches_keeps env shared hnd (GraphSpec.node_mem hn) ?_,
    GraphSpec.node_id hn, hst⟩
  rw [Bool.eq_false_iff]
  intro hready
  exact nomatch hst.symm.trans (ready_iff.mp hready).1

/-- After the sync the tick leaves a graph that can go on exactly when everything is
done or something waits. -/
theorem scheduleSynced_canProgress_iff (env : TickEnv) (shared : Shared) (hnd : s.ids.Nodup)
    (hrunning : s.status = .running) : (scheduleSynced env s shared).spec.CanProgress ↔
      (∀ n ∈ s.nodes, n.status = .done) ∨ s.GoesOn env := by
  by_cases hdone : ∀ n ∈ s.nodes, n.status = .done
  · have hall : s.nodes.all (·.status = .done) = true := by simpa using hdone
    unfold scheduleSynced
    rw [if_pos hall]
    exact iff_of_true (.inl (.inl rfl)) (.inl hdone)
  · have hall : ¬ s.nodes.all (·.status = .done) = true := by simpa using hdone
    have hspec : (scheduleSynced env s shared).spec =
        if stalled s.doneIds (s.afterLaunches env shared) then
          { s.afterLaunches env shared with status := .paused }
        else s.afterLaunches env shared := by
      unfold scheduleSynced GraphSpec.afterLaunches
      rw [if_neg hall]
      dsimp only
      split_ifs <;> rfl
    rw [hspec, or_iff_right hdone]
    have hstatus : (s.afterLaunches env shared).status = .running := by
      unfold GraphSpec.afterLaunches
      rw [launchReady_status]
      exact hrunning
    constructor
    · intro hprogress
      cases hstalled : stalled s.doneIds (s.afterLaunches env shared) with
      | true =>
          obtain ⟨⟨m, hm, hwaiting⟩, -⟩ := stalled_iff.mp hstalled
          exact goesOn_of_waiting hnd hm hwaiting
      | false =>
          rw [hstalled, if_neg Bool.false_ne_true] at hprogress
          rcases hprogress with (hst | hst) | ⟨m, hm, hst⟩ | ⟨m, hm, hst, -⟩
          · rw [hstatus] at hst
            exact nomatch hst
          · rw [hstatus] at hst
            exact nomatch hst
          · exact goesOn_of_waiting hnd hm (.inl hst)
          · exact goesOn_of_waiting hnd hm (.inr hst)
    · intro hgoes
      have hwaiting := @afterLaunches_waiting env s shared hnd hgoes
      cases hstalled : stalled s.doneIds (s.afterLaunches env shared) with
      | true =>
          rw [if_pos rfl]
          exact .inl (.inr rfl)
      | false =>
          rw [if_neg Bool.false_ne_true]
          have hnot := mt stalled_iff.mpr (Bool.eq_false_iff.mp hstalled)
          rcases not_not.mp (fun h => hnot ⟨hwaiting, h⟩) with ⟨m, hm, hready⟩ | hactive
          · obtain ⟨hst, hdeps⟩ := ready_iff.mp hready
            exact .inr (.inr ⟨m, hm, hst, fun d hd => done_afterLaunches hnd (hdeps d hd)⟩)
          · exact .inr (.inl hactive)

/-- The node is done after the sync. -/
theorem mem_doneIds_synced (hnd : s.ids.Nodup) {d : String} :
    d ∈ (syncNodeStates shared.goals env.git s).doneIds ↔
      ∃ m ∈ s.nodes, m.id = d ∧ m.BecomesDone shared.goals s (env.git m.id) := by
  unfold GraphSpec.doneIds
  simp only [List.mem_map, List.mem_filter, decide_eq_true_eq]
  constructor
  · rintro ⟨m, ⟨hm, hst⟩, hid⟩
    obtain ⟨n, hn, hnid, rfl⟩ := (syncNodeStates_mem shared.goals env.git hnd).mp hm
    exact ⟨n, hn, hnid.trans hid, GraphNode.synced_done_iff.mp hst⟩
  · rintro ⟨n, hn, hid, hdone⟩
    have hsid := n.synced_id shared.goals s (env.git n.id)
    exact ⟨_, ⟨(syncNodeStates_mem shared.goals env.git hnd).mpr ⟨n, hn, hsid.symm, rfl⟩,
      GraphNode.synced_done_iff.mpr hdone⟩, hsid.trans hid⟩

/-- In the words of the graph before the tick. -/
theorem goesOn_synced_iff (hnd : s.ids.Nodup) :
    (syncNodeStates shared.goals env.git s).GoesOn env ↔
      (∃ n ∈ s.nodes, n.StaysActive shared.goals s) ∨ ∃ n ∈ s.nodes, n.status = .pending ∧
        ¬ (0 < s.maxConcurrency ∧ n.launchFails (env.launch n.id) s = true ∧
          ∀ d ∈ n.deps, ∃ m ∈ s.nodes, m.id = d ∧
            m.BecomesDone shared.goals s (env.git m.id)) := by
  unfold GraphSpec.GoesOn
  simp only [launchFails_synced, mem_doneIds_synced hnd,
    (syncNodeStates_frame shared.goals env.git s).maxConcurrency]
  constructor
  · rintro (⟨m, hm, hst⟩ | ⟨m, hm, hst, hnot⟩)
    · obtain ⟨n, hn, -, rfl⟩ := (syncNodeStates_mem shared.goals env.git hnd).mp hm
      exact .inl ⟨n, hn, GraphNode.synced_active_iff.mp hst⟩
    · obtain ⟨n, hn, -, rfl⟩ := (syncNodeStates_mem shared.goals env.git hnd).mp hm
      have hpending := GraphNode.synced_pending_iff.mp hst
      rw [GraphNode.synced_pending hpending] at hnot
      exact .inr ⟨n, hn, hpending, hnot⟩
  · have hmem : ∀ n ∈ s.nodes, n.synced shared.goals s (env.git n.id) ∈
        (syncNodeStates shared.goals env.git s).nodes := fun n hn =>
      (syncNodeStates_mem shared.goals env.git hnd).mpr ⟨n, hn, (n.synced_id _ _ _).symm, rfl⟩
    rintro (⟨n, hn, hst⟩ | ⟨n, hn, hpending, hnot⟩)
    · exact .inl ⟨_, hmem n hn, GraphNode.synced_active_iff.mpr hst⟩
    · have hsame := hmem n hn
      rw [GraphNode.synced_pending hpending] at hsame
      exact .inr ⟨n, hsame, hpending, hnot⟩

theorem tickRunning_canProgress_iff (env : TickEnv) (shared : Shared) (hnd : s.ids.Nodup)
    (hnodes : s.nodes ≠ []) (hrunning : s.status = .running) :
    (tickRunning env s shared).spec.CanProgress ↔ ¬ s.Stuck env shared.goals := by
  have hnd' : (syncNodeStates shared.goals env.git s).ids.Nodup :=
    (syncNodeStates_frame shared.goals env.git s).ids ▸ hnd
  unfold tickRunning
  rw [if_neg hnodes, scheduleSynced_canProgress_iff env shared hnd'
    ((syncNodeStates_status shared.goals env.git s).trans hrunning), goesOn_synced_iff hnd]
  have hdone : (∀ m ∈ (syncNodeStates shared.goals env.git s).nodes, m.status = .done) ↔
      ∀ n ∈ s.nodes, n.BecomesDone shared.goals s (env.git n.id) := by
    constructor
    · intro h n hn
      refine GraphNode.synced_done_iff.mp (h _ ?_)
      exact (syncNodeStates_mem shared.goals env.git hnd).mpr ⟨n, hn, (n.synced_id _ _ _).symm, rfl⟩
    · intro h m hm
      obtain ⟨n, hn, -, rfl⟩ := (syncNodeStates_mem shared.goals env.git hnd).mp hm
      exact GraphNode.synced_done_iff.mpr (h n hn)
  rw [hdone]
  constructor
  · rintro (hall | ⟨n, hn, hst⟩ | ⟨n, hn, hpending, hnot⟩) hstuck
    · obtain ⟨n, hn, hopen⟩ := hstuck.unfinished
      exact hopen (hall n hn)
    · exact hstuck.inactive n hn hst
    · exact hnot (hstuck.refused n hn hpending)
  · intro hnot
    by_contra hneither
    push Not at hneither
    obtain ⟨hopen, hinactive, hrefused⟩ := hneither
    exact hnot ⟨hopen, hinactive, fun n hn hpending => hrefused n hn hpending⟩

end Tick

/-- **A tick leaves a graph that can go on** exactly when it is not stuck. -/
theorem tick_canProgress_iff (env : TickEnv) {s : GraphSpec} (shared : Shared) (hnd : s.ids.Nodup)
    (hnodes : s.nodes ≠ []) (hrunning : s.status = .running) :
    (tickRunning env s shared).spec.CanProgress ↔ ¬ s.Stuck env shared.goals :=
  tickRunning_canProgress_iff env shared hnd hnodes hrunning

/-- A graph of one node, whose agent could not finish. -/
def blockedGraph : GraphSpec :=
  { name := "site"
    baseCwd := "/repo"
    status := .running
    nodes := [{ id := "map", status := .blocked, detail := some "the agent could not finish" }] }

theorem blockedGraph_stuck : blockedGraph.Stuck {} ∅ where
  unfinished := ⟨_, List.mem_cons_self, by simp [GraphNode.BecomesDone, blockedGraph]⟩
  inactive n hn := by
    obtain rfl := List.mem_singleton.mp hn
    simp [GraphNode.StaysActive]
  refused n hn hpending := by
    obtain rfl := List.mem_singleton.mp hn
    exact nomatch hpending

/-- With a second node that can be launched it would go on. -/
theorem tick_canProgress_pending :
    ({ blockedGraph with nodes := [{ id := "map" }] }).ids.Nodup ∧
    ((tickRunning {} { blockedGraph with nodes := [{ id := "map" }] } {}).spec.CanProgress ↔
      ¬ ({ blockedGraph with nodes := [{ id := "map" }] }).Stuck {} ∅) :=
  ⟨by decide, tick_canProgress_iff {} {} (by decide) (by simp) rfl⟩

/-- The graph is neither finished nor paused, and nothing in it can move. -/
theorem blocked_graph_hangs : ¬ ∀ (env : TickEnv) (s : GraphSpec) (shared : Shared),
    s.ids.Nodup → s.nodes ≠ [] → s.Acyclic → s.status = .running →
    (tickRunning env s shared).spec.CanProgress := by
  intro h
  have hacyclic : blockedGraph.Acyclic := by
    refine ⟨fun _ => 0, fun n hn d hd => ?_⟩
    obtain rfl := List.mem_singleton.mp hn
    exact absurd hd List.not_mem_nil
  have hprogress := h {} blockedGraph {} (by decide) (by simp [blockedGraph]) hacyclic rfl
  exact (tickRunning_canProgress_iff {} {} (by decide) (by simp [blockedGraph]) rfl).mp hprogress
    blockedGraph_stuck

end Jmux.Goal
