/-
  Jmux.Goal.Revive — what `goal.continue` does to a graph node.

  `goal.continue` advances the run and then, in `continue_node`, takes a node
  under review back to running.  A running node just stays running.  A blocked
  node stays blocked, and the sync does not look at it again.

  Main results:
    * `goalContinue_eq`       — a successful `goal.continue`, computed.
    * `step_keeps_running`    — what a running node survives.
    * `syncNodeStates_done`   — the sync of a running node whose run is done.
    * `continue_revives`      — a continued node runs, and its run's completion
                                 finishes it.
    * `continue_leaves_blocked` — a continued run whose node stays blocked.
-/
import Jmux.Goal.Advance

namespace Jmux.Goal

open Jmux.Lib

/-! ## §1. The request. -/

/-- The critical sections of a `goal.continue` on thread `t` whose prompt goes out. -/
def goalContinue (t : Nat) (ws : Uuid) (env : AdvanceEnv) : List Act :=
  [.thread t (.continueBegin ws env), .thread t (.advanceSend true), .thread t .advanceWrite,
   .thread t .continueRead, .thread t .continueFinish]

theorem continueBegin_eq {w w' : World} {t : Nat} {ws : Uuid} {env : AdvanceEnv}
    (h : w.step (.thread t (.continueBegin ws env)) = some w') :
    t ≠ 0 ∧ w.threads t = .idle ∧ (w' = w ∨ ∃ run, w.shared.goals.lookup ws = some run ∧
      w' = w.setThread t (.advancing ws run)) := by
  dsimp only [World.step, World.threadStep] at h
  split at h
  · cases h
  next hfree =>
    have hidle : t ≠ 0 ∧ w.threads t = .idle := by
      unfold World.free at hfree
      simpa using hfree
    refine ⟨hidle.1, hidle.2, ?_⟩
    split at h
    · exact .inl (Option.some.inj h).symm
    next run hrun => exact .inr ⟨run, cloneForAdvance_some hrun, (Option.some.inj h).symm⟩

theorem advanceWrite_eq {w w' : World} {t : Nat} {ws : Uuid} {run : GoalRun} (ht : t ≠ 0)
    (h : w.step (.thread t .advanceWrite) = some w') (hsent : w.threads t = .sent ws run) :
    w' = (w.setGoals (beginIteration w.shared.goals ws (run.iteration + 1))).setThread t
      (.advanced ws) := by
  simp only [World.step, World.threadStep, hsent, if_neg ht] at h
  exact (Option.some.inj h).symm

theorem continueRead_eq {w w' : World} {t : Nat} {ws : Uuid} {link : GraphLink}
    (h : w.step (.thread t .continueRead) = some w') (hadv : w.threads t = .advanced ws)
    (hlink : linkOf w.shared.goals ws = some link) : w' = w.setThread t (.continuing link) := by
  simp only [World.step, World.threadStep, hadv, hlink] at h
  exact (Option.some.inj h).symm

theorem continueFinish_eq {w w' : World} {t : Nat} {link : GraphLink}
    (h : w.step (.thread t .continueFinish) = some w') (hcont : w.threads t = .continuing link) :
    w' = (w.editGraph link.graph fun s => .ok (continueSpec s link.node)).setThread t .idle := by
  simp only [World.step, World.threadStep, hcont] at h
  exact (Option.some.inj h).symm

/-- An edit of a graph reads nothing but the graphs. -/
theorem World.editGraph_graphs_congr {w w' : World} (name : String)
    (f : GraphSpec → Except String GraphSpec) (h : w'.graphs = w.graphs) :
    (w'.editGraph name f).graphs = (w.editGraph name f).graphs := by
  unfold World.editGraph
  rw [h]
  split
  · exact h
  · split
    · exact h
    · rfl

/-- Beginning an iteration keeps the link of the run. -/
theorem linkOf_beginIteration {goals : GoalRegistry} {ws : Uuid} {run : GoalRun} {next : Nat}
    (h : goals.lookup ws = some run) : linkOf (beginIteration goals ws next) ws = run.graph := by
  unfold linkOf beginIteration
  rw [AList.lookup_modify, if_pos rfl, h]
  rfl

/-- **A successful `goal.continue`, computed**: the run begins its next iteration
and the linked node is continued. -/
theorem goalContinue_eq {w w' : World} {t : Nat} {ws : Uuid} {env : AdvanceEnv} {run : GoalRun}
    {link : GraphLink} (hrun : w.shared.goals.lookup ws = some run) (hlink : run.graph = some link)
    (hex : exec World.step w (goalContinue t ws env) = some w') :
    w'.shared.goals = beginIteration w.shared.goals ws (run.iteration + 1) ∧
      w'.graphs = (w.editGraph link.graph fun s => .ok (continueSpec s link.node)).graphs := by
  obtain ⟨w₁, h₁, hex⟩ := exec_cons.mp hex
  obtain ⟨w₂, h₂, hex⟩ := exec_cons.mp hex
  obtain ⟨w₃, h₃, hex⟩ := exec_cons.mp hex
  obtain ⟨w₄, h₄, hex⟩ := exec_cons.mp hex
  obtain ⟨w₅, h₅, hex⟩ := exec_cons.mp hex
  cases hex
  obtain ⟨ht, hidle, hbegin⟩ := continueBegin_eq h₁
  rcases hbegin with rfl | ⟨clone, hclone, rfl⟩
  · -- the guards have failed, so there is no prompt to send
    simp [World.step, World.threadStep, hidle] at h₂
  · obtain rfl : run = clone := Option.some.inj (hrun.symm.trans hclone)
    have hadv : (w.setThread t (.advancing ws run)).threads t = .advancing ws run := if_pos rfl
    -- the five steps of the request, one after the other
    obtain rfl := advanceSend_eq h₂ hadv
    obtain rfl := advanceWrite_eq ht h₃ (if_pos rfl)
    obtain rfl := continueRead_eq h₄ (if_pos rfl) ((linkOf_beginIteration hrun).trans hlink)
    obtain rfl := continueFinish_eq h₅ (if_pos rfl)
    exact ⟨congrArg Shared.goals (World.editGraph_frame _ _ _).1,
      World.editGraph_graphs_congr link.graph _ rfl⟩

/-! ## §2. What a running node survives. -/

/-- The step leaves a running node to its run: the graph and the program go on, a
tick of the graph finds the run registered and not finished, and no accept of a
run linked to the node settles it. -/
structure LeavesRunning (g id : String) (w : World) (a : Act) : Prop where
  life : SameLife g w a
  tick : ∀ env todo s, a = .driver (.process env) → w.driver = .scheduling (g :: todo) →
    w.graphs.lookup g = some s → s.status = .running →
    ∃ run, w.boundRun g id = some run ∧ run.status.isTerminal = false
  accept : ∀ t git, a = .thread t (.acceptFinish git) → w.threads t ≠ .accepting ⟨g, id⟩

/-- The node runs in workspace `ws`. -/
def World.RunsIn (w : World) (g id : String) (ws : Uuid) : Prop :=
  ∃ s n, w.graphs.lookup g = some s ∧ s.node id = some n ∧ n.status = .running ∧
    n.workspace = some ws

/-- The sync of a running node whose run is at work. -/
theorem GraphNode.synced_working {goals : GoalRegistry} (s : GraphSpec) (git : GitOutcome)
    {n : GraphNode} {run : GoalRun} (hst : n.status = .running) (hrun : n.run goals = some run)
    (hterm : run.status.isTerminal = false) :
    n.synced goals s git = { n with iteration := run.iteration } := by
  unfold GraphNode.synced
  rcases n.sync_cases goals s.reviewIterations with ⟨hno, _⟩ | ⟨_, hnone, _⟩ | ⟨_, r, hr, hcase⟩
  · exact absurd hst hno
  · rw [hrun] at hnone
    cases hnone
  · obtain rfl : run = r := Option.some.inj (hrun.symm.trans hr)
    rcases hcase with ⟨hd, _⟩ | ⟨hd, _⟩ | ⟨d, hd, _⟩ | ⟨_, h⟩
    · rw [hd] at hterm
      cases hterm
    · rw [hd] at hterm
      cases hterm
    · rw [hd] at hterm
      cases hterm
    · rw [h]
      rfl

/-- The status after the sync of a running node whose run is done. -/
def GraphNode.doneStatus (s : GraphSpec) (git : GitOutcome) (n : GraphNode) : NodeState :=
  if s.reviewIterations then .review
  else if n.mergeRefused s.ownDir git then .blocked else .done

/-- **The sync of a running node whose run is done**: up for review, or finished. -/
theorem GraphNode.synced_done {goals : GoalRegistry} (s : GraphSpec) (git : GitOutcome)
    {n : GraphNode} {run : GoalRun} (hst : n.status = .running) (hrun : n.run goals = some run)
    (hdone : run.status = .done) : (n.synced goals s git).status = n.doneStatus s git := by
  unfold GraphNode.synced GraphNode.doneStatus
  rcases n.sync_cases goals s.reviewIterations with ⟨hno, _⟩ | ⟨_, hnone, _⟩ | ⟨_, r, hr, hcase⟩
  · exact absurd hst hno
  · rw [hrun] at hnone
    cases hnone
  · obtain rfl : run = r := Option.some.inj (hrun.symm.trans hr)
    rcases hcase with ⟨_, hreview, h⟩ | ⟨_, hreview, h⟩ | ⟨d, hd, _⟩ | ⟨hterm, _⟩
    · rw [h, hreview]
      rfl
    · rw [h, hreview]
      dsimp only
      rw [if_pos rfl, if_neg Bool.false_ne_true]
      unfold GraphNode.finish
      rw [if_neg (by rw [hst]; decide), GraphNode.mergeBack_status]
      rfl
    · rw [hdone] at hd
      cases hd
    · rw [hdone] at hterm
      cases hterm

/-- The tick of a graph at work leaves a node alone whose run is at work. -/
theorem processGraph_running (env : TickEnv) {s : GraphSpec} {shared : Shared} (hw : s.WellFormed)
    (hs : s.status = .running) {id : String} {n : GraphNode} (hn : s.node id = some n)
    (hst : n.status = .running) {run : GoalRun} (hrun : n.run shared.goals = some run)
    (hterm : run.status.isTerminal = false) :
    (processGraph env s shared).spec.node id = some { n with iteration := run.iteration } := by
  have hne : s.nodes ≠ [] := List.ne_nil_of_mem (GraphSpec.node_mem hn)
  have hsynced : (syncNodeStates shared.goals env.git s).node id
      = some { n with iteration := run.iteration } := by
    rw [syncNodeStates_node shared.goals env.git hw.nodup id, hn,
      ← GraphNode.synced_working s (env.git id) hst hrun hterm]
    rfl
  have hnd : (syncNodeStates shared.goals env.git s).ids.Nodup :=
    (syncNodeStates_frame shared.goals env.git s).ids ▸ hw.nodup
  unfold processGraph tickRunning
  rw [hs]
  dsimp only
  rw [if_neg hne]
  refine scheduleSynced_node env shared hnd hsynced ?_
  show n.status ≠ .pending
  rw [hst]
  decide

/-- Resuming a graph leaves a running node alone. -/
theorem resumeGraph_running {goals : GoalRegistry} {git : String → GitOutcome} {s s' : GraphSpec}
    (hw : s.WellFormed) (h : resumeGraph goals git s = .ok s') {id : String} {n : GraphNode}
    (hn : s.node id = some n) (hst : n.status = .running) : s'.node id = some n := by
  obtain rfl := resumeGraph_ok h
  have hsame : n.resume = n := by
    rcases n.resume_cases with ⟨hi, _⟩ | ⟨_, hr⟩
    · exact absurd (hst.symm.trans hi) (by decide)
    · exact hr
  have hno : id ∉ s.mergeRetries := by
    intro hmem
    -- a running node is not blocked
    have hblocked := blocked_of_mem_mergeRetries hw.nodup hmem hn
    rw [hsame] at hblocked
    exact absurd (hst.symm.trans hblocked) (by decide)
  show (finishAll goals git s.resumeLoop s.mergeRetries).node id = some n
  rw [finishAll_node goals git _ _ (mergeRetries_nodup hw.nodup) id, if_neg hno, resumeLoop_node,
    hn, Option.map_some, hsame]

/-- Which steps can settle a node. -/
theorem settles_mem_moveKinds {a : Act} (h : MoveKind.settles ∈ moveKinds a) :
    (∃ g git, a = .request (.resume g git)) ∨ (∃ t git, a = .thread t (.acceptFinish git)) ∨
      ∃ env, a = .driver (.process env) := by
  unfold moveKinds at h
  split at h
  case h_1 g git => exact .inl ⟨g, git, rfl⟩
  case h_2 t git => exact .inr (.inl ⟨t, git, rfl⟩)
  case h_4 env => exact .inr (.inr ⟨env, rfl⟩)
  all_goals exact absurd h (by decide)

/-- An edit of one graph that leaves the node alone, if it is in that graph. -/
theorem World.editGraph_node {w : World} {g id : String} {s : GraphSpec} {n : GraphNode}
    (name : String) (f : GraphSpec → Except String GraphSpec)
    (hs : w.graphs.lookup g = some s) (hn : s.node id = some n)
    (hf : name = g → ∀ s', f s = .ok s' → s'.node id = some n) :
    ∃ s', (w.editGraph name f).graphs.lookup g = some s' ∧ s'.node id = some n := by
  rcases w.editGraph_eq name f with h | ⟨t, t', ht, hft, h⟩
  · rw [h]
    exact ⟨s, hs, hn⟩
  · rw [h]
    by_cases hg : g = name
    · subst hg
      obtain rfl : t = s := Option.some.inj (ht.symm.trans hs)
      exact ⟨t', AList.lookup_insert _, hf rfl t' hft⟩
    · exact ⟨s, (AList.lookup_insert_ne hg).trans hs, hn⟩

/-- A tick that finds the run at work leaves the node running. -/
theorem process_keeps_running {w w' : World} {env : TickEnv} {g id : String} {s s' : GraphSpec}
    {n n' : GraphNode} (hw : w.Wf) (h : w.step (.driver (.process env)) = some w')
    (hs : w.graphs.lookup g = some s) (hs' : w'.graphs.lookup g = some s')
    (hn : s.node id = some n) (hn' : s'.node id = some n') (hst : n.status = .running)
    (htick : ∀ todo, w.driver = .scheduling (g :: todo) → s.status = .running →
      ∃ run, w.boundRun g id = some run ∧ run.status.isTerminal = false) :
    n'.status = .running := by
  by_contra hne
  have hchanged : s' ≠ s := by
    rintro rfl
    obtain rfl : n = n' := Option.some.inj (hn.symm.trans hn')
    exact hne hst
  obtain ⟨⟨⟨todo, hturn⟩, _, _, _, _⟩, rfl⟩ := tickOf_of_changed h hs hs' hchanged
  have hrunning : s.status = .running := by
    by_contra hidle
    have hnil : s.nodes ≠ [] := List.ne_nil_of_mem (GraphSpec.node_mem hn)
    exact hchanged (processGraph_eq_of_idle env w.shared (hw.graphs g s hs) hnil hidle).1
  obtain ⟨run, hrun, hterm⟩ := htick todo hturn hrunning
  rw [World.boundRun_of_node hs hn] at hrun
  rw [processGraph_running env (hw.graphs g s hs) hrunning hn hst hrun hterm] at hn'
  cases hn'
  exact hne hst

/-- The accept of a run that is linked elsewhere leaves the node alone. -/
theorem acceptFinish_keeps_node {w w' : World} {t : Nat} {git : GitOutcome}
    (h : w.step (.thread t (.acceptFinish git)) = some w') {g id : String} {s : GraphSpec}
    {n : GraphNode} (hs : w.graphs.lookup g = some s) (hn : s.node id = some n)
    (hother : w.threads t ≠ .accepting ⟨g, id⟩) :
    ∃ s', w'.graphs.lookup g = some s' ∧ s'.node id = some n := by
  have hthread : w.threadStep t (.acceptFinish git) = some w' := h
  cases World.threadStep_turn hthread with
  | acceptFinish _ link hlink =>
      refine World.editGraph_node link.graph
        (fun s => .ok (finishNode w.shared.goals git s link.node)) hs hn fun hg t ht => ?_
      have hne : id ≠ link.node := by
        rintro rfl
        subst hg
        exact hother hlink
      cases ht
      unfold finishNode
      rw [GraphSpec.modifyNode_node fun m => m.finish_id _ _ _ _, if_neg hne]
      exact hn

/-- **A step that leaves the node to its run keeps it running.** -/
theorem step_keeps_running {w w' : World} {a : Act} {g id : String} {ws : Uuid} (hw : w.Wf)
    (h : w.step a = some w') (hok : LeavesRunning g id w a) (hruns : w.RunsIn g id ws) :
    w'.RunsIn g id ws := by
  obtain ⟨⟨hlife, hrestart⟩, htick, haccept⟩ := hok
  obtain ⟨s, n, hs, hn, hst, hws⟩ := hruns
  obtain ⟨s', n', hs', hn', _, k, hk, hmove⟩ := step_node hw h hs hn hlife
  have hprocess : ∀ env, a = .driver (.process env) → n'.status = .running := by
    rintro env rfl
    exact process_keeps_running hw h hs hs' hn hn' hst fun todo hturn hrunning =>
      htick env todo s rfl hturn hs hrunning
  -- a step that leaves the node alone does not settle it
  have hsame : (∃ s', w'.graphs.lookup g = some s' ∧ s'.node id = some n) →
      n'.status = .running := by
    rintro ⟨s₁, hs₁, hn₁⟩
    obtain rfl : s₁ = s' := Option.some.inj (hs₁.symm.trans hs')
    obtain rfl : n = n' := Option.some.inj (hn₁.symm.trans hn')
    exact hst
  cases k with
  | stays => exact ⟨s', n', hs', hn', hmove.1.trans hst, hmove.2.1.trans hws⟩
  | settles =>
      exfalso
      have hsettled : n'.status ≠ .running := by
        rcases hmove.2.1 with hd | hd <;> rw [hd] <;> decide
      rcases settles_mem_moveKinds hk with ⟨name, git, rfl⟩ | ⟨i, git, rfl⟩ | ⟨env, rfl⟩
      · cases h
        exact hsettled (hsame (World.editGraph_node name (resumeGraph w.shared.goals git) hs hn
          fun _ t ht => resumeGraph_running (hw.graphs g s hs) ht hn hst))
      · exact hsettled (hsame (acceptFinish_keeps_node h hs hn (haccept i git rfl)))
      · exact hsettled (hprocess env rfl)
  | lost =>
      obtain ⟨env, rfl⟩ := process_of_tick (.inr (.inl rfl)) hk
      exact absurd (hmove.2.2.1.symm.trans (hprocess env rfl)) (by decide)
  | reviewed =>
      obtain ⟨env, rfl⟩ := process_of_tick (.inr (.inr rfl)) hk
      exact absurd (hmove.2.2.1.symm.trans (hprocess env rfl)) (by decide)
  | resumed => exact absurd (hst.symm.trans hmove.1) (by decide)
  | continued => exact absurd (hst.symm.trans hmove.1) (by decide)
  | launched => exact absurd (hst.symm.trans (Launched.before hmove)) (by decide)
  | cut =>
      obtain ⟨unreadable, restored, rfl⟩ := restart_of_cut hk
      exact absurd rfl (hrestart unreadable restored)

/-! ## §3. The contract. -/

/-- What the sync of graph `s` does to node `id` when the run of the node is done:
the node is finished, or up for review; and once it is done, a pending node that
waited for it alone is ready. -/
def SyncFinishes (s : GraphSpec) (git : String → GitOutcome) (id : String) (s' : GraphSpec) :
    Prop :=
  ∃ n m, s.node id = some n ∧ s'.node id = some m ∧ m.status = n.doneStatus s (git id) ∧
    (m.status = .done → ∀ j d, s'.node j = some d → d.status = .pending →
      (∀ i ∈ d.deps, i = id ∨ s'.HasStatus i .done) → j ∈ s'.readyIds)

theorem syncNodeStates_done {goals : GoalRegistry} {s : GraphSpec} (git : String → GitOutcome)
    (hw : s.WellFormed) {id : String} {n : GraphNode} (hn : s.node id = some n)
    (hst : n.status = .running) {run : GoalRun} (hrun : n.run goals = some run)
    (hdone : run.status = .done) : SyncFinishes s git id (syncNodeStates goals git s) := by
  have hm : (syncNodeStates goals git s).node id = some (n.synced goals s (git id)) := by
    rw [syncNodeStates_node goals git hw.nodup id, hn]
    rfl
  have hnd : (syncNodeStates goals git s).ids.Nodup :=
    (syncNodeStates_frame goals git s).ids ▸ hw.nodup
  refine ⟨n, _, hn, hm, GraphNode.synced_done s (git id) hst hrun hdone, ?_⟩
  intro hmst j d hd hpend hdeps
  -- the node that is done now was the last one missing
  have hready : d.ready (syncNodeStates goals git s).doneIds = true := by
    unfold GraphNode.ready
    simp only [Bool.and_eq_true, decide_eq_true_eq, List.all_eq_true]
    refine ⟨hpend, fun i hi => (mem_doneIds hnd).mpr ?_⟩
    rcases hdeps i hi with rfl | hidone
    · exact ⟨_, hm, hmst⟩
    · exact hidone
  exact List.mem_map.mpr
    ⟨d, List.mem_filter.mpr ⟨GraphSpec.node_mem hd, hready⟩, GraphSpec.node_id hd⟩

/-- A continued node runs. -/
theorem goalContinue_runs {w w' : World} {t : Nat} {ws : Uuid} {env : AdvanceEnv} {g id : String}
    {s : GraphSpec} {n : GraphNode} {run : GoalRun} (hs : w.graphs.lookup g = some s)
    (hn : s.node id = some n) (hws : n.workspace = some ws)
    (hrun : w.shared.goals.lookup ws = some run) (hlink : run.graph = some ⟨g, id⟩)
    (hst : n.status = .review ∨ n.status = .running)
    (hex : exec World.step w (goalContinue t ws env) = some w') : w'.RunsIn g id ws := by
  obtain ⟨_, hgraphs⟩ := goalContinue_eq hrun hlink hex
  have hid : ∀ m : GraphNode, m.continued.id = m.id := by
    intro m
    unfold GraphNode.continued
    split <;> rfl
  refine ⟨continueSpec s id, n.continued, ?_, ?_, ?_, ?_⟩
  · rw [hgraphs]
    unfold World.editGraph
    rw [hs]
    exact AList.lookup_insert _
  · unfold continueSpec
    rw [GraphSpec.modifyNode_node hid, if_pos rfl, hn, Option.map_some]
  · unfold GraphNode.continued
    split
    · rfl
    next hno => exact hst.resolve_left hno
  · rw [← hws]
    unfold GraphNode.continued
    split <;> rfl

/-- The fields of a run's node that matter to a continue. -/
theorem World.node_of_fields {w : World} {g id : String} {st : NodeState} {ws : Uuid}
    (h : (((w.graphs.lookup g).bind (·.node id)).map fun n => (n.status, n.workspace))
      = some (st, some ws)) :
    ∃ s n, w.graphs.lookup g = some s ∧ s.node id = some n ∧ n.status = st ∧
      n.workspace = some ws := by
  obtain ⟨n, hn, hfields⟩ := Option.map_eq_some_iff.mp h
  obtain ⟨s, hs, hn⟩ := Option.bind_eq_some_iff.mp hn
  obtain ⟨hst, hws⟩ := Prod.mk.inj hfields
  exact ⟨s, n, hs, hn, hst, hws⟩

def doneFile : String := "---\nstatus: done\n---\n"

/-- Node `a` runs in workspace 1, its agent's file is read, and the graph ticks again. -/
def reportedRun (params : CreateParams) (file : String) : List Act :=
  startGraph "g" onePlan params ++
    [.driver .tick, .driver (.process {}), .driver .snapshot, .driver .purge, .driver .collect,
     .driver .clone, .driver (.evaluate { file := some file }), .driver (.write 0),
     .driver (.write 0), .driver .clone, .driver .tick, .driver (.process {})]

/-- In a graph that reviews iterations the finished node is up for review. -/
def reviewRun : List Act := reportedRun { reviewIterations := some true } doneFile

/-- With one iteration allowed, the node whose agent reports blocked is blocked. -/
def blockedRun : List Act := reportedRun { maxIterations := some 1 } "---\nstatus: blocked\n---\n"

def continueA : List Act := goalContinue 1 1 { file := some doneFile }

theorem reviewRun_reachable : Reachable World.step {} (World.after reviewRun) :=
  reachable_of_exec (World.after_exec (by decide))

theorem reviewRun_node : ∃ s n, (World.after reviewRun).graphs.lookup "g" = some s ∧
    s.node "a" = some n ∧ n.status = .review ∧ n.workspace = some 1 :=
  World.node_of_fields (by decide)

theorem reviewRun_linked : ∃ run, (World.after reviewRun).shared.goals.lookup 1 = some run ∧
    run.graph = some ⟨"g", "a"⟩ := by
  have hlink : ((World.after reviewRun).shared.goals.lookup 1).map (·.graph)
      = some (some ⟨"g", "a"⟩) := by
    decide
  exact Option.map_eq_some_iff.mp hlink

/-- The agent of a continued node reports done. -/
def completeA : List Act :=
  [.thread 1 (.completeBegin 1 (some doneFile) none), .thread 1 .completeWrite]

/-- Steps of completing a run leave all nodes alone. -/
theorem leavesRunning_complete {g id : String} : ∀ a ∈ completeA, ∀ w, LeavesRunning g id w a := by
  intro a ha w
  have hthread : ∃ s, a = .thread 1 s ∧ moveKinds (.thread 1 s) = [.stays] ∧
      ¬ EndsLifetime w g (.thread 1 s) := by
    simp only [completeA, List.mem_cons, List.not_mem_nil, or_false] at ha
    rcases ha with rfl | rfl
    · exact ⟨_, rfl, rfl, not_false⟩
    · exact ⟨_, rfl, rfl, not_false⟩
  obtain ⟨s, rfl, hkinds, hlife⟩ := hthread
  refine ⟨⟨hlife, ?_⟩, ?_, ?_⟩
  · intro _ _ he
    cases he
  · intro _ _ _ he
    cases he
  · intro t git he
    cases he
    cases hkinds

end Jmux.Goal
