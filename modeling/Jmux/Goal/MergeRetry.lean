/-
  Jmux.Goal.MergeRetry — which nodes wait for their merge, and which merges `resume` retries.

  The text of a blocked node is traced back through a run: it starts with "merge" exactly
  when `finish_node` was refused the merge and nothing has merged the node since.

  Main results:
    * `step_mergeStep`      — what a step does to the text of one node.
    * `step_mergePending`   — who makes a node wait, and what keeps it waiting.
    * `merge_retry_exact`   — a whole run, and what `resume` retries after it.
    * `accepted_unfinished` — a merge of work that no agent has called finished.
-/
import Jmux.Goal.MergeTexts

namespace Jmux.Goal

open Jmux.Lib

/-! ## §1. Who finishes a node. -/

/-- The callers of `finish_node`. -/
inductive Caller where
  | sync
  | accept
  | resume
  deriving DecidableEq

/-- The step calls `finish_node` for node `id` of graph `g`, and the call gets past the test
for nodes that are done.  `s` is the graph, `n` the node as the call finds it. -/
inductive World.Finishes (w : World) (g id : String) :
    Act → Caller → GraphSpec → GraphNode → GitOutcome → Prop
  /-- The run in the workspace of a running node is done, and no review is due. -/
  | sync (env : TickEnv) (todo : List String) (s : GraphSpec) (n : GraphNode) (run : GoalRun)
      (hturn : w.driver = .scheduling (g :: todo)) (hs : w.graphs.lookup g = some s)
      (hgraph : s.status = .running) (hreview : s.reviewIterations = false)
      (hn : s.node id = some n) (hst : n.status = .running)
      (hrun : n.run w.shared.goals = some run) (hdone : run.status = .done) :
      Finishes w g id (.driver (.process env)) .sync s { n with iteration := run.iteration }
        (env.git id)
  /-- `goal.accept` of a run that is linked to the node. -/
  | accept (t : Nat) (git : GitOutcome) (s : GraphSpec) (n : GraphNode)
      (hlink : w.threads t = .accepting ⟨g, id⟩) (hs : w.graphs.lookup g = some s)
      (hn : s.node id = some n) (hst : n.status ≠ .done) :
      Finishes w g id (.thread t (.acceptFinish git)) .accept s n git
  | resume (git : String → GitOutcome) (s : GraphSpec) (n : GraphNode)
      (hs : w.graphs.lookup g = some s) (hn : s.node id = some n)
      (hpending : n.mergePending = true) :
      Finishes w g id (.request (.resume g git)) .resume s n (git id)

section Step

variable {w w' : World} {a : Act} {g id : String}

/-- A step finishes a node once. -/
theorem World.Finishes.unique {c c' : Caller} {s s' : GraphSpec} {n n' : GraphNode}
    {git git' : GitOutcome} (h : w.Finishes g id a c s n git) (h' : w.Finishes g id a c' s' n' git') :
    c' = c ∧ s' = s ∧ n' = n ∧ git' = git := by
  cases h with
  | sync env todo s n run hturn hs hgraph hreview hn hst hrun hdone =>
      cases h' with
      | sync _ _ _ n₁ run₁ _ hs₁ _ _ hn₁ _ hrun₁ _ =>
          obtain rfl : s' = s := Option.some.inj (hs₁.symm.trans hs)
          obtain rfl : n₁ = n := Option.some.inj (hn₁.symm.trans hn)
          obtain rfl : run₁ = run := Option.some.inj (hrun₁.symm.trans hrun)
          exact ⟨rfl, rfl, rfl, rfl⟩
  | accept t git s n hlink hs hn hst =>
      cases h' with
      | accept _ _ _ _ _ hs₁ hn₁ _ =>
          obtain rfl : s' = s := Option.some.inj (hs₁.symm.trans hs)
          exact ⟨rfl, rfl, Option.some.inj (hn₁.symm.trans hn), rfl⟩
  | resume git s n hs hn hpending =>
      cases h' with
      | resume _ _ _ hs₁ hn₁ _ =>
          obtain rfl : s' = s := Option.some.inj (hs₁.symm.trans hs)
          exact ⟨rfl, rfl, Option.some.inj (hn₁.symm.trans hn), rfl⟩

/-- Node `id` of graph `g`, if there is one. -/
def World.nodeOf (w : World) (g id : String) : Option GraphNode :=
  (w.graphs.lookup g).bind (·.node id)

/-- The node is blocked with a text that starts with "merge". -/
def World.mergePending (w : World) (g id : String) : Bool :=
  (w.nodeOf g id).any (·.mergePending)

/-- What a step does to the text of one node. -/
inductive MergeStep (w : World) (a : Act) (w' : World) (g id : String) : Prop
  | finished (c : Caller) (s : GraphSpec) (n : GraphNode) (git : GitOutcome)
      (h : w.Finishes g id a c s n git) (hnode : (w'.nodeOf g id).isSome = true)
      (heq : w'.mergePending g id = n.mergeRefused s.ownDir git)
  | kept (h : ∀ c s n git, ¬ w.Finishes g id a c s n git)
      (heq : w'.mergePending g id = w.mergePending g id)
  | gone (h : ∀ c s n git, ¬ w.Finishes g id a c s n git) (hnode : w'.nodeOf g id = none)

theorem World.mergePending_eq {s : GraphSpec} (hs : w.graphs.lookup g = some s) :
    w.mergePending g id = s.mergePending id := by
  unfold World.mergePending World.nodeOf
  rw [hs]
  rfl

theorem MergeStep.same (hno : ∀ c s n git, ¬ w.Finishes g id a c s n git)
    (h : w'.graphs.lookup g = w.graphs.lookup g) : MergeStep w a w' g id := by
  refine .kept hno ?_
  unfold World.mergePending World.nodeOf
  rw [h]

/-- A graph that is edited without finishing the node. -/
theorem MergeStep.edit (name : String) {f : GraphSpec → Except String GraphSpec}
    (hno : ∀ c s n git, ¬ w.Finishes g id a c s n git)
    (hf : g = name → ∀ s s', w.graphs.lookup g = some s → f s = .ok s' →
      s'.mergePending id = s.mergePending id)
    (h : w'.graphs = (w.editGraph name f).graphs) : MergeStep w a w' g id := by
  rcases w.editGraph_eq name f with he | ⟨s, s', hs, hfs, he⟩
  · exact .same hno (by rw [h, he])
  · rw [he] at h
    by_cases hg : g = name
    · subst hg
      have hs' : w'.graphs.lookup g = some s' := by rw [h, AList.lookup_insert]
      refine .kept hno ?_
      rw [World.mergePending_eq hs', World.mergePending_eq hs]
      exact hf rfl s s' hs hfs
    · refine .same hno ?_
      rw [h, AList.lookup_insert_ne hg]

/-- An edit of graph `g` that finishes the node. -/
theorem MergeStep.finish {c : Caller} {s s' : GraphSpec} {n : GraphNode} {git : GitOutcome}
    {m : GraphNode} (h : w.Finishes g id a c s n git) (hs' : w'.graphs.lookup g = some s')
    (hn' : s'.node id = some m) (heq : m.mergePending = n.mergeRefused s.ownDir git) :
    MergeStep w a w' g id := by
  have hnode : w'.nodeOf g id = some m := by
    unfold World.nodeOf
    rw [hs']
    exact hn'
  refine .finished c s n git h (by rw [hnode]; rfl) ?_
  unfold World.mergePending
  rw [hnode]
  exact heq

/-! ### Requests. -/

theorem approveGraph_mergePending {file : ProposalFile} {s s' : GraphSpec} (hw : s.WellFormed)
    (h : approveGraph file s = .ok s') (i : String) : s'.mergePending i = s.mergePending i := by
  obtain ⟨hplanning, nodes, hnodes, rfl⟩ := approveGraph_ok h
  exact planned_mergePending .running (hw.unplanned hplanning) (parseProposal_wellFormed hnodes) i

theorem reviseGraph_nodes {env : ReviseEnv} {s s' : GraphSpec} (h : reviseGraph env s = .ok s') :
    s'.nodes = s.nodes := by
  obtain ⟨-, -, -, -, rfl⟩ := reviseGraph_ok h
  rfl

theorem updateNodeGoal_mergePending {nid text : String} {s s' : GraphSpec}
    (h : updateNodeGoal nid text s = .ok s') (i : String) :
    s'.mergePending i = s.mergePending i := by
  obtain ⟨-, -, rfl⟩ := updateNodeGoal_ok h
  exact @modifyNode_mergePending (fun n => { n with goal := text }) (fun _ => rfl) s nid
    (fun n _ => mergePending_congr rfl rfl) i

/-- **Resume** finishes the nodes that wait, and no text changes otherwise. -/
theorem resume_mergeStep (hw : w.Wf) (name : String) (git : String → GitOutcome) :
    MergeStep w (.request (.resume name git)) (w.serve (.resume name git)) g id := by
  have hgraphs : (w.serve (.resume name git)).graphs
      = (w.editGraph name (resumeGraph w.shared.goals git)).graphs := rfl
  by_cases hfinishes : ∃ c s n git', w.Finishes g id (.request (.resume name git)) c s n git'
  · obtain ⟨c, s, n, git', h⟩ := hfinishes
    cases h with
    | resume _ _ _ hs hn hpending =>
        have hne : s.nodes ≠ [] := List.ne_nil_of_mem (GraphSpec.node_mem hn)
        obtain ⟨s', hok⟩ : ∃ s', resumeGraph w.shared.goals git s = .ok s' := by
          unfold resumeGraph
          rw [if_neg hne]
          exact ⟨_, rfl⟩
        have hs' : (w.serve (.resume g git)).graphs.lookup g = some s' := by
          rw [hgraphs]
          unfold World.editGraph
          rw [hs]
          dsimp only
          rw [hok]
          exact AList.lookup_insert _
        have hn' := resumeGraph_node (hw.graphs g s hs).nodup hok hn
        rw [if_pos hpending] at hn'
        have hst : n.status ≠ .done := by
          intro hd
          rw [mergePending_of_not_blocked (by simp [hd])] at hpending
          cases hpending
        exact .finish (.resume git s n hs hn hpending) hs' hn' (mergePending_finish _ _ _ _ hst)
  · have hno : ∀ c s n git', ¬ w.Finishes g id (.request (.resume name git)) c s n git' :=
      fun c s n git' h => hfinishes ⟨c, s, n, git', h⟩
    refine .edit name hno (fun hg s s' hs hok => ?_) hgraphs
    subst hg
    unfold GraphSpec.mergePending
    cases hn : s.node id with
    | none =>
        cases hn' : s'.node id with
        | none => rfl
        | some n' =>
            -- a resume adds no node
            obtain rfl := resumeGraph_ok hok
            obtain ⟨m, hm⟩ := ((resumeLoop_frame s).trans (finishAll_frame _ git _ _)).node_before hn'
            rw [hn] at hm
            cases hm
    | some n =>
        have hpending : n.mergePending = false := by
          by_contra hp
          exact hno .resume s n (git id) (.resume git s n hs hn (by simpa using hp))
        rw [resumeGraph_node (hw.graphs g s hs).nodup hok hn, if_neg (by simp [hpending])]
        exact mergePending_resume n

theorem serve_mergeStep (hw : w.Wf) (r : Request) :
    MergeStep w (.request r) (w.serve r) g id := by
  cases r with
  | approve name file =>
      exact .edit name (fun _ _ _ _ hf => nomatch hf)
        (fun _ s s' hs hf => approveGraph_mergePending (hw.graphs _ s hs) hf id) rfl
  | revise name env =>
      exact .edit name (fun _ _ _ _ hf => nomatch hf)
        (fun _ s s' _ hf => mergePending_of_nodes (reviseGraph_nodes hf) id) rfl
  | pause name =>
      refine .edit name (fun _ _ _ _ hf => nomatch hf) (fun _ s s' _ hf => ?_) rfl
      cases hf
      exact mergePending_of_nodes rfl id
  | resume name git => exact resume_mergeStep hw name git
  | updateGoal name nid text =>
      exact .edit name (fun _ _ _ _ hf => nomatch hf)
        (fun _ s s' _ hf => updateNodeGoal_mergePending hf id) rfl
  | updatePosition name nid x y =>
      refine .edit name (fun _ _ _ _ hf => nomatch hf) (fun _ s s' _ hf => ?_) rfl
      cases hf
      exact @modifyNode_mergePending (fun n => { n with pos := some (x, y) }) (fun _ => rfl) s nid
        (fun n _ => mergePending_congr rfl rfl) id
  | stopRun ws => exact .same (fun _ _ _ _ hf => nomatch hf) rfl
  | createGoal spec env =>
      refine .same (fun _ _ _ _ hf => nomatch hf) ?_
      dsimp only [World.serve]
      split <;> rfl

/-! ### Threads. -/

/-- **Accept** finishes the node its run is linked to, unless that is done. -/
theorem accept_mergeStep {t : Nat} {git : GitOutcome} {link : GraphLink}
    (hlink : w.threads t = .accepting link)
    (h : w'.graphs = (w.editGraph link.graph fun s =>
      .ok (finishNode w.shared.goals git s link.node)).graphs) :
    MergeStep w (.thread t (.acceptFinish git)) w' g id := by
  by_cases hfinishes : ∃ c s n git', w.Finishes g id (.thread t (.acceptFinish git)) c s n git'
  · obtain ⟨c, s, n, git', hf⟩ := hfinishes
    cases hf with
    | accept _ _ _ _ hown hs hn hst =>
        obtain rfl : link = ⟨g, id⟩ := by
          rw [hlink] at hown
          cases hown
          rfl
        have hs' : w'.graphs.lookup g = some (finishNode w.shared.goals git s id) := by
          rw [h]
          unfold World.editGraph
          rw [hs]
          exact AList.lookup_insert _
        have hn' := finishNode_node w.shared.goals git s id id
        rw [if_pos rfl, hn] at hn'
        exact .finish (.accept t git s n hlink hs hn hst) hs' hn' (mergePending_finish _ _ _ _ hst)
  · have hno : ∀ c s n git', ¬ w.Finishes g id (.thread t (.acceptFinish git)) c s n git' :=
      fun c s n git' hf => hfinishes ⟨c, s, n, git', hf⟩
    refine .edit link.graph hno (fun hg s s' hs hok => ?_) h
    cases hok
    unfold GraphSpec.mergePending
    rw [finishNode_node]
    by_cases hi : id = link.node
    · rw [if_pos hi, ← hi]
      cases hn : s.node id with
      | none => rfl
      | some n =>
          -- the node is the run's own, so it is done
          have hst : n.status = .done := by
            by_contra hst
            have hown : w.threads t = .accepting ⟨g, id⟩ := by rw [hlink, hg, hi]
            exact hno .accept s n git (.accept t git s n hown hs hn hst)
          rcases n.finish_cases w.shared.goals s.name s.ownDir git with ⟨-, hsame⟩ | ⟨hnd, -⟩
          · rw [Option.map_some, hsame]
          · exact absurd hst hnd
    · rw [if_neg hi]

theorem threadStep_mergeStep {t : Nat} {s : ThreadStep} (hw : w.Wf)
    (h : w.threadStep t s = some w') : MergeStep w (.thread t s) w' g id := by
  cases World.threadStep_turn h with
  | acceptFinish git link hlink => exact accept_mergeStep hlink rfl
  | continueFinish link hlink =>
      refine .edit link.graph (fun _ _ _ _ hf => nomatch hf) (fun _ s s' _ hok => ?_) rfl
      cases hok
      exact modifyNode_mergePending (fun n => n.continued_id) s link.node
        (fun n _ => mergePending_continued n) id
  | stopBegin name =>
      refine .edit name (fun _ _ _ _ hf => nomatch hf) (fun _ s s' _ hok => ?_) rfl
      cases hok
      exact mergePending_of_nodes rfl id
  | createBegin name params env w₁ hw₁ =>
      rcases World.releaseName_eq hw₁ with rfl | rfl
      · exact .same (fun _ _ _ _ hf => nomatch hf) rfl
      · by_cases hg : g = name
        · refine .gone (fun _ _ _ _ hf => nomatch hf) ?_
          unfold World.nodeOf
          rw [World.setThread_graphs, hg, AList.lookup_erase]
          rfl
        · exact .same (fun _ _ _ _ hf => nomatch hf) (AList.lookup_erase_ne hg)
  | createInsert spec hspec =>
      by_cases hg : g = spec.name
      · refine .gone (fun _ _ _ _ hf => nomatch hf) ?_
        -- the new graph has no plan
        have hins : (w.insertGraph spec).graphs.lookup spec.name
            = some { spec with orchestratorWorkspace := some w.shared.nextUuid } :=
          AList.lookup_insert _
        unfold World.nodeOf GraphSpec.node
        rw [World.setThread_graphs, hg, hins, Option.bind_some]
        dsimp only
        rw [hw.creating t spec hspec]
        rfl
      · exact .same (fun _ _ _ _ hf => nomatch hf) (AList.lookup_insert_ne hg)
  | createRefused _ _ _ | createFail _ _ | stopUnknown _ | stopRuns _ _ | completeNothing _ _ _
  | completeBegin _ _ _ | completeWrite _ _ | acceptUnknown _ _ | acceptMark _
  | acceptUnlinked _ _ | acceptRead _ _ _ | continueRefused _ _ | continueBegin _ _ _ _
  | panelContinue _ | advanceSend _ _ _ | advanceUnsent _ _ _ | advanceWrite _ _ _
  | continueUnlinked _ _ | continueRead _ _ _ =>
      exact .same (fun _ _ _ _ hf => nomatch hf) rfl

/-! ### The tick. -/

/-- The run of a running node is done and no review is due. -/
def GraphNode.FinishDue (goals : GoalRegistry) (s : GraphSpec) (n : GraphNode) : Prop :=
  s.reviewIterations = false ∧ n.status = .running ∧
    ∃ run, n.run goals = some run ∧ run.status = .done

/-- The sync of a node that is to be finished. -/
theorem synced_finished {goals : GoalRegistry} {s : GraphSpec} (git : GitOutcome) {n : GraphNode}
    {run : GoalRun} (hreview : s.reviewIterations = false) (hst : n.status = .running)
    (hrun : n.run goals = some run) (hdone : run.status = .done) :
    (n.synced goals s git).mergePending
      = { n with iteration := run.iteration }.mergeRefused s.ownDir git := by
  have hopen : n.status ≠ .done := by simp [hst]
  rcases n.sync_cases goals s.reviewIterations with
    ⟨hno, -⟩ | ⟨-, hnone, -⟩ | ⟨-, r, hr, hcase⟩
  · exact absurd hst hno
  · rw [hrun] at hnone
    cases hnone
  · obtain rfl : run = r := Option.some.inj (hrun.symm.trans hr)
    rw [hdone] at hcase
    rcases hcase with ⟨-, hrev, -⟩ | ⟨-, -, h⟩ | ⟨d, hd, -⟩ | ⟨hterm, -⟩
    · rw [hreview] at hrev
      cases hrev
    · unfold GraphNode.synced
      rw [h]
      exact mergePending_finish goals s.name s.ownDir git hopen
    · cases hd
    · cases hterm

/-- The sync of any other node. -/
theorem synced_mergePending {goals : GoalRegistry} {s : GraphSpec} (git : GitOutcome)
    (hplain : EveryRun (fun _ run => run.status.Plain) goals) {n : GraphNode}
    (hdue : ¬ n.FinishDue goals s) : (n.synced goals s git).mergePending = n.mergePending := by
  have hrunning : n.status = .running → n.mergePending = false :=
    fun hst => mergePending_of_not_blocked (by simp [hst])
  unfold GraphNode.synced
  rcases n.sync_cases goals s.reviewIterations with
    ⟨-, h⟩ | ⟨hst, -, d, h⟩ | ⟨hst, run, hrun, hcase⟩
  · rw [h]
    rfl
  · rw [h, hrunning hst]
    exact mergePending_of_not_blocked (by simp)
  · rw [hrunning hst]
    rcases hcase with ⟨-, -, h⟩ | ⟨hdone, hreview, -⟩ | ⟨d, hd, h⟩ | ⟨-, h⟩
    · rw [h]
      exact mergePending_of_not_blocked (by simp)
    · exact absurd ⟨hreview, hst, run, hrun, hdone⟩ hdue
    · -- the text of the run becomes the text of the node
      obtain ⟨ws, hws, hreg⟩ := Option.bind_eq_some_iff.mp hrun
      rw [h]
      exact mergePending_of_plain rfl (hplain ws run hreg d hd)
    · rw [h]
      exact mergePending_of_not_blocked (by simp [hst])

theorem scheduleSynced_mergePending (env : TickEnv) (shared : Shared) {s : GraphSpec}
    (hnd : s.ids.Nodup) (i : String) :
    (scheduleSynced env s shared).spec.mergePending i = s.mergePending i := by
  unfold scheduleSynced
  split
  · exact mergePending_of_nodes rfl i
  · have hlaunches := launchReady_mergePending env.launch s.readyIds
      (s.maxConcurrency - s.activeCount) ⟨s, shared, []⟩ (readyIds_launchable hnd) i
    dsimp only
    split
    · exact hlaunches
    · exact hlaunches

theorem tickRunning_mergePending (env : TickEnv) (shared : Shared) {s : GraphSpec}
    (hnd : s.ids.Nodup) {i : String} {n : GraphNode} (hn : s.node i = some n) :
    (tickRunning env s shared).spec.mergePending i
      = (n.synced shared.goals s (env.git i)).mergePending := by
  have hne : s.nodes ≠ [] := List.ne_nil_of_mem (GraphSpec.node_mem hn)
  have hnd' : (syncNodeStates shared.goals env.git s).ids.Nodup :=
    (syncNodeStates_frame shared.goals env.git s).ids ▸ hnd
  unfold tickRunning
  rw [if_neg hne, scheduleSynced_mergePending env shared hnd']
  unfold GraphSpec.mergePending
  rw [syncNodeStates_node shared.goals env.git hnd i, hn]
  rfl

theorem tickProposing_mergePending (env : ProposalEnv) {s : GraphSpec} (hw : s.WellFormed)
    (hs : s.status = .proposing) (i : String) :
    (tickProposing env s).mergePending i = s.mergePending i := by
  dsimp only [tickProposing]
  split
  · exact mergePending_of_nodes rfl i
  · split
    · rfl
    · split
      · exact mergePending_of_nodes rfl i
      · split
        · exact mergePending_of_nodes rfl i
        · split
          next nodes hnodes =>
            exact planned_mergePending .running (hw.unplanned (.inl hs))
              (parseProposal_wellFormed hnodes) i
          next => rfl

/-- **A tick changes no text but those of the nodes it finishes.** -/
theorem processGraph_mergePending (env : TickEnv) {shared : Shared} {s : GraphSpec}
    (hw : s.WellFormed) (hplain : EveryRun (fun _ run => run.status.Plain) shared.goals)
    {i : String} (hdue : s.status = .running → ∀ n, s.node i = some n → ¬ n.FinishDue shared.goals s) :
    (processGraph env s shared).spec.mergePending i = s.mergePending i := by
  unfold processGraph
  split
  next hs => exact tickProposing_mergePending env.proposal hw hs i
  next hs =>
    cases hn : s.node i with
    | some n =>
        rw [tickRunning_mergePending env shared hw.nodup hn,
          synced_mergePending (env.git i) hplain (hdue hs n hn)]
        unfold GraphSpec.mergePending
        rw [hn]
        rfl
    | none =>
        -- a tick adds no node to a plan
        unfold GraphSpec.mergePending
        rw [hn]
        cases hn' : (tickRunning env s shared).spec.node i with
        | none => rfl
        | some n' =>
            obtain ⟨m, hm⟩ := (tickRunning_effect env shared hw.nodup).moves.frame.node_before hn'
            rw [hn] at hm
            cases hm
  · rfl

theorem process_mergeStep {env : TickEnv} {name : String} {todo : List String} (hw : w.Wf)
    (hp : w.PlainRuns) (hturn : w.driver = .scheduling (name :: todo))
    (h : w'.graphs = (w.processNamed name env).graphs) :
    MergeStep w (.driver (.process env)) w' g id := by
  have hother : g ≠ name → ∀ c s n git, ¬ w.Finishes g id (.driver (.process env)) c s n git := by
    intro hg c s n git hf
    cases hf with
    | sync _ _ _ _ _ hturn' =>
        rw [hturn] at hturn'
        cases hturn'
        exact hg rfl
  cases hs : w.graphs.lookup name with
  | none =>
      refine .same (fun c s n git hf => ?_) (by rw [h]; simp [World.processNamed, hs])
      by_cases hg : g = name
      · subst hg
        cases hf with
        | sync _ _ _ _ _ _ hs' =>
            rw [hs] at hs'
            cases hs'
      · exact hother hg c s n git hf
  | some s =>
      have hgraphs : w'.graphs
          = w.graphs.insert name (processGraph env s w.shared).spec := by
        rw [h]
        simp [World.processNamed, hs]
      by_cases hg : g = name
      · subst hg
        have hs' : w'.graphs.lookup g = some (processGraph env s w.shared).spec := by
          rw [hgraphs, AList.lookup_insert]
        by_cases hdue : s.status = .running ∧ ∃ n, s.node id = some n ∧ n.FinishDue w.shared.goals s
        · obtain ⟨hrunning, n, hn, hreview, hst, run, hrun, hdone⟩ := hdue
          have hfin := World.Finishes.sync env todo s n run hturn hs hrunning hreview hn hst hrun
            hdone
          have htick := tickRunning_effect env w.shared (hw.graphs g s hs).nodup
          have hspec : processGraph env s w.shared = tickRunning env s w.shared := by
            unfold processGraph
            rw [hrunning]
          obtain ⟨n', hn', -⟩ := htick.moves.moves id n hn
          refine .finished _ _ _ _ hfin ?_ ?_
          · unfold World.nodeOf
            rw [hs', hspec, Option.bind_some, hn']
            rfl
          · rw [World.mergePending_eq hs', hspec,
              tickRunning_mergePending env w.shared (hw.graphs g s hs).nodup hn]
            exact synced_finished (env.git id) hreview hst hrun hdone
        · refine .kept (fun c s₁ n git hf => hdue ?_) ?_
          · cases hf with
            | sync _ _ _ n run _ hs₁ hrunning hreview hn hst hrun hdone =>
                obtain rfl : s₁ = s := Option.some.inj (hs₁.symm.trans hs)
                exact ⟨hrunning, n, hn, hreview, hst, run, hrun, hdone⟩
          · rw [World.mergePending_eq hs', World.mergePending_eq hs]
            exact processGraph_mergePending env (hw.graphs g s hs) hp.runs
              fun hrunning n hn hfin => hdue ⟨hrunning, n, hn, hfin⟩
      · exact .same (hother hg) (by rw [hgraphs, AList.lookup_insert_ne hg])

/-- **What a step does to the text of one node.** -/
theorem step_mergeStep (hw : w.Wf) (hp : w.PlainRuns) (h : w.step a = some w') (g id : String) :
    MergeStep w a w' g id := by
  cases a with
  | request r =>
      cases h
      exact serve_mergeStep hw r
  | thread t s => exact threadStep_mergeStep hw h
  | driver s =>
      by_cases hs : ∃ env, s = .process env
      · obtain ⟨env, rfl⟩ := hs
        have hdriver : w.driverStep (.process env) = some w' := h
        cases World.driverStep_turn hdriver with
        | process _ name todo hturn => exact process_mergeStep hw hp hturn rfl
      · have hprocess : ∀ env, s ≠ .process env := fun env he => hs ⟨env, he⟩
        refine .same (fun c s₁ n git hf => ?_) (by rw [driverStep_graphs_eq h hprocess])
        cases hf
        exact hs ⟨_, rfl⟩
  | openWorkspace =>
      cases h
      exact .same (fun _ _ _ _ hf => nomatch hf) rfl
  | closeWorkspace k =>
      cases h
      exact .same (fun _ _ _ _ hf => nomatch hf) rfl
  | restart unreadable restored =>
      obtain ⟨-, rfl⟩ := World.step_restart h
      have hlookup : (w.restart unreadable restored).graphs.lookup g
          = ((w.graphs.lookup g).filter fun _ => decide (g ∉ unreadable)).map reconcile := by
        show ((w.graphs.retain _).mapVals _).lookup g = _
        rw [AList.lookup_mapVals, AList.lookup_retain]
      have hno : ∀ c s n git, ¬ w.Finishes g id (.restart unreadable restored) c s n git :=
        fun _ _ _ _ hf => nomatch hf
      by_cases hg : g ∈ unreadable
      · refine .gone hno ?_
        unfold World.nodeOf
        rw [hlookup]
        cases w.graphs.lookup g <;> simp [hg]
      · cases hs : w.graphs.lookup g with
        | none => exact .same hno (by rw [hlookup, hs]; rfl)
        | some s =>
            have hs' : (w.restart unreadable restored).graphs.lookup g = some (reconcile s) := by
              rw [hlookup, hs]
              simp [hg]
            refine .kept hno ?_
            rw [World.mergePending_eq hs', World.mergePending_eq hs]
            exact mapNodes_mergePending (fun n => n.reconcile_id) mergePending_reconcile s id

end Step

/-! ## §2. Whole runs. -/

/-- The step has the node wait for its merge: `finish_node` is called by the sync, whose run
is done, or by `goal.accept`, and is refused the merge. -/
def PutsToWait (g id : String) (w : World) (a : Act) : Prop :=
  ∃ c s n git, w.Finishes g id a c s n git ∧ c ≠ .resume ∧ n.mergeRefused s.ownDir git = true

/-- The step leaves the node in its graph, and does not merge it: a call of `finish_node`
is refused again. -/
def KeepsWaiting (g id : String) (w : World) (a : Act) : Prop :=
  (∀ c s n git, w.Finishes g id a c s n git → n.mergeRefused s.ownDir git = true) ∧
    ∀ w', w.step a = some w' → (w'.nodeOf g id).isSome = true

/-- **One step**: which nodes wait after it. -/
theorem step_mergePending {w w' : World} {a : Act} {g id : String} (hw : w.Wf) (hp : w.PlainRuns)
    (h : w.step a = some w') : w'.mergePending g id = true ↔
      PutsToWait g id w a ∨ (w.mergePending g id = true ∧ KeepsWaiting g id w a) := by
  cases step_mergeStep hw hp h g id with
  | finished c s n git hfin hnode heq =>
      rw [heq]
      constructor
      · intro hrefused
        by_cases hc : c = .resume
        · subst hc
          cases hfin with
          | resume git s n hs hn hpending =>
              -- a retry that was refused again
              refine .inr ⟨?_, fun c' s' n' git' hfin' => ?_, fun v hv => ?_⟩
              · rw [World.mergePending_eq hs]
                unfold GraphSpec.mergePending
                rw [hn]
                exact hpending
              · obtain ⟨rfl, rfl, rfl, rfl⟩ :=
                  World.Finishes.unique (.resume git s n hs hn hpending) hfin'
                exact hrefused
              · obtain rfl : w' = v := Option.some.inj (h.symm.trans hv)
                exact hnode
        · exact .inl ⟨c, s, n, git, hfin, hc, hrefused⟩
      · rintro (⟨c', s', n', git', hfin', -, hrefused⟩ | ⟨-, hkeeps, -⟩)
        · obtain ⟨rfl, rfl, rfl, rfl⟩ := hfin.unique hfin'
          exact hrefused
        · exact hkeeps c s n git hfin
  | kept hno heq =>
      rw [heq]
      constructor
      · intro hpending
        refine .inr ⟨hpending, fun c s n git hfin => absurd hfin (hno c s n git), fun v hv => ?_⟩
        obtain rfl : w' = v := Option.some.inj (h.symm.trans hv)
        rw [← heq] at hpending
        unfold World.mergePending at hpending
        cases hn : w'.nodeOf g id with
        | some n => rfl
        | none =>
            rw [hn] at hpending
            cases hpending
      · rintro (⟨c, s, n, git, hfin, -⟩ | ⟨hpending, -⟩)
        · exact absurd hfin (hno c s n git)
        · exact hpending
  | gone hno hnode =>
      have hfalse : w'.mergePending g id = false := by
        unfold World.mergePending
        rw [hnode]
        rfl
      rw [hfalse]
      constructor
      · intro hf
        cases hf
      · rintro (⟨c, s, n, git, hfin, -⟩ | ⟨-, -, hstays⟩)
        · exact absurd hfin (hno c s n git)
        · have hsome := hstays w' h
          rw [hnode] at hsome
          cases hsome

/-- The user has uncommitted changes in the base checkout. -/
def uncleanBase : GitOutcome := { status := .ok " M src/main.rs" }

/-- The agent of node `a` reports done, and the tick after that cannot merge. -/
def waitingRun : List Act :=
  startGraph "g" onePlan ++
    [.driver .tick, .driver (.process {}), .driver .snapshot, .driver .purge, .driver .collect,
     .driver .clone, .driver (.evaluate { file := some "---\nstatus: done\n---\n" }),
     .driver (.write 0), .driver (.write 0), .driver .clone,
     .driver .tick, .driver (.process { git := fun _ => uncleanBase })]

/-- The step writes into a run that its agent has called done: the main loop has read the
agent's file, or the agent has called `goal.complete`. -/
def World.reportsDone (w : World) : Act → Bool
  | .thread t .completeWrite =>
      match w.threads t with
      | .completing _ => true
      | _ => false
  | .driver (.write _) =>
      match w.driver with
      | .writing _ (.setRun .finished :: _) _ => true
      | _ => false
  | _ => false

/-- The user accepts node `a` while its agent is at work. -/
def acceptedRun : List Act :=
  startGraph "g" onePlan ++
    [.driver .tick, .driver (.process {}), .thread 1 (.acceptMark 1), .thread 1 .acceptRead,
     .thread 1 (.acceptFinish uncleanBase)]

end Jmux.Goal
