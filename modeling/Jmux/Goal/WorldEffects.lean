/-
  Jmux.Goal.WorldEffects — what one step of the system can do, said once.

  Two inversions carry all invariants: a step does at most one operation on the
  goal registry (`goalOp`, `step_goals`), and to each graph it does one edit
  whose moves are known, unless it ends the graph's lifetime (`step_graphs`).

  Main results:
    * `step_lookup_goals`  — the run in a workspace before and after a step.
    * `step_graphs`        — each graph before and after a step.
    * `step_node`          — each node before and after a step.
    * `step_node_back`     — where each node after a step comes from.
    * `step_keeps_run`     — what a run survives.
-/
import Jmux.Goal.SpecEdits
import Jmux.Goal.WorldSteps

namespace Jmux.Goal

/-! ## §1. The goal registry. -/

/-- The operation of one step on the goal registry. -/
inductive GoalOp where
  | keep
  /-- New runs under fresh workspace ids. -/
  | grow
  | setRun (ws : Uuid) (f : SetRun)
  | escalate (ws : Uuid) (status : GoalStatus) (now : Nat)
  | stop (ws : Uuid)
  | markDone (ws : Uuid)
  | begin (ws : Uuid) (next : Nat)
  | stopOf (graph : String)
  | purge (live : List Uuid)
  | drop (ws : Uuid)
  | clear

/-- Which operation a step performs. -/
def goalOp (w : World) : Act → GoalOp
  | .request (.stopRun ws) => .stop ws
  | .request (.createGoal _ _) => .grow
  | .thread t .completeWrite =>
      match w.threads t with
      | .completing ws => .markDone ws
      | _ => .keep
  | .thread _ (.acceptMark ws) => .markDone ws
  | .thread t .stopRuns =>
      match w.threads t with
      | .stopping g => .stopOf g
      | _ => .keep
  | .thread t .advanceWrite =>
      match w.threads t with
      | .sent ws run => .begin ws (run.iteration + 1)
      | _ => .keep
  | .driver (.process _) => .grow
  | .driver .purge =>
      match w.driver with
      | .purging live => .purge live
      | _ => .keep
  | .driver .drop =>
      match w.driver with
      | .dropping ws _ => .drop ws
      | _ => .keep
  | .driver (.write now) =>
      match w.driver with
      | .writing ws (.setRun f :: _) _ => .setRun ws f
      | .writing ws (.escalate status :: _) _ => .escalate ws status now
      | _ => .keep
  | .restart _ _ => .clear
  | _ => .keep

/-- The run of workspace `ws` after the operation; `grow` may add one. -/
def GoalOp.onRun (ws : Uuid) (r : Option GoalRun) : GoalOp → Option GoalRun
  | .keep | .grow => r
  | .setRun k f => if ws = k then r.map f.apply else r
  | .escalate k status now => if ws = k then r.map (·.escalate status now) else r
  | .stop k => if ws = k then r.map GoalRun.stop else r
  | .markDone k => if ws = k then r.map GoalRun.markDone else r
  | .begin k next => if ws = k then r.map (·.begin next) else r
  | .stopOf g => r.map (·.stopIfOf g)
  | .purge live => r.filter fun run => !run.status.isTerminal || decide (ws ∈ live)
  | .drop k => if ws = k then none else r
  | .clear => none

/-- What a step does to one registered run. -/
def RunEffect (op : GoalOp) (before after : Shared) (ws : Uuid) : Prop :=
  after.goals.lookup ws = op.onRun ws (before.goals.lookup ws) ∨
    (op = .grow ∧ before.nextUuid ≤ ws ∧ ws < after.nextUuid)

theorem RunEffect.modify {op : GoalOp} {before after : Shared} {ws k : Uuid}
    {f : GoalRun → GoalRun} (hop : ∀ r, op.onRun ws r = if ws = k then r.map f else r)
    (h : after.goals = before.goals.modify k f) : RunEffect op before after ws := by
  refine .inl ?_
  rw [h, AList.lookup_modify, hop]
  by_cases hk : ws = k
  · rw [if_pos hk, if_pos hk, hk]
  · rw [if_neg hk, if_neg hk]

theorem RunEffect.same {before after : Shared} {ws : Uuid} (h : after.goals = before.goals) :
    RunEffect .keep before after ws := .inl (h ▸ rfl)

theorem RunEffect.grows {before after : Shared} (h : SharedGrows before after) (ws : Uuid) :
    RunEffect .grow before after ws := by
  rcases h.goals ws with hs | hf
  · exact .inl hs
  · exact .inr ⟨rfl, hf⟩

@[simp] theorem World.setThread_graphs (w : World) (t : Nat) (th : Thread) :
    (w.setThread t th).graphs = w.graphs := rfl

theorem World.editGraph_eq (w : World) (name : String) (f : GraphSpec → Except String GraphSpec) :
    w.editGraph name f = w ∨ ∃ s s', w.graphs.lookup name = some s ∧ f s = .ok s' ∧
      w.editGraph name f = { w with graphs := w.graphs.insert name s' } := by
  unfold World.editGraph
  split
  · exact .inl rfl
  next s hs =>
    split
    · exact .inl rfl
    next s' hf => exact .inr ⟨s, s', hs, hf, rfl⟩

/-- An edit of a graph leaves everything else alone. -/
theorem World.editGraph_frame (w : World) (name : String)
    (f : GraphSpec → Except String GraphSpec) :
    (w.editGraph name f).shared = w.shared ∧ (w.editGraph name f).threads = w.threads ∧
      (w.editGraph name f).driver = w.driver ∧ (w.editGraph name f).prompts = w.prompts ∧
      (w.editGraph name f).launches = w.launches := by
  rcases w.editGraph_eq name f with h | ⟨s, s', _, _, h⟩
  · rw [h]
    exact ⟨rfl, rfl, rfl, rfl, rfl⟩
  · rw [h]
    exact ⟨rfl, rfl, rfl, rfl, rfl⟩

theorem World.releaseName_eq {w w' : World} {name : String} (h : w.releaseName name = some w') :
    w' = w ∨ w' = { w with graphs := w.graphs.erase name } := by
  unfold World.releaseName at h
  split at h
  · exact .inl (Option.some.inj h).symm
  · split at h
    · exact .inr (Option.some.inj h).symm
    · cases h

/-- One tick only adds runs, workspaces and ids. -/
theorem processGraph_grows (env : TickEnv) (s : GraphSpec) (shared : Shared)
    (hnd : s.ids.Nodup) : SharedGrows shared (processGraph env s shared).shared := by
  unfold processGraph
  split
  · exact .refl _
  · exact (tickRunning_effect env shared hnd).shared
  · exact .refl _

theorem serve_goals (w : World) (r : Request) (ws : Uuid) :
    RunEffect (goalOp w (.request r)) w.shared (w.serve r).shared ws := by
  cases r with
  | approve name _ | revise name _ | pause name | resume name _ | updateGoal name _ _
  | updatePosition name _ _ _ => exact .same (congrArg Shared.goals (w.editGraph_frame name _).1)
  | stopRun k => exact .modify (k := k) (fun _ => rfl) rfl
  | createGoal spec env =>
      dsimp only [World.serve]
      split
      · exact .inl rfl
      next shared' hl => exact .grows (launchGoal_grows hl) ws

theorem threadStep_goals {w w' : World} {t : Nat} {s : ThreadStep}
    (h : w.threadStep t s = some w') (ws : Uuid) :
    RunEffect (goalOp w (.thread t s)) w.shared w'.shared ws := by
  cases World.threadStep_turn h with
  | stopRuns graph hgraph =>
      simp only [goalOp, hgraph]
      exact .inl (AList.lookup_mapVals _ _ _)
  | completeWrite k hk =>
      simp only [goalOp, hk]
      exact .modify (k := k) (fun _ => rfl) rfl
  | acceptMark k => exact .modify (k := k) (fun _ => rfl) rfl
  | acceptUnknown k hnone =>
      -- marking a run that is not registered changes nothing
      refine .inl ?_
      show _ = if ws = k then _ else _
      by_cases hk : ws = k
      · rw [if_pos hk, hk, hnone]
        rfl
      · rw [if_neg hk]
  | advanceWrite k run hk =>
      simp only [goalOp, hk]
      exact .modify (k := k) (fun _ => rfl) rfl
  | createBegin name params env w₁ hw₁ =>
      rcases World.releaseName_eq hw₁ with rfl | rfl
      · exact .same rfl
      · exact .same rfl
  | stopBegin graph => exact .same (congrArg Shared.goals (w.editGraph_frame graph _).1)
  | acceptFinish git link hlink =>
      exact .same (congrArg Shared.goals (w.editGraph_frame link.graph _).1)
  | continueFinish link hlink =>
      exact .same (congrArg Shared.goals (w.editGraph_frame link.graph _).1)
  | createRefused _ _ _ | createFail _ _ | createInsert _ _ | stopUnknown _
  | completeNothing _ _ _ | completeBegin _ _ _ | acceptUnlinked _ _ | acceptRead _ _ _
  | continueRefused _ _ | continueBegin _ _ _ _ | panelContinue _ | advanceSend _ _ _
  | advanceUnsent _ _ _ | continueUnlinked _ _ | continueRead _ _ _ => exact .same rfl

/-! ## §2. The graph registry. -/

/-- The kinds of node moves an action can cause. -/
def moveKinds : Act → List MoveKind
  | .request (.resume _ _) => [.stays, .settles, .resumed]
  | .thread _ (.acceptFinish _) => [.stays, .settles]
  | .thread _ .continueFinish => [.stays, .continued]
  | .driver (.process _) => MoveKind.ofTick
  | .restart _ _ => [.stays, .cut]
  | _ => [.stays]

/-- The action may end the life of the graph of that name: its name is released
or taken again, or its file cannot be read after a restart. -/
def EndsLifetime (w : World) (g : String) : Act → Prop
  | .thread _ (.createBegin name _ _) => name = g
  | .thread t .createInsert => ∃ spec, w.threads t = .creating spec ∧ spec.name = g
  | .restart unreadable _ => g ∈ unreadable
  | _ => False

/-- One graph before and after a step. -/
inductive GraphStep (w : World) (a : Act) (w' : World) (g : String) : Prop
  | ended (h : EndsLifetime w g a)
      (hnew : ∀ s', w'.graphs.lookup g = some s' → s'.nodes = [])
  | absent (h : w.graphs.lookup g = none) (h' : w'.graphs.lookup g = none)
  | edited (s s' : GraphSpec) (h : w.graphs.lookup g = some s) (h' : w'.graphs.lookup g = some s')
      (hedit : EditOk (moveKinds a) w.shared w'.shared s s')

/-- The representation invariant. -/
structure World.Wf (w : World) : Prop where
  graphs : ∀ g s, w.graphs.lookup g = some s → s.WellFormed
  creating : ∀ t spec, w.threads t = .creating spec → spec.nodes = []

theorem stays_mem_moveKinds (a : Act) : MoveKind.stays ∈ moveKinds a := by
  unfold moveKinds
  split <;> decide

/-- Nothing happens to the graph. -/
theorem GraphStep.same {w w' : World} {a : Act} {g : String} (hw : w.Wf)
    (h : w'.graphs.lookup g = w.graphs.lookup g) : GraphStep w a w' g := by
  cases hs : w.graphs.lookup g with
  | none => exact .absent hs (h.trans hs)
  | some s =>
      exact .edited s s hs (h.trans hs) (.ofNodes (hw.graphs g s hs)
        (stays_mem_moveKinds a) ⟨rfl, rfl, rfl, rfl, rfl, rfl⟩ rfl fun hp => hp.elim .inl fun hp => .inr (.inl hp))

/-- One graph is edited; `hf` is what the edit is known to do. -/
theorem GraphStep.edit {w w' : World} {a : Act} {g : String} (name : String)
    {f : GraphSpec → Except String GraphSpec} (hw : w.Wf)
    (hf : ∀ s s', w.graphs.lookup name = some s → f s = .ok s' →
      EditOk (moveKinds a) w.shared w'.shared s s')
    (h : w'.graphs = (w.editGraph name f).graphs) : GraphStep w a w' g := by
  rcases w.editGraph_eq name f with he | ⟨s, s', hs, hfs, he⟩
  · exact .same hw (by rw [h, he])
  · rw [he] at h
    by_cases hg : g = name
    · subst hg
      refine .edited s s' hs ?_ (hf s s' hs hfs)
      rw [h, AList.lookup_insert]
    · refine .same hw ?_
      rw [h, AList.lookup_insert_ne hg]

theorem driverStep_goals {w w' : World} {s : DriverStep} (hw : w.Wf)
    (h : w.driverStep s = some w') (ws : Uuid) :
    RunEffect (goalOp w (.driver s)) w.shared w'.shared ws := by
  cases World.driverStep_turn h with
  | process env graph todo hd =>
      unfold World.processNamed
      split
      · exact .inl rfl
      next spec hspec =>
        exact .grows (processGraph_grows env spec w.shared (hw.graphs graph spec hspec).nodup) ws
  | purge live hd =>
      simp only [goalOp, hd]
      exact .inl (lookup_purge _ _ _)
  | drop k todo hd =>
      simp only [goalOp, hd]
      exact .inl (AList.lookup_erase_eq_ite _ _ _)
  | writeEnd now k todo hd =>
      simp only [goalOp, hd]
      exact .same rfl
  | write now k wb due todo hd =>
      cases wb with
      | setRun f =>
          simp only [goalOp, hd]
          exact .modify (k := k) (fun _ => rfl) rfl
      | escalate status =>
          simp only [goalOp, hd]
          exact .modify (k := k) (fun _ => rfl) rfl
  | tick _ | snapshot _ | collect _ | cloneEnd _ | cloneGone _ _ _ | clone _ _ _ _ _
  | evaluate _ _ _ _ _ | callRefused _ _ _ _ | call _ _ _ _ _ _ | returned _ _ _ => exact .same rfl

/-- **The run in a workspace, before and after a step.** -/
theorem step_lookup_goals {w w' : World} {a : Act} (hw : w.Wf) (h : w.step a = some w')
    (ws : Uuid) : RunEffect (goalOp w a) w.shared w'.shared ws := by
  cases a with
  | request r =>
      cases h
      exact serve_goals w r ws
  | thread t s => exact threadStep_goals h ws
  | driver s => exact driverStep_goals hw h ws
  | openWorkspace =>
      cases h
      exact .same rfl
  | closeWorkspace k =>
      cases h
      exact .same rfl
  | restart unreadable restored =>
      obtain ⟨-, rfl⟩ := World.step_restart h
      exact .inl rfl

theorem serve_graphs {w : World} (hw : w.Wf) (r : Request) (g : String) :
    GraphStep w (.request r) (w.serve r) g := by
  cases r with
  | approve name file =>
      exact .edit name hw (fun s s' hs hf => approveGraph_edit (hw.graphs _ s hs) hf) rfl
  | revise name env =>
      exact .edit name hw (fun s s' hs hf => reviseGraph_edit (hw.graphs _ s hs) hf) rfl
  | pause name =>
      refine .edit name hw (fun s s' hs hf => ?_) rfl
      cases hf
      exact setGraphState_edit (hw.graphs _ s hs) (.inl rfl)
  | resume name git =>
      exact .edit name hw (fun s s' hs hf => resumeGraph_edit (hw.graphs _ s hs) hf) rfl
  | updateGoal name id text =>
      exact .edit name hw (fun s s' hs hf => updateNodeGoal_edit (hw.graphs _ s hs) hf) rfl
  | updatePosition name id x y =>
      refine .edit name hw (fun s s' hs hf => ?_) rfl
      cases hf
      exact updateNodePosition_edit (hw.graphs _ s hs)
  | stopRun ws => exact .same hw rfl
  | createGoal spec env =>
      refine .same hw ?_
      dsimp only [World.serve]
      split <;> rfl

theorem threadStep_graphs {w w' : World} {t : Nat} {s : ThreadStep} (hw : w.Wf)
    (h : w.threadStep t s = some w') (g : String) : GraphStep w (.thread t s) w' g := by
  cases World.threadStep_turn h with
  | createBegin name params env w₁ hw₁ =>
      rcases World.releaseName_eq hw₁ with rfl | rfl
      · exact .same hw rfl
      · by_cases hg : g = name
        · subst hg
          refine .ended rfl fun s' hs' => ?_
          rw [World.setThread_graphs, AList.lookup_erase] at hs'
          cases hs'
        · exact .same hw (AList.lookup_erase_ne hg)
  | createInsert spec hspec =>
      by_cases hg : g = spec.name
      · subst hg
        -- whatever graph had the name is overwritten by one without a plan
        refine .ended ⟨spec, hspec, rfl⟩ fun s' hs' => ?_
        have hins : (w.insertGraph spec).graphs.lookup spec.name
            = some { spec with orchestratorWorkspace := some w.shared.nextUuid } :=
          AList.lookup_insert _
        rw [World.setThread_graphs, hins] at hs'
        cases hs'
        exact hw.creating t spec hspec
      · exact .same hw (AList.lookup_insert_ne hg)
  | stopBegin name =>
      refine .edit name hw (fun s s' hs hf => ?_) rfl
      cases hf
      exact setGraphState_edit (hw.graphs _ s hs) (.inr rfl)
  | acceptFinish git link hlink =>
      refine .edit link.graph hw (fun s s' hs hf => ?_) rfl
      cases hf
      exact finishNode_edit (hw.graphs _ s hs)
  | continueFinish link hlink =>
      refine .edit link.graph hw (fun s s' hs hf => ?_) rfl
      cases hf
      exact continueSpec_edit (hw.graphs _ s hs)
  | createRefused _ _ _ | createFail _ _ | stopUnknown _ | stopRuns _ _ | completeNothing _ _ _
  | completeBegin _ _ _ | completeWrite _ _ | acceptUnknown _ _ | acceptMark _
  | acceptUnlinked _ _ | acceptRead _ _ _ | continueRefused _ _ | continueBegin _ _ _ _
  | panelContinue _ | advanceSend _ _ _ | advanceUnsent _ _ _ | advanceWrite _ _ _
  | continueUnlinked _ _ | continueRead _ _ _ => exact .same hw rfl

/-- Outside a scheduler tick the main loop does not touch the graphs. -/
theorem driverStep_graphs_eq {w w' : World} {s : DriverStep} (h : w.driverStep s = some w')
    (hs : ∀ env, s ≠ .process env) : w'.graphs = w.graphs := by
  cases World.driverStep_turn h with
  | process env graph todo hd => exact absurd rfl (hs env)
  | tick _ | snapshot _ | purge _ _ | collect _ | cloneEnd _ | cloneGone _ _ _ | clone _ _ _ _ _
  | evaluate _ _ _ _ _ | drop _ _ _ | writeEnd _ _ _ _ | write _ _ _ _ _ _
  | callRefused _ _ _ _ | call _ _ _ _ _ _ | returned _ _ _ => rfl

theorem processNamed_graphs {w : World} (hw : w.Wf) (name : String) (env : TickEnv) (g : String) :
    GraphStep w (.driver (.process env)) (w.processNamed name env) g := by
  unfold World.processNamed
  split
  · exact .same hw rfl
  next s hs =>
    by_cases hg : g = name
    · subst hg
      refine .edited s (processGraph env s w.shared).spec hs (AList.lookup_insert _) ?_
      exact processGraph_edit env w.shared (hw.graphs g s hs)
    · exact .same hw (AList.lookup_insert_ne hg)

theorem restart_graphs {w : World} (hw : w.Wf) (unreadable : List String) (restored : List Uuid)
    (g : String) :
    GraphStep w (.restart unreadable restored) (w.restart unreadable restored) g := by
  have hlookup : (w.restart unreadable restored).graphs.lookup g
      = ((w.graphs.lookup g).filter fun _ => decide (g ∉ unreadable)).map reconcile := by
    show ((w.graphs.retain _).mapVals _).lookup g = _
    rw [AList.lookup_mapVals, AList.lookup_retain]
  by_cases hg : g ∈ unreadable
  · refine .ended hg fun s' hs' => ?_
    rw [hlookup] at hs'
    cases hs : w.graphs.lookup g <;> simp [hs, hg] at hs'
  · cases hs : w.graphs.lookup g with
    | none =>
        refine .absent hs ?_
        rw [hlookup, hs]
        rfl
    | some s =>
        refine .edited s (reconcile s) hs ?_ (reconcile_edit (hw.graphs g s hs))
        rw [hlookup, hs]
        simp [hg]

/-- **Each graph, before and after a step.** -/
theorem step_graphs {w w' : World} {a : Act} (hw : w.Wf) (h : w.step a = some w') (g : String) :
    GraphStep w a w' g := by
  cases a with
  | request r =>
      cases h
      exact serve_graphs hw r g
  | thread t s => exact threadStep_graphs hw h g
  | driver s =>
      by_cases hs : ∃ env, s = .process env
      · obtain ⟨env, rfl⟩ := hs
        have hdriver : w.driverStep (.process env) = some w' := h
        cases World.driverStep_turn hdriver with
        | process _ name todo hd =>
            cases processNamed_graphs hw name env g with
            | ended h hnew => exact .ended h hnew
            | absent h h' => exact .absent h h'
            | edited s s' h h' hedit => exact .edited s s' h h' hedit
      · have heq := driverStep_graphs_eq (s := s) h fun env he => hs ⟨env, he⟩
        exact .same hw (by rw [heq])
  | openWorkspace =>
      cases h
      exact .same hw rfl
  | closeWorkspace k =>
      cases h
      exact .same hw rfl
  | restart unreadable restored =>
      obtain ⟨-, rfl⟩ := World.step_restart h
      exact restart_graphs hw unreadable restored g

/-- **One node, before and after a step** of its graph's lifetime. -/
theorem step_node {w w' : World} {a : Act} (hw : w.Wf) (h : w.step a = some w')
    {g id : String} {s : GraphSpec} {n : GraphNode} (hs : w.graphs.lookup g = some s)
    (hn : s.node id = some n) (hlife : ¬ EndsLifetime w g a) :
    ∃ s' n', w'.graphs.lookup g = some s' ∧ s'.node id = some n' ∧ SpecFrame s s' ∧
      ∃ k ∈ moveKinds a, NodeMove s w.shared w'.shared n n' k := by
  cases step_graphs hw h g with
  | ended hend _ => exact absurd hend hlife
  | absent hnone _ =>
      rw [hs] at hnone
      cases hnone
  | edited s₀ s' hs₀ hs' hedit =>
      obtain rfl : s₀ = s := Option.some.inj (hs₀.symm.trans hs)
      cases hedit.1 with
      | planned hnil _ _ _ =>
          have hmem := GraphSpec.node_mem hn
          rw [hnil] at hmem
          exact absurd hmem List.not_mem_nil
      | moved hm =>
          obtain ⟨n', hn', hmove⟩ := hm.moves id n hn
          exact ⟨s', n', hs', hn', hm.frame, hmove⟩

/-- Where a node comes from: it is of a plan that has just been accepted, or a move of the step
has made it of the node before. -/
inductive NodeOrigin (w : World) (a : Act) (w' : World) (g id : String) (s' : GraphSpec)
    (n' : GraphNode) : Prop
  | planned (hpending : n'.status = .pending) (hworkspace : n'.workspace = none)
      (hworktree : n'.worktree = none)
  | moved (s : GraphSpec) (n : GraphNode) (k : MoveKind) (hs : w.graphs.lookup g = some s)
      (hn : s.node id = some n) (hframe : SpecFrame s s') (hk : k ∈ moveKinds a)
      (hmove : NodeMove s w.shared w'.shared n n' k)

/-- **One node after a step, and where it comes from.** -/
theorem step_node_back {w w' : World} {a : Act} (hw : w.Wf) (h : w.step a = some w')
    {g id : String} {s' : GraphSpec} {n' : GraphNode} (hs' : w'.graphs.lookup g = some s')
    (hn' : s'.node id = some n') : NodeOrigin w a w' g id s' n' := by
  have hmem := GraphSpec.node_mem hn'
  cases step_graphs hw h g with
  | ended _ hnew =>
      -- a graph that was just created has no nodes
      rw [hnew s' hs'] at hmem
      exact absurd hmem List.not_mem_nil
  | absent _ hnone =>
      rw [hnone] at hs'
      cases hs'
  | edited s s₁ hs hs₁ hedit =>
      obtain rfl : s₁ = s' := Option.some.inj (hs₁.symm.trans hs')
      cases hedit.1 with
      | planned _ _ hplan _ =>
          obtain ⟨hworkspace, hworktree⟩ := hplan.unlaunched n' hmem
          exact .planned (hplan.pending n' hmem) hworkspace hworktree
      | moved hm =>
          obtain ⟨n, hn, k, hk, hmove⟩ := hm.back hn'
          exact .moved s n k hs hn hm.frame hk hmove

/-- Only a restart cuts nodes off. -/
theorem restart_of_cut {a : Act} (h : MoveKind.cut ∈ moveKinds a) :
    ∃ unreadable restored, a = .restart unreadable restored := by
  unfold moveKinds at h
  split at h
  case h_5 unreadable restored => exact ⟨unreadable, restored, rfl⟩
  all_goals exact absurd h (by decide)

/-- Only a tick launches nodes, loses them or puts them up for review. -/
theorem process_of_tick {a : Act} {k : MoveKind} (hk : k = .launched ∨ k = .lost ∨ k = .reviewed)
    (h : k ∈ moveKinds a) : ∃ env, a = .driver (.process env) := by
  unfold moveKinds at h
  split at h
  case h_4 env => exact ⟨env, rfl⟩
  all_goals
    rcases hk with rfl | rfl | rfl
    all_goals exact absurd h (by decide)

/-! ## §3. Runs that disappear. -/

/-- The action removes the run of workspace `ws` from the goal registry: the
purge of a terminal run whose workspace was closed, the drop of a run whose
workspace was closed, or a restart. -/
def RemovesRun (w : World) (ws : Uuid) : Act → Prop
  | .driver .purge => ∃ live run, w.driver = .purging live ∧ w.shared.goals.lookup ws = some run ∧
      run.status.isTerminal = true ∧ ws ∉ live
  | .driver .drop => ∃ todo, w.driver = .dropping ws todo
  | .restart _ _ => True
  | _ => False

theorem purge_of_goalOp {w : World} {a : Act} {live : List Uuid} (h : goalOp w a = .purge live) :
    a = .driver .purge ∧ w.driver = .purging live := by
  unfold goalOp at h
  repeat' split at h
  all_goals cases h
  exact ⟨rfl, by assumption⟩

theorem drop_of_goalOp {w : World} {a : Act} {ws : Uuid} (h : goalOp w a = .drop ws) :
    a = .driver .drop ∧ ∃ todo, w.driver = .dropping ws todo := by
  unfold goalOp at h
  repeat' split at h
  all_goals cases h
  exact ⟨rfl, _, by assumption⟩

theorem restart_of_goalOp {w : World} {a : Act} (h : goalOp w a = .clear) :
    ∃ unreadable restored, a = .restart unreadable restored := by
  unfold goalOp at h
  repeat' split at h
  all_goals cases h
  exact ⟨_, _, rfl⟩

/-- A run that the step does not remove is still registered, with the same link. -/
theorem step_keeps_run {w w' : World} {a : Act} (hw : w.Wf) (h : w.step a = some w') {ws : Uuid}
    {run : GoalRun} (hb : ws < w.shared.nextUuid) (hrun : w.shared.goals.lookup ws = some run)
    (hkeep : ¬ RemovesRun w ws a) :
    ∃ run', w'.shared.goals.lookup ws = some run' ∧ run'.graph = run.graph := by
  rcases step_lookup_goals hw h ws with heq | ⟨_, hlo, _⟩
  · rw [heq, hrun]
    cases hop : goalOp w a with
    | keep | grow => exact ⟨run, rfl, rfl⟩
    | setRun k f =>
        by_cases hk : ws = k
        · exact ⟨f.apply run, by simp [GoalOp.onRun, hk], f.apply_graph run⟩
        · exact ⟨run, by simp [GoalOp.onRun, hk], rfl⟩
    | escalate k status now =>
        by_cases hk : ws = k
        · exact ⟨run.escalate status now, by simp [GoalOp.onRun, hk], run.escalate_graph _ _⟩
        · exact ⟨run, by simp [GoalOp.onRun, hk], rfl⟩
    | stop k =>
        by_cases hk : ws = k
        · exact ⟨run.stop, by simp [GoalOp.onRun, hk], rfl⟩
        · exact ⟨run, by simp [GoalOp.onRun, hk], rfl⟩
    | markDone k =>
        by_cases hk : ws = k
        · exact ⟨run.markDone, by simp [GoalOp.onRun, hk], rfl⟩
        · exact ⟨run, by simp [GoalOp.onRun, hk], rfl⟩
    | begin k next =>
        by_cases hk : ws = k
        · exact ⟨run.begin next, by simp [GoalOp.onRun, hk], rfl⟩
        · exact ⟨run, by simp [GoalOp.onRun, hk], rfl⟩
    | stopOf g => exact ⟨run.stopIfOf g, rfl, run.stopIfOf_graph g⟩
    | purge live =>
        obtain ⟨rfl, hd⟩ := purge_of_goalOp hop
        have hkept : (!run.status.isTerminal || decide (ws ∈ live)) = true := by
          by_contra hno
          simp only [Bool.not_eq_true, Bool.or_eq_false_iff, Bool.not_eq_false',
            decide_eq_false_iff_not] at hno
          exact hkeep ⟨live, run, hd, hrun, hno.1, hno.2⟩
        exact ⟨run, by simp [GoalOp.onRun, hkept], rfl⟩
    | drop k =>
        obtain ⟨rfl, todo, hd⟩ := drop_of_goalOp hop
        have hk : ws ≠ k := by
          rintro rfl
          exact hkeep ⟨todo, hd⟩
        exact ⟨run, by simp [GoalOp.onRun, hk], rfl⟩
    | clear =>
        obtain ⟨unreadable, restored, rfl⟩ := restart_of_goalOp hop
        exact absurd trivial hkeep
  · exact absurd hb (Nat.not_lt.mpr hlo)

end Jmux.Goal
