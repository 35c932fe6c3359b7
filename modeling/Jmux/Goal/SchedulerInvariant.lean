/-
  Jmux.Goal.SchedulerInvariant — the scheduler's contract with a plan.

  Over every run of the system: a node is launched only when all its
  dependencies are done, a done node stays done for as long as its graph lives,
  and running and review nodes never outnumber `max_concurrency`.

  Main results:
    * `step_launches`       — where calls of `launch_node` come from.
    * `step_keeps_done`     — one step keeps a done node done.
    * `scheduler_invariant` — the three properties, in every reachable world.
-/
import Jmux.Goal.WorldInvariant

namespace Jmux.Goal

open Jmux.Lib

/-! ## §1. Launches. -/

/-- The launch was of a pending node all of whose dependencies were done. -/
def Launch.Allowed (l : Launch) : Prop :=
  ∃ n, l.call.spec.node l.call.node = some n ∧ n.status = .pending ∧
    ∀ d ∈ n.deps, l.call.spec.HasStatus d .done

/-- One scheduler tick of graph `g`, whose spec it found to be `s`. -/
structure TickOf (w w' : World) (env : TickEnv) (g : String) (s : GraphSpec) : Prop where
  turn : ∃ todo, w.driver = .scheduling (g :: todo)
  found : w.graphs.lookup g = some s
  graphs : w'.graphs = w.graphs.insert g (processGraph env s w.shared).spec
  shared : w'.shared = (processGraph env s w.shared).shared
  launches : w'.launches
    = w.launches ++ (processGraph env s w.shared).calls.map fun c => ⟨g, w.graphs, c⟩

/-- A scheduler step ticks one graph, if the name it has collected still exists. -/
theorem step_process {w w' : World} {env : TickEnv}
    (h : w.step (.driver (.process env)) = some w') :
    (w'.graphs = w.graphs ∧ w'.launches = w.launches) ∨ ∃ g s, TickOf w w' env g s := by
  have hdriver : w.driverStep (.process env) = some w' := h
  cases World.driverStep_turn hdriver with
  | process _ g todo hturn =>
      cases hs : w.graphs.lookup g with
      | none => exact .inl (by simp [World.processNamed, hs])
      | some s =>
          refine .inr ⟨g, s, ⟨todo, hturn⟩, hs, ?_, ?_, ?_⟩ <;> simp [World.processNamed, hs]

/-- A graph that a scheduler step has changed is the one it ticked. -/
theorem tickOf_of_changed {w w' : World} {env : TickEnv} {g : String} {s s' : GraphSpec}
    (h : w.step (.driver (.process env)) = some w') (hs : w.graphs.lookup g = some s)
    (hs' : w'.graphs.lookup g = some s') (hne : s' ≠ s) :
    TickOf w w' env g s ∧ s' = (processGraph env s w.shared).spec := by
  rcases step_process h with ⟨heq, _⟩ | ⟨g₁, s₁, htick⟩
  · rw [heq, hs] at hs'
    exact absurd (Option.some.inj hs').symm hne
  · have hg : g = g₁ := by
      by_contra hother
      rw [htick.graphs, AList.lookup_insert_ne hother, hs] at hs'
      exact hne (Option.some.inj hs').symm
    subst hg
    obtain rfl : s₁ = s := Option.some.inj (htick.found.symm.trans hs)
    rw [htick.graphs, AList.lookup_insert] at hs'
    exact ⟨htick, (Option.some.inj hs').symm⟩

/-- **Only a scheduler tick launches nodes.** -/
theorem step_launches {w w' : World} {a : Act} (h : w.step a = some w') :
    w'.launches = w.launches ∨
      ∃ env g s, a = .driver (.process env) ∧ TickOf w w' env g s := by
  cases a with
  | request r =>
      cases h
      exact .inl (serve_frame w r).2.2.2
  | thread t s => exact .inl (threadStep_histories h).1
  | driver s =>
      rcases (driverStep_histories h).2 with hl | ⟨env, rfl⟩
      · exact .inl hl
      · rcases step_process h with ⟨_, hl⟩ | ⟨g, s, htick⟩
        · exact .inl hl
        · exact .inr ⟨env, g, s, rfl, htick⟩
  | openWorkspace =>
      cases h
      exact .inl rfl
  | closeWorkspace k =>
      cases h
      exact .inl rfl
  | restart unreadable restored =>
      obtain ⟨-, rfl⟩ := World.step_restart h
      exact .inl rfl

/-- Every call of `launch_node` in a tick is allowed. -/
theorem processGraph_calls (env : TickEnv) {s : GraphSpec} {shared : Shared} (hw : s.WellFormed)
    {c : LaunchCall} (hc : c ∈ (processGraph env s shared).calls) :
    SpecMoves MoveKind.ofTick shared (processGraph env s shared).shared s c.spec ∧
    (∃ n, c.spec.node c.node = some n ∧ n.status = .pending ∧
      ∀ d ∈ n.deps, c.spec.HasStatus d .done) ∧
    ∀ p, c.forced = some p → c.spec.OwnWorktree c.node p := by
  unfold processGraph at hc ⊢
  split at hc
  · exact absurd hc List.not_mem_nil
  · exact (tickRunning_effect env shared hw.nodup).calls c hc
  · exact absurd hc List.not_mem_nil

/-- A tick launches every node that it takes from pending to running. -/
theorem processGraph_launched (env : TickEnv) {s : GraphSpec} {shared : Shared}
    (hw : s.WellFormed) {id : String} {n n' : GraphNode} (hn : s.node id = some n)
    (hn' : (processGraph env s shared).spec.node id = some n') (hpend : n.status = .pending)
    (hrun : n'.status = .running) : ∃ c ∈ (processGraph env s shared).calls, c.node = id := by
  unfold processGraph at hn' ⊢
  split at hn'
  next hs =>
    -- a graph that waits for its plan has no node to launch
    have hmem := GraphSpec.node_mem hn
    rw [hw.unplanned (.inl hs)] at hmem
    exact absurd hmem List.not_mem_nil
  · exact (tickRunning_effect env shared hw.nodup).launched id n n' hn hn' hpend hrun
  · rw [hn] at hn'
    cases hn'
    exact absurd (hpend.symm.trans hrun) (by decide)

theorem reachable_allowed {w₀ w : World} (h0 : w₀.Start) (hr : Reachable World.step w₀ w) :
    ∀ l ∈ w.launches, l.Allowed := by
  have hinv : w.Wf ∧ ∀ l ∈ w.launches, l.Allowed := by
    refine hr.invariant (fun w => w.Wf ∧ ∀ l ∈ w.launches, l.Allowed) ?_ ?_
    · refine ⟨h0.wf, fun l hl => ?_⟩
      rw [h0.launches] at hl
      exact absurd hl List.not_mem_nil
    · intro w a w' hw _ h
      refine ⟨step_wf hw.1 h, fun l hl => ?_⟩
      -- only a tick adds launches, and its own are allowed
      rcases step_launches h with heq | ⟨env, g, s, _, htick⟩
      · exact hw.2 l (heq ▸ hl)
      · rw [htick.launches] at hl
        rcases List.mem_append.mp hl with hl | hl
        · exact hw.2 l hl
        · obtain ⟨c, hc, rfl⟩ := List.mem_map.mp hl
          exact (processGraph_calls env (hw.1.graphs g s htick.found) hc).2.1
  exact hinv.2

/-- Only a launch takes a pending node to running. -/
theorem NodeMove.launched_of_pending {s : GraphSpec} {before after : Shared} {n n' : GraphNode}
    {k : MoveKind} (h : NodeMove s before after n n' k) (hn : n.status = .pending)
    (hn' : n'.status = .running) : k = .launched := by
  cases k with
  | launched => rfl
  | stays => exact absurd (hn'.symm.trans (h.1.trans hn)) (by decide)
  | settles => rcases h.2.1 with hs | hs <;> exact absurd (hs.symm.trans hn') (by decide)
  | lost => exact absurd (h.1.symm.trans hn) (by decide)
  | reviewed => exact absurd (h.1.symm.trans hn) (by decide)
  | resumed => exact absurd (h.1.symm.trans hn) (by decide)
  | continued => exact absurd (h.1.symm.trans hn) (by decide)
  | cut =>
      have hactive := h.1
      rw [hn] at hactive
      cases hactive

/-- A pending node that is running after a step was launched in that step. -/
theorem step_pending_running {w w' : World} {a : Act} (hw : w.Wf) (h : w.step a = some w')
    {g id : String} {s s' : GraphSpec} (hs : w.graphs.lookup g = some s)
    (hs' : w'.graphs.lookup g = some s') (hlife : ¬ EndsLifetime w g a)
    (hpend : s.HasStatus id .pending) (hrun : s'.HasStatus id .running) :
    ∃ l ∈ w'.launches.drop w.launches.length, l.graph = g ∧ l.call.node = id := by
  obtain ⟨n, hn, hnst⟩ := hpend
  obtain ⟨n', hn', hnst'⟩ := hrun
  obtain ⟨s₁, n₁, hs₁, hn₁, _, k, hk, hmove⟩ := step_node hw h hs hn hlife
  obtain rfl : s₁ = s' := Option.some.inj (hs₁.symm.trans hs')
  obtain rfl : n₁ = n' := Option.some.inj (hn₁.symm.trans hn')
  obtain rfl := hmove.launched_of_pending hnst hnst'
  obtain ⟨env, rfl⟩ := process_of_tick (.inl rfl) hk
  -- the node has changed, so the tick was of graph `g`
  have hchanged : s₁ ≠ s := by
    rintro rfl
    obtain rfl : n = n₁ := Option.some.inj (hn.symm.trans hn₁)
    exact absurd (hnst.symm.trans hnst') (by decide)
  obtain ⟨htick, rfl⟩ := tickOf_of_changed h hs hs' hchanged
  obtain ⟨c, hc, hcid⟩ := processGraph_launched env (hw.graphs g s hs) hn hn₁ hnst hnst'
  refine ⟨⟨g, w.graphs, c⟩, ?_, rfl, hcid⟩
  -- the tick appends its calls to the history
  rw [htick.launches, List.drop_left]
  exact List.mem_map.mpr ⟨c, hc, rfl⟩

/-! ## §2. Done is final. -/

/-- **One step keeps a done node done**, unless it ends the graph's lifetime. -/
theorem step_keeps_done {w w' : World} {a : Act} (hw : w.Wf) (h : w.step a = some w')
    {g id : String} {s : GraphSpec} (hs : w.graphs.lookup g = some s)
    (hlife : ¬ EndsLifetime w g a) (hdone : s.HasStatus id .done) :
    ∃ s', w'.graphs.lookup g = some s' ∧ s'.HasStatus id .done := by
  obtain ⟨n, hn, hst⟩ := hdone
  obtain ⟨s', n', hs', hn', _, k, _, hmove⟩ := step_node hw h hs hn hlife
  exact ⟨s', hs', n', hn', hmove.done hst⟩

/-- A done node stays done in every run during the graph's lifetime. -/
theorem run_keeps_done {w w' : World} {g id : String} {s : GraphSpec} (hw : w.Wf)
    (hs : w.graphs.lookup g = some s) (hdone : s.HasStatus id .done)
    (hr : Reach World.step (fun w a => ¬ EndsLifetime w g a) w w') :
    ∃ s', w'.graphs.lookup g = some s' ∧ s'.HasStatus id .done := by
  have hinv : w'.Wf ∧ ∃ s', w'.graphs.lookup g = some s' ∧ s'.HasStatus id .done := by
    refine hr.invariant
      (fun w => w.Wf ∧ ∃ s', w.graphs.lookup g = some s' ∧ s'.HasStatus id .done)
      ⟨hw, s, hs, hdone⟩ ?_
    intro w₁ a w₂ hinv hlife h
    obtain ⟨hw₁, s₁, hs₁, hdone₁⟩ := hinv
    exact ⟨step_wf hw₁ h, step_keeps_done hw₁ h hs₁ hlife hdone₁⟩
  exact hinv.2

/-! ## §3. The contract. -/

/-- **The scheduler invariant.**  From any world whose graphs have no plan yet,
with any concurrency caps, in every world that any interleaving reaches:
launches have only ever been of pending nodes with all dependencies done, and a
step takes a node from pending to running only by a launch; a done node stays
done for the rest of its graph's lifetime; and no graph has more running and
review nodes than its cap. -/
theorem scheduler_invariant {w₀ w : World} (h0 : w₀.Start) (hr : Reachable World.step w₀ w) :
    (∀ l ∈ w.launches, l.Allowed) ∧
    (∀ a w', w.step a = some w' → ∀ g s s' id, w.graphs.lookup g = some s →
      w'.graphs.lookup g = some s' → ¬ EndsLifetime w g a → s.HasStatus id .pending →
      s'.HasStatus id .running →
      ∃ l ∈ w'.launches.drop w.launches.length, l.graph = g ∧ l.call.node = id) ∧
    (∀ g s id, w.graphs.lookup g = some s → s.HasStatus id .done →
      ∀ w', Reach World.step (fun w a => ¬ EndsLifetime w g a) w w' →
        ∃ s', w'.graphs.lookup g = some s' ∧ s'.HasStatus id .done) ∧
    (∀ g s, w.graphs.lookup g = some s → s.activeCount ≤ s.maxConcurrency) := by
  have hw := reachable_wf h0 hr
  refine ⟨reachable_allowed h0 hr, ?_, ?_, ?_⟩
  · intro a w' h g s s' id hs hs' hlife hpend hrun
    exact step_pending_running hw h hs hs' hlife hpend hrun
  · intro g s id hs hdone w' hrun
    exact run_keeps_done hw hs hdone hrun
  · intro g s hs
    exact (hw.graphs g s hs).slots

/-! ## §4. A run. -/

/-- A plan of two nodes, the second waiting for the first. -/
def chainPlan : ProposalFile :=
  .ok (.ok ⟨[{ id := "a", goal := "do a" }, { id := "b", goal := "do b", deps := ["a"] }]⟩)

/-- A plan of one node. -/
def onePlan : ProposalFile := .ok (.ok ⟨[{ id := "a", goal := "do a" }]⟩)

/-- Create a graph over a base checkout on thread 1 and approve a plan for it. -/
def startGraph (name : String) (plan : ProposalFile) (params : CreateParams := {})
    (base : String := "/r") : List Act :=
  [.thread 1 (.createBegin name params { baseCwd := base, baseIsGit := true }),
   .thread 1 .createInsert,
   .request (.approve name plan)]

/-- Two ticks of one graph; in between, the agent of node `a` reports done. -/
def chainRun : List Act :=
  startGraph "g" chainPlan ++
    [.driver .tick, .driver (.process {}), .driver .snapshot, .driver .purge, .driver .collect,
     .driver .clone, .driver (.evaluate { file := some "---\nstatus: done\n---\n" }),
     .driver (.write 0), .driver (.write 0), .driver .clone,
     .driver .tick, .driver (.process {})]

theorem chainRun_exec : (exec World.step {} chainRun).isSome = true := by decide

/-- In that run node `b` is launched, and it is launched after its dependency. -/
theorem scheduler_invariant_chain :
    ∃ l ∈ (World.after chainRun).launches, l.call.node = "b" ∧ l.Allowed := by
  have hlast : ((World.after chainRun).launches.getLast?.map (·.call.node)) = some "b" := by
    decide
  obtain ⟨l, hl, hnode⟩ := Option.map_eq_some_iff.mp hlast
  have hmem := List.mem_of_getLast? hl
  exact ⟨l, hmem, hnode, (scheduler_invariant World.start_empty
    (reachable_of_exec (World.after_exec chainRun_exec))).1 l hmem⟩

end Jmux.Goal
