/-
  Jmux.Goal.FinishedWork — whether finished work can be redone.

  The sync takes a running node whose run is gone for an interrupted one, and
  `resume` makes an interrupted node pending again.  A run whose agent has
  finished can be gone as well: the main loop purges it once its workspace is
  closed, and while the graph is paused no tick comes before the purge.

  Main results:
    * `reachable_unbacked`   — pending and interrupted nodes have no run.
    * `finished_work_kept`   — no node is redone as long as no tick finds it
                                running with its run gone.
    * `finished_work_redone` — a run in which a finished node is launched again.
-/
import Jmux.Goal.SchedulerInvariant

namespace Jmux.Goal

open Jmux.Lib

/-! ## §1. Pending and interrupted nodes have no run. -/

/-- A node that waits for a launch or for a resume has no run in its workspace. -/
def World.Unbacked (w : World) : Prop :=
  ∀ g s id n ws, w.graphs.lookup g = some s → s.node id = some n → n.workspace = some ws →
    n.status = .pending ∨ n.status = .interrupted → w.shared.goals.lookup ws = none

/-- What the move of a waiting node says about its run before the step. -/
theorem NodeMove.unbacked {s : GraphSpec} {before after : Shared} {n n' : GraphNode}
    {k : MoveKind} (h : NodeMove s before after n n' k) {ws : Uuid}
    (hws : n'.workspace = some ws) (hst : n'.status = .pending ∨ n'.status = .interrupted)
    (hn : n.workspace = some ws → n.status = .pending ∨ n.status = .interrupted →
      before.goals.lookup ws = none) :
    n.workspace = some ws ∧ before.goals.lookup ws = none := by
  cases k with
  | stays =>
      have hold : n.workspace = some ws := h.2.1.symm.trans hws
      rw [h.1] at hst
      exact ⟨hold, hn hold hst⟩
  | lost =>
      have hold : n.workspace = some ws := h.2.2.2.1.symm.trans hws
      have hgone := h.2.1
      rw [hold] at hgone
      exact ⟨hold, hgone⟩
  | resumed =>
      have hold : n.workspace = some ws := h.2.2.1.symm.trans hws
      exact ⟨hold, hn hold (.inr h.1)⟩
  | settles => rcases h.2.1 with hs | hs <;> rw [hs] at hst <;> simp at hst
  | reviewed =>
      rw [h.2.2.1] at hst
      simp at hst
  | continued =>
      rw [h.2.1] at hst
      simp at hst
  | launched =>
      rw [Launched.status h] at hst
      simp at hst
  | cut =>
      have hnone := h.2.2.1
      rw [hws] at hnone
      cases hnone

theorem step_unbacked {w w' : World} {a : Act} (hw : w.Wf) (hb : w.Bounded) (hu : w.Unbacked)
    (h : w.step a = some w') : w'.Unbacked := by
  intro g s' id n' ws hs' hn' hws hst
  -- a run that was not there before the step is not there after it
  have hstill : ws < w.shared.nextUuid → w.shared.goals.lookup ws = none →
      w'.shared.goals.lookup ws = none := by
    intro hlt hnone
    cases hrun : w'.shared.goals.lookup ws with
    | none => rfl
    | some run =>
        rcases step_registered hw h hrun with ⟨r, hr⟩ | ⟨hge, _⟩
        · rw [hnone] at hr
          cases hr
        · exact absurd hlt (Nat.not_lt.mpr hge)
  cases step_node_back hw h hs' hn' with
  | planned _ hnone _ =>
      -- a node of a fresh plan has no workspace
      rw [hws] at hnone
      cases hnone
  | moved s n k hs hn _ _ hmove =>
      obtain ⟨hold, hgone⟩ :=
        hmove.unbacked hws hst fun hold hst => hu g s id n ws hs hn hold hst
      exact hstill (hb.nodes g s id n ws hs hn hold) hgone

theorem World.Start.unbacked {w : World} (h : w.Start) : w.Unbacked := by
  intro g s id n ws hs hn
  have hmem := GraphSpec.node_mem hn
  rw [h.unplanned g s hs] at hmem
  exact absurd hmem List.not_mem_nil

/-- **Pending and interrupted nodes have no run**, in every reachable world. -/
theorem reachable_unbacked {w₀ w : World} (h0 : w₀.Start) (hr : Reachable World.step w₀ w) :
    w.Unbacked := by
  have hinv : (w.Wf ∧ w.Bounded) ∧ w.Unbacked := by
    refine hr.invariant (fun w => (w.Wf ∧ w.Bounded) ∧ w.Unbacked)
      ⟨⟨h0.wf, h0.bounded⟩, h0.unbacked⟩ ?_
    intro w a w' hw _ h
    exact ⟨⟨step_wf hw.1.1 h, step_bounded hw.1.1 hw.1.2 h⟩,
      step_unbacked hw.1.1 hw.1.2 hw.2 h⟩
  exact hinv.2

/-! ## §2. Steps that do not lose finished work. -/

/-- The run bound to a node: the one in the workspace the node records. -/
def World.boundRun (w : World) (g id : String) : Option GoalRun :=
  ((w.graphs.lookup g).bind (·.node id)).bind (·.run w.shared.goals)

theorem World.boundRun_of_node {w : World} {g id : String} {s : GraphSpec} {n : GraphNode}
    (hs : w.graphs.lookup g = some s) (hn : s.node id = some n) :
    w.boundRun g id = n.run w.shared.goals := by
  unfold World.boundRun
  rw [hs, Option.bind_some, hn, Option.bind_some]

/-- The step belongs to the same run of the program and to the same graph. -/
def SameLife (g : String) (w : World) (a : Act) : Prop :=
  ¬ EndsLifetime w g a ∧ ∀ unreadable restored, a ≠ .restart unreadable restored

/-- When the step is a tick of graph `g` at work, it does not find node `id`
running with its run gone. -/
def TickFindsRun (g id : String) (w : World) (a : Act) : Prop :=
  ∀ env todo s, a = .driver (.process env) → w.driver = .scheduling (g :: todo) →
    w.graphs.lookup g = some s → s.status = .running → s.HasStatus id .running →
    w.boundRun g id ≠ none

def KeepsFinished (g id : String) (w : World) (a : Act) : Prop :=
  SameLife g w a ∧ TickFindsRun g id w a

/-- Neither waiting for a launch nor for a resume. -/
def NodeState.isStarted : NodeState → Bool
  | .pending | .interrupted => false
  | _ => true

/-- The node has been started and is not waiting to be started again. -/
def World.Started (w : World) (g id : String) : Prop :=
  ∃ s n, w.graphs.lookup g = some s ∧ s.node id = some n ∧ n.status.isStarted = true

/-- The calls of `launch_node` for one node of one graph. -/
def World.launchesOf (w : World) (g id : String) : List Launch :=
  w.launches.filter fun l => l.graph = g ∧ l.call.node = id

/-- A started node stays started, unless it is lost or cut off. -/
theorem NodeMove.started {s : GraphSpec} {before after : Shared} {n n' : GraphNode}
    {k : MoveKind} (h : NodeMove s before after n n' k) (hn : n.status.isStarted = true) :
    n'.status.isStarted = true ∨ k = .lost ∨ k = .cut := by
  cases k with
  | lost => exact .inr (.inl rfl)
  | cut => exact .inr (.inr rfl)
  | stays =>
      rw [h.1]
      exact .inl hn
  | settles =>
      left
      rcases h.2.1 with hs | hs <;> rw [hs] <;> rfl
  | reviewed =>
      rw [h.2.2.1]
      exact .inl rfl
  | resumed =>
      rw [h.1] at hn
      cases hn
  | continued =>
      rw [h.2.1]
      exact .inl rfl
  | launched =>
      rw [Launched.status h]
      exact .inl rfl

/-- A tick of a planned graph that is not at work does nothing. -/
theorem processGraph_eq_of_idle (env : TickEnv) (shared : Shared) {s : GraphSpec}
    (hw : s.WellFormed) (hne : s.nodes ≠ []) (hst : s.status ≠ .running) :
    (processGraph env s shared).spec = s ∧ (processGraph env s shared).calls = [] := by
  unfold processGraph
  split
  next hp => exact absurd (hw.unplanned (.inl hp)) hne
  next hr => exact absurd hr hst
  · exact ⟨rfl, rfl⟩

theorem step_started {w w' : World} {a : Act} {g id : String} (hw : w.Wf)
    (h : w.step a = some w') (hok : KeepsFinished g id w a) (hs : w.Started g id) :
    w'.Started g id := by
  obtain ⟨⟨hlife, hrestart⟩, htick⟩ := hok
  obtain ⟨s, n, hs, hn, hst⟩ := hs
  obtain ⟨s', n', hs', hn', _, k, hk, hmove⟩ := step_node hw h hs hn hlife
  rcases hmove.started hst with hst' | rfl | rfl
  · exact ⟨s', n', hs', hn', hst'⟩
  · -- the sync would have to find the node without a run
    exfalso
    obtain ⟨env, rfl⟩ := process_of_tick (.inr (.inl rfl)) hk
    obtain ⟨hr, hgone, hint, _⟩ := hmove
    have hchanged : s' ≠ s := by
      rintro rfl
      obtain rfl : n = n' := Option.some.inj (hn.symm.trans hn')
      exact absurd (hr.symm.trans hint) (by decide)
    obtain ⟨⟨⟨todo, hturn⟩, _, _, _, _⟩, hspec⟩ := tickOf_of_changed h hs hs' hchanged
    -- only a graph at work is synced
    have hrunning : s.status = .running := by
      by_contra hidle
      have hne : s.nodes ≠ [] := List.ne_nil_of_mem (GraphSpec.node_mem hn)
      have hsame := (processGraph_eq_of_idle env w.shared (hw.graphs g s hs) hne hidle).1
      exact hchanged (hspec.trans hsame)
    exact htick env todo s rfl hturn hs hrunning ⟨n, hn, hr⟩
      ((World.boundRun_of_node hs hn).trans hgone)
  · obtain ⟨unreadable, restored, rfl⟩ := restart_of_cut hk
    exact absurd rfl (hrestart unreadable restored)

/-- No step launches a started node. -/
theorem step_launchesOf {w w' : World} {a : Act} {g id : String} (hw : w.Wf)
    (h : w.step a = some w') (hs : w.Started g id) :
    w'.launchesOf g id = w.launchesOf g id := by
  unfold World.launchesOf
  rcases step_launches h with heq | ⟨env, g₁, s₁, _, htick⟩
  · rw [heq]
  · rw [htick.launches, List.filter_append]
    refine (congrArg _ (List.filter_eq_nil_iff.mpr fun l hl => ?_)).trans (List.append_nil _)
    obtain ⟨c, hc, rfl⟩ := List.mem_map.mp hl
    simp only [decide_eq_true_eq, not_and]
    rintro rfl rfl
    obtain ⟨s, n, hs, hn, hst⟩ := hs
    obtain rfl : s₁ = s := Option.some.inj (htick.found.symm.trans hs)
    -- the call found the node pending, and the tick makes no node pending
    obtain ⟨hmoves, ⟨m, hm, hpend, _⟩, _⟩ := processGraph_calls env (hw.graphs g₁ s₁ hs) hc
    obtain ⟨n₁, hn₁, k, hk, hmove⟩ := hmoves.back hm
    obtain rfl : n₁ = n := Option.some.inj (hn₁.symm.trans hn)
    rcases hmove.started hst with hst' | rfl | rfl
    · rw [hpend] at hst'
      cases hst'
    · exact absurd (hmove.2.2.1.symm.trans hpend) (by decide)
    · exact absurd hk (by decide)

/-! ## §3. The contract. -/

/-- **Finished work is kept.**  The run bound to a node has reached done; then
in every continuation of the run in which no tick finds the node running with
its run gone, the node is never pending and never launched again. -/
theorem finished_work_kept {w₀ w w' : World} (h0 : w₀.Start) (hr : Reachable World.step w₀ w)
    {g id : String} {run : GoalRun} (hrun : w.boundRun g id = some run) (_ : run.status = .done)
    (hkeep : Reach World.step (KeepsFinished g id) w w') :
    (∃ s', w'.graphs.lookup g = some s' ∧ (s'.node id).isSome ∧ ¬ s'.HasStatus id .pending) ∧
      w'.launchesOf g id = w.launchesOf g id := by
  obtain ⟨n, hn, hnrun⟩ := Option.bind_eq_some_iff.mp hrun
  obtain ⟨s, hs, hn⟩ := Option.bind_eq_some_iff.mp hn
  obtain ⟨ws, hws, hreg⟩ := Option.bind_eq_some_iff.mp hnrun
  have hstarted : w.Started g id := by
    refine ⟨s, n, hs, hn, ?_⟩
    by_contra hwait
    have hwaits : n.status = .pending ∨ n.status = .interrupted := by
      cases hst : n.status <;> rw [hst] at hwait <;> simp [NodeState.isStarted] at hwait ⊢
    -- a node that waits has no run, and this one has
    have hnone := reachable_unbacked h0 hr g s id n ws hs hn hws hwaits
    rw [hreg] at hnone
    cases hnone
  have hinv : w'.Wf ∧ w'.Started g id ∧ w'.launchesOf g id = w.launchesOf g id := by
    refine hkeep.invariant
      (fun v => v.Wf ∧ v.Started g id ∧ v.launchesOf g id = w.launchesOf g id)
      ⟨reachable_wf h0 hr, hstarted, rfl⟩ ?_
    intro v a v' hv hok h
    obtain ⟨hvw, hvs, hvl⟩ := hv
    exact ⟨step_wf hvw h, step_started hvw h hok hvs, (step_launchesOf hvw h hvs).trans hvl⟩
  obtain ⟨_, ⟨s', n', hs', hn', hst'⟩, hlaunches⟩ := hinv
  refine ⟨⟨s', hs', Option.isSome_iff_exists.mpr ⟨n', hn'⟩, ?_⟩, hlaunches⟩
  rintro ⟨m, hm, hpend⟩
  obtain rfl : n' = m := Option.some.inj (hn'.symm.trans hm)
  rw [hpend] at hst'
  cases hst'

/-! ## §4. Two runs. -/

/-- The rest of a main loop tick when the driver has nothing to do. -/
def restOfTick : List Act :=
  [.driver .snapshot, .driver .purge, .driver .collect, .driver .clone]

/-- Node `a` is launched, the graph is paused, and the agent reports done. -/
def finishedRun : List Act :=
  startGraph "g" onePlan ++
    [.driver .tick, .driver (.process {}), .request (.pause "g"),
     .driver .snapshot, .driver .purge, .driver .collect, .driver .clone,
     .driver (.evaluate { file := some "---\nstatus: done\n---\n" }),
     .driver (.write 0), .driver (.write 0), .driver .clone]

/-- Resume the graph and start a main loop tick. -/
def resumeTick : List Act := [.request (.resume "g" fun _ => {}), .driver .tick]

/-- The workspace is closed before the graph is resumed: the tick of the paused
graph does nothing, the purge removes the run, the next tick takes the node for
interrupted, and a second resume has it launched again. -/
def redoneRun : List Act :=
  .closeWorkspace 1 :: .driver .tick :: .driver (.process {}) :: restOfTick ++
    resumeTick ++ .driver (.process {}) :: restOfTick ++
    resumeTick ++ [.driver (.process { launch := fun _ => { worktreeExists := true } })]

/-- Requests, main loop steps and workspace closes neither end the lifetime of a
graph nor the run of the program. -/
def Act.isQuiet : Act → Bool
  | .thread _ _ | .restart _ _ => false
  | _ => true

theorem sameLife_of_quiet {g : String} {a : Act} (h : a.isQuiet = true) (w : World) :
    SameLife g w a := by
  cases a with
  | thread _ _ | restart _ _ => cases h
  | request _ | driver _ | openWorkspace | closeWorkspace _ =>
      exact ⟨id, fun _ _ he => by cases he⟩

theorem finishedRun_reachable : Reachable World.step {} (World.after finishedRun) :=
  reachable_of_exec (World.after_exec (by decide))

theorem finishedRun_done :
    ∃ run, (World.after finishedRun).boundRun "g" "a" = some run ∧ run.status = .done := by
  have hdone : ((World.after finishedRun).boundRun "g" "a").map (·.status) = some .done := by
    decide
  exact Option.map_eq_some_iff.mp hdone

theorem resumedRun_exec :
    (exec World.step {} (finishedRun ++ (resumeTick ++ [.driver (.process {})]))).isSome = true := by
  decide

/-- Without the close, the tick finds the run of the node and finishes it. -/
theorem finished_work_kept_resumed :
    (∃ s', (World.after (finishedRun ++ (resumeTick ++ [.driver (.process {})]))).graphs.lookup "g"
        = some s' ∧ (s'.node "a").isSome ∧ ¬ s'.HasStatus "a" .pending) ∧
    (World.after (finishedRun ++ (resumeTick ++ [.driver (.process {})]))).launchesOf "g" "a"
      = (World.after finishedRun).launchesOf "g" "a" := by
  obtain ⟨run, hrun, hst⟩ := finishedRun_done
  -- the tick after the resume finds the run
  have hmid : (World.after (finishedRun ++ resumeTick)).boundRun "g" "a" ≠ none := by decide
  refine finished_work_kept World.start_empty finishedRun_reachable hrun hst
    (reach_of_exec (World.after_append _ _ resumedRun_exec) ?_)
  refine everyStep_append (World.after_append _ _ (by decide)) (everyStep_of_forall ?_) ?_
  · intro a ha w
    refine ⟨sameLife_of_quiet ?_ w, ?_⟩
    · revert a
      decide
    · rintro env todo s rfl
      revert ha
      simp [resumeTick]
  · exact ⟨⟨sameLife_of_quiet rfl _, fun _ _ _ _ _ _ _ _ => hmid⟩, fun _ _ => trivial⟩

theorem redoneRun_exec :
    (exec World.step {} (finishedRun ++ redoneRun)).isSome = true := by decide

/-- **Finished work is redone**: in the run above the node whose run was done is
launched once more, and the launch removes the node's worktree by force. -/
theorem finished_work_redone :
    (¬ ∀ (w w' : World) (run : GoalRun), Reachable World.step {} w →
      w.boundRun "g" "a" = some run → run.status = .done →
      Reach World.step (SameLife "g") w w' →
      (∃ s', w'.graphs.lookup "g" = some s' ∧ (s'.node "a").isSome ∧
        ¬ s'.HasStatus "a" .pending) ∧ w'.launchesOf "g" "a" = w.launchesOf "g" "a") ∧
    (World.after (finishedRun ++ redoneRun)).launches.getLast?.bind (·.call.forced)
      = some "/r-worktrees/a" := by
  refine ⟨fun hkept => ?_, by decide⟩
  obtain ⟨run, hrun, hst⟩ := finishedRun_done
  have hquiet : ∀ a ∈ redoneRun, a.isQuiet = true := by decide
  have hrest := reach_of_exec (World.after_append _ _ redoneRun_exec)
    (everyStep_of_forall fun a ha => sameLife_of_quiet (g := "g") (hquiet a ha))
  have hsame := (hkept _ _ run finishedRun_reachable hrun hst hrest).2
  have hlen := congrArg List.length hsame
  have htwice : ((World.after (finishedRun ++ redoneRun)).launchesOf "g" "a").length
      ≠ ((World.after finishedRun).launchesOf "g" "a").length := by decide
  exact htwice hlen

end Jmux.Goal
