/-
  Jmux.Goal.Slots — whether every concurrency slot is backed by a run.

  Running and review nodes hold the slots of a graph.  The sync looks at running
  nodes only, so a review node whose run has been removed from the registry keeps
  its slot, and no resume can act on it.

  Main results:
    * `sync_backed_iff` — after the sync all slots are backed exactly when all
                           review nodes were.
    * `slots_backed`    — over every run of steps that removes no run of a review
                           node, all slots are backed after every sync.
    * `slot_phantom`    — a run of steps that leaves a slot without a run.
-/
import Jmux.Goal.Revive

namespace Jmux.Goal

open Jmux.Lib

/-! ## §1. The sync. -/

/-- Every node of the spec that holds a slot has a run in its workspace. -/
def SlotsBacked (goals : GoalRegistry) (s : GraphSpec) : Prop :=
  ∀ id n, s.node id = some n → n.status.isActive = true → (n.run goals).isSome = true

/-- Every node under review has a run in its workspace. -/
def ReviewsBacked (goals : GoalRegistry) (s : GraphSpec) : Prop :=
  ∀ id n, s.node id = some n → n.status = .review → (n.run goals).isSome = true

/-- The sync keeps the workspace a node records. -/
theorem NodeMove.sync_workspace {s : GraphSpec} {before after : Shared} {n m : GraphNode}
    {k : MoveKind} (hk : k ∈ MoveKind.ofSync) (h : NodeMove s before after n m k) :
    m.workspace = n.workspace := by
  simp only [MoveKind.ofSync, List.mem_cons, List.not_mem_nil, or_false] at hk
  rcases hk with rfl | rfl | rfl | rfl
  · exact h.2.1
  · exact h.2.2.1
  · exact h.2.2.2.1
  · exact h.2.2.2.1

/-- A running node that holds its slot after the sync has a run. -/
theorem GraphNode.synced_backed {goals : GoalRegistry} {s : GraphSpec} {git : GitOutcome}
    {n : GraphNode} (hst : n.status = .running)
    (hactive : (n.synced goals s git).status.isActive = true) : (n.run goals).isSome = true := by
  rcases n.sync_cases goals s.reviewIterations with ⟨hno, _⟩ | ⟨_, _, d, h⟩ | ⟨_, run, hrun, _⟩
  · exact absurd hst hno
  · unfold GraphNode.synced at hactive
    rw [h] at hactive
    cases hactive
  · rw [hrun]
    rfl

/-- The sync leaves a node alone that is not running. -/
theorem GraphNode.synced_of_not_running {goals : GoalRegistry} {s : GraphSpec} {git : GitOutcome}
    {n : GraphNode} (hst : n.status ≠ .running) : n.synced goals s git = n := by
  unfold GraphNode.synced GraphNode.sync
  rw [if_pos hst]
  rfl

/-- **What the sync can and cannot promise**: after it all slots are backed
exactly when every review node was. -/
theorem sync_backed_iff (goals : GoalRegistry) (git : String → GitOutcome) {s : GraphSpec}
    (hnd : s.ids.Nodup) :
    SlotsBacked goals (syncNodeStates goals git s) ↔ ReviewsBacked goals s := by
  have hnode := syncNodeStates_node goals git hnd
  constructor
  · intro h id n hn hst
    -- the sync looks at running nodes only
    have hsame : n.synced goals s (git id) = n :=
      GraphNode.synced_of_not_running (by rw [hst]; decide)
    refine h id n ?_ (by rw [hst]; rfl)
    rw [hnode, hn, Option.map_some, hsame]
  · intro h id m hm hactive
    rw [hnode] at hm
    obtain ⟨n, hn, rfl⟩ := Option.map_eq_some_iff.mp hm
    obtain ⟨k, hk, hmove⟩ := n.synced_move s ⟨goals, [], 0⟩ ⟨goals, [], 0⟩ (git id)
    have hws := hmove.sync_workspace hk
    unfold GraphNode.run
    rw [hws]
    by_cases hst : n.status = .running
    · exact GraphNode.synced_backed hst hactive
    · rw [GraphNode.synced_of_not_running hst] at hactive
      -- of the two kinds that hold a slot, one is not running
      have hreview : n.status = .review := by
        cases hs : n.status <;> rw [hs] at hactive hst <;> simp [NodeState.isActive] at hactive hst ⊢
      exact h id n hn hreview

/-! ## §2. Runs of review nodes. -/

/-- The step purges or drops the run of a node under review, whose workspace has
been closed. -/
def RemovesReview (w : World) (a : Act) : Prop :=
  ∃ g s id n ws, w.graphs.lookup g = some s ∧ s.node id = some n ∧ n.status = .review ∧
    n.workspace = some ws ∧ RemovesRun w ws a ∧ ∀ unreadable restored, a ≠ .restart unreadable restored

/-- Every node under review, in every graph, has a run. -/
def World.ReviewsBacked (w : World) : Prop :=
  ∀ g s, w.graphs.lookup g = some s → Goal.ReviewsBacked w.shared.goals s

/-- After a restart no node holds a slot. -/
theorem restart_inactive {w w' : World} {unreadable : List String} {restored : List Uuid}
    (h : w.step (.restart unreadable restored) = some w') {g id : String} {s' : GraphSpec}
    {n' : GraphNode} (hs' : w'.graphs.lookup g = some s') (hn' : s'.node id = some n') :
    n'.status.isActive = false := by
  obtain ⟨-, rfl⟩ := World.step_restart h
  have hlookup : ((w.graphs.retain fun g _ => decide (g ∉ unreadable)).mapVals
      fun _ => reconcile).lookup g = some s' := hs'
  rw [AList.lookup_mapVals] at hlookup
  obtain ⟨s, _, rfl⟩ := Option.map_eq_some_iff.mp hlookup
  obtain ⟨n, _, rfl⟩ := List.mem_map.mp (GraphSpec.node_mem hn')
  rcases n.reconcile_cases with ⟨_, hr⟩ | ⟨hi, hr⟩
  · rw [hr]
    rfl
  · rw [hr]
    exact hi

/-- Where a node under review comes from. -/
theorem NodeMove.review {s : GraphSpec} {before after : Shared} {n n' : GraphNode} {k : MoveKind}
    (h : NodeMove s before after n n' k) (hst : n'.status = .review) :
    n'.workspace = n.workspace ∧
      (n.status = .review ∨ (k = .reviewed ∧ (n.run before.goals).isSome = true)) := by
  cases k with
  | stays => exact ⟨h.2.1, .inl (h.1.symm.trans hst)⟩
  | reviewed =>
      refine ⟨h.2.2.2.1, .inr ⟨rfl, ?_⟩⟩
      obtain ⟨run, hrun⟩ := h.2.1
      exact Option.isSome_iff_exists.mpr ⟨run, hrun⟩
  | settles => rcases h.2.1 with hs | hs <;> exact absurd (hs.symm.trans hst) (by decide)
  | lost => exact absurd (h.2.2.1.symm.trans hst) (by decide)
  | resumed => exact absurd (h.2.1.symm.trans hst) (by decide)
  | continued => exact absurd (h.2.1.symm.trans hst) (by decide)
  | launched => exact absurd ((Launched.status h).symm.trans hst) (by decide)
  | cut => exact absurd (h.2.1.symm.trans hst) (by decide)

/-- **A step that removes no run of a review node keeps the reviews backed.** -/
theorem step_reviewsBacked {w w' : World} {a : Act} (hw : w.Wf) (hb : w.Bounded)
    (hrev : w.ReviewsBacked) (h : w.step a = some w') (hok : ¬ RemovesReview w a) :
    w'.ReviewsBacked := by
  intro g s' hs' id n' hn' hst
  by_cases hrestart : ∃ unreadable restored, a = .restart unreadable restored
  · obtain ⟨unreadable, restored, rfl⟩ := hrestart
    have hidle := restart_inactive h hs' hn'
    rw [hst] at hidle
    cases hidle
  · cases step_node_back hw h hs' hn' with
    | planned hpend _ _ => exact absurd (hpend.symm.trans hst) (by decide)
    | moved s n k hs hn _ hk hmove =>
        -- under review before the step, or put under review by this tick
        obtain ⟨hws, hcase⟩ := hmove.review hst
        -- the run was there before the step
        have hbefore : (n.run w.shared.goals).isSome = true := by
          rcases hcase with hreview | ⟨_, hsome⟩
          · exact hrev g s hs id n hn hreview
          · exact hsome
        obtain ⟨run, hrun⟩ := Option.isSome_iff_exists.mp hbefore
        obtain ⟨ws, hnws, hreg⟩ := Option.bind_eq_some_iff.mp hrun
        -- a tick removes no run
        have hkeep : ¬ RemovesRun w ws a := by
          intro hremoves
          rcases hcase with hreview | ⟨rfl, _⟩
          · exact hok ⟨g, s, id, n, ws, hs, hn, hreview, hnws, hremoves,
              fun u r ha => hrestart ⟨u, r, ha⟩⟩
          · obtain ⟨env, rfl⟩ := process_of_tick (.inr (.inr rfl)) hk
            exact hremoves
        have hlt := hb.nodes g s id n ws hs hn hnws
        obtain ⟨run', hrun', _⟩ := step_keeps_run hw h hlt hreg hkeep
        unfold GraphNode.run
        rw [hws, hnws, Option.bind_some, hrun']
        rfl

/-! ## §3. The contract. -/

theorem World.Start.reviewsBacked {w : World} (h : w.Start) : w.ReviewsBacked := by
  intro g s hs id n hn
  have hmem := GraphSpec.node_mem hn
  rw [h.unplanned g s hs] at hmem
  exact absurd hmem List.not_mem_nil

/-- **No phantom slot.**  In every run of steps in which no purge and no drop
removes the run of a node under review: right after the sync of a graph at work,
every node that holds a slot is backed by a run. -/
theorem slots_backed {w₀ w : World} (h0 : w₀.Start)
    (hr : Reach World.step (fun w a => ¬ RemovesReview w a) w₀ w) {g : String} {s : GraphSpec}
    (hs : w.graphs.lookup g = some s) (_ : s.status = .running) (git : String → GitOutcome) :
    SlotsBacked w.shared.goals (syncNodeStates w.shared.goals git s) := by
  have hinv : (w.Wf ∧ w.Bounded) ∧ w.ReviewsBacked := by
    refine hr.invariant (fun w => (w.Wf ∧ w.Bounded) ∧ w.ReviewsBacked)
      ⟨⟨h0.wf, h0.bounded⟩, h0.reviewsBacked⟩ ?_
    intro v a v' hv hok h
    exact ⟨⟨step_wf hv.1.1 h, step_bounded hv.1.1 hv.1.2 h⟩,
      step_reviewsBacked hv.1.1 hv.1.2 hv.2 h hok⟩
  exact (sync_backed_iff w.shared.goals git (hinv.1.1.graphs g s hs).nodup).mpr (hinv.2 g s hs)

/-- After its launch the node of a graph holds its slot with a run. -/
theorem slots_backed_launched :
    ∃ s, (World.after launchedRun).graphs.lookup "g" = some s ∧
      SlotsBacked (World.after launchedRun).shared.goals
        (syncNodeStates (World.after launchedRun).shared.goals (fun _ => {}) s) := by
  obtain ⟨s, hs, hst⟩ : ∃ s ∈ (World.after launchedRun).graphs.lookup "g",
      s.status = .running := by
    decide
  refine ⟨s, hs, slots_backed World.start_empty (reach_of_exec (World.after_exec (by decide))
    (everyStep_of_forall fun a ha w hremoves => ?_)) hs hst _⟩
  obtain ⟨_, _, _, _, ws, _, _, _, _, hremoves, _⟩ := hremoves
  simp only [launchedRun, startGraph, List.cons_append, List.nil_append, List.mem_cons,
    List.not_mem_nil, or_false] at ha
  rcases ha with rfl | rfl | rfl | rfl | rfl <;> exact hremoves

/-- The node is up for review when its workspace is closed, and the main loop
goes through another tick. -/
def closedReviewRun : List Act :=
  reviewRun ++ restOfTick ++
    [.closeWorkspace 1, .driver .tick, .driver (.process {}), .driver .snapshot, .driver .purge]

/-- **A phantom slot**: the purge has removed the run, and the sync leaves the
node under review. -/
theorem slot_phantom :
    ¬ ∀ (w : World) (g : String) (s : GraphSpec) (git : String → GitOutcome),
      Reachable World.step {} w → w.graphs.lookup g = some s → s.status = .running →
      SlotsBacked w.shared.goals (syncNodeStates w.shared.goals git s) := by
  intro hall
  have hreach : Reachable World.step {} (World.after closedReviewRun) :=
    reachable_of_exec (World.after_exec (by decide))
  obtain ⟨s, hs, hst, n, hn, hreview, hgone⟩ :
      ∃ s ∈ (World.after closedReviewRun).graphs.lookup "g", s.status = .running ∧
        ∃ n ∈ (syncNodeStates (World.after closedReviewRun).shared.goals (fun _ => {}) s).node "a",
          n.status = .review ∧ n.run (World.after closedReviewRun).shared.goals = none := by
    decide
  have hbacked := hall _ "g" s (fun _ => {}) hreach hs hst "a" n hn (by rw [hreview]; rfl)
  rw [hgone] at hbacked
  cases hbacked

end Jmux.Goal
