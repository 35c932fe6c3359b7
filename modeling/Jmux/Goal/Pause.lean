/-
  Jmux.Goal.Pause — pausing a graph and undoing it.

  `pause_graph` overwrites the phase of a graph.  `resume_graph` reconstructs it
  from the node list and `approve_graph` looks at the phase, so which of the two
  takes a paused graph back depends on the phase it was paused in.

  Main result: `pause_undoable_iff` — after any ticks and restarts one of the two
  succeeds and lets the graph go on as before exactly for a running graph that
  has nodes.
-/
import Jmux.Goal.SchedulerInvariant

namespace Jmux.Goal

open Jmux.Lib

/-! ## §1. While the graph is paused. -/

inductive WhilePaused
  | tick (env : TickEnv) (shared : Shared)
  | restart

def WhilePaused.apply (spec : GraphSpec) : WhilePaused → GraphSpec
  | tick env shared => (processGraph env spec shared).spec
  | restart => reconcile spec

/-- `pause_graph`, and what happens until somebody takes it back. -/
def pausedGraph (events : List WhilePaused) (spec : GraphSpec) : GraphSpec :=
  events.foldl WhilePaused.apply (setGraphState .paused spec)

/-- The graph can still do what it could do before: pick up its proposal, be
approved, or launch the nodes that are ready. -/
def SameProgress (before after : GraphSpec) : Prop :=
  match before.status with
  | .proposing => ∀ env shared,
      (processGraph env after shared).spec.status = (processGraph env before shared).spec.status
  | .proposed => ∀ file, (∃ spec, approveGraph file before = .ok spec) →
      ∃ spec, approveGraph file after = .ok spec
  | .running => after.status = .running ∧ after.nodes ≠ [] ∧
      ∀ id ∈ before.readyIds, id ∈ after.readyIds
  | _ => True

/-- One of `resume_graph` and `approve_graph` brings the graph back. -/
def Undoable (before paused : GraphSpec) (goals : GoalRegistry) (git : String → GitOutcome)
    (file : ProposalFile) : Prop :=
  ∃ after, (resumeGraph goals git paused = .ok after ∨ approveGraph file paused = .ok after) ∧
    SameProgress before after

/-! ## §2. What waits stays. -/

/-- A node that is pending or done is the same node afterwards. -/
structure Waits (before after : GraphSpec) : Prop where
  ids   : after.ids = before.ids
  nodes : ∀ id n, before.node id = some n → n.status = .pending ∨ n.status = .done →
    after.node id = some n

theorem Waits.refl (spec : GraphSpec) : Waits spec spec := ⟨rfl, fun _ _ hn _ => hn⟩

theorem Waits.trans {a b c : GraphSpec} (h : Waits a b) (h' : Waits b c) : Waits a c :=
  ⟨h'.ids.trans h.ids, fun id n hn hst => h'.nodes id n (h.nodes id n hn hst) hst⟩

theorem Waits.nil_iff {before after : GraphSpec} (h : Waits before after) :
    after.nodes = [] ↔ before.nodes = [] := by
  have hlen : after.nodes.length = before.nodes.length := by
    simpa [GraphSpec.ids] using congrArg List.length h.ids
  rw [← List.length_eq_zero_iff, ← List.length_eq_zero_iff, hlen]

theorem Waits.done {before after : GraphSpec} (h : Waits before after) {id : String}
    (hd : before.HasStatus id .done) : after.HasStatus id .done := by
  obtain ⟨n, hn, hst⟩ := hd
  exact ⟨n, h.nodes id n hn (.inr hst), hst⟩

/-- What is ready stays ready. -/
theorem Waits.ready {before after : GraphSpec} (h : Waits before after) (hnd : before.ids.Nodup)
    {id : String} (hid : id ∈ before.readyIds) : id ∈ after.readyIds := by
  have hnd' : after.ids.Nodup := h.ids ▸ hnd
  obtain ⟨n, hn, hst, hdeps⟩ := mem_readyIds hnd hid
  have hn' := h.nodes id n hn (.inl hst)
  refine List.mem_map.mpr ⟨n, List.mem_filter.mpr ⟨GraphSpec.node_mem hn', ?_⟩, GraphSpec.node_id hn⟩
  unfold GraphNode.ready
  simp only [Bool.and_eq_true, decide_eq_true_eq, List.all_eq_true]
  exact ⟨hst, fun d hd => (mem_doneIds hnd').mpr (h.done (hdeps d hd))⟩

theorem reconcile_waits (spec : GraphSpec) : Waits spec (reconcile spec) := by
  have hid : ∀ n : GraphNode, n.reconcile.id = n.id := by
    intro n
    rcases n.reconcile_cases with ⟨_, h⟩ | ⟨_, h⟩ <;> rw [h]
  refine ⟨(SpecFrame.mapNodes hid spec).ids, fun id n hn hst => ?_⟩
  have hnode : (reconcile spec).node id = (spec.node id).map (·.reconcile) :=
    mapNodes_node hid spec id
  rw [hnode, hn]
  rcases n.reconcile_cases with ⟨hactive, _⟩ | ⟨_, hsame⟩
  -- a node that waits holds no slot
  · rcases hst with hst | hst <;> rw [hst] at hactive <;> cases hactive
  · rw [Option.map_some, hsame]

/-- While the graph is paused a tick does nothing, and a restart leaves it paused. -/
theorem pausedGraph_spec (events : List WhilePaused) (spec : GraphSpec) :
    (pausedGraph events spec).status = .paused ∧ Waits spec (pausedGraph events spec) := by
  -- induction on the events; what waited at the pause still waits
  have key : ∀ (events : List WhilePaused) (s : GraphSpec), s.status = .paused → Waits spec s →
      (events.foldl WhilePaused.apply s).status = .paused ∧
        Waits spec (events.foldl WhilePaused.apply s) := by
    intro events
    induction events with
    | nil =>
        intro s hst hw
        exact ⟨hst, hw⟩
    | cons event events ih =>
        intro s hst hw
        cases event with
        | tick env shared =>
            have hsame : (processGraph env s shared).spec = s := by
              unfold processGraph
              rw [hst]
            rw [List.foldl_cons, WhilePaused.apply, hsame]
            exact ih s hst hw
        | restart =>
            refine ih (reconcile s) ?_ (hw.trans (reconcile_waits s))
            show (if s.status = .running ∧ s.activeCount ≠ 0 then GraphState.paused
              else s.status) = .paused
            rw [hst]
            rfl
  exact key events _ rfl ⟨rfl, fun _ _ hn _ => hn⟩

/-- Resuming leaves what waits. -/
theorem resumeGraph_waits {goals : GoalRegistry} {git : String → GitOutcome} {s s' : GraphSpec}
    (hnd : s.ids.Nodup) (h : resumeGraph goals git s = .ok s') : Waits s s' := by
  obtain rfl := resumeGraph_ok h
  have hframe := (resumeLoop_frame s).trans (finishAll_frame goals git s.mergeRetries s.resumeLoop)
  refine ⟨hframe.ids, fun id n hn hst => ?_⟩
  have hsame : n.resume = n := by
    rcases n.resume_cases with ⟨hi, _⟩ | ⟨_, hr⟩
    · rw [hi] at hst
      rcases hst with hst | hst <;> cases hst
    · exact hr
  -- a merge is retried for blocked nodes only
  have hno : id ∉ s.mergeRetries := by
    intro hmem
    have hblocked := blocked_of_mem_mergeRetries hnd hmem hn
    rw [hsame] at hblocked
    rw [hblocked] at hst
    rcases hst with hst | hst <;> cases hst
  show (finishAll goals git s.resumeLoop s.mergeRetries).node id = some n
  rw [finishAll_node goals git _ _ (mergeRetries_nodup hnd) id, if_neg hno, resumeLoop_node, hn,
    Option.map_some, hsame]

/-! ## §3. Undoing the pause. -/

theorem approveGraph_paused {spec : GraphSpec} (h : spec.status = .paused) (file : ProposalFile)
    (after : GraphSpec) : approveGraph file spec ≠ .ok after := by
  intro he
  obtain ⟨hplanning, -⟩ := approveGraph_ok he
  rw [h] at hplanning
  rcases hplanning with hplanning | hplanning <;> cases hplanning

theorem resumeGraph_status {goals : GoalRegistry} {git : String → GitOutcome} {s s' : GraphSpec}
    (h : resumeGraph goals git s = .ok s') : s'.status = .running ∧ s.nodes ≠ [] := by
  refine ⟨by rw [resumeGraph_ok h], fun hnil => ?_⟩
  unfold resumeGraph at h
  rw [if_pos hnil] at h
  cases h

/-- A resumed graph runs, which is no progress of a graph that waits for a plan. -/
theorem not_sameProgress {before after : GraphSpec} (hrun : after.status = .running)
    (hne : after.nodes ≠ []) (hplan : before.status = .proposing ∨ before.status = .proposed) :
    ¬ SameProgress before after := by
  intro h
  unfold SameProgress at h
  rcases hplan with hplan | hplan
  · rw [hplan] at h
    -- without a proposal the graph would still be waiting for one
    have htick := h {} {}
    have hwaiting : (processGraph {} before {}).spec.status = .proposing := by
      unfold processGraph
      rw [hplan]
      exact hplan
    rw [hwaiting] at htick
    unfold processGraph at htick
    rw [hrun] at htick
    exact hne (tickRunning_planning {} hrun (.inl htick))
  · rw [hplan] at h
    -- a plan could be approved before the pause, and cannot be now
    obtain ⟨spec, happ⟩ := h onePlan (by
      unfold approveGraph
      rw [if_neg (by rw [hplan]; decide)]
      exact ⟨_, rfl⟩)
    obtain ⟨hplanning, -⟩ := approveGraph_ok happ
    rw [hrun] at hplanning
    rcases hplanning with hplanning | hplanning <;> cases hplanning

/-- **Pausing is undoable** for a running graph with nodes, and for no other. -/
theorem pause_undoable_iff {spec : GraphSpec} (hnd : spec.ids.Nodup)
    (hphase : spec.status = .proposing ∨ spec.status = .proposed ∨ spec.status = .running)
    (events : List WhilePaused) (goals : GoalRegistry) (git : String → GitOutcome)
    (file : ProposalFile) :
    Undoable spec (pausedGraph events spec) goals git file ↔
      spec.status = .running ∧ spec.nodes ≠ [] := by
  obtain ⟨hpaused, hwaits⟩ := pausedGraph_spec events spec
  have hnd' : (pausedGraph events spec).ids.Nodup := hwaits.ids ▸ hnd
  constructor
  · rintro ⟨after, hop, hprogress⟩
    -- approval refuses a paused graph, so it was the resume that succeeded
    have hresume : resumeGraph goals git (pausedGraph events spec) = .ok after := by
      rcases hop with h | h
      · exact h
      · exact absurd h (approveGraph_paused hpaused file after)
    obtain ⟨hrun, hne⟩ := resumeGraph_status hresume
    have hnodes : spec.nodes ≠ [] := fun hnil => hne (hwaits.nil_iff.mpr hnil)
    have hafter : after.nodes ≠ [] := fun hnil =>
      hne ((resumeGraph_waits hnd' hresume).nil_iff.mp hnil)
    refine ⟨?_, hnodes⟩
    rcases hphase with h | h | h
    · exact absurd hprogress (not_sameProgress hrun hafter (.inl h))
    · exact absurd hprogress (not_sameProgress hrun hafter (.inr h))
    · exact h
  · rintro ⟨hrun, hne⟩
    have hne' : (pausedGraph events spec).nodes ≠ [] := fun hnil => hne (hwaits.nil_iff.mp hnil)
    obtain ⟨after, hresume⟩ : ∃ after, resumeGraph goals git (pausedGraph events spec) = .ok after := by
      unfold resumeGraph
      rw [if_neg hne']
      exact ⟨_, rfl⟩
    have hback := resumeGraph_waits hnd' hresume
    refine ⟨after, .inl hresume, ?_⟩
    unfold SameProgress
    rw [hrun]
    exact ⟨(resumeGraph_status hresume).1, fun hnil => hne' (hback.nil_iff.mp hnil),
      fun id hid => (hwaits.trans hback).ready hnd hid⟩

/-- A graph that waits for its plan. -/
def waitingGraph : GraphSpec := { name := "g", baseCwd := "/r" }

/-- Paused, it is sent from `resume` to `approve` and turned away there. -/
theorem pause_traps :
    resumeGraph ∅ (fun _ => {}) (pausedGraph [] waitingGraph) =
        .error "graph 'g' has no approved plan yet — review the plan, then run: jmux graph approve g" ∧
      approveGraph onePlan (pausedGraph [] waitingGraph) =
        .error "graph 'g' is paused — there is no plan waiting for approval" ∧
      ¬ Undoable waitingGraph (pausedGraph [] waitingGraph) ∅ (fun _ => {}) onePlan := by
  refine ⟨by rfl, by rfl, ?_⟩
  rintro ⟨after, h | h, _⟩ <;> cases h

/-- A running graph whose one node waits to be launched. -/
def runningGraph : GraphSpec :=
  { name := "g", baseCwd := "/r", status := .running, nodes := [{ id := "a" }] }

/-- It comes back after a tick and a restart, with its node ready. -/
theorem pause_undoable_running :
    Undoable runningGraph (pausedGraph [.tick {} {}, .restart] runningGraph) ∅ (fun _ => {})
      (.error "") :=
  (pause_undoable_iff (by decide) (by decide) _ ∅ (fun _ => {}) (.error "")).mpr (by decide)

end Jmux.Goal
