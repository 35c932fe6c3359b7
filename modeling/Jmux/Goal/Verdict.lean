/-
  Jmux.Goal.Verdict — Continue and Accept, as panel buttons and as socket verbs.

  A node in review is continued or accepted either in the graph panel
  (`ui/graph_panel.rs`) or with `goal.continue` / `goal.accept`
  (`socket/v2/goal.rs`).  Both paths are built from `advance_iteration`,
  `continue_node` and `accept_node`; the panel ignores what the first returns.

  Main result: `buttons_are_verbs_iff` — Accept always does what the verb does;
  Continue does exactly unless the advance fails on a run whose node is in review.
-/
import Jmux.Goal.Iterate

namespace Jmux.Goal

open Jmux.Lib

/-! ## §1. The two registries. -/

structure Registries where
  goals  : GoalRegistry
  graphs : GraphRegistry

/-- A registry is a hash map: only what a lookup finds counts. -/
def Registries.Same (s s' : Registries) : Prop :=
  (∀ ws, s.goals.lookup ws = s'.goals.lookup ws) ∧ ∀ g, s.graphs.lookup g = s'.graphs.lookup g

theorem Registries.Same.refl (s : Registries) : s.Same s := ⟨fun _ => rfl, fun _ => rfl⟩

/-- An error code of the socket protocol and its message. -/
abbrev SocketError := String × String

/-! ## §2. The socket verbs. -/

/-- `resolve_run` for a target that is a workspace UUID. -/
def resolveRun (goals : GoalRegistry) (id : Uuid) : Except String Uuid :=
  if id ∈ goals then .ok id else .error ("no goal run for workspace " ++ toString id)

/-- `goal.continue`; the answer carries the workspace and the new iteration. -/
def handleGoalContinue (call : AdvanceCall) (s : Registries) (target : Uuid) :
    Registries × Except SocketError (Uuid × Nat) :=
  match resolveRun s.goals target with
  | .error e => (s, .error ("not_found", e))
  | .ok ws =>
      match advanceIteration call s.goals ws with
      | .error e => (s, .error ("not_found", e))
      -- only after the advance does a node in review go back to running
      | .ok (next, goals) => (⟨goals, continueNode goals s.graphs ws⟩, .ok (ws, next))

/-- `goal.accept`; the answer carries the workspace and the accepted iteration. -/
def handleGoalAccept (git : GitOutcome) (s : Registries) (target : Uuid) :
    Registries × Except SocketError (Uuid × Nat) :=
  match resolveRun s.goals target with
  | .error e => (s, .error ("not_found", e))
  | .ok ws =>
      match s.goals.lookup ws with
      | none => (s, .error ("not_found", "No goal registered for that workspace"))
      | some run =>
          let goals := markDone s.goals ws
          (⟨goals, acceptNode goals git s.graphs ws⟩, .ok (ws, run.iteration))

/-! ## §3. The panel buttons. -/

/-- The Continue button of `detail_card`. -/
def panelContinue (call : AdvanceCall) (s : Registries) (ws : Uuid) : Registries :=
  -- `let _ =`: the result of the advance is dropped
  let goals :=
    match advanceIteration call s.goals ws with
    | .ok (_, goals) => goals
    | .error _ => s.goals
  ⟨goals, continueNode goals s.graphs ws⟩

/-- The Accept button of `detail_card`. -/
def panelAccept (git : GitOutcome) (s : Registries) (ws : Uuid) : Registries :=
  let goals := markDone s.goals ws
  ⟨goals, acceptNode goals git s.graphs ws⟩

/-! ## §4. When the two agree. -/

/-- The run in `ws` belongs to a registered node that is in review. -/
def Registries.InReview (s : Registries) (ws : Uuid) : Prop :=
  ∃ link spec, linkOf s.goals ws = some link ∧ s.graphs.lookup link.graph = some spec ∧
    spec.HasStatus link.node .review

/-- Continuing a node that is not in review changes nothing. -/
theorem continueSpec_of_not_review {spec : GraphSpec} {id : String}
    (h : ¬ spec.HasStatus id .review) : continueSpec spec id = spec := by
  have hnodes : spec.nodes.modifyFirst (fun n => n.id = id) GraphNode.continued = spec.nodes := by
    rcases List.modifyFirst_split (fun n => n.id = id) GraphNode.continued spec.nodes with
      ⟨_, hsame⟩ | ⟨xs, n, zs, hnodes, _, _, hfind, hedit⟩
    · exact hsame
    · have hkept : n.continued = n := by
        unfold GraphNode.continued
        exact if_neg fun hst => h ⟨n, hfind, hst⟩
      rw [hedit, hkept, ← hnodes]
  unfold continueSpec GraphSpec.modifyNode
  rw [hnodes]

/-- What `continue_node` does to the graphs, in the eyes of a lookup. -/
theorem continueNode_lookup (goals : GoalRegistry) (graphs : GraphRegistry) (ws : Uuid)
    (g : String) :
    (continueNode goals graphs ws).lookup g
      = match linkOf goals ws with
        | none => graphs.lookup g
        | some link =>
            if g = link.graph then (graphs.lookup link.graph).map (continueSpec · link.node)
            else graphs.lookup g := by
  unfold continueNode continueLinked
  cases linkOf goals ws with
  | none => rfl
  | some link => exact AList.lookup_modify _ _ _ _

/-- With the goals as they are, `continue_node` changes the graphs exactly when it
finds a node in review. -/
theorem continueNode_same_iff (s : Registries) (ws : Uuid) :
    Registries.Same ⟨s.goals, continueNode s.goals s.graphs ws⟩ s ↔ ¬ s.InReview ws := by
  constructor
  · rintro ⟨_, hgraphs⟩ ⟨link, spec, hlink, hspec, n, hn, hst⟩
    have hg := hgraphs link.graph
    rw [continueNode_lookup, hlink] at hg
    dsimp only at hg
    rw [if_pos rfl, hspec, Option.map_some] at hg
    -- the node that was in review runs again
    have hnode : (continueSpec spec link.node).node link.node = some n.continued := by
      have hids : ∀ m : GraphNode, m.continued.id = m.id := by
        intro m
        unfold GraphNode.continued
        split <;> rfl
      unfold continueSpec
      rw [GraphSpec.modifyNode_node hids, if_pos rfl, hn, Option.map_some]
    rw [Option.some.inj hg, hn] at hnode
    have hrun : n.continued.status = .running := by
      unfold GraphNode.continued
      rw [if_pos hst]
    rw [← Option.some.inj hnode, hst] at hrun
    cases hrun
  · intro hno
    refine ⟨fun _ => rfl, fun g => ?_⟩
    rw [continueNode_lookup]
    cases hlink : linkOf s.goals ws with
    | none => rfl
    | some link =>
        dsimp only
        split
        next hg =>
          subst hg
          cases hspec : s.graphs.lookup link.graph with
          | none => rfl
          | some spec =>
              have hkept := @continueSpec_of_not_review spec link.node
                fun hst => hno ⟨link, spec, hlink, hspec, hst⟩
              rw [Option.map_some, hkept]
        · rfl

/-- Accepting without a run does nothing. -/
theorem panelAccept_missing {git : GitOutcome} {s : Registries} {ws : Uuid}
    (h : s.goals.lookup ws = none) : panelAccept git s ws = s := by
  have hgoals : markDone s.goals ws = s.goals := by
    unfold markDone AList.modify
    rw [h]
  unfold panelAccept acceptNode linkOf
  rw [hgoals]
  dsimp only
  rw [h]
  rfl

theorem handleGoalAccept_found {git : GitOutcome} {s : Registries} {ws : Uuid} {run : GoalRun}
    (h : s.goals.lookup ws = some run) :
    handleGoalAccept git s ws = (panelAccept git s ws, .ok (ws, run.iteration)) := by
  unfold handleGoalAccept resolveRun
  rw [if_pos (AList.mem_of_lookup h)]
  dsimp only
  rw [h]
  rfl

theorem resolveRun_missing {goals : GoalRegistry} {ws : Uuid} (h : goals.lookup ws = none) :
    resolveRun goals ws = .error ("no goal run for workspace " ++ toString ws) :=
  if_neg (AList.lookup_eq_none.mp h)

/-- Accept: the same registries, whatever git answers. -/
theorem accept_same (git : GitOutcome) (s : Registries) (ws : Uuid) :
    panelAccept git s ws = (handleGoalAccept git s ws).1 := by
  cases hrun : s.goals.lookup ws with
  | none =>
      rw [panelAccept_missing hrun]
      unfold handleGoalAccept
      rw [resolveRun_missing hrun]
  | some run => rw [handleGoalAccept_found hrun]

/-- Continue, when the advance succeeds: the same registries. -/
theorem continue_advanced {call : AdvanceCall} {s : Registries} {ws : Uuid} {run : GoalRun}
    (hrun : s.goals.lookup ws = some run) (hacc : call.accepts run = true) :
    panelContinue call s ws = (handleGoalContinue call s ws).1 := by
  unfold panelContinue handleGoalContinue resolveRun
  rw [if_pos (AList.mem_of_lookup hrun)]
  dsimp only
  rw [advanceIteration_of_accepts hrun hacc]

/-- Continue, when the advance fails: the button still calls `continue_node`, the
verb leaves everything as it is. -/
theorem continue_refused {call : AdvanceCall} {s : Registries} {ws : Uuid} {e : String}
    (h : advanceIteration call s.goals ws = .error e) :
    panelContinue call s ws = ⟨s.goals, continueNode s.goals s.graphs ws⟩ ∧
      (handleGoalContinue call s ws).1 = s := by
  refine ⟨?_, ?_⟩
  · unfold panelContinue
    rw [h]
  · unfold handleGoalContinue resolveRun
    by_cases hmem : ws ∈ s.goals
    · rw [if_pos hmem]
      dsimp only
      rw [h]
    · rw [if_neg hmem]

/-- **The buttons are the verbs, except for a Continue that is refused**: Accept
always, and Continue exactly when the advance succeeds or the run has no node in
review. -/
theorem buttons_are_verbs_iff (call : AdvanceCall) (git : GitOutcome) (s : Registries)
    (ws : Uuid) :
    (Registries.Same (panelContinue call s ws) (handleGoalContinue call s ws).1 ∧
        Registries.Same (panelAccept git s ws) (handleGoalAccept git s ws).1) ↔
      ((s.goals.lookup ws).any call.accepts = true ∨ ¬ s.InReview ws) := by
  have haccept : Registries.Same (panelAccept git s ws) (handleGoalAccept git s ws).1 := by
    rw [accept_same]
    exact .refl _
  have hrefused : ∀ e, advanceIteration call s.goals ws = .error e →
      (Registries.Same (panelContinue call s ws) (handleGoalContinue call s ws).1 ↔
        ¬ s.InReview ws) := by
    intro e he
    obtain ⟨hpanel, hverb⟩ := continue_refused he
    rw [hpanel, hverb]
    exact continueNode_same_iff s ws
  rw [and_iff_left haccept]
  cases hrun : s.goals.lookup ws with
  | none =>
      rw [hrefused _ (advanceIteration_missing hrun)]
      simp
  | some run =>
      rw [Option.any_some]
      cases hacc : call.accepts run with
      | true =>
          rw [continue_advanced hrun hacc]
          exact ⟨fun _ => .inl rfl, fun _ => .refl _⟩
      | false =>
          obtain ⟨e, he⟩ := advanceIteration_of_refused hrun hacc
          rw [hrefused e he]
          simp

/-- The one node of a graph is in review, and its agent has exited. -/
def reviewed : Registries where
  goals :=
    (∅ : GoalRegistry).insert 0
      (LaunchSpec.run
        { goalName := "g/a", goalPath := "graph:g:a", cwd := "/r", outputDirRel := "docs"
          runnerName := "claude", runner := {}, maxIterations := 4, wallClockMinutes := 120
          graph := some ⟨"g", "a"⟩ } {} 0)
  graphs :=
    (∅ : GraphRegistry).insert "g"
      { name := "g", baseCwd := "/r", status := .running
        nodes := [{ id := "a", status := .review, workspace := some 0 }] }

/-- Continue in the panel sets the node of an exited agent running; the verb is
refused and leaves it in review. -/
theorem refused_continue_differs :
    let call : AdvanceCall := { env := { file := some "---\nstatus: done\n---", agentAlive := false } }
    ((panelContinue call reviewed 0).graphs.lookup "g").map (·.nodes.map (·.status))
        = some [.running] ∧
      ((handleGoalContinue call reviewed 0).1.graphs.lookup "g").map (·.nodes.map (·.status))
        = some [.review] ∧
      ¬ Registries.Same (panelContinue call reviewed 0) (handleGoalContinue call reviewed 0).1 := by
  intro call
  have hpanel : ((panelContinue call reviewed 0).graphs.lookup "g").map (·.nodes.map (·.status))
      = some [.running] := by decide
  have hverb : ((handleGoalContinue call reviewed 0).1.graphs.lookup "g").map
      (·.nodes.map (·.status)) = some [.review] := by decide
  refine ⟨hpanel, hverb, fun hsame => ?_⟩
  rw [hsame.2 "g", hverb] at hpanel
  cases hpanel

end Jmux.Goal
