/-
  Jmux.Goal.Ownership — whose node `accept_node` and `continue_node` change.

  A run names its node by graph and node id.  Both names can be taken again once
  a graph has been stopped, and the run of the old graph still names the node of
  the new one.  The node's own record of its workspace is not looked at.

  Main results:
    * `changesOnly_modify_iff` — whose node an edit through a link changes.
    * `accept_continue_own`    — when accept and continue stay with their node.
    * `accept_stale`           — an old run settles a pending node of a new graph.
-/
import Jmux.Goal.Slots

namespace Jmux.Goal

open Jmux.Lib

/-! ## §1. Edits through a link. -/

/-- No node changes but the one that records workspace `ws`. -/
def ChangesOnly (ws : Uuid) (graphs graphs' : GraphRegistry) : Prop :=
  ∀ g s id n, graphs.lookup g = some s → s.node id = some n → n.workspace ≠ some ws →
    ∃ s', graphs'.lookup g = some s' ∧ s'.node id = some n

/-- The node that the run of workspace `ws` names, if there is one, has the property. -/
def LinkedNode (goals : GoalRegistry) (graphs : GraphRegistry) (ws : Uuid)
    (P : GraphSpec → GraphNode → Prop) : Prop :=
  ∀ link s n, linkOf goals ws = some link → graphs.lookup link.graph = some s →
    s.node link.node = some n → P s n

/-- **Whose node an edit through a link changes**: none but the run's own exactly
when the linked node, if there is one, records the workspace or is left as it is. -/
theorem changesOnly_modify_iff {f : GraphSpec → GraphNode → GraphNode}
    (hf : ∀ s n, (f s n).id = n.id) (graphs : GraphRegistry) (link : GraphLink) (ws : Uuid) :
    ChangesOnly ws graphs (graphs.modify link.graph fun s => s.modifyNode link.node (f s)) ↔
      ∀ s n, graphs.lookup link.graph = some s → s.node link.node = some n →
        n.workspace = some ws ∨ f s n = n := by
  have hlookup : ∀ g, (graphs.modify link.graph fun s => s.modifyNode link.node (f s)).lookup g
      = if g = link.graph then (graphs.lookup link.graph).map fun s => s.modifyNode link.node (f s)
        else graphs.lookup g := fun g => AList.lookup_modify _ _ _ _
  constructor
  · intro honly s n hs hn
    by_cases hws : n.workspace = some ws
    · exact .inl hws
    · right
      obtain ⟨s', hs', hn'⟩ := honly link.graph s link.node n hs hn hws
      rw [hlookup, if_pos rfl, hs, Option.map_some] at hs'
      obtain rfl := Option.some.inj hs'
      rw [GraphSpec.modifyNode_node (hf s), if_pos rfl, hn, Option.map_some] at hn'
      exact Option.some.inj hn'
  · intro hlinked g s id n hs hn hws
    by_cases hg : g = link.graph
    · subst hg
      refine ⟨_, by rw [hlookup, if_pos rfl, hs, Option.map_some], ?_⟩
      rw [GraphSpec.modifyNode_node (hf s)]
      by_cases hid : id = link.node
      · subst hid
        have hsame := (hlinked s n hs hn).resolve_left hws
        rw [if_pos rfl, hn, Option.map_some, hsame]
      · rw [if_neg hid, hn]
    · exact ⟨s, by rw [hlookup, if_neg hg, hs], hn⟩

/-! ## §2. Accept and continue. -/

/-- A node that is not done changes when it is finished, whatever happens to
others: its branch may merge. -/
theorem GraphNode.finish_eq_self_iff (goals : GoalRegistry) (name ownDir : String)
    (n : GraphNode) : (∀ git, n.finish goals name ownDir git = n) ↔ n.status = .done := by
  constructor
  · intro hsame
    by_contra hst
    have hfinish := congrArg GraphNode.status (hsame {})
    unfold GraphNode.finish at hfinish
    rw [if_neg hst, GraphNode.mergeBack_status] at hfinish
    have hmerges : { n with iteration := n.reportedIteration goals }.mergeRefused ownDir {}
        = false := by
      unfold GraphNode.mergeRefused
      rw [Bool.and_eq_false_iff]
      exact .inr rfl
    rw [hmerges] at hfinish
    exact hst hfinish.symm
  · intro hst git
    unfold GraphNode.finish
    rw [if_pos hst]

theorem GraphNode.continued_eq_self_iff (n : GraphNode) :
    n.continued = n ↔ n.status ≠ .review := by
  unfold GraphNode.continued
  constructor
  · intro hsame hst
    rw [if_pos hst] at hsame
    have hrun : NodeState.running = n.status := congrArg GraphNode.status hsame
    rw [hst] at hrun
    cases hrun
  · intro hst
    rw [if_neg hst]

/-- `accept_node` settles the linked node and no other. -/
theorem accept_own_iff (goals : GoalRegistry) (graphs : GraphRegistry) (ws : Uuid) :
    (∀ git, ChangesOnly ws graphs (acceptNode goals git graphs ws)) ↔
      LinkedNode goals graphs ws fun _ n => n.workspace = some ws ∨ n.status = .done := by
  unfold LinkedNode acceptNode
  cases hlink : linkOf goals ws with
  | none =>
      refine iff_of_true (fun _ g s id n hs hn _ => ⟨s, hs, hn⟩) fun _ _ _ h => ?_
      cases h
  | some link =>
      have hiff := fun git => changesOnly_modify_iff
        (f := fun s n => n.finish goals s.name s.ownDir git) (fun s n => n.finish_id _ _ _ _)
        graphs link ws
      constructor
      · intro honly link' s n hl hs hn
        obtain rfl : link = link' := Option.some.inj hl
        by_cases hws : n.workspace = some ws
        · exact .inl hws
        · refine .inr ((n.finish_eq_self_iff goals s.name s.ownDir).mp fun git => ?_)
          exact ((hiff git).mp (honly git) s n hs hn).resolve_left hws
      · intro hlinked git
        refine (hiff git).mpr fun s n hs hn => ?_
        rcases hlinked link s n rfl hs hn with hws | hst
        · exact .inl hws
        · exact .inr ((n.finish_eq_self_iff goals s.name s.ownDir).mpr hst git)

/-- `continue_node` revives the linked node and no other. -/
theorem continue_own_iff (goals : GoalRegistry) (graphs : GraphRegistry) (ws : Uuid) :
    ChangesOnly ws graphs (continueNode goals graphs ws) ↔
      LinkedNode goals graphs ws fun _ n => n.workspace = some ws ∨ n.status ≠ .review := by
  unfold LinkedNode continueNode
  cases hlink : linkOf goals ws with
  | none =>
      refine iff_of_true (fun g s id n hs hn _ => ⟨s, hs, hn⟩) fun _ _ _ h => ?_
      cases h
  | some link =>
      have hiff := changesOnly_modify_iff (f := fun _ n => n.continued)
        (fun _ n => n.continued_id) graphs link ws
      constructor
      · intro honly link' s n hl hs hn
        obtain rfl : link = link' := Option.some.inj hl
        exact (hiff.mp honly s n hs hn).imp id n.continued_eq_self_iff.mp
      · intro hlinked
        exact hiff.mpr fun s n hs hn =>
          (hlinked link s n rfl hs hn).imp id n.continued_eq_self_iff.mpr

/-- **Accept and continue stay with their own node** exactly when the node that
the run names, if it still exists, records the run's workspace, or is one that
the function leaves alone: a done node for accept, a node that is not under
review for continue. -/
theorem accept_continue_own (goals : GoalRegistry) (graphs : GraphRegistry) (ws : Uuid) :
    ((∀ git, ChangesOnly ws graphs (acceptNode goals git graphs ws)) ↔
      LinkedNode goals graphs ws fun _ n => n.workspace = some ws ∨ n.status = .done) ∧
    (ChangesOnly ws graphs (continueNode goals graphs ws) ↔
      LinkedNode goals graphs ws fun _ n => n.workspace = some ws ∨ n.status ≠ .review) :=
  ⟨accept_own_iff goals graphs ws, continue_own_iff goals graphs ws⟩

/-- Node `b` of graph `g` runs in workspace 4 when the graph is stopped and a new
graph of that name, with the same plan, is approved. -/
def recreatedRun : List Act :=
  chainRun ++ [.thread 2 (.stopBegin "g"), .thread 2 .stopRuns] ++ startGraph "g" chainPlan

/-- **An old run settles a node of the new graph**: node `b` waits for node `a`,
and accepting the old run makes it done. -/
theorem accept_stale :
    ¬ ∀ (w : World) (ws : Uuid) (git : GitOutcome), Reachable World.step {} w →
      ChangesOnly ws w.graphs (acceptNode w.shared.goals git w.graphs ws) := by
  intro hall
  have honly := hall (World.after recreatedRun) 4 {}
    (reachable_of_exec (World.after_exec (by decide)))
  obtain ⟨s, hs, n, hn, hpend, _, hws⟩ : ∃ s ∈ (World.after recreatedRun).graphs.lookup "g",
      ∃ n ∈ s.node "b", n.status = .pending ∧ ¬ s.HasStatus "a" .done ∧ n.workspace ≠ some 4 := by
    decide
  obtain ⟨s', hs', hn'⟩ := honly "g" s "b" n hs hn hws
  obtain ⟨t, ht, m, hm, hdone⟩ : ∃ s ∈ (acceptNode (World.after recreatedRun).shared.goals {}
      (World.after recreatedRun).graphs 4).lookup "g", ∃ n ∈ s.node "b", n.status = .done := by
    decide
  obtain rfl : s' = t := Option.some.inj (hs'.symm.trans ht)
  obtain rfl : n = m := Option.some.inj (hn'.symm.trans hm)
  exact absurd (hpend.symm.trans hdone) (by decide)

end Jmux.Goal
