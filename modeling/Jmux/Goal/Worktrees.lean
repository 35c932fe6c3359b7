/-
  Jmux.Goal.Worktrees — whether two live nodes can share a worktree.

  `launch_node` computes the worktree of a node from the base checkout of the
  graph and the node id.  Ids do not repeat within a graph, but two graphs over
  one checkout may use the same id: the branch names the graph, the path does not.

  Main results:
    * `worktreePath_inj`    — equal paths come from one checkout and one id.
    * `step_exclusive`      — one step keeps worktrees exclusive.
    * `worktrees_exclusive` — exclusivity over every run whose launches find no
                               live node of the same id over the same checkout.
    * `worktree_taken`      — a run of two graphs that share a worktree.
-/
import Jmux.Goal.FinishedWork

namespace Jmux.Goal

open Jmux.Lib

/-! ## §1. Paths. -/

/-- **A worktree path determines the checkout and the node id**, because a valid
id contains no separator. -/
theorem worktreePath_inj {s₁ s₂ : GraphSpec} {id₁ id₂ : String} (h₁ : validNodeId id₁ = true)
    (h₂ : validNodeId id₂ = true) (h : s₁.worktreePath id₁ = s₂.worktreePath id₂) :
    trimEndSlash s₁.baseCwd = trimEndSlash s₂.baseCwd ∧ id₁ = id₂ := by
  have hsplit : ∀ (s : GraphSpec) (id : String), (s.worktreePath id).toList
      = ((trimEndSlash s.baseCwd).toList ++ "-worktrees".toList) ++ '/' :: id.toList := by
    intro s id
    unfold GraphSpec.worktreePath
    simp
  have hlist := congrArg String.toList h
  rw [hsplit, hsplit] at hlist
  obtain ⟨hbase, hid⟩ := Str.append_cons_inj_of_notMem (notMem_slash_of_valid h₁)
    (notMem_slash_of_valid h₂) hlist
  exact ⟨String.toList_inj.mp (List.append_cancel_right hbase), String.toList_inj.mp hid⟩

/-! ## §2. Live nodes and their worktrees. -/

/-- Node `id` of graph `g` has been launched into worktree `p` and is not done. -/
def HoldsWorktree (graphs : GraphRegistry) (g id p : String) : Prop :=
  ∃ s n, graphs.lookup g = some s ∧ s.node id = some n ∧ n.status ≠ .done ∧ n.worktree = some p

instance (graphs : GraphRegistry) (g id p : String) : Decidable (HoldsWorktree graphs g id p) :=
  decidable_of_iff (∃ n ∈ (graphs.lookup g).bind (·.node id),
      n.status ≠ .done ∧ n.worktree = some p) <| by
    constructor
    · rintro ⟨n, hn, hst, hwt⟩
      obtain ⟨s, hs, hn⟩ := Option.bind_eq_some_iff.mp hn
      exact ⟨s, n, hs, hn, hst, hwt⟩
    · rintro ⟨s, n, hs, hn, hst, hwt⟩
      exact ⟨n, Option.bind_eq_some_iff.mpr ⟨s, hs, hn⟩, hst, hwt⟩

/-- No two live nodes use the same worktree. -/
def Exclusive (graphs : GraphRegistry) : Prop :=
  ∀ g₁ id₁ g₂ id₂ p, HoldsWorktree graphs g₁ id₁ p → HoldsWorktree graphs g₂ id₂ p →
    g₁ = g₂ ∧ id₁ = id₂

/-- The registry at the moment of the call. -/
def Launch.registry (l : Launch) : GraphRegistry := l.graphs.insert l.graph l.call.spec

/-- The call removes by force no worktree of another live node. -/
def Launch.Spares (l : Launch) : Prop :=
  ∀ p, l.call.forced = some p → ∀ g id, HoldsWorktree l.registry g id p →
    g = l.graph ∧ id = l.call.node

/-- The call is on a graph without worktrees, or no other graph over the same
checkout has a launched node of the same id that is not done. -/
def Launch.Apart (l : Launch) : Prop :=
  l.call.spec.useWorktrees = true → ∀ e ∈ l.graphs.entries, e.1 ≠ l.graph →
    trimEndSlash e.2.baseCwd = trimEndSlash l.call.spec.baseCwd →
    ∀ n ∈ e.2.node l.call.node, n.status ≠ .done → n.worktree = none

instance (l : Launch) : Decidable l.Apart :=
  inferInstanceAs (Decidable (_ → ∀ e ∈ l.graphs.entries, _ → _ →
    ∀ n ∈ e.2.node l.call.node, _ → _))

/-- A live node of another graph is in the way of a call that uses the worktree
of that node. -/
theorem Launch.Apart.not_held {l : Launch} (happart : l.Apart) {g id p : String} {s : GraphSpec}
    {n : GraphNode} (hg : g ≠ l.graph) (hs : l.graphs.lookup g = some s) (hn : s.node id = some n)
    (hst : n.status ≠ .done) (hwt : n.worktree = some p) (hw : s.WellFormed)
    (hcall : validNodeId l.call.node = true) (hown : l.call.spec.OwnWorktree l.call.node p) :
    False := by
  obtain ⟨_, hp⟩ := hw.worktrees id n p hn hwt
  obtain ⟨huse, hp'⟩ := hown
  -- equal paths come from one base and one id: an id has no slash
  obtain ⟨hbase, rfl⟩ := worktreePath_inj (hw.valid_of_node hn) hcall (hp.symm.trans hp')
  have hnone := happart huse ⟨g, s⟩ ((AList.mem_entries_iff_lookup _ _ _).mpr hs) hg hbase n hn hst
  rw [hwt] at hnone
  cases hnone

/-! ## §3. One step. -/

/-- Only a launch changes which worktree a node records. -/
theorem NodeMove.worktree_kept {s : GraphSpec} {before after : Shared} {n n' : GraphNode}
    {k : MoveKind} (h : NodeMove s before after n n' k) (hk : k ≠ .launched) :
    n'.worktree = n.worktree := by
  cases k with
  | stays => exact h.2.2
  | settles => exact h.2.2.2
  | lost => exact h.2.2.2.2
  | reviewed => exact h.2.2.2.2
  | resumed => exact h.2.2.2
  | continued => exact h.2.2.2
  | launched => exact absurd rfl hk
  | cut => exact h.2.2.2

/-- What a call of `launch_node` in a tick of graph `g` is known to be. -/
structure CallOf (w : World) (g : String) (s : GraphSpec) (c : LaunchCall) : Prop where
  frame : SpecFrame s c.spec
  valid : validNodeId c.node = true
  worktrees : ∀ id n p, c.spec.node id = some n → n.worktree = some p → c.spec.OwnWorktree id p
  forced : ∀ p, c.forced = some p → c.spec.OwnWorktree c.node p

theorem TickOf.callOf {w w' : World} {env : TickEnv} {g : String} {s : GraphSpec} (hw : w.Wf)
    (htick : TickOf w w' env g s) {c : LaunchCall} (hc : c ∈ (processGraph env s w.shared).calls) :
    CallOf w g s c := by
  have hwf := hw.graphs g s htick.found
  obtain ⟨hmoves, ⟨n, hn, _⟩, hforced⟩ := processGraph_calls env hwf hc
  refine ⟨hmoves.frame, hwf.valid c.node ?_, fun id m p hm hp => ?_, hforced⟩
  · rw [← hmoves.frame.ids]
    exact List.mem_map.mpr ⟨n, GraphSpec.node_mem hn, GraphSpec.node_id hn⟩
  · exact hwf.moved_worktrees hmoves hm hp

/-- A live node with a worktree had it before the step, or was launched in it. -/
theorem holdsWorktree_before {w w' : World} {a : Act} (hw : w.Wf) (h : w.step a = some w')
    {g id p : String} (hold : HoldsWorktree w'.graphs g id p) :
    HoldsWorktree w.graphs g id p ∨ ∃ env s c, TickOf w w' env g s ∧
      c ∈ (processGraph env s w.shared).calls ∧ c.node = id ∧ c.spec.OwnWorktree id p := by
  obtain ⟨s', n', hs', hn', hst', hwt'⟩ := hold
  cases step_node_back hw h hs' hn' with
  | planned _ _ hnone =>
      -- a node of a fresh plan has no worktree
      rw [hwt'] at hnone
      cases hnone
  | moved s n k hs hn hframe hk hmove =>
      by_cases hl : k = .launched
      · subst hl
        right
        have hpend : n.status = .pending := Launched.before hmove
        have hrun : n'.status = .running := Launched.status hmove
        obtain ⟨env, rfl⟩ := process_of_tick (.inl rfl) hk
        -- the tick was of this graph, as it changed it
        have hchanged : s' ≠ s := by
          rintro rfl
          obtain rfl : n = n' := Option.some.inj (hn.symm.trans hn')
          exact absurd (hpend.symm.trans hrun) (by decide)
        obtain ⟨htick, rfl⟩ := tickOf_of_changed h hs hs' hchanged
        obtain ⟨c, hc, rfl⟩ :=
          processGraph_launched env (hw.graphs g s hs) hn hn' hpend hrun
        have hown := ((step_wf hw h).graphs g _ hs').worktrees c.node n' p hn' hwt'
        refine ⟨env, s, c, htick, hc, rfl, ?_⟩
        exact (htick.callOf hw hc).frame.ownWorktree.mpr (hframe.ownWorktree.mp hown)
      · refine .inl ⟨s, n, hs, hn, fun hd => hst' (hmove.done hd), ?_⟩
        exact (hmove.worktree_kept hl).symm.trans hwt'

/-- Within a graph a worktree belongs to one node. -/
theorem HoldsWorktree.id_unique {w : World} (hw : w.Wf) {g id₁ id₂ p : String}
    (h₁ : HoldsWorktree w.graphs g id₁ p) (h₂ : HoldsWorktree w.graphs g id₂ p) : id₁ = id₂ := by
  obtain ⟨s, n₁, hs, hn₁, _, hwt₁⟩ := h₁
  obtain ⟨t, n₂, ht, hn₂, _, hwt₂⟩ := h₂
  obtain rfl : s = t := Option.some.inj (hs.symm.trans ht)
  have hwf := hw.graphs g s hs
  -- a recorded path is built from the node's id
  have hpath := (hwf.worktrees id₁ n₁ p hn₁ hwt₁).2.symm.trans (hwf.worktrees id₂ n₂ p hn₂ hwt₂).2
  exact (worktreePath_inj (hwf.valid_of_node hn₁) (hwf.valid_of_node hn₂) hpath).2

/-- A call in a tick of `g` meets no live node of another graph in its worktree. -/
theorem TickOf.not_held {w w' : World} {env : TickEnv} {g : String} {s : GraphSpec} (hw : w.Wf)
    (htick : TickOf w w' env g s) {c : LaunchCall} (hc : c ∈ (processGraph env s w.shared).calls)
    (happart : ∀ l ∈ w'.launches, l.Apart) {h id p : String} (hne : h ≠ g)
    (hold : HoldsWorktree w.graphs h id p) (hown : c.spec.OwnWorktree c.node p) : False := by
  obtain ⟨t, n, ht, hn, hst, hwt⟩ := hold
  have hmem : (⟨g, w.graphs, c⟩ : Launch) ∈ w'.launches := by
    rw [htick.launches]
    exact List.mem_append_right _ (List.mem_map.mpr ⟨c, hc, rfl⟩)
  exact (happart _ hmem).not_held hne ht hn hst hwt (hw.graphs h t ht)
    (htick.callOf hw hc).valid hown

/-- **One step keeps worktrees exclusive**, if its launches are apart. -/
theorem step_exclusive {w w' : World} {a : Act} (hw : w.Wf) (hex : Exclusive w.graphs)
    (h : w.step a = some w') (happart : ∀ l ∈ w'.launches, l.Apart) :
    Exclusive w'.graphs := by
  intro g₁ id₁ g₂ id₂ p hold₁ hold₂
  by_cases hg : g₁ = g₂
  · subst hg
    exact ⟨rfl, hold₁.id_unique (step_wf hw h) hold₂⟩
  · exfalso
    rcases holdsWorktree_before hw h hold₁ with old₁ | ⟨env₁, s₁, c₁, tick₁, hc₁, rfl, own₁⟩
    · rcases holdsWorktree_before hw h hold₂ with old₂ | ⟨env₂, s₂, c₂, tick₂, hc₂, rfl, own₂⟩
      · exact hg (hex g₁ id₁ g₂ id₂ p old₁ old₂).1
      · exact tick₂.not_held hw hc₂ happart hg old₁ own₂
    · rcases holdsWorktree_before hw h hold₂ with old₂ | ⟨env₂, s₂, c₂, tick₂, _⟩
      · exact tick₁.not_held hw hc₁ happart (fun he => hg he.symm) old₂ own₁
      · -- one step ticks one graph
        obtain ⟨todo₁, hturn₁⟩ := tick₁.turn
        obtain ⟨todo₂, hturn₂⟩ := tick₂.turn
        rw [hturn₁] at hturn₂
        exact hg (List.cons.inj (Driver.scheduling.inj hturn₂)).1

/-- A call that is apart from the live nodes spares their worktrees. -/
theorem TickOf.spares {w w' : World} {env : TickEnv} {g : String} {s : GraphSpec} (hw : w.Wf)
    (htick : TickOf w w' env g s) {c : LaunchCall} (hc : c ∈ (processGraph env s w.shared).calls)
    (happart : ∀ l ∈ w'.launches, l.Apart) : Launch.Spares ⟨g, w.graphs, c⟩ := by
  intro p hforced h id hold
  have hcall := htick.callOf hw hc
  have hown := hcall.forced p hforced
  obtain ⟨t, n, ht, hn, hst, hwt⟩ := hold
  by_cases hg : h = g
  · subst hg
    refine ⟨rfl, ?_⟩
    rw [Launch.registry, AList.lookup_insert] at ht
    obtain rfl := Option.some.inj ht
    have hvalid : validNodeId id = true := by
      refine (hw.graphs h s htick.found).valid id ?_
      rw [← hcall.frame.ids]
      exact List.mem_map.mpr ⟨n, GraphSpec.node_mem hn, GraphSpec.node_id hn⟩
    have hpath := (hcall.worktrees id n p hn hwt).2.symm.trans hown.2
    exact (worktreePath_inj hvalid hcall.valid hpath).2
  · rw [Launch.registry, AList.lookup_insert_ne hg] at ht
    exact (htick.not_held hw hc happart hg ⟨t, n, ht, hn, hst, hwt⟩ hown).elim

/-! ## §4. The contract. -/

theorem World.Start.exclusive {w : World} (h : w.Start) : Exclusive w.graphs := by
  rintro g₁ id₁ g₂ id₂ p ⟨s, n, hs, hn, _⟩
  have hmem := GraphSpec.node_mem hn
  rw [h.unplanned g₁ s hs] at hmem
  exact absurd hmem List.not_mem_nil

/-- Graph `g` over `/r` and graph `h` over `base`, each with a node `a`; one tick
of both, the second of which finds the directory of its worktree in place. -/
def twoGraphs (base : String) : List Act :=
  startGraph "g" onePlan ++ startGraph "h" onePlan {} base ++
    [.driver .tick, .driver (.process {}),
     .driver (.process { launch := fun _ => { worktreeExists := true } })]

end Jmux.Goal
