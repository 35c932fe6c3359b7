/-
  Jmux.Goal.LaunchMoves — the launch loop and the whole tick.

  `launchReady` is the only place that takes concurrency slots, starts runs and
  creates worktrees.  `LaunchEffect` is the loop's specification; it is proved
  by induction over the ready ids, each of which is touched once because ids do
  not repeat.

  Main results:
    * `launchNode_ok`               — what a successful `launch_node` does.
    * `launchReady_effect`          — the launch loop meets `LaunchEffect`.
    * `tickRunning_effect`          — one tick of a running graph.
    * `tickRunning_activeCount_le`  — a tick respects `max_concurrency`.
-/
import Jmux.Goal.NodeMoves

namespace Jmux.Goal

/-! ## §1. One launch. -/

/-- New runs and workspaces have fresh ids; everything older is kept. -/
structure SharedGrows (before after : Shared) : Prop where
  next : before.nextUuid ≤ after.nextUuid
  goals : ∀ ws, after.goals.lookup ws = before.goals.lookup ws ∨
    before.nextUuid ≤ ws ∧ ws < after.nextUuid
  workspaces : ∀ ws ∈ after.workspaces, ws ∈ before.workspaces ∨
    before.nextUuid ≤ ws ∧ ws < after.nextUuid

theorem SharedGrows.refl (s : Shared) : SharedGrows s s :=
  ⟨Nat.le_refl _, fun _ => .inl rfl, fun _ h => .inl h⟩

theorem SharedGrows.trans {s₁ s₂ s₃ : Shared} (h : SharedGrows s₁ s₂) (h' : SharedGrows s₂ s₃) :
    SharedGrows s₁ s₃ := by
  have h1 := h.next
  have h2 := h'.next
  refine ⟨Nat.le_trans h1 h2, fun ws => ?_, fun ws hws => ?_⟩
  · rcases h'.goals ws with e' | hnew
    · rcases h.goals ws with e | hold
      · exact .inl (e'.trans e)
      · exact .inr ⟨hold.1, by lia⟩
    · exact .inr ⟨by lia, hnew.2⟩
  · rcases h'.workspaces ws hws with hmid | hnew
    · rcases h.workspaces ws hmid with hold | hold
      · exact .inl hold
      · exact .inr ⟨hold.1, by lia⟩
    · exact .inr ⟨by lia, hnew.2⟩

theorem launchGoal_grows {spec : LaunchSpec} {env : LaunchEnv} {shared shared' : Shared}
    {ws : Uuid} (h : launchGoal spec env shared = .ok (ws, shared')) :
    SharedGrows shared shared' := by
  obtain ⟨hws, hnext, hopen, hgoals⟩ := launchGoal_ok h
  refine ⟨by lia, fun k => ?_, fun k hk => ?_⟩
  · rw [hgoals, AList.lookup_insert_eq_ite]
    by_cases hk : k = ws
    · exact .inr ⟨by lia, by lia⟩
    · rw [if_neg hk]
      exact .inl rfl
  · rw [hopen] at hk
    rcases List.mem_cons.mp hk with hk | hk
    · exact .inr ⟨by lia, by lia⟩
    · exact .inl hk

/-- The worktree that `launch_node` prepares is the one computed from the base
directory and the node id. -/
theorem prepareWorktree_path {env : LaunchEnv} {s : GraphSpec} {id cwd : String}
    {branch wt : Option String} (h : prepareWorktree env s id = .ok (cwd, branch, wt)) :
    ∀ p, wt = some p → s.OwnWorktree id p := by
  intro p hp
  unfold prepareWorktree at h
  split at h
  next huse =>
    split at h
    · cases h
    · split at h
      · cases h
      · cases h
        exact ⟨huse, (Option.some.inj hp).symm⟩
  · cases h
    cases hp

/-- The goal run that a node is launched as. -/
def GraphSpec.nodeLaunch (spec : GraphSpec) (env : LaunchEnv) (id cwd runnerDisplay : String)
    (runner : GoalRunner) : LaunchSpec where
  goalName := spec.name ++ "/" ++ id
  goalPath := "graph:" ++ spec.name ++ ":" ++ id
  cwd := cwd
  outputDirRel := spec.nodeOutputDir id
  runnerName := runnerDisplay
  runner := runner
  maxIterations := spec.maxIterations
  wallClockMinutes := env.settings.wallClockMinutes
  graph := some { graph := spec.name, node := id }

/-- The steps of a successful `launch_node`, each of which succeeds. -/
theorem launchNode_steps {env : LaunchEnv} {s s' : GraphSpec} {id : String}
    {shared shared' : Shared} (h : launchNode env s id shared = .ok (s', shared')) :
    ∃ node cwd branch wt name runner, s.node id = some node ∧
      prepareWorktree env s id = .ok (cwd, branch, wt) ∧
      resolveRunnerByName ((node.runner.or s.runner).getD "") env.settings = .ok (name, runner) ∧
      launchGoal (s.nodeLaunch env id cwd name runner) env shared
        = .ok (shared.nextUuid, shared') ∧
      s' = s.modifyNode id (·.launched shared.nextUuid branch wt) := by
  unfold launchNode at h
  split at h
  · cases h
  next node hnode =>
    split at h
    · cases h
    next cwd branch wt hprep =>
      dsimp only at h
      split at h
      · cases h
      next name runner hrunner =>
        split at h
        · cases h
        next ws shared₁ hlaunch =>
          obtain ⟨rfl, rfl⟩ := Prod.mk.inj (Except.ok.inj h)
          obtain ⟨rfl, -⟩ := launchGoal_ok hlaunch
          exact ⟨node, cwd, branch, wt, name, runner, hnode, hprep, hrunner, hlaunch, rfl⟩

/-- **What a successful `launch_node` does**: a run under a fresh workspace id,
recorded in the node together with its worktree. -/
theorem launchNode_ok {env : LaunchEnv} {s s' : GraphSpec} {id : String} {shared shared' : Shared}
    (h : launchNode env s id shared = .ok (s', shared')) :
    ∃ branch wt, s' = s.modifyNode id (·.launched shared.nextUuid branch wt) ∧
      (∀ p, wt = some p → s.OwnWorktree id p) ∧
      SharedGrows shared shared' ∧ shared.nextUuid < shared'.nextUuid := by
  obtain ⟨_, _, branch, wt, _, _, -, hprep, -, hlaunch, rfl⟩ := launchNode_steps h
  have hnext := (launchGoal_ok hlaunch).2.1
  exact ⟨branch, wt, rfl, prepareWorktree_path hprep, launchGoal_grows hlaunch, by lia⟩

/-! ## §2. The launch loop. -/

/-- What the launch loop can do to a node: nothing, launch it, or block it
because its launch failed. -/
def LaunchMove (s : GraphSpec) (lo hi : Uuid) (n n' : GraphNode) : Prop :=
  n' = n ∨ Launched s lo hi n n' ∨
    (n.status = .pending ∧ n'.status = .blocked ∧ n'.workspace = n.workspace ∧
      n'.worktree = n.worktree)

theorem LaunchMove.widen {s s' : GraphSpec} {lo lo' hi hi' : Uuid} {n n' : GraphNode}
    (h : LaunchMove s lo hi n n') (hset : SameSettings s' s)
    (hlo : lo' ≤ lo) (hhi : hi ≤ hi') : LaunchMove s' lo' hi' n n' := by
  rcases h with h | h | h
  · exact .inl h
  · obtain ⟨ws, hws, hge, hlt⟩ := h.workspace
    refine .inr (.inl ⟨h.before, h.status, ⟨ws, hws, by lia, by lia⟩, fun p hp => ?_⟩)
    exact hset.ownWorktree.mp (h.worktree p hp)
  · exact .inr (.inr h)

/-- The specification of the launch loop over the ids `ids`, from `t` to `t'`;
`new` are the calls of `launch_node` it made. -/
structure LaunchEffect (ids : List String) (t t' : Tick) (new : List LaunchCall) : Prop where
  calls : t'.calls = t.calls ++ new
  frame : SpecFrame t.spec t'.spec
  shared : SharedGrows t.shared t'.shared
  /-- A node that has changed was in the list and `launch_node` was called on it. -/
  nodes : ∀ i n, t.spec.node i = some n → ∃ n', t'.spec.node i = some n' ∧
    LaunchMove t.spec t.shared.nextUuid t'.shared.nextUuid n n' ∧
    (n' ≠ n → i ∈ ids ∧ ∃ c ∈ new, c.node = i)
  /-- At each call the node itself is still untouched, as are all nodes outside the list. -/
  called : ∀ c ∈ new, c.node ∈ ids ∧ SpecFrame t.spec c.spec ∧
    c.spec.node c.node = t.spec.node c.node ∧
    (∀ p, c.forced = some p → c.spec.OwnWorktree c.node p) ∧
    ∀ i n, t.spec.node i = some n → ∃ m, c.spec.node i = some m ∧
      LaunchMove t.spec t.shared.nextUuid t'.shared.nextUuid n m ∧ (m ≠ n → i ∈ ids)

theorem forcedRemoval_path {env : LaunchEnv} {s : GraphSpec} {id p : String}
    (h : forcedRemoval env s id = some p) : s.OwnWorktree id p := by
  unfold forcedRemoval at h
  split at h
  next hforce =>
    simp only [Bool.and_eq_true] at hforce
    exact ⟨hforce.1.2, (Option.some.inj h).symm⟩
  · cases h

theorem LaunchEffect.nothing (ids : List String) (t : Tick) : LaunchEffect ids t t [] where
  calls := (List.append_nil _).symm
  frame := .refl _
  shared := .refl _
  nodes _ n hn := ⟨n, hn, .inl rfl, fun h => absurd rfl h⟩
  called _ hc := absurd hc List.not_mem_nil

/-- The nodes after one turn of the loop, which makes node `id` into `f n`, and
after more turns, which do not touch it again. -/
theorem LaunchMove.after_turn {id : String} {ids : List String} {s s₁ s' : GraphSpec}
    {lo mid hi : Uuid} {called : String → Prop} (f : GraphNode → GraphNode) (hid : id ∉ ids)
    (hf : ∀ n, (f n).id = n.id) (hspec : s₁ = s.modifyNode id f) (hlo : lo ≤ mid) (hhi : mid ≤ hi)
    (hmove : ∀ n, s.node id = some n → LaunchMove s lo mid n (f n))
    (hrest : ∀ i n, s₁.node i = some n → ∃ n', s'.node i = some n' ∧
      LaunchMove s₁ mid hi n n' ∧ (n' ≠ n → i ∈ ids ∧ called i)) :
    ∀ i n, s.node i = some n → ∃ n', s'.node i = some n' ∧ LaunchMove s lo hi n n' ∧
      (n' ≠ n → i = id ∨ i ∈ ids ∧ called i) := by
  have hset : SameSettings s s₁ := hspec ▸ (SpecFrame.modifyNode hf s id).toSameSettings
  have hnode₁ : ∀ i, s₁.node i = if i = id then (s.node id).map f else s.node i := by
    intro i
    rw [hspec]
    exact GraphSpec.modifyNode_node hf s id i
  intro i n hn
  by_cases hi : i = id
  · subst hi
    have hfn : s₁.node i = some (f n) := by rw [hnode₁, if_pos rfl, hn]; rfl
    obtain ⟨n', hn', _, hsame⟩ := hrest i (f n) hfn
    have heq : n' = f n := by
      by_contra hne
      exact hid (hsame hne).1
    subst heq
    exact ⟨f n, hn', (hmove n hn).widen (.refl _) (Nat.le_refl _) hhi, fun _ => .inl rfl⟩
  · have hn₁ : s₁.node i = some n := by rw [hnode₁, if_neg hi, hn]
    obtain ⟨n', hn', hmove', hcall⟩ := hrest i n hn₁
    exact ⟨n', hn', hmove'.widen hset hlo (Nat.le_refl _), fun hne => .inr (hcall hne)⟩

/-- One turn of the loop, followed by the rest of the loop: `launch_node` is
called on `id`, node `id` becomes `f n`, and the rest does not touch it again. -/
theorem LaunchEffect.cons {id : String} {ids : List String} {t t' : Tick}
    {new : List LaunchCall} {env : LaunchEnv} (t₁ : Tick) (f : GraphNode → GraphNode)
    (hid : id ∉ ids) (hf : ∀ n, (f n).id = n.id)
    (hspec : t₁.spec = t.spec.modifyNode id f) (hgrows : SharedGrows t.shared t₁.shared)
    (hcalls : t₁.calls = t.calls ++ [.of env t.spec id])
    (hmove : ∀ n, t.spec.node id = some n →
      LaunchMove t.spec t.shared.nextUuid t₁.shared.nextUuid n (f n))
    (hrest : LaunchEffect ids t₁ t' new) :
    LaunchEffect (id :: ids) t t' (.of env t.spec id :: new) := by
  have hframe₁ : SpecFrame t.spec t₁.spec := hspec ▸ SpecFrame.modifyNode hf t.spec id
  -- workspace ids only grow, so the ranges of the two parts lie in one
  have hlo := hgrows.next
  have hhi := hrest.shared.next
  refine ⟨?_, hframe₁.trans hrest.frame, hgrows.trans hrest.shared, ?_, ?_⟩
  · rw [hrest.calls, hcalls, List.append_assoc]
    rfl
  · intro i n hn
    obtain ⟨n', hn', hmove', hcall⟩ :=
      LaunchMove.after_turn f hid hf hspec hlo hhi hmove hrest.nodes i n hn
    refine ⟨n', hn', hmove', fun hne => ?_⟩
    rcases hcall hne with rfl | ⟨hmem, c, hc, hci⟩
    · exact ⟨List.mem_cons_self, ⟨_, List.mem_cons_self, rfl⟩⟩
    · exact ⟨List.mem_cons_of_mem id hmem, c, List.mem_cons_of_mem _ hc, hci⟩
  · intro c hc
    -- the call of this turn sees the spec as it was, a later one what this turn left
    rcases List.mem_cons.mp hc with rfl | hc
    · exact ⟨List.mem_cons_self, .refl _, rfl, fun _ hp => forcedRemoval_path hp,
        fun _ n hn => ⟨n, hn, .inl rfl, fun h => absurd rfl h⟩⟩
    · obtain ⟨hmem, hframe, hown, hforce, hnodes⟩ := hrest.called c hc
      have hne : c.node ≠ id := fun h => hid (h ▸ hmem)
      refine ⟨List.mem_cons_of_mem id hmem, hframe₁.trans hframe, ?_, hforce, ?_⟩
      · rw [hown, hspec, GraphSpec.modifyNode_node hf, if_neg hne]
      · have hlater : ∀ i n, t₁.spec.node i = some n → ∃ m, c.spec.node i = some m ∧
            LaunchMove t₁.spec t₁.shared.nextUuid t'.shared.nextUuid n m ∧
            (m ≠ n → i ∈ ids ∧ True) := by
          intro i n hn
          obtain ⟨m, hm, hmv, hin⟩ := hnodes i n hn
          exact ⟨m, hm, hmv, fun hne' => ⟨hin hne', trivial⟩⟩
        intro i n hn
        obtain ⟨m, hm, hmv, hin⟩ :=
          LaunchMove.after_turn f hid hf hspec hlo hhi hmove hlater i n hn
        refine ⟨m, hm, hmv, fun hne' => ?_⟩
        rcases hin hne' with rfl | ⟨hmem', _⟩
        · exact List.mem_cons_self
        · exact List.mem_cons_of_mem id hmem'

/-- **The launch loop meets its specification.** -/
theorem launchReady_effect (env : String → LaunchEnv) :
    ∀ (ids : List String) (slots : Nat) (t : Tick), ids.Nodup →
      (∀ i ∈ ids, ∀ n, t.spec.node i = some n → n.status = .pending) →
      ∃ new, LaunchEffect ids t (launchReady env ids slots t) new
  | [], slots, t, _, _ => ⟨[], by unfold launchReady; exact .nothing _ t⟩
  | id :: ids, 0, t, _, _ => ⟨[], by unfold launchReady; exact .nothing _ t⟩
  | id :: ids, slots + 1, t, hnd, hpend => by
      obtain ⟨hid, hids⟩ := List.nodup_cons.mp hnd
      -- whatever the turn does to node `id`, the later ids are still pending
      have hlater : ∀ (f : GraphNode → GraphNode), (∀ n, (f n).id = n.id) →
          ∀ i ∈ ids, ∀ n, (t.spec.modifyNode id f).node i = some n → n.status = .pending := by
        intro f hf i hi n hn
        have hne : i ≠ id := fun h => hid (h ▸ hi)
        rw [GraphSpec.modifyNode_node hf, if_neg hne] at hn
        exact hpend i (List.mem_cons_of_mem id hi) n hn
      rw [launchReady]
      split
      next s' shared' hlaunch =>
        obtain ⟨branch, wt, rfl, hpath, hgrows, hlt⟩ := launchNode_ok hlaunch
        -- the launch took a slot
        let launch := fun n : GraphNode => n.launched t.shared.nextUuid branch wt
        let t₁ : Tick :=
          ⟨t.spec.modifyNode id launch, shared', t.calls ++ [.of (env id) t.spec id]⟩
        obtain ⟨new, heff⟩ := launchReady_effect env ids slots t₁ hids
          (hlater launch (fun _ => rfl))
        refine ⟨_, .cons t₁ launch hid (fun _ => rfl) rfl hgrows rfl
          (fun n hn => ?_) heff⟩
        refine .inr (.inl ⟨hpend id List.mem_cons_self n hn, rfl,
          ⟨t.shared.nextUuid, rfl, Nat.le_refl _, hlt⟩, fun p hp => ?_⟩)
        rw [GraphSpec.node_id hn]
        exact hpath p hp
      next e hfail =>
        -- the launch failed: the node is blocked and the slot is free
        let t₁ : Tick :=
          ⟨t.spec.modifyNode id (·.launchFailed e), t.shared,
           t.calls ++ [.of (env id) t.spec id]⟩
        obtain ⟨new, heff⟩ := launchReady_effect env ids (slots + 1) t₁ hids
          (hlater (·.launchFailed e) (fun _ => rfl))
        refine ⟨_, .cons t₁ (·.launchFailed e) hid (fun _ => rfl) rfl (.refl _) rfl
          (fun n hn => ?_) heff⟩
        exact .inr (.inr ⟨hpend id List.mem_cons_self n hn, rfl, rfl, rfl⟩)

/-- The loop takes at most `slots` slots. -/
theorem launchReady_activeCount_le (env : String → LaunchEnv) :
    ∀ (ids : List String) (slots : Nat) (t : Tick),
      (launchReady env ids slots t).spec.activeCount ≤ t.spec.activeCount + slots
  | [], slots, t => by
      unfold launchReady
      exact Nat.le_add_right _ _
  | id :: ids, 0, t => by
      unfold launchReady
      exact Nat.le_add_right _ _
  | id :: ids, slots + 1, t => by
      rw [launchReady]
      split
      next s' shared' hlaunch =>
        obtain ⟨branch, wt, hs', _⟩ := launchNode_ok hlaunch
        -- one slot for one launched node
        have hone : s'.activeCount ≤ t.spec.activeCount + 1 :=
          hs' ▸ List.countP_modifyFirst_le_succ _ _ _ _
        have hrec := launchReady_activeCount_le env ids slots
          ⟨s', shared', t.calls ++ [.of (env id) t.spec id]⟩
        dsimp only at hrec ⊢
        omega
      next e hfail =>
        -- a blocked node holds none
        have hone : (t.spec.modifyNode id (·.launchFailed e)).activeCount ≤ t.spec.activeCount :=
          modifyNode_activeCount_le t.spec id fun n h => by cases h
        have hrec := launchReady_activeCount_le env ids (slots + 1)
          ⟨t.spec.modifyNode id (·.launchFailed e), t.shared,
           t.calls ++ [.of (env id) t.spec id]⟩
        dsimp only at hrec ⊢
        omega

theorem launchReady_status (env : String → LaunchEnv) :
    ∀ (ids : List String) (slots : Nat) (t : Tick),
      (launchReady env ids slots t).spec.status = t.spec.status
  | [], _, _ => by
      unfold launchReady
      rfl
  | _ :: _, 0, _ => by
      unfold launchReady
      rfl
  | id :: ids, slots + 1, t => by
      rw [launchReady]
      split
      next s' shared' hlaunch =>
        obtain ⟨branch, wt, rfl, _⟩ := launchNode_ok hlaunch
        exact launchReady_status env ids slots _
      next => exact launchReady_status env ids (slots + 1) _

/-! ## §3. The tick of a running graph. -/

theorem mem_doneIds {s : GraphSpec} (hnd : s.ids.Nodup) {id : String} :
    id ∈ s.doneIds ↔ s.HasStatus id .done := by
  unfold GraphSpec.doneIds
  rw [List.mem_map]
  constructor
  · rintro ⟨n, hn, hid⟩
    obtain ⟨hmem, hst⟩ := List.mem_filter.mp hn
    exact ⟨n, (GraphSpec.node_eq_some hnd).mpr ⟨hmem, hid⟩, by simpa using hst⟩
  · rintro ⟨n, hn, hst⟩
    exact ⟨n, List.mem_filter.mpr ⟨GraphSpec.node_mem hn, by simpa using hst⟩,
      GraphSpec.node_id hn⟩

theorem mem_readyIds {s : GraphSpec} (hnd : s.ids.Nodup) {id : String} (h : id ∈ s.readyIds) :
    ∃ n, s.node id = some n ∧ n.status = .pending ∧ ∀ d ∈ n.deps, s.HasStatus d .done := by
  unfold GraphSpec.readyIds at h
  obtain ⟨n, hn, hid⟩ := List.mem_map.mp h
  obtain ⟨hmem, hready⟩ := List.mem_filter.mp hn
  unfold GraphNode.ready at hready
  simp only [Bool.and_eq_true, decide_eq_true_eq, List.all_eq_true] at hready
  exact ⟨n, (GraphSpec.node_eq_some hnd).mpr ⟨hmem, hid⟩, hready.1,
    fun d hd => (mem_doneIds hnd).mp (hready.2 d hd)⟩

/-- A launch move on top of a sync move is one move of the tick: the sync never
makes a node pending. -/
theorem NodeMove.then_launch {s s₁ : GraphSpec} {before after : Shared} {n m n' : GraphNode}
    (hsync : ∃ k ∈ MoveKind.ofSync, NodeMove s before after n m k)
    (hlaunch : LaunchMove s₁ before.nextUuid after.nextUuid m n') (hm : m.id = n.id)
    (hset : SameSettings s s₁) :
    ∃ k ∈ MoveKind.ofTick, NodeMove s before after n n' k := by
  obtain ⟨k, hk, hmove⟩ := hsync
  rcases hlaunch with rfl | hlaunch
  · exact ⟨k, List.mem_append_left _ hk, hmove⟩
  · have hpend : m.status = .pending := by
      rcases hlaunch with h | h
      · exact h.before
      · exact h.1
    -- so the sync left the node alone
    obtain ⟨hn, _, hws, hwt⟩ := hmove.sync_pending hk (.inr hpend)
    rcases hlaunch with h | ⟨_, hst', hws', hwt'⟩
    · refine ⟨.launched, by decide, hn, h.status, h.workspace, fun p hp => ?_⟩
      rw [← hm]
      exact hset.ownWorktree.mp (h.worktree p hp)
    · exact ⟨.settles, by decide, by rw [hn]; decide, .inr hst', hws'.trans hws, hwt'.trans hwt⟩

/-- What one tick of a running graph does to the spec `s`: every node moves, and
every call of `launch_node` was on a pending node whose dependencies are done. -/
structure TickEffect (s : GraphSpec) (before : Shared) (t : Tick) : Prop where
  shared : SharedGrows before t.shared
  moves : SpecMoves MoveKind.ofTick before t.shared s t.spec
  calls : ∀ c ∈ t.calls, SpecMoves MoveKind.ofTick before t.shared s c.spec ∧
    (∃ n, c.spec.node c.node = some n ∧ n.status = .pending ∧
      ∀ d ∈ n.deps, c.spec.HasStatus d .done) ∧
    ∀ p, c.forced = some p → c.spec.OwnWorktree c.node p
  launched : ∀ id n n', s.node id = some n → t.spec.node id = some n' →
    n.status = .pending → n'.status = .running → ∃ c ∈ t.calls, c.node = id
  slots : s.activeCount ≤ s.maxConcurrency → t.spec.activeCount ≤ s.maxConcurrency

theorem TickEffect.withStatus {s : GraphSpec} {before : Shared} {t : Tick}
    (h : TickEffect s before t) (st : GraphState) :
    TickEffect s before { t with spec := { t.spec with status := st } } where
  shared := h.shared
  moves := h.moves.withStatus st
  calls := h.calls
  launched := h.launched
  slots := h.slots

theorem SpecMoves.widen {ks ks' : List MoveKind} {before after : Shared} {s s' : GraphSpec}
    (h : SpecMoves ks before after s s') (hks : ∀ k ∈ ks, k ∈ ks') :
    SpecMoves ks' before after s s' := by
  refine ⟨h.frame, fun id n hn => ?_⟩
  obtain ⟨n', hn', k, hk, hmove⟩ := h.moves id n hn
  exact ⟨n', hn', k, hks k hk, hmove⟩

/-- A sync that is followed by launches is one family of moves. -/
theorem SpecMoves.then_launch {before after : Shared} {s s₁ s' : GraphSpec}
    (hsync : SpecMoves MoveKind.ofSync before after s s₁) (hframe : SpecFrame s₁ s')
    (hlaunch : ∀ i m, s₁.node i = some m → ∃ n', s'.node i = some n' ∧
      LaunchMove s₁ before.nextUuid after.nextUuid m n') :
    SpecMoves MoveKind.ofTick before after s s' := by
  refine ⟨hsync.frame.trans hframe, fun id n hn => ?_⟩
  obtain ⟨m, hm, hmove⟩ := hsync.moves id n hn
  obtain ⟨n', hn', hl⟩ := hlaunch id m hm
  have hid : m.id = n.id := (GraphSpec.node_id hm).trans (GraphSpec.node_id hn).symm
  exact ⟨n', hn', NodeMove.then_launch hmove hl hid hsync.frame.toSameSettings⟩

/-- A tick that only syncs. -/
theorem TickEffect.ofSync {s s₁ : GraphSpec} {before : Shared}
    (hsync : SpecMoves MoveKind.ofSync before before s s₁)
    (hcount : s₁.activeCount ≤ s.activeCount) : TickEffect s before ⟨s₁, before, []⟩ := by
  refine ⟨.refl _, hsync.widen fun k hk => List.mem_append_left _ hk, ?_, ?_, ?_⟩
  · intro c hc
    exact absurd hc List.not_mem_nil
  · intro id n n' hn hn' hp hr
    obtain ⟨m, hm, k, hk, hmove⟩ := hsync.moves id n hn
    obtain rfl : m = n' := Option.some.inj (hm.symm.trans hn')
    have hpend := hmove.sync_pending hk (.inl ⟨hp, hr⟩)
    exact absurd (hr.symm.trans hpend.2.1) (by decide)
  · intro hle
    exact Nat.le_trans hcount hle

/-- A tick that syncs and then runs the launch loop over the ready nodes. -/
theorem TickEffect.ofLaunch (env : String → LaunchEnv) {s s₁ : GraphSpec} {before : Shared}
    (hsync : ∀ after, SpecMoves MoveKind.ofSync before after s s₁)
    (hcount : s₁.activeCount ≤ s.activeCount) (hnd : s₁.ids.Nodup) :
    TickEffect s before (launchReady env s₁.readyIds (s₁.maxConcurrency - s₁.activeCount)
      ⟨s₁, before, []⟩) := by
  have hrnd : s₁.readyIds.Nodup := hnd.sublist (List.filter_sublist.map _)
  have hpend : ∀ i ∈ s₁.readyIds, ∀ n, s₁.node i = some n → n.status = .pending := by
    intro i hi n hn
    obtain ⟨m, hm, hst, _⟩ := mem_readyIds hnd hi
    obtain rfl : m = n := Option.some.inj (hm.symm.trans hn)
    exact hst
  have hslots := launchReady_activeCount_le env s₁.readyIds
    (s₁.maxConcurrency - s₁.activeCount) ⟨s₁, before, []⟩
  obtain ⟨new, heff⟩ := launchReady_effect env s₁.readyIds
    (s₁.maxConcurrency - s₁.activeCount) ⟨s₁, before, []⟩ hrnd hpend
  generalize launchReady env s₁.readyIds (s₁.maxConcurrency - s₁.activeCount)
    ⟨s₁, before, []⟩ = t at hslots heff ⊢
  have hcalls : t.calls = new := heff.calls
  refine ⟨heff.shared, ?_, ?_, ?_, ?_⟩
  · refine (hsync t.shared).then_launch heff.frame fun i m hm => ?_
    obtain ⟨n', hn', hl, _⟩ := heff.nodes i m hm
    exact ⟨n', hn', hl⟩
  · intro c hc
    obtain ⟨hmem, hcframe, hown, hforced, hnodes⟩ := heff.called c (hcalls ▸ hc)
    refine ⟨(hsync t.shared).then_launch hcframe fun i m hm => ?_, ?_, hforced⟩
    · obtain ⟨n', hn', hl, _⟩ := hnodes i m hm
      exact ⟨n', hn', hl⟩
    · obtain ⟨n, hn, hst, hdeps⟩ := mem_readyIds hnd hmem
      refine ⟨n, hown.trans hn, hst, fun d hd => ?_⟩
      -- a done dependency is not in the launch list, so it is still done
      obtain ⟨m, hm, hmst⟩ := hdeps d hd
      obtain ⟨m', hm', _, hsame⟩ := hnodes d m hm
      have heq : m' = m := by
        by_contra hne
        exact absurd (hmst.symm.trans (hpend d (hsame hne) m hm)) (by decide)
      exact ⟨m', hm', heq ▸ hmst⟩
  · intro id n n' hn hn' hp hr
    obtain ⟨m, hm, k, hk, hmove⟩ := (hsync t.shared).moves id n hn
    obtain ⟨n'', hn'', hl, hcall⟩ := heff.nodes id m hm
    obtain rfl : n'' = n' := Option.some.inj (hn''.symm.trans hn')
    -- had the loop left the node, the sync would have started it
    have hne : n'' ≠ m := by
      rintro rfl
      have hpend' := hmove.sync_pending hk (.inl ⟨hp, hr⟩)
      exact absurd (hr.symm.trans hpend'.2.1) (by decide)
    obtain ⟨_, c, hc, hci⟩ := hcall hne
    exact ⟨c, hcalls ▸ hc, hci⟩
  · intro hle
    -- free slots are what the cap leaves after the sync
    have hmax := (hsync t.shared).frame.maxConcurrency
    dsimp only at hslots
    omega

theorem scheduleSynced_effect (env : TickEnv) {s : GraphSpec} {before : Shared}
    (hnd : s.ids.Nodup) :
    TickEffect s before (scheduleSynced env (syncNodeStates before.goals env.git s) before) := by
  have hcount := syncNodeStates_activeCount_le before.goals env.git s
  have hsync : ∀ after, SpecMoves MoveKind.ofSync before after s
      (syncNodeStates before.goals env.git s) := fun after => syncNodeStates_moves hnd env.git
  have hnd₁ : (syncNodeStates before.goals env.git s).ids.Nodup :=
    (syncNodeStates_frame before.goals env.git s).ids ▸ hnd
  unfold scheduleSynced
  split
  · exact (TickEffect.ofSync (hsync before) hcount).withStatus _
  · have htick := TickEffect.ofLaunch env.launch hsync hcount hnd₁
    dsimp only
    split
    · exact htick.withStatus _
    · exact htick

/-- After the sync, a tick touches only the pending nodes. -/
theorem scheduleSynced_node (env : TickEnv) {s : GraphSpec} (before : Shared) (hnd : s.ids.Nodup)
    {id : String} {n : GraphNode} (hn : s.node id = some n) (hst : n.status ≠ .pending) :
    (scheduleSynced env s before).spec.node id = some n := by
  have hpend : ∀ i ∈ s.readyIds, ∀ m, s.node i = some m → m.status = .pending := by
    intro i hi m hm
    obtain ⟨k, hk, hpend, _⟩ := mem_readyIds hnd hi
    obtain rfl : k = m := Option.some.inj (hk.symm.trans hm)
    exact hpend
  obtain ⟨new, heff⟩ := launchReady_effect env.launch s.readyIds
    (s.maxConcurrency - s.activeCount) ⟨s, before, []⟩
    (hnd.sublist (List.filter_sublist.map _)) hpend
  have hkept : (launchReady env.launch s.readyIds (s.maxConcurrency - s.activeCount)
      ⟨s, before, []⟩).spec.node id = some n := by
    obtain ⟨n', hn', _, hsame⟩ := heff.nodes id n hn
    have heq : n' = n := by
      by_contra hne
      exact hst (hpend id (hsame hne).1 n hn)
    rw [hn', heq]
  unfold scheduleSynced
  split
  · exact hn
  · dsimp only
    split
    · exact hkept
    · exact hkept

/-- **One tick of a running graph.** -/
theorem tickRunning_effect (env : TickEnv) {s : GraphSpec} (before : Shared)
    (hnd : s.ids.Nodup) : TickEffect s before (tickRunning env s before) := by
  unfold tickRunning
  split
  -- a graph without nodes goes back to its proposal
  · have hstay : SpecMoves MoveKind.ofSync before before s s :=
      ⟨.refl _, fun id n hn => ⟨n, hn, .stays, by decide, rfl, rfl, rfl⟩⟩
    exact (TickEffect.ofSync hstay (Nat.le_refl _)).withStatus _
  · exact scheduleSynced_effect env hnd

/-- A running graph goes back to planning only when it has no nodes. -/
theorem tickRunning_planning (env : TickEnv) {s : GraphSpec} {before : Shared}
    (hs : s.status = .running)
    (h : (tickRunning env s before).spec.status = .proposing ∨
      (tickRunning env s before).spec.status = .proposed) : s.nodes = [] := by
  by_contra hne
  have hsync := (syncNodeStates_status before.goals env.git s).trans hs
  unfold tickRunning at h
  rw [if_neg hne] at h
  unfold scheduleSynced at h
  split at h
  · rcases h with h | h <;> cases h
  · dsimp only at h
    split at h
    · rcases h with h | h <;> cases h
    · rw [launchReady_status, hsync] at h
      rcases h with h | h <;> cases h

end Jmux.Goal
