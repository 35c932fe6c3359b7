/-
  Jmux.Goal.WorldInvariant — threads, and the invariant of every reachable world.

  A multi-step request is a thread in some state; a step moves one thread, and
  only a handful of moves matter to the graphs or to an advance (`ThreadMove`).

  Main results:
    * `step_threads`          — each thread before and after a step.
    * `step_prompts`          — where the prompts of an advance come from.
    * `step_wf`, `reachable_wf` — the representation invariant.
    * `reachable_bounded`     — ids in use are older than the next fresh id.
-/
import Jmux.Goal.WorldEffects
import Jmux.Lib.Transition

namespace Jmux.Goal

open Jmux.Lib

/-! ## §1. Threads. -/

/-- States that do not matter to the graphs or to an advance. -/
def Thread.isPlain : Thread → Bool
  | .creating _ | .advancing _ _ | .sent _ _ => false
  | _ => true

/-- How the action `a` moves thread `i`. -/
inductive ThreadMove (w : World) (a : Act) (i : Nat) : Thread → Thread → Prop
  | keeps (th : Thread) : ThreadMove w a i th th
  | plain (th th' : Thread) (h : th'.isPlain = true) : ThreadMove w a i th th'
  | creates (th : Thread) (spec : GraphSpec) (h : spec.nodes = []) :
      ThreadMove w a i th (.creating spec)
  /-- `advance_iteration` has cloned the run and passed its guards. -/
  | clones (th : Thread) (ws : Uuid) (run : GoalRun) (h : w.shared.goals.lookup ws = some run) :
      ThreadMove w a i th (.advancing ws run)
  | sends (ws : Uuid) (run : GoalRun) (h : a = .thread i (.advanceSend true)) :
      ThreadMove w a i (.advancing ws run) (.sent ws run)

theorem ThreadMove.set {w w' : World} {a : Act} {t : Nat} {th : Thread}
    (h : ThreadMove w a t (w.threads t) th) (hw' : w'.threads = (w.setThread t th).threads)
    (i : Nat) : ThreadMove w a i (w.threads i) (w'.threads i) := by
  rw [hw']
  show ThreadMove w a i (w.threads i) (if i = t then th else w.threads i)
  by_cases hi : i = t
  · subst hi
    rw [if_pos rfl]
    exact h
  · rw [if_neg hi]
    exact .keeps _

theorem ThreadMove.eq {w w' : World} {a : Act} (h : w'.threads = w.threads) (i : Nat) :
    ThreadMove w a i (w.threads i) (w'.threads i) := by
  rw [h]
  exact .keeps _

theorem cloneForAdvance_some {w : World} {ws : Uuid} {env : AdvanceEnv} {run : GoalRun}
    (h : w.cloneForAdvance ws env = some run) : w.shared.goals.lookup ws = some run := by
  unfold World.cloneForAdvance at h
  exact (Option.filter_eq_some_iff.mp h).1

/-- Thread `t` comes to a plain state after an edit of a graph. -/
theorem ThreadMove.edited {w : World} {a : Act} {t : Nat} (th : Thread) (hth : th.isPlain = true)
    (name : String) (f : GraphSpec → Except String GraphSpec) (i : Nat) :
    ThreadMove w a i (w.threads i) (((w.editGraph name f).setThread t th).threads i) := by
  refine .set (t := t) (.plain _ th hth) ?_ i
  unfold World.setThread
  rw [(w.editGraph_frame name f).2.1]

theorem threadStep_threads {w w' : World} {t : Nat} {s : ThreadStep}
    (h : w.threadStep t s = some w') (i : Nat) :
    ThreadMove w (.thread t s) i (w.threads i) (w'.threads i) := by
  cases World.threadStep_turn h with
  | createBegin name params env w₁ hw₁ =>
      -- the released name is no part of the threads
      rcases World.releaseName_eq hw₁ with rfl | rfl
      · exact .set (.creates _ (newSpec name params env) rfl) rfl i
      · exact .set (.creates _ (newSpec name params env) rfl) rfl i
  | continueBegin k env run hrun =>
      exact .set (.clones _ k run (cloneForAdvance_some hrun)) rfl i
  | advanceSend ws run hrun => exact .set (hrun ▸ .sends ws run rfl) rfl i
  | advanceWrite ws run hrun =>
      refine .set (.plain _ _ ?_) rfl i
      split
      · rfl
      · rfl
  | stopBegin graph => exact .edited (.stopping graph) rfl graph _ i
  | acceptFinish git link hlink => exact .edited .idle rfl link.graph _ i
  | continueFinish link hlink => exact .edited .idle rfl link.graph _ i
  | createRefused _ _ _ | stopUnknown _ | completeNothing _ _ _ | acceptUnknown _ _
  | continueRefused _ _ => exact .eq rfl i
  | createFail _ _ | createInsert _ _ | stopRuns _ _ | completeBegin _ _ _ | completeWrite _ _
  | acceptMark _ | acceptUnlinked _ _ | acceptRead _ _ _ | panelContinue _ | advanceUnsent _ _ _
  | continueUnlinked _ _ | continueRead _ _ _ => exact .set (.plain _ _ rfl) rfl i

theorem serve_frame (w : World) (r : Request) :
    (w.serve r).threads = w.threads ∧ (w.serve r).driver = w.driver ∧
      (w.serve r).prompts = w.prompts ∧ (w.serve r).launches = w.launches := by
  cases r with
  | approve name _ | revise name _ | pause name | resume name _ | updateGoal name _ _
  | updatePosition name _ _ _ => exact (w.editGraph_frame name _).2
  | stopRun ws => exact ⟨rfl, rfl, rfl, rfl⟩
  | createGoal spec env =>
      dsimp only [World.serve]
      split <;> exact ⟨rfl, rfl, rfl, rfl⟩

theorem processNamed_frame (w : World) (name : String) (env : TickEnv) :
    (w.processNamed name env).threads = w.threads ∧
      (w.processNamed name env).prompts = w.prompts := by
  unfold World.processNamed
  split <;> exact ⟨rfl, rfl⟩

theorem driverStep_threads {w w' : World} {s : DriverStep} (h : w.driverStep s = some w')
    (i : Nat) : ThreadMove w (.driver s) i (w.threads i) (w'.threads i) := by
  cases World.driverStep_turn h with
  | process env graph todo hd => exact .eq (processNamed_frame w graph env).1 i
  | call env ws run todo hd hrun =>
      exact .set (.clones _ ws run (cloneForAdvance_some hrun)) rfl i
  | tick _ | snapshot _ | purge _ _ | collect _ | cloneEnd _ | cloneGone _ _ _ | clone _ _ _ _ _
  | evaluate _ _ _ _ _ | drop _ _ _ | writeEnd _ _ _ _ | write _ _ _ _ _ _
  | callRefused _ _ _ _ | returned _ _ _ => exact .eq rfl i

/-- **Each thread, before and after a step.** -/
theorem step_threads {w w' : World} {a : Act} (h : w.step a = some w') (i : Nat) :
    ThreadMove w a i (w.threads i) (w'.threads i) := by
  cases a with
  | request r =>
      cases h
      exact .eq (serve_frame w r).1 i
  | thread t s => exact threadStep_threads h i
  | driver s => exact driverStep_threads h i
  | openWorkspace =>
      cases h
      exact .eq rfl i
  | closeWorkspace k =>
      cases h
      exact .eq rfl i
  | restart unreadable restored =>
      obtain ⟨-, rfl⟩ := World.step_restart h
      exact .plain _ .idle rfl

/-! ## §2. The histories. -/

/-- A thread step launches no node, and sends a prompt only in `advance_iteration`. -/
theorem threadStep_histories {w w' : World} {t : Nat} {s : ThreadStep}
    (h : w.threadStep t s = some w') :
    w'.launches = w.launches ∧ (w'.prompts = w.prompts ∨ ∃ ws run, s = .advanceSend true ∧
      w.threads t = .advancing ws run ∧ w'.prompts = w.prompts ++ [(ws, run.iteration + 1)]) := by
  have hedit : ∀ name f, (w.editGraph name f).launches = w.launches ∧
      (w.editGraph name f).prompts = w.prompts := by
    intro name f
    have hframe := w.editGraph_frame name f
    exact ⟨hframe.2.2.2.2, hframe.2.2.2.1⟩
  cases World.threadStep_turn h with
  | advanceSend ws run hrun => exact ⟨rfl, .inr ⟨ws, run, rfl, hrun, rfl⟩⟩
  | stopBegin graph => exact ⟨(hedit graph _).1, .inl (hedit graph _).2⟩
  | acceptFinish git link hlink => exact ⟨(hedit link.graph _).1, .inl (hedit link.graph _).2⟩
  | continueFinish link hlink => exact ⟨(hedit link.graph _).1, .inl (hedit link.graph _).2⟩
  | createBegin name params env w₁ hw₁ =>
      rcases World.releaseName_eq hw₁ with rfl | rfl
      · exact ⟨rfl, .inl rfl⟩
      · exact ⟨rfl, .inl rfl⟩
  | createRefused _ _ _ | createFail _ _ | createInsert _ _ | stopUnknown _ | stopRuns _ _
  | completeNothing _ _ _ | completeBegin _ _ _ | completeWrite _ _ | acceptUnknown _ _
  | acceptMark _ | acceptUnlinked _ _ | acceptRead _ _ _ | continueRefused _ _
  | continueBegin _ _ _ _ | panelContinue _ | advanceUnsent _ _ _ | advanceWrite _ _ _
  | continueUnlinked _ _ | continueRead _ _ _ => exact ⟨rfl, .inl rfl⟩

/-- The main loop itself sends no prompt of an advance, and launches nodes only
in a scheduler tick. -/
theorem driverStep_histories {w w' : World} {s : DriverStep} (h : w.driverStep s = some w') :
    w'.prompts = w.prompts ∧ (w'.launches = w.launches ∨ ∃ env, s = .process env) := by
  cases World.driverStep_turn h with
  | process env graph todo hd => exact ⟨(processNamed_frame w graph env).2, .inr ⟨env, rfl⟩⟩
  | tick _ | snapshot _ | purge _ _ | collect _ | cloneEnd _ | cloneGone _ _ _ | clone _ _ _ _ _
  | evaluate _ _ _ _ _ | drop _ _ _ | writeEnd _ _ _ _ | write _ _ _ _ _ _
  | callRefused _ _ _ _ | call _ _ _ _ _ _ | returned _ _ _ => exact ⟨rfl, .inl rfl⟩

/-- **Prompts go out in `advance_iteration` only**, one for each call. -/
theorem step_prompts {w w' : World} {a : Act} (h : w.step a = some w') :
    w'.prompts = w.prompts ∨ ∃ t ws run, a = .thread t (.advanceSend true) ∧
      w.threads t = .advancing ws run ∧ w'.prompts = w.prompts ++ [(ws, run.iteration + 1)] := by
  cases a with
  | request r =>
      cases h
      exact .inl (serve_frame w r).2.2.1
  | thread t s =>
      rcases (threadStep_histories h).2 with hp | ⟨ws, run, rfl, hrun, hp⟩
      · exact .inl hp
      · exact .inr ⟨t, ws, run, rfl, hrun, hp⟩
  | driver s => exact .inl (driverStep_histories h).1
  | openWorkspace =>
      cases h
      exact .inl rfl
  | closeWorkspace k =>
      cases h
      exact .inl rfl
  | restart unreadable restored =>
      obtain ⟨-, rfl⟩ := World.step_restart h
      exact .inl rfl

/-! ## §3. The representation invariant. -/

/-- **Every step keeps the representation invariant.** -/
theorem step_wf {w w' : World} {a : Act} (hw : w.Wf) (h : w.step a = some w') : w'.Wf where
  graphs g s' hs' := by
    cases step_graphs hw h g with
    | ended _ hnew => exact GraphSpec.wellFormed_of_nil (hnew s' hs')
    | absent _ hnone =>
        rw [hnone] at hs'
        cases hs'
    | edited s s₁ _ hs₁ hedit =>
        obtain rfl : s₁ = s' := Option.some.inj (hs₁.symm.trans hs')
        exact hedit.2
  creating t spec hspec := by
    have hmove := step_threads h t
    generalize hth : w.threads t = th at hmove
    rw [hspec] at hmove
    cases hmove with
    | keeps => exact hw.creating t spec hth
    | plain _ _ hplain => cases hplain
    | creates _ _ hnil => exact hnil

/-- A world before any run: no runs, nobody in the middle of anything, and
graphs (if any) that have no plan yet. -/
structure World.Start (w : World) : Prop where
  unplanned : ∀ g s, w.graphs.lookup g = some s → s.nodes = []
  goals : w.shared.goals = ∅
  driver : w.driver = .idle
  threads : ∀ t, w.threads t = .idle
  prompts : w.prompts = []
  launches : w.launches = []

theorem World.Start.wf {w : World} (h : w.Start) : w.Wf where
  graphs g s hs := GraphSpec.wellFormed_of_nil (h.unplanned g s hs)
  creating t spec hspec := by
    rw [h.threads t] at hspec
    cases hspec

/-- The world of a first start. -/
theorem World.start_empty : World.Start {} :=
  ⟨fun _ _ h => absurd h (by simp), rfl, rfl, fun _ => rfl, rfl, rfl⟩

/-- The world after the actions, from a first start (itself if they cannot be performed). -/
def World.after (acts : List Act) : World := (exec World.step {} acts).getD {}

theorem World.after_exec {acts : List Act} (h : (exec World.step {} acts).isSome = true) :
    exec World.step {} acts = some (World.after acts) := by
  unfold World.after
  obtain ⟨w, hw⟩ := Option.isSome_iff_exists.mp h
  rw [hw]
  rfl

/-- The world after more actions is reached from the one before them. -/
theorem World.after_append (acts more : List Act)
    (h : (exec World.step {} (acts ++ more)).isSome = true) :
    exec World.step (World.after acts) more = some (World.after (acts ++ more)) := by
  obtain ⟨m, hacts, hmore⟩ := exec_append.mp (World.after_exec h)
  have hm : World.after acts = m := by
    unfold World.after
    rw [hacts]
    rfl
  rw [hm]
  exact hmore

theorem World.after_step (acts : List Act) (a : Act)
    (h : (exec World.step {} (acts ++ [a])).isSome = true) :
    (World.after acts).step a = some (World.after (acts ++ [a])) := by
  obtain ⟨w', hstep, hw'⟩ := exec_cons.mp (World.after_append acts [a] h)
  cases hw'
  exact hstep

theorem reachable_wf {w₀ w : World} (h0 : w₀.Start) (hr : Reachable World.step w₀ w) : w.Wf :=
  hr.invariant World.Wf h0.wf fun _ _ _ hw _ h => step_wf hw h

/-! ## §4. Ids in use. -/

/-- Everything that a fresh id must differ from. -/
structure World.Bounded (w : World) : Prop where
  goals : ∀ ws run, w.shared.goals.lookup ws = some run → ws < w.shared.nextUuid
  nodes : ∀ g s id n ws, w.graphs.lookup g = some s → s.node id = some n →
    n.workspace = some ws → ws < w.shared.nextUuid
  threads : ∀ t ws run, w.threads t = .advancing ws run ∨ w.threads t = .sent ws run →
    ws < w.shared.nextUuid

theorem serve_next_le (w : World) (r : Request) :
    w.shared.nextUuid ≤ (w.serve r).shared.nextUuid := by
  have hedit : ∀ name f, w.shared.nextUuid ≤ (w.editGraph name f).shared.nextUuid :=
    fun name f => Nat.le_of_eq (congrArg Shared.nextUuid (w.editGraph_frame name f).1.symm)
  cases r with
  | approve name _ | revise name _ | pause name | resume name _ | updateGoal name _ _
  | updatePosition name _ _ _ => exact hedit name _
  | stopRun ws => exact Nat.le_refl _
  | createGoal spec env =>
      dsimp only [World.serve]
      split
      · exact Nat.le_refl _
      next hl => exact (launchGoal_grows hl).next

theorem threadStep_next_le {w w' : World} {t : Nat} {s : ThreadStep}
    (h : w.threadStep t s = some w') : w.shared.nextUuid ≤ w'.shared.nextUuid := by
  have hedit : ∀ name f, w.shared.nextUuid ≤ (w.editGraph name f).shared.nextUuid :=
    fun name f => Nat.le_of_eq (congrArg Shared.nextUuid (w.editGraph_frame name f).1.symm)
  cases World.threadStep_turn h with
  | createInsert spec hspec => exact Nat.le_succ _
  | stopBegin graph => exact hedit graph _
  | acceptFinish git link hlink => exact hedit link.graph _
  | continueFinish link hlink => exact hedit link.graph _
  | createBegin name params env w₁ hw₁ =>
      rcases World.releaseName_eq hw₁ with rfl | rfl
      · exact Nat.le_refl _
      · exact Nat.le_refl _
  | createRefused _ _ _ | createFail _ _ | stopUnknown _ | stopRuns _ _ | completeNothing _ _ _
  | completeBegin _ _ _ | completeWrite _ _ | acceptUnknown _ _ | acceptMark _
  | acceptUnlinked _ _ | acceptRead _ _ _ | continueRefused _ _ | continueBegin _ _ _ _
  | panelContinue _ | advanceSend _ _ _ | advanceUnsent _ _ _ | advanceWrite _ _ _
  | continueUnlinked _ _ | continueRead _ _ _ => exact Nat.le_refl _

theorem driverStep_next_le {w w' : World} {s : DriverStep} (hw : w.Wf)
    (h : w.driverStep s = some w') : w.shared.nextUuid ≤ w'.shared.nextUuid := by
  cases World.driverStep_turn h with
  | process env graph todo hd =>
      unfold World.processNamed
      split
      · exact Nat.le_refl _
      next spec hspec =>
        exact (processGraph_grows env spec w.shared (hw.graphs graph spec hspec).nodup).next
  | tick _ | snapshot _ | purge _ _ | collect _ | cloneEnd _ | cloneGone _ _ _ | clone _ _ _ _ _
  | evaluate _ _ _ _ _ | drop _ _ _ | writeEnd _ _ _ _ | write _ _ _ _ _ _
  | callRefused _ _ _ _ | call _ _ _ _ _ _ | returned _ _ _ => exact Nat.le_refl _

/-- Fresh ids are never handed out twice. -/
theorem step_next_le {w w' : World} {a : Act} (hw : w.Wf) (h : w.step a = some w') :
    w.shared.nextUuid ≤ w'.shared.nextUuid := by
  cases a with
  | request r =>
      cases h
      exact serve_next_le w r
  | thread t s => exact threadStep_next_le h
  | driver s => exact driverStep_next_le hw h
  | openWorkspace =>
      cases h
      exact Nat.le_succ _
  | closeWorkspace k =>
      cases h
      exact Nat.le_refl _
  | restart unreadable restored =>
      obtain ⟨-, rfl⟩ := World.step_restart h
      exact Nat.le_refl _

/-- The workspace a node records after a move: the one before, or a fresh one. -/
theorem NodeMove.workspace_cases {s : GraphSpec} {before after : Shared} {n n' : GraphNode}
    {k : MoveKind} (h : NodeMove s before after n n' k) {ws : Uuid} (hws : n'.workspace = some ws) :
    n.workspace = some ws ∨ before.nextUuid ≤ ws ∧ ws < after.nextUuid := by
  cases k with
  | stays => exact .inl (h.2.1.symm.trans hws)
  | settles => exact .inl (h.2.2.1.symm.trans hws)
  | lost => exact .inl (h.2.2.2.1.symm.trans hws)
  | reviewed => exact .inl (h.2.2.2.1.symm.trans hws)
  | resumed => exact .inl (h.2.2.1.symm.trans hws)
  | continued => exact .inl (h.2.2.1.symm.trans hws)
  | launched =>
      obtain ⟨k, hk, hlo, hhi⟩ := Launched.workspace h
      obtain rfl : k = ws := Option.some.inj (hk.symm.trans hws)
      exact .inr ⟨hlo, hhi⟩
  | cut =>
      have hnone := h.2.2.1
      rw [hws] at hnone
      cases hnone

/-- A run that is registered after a step was registered before it, or is new. -/
theorem step_registered {w w' : World} {a : Act} (hw : w.Wf) (h : w.step a = some w') {ws : Uuid}
    {run' : GoalRun} (hrun : w'.shared.goals.lookup ws = some run') :
    (∃ run, w.shared.goals.lookup ws = some run) ∨
      w.shared.nextUuid ≤ ws ∧ ws < w'.shared.nextUuid := by
  rcases step_lookup_goals hw h ws with heq | ⟨_, hfresh⟩
  · rw [hrun] at heq
    cases hr : w.shared.goals.lookup ws with
    | some run => exact .inl ⟨run, rfl⟩
    | none =>
        rw [hr] at heq
        cases hop : goalOp w a <;> rw [hop] at heq <;> simp [GoalOp.onRun] at heq
  · exact .inr hfresh

theorem step_bounded {w w' : World} {a : Act} (hw : w.Wf) (hb : w.Bounded)
    (h : w.step a = some w') : w'.Bounded := by
  have hnext := step_next_le hw h
  refine ⟨?_, ?_, ?_⟩
  · intro ws run' hrun
    rcases step_registered hw h hrun with ⟨run, hr⟩ | hfresh
    · exact Nat.lt_of_lt_of_le (hb.goals ws run hr) hnext
    · exact hfresh.2
  · intro g s' id n' ws hs' hn' hws
    cases step_node_back hw h hs' hn' with
    | planned _ hnone _ =>
        rw [hws] at hnone
        cases hnone
    | moved s n k hs hn _ _ hmove =>
        rcases hmove.workspace_cases hws with hold | hfresh
        · exact Nat.lt_of_lt_of_le (hb.nodes g s id n ws hs hn hold) hnext
        · exact hfresh.2
  · intro t ws run hth
    have hmove := step_threads h t
    have hle := fun hlt : ws < w.shared.nextUuid => Nat.lt_of_lt_of_le hlt hnext
    generalize hold : w.threads t = th at hmove
    generalize w'.threads t = th' at hmove hth
    cases hmove with
    | keeps => exact hle (hb.threads t ws run (hold ▸ hth))
    | plain _ _ hplain => rcases hth with rfl | rfl <;> cases hplain
    | creates => rcases hth with hc | hc <;> cases hc
    | clones _ k r hreg =>
        rcases hth with hc | hc
        · cases hc
          exact hle (hb.goals ws run hreg)
        · cases hc
    | sends k r =>
        rcases hth with hc | hc
        · cases hc
        · cases hc
          exact hle (hb.threads t ws run (.inl hold))

theorem World.Start.bounded {w : World} (h : w.Start) : w.Bounded := by
  refine ⟨?_, ?_, ?_⟩
  · intro ws run hrun
    rw [h.goals] at hrun
    cases hrun
  · intro g s id n ws hs hn
    have hmem := GraphSpec.node_mem hn
    rw [h.unplanned g s hs] at hmem
    exact absurd hmem List.not_mem_nil
  · intro t ws run hth
    rw [h.threads t] at hth
    rcases hth with hc | hc <;> cases hc

/-- **Ids in use are below the next fresh id**, in every reachable world. -/
theorem reachable_bounded {w₀ w : World} (h0 : w₀.Start) (hr : Reachable World.step w₀ w) :
    w.Wf ∧ w.Bounded :=
  hr.invariant (fun w => w.Wf ∧ w.Bounded) ⟨h0.wf, h0.bounded⟩
    fun _ _ _ hw _ h => ⟨step_wf hw.1 h, step_bounded hw.1 hw.2 h⟩

end Jmux.Goal
