/-
  Jmux.Goal.Advance — whether the iterations of a run advance one by one.

  A call of `advance_iteration` clones the run, sends the prompt for the next
  iteration of the clone, and writes that number back.  Nothing holds two calls
  on one run apart, so both may act on clones of the same iteration.

  Main results:
    * `step_iteration`   — what a step does to the iteration of a run.
    * `step_linear`      — one step keeps the invariant of calls that do not
                            overlap.
    * `advance_linear`   — over every run of steps in which they do not overlap:
                            one by one, never down, one prompt per iteration.
    * `advance_doubled`  — a run of steps in which two calls overlap.
-/
import Jmux.Goal.Terminal

namespace Jmux.Goal

open Jmux.Lib

/-! ## §1. The iteration of one run. -/

/-- The step is the write-back of a call of `advance_iteration` on the run. -/
def WritesIteration (ws : Uuid) (w : World) (a : Act) : Prop :=
  ∃ t run, a = .thread t .advanceWrite ∧ w.threads t = .sent ws run

/-- **Only a beginning iteration changes the number.** -/
theorem GoalOp.onRun_iteration {ws : Uuid} {run run' : GoalRun} {op : GoalOp}
    (h : op.onRun ws (some run) = some run') :
    run'.iteration = run.iteration ∨ op = .begin ws run'.iteration := by
  have hkeep : ∀ {p : Prop} [Decidable p] {r : GoalRun}, r.iteration = run.iteration →
      (if p then some r else some run) = some run' → run'.iteration = run.iteration := by
    intro p _ r hr hif
    split at hif
    · rw [← Option.some.inj hif]
      exact hr
    · rw [← Option.some.inj hif]
  cases op with
  | keep | grow =>
      cases h
      exact .inl rfl
  | setRun k f => exact .inl (hkeep (f.apply_iteration run) h)
  | escalate k status now => exact .inl (hkeep (run.escalate_iteration status now) h)
  | stop k => exact .inl (hkeep run.stop_iteration h)
  | markDone k => exact .inl (hkeep run.markDone_iteration h)
  | stopOf g =>
      cases h
      exact .inl (run.stopIfOf_iteration g)
  | purge live =>
      simp only [GoalOp.onRun, Option.filter_eq_some_iff] at h
      rw [Option.some.inj h.1]
      exact .inl rfl
  | drop k =>
      dsimp only [GoalOp.onRun] at h
      split at h
      · cases h
      · rw [Option.some.inj h]
        exact .inl rfl
  | clear => cases h
  | begin k next =>
      dsimp only [GoalOp.onRun] at h
      split at h
      next hk =>
        subst hk
        cases h
        exact .inr rfl
      · rw [Option.some.inj h]
        exact .inl rfl

/-- **The iteration of a run, before and after a step.** -/
theorem step_iteration {w w' : World} {a : Act} (hw : w.Wf) (h : w.step a = some w') {ws : Uuid}
    (hlt : ws < w.shared.nextUuid) {run run' : GoalRun}
    (hrun : w.shared.goals.lookup ws = some run) (hrun' : w'.shared.goals.lookup ws = some run') :
    (¬ WritesIteration ws w a ∧ run'.iteration = run.iteration) ∨
      ∃ t clone, a = .thread t .advanceWrite ∧ w.threads t = .sent ws clone ∧
        run'.iteration = clone.iteration + 1 := by
  -- what a step does to a run is one operation on the registry
  have hop := step_lookup_old hw h hlt
  rw [hrun, hrun'] at hop
  by_cases hwrite : WritesIteration ws w a
  · obtain ⟨t, clone, rfl, hsent⟩ := hwrite
    refine .inr ⟨t, clone, rfl, hsent, ?_⟩
    have hbegin : goalOp w (.thread t .advanceWrite) = .begin ws (clone.iteration + 1) := by
      simp [goalOp, hsent]
    rw [hbegin] at hop
    have hnew : run' = run.begin (clone.iteration + 1) := by simpa [GoalOp.onRun] using hop
    rw [hnew]
    rfl
  · refine .inl ⟨hwrite, ?_⟩
    rcases GoalOp.onRun_iteration hop.symm with heq | hbegin
    · exact heq
    · obtain ⟨t, clone, ha, hsent, _⟩ := begin_of_goalOp hbegin
      exact absurd ⟨t, clone, ha, hsent⟩ hwrite

/-! ## §2. How threads hold their prompts. -/

/-- A thread that has sent its prompt after a step had sent it before, or sends it now. -/
theorem step_sent {w w' : World} {a : Act} (h : w.step a = some w') {t : Nat} {ws : Uuid}
    {clone : GoalRun} (hsent : w'.threads t = .sent ws clone) :
    w.threads t = .sent ws clone ∨
      a = .thread t (.advanceSend true) ∧ w.threads t = .advancing ws clone := by
  have hmove := step_threads h t
  generalize hold : w.threads t = th at hmove ⊢
  rw [hsent] at hmove
  cases hmove with
  | keeps => exact .inl rfl
  | plain _ _ hplain => cases hplain
  | sends _ _ ha => exact .inr ⟨ha, rfl⟩

/-- A thread that has sent its prompt can only write back. -/
theorem threadStep_of_sent {w w' : World} {t : Nat} {s : ThreadStep}
    (h : w.threadStep t s = some w') {ws : Uuid} {clone : GoalRun}
    (hsent : w.threads t = .sent ws clone) : s = .advanceWrite := by
  -- a thread inside a call takes no request
  have hbusy : w.free t = false := by
    unfold World.free
    simp [hsent]
  cases s with
  | advanceWrite => rfl
  | createBegin _ _ _ | createFail | createInsert | stopBegin _ | stopRuns | completeBegin _ _ _
  | completeWrite | acceptMark _ | acceptRead | acceptFinish _ | continueBegin _ _
  | panelContinue _ | advanceSend _ | continueRead | continueFinish =>
      simp [World.threadStep, hbusy, hsent] at h

/-- A thread step leaves the main loop and the other threads alone. -/
theorem threadStep_frame {w w' : World} {t : Nat} {s : ThreadStep}
    (h : w.threadStep t s = some w') :
    w'.driver = w.driver ∧ ∀ i, i ≠ t → w'.threads i = w.threads i := by
  have hedit : ∀ name f th, ((w.editGraph name f).setThread t th).driver = w.driver ∧
      ∀ i, i ≠ t → ((w.editGraph name f).setThread t th).threads i = w.threads i := by
    intro name f th
    have hframe := w.editGraph_frame name f
    exact ⟨hframe.2.2.1, fun i hi => (if_neg hi).trans (congrFun hframe.2.1 i)⟩
  cases World.threadStep_turn h with
  | stopBegin graph => exact hedit graph _ _
  | acceptFinish git link hlink => exact hedit link.graph _ _
  | continueFinish link hlink => exact hedit link.graph _ _
  | createBegin name params env w₁ hw₁ =>
      -- a name that was released is all that differs
      rcases World.releaseName_eq hw₁ with rfl | rfl
      · exact ⟨rfl, fun _ hi => if_neg hi⟩
      · exact ⟨rfl, fun _ hi => if_neg hi⟩
  | createRefused _ _ _ | stopUnknown _ | completeNothing _ _ _ | acceptUnknown _ _
  | continueRefused _ _ => exact ⟨rfl, fun _ _ => rfl⟩
  | createFail _ _ | createInsert _ _ | stopRuns _ _ | completeBegin _ _ _ | completeWrite _ _
  | acceptMark _ | acceptUnlinked _ _ | acceptRead _ _ _ | continueBegin _ _ _ _
  | panelContinue _ | advanceSend _ _ _ | advanceUnsent _ _ _ | advanceWrite _ _ _
  | continueUnlinked _ _ | continueRead _ _ _ => exact ⟨rfl, fun _ hi => if_neg hi⟩

/-- Thread 0 is inside a call only while the main loop waits for it. -/
def World.OwnCall (w : World) : Prop :=
  w.threads 0 = .idle ∨ ∃ todo, w.driver = .advancing todo

/-- Thread 0 takes no requests of its own. -/
theorem threadStep_zero_of_idle {w w' : World} {s : ThreadStep} (h : w.threadStep 0 s = some w')
    (hidle : w.threads 0 = .idle) : False := by
  have hbusy : w.free 0 = false := rfl
  cases s with
  | createBegin _ _ _ | createFail | createInsert | stopBegin _ | stopRuns | completeBegin _ _ _
  | completeWrite | acceptMark _ | acceptRead | acceptFinish _ | continueBegin _ _
  | panelContinue _ | advanceSend _ | advanceWrite | continueRead | continueFinish =>
      simp [World.threadStep, hbusy, hidle] at h

/-- While the main loop is elsewhere, thread 0 stays idle. -/
theorem driverStep_ownCall {w w' : World} {s : DriverStep} (ho : w.OwnCall)
    (h : w.driverStep s = some w') :
    w'.OwnCall ∧ ∀ t ws clone, w.threads t = .sent ws clone → w'.threads t = .sent ws clone := by
  -- away from its own call the main loop finds thread 0 idle
  have hidle : (∀ todo, w.driver ≠ .advancing todo) → w.threads 0 = .idle := by
    intro haway
    rcases ho with hidle | ⟨todo, hadv⟩
    · exact hidle
    · exact absurd hadv (haway todo)
  have hstay : ∀ {w' : World}, (∀ todo, w.driver ≠ .advancing todo) → w'.threads = w.threads →
      w'.OwnCall ∧ ∀ t ws clone, w.threads t = .sent ws clone →
        w'.threads t = .sent ws clone := by
    intro w' haway hthreads
    exact ⟨.inl ((congrFun hthreads 0).trans (hidle haway)),
      fun t _ _ ht => (congrFun hthreads t).trans ht⟩
  cases World.driverStep_turn h with
  | call env ws run todo hd hrun =>
      refine ⟨.inr ⟨todo, rfl⟩, fun t k clone ht => ?_⟩
      have hne : t ≠ 0 := by
        rintro rfl
        rw [hidle (by simp [hd])] at ht
        cases ht
      exact (if_neg hne).trans ht
  | returned todo hd hback => exact ⟨.inl hback, fun _ _ _ ht => ht⟩
  | process env graph todo hd => exact hstay (by simp [hd]) (processNamed_frame w graph env).1
  | tick hd | snapshot hd | purge _ hd | collect hd | cloneEnd hd | cloneGone _ _ hd
  | clone _ _ _ hd _ | evaluate _ _ _ _ hd | drop _ _ hd | writeEnd _ _ _ hd
  | write _ _ _ _ _ hd | callRefused _ _ _ hd => exact hstay (by simp [hd]) rfl

/-- **A call that has sent its prompt stays there** until it writes back, unless
the app goes down. -/
theorem step_sent_stays {w w' : World} {a : Act} (ho : w.OwnCall) (h : w.step a = some w')
    {t : Nat} {ws : Uuid} {clone : GoalRun} (hsent : w.threads t = .sent ws clone) :
    w'.threads t = .sent ws clone ∨ a = .thread t .advanceWrite ∨
      ∃ unreadable restored, a = .restart unreadable restored := by
  cases a with
  | request r =>
      cases h
      exact .inl ((congrFun (serve_frame w r).1 t).trans hsent)
  | thread i s =>
      by_cases hi : t = i
      · subst hi
        rw [threadStep_of_sent h hsent]
        exact .inr (.inl rfl)
      · exact .inl (((threadStep_frame h).2 t hi).trans hsent)
  | driver s => exact .inl ((driverStep_ownCall ho h).2 t ws clone hsent)
  | openWorkspace =>
      cases h
      exact .inl hsent
  | closeWorkspace k =>
      cases h
      exact .inl hsent
  | restart unreadable restored => exact .inr (.inr ⟨unreadable, restored, rfl⟩)

theorem step_ownCall {w w' : World} {a : Act} (ho : w.OwnCall) (h : w.step a = some w') :
    w'.OwnCall := by
  cases a with
  | request r =>
      cases h
      unfold World.OwnCall
      rw [(serve_frame w r).1, (serve_frame w r).2.1]
      exact ho
  | thread t s =>
      rcases ho with hidle | ⟨todo, hadv⟩
      · have hne : (0 : Nat) ≠ t := by
          rintro rfl
          exact threadStep_zero_of_idle h hidle
        exact .inl (((threadStep_frame h).2 0 hne).trans hidle)
      · exact .inr ⟨todo, (threadStep_frame h).1.trans hadv⟩
  | driver s => exact (driverStep_ownCall ho h).1
  | openWorkspace =>
      cases h
      exact ho
  | closeWorkspace k =>
      cases h
      exact ho
  | restart unreadable restored =>
      obtain ⟨-, rfl⟩ := World.step_restart h
      exact .inl rfl

/-- After its write-back a call has no prompt out. -/
theorem advanceWrite_sent {w w' : World} {t : Nat} (h : w.step (.thread t .advanceWrite) = some w')
    (ws : Uuid) (clone : GoalRun) : w'.threads t ≠ .sent ws clone := by
  dsimp only [World.step, World.threadStep] at h
  split at h
  · cases h
    show (if t = t then _ else _) ≠ _
    rw [if_pos rfl]
    split <;> simp
  · cases h

/-- A call that sends its prompt. -/
theorem advanceSend_eq {w w' : World} {t : Nat} {ws : Uuid} {clone : GoalRun}
    (h : w.step (.thread t (.advanceSend true)) = some w')
    (hclone : w.threads t = .advancing ws clone) :
    w' = { w with prompts := w.prompts ++ [(ws, clone.iteration + 1)] }.setThread t
      (.sent ws clone) := by
  simp only [World.step, World.threadStep, hclone, World.nextIteration] at h
  split at h
  · cases h
  next next hnext =>
    split at hnext
    · cases hnext
      cases h
      rfl
    · cases hnext

/-! ## §3. Calls that do not overlap. -/

/-- A call of `advance_iteration` on the run that is about to send its prompt
finds the run in the iteration it has cloned, and no other call on the run that
has sent its prompt and not written back yet. -/
def AdvancesAlone (ws : Uuid) (w : World) (a : Act) : Prop :=
  ∀ t clone, a = .thread t (.advanceSend true) → w.threads t = .advancing ws clone →
    (∃ run, w.shared.goals.lookup ws = some run ∧ run.iteration = clone.iteration) ∧
      ∀ i other, w.threads i ≠ .sent ws other

/-- The numbers of the iterations that prompts have announced to a run's agent. -/
def World.announced (w : World) (ws : Uuid) : List Nat :=
  (w.prompts.filter (·.1 = ws)).map (·.2)

/-- The invariant of calls that do not overlap. -/
structure Linear (ws : Uuid) (w : World) : Prop where
  wf : w.Wf
  bounded : w.Bounded
  own : w.OwnCall
  /-- Prompts go to runs that have been launched. -/
  launched : ∀ p ∈ w.prompts, p.1 < w.shared.nextUuid
  nodup : (w.announced ws).Nodup
  /-- The iterations announced are the ones begun, and perhaps the next. -/
  upTo : ∀ run, w.shared.goals.lookup ws = some run → ∀ k ∈ w.announced ws,
    k ≤ run.iteration ∨ k = run.iteration + 1 ∧ ∃ t clone, w.threads t = .sent ws clone
  /-- A call that has sent its prompt still finds the iteration it has cloned. -/
  current : ∀ t clone run, w.threads t = .sent ws clone →
    w.shared.goals.lookup ws = some run → run.iteration = clone.iteration
  alone : ∀ t i clone other, w.threads t = .sent ws clone → w.threads i = .sent ws other → t = i

theorem announced_append (w : World) (ws : Uuid) {w' : World} {p : Uuid × Nat}
    (h : w'.prompts = w.prompts ++ [p]) :
    w'.announced ws = w.announced ws ++ if p.1 = ws then [p.2] else [] := by
  unfold World.announced
  rw [h, List.filter_append, List.map_append]
  congr 1
  by_cases hp : p.1 = ws
  · simp [hp]
  · simp [hp]

/-- A run that is old enough to have been announced anything. -/
theorem Linear.announced_eq_nil {ws : Uuid} {w : World} (hl : Linear ws w)
    (hge : ¬ ws < w.shared.nextUuid) : w.announced ws = [] := by
  unfold World.announced
  have hnone : w.prompts.filter (·.1 = ws) = [] := by
    refine List.filter_eq_nil_iff.mpr fun p hp hpws => ?_
    have hlt := hl.launched p hp
    rw [of_decide_eq_true hpws] at hlt
    exact hge hlt
  rw [hnone]
  rfl

/-- **A step that sends the run no prompt** keeps the invariant. -/
theorem Linear.quiet {ws : Uuid} {w w' : World} {a : Act} (hl : Linear ws w)
    (h : w.step a = some w') (hann : w'.announced ws = w.announced ws)
    (hsent : ∀ t clone, w'.threads t = .sent ws clone → w.threads t = .sent ws clone)
    (hlaunched : ∀ p ∈ w'.prompts, p.1 < w'.shared.nextUuid) : Linear ws w' := by
  -- the run before the step, if it is registered after it
  have hbefore : ∀ run', w'.shared.goals.lookup ws = some run' → ws < w.shared.nextUuid →
      ∃ run, w.shared.goals.lookup ws = some run := by
    intro run' hrun' hlt
    rcases step_registered hl.wf h hrun' with hold | ⟨hge, _⟩
    · exact hold
    · exact absurd hlt (Nat.not_lt.mpr hge)
  refine ⟨step_wf hl.wf h, step_bounded hl.wf hl.bounded h, step_ownCall hl.own h, hlaunched,
    hann ▸ hl.nodup, ?_, ?_, ?_⟩
  · intro run' hrun' k hk
    rw [hann] at hk
    by_cases hlt : ws < w.shared.nextUuid
    · obtain ⟨run, hrun⟩ := hbefore run' hrun' hlt
      rcases step_iteration hl.wf h hlt hrun hrun' with ⟨hwrite, heq⟩ | ⟨t, clone, ha, hs, heq⟩
      · rcases hl.upTo run hrun k hk with hle | ⟨hnext, t, clone, hs⟩
        · exact .inl (heq ▸ hle)
        · refine .inr ⟨heq ▸ hnext, t, clone, ?_⟩
          rcases step_sent_stays hl.own h hs with hstay | ha | ⟨unreadable, restored, ha⟩
          · exact hstay
          · exact absurd ⟨t, clone, ha, hs⟩ hwrite
          · subst ha
            obtain ⟨-, rfl⟩ := World.step_restart h
            cases hrun'
      · -- the write-back begins the iteration that was announced last
        have hcur := hl.current t clone run hs hrun
        left
        rcases hl.upTo run hrun k hk with hle | ⟨hnext, _⟩
        · omega
        · omega
    · rw [hl.announced_eq_nil hlt] at hk
      exact absurd hk List.not_mem_nil
  · intro t clone run' ht hrun'
    have hs := hsent t clone ht
    have hlt : ws < w.shared.nextUuid := hl.bounded.threads t ws clone (.inr hs)
    obtain ⟨run, hrun⟩ := hbefore run' hrun' hlt
    have hcur := hl.current t clone run hs hrun
    rcases step_iteration hl.wf h hlt hrun hrun' with ⟨_, heq⟩ | ⟨i, other, ha, hi, _⟩
    · exact heq.trans hcur
    · -- the only call with its prompt out has just written back
      obtain rfl : t = i := hl.alone t i clone other hs hi
      subst ha
      exact absurd ht (advanceWrite_sent h ws clone)
  · intro t i clone other ht hi
    exact hl.alone t i clone other (hsent t clone ht) (hsent i other hi)

/-- **A step that sends the run a prompt** keeps the invariant, if the call is
the only one and the run is in the iteration it has cloned. -/
theorem Linear.send {ws : Uuid} {w w' : World} {t : Nat} {clone : GoalRun} (hl : Linear ws w)
    (h : w.step (.thread t (.advanceSend true)) = some w')
    (hclone : w.threads t = .advancing ws clone)
    (hok : AdvancesAlone ws w (.thread t (.advanceSend true)))
    (hlaunched : ∀ p ∈ w'.prompts, p.1 < w'.shared.nextUuid) : Linear ws w' := by
  -- the call is alone, and its clone is up to date
  obtain ⟨⟨run, hrun, hcur⟩, hnone⟩ := hok t clone rfl hclone
  have hw' := advanceSend_eq h hclone
  have hgoals : w'.shared.goals.lookup ws = some run := by
    rw [hw']
    exact hrun
  have hann : w'.announced ws = w.announced ws ++ [clone.iteration + 1] := by
    have hp : w'.prompts = w.prompts ++ [(ws, clone.iteration + 1)] := by rw [hw']; rfl
    rw [announced_append w ws hp, if_pos rfl]
  have hself : w'.threads t = .sent ws clone := by
    rw [hw']
    exact if_pos rfl
  -- nothing beyond the current iteration has been announced so far
  have hle : ∀ k ∈ w.announced ws, k ≤ run.iteration := by
    intro k hk
    rcases hl.upTo run hrun k hk with hle | ⟨_, i, other, hi⟩
    · exact hle
    · exact absurd hi (hnone i other)
  -- after the step this is the one prompt out
  have honly : ∀ i other, w'.threads i = .sent ws other → i = t ∧ other = clone := by
    intro i other hi
    rcases step_sent h hi with hold | ⟨ha, hadv⟩
    · exact absurd hold (hnone i other)
    · obtain ⟨rfl, _⟩ := Act.thread.inj ha
      exact ⟨rfl, (Thread.advancing.inj (hadv.symm.trans hclone)).2⟩
  refine ⟨step_wf hl.wf h, step_bounded hl.wf hl.bounded h, step_ownCall hl.own h, hlaunched,
    ?_, ?_, ?_, ?_⟩
  · rw [hann]
    refine List.nodup_append.mpr ⟨hl.nodup, List.nodup_singleton _, fun k hk j hj => ?_⟩
    have hkle := hle k hk
    have hj' := List.mem_singleton.mp hj
    omega
  · intro run' hrun' k hk
    obtain rfl : run = run' := Option.some.inj (hgoals.symm.trans hrun')
    rw [hann] at hk
    rcases List.mem_append.mp hk with hk | hk
    · exact .inl (hle k hk)
    · exact .inr ⟨by rw [List.mem_singleton.mp hk, hcur], t, clone, hself⟩
  · intro i other run' hi hrun'
    obtain rfl : run = run' := Option.some.inj (hgoals.symm.trans hrun')
    rw [(honly i other hi).2]
    exact hcur
  · intro i j c c' hi hj
    rw [(honly i c hi).1, (honly j c' hj).1]

/-- **One step keeps the invariant**, if the calls do not overlap in it. -/
theorem step_linear {ws : Uuid} {w w' : World} {a : Act} (hl : Linear ws w)
    (h : w.step a = some w') (hok : AdvancesAlone ws w a) : Linear ws w' := by
  have hnext := step_next_le hl.wf h
  have hlaunched : ∀ p ∈ w'.prompts, p.1 < w'.shared.nextUuid := by
    intro p hp
    rcases step_prompts h with heq | ⟨t, k, run, _, hrun, heq⟩
    · exact Nat.lt_of_lt_of_le (hl.launched p (heq ▸ hp)) hnext
    · rw [heq] at hp
      rcases List.mem_append.mp hp with hp | hp
      · exact Nat.lt_of_lt_of_le (hl.launched p hp) hnext
      · rw [List.mem_singleton.mp hp]
        exact Nat.lt_of_lt_of_le (hl.bounded.threads t k run (.inl hrun)) hnext
  -- a step that sends this run a prompt, or any other
  by_cases hsend : ∃ t clone, a = .thread t (.advanceSend true) ∧ w.threads t = .advancing ws clone
  · obtain ⟨t, clone, rfl, hclone⟩ := hsend
    exact hl.send h hclone hok hlaunched
  · refine hl.quiet h ?_ ?_ hlaunched
    · rcases step_prompts h with heq | ⟨t, k, run, ha, hrun, heq⟩
      · unfold World.announced
        rw [heq]
      · rw [announced_append w ws heq]
        by_cases hk : k = ws
        · subst hk
          exact absurd ⟨t, run, ha, hrun⟩ hsend
        · -- a prompt to another run announces nothing here
          rw [if_neg hk, List.append_nil]
    · intro t clone ht
      rcases step_sent h ht with hold | ⟨ha, hadv⟩
      · exact hold
      · exact absurd ⟨t, clone, ha, hadv⟩ hsend

/-! ## §4. The contract. -/

theorem World.Start.linear {w : World} (h : w.Start) (ws : Uuid) : Linear ws w := by
  have hidle : ∀ t clone, w.threads t ≠ .sent ws clone := by
    intro t clone
    rw [h.threads t]
    simp
  have hann : w.announced ws = [] := by
    unfold World.announced
    rw [h.prompts]
    rfl
  refine ⟨h.wf, h.bounded, .inl (h.threads 0), ?_, ?_, ?_, ?_, ?_⟩
  · rw [h.prompts]
    simp
  · rw [hann]
    exact List.nodup_nil
  · intro run hrun k hk
    rw [hann] at hk
    exact absurd hk List.not_mem_nil
  · intro t clone run ht
    exact absurd ht (hidle t clone)
  · intro t i clone other ht
    exact absurd ht (hidle t clone)

theorem reach_linear {ws : Uuid} {w₀ w : World} (h : Linear ws w₀)
    (hr : Reach World.step (AdvancesAlone ws) w₀ w) : Linear ws w :=
  hr.invariant (Linear ws) h fun _ _ _ hl hok h => step_linear hl h hok

/-- The iteration of a run never goes down in steps that keep the calls apart. -/
theorem reach_iteration_le {ws : Uuid} {w w' : World} (hl : Linear ws w)
    (hr : Reach World.step (AdvancesAlone ws) w w') {run : GoalRun}
    (hrun : w.shared.goals.lookup ws = some run) :
    ∀ run', w'.shared.goals.lookup ws = some run' → run.iteration ≤ run'.iteration := by
  have hinv : Linear ws w' ∧ ws < w'.shared.nextUuid ∧
      ∀ run', w'.shared.goals.lookup ws = some run' → run.iteration ≤ run'.iteration := by
    refine hr.invariant (fun v => Linear ws v ∧ ws < v.shared.nextUuid ∧
      ∀ run', v.shared.goals.lookup ws = some run' → run.iteration ≤ run'.iteration) ?_ ?_
    · refine ⟨hl, hl.bounded.goals ws run hrun, fun run' hrun' => ?_⟩
      obtain rfl : run = run' := Option.some.inj (hrun.symm.trans hrun')
      exact Nat.le_refl _
    · rintro v a v' ⟨hv, hlt, hle⟩ hok h
      refine ⟨step_linear hv h hok, Nat.lt_of_lt_of_le hlt (step_next_le hv.wf h), ?_⟩
      intro run' hrun'
      rcases step_registered hv.wf h hrun' with ⟨r, hr⟩ | ⟨hge, _⟩
      · have hler := hle r hr
        rcases step_iteration hv.wf h hlt hr hrun' with ⟨_, heq⟩ | ⟨t, clone, _, hs, heq⟩
        · omega
        · have hcur := hv.current t clone r hs hr
          omega
      · exact absurd hlt (Nat.not_lt.mpr hge)
  exact hinv.2.2

/-- **Iterations advance one by one.**  In every run of steps in which each call
of `advance_iteration` on a goal run sends its prompt alone and on the iteration
it has cloned: no iteration is announced twice; a write-back adds one to the
iteration and no other step changes it; and it never goes down. -/
theorem advance_linear {w₀ w : World} (h0 : w₀.Start) {ws : Uuid}
    (hr : Reach World.step (AdvancesAlone ws) w₀ w) :
    (w.announced ws).Nodup ∧
    (∀ a w' run run', w.step a = some w' → w.shared.goals.lookup ws = some run →
      w'.shared.goals.lookup ws = some run' →
      (WritesIteration ws w a → run'.iteration = run.iteration + 1) ∧
      (¬ WritesIteration ws w a → run'.iteration = run.iteration)) ∧
    (∀ w' run run', Reach World.step (AdvancesAlone ws) w w' →
      w.shared.goals.lookup ws = some run → w'.shared.goals.lookup ws = some run' →
      run.iteration ≤ run'.iteration) := by
  have hl := reach_linear (h0.linear ws) hr
  refine ⟨hl.nodup, ?_, ?_⟩
  · intro a w' run run' h hrun hrun'
    have hlt := hl.bounded.goals ws run hrun
    rcases step_iteration hl.wf h hlt hrun hrun' with ⟨hno, heq⟩ | ⟨t, clone, ha, hs, heq⟩
    · exact ⟨fun hyes => absurd hyes hno, fun _ => heq⟩
    · have hcur := hl.current t clone run hs hrun
      exact ⟨fun _ => by omega, fun hno => absurd ⟨t, clone, ha, hs⟩ hno⟩
  · intro w' run run' hr' hrun hrun'
    exact reach_iteration_le hl hr' hrun run' hrun'

/-! ## §5. Two runs. -/

/-- A finished iteration file that asks for another iteration. -/
def blockedFile : AdvanceEnv := { file := some "---\nstatus: blocked\n---\n" }

/-- Node `a` is at work in workspace 1. -/
def launchedRun : List Act :=
  startGraph "g" onePlan ++ [.driver .tick, .driver (.process {})]

/-- A `goal.continue` for workspace 1 on thread `t` has passed its guards. -/
def begunRun (t : Nat) : List Act := [.thread t (.continueBegin 1 blockedFile)]

/-- A `goal.continue` after its prompt. -/
def writeBackRun (t : Nat) : List Act :=
  [.thread t .advanceWrite, .thread t .continueRead, .thread t .continueFinish]

/-- No thread has a prompt out before the first one is sent. -/
theorem no_prompt_out {w₀ w : World} (h0 : w₀.Start)
    (hr : Reach World.step (fun _ a => ∀ t, a ≠ .thread t (.advanceSend true)) w₀ w) :
    ∀ t ws clone, w.threads t ≠ .sent ws clone := by
  refine hr.invariant (fun w => ∀ t ws clone, w.threads t ≠ .sent ws clone) ?_ ?_
  · intro t ws clone
    rw [h0.threads t]
    simp
  · intro w a w' hnone hok h t ws clone hsent
    rcases step_sent h hsent with hold | ⟨ha, _⟩
    · exact hnone t ws clone hold
    · exact hok t ha

/-- One `goal.continue` announces iteration 2 once. -/
theorem advance_linear_once :
    ((World.after ((launchedRun ++ begunRun 1) ++ [.thread 1 (.advanceSend true)])).announced
      1).Nodup := by
  have hquiet : ∀ a ∈ launchedRun ++ begunRun 1, ∀ t, a ≠ .thread t (.advanceSend true) := by
    intro a ha t heq
    subst heq
    simp [launchedRun, begunRun, startGraph] at ha
  have hexec : exec World.step {} (launchedRun ++ begunRun 1)
      = some (World.after (launchedRun ++ begunRun 1)) := World.after_exec (by decide)
  have hnone := no_prompt_out World.start_empty
    (reach_of_exec hexec (everyStep_of_forall fun a ha _ => hquiet a ha))
  have hclone : (World.after (launchedRun ++ begunRun 1)).threads 1 =
      ((World.after (launchedRun ++ begunRun 1)).shared.goals.lookup 1).elim .idle
        (.advancing 1) := by
    decide
  have hreach : Reach World.step (AdvancesAlone 1) {} (World.after (launchedRun ++ begunRun 1)) :=
    reach_of_exec hexec
      (everyStep_of_forall fun a ha _ t _ heq => absurd heq (hquiet a ha t))
  refine (advance_linear World.start_empty (hreach.next ?_ (World.after_step _ _ (by decide)))).1
  intro t clone heq hadv
  obtain ⟨rfl, _⟩ := Act.thread.inj heq
  refine ⟨?_, fun i other => hnone i 1 other⟩
  rw [hclone] at hadv
  cases hrun : (World.after (launchedRun ++ begunRun 1)).shared.goals.lookup 1 with
  | none =>
      rw [hrun] at hadv
      cases hadv
  | some run =>
      rw [hrun] at hadv
      obtain ⟨_, rfl⟩ := Thread.advancing.inj hadv
      exact ⟨_, rfl, rfl⟩

/-- Two calls of `goal.continue` clone the run in iteration 1.  The second goes
through twice before the first sends its prompt. -/
def overlappingRun : List Act :=
  let sendAndWrite : List Act := .thread 2 (.advanceSend true) :: writeBackRun 2
  launchedRun ++ begunRun 1 ++ begunRun 2 ++ sendAndWrite ++ begunRun 2 ++ sendAndWrite ++
    [.thread 1 (.advanceSend true)]

/-- **Overlapping calls**: iteration 2 is announced twice, the write-back of the
first call does not add one to the iteration, and the iteration goes down. -/
theorem advance_doubled :
    (¬ ∀ w, Reachable World.step {} w → (w.announced 1).Nodup) ∧
    (¬ ∀ w w' a run run', Reachable World.step {} w → w.step a = some w' →
      w.shared.goals.lookup 1 = some run → w'.shared.goals.lookup 1 = some run' →
      WritesIteration 1 w a → run'.iteration = run.iteration + 1) ∧
    (¬ ∀ w w' run run', Reachable World.step {} w → Reachable World.step w w' →
      w.shared.goals.lookup 1 = some run → w'.shared.goals.lookup 1 = some run' →
      run.iteration ≤ run'.iteration) := by
  have hbefore : Reachable World.step {} (World.after overlappingRun) :=
    reachable_of_exec (World.after_exec (by decide))
  have hstep := World.after_step overlappingRun (.thread 1 .advanceWrite) (by decide)
  have hthree : ((World.after overlappingRun).shared.goals.lookup 1).map (·.iteration)
      = some 3 := by
    decide
  have htwo : ((World.after (overlappingRun ++ [.thread 1 .advanceWrite])).shared.goals.lookup
      1).map (·.iteration) = some 2 := by
    decide
  obtain ⟨run, hrun, hit⟩ := Option.map_eq_some_iff.mp hthree
  obtain ⟨run', hrun', hit'⟩ := Option.map_eq_some_iff.mp htwo
  refine ⟨fun hall => ?_, fun hall => ?_, fun hall => ?_⟩
  · exact absurd (hall _ hbefore) (by decide)
  · have hone := hall _ _ _ run run' hbefore hstep hrun hrun' ⟨1, _, rfl, rfl⟩
    omega
  · have hle := hall _ _ run run' hbefore (.next .start trivial hstep) hrun hrun'
    omega

end Jmux.Goal
