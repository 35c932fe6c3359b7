/-
  Jmux.Goal.Escalation — when `escalate` (`goal/mod.rs`) notifies the user.

  An escalation sets the run's status at once; whether it is also notified depends on
  the time of the last notification, unless the run becomes terminal.  Other
  operations on the registry come in between and change the status as well, but
  only `escalate` touches the time.

  Main result:
    * `escalate_rateLimited` — over any sequence of operations on a run, with calls of
                               `escalate` at non-decreasing times among them.
-/
import Jmux.Goal.WorldEffects
import Jmux.Lib.Transition

namespace Jmux.Goal

open Jmux.Lib

/-! ## §1. Notifications. -/

/-- Whether a call notifies; the rest of `escalate` is `GoalRun.escalate`. -/
def GoalRun.escalateNotifies (run : GoalRun) (status : GoalStatus) (now : Nat) : Bool :=
  let rateOk := decide (now - run.lastEscalationEpoch ≥ escalationMinSecs)
  let enteringTerminal := status.isTerminal && !run.status.isTerminal
  if run.status ≠ status ∨ rateOk = true then rateOk || enteringTerminal else false

/-- A notification, with the status it announces. -/
structure Notice where
  status : GoalStatus
  time : Nat
  deriving DecidableEq, Repr

/-- The notification that one operation on the registry sends for the run. -/
def GoalOp.notice (ws : Uuid) (run : GoalRun) : GoalOp → Option Notice
  | .escalate k status now =>
      if ws = k ∧ run.escalateNotifies status now = true then some ⟨status, now⟩ else none
  | _ => none

theorem notice_escalate (ws : Uuid) (run : GoalRun) (k : Uuid) (status : GoalStatus) (now : Nat) :
    (GoalOp.escalate k status now).notice ws run
      = if ws = k ∧ run.escalateNotifies status now = true then some ⟨status, now⟩ else none := rfl

/-- One operation on a registered run, as long as it is registered. -/
def runStep (ws : Uuid) (run : GoalRun) (op : GoalOp) : Option GoalRun := op.onRun ws (some run)

/-- The notifications of a sequence of operations. -/
def notices (ws : Uuid) : GoalRun → List GoalOp → List Notice
  | _, [] => []
  | run, op :: ops =>
      (op.notice ws run).toList ++
        match runStep ws run op with
        | some run' => notices ws run' ops
        -- the run is no longer registered
        | none => []

/-- When `escalate` is called for the run. -/
def callTimes (ws : Uuid) (ops : List GoalOp) : List Nat :=
  ops.filterMap fun
    | .escalate k _ now => if ws = k then some now else none
    | _ => none

/-! ## §2. One operation. -/

/-- A notification outside of the limit is a run that becomes terminal. -/
theorem escalateNotifies_iff {run : GoalRun} {status : GoalStatus} {now : Nat} :
    run.escalateNotifies status now = true ↔
      run.lastEscalationEpoch + escalationMinSecs ≤ now ∨
        (status.isTerminal = true ∧ run.status.isTerminal = false) := by
  have hmin : escalationMinSecs = 60 := rfl
  have hrate : now - run.lastEscalationEpoch ≥ escalationMinSecs ↔
      run.lastEscalationEpoch + escalationMinSecs ≤ now := by omega
  unfold GoalRun.escalateNotifies
  simp only [hrate, decide_eq_true_eq]
  by_cases hpassed : run.lastEscalationEpoch + escalationMinSecs ≤ now
  · simp [hpassed]
  · by_cases hterminal : status.isTerminal = true ∧ run.status.isTerminal = false
    · -- the status changes, since only one of the two is terminal
      have hne : run.status ≠ status := by
        intro heq
        rw [heq, hterminal.1] at hterminal
        exact Bool.noConfusion hterminal.2
      simp [hpassed, hterminal, hne]
    · have hno : (status.isTerminal && !run.status.isTerminal) = false := by
        by_contra hyes
        exact hterminal (by simpa using hyes)
      simp only [hpassed, hterminal, hno, or_false, decide_false, Bool.false_or]
      split <;> simp

theorem escalate_last (run : GoalRun) (status : GoalStatus) (now : Nat) :
    (run.escalate status now).lastEscalationEpoch
      = if run.escalateNotifies status now = true then now else run.lastEscalationEpoch := by
  unfold GoalRun.escalate GoalRun.escalateNotifies
  dsimp only
  split <;> rfl

/-- Only a notification changes the time of the last notification. -/
theorem runStep_last {ws : Uuid} {run run' : GoalRun} {op : GoalOp}
    (h : runStep ws run op = some run') :
    run'.lastEscalationEpoch = ((op.notice ws run).map (·.time)).getD run.lastEscalationEpoch := by
  unfold runStep at h
  cases op with
  | keep | grow =>
      cases h
      rfl
  | escalate k status now =>
      dsimp only [GoalOp.onRun] at h
      rw [notice_escalate]
      by_cases hk : ws = k
      · rw [if_pos hk] at h
        cases h
        rw [escalate_last]
        by_cases hn : run.escalateNotifies status now = true
        · rw [if_pos hn, if_pos ⟨hk, hn⟩]
          rfl
        · rw [if_neg hn, if_neg fun hboth => hn hboth.2]
          rfl
      · rw [if_neg hk] at h
        cases h
        rw [if_neg fun hboth => hk hboth.1]
        rfl
  | setRun k f =>
      dsimp only [GoalOp.onRun] at h
      split at h
      · cases h
        cases f <;> rfl
      · cases h
        rfl
  | stop k | markDone k | begin k _ =>
      dsimp only [GoalOp.onRun] at h
      split at h <;> cases h <;> rfl
  | stopOf g =>
      cases h
      show (run.stopIfOf g).lastEscalationEpoch = run.lastEscalationEpoch
      unfold GoalRun.stopIfOf
      split <;> rfl
  | purge live =>
      dsimp only [GoalOp.onRun, Option.filter] at h
      split at h <;> cases h
      rfl
  | drop k =>
      dsimp only [GoalOp.onRun] at h
      split at h <;> cases h
      rfl
  | clear => cases h

/-! ## §3. A sequence of operations. -/

/-- The recorded time is the one of the last notification, or the one from before. -/
theorem exec_last {ws : Uuid} {run run' : GoalRun} {ops : List GoalOp}
    (h : exec (runStep ws) run ops = some run') :
    run'.lastEscalationEpoch = run.lastEscalationEpoch ∨
      ∃ n ∈ notices ws run ops, run'.lastEscalationEpoch = n.time := by
  induction ops generalizing run with
  | nil =>
      cases h
      exact .inl rfl
  | cons op ops ih =>
      obtain ⟨mid, hmid, hrest⟩ := exec_cons.mp h
      have hnotices : notices ws run (op :: ops)
          = (op.notice ws run).toList ++ notices ws mid ops := by
        rw [notices, hmid]
      rw [hnotices]
      have hlast := runStep_last hmid
      cases ih hrest with
      | inl hsame =>
          rw [hsame, hlast]
          cases hn : op.notice ws run with
          | none => exact .inl rfl
          | some n => exact .inr ⟨n, by simp, rfl⟩
      | inr hlater =>
          obtain ⟨n, hn, htime⟩ := hlater
          exact .inr ⟨n, List.mem_append_right _ hn, htime⟩

/-- The times of the calls that come after an operation. -/
theorem callTimes_cons (ws : Uuid) (op : GoalOp) (ops : List GoalOp) :
    ∃ first, callTimes ws (op :: ops) = first ++ callTimes ws ops ∧
      ∀ run, ∀ n ∈ op.notice ws run, first = [n.time] := by
  cases op with
  | escalate k status now =>
      by_cases hk : ws = k
      · refine ⟨[now], by simp [callTimes, hk], fun run n hn => ?_⟩
        rw [notice_escalate] at hn
        split at hn
        · rw [← Option.some.inj hn]
        · cases hn
      · refine ⟨[], by simp [callTimes, hk], fun run n hn => ?_⟩
        rw [notice_escalate, if_neg fun hboth => hk hboth.1] at hn
        cases hn
  | _ => exact ⟨[], by simp [callTimes], fun run n hn => by cases hn⟩

/-- After a notification at `bound` or later, the next one that announces no terminal
status waits for the interval. -/
theorem notices_after {ws : Uuid} {bound : Nat} (ops : List GoalOp) (run : GoalRun)
    (hlast : bound ≤ run.lastEscalationEpoch) (hcalls : ∀ t ∈ callTimes ws ops, bound ≤ t) :
    ∀ n ∈ notices ws run ops, n.status.isTerminal = false →
      bound + escalationMinSecs ≤ n.time := by
  induction ops generalizing run with
  | nil =>
      intro n hn
      cases hn
  | cons op ops ih =>
      obtain ⟨first, htimes, hfirst⟩ := callTimes_cons ws op ops
      rw [htimes] at hcalls
      have hlater := fun t ht => hcalls t (List.mem_append_right first ht)
      intro n hn hopen
      rw [notices] at hn
      cases List.mem_append.mp hn with
      | inl hnow =>
          have hnotice : op.notice ws run = some n := Option.mem_toList.mp hnow
          cases op with
          | escalate k status now =>
              rw [notice_escalate] at hnotice
              split at hnotice
              next hboth =>
                obtain rfl := Option.some.inj hnotice
                have hrate := (escalateNotifies_iff.mp hboth.2).resolve_right
                  fun hterminal => by simp [hopen] at hterminal
                show bound + escalationMinSecs ≤ now
                omega
              · cases hnotice
          | _ => cases hnotice
      | inr hafter =>
          cases hmid : runStep ws run op with
          | none =>
              rw [hmid] at hafter
              cases hafter
          | some mid =>
              rw [hmid] at hafter
              refine ih mid ?_ hlater n hafter hopen
              rw [runStep_last hmid]
              cases hnotice : op.notice ws run with
              | none => exact hlast
              | some m =>
                  show bound ≤ m.time
                  refine hcalls m.time (List.mem_append_left _ ?_)
                  rw [hfirst run m hnotice]
                  exact List.mem_singleton_self _

/-- **Notifications of no terminal status are an interval apart.** -/
theorem notices_spaced {ws : Uuid} (ops : List GoalOp) (run : GoalRun)
    (hclock : (callTimes ws ops).Pairwise (· ≤ ·)) :
    ((notices ws run ops).filter fun n => !n.status.isTerminal).Pairwise
      fun n m => n.time + escalationMinSecs ≤ m.time := by
  induction ops generalizing run with
  | nil => exact List.Pairwise.nil
  | cons op ops ih =>
      obtain ⟨first, htimes, hfirst⟩ := callTimes_cons ws op ops
      rw [htimes, List.pairwise_append] at hclock
      obtain ⟨_, hrest, hacross⟩ := hclock
      rw [notices]
      cases hmid : runStep ws run op with
      | none =>
          cases op.notice ws run with
          | none => simp
          | some n => cases hn : n.status.isTerminal <;> simp [hn]
      | some mid =>
          have htail := ih mid hrest
          cases hnotice : op.notice ws run with
          | none => simpa using htail
          | some n =>
              by_cases hopen : n.status.isTerminal = true
              · simpa [hopen] using htail
              · have hkept : (some n).toList ++ notices ws mid ops = n :: notices ws mid ops := rfl
                show List.Pairwise _ (List.filter _ ((some n).toList ++ notices ws mid ops))
                rw [hkept, List.filter_cons_of_pos (by simpa using hopen), List.pairwise_cons]
                refine ⟨fun m hm => ?_, htail⟩
                obtain ⟨hmem, hmopen⟩ := List.mem_filter.mp hm
                have hlast : n.time ≤ mid.lastEscalationEpoch := by
                  rw [runStep_last hmid, hnotice]
                  exact le_refl _
                refine notices_after ops mid hlast (fun t ht => ?_) m hmem (by simpa using hmopen)
                exact hacross n.time (by rw [hfirst run n hnotice]; simp) t ht

/-! ## §4. The rate limit. -/

/-- What is promised of the notifications of one run, over a sequence of operations. -/
structure RateLimited (ws : Uuid) (run : GoalRun) (ops : List GoalOp) : Prop where
  /-- Two notifications of no terminal status are an interval apart. -/
  spaced : ((notices ws run ops).filter fun n => !n.status.isTerminal).Pairwise
    fun n m => n.time + escalationMinSecs ≤ m.time
  /-- A run that becomes terminal is notified. -/
  terminal : ∀ before found status now after, ops = before ++ .escalate ws status now :: after →
    exec (runStep ws) run before = some found →
      status.isTerminal = true → found.status.isTerminal = false →
        found.escalateNotifies status now = true
  /-- A status that was not notified is notified by a later call, an interval after
  the last notification. -/
  repeated : ∀ before suppressed status t between found t' after,
    ops = before ++ .escalate ws status t :: (between ++ .escalate ws status t' :: after) →
    exec (runStep ws) run before = some suppressed →
    suppressed.escalateNotifies status t = false →
    exec (runStep ws) run (before ++ .escalate ws status t :: between) = some found →
    run.lastEscalationEpoch + escalationMinSecs ≤ t' →
    (∀ n ∈ notices ws run (before ++ .escalate ws status t :: between),
      n.time + escalationMinSecs ≤ t') →
    found.escalateNotifies status t' = true

/-- **The rate limit of `escalate`.** -/
theorem escalate_rateLimited (ws : Uuid) (run : GoalRun) (ops : List GoalOp)
    (hclock : (callTimes ws ops).Pairwise (· ≤ ·)) : RateLimited ws run ops where
  spaced := notices_spaced ops run hclock
  terminal _ _ _ _ _ _ _ hstatus hopen := escalateNotifies_iff.mpr (.inr ⟨hstatus, hopen⟩)
  repeated before suppressed status t between found t' after _ _ _ hfound hrun hnotices := by
    refine escalateNotifies_iff.mpr (.inl ?_)
    cases exec_last hfound with
    | inl hsame =>
        rw [hsame]
        exact hrun
    | inr hlater =>
        obtain ⟨n, hn, htime⟩ := hlater
        rw [htime]
        exact hnotices n hn

/-- A run that has just been launched. -/
def promptedRun : GoalRun where
  workspaceId := 1
  panelId := 2
  sessionId := 3
  goalName := "mapsite"
  goalPath := "goal.md"
  cwd := "/r"
  outputDirRel := "docs/roadmap"
  iteration := 1
  maxIterations := 0
  runnerName := "claude"
  runner := {}
  status := .running
  nudgesSent := 0
  idleTicks := 0
  noTextTicks := 0
  startedEpoch := 0
  wallClockMinutes := 0
  lastEscalationEpoch := 0
  graph := none

/-- A prompt, an interruption, the prompt again too early, and the end of the run. -/
def promptTwice : List GoalOp :=
  [.escalate 1 (.needsAttention "waiting on a prompt") 100, .setRun 1 .working,
    .escalate 1 (.needsAttention "waiting on a prompt") 130,
    .escalate 1 (.needsAttention "waiting on a prompt") 160, .escalate 1 (.blocked "ran out of time") 170]

theorem escalate_rateLimited_promptTwice :
    (notices 1 promptedRun promptTwice).map (·.time) = [100, 160, 170] ∧
      RateLimited 1 promptedRun promptTwice :=
  ⟨by decide, escalate_rateLimited 1 promptedRun promptTwice (by decide)⟩

end Jmux.Goal
