/-
  Jmux.Goal.WorldSteps — what a step of a thread and of the main loop can be.

  `threadStep` and `driverStep` are functions of many branches.  The two
  relations below list their outcomes, each with the guards that lead to it, so
  that an invariant is a case analysis over them and never unfolds the functions.

  Main results:
    * `threadStep_turn` — every step of a thread is one of `ThreadTurn`.
    * `driverStep_turn` — every step of the main loop is one of `DriverTurn`.
    * `step_restart`    — what a restart leaves.
-/
import Jmux.Goal.World

namespace Jmux.Goal

namespace World

/-! ## §1. Threads. -/

/-- The outcomes of a step of thread `t`. -/
inductive ThreadTurn (w : World) (t : Nat) : ThreadStep → World → Prop
  /-- A request that is answered at once, with an error or with nothing to do. -/
  | createRefused (name : String) (params : CreateParams) (env : CreateEnv) :
      ThreadTurn w t (.createBegin name params env) w
  | createBegin (name : String) (params : CreateParams) (env : CreateEnv) (w₁ : World)
      (h : w.releaseName name = some w₁) : ThreadTurn w t (.createBegin name params env)
        (w₁.setThread t (.creating (newSpec name params env)))
  | createFail (spec : GraphSpec) (h : w.threads t = .creating spec) :
      ThreadTurn w t .createFail (w.setThread t .idle)
  | createInsert (spec : GraphSpec) (h : w.threads t = .creating spec) :
      ThreadTurn w t .createInsert ((w.insertGraph spec).setThread t .idle)
  | stopUnknown (graph : String) : ThreadTurn w t (.stopBegin graph) w
  | stopBegin (graph : String) : ThreadTurn w t (.stopBegin graph)
      ((w.editGraph graph fun s => .ok (setGraphState .stopped s)).setThread t (.stopping graph))
  | stopRuns (graph : String) (h : w.threads t = .stopping graph) : ThreadTurn w t .stopRuns
      ((w.setGoals (stopRunsOf w.shared.goals graph)).setThread t .idle)
  | completeNothing (ws : Uuid) (file param : Option String) :
      ThreadTurn w t (.completeBegin ws file param) w
  | completeBegin (ws : Uuid) (file param : Option String) :
      ThreadTurn w t (.completeBegin ws file param) (w.setThread t (.completing ws))
  | completeWrite (ws : Uuid) (h : w.threads t = .completing ws) : ThreadTurn w t .completeWrite
      ((w.setGoals (markDone w.shared.goals ws)).setThread t .idle)
  | acceptUnknown (ws : Uuid) (h : w.shared.goals.lookup ws = none) :
      ThreadTurn w t (.acceptMark ws) w
  | acceptMark (ws : Uuid) : ThreadTurn w t (.acceptMark ws)
      ((w.setGoals (markDone w.shared.goals ws)).setThread t (.accepted ws))
  | acceptUnlinked (ws : Uuid) (h : w.threads t = .accepted ws) :
      ThreadTurn w t .acceptRead (w.setThread t .idle)
  | acceptRead (ws : Uuid) (link : GraphLink) (h : w.threads t = .accepted ws) :
      ThreadTurn w t .acceptRead (w.setThread t (.accepting link))
  | acceptFinish (git : GitOutcome) (link : GraphLink) (h : w.threads t = .accepting link) :
      ThreadTurn w t (.acceptFinish git) ((w.editGraph link.graph fun s =>
        .ok (finishNode w.shared.goals git s link.node)).setThread t .idle)
  | continueRefused (ws : Uuid) (env : AdvanceEnv) : ThreadTurn w t (.continueBegin ws env) w
  | continueBegin (ws : Uuid) (env : AdvanceEnv) (run : GoalRun)
      (h : w.cloneForAdvance ws env = some run) :
      ThreadTurn w t (.continueBegin ws env) (w.setThread t (.advancing ws run))
  | panelContinue (ws : Uuid) :
      ThreadTurn w t (.panelContinue ws) (w.setThread t (.advanced ws))
  | advanceSend (ws : Uuid) (run : GoalRun) (h : w.threads t = .advancing ws run) :
      ThreadTurn w t (.advanceSend true)
        ({ w with prompts := w.prompts ++ [(ws, run.iteration + 1)] }.setThread t (.sent ws run))
  | advanceUnsent (ws : Uuid) (run : GoalRun) (h : w.threads t = .advancing ws run) :
      ThreadTurn w t (.advanceSend false) (w.setThread t .idle)
  | advanceWrite (ws : Uuid) (run : GoalRun) (h : w.threads t = .sent ws run) :
      ThreadTurn w t .advanceWrite
        ((w.setGoals (beginIteration w.shared.goals ws (run.iteration + 1))).setThread t
          (if t = 0 then .idle else .advanced ws))
  | continueUnlinked (ws : Uuid) (h : w.threads t = .advanced ws) :
      ThreadTurn w t .continueRead (w.setThread t .idle)
  | continueRead (ws : Uuid) (link : GraphLink) (h : w.threads t = .advanced ws) :
      ThreadTurn w t .continueRead (w.setThread t (.continuing link))
  | continueFinish (link : GraphLink) (h : w.threads t = .continuing link) :
      ThreadTurn w t .continueFinish
        ((w.editGraph link.graph fun s => .ok (continueSpec s link.node)).setThread t .idle)

theorem nextIteration_eq {run : GoalRun} {next : Nat} (h : nextIteration run = some next) :
    next = run.iteration + 1 := by
  unfold nextIteration at h
  split at h
  · exact (Option.some.inj h).symm
  · cases h

/-- **Every step of a thread is one of its turns.** -/
theorem threadStep_turn {w w' : World} {t : Nat} {s : ThreadStep}
    (h : w.threadStep t s = some w') : ThreadTurn w t s w' := by
  cases s with
  | createBegin name params env =>
      dsimp only [threadStep] at h
      split at h
      · cases h
      split at h
      · cases h
        exact .createRefused name params env
      split at h
      · cases h
        exact .createRefused name params env
      next w₁ hw₁ =>
        cases h
        exact .createBegin name params env w₁ hw₁
  | createFail =>
      dsimp only [threadStep] at h
      split at h
      next spec hspec =>
        cases h
        exact .createFail spec hspec
      · cases h
  | createInsert =>
      dsimp only [threadStep] at h
      split at h
      next spec hspec =>
        cases h
        exact .createInsert spec hspec
      · cases h
  | stopBegin graph =>
      dsimp only [threadStep] at h
      split at h
      · cases h
      split at h
      · cases h
        exact .stopUnknown graph
      · cases h
        exact .stopBegin graph
  | stopRuns =>
      dsimp only [threadStep] at h
      split at h
      next graph hgraph =>
        cases h
        exact .stopRuns graph hgraph
      · cases h
  | completeBegin ws file param =>
      dsimp only [threadStep] at h
      split at h
      · cases h
      split at h
      · cases h
        exact .completeBegin ws file param
      · cases h
        exact .completeNothing ws file param
  | completeWrite =>
      dsimp only [threadStep] at h
      split at h
      next ws hws =>
        cases h
        exact .completeWrite ws hws
      · cases h
  | acceptMark ws =>
      dsimp only [threadStep] at h
      split at h
      · cases h
      split at h
      · cases h
        exact .acceptMark ws
      next habs =>
        cases h
        exact .acceptUnknown ws (Option.not_isSome_iff_eq_none.mp habs)
  | acceptRead =>
      dsimp only [threadStep] at h
      split at h
      next ws hws =>
        split at h
        · cases h
          exact .acceptUnlinked ws hws
        next link _ =>
          cases h
          exact .acceptRead ws link hws
      · cases h
  | acceptFinish git =>
      dsimp only [threadStep] at h
      split at h
      next link hlink =>
        cases h
        exact .acceptFinish git link hlink
      · cases h
  | continueBegin ws env =>
      dsimp only [threadStep] at h
      split at h
      · cases h
      split at h
      · cases h
        exact .continueRefused ws env
      next run hrun =>
        cases h
        exact .continueBegin ws env run hrun
  | panelContinue ws =>
      dsimp only [threadStep] at h
      split at h
      · cases h
        exact .panelContinue ws
      · cases h
  | advanceSend delivered =>
      dsimp only [threadStep] at h
      split at h
      next ws run hrun =>
        split at h
        · cases h
        next next hnext =>
          obtain rfl := nextIteration_eq hnext
          cases delivered with
          | true =>
              cases h
              exact .advanceSend ws run hrun
          | false =>
              cases h
              exact .advanceUnsent ws run hrun
      · cases h
  | advanceWrite =>
      dsimp only [threadStep] at h
      split at h
      next ws run hrun =>
        cases h
        exact .advanceWrite ws run hrun
      · cases h
  | continueRead =>
      dsimp only [threadStep] at h
      split at h
      next ws hws =>
        split at h
        · cases h
          exact .continueUnlinked ws hws
        next link _ =>
          cases h
          exact .continueRead ws link hws
      · cases h
  | continueFinish =>
      dsimp only [threadStep] at h
      split at h
      next link hlink =>
        cases h
        exact .continueFinish link hlink
      · cases h

/-! ## §2. The main loop. -/

/-- The outcomes of a step of the main loop. -/
inductive DriverTurn (w : World) : DriverStep → World → Prop
  | tick (h : w.driver = .idle) :
      DriverTurn w .tick { w with driver := .scheduling w.graphs.keys }
  | process (env : TickEnv) (graph : String) (todo : List String)
      (h : w.driver = .scheduling (graph :: todo)) : DriverTurn w (.process env)
        { w.processNamed graph env with driver := .scheduling todo }
  | snapshot (h : w.driver = .scheduling []) :
      DriverTurn w .snapshot { w with driver := .purging w.shared.workspaces }
  | purge (live : List Uuid) (h : w.driver = .purging live) :
      DriverTurn w .purge { w.setGoals (purge w.shared.goals live) with driver := .purged }
  | collect (h : w.driver = .purged) :
      DriverTurn w .collect { w with driver := .driving (nonTerminalIds w.shared.goals) }
  | cloneEnd (h : w.driver = .driving []) : DriverTurn w .clone { w with driver := .idle }
  | cloneGone (ws : Uuid) (todo : List Uuid) (h : w.driver = .driving (ws :: todo)) :
      DriverTurn w .clone { w with driver := .driving todo }
  | clone (ws : Uuid) (run : GoalRun) (todo : List Uuid) (h : w.driver = .driving (ws :: todo))
      (hrun : w.shared.goals.lookup ws = some run) :
      DriverTurn w .clone { w with driver := .evaluating ws run todo }
  | evaluate (obs : Observation) (ws : Uuid) (run : GoalRun) (todo : List Uuid)
      (h : w.driver = .evaluating ws run todo) : DriverTurn w (.evaluate obs)
        { w with
          driver := afterEvaluate todo (driveOne ws run (decide (ws ∈ w.shared.workspaces)) obs) }
  | drop (ws : Uuid) (todo : List Uuid) (h : w.driver = .dropping ws todo) : DriverTurn w .drop
        { w.setGoals (w.shared.goals.erase ws) with driver := .driving todo }
  | writeEnd (now : Nat) (ws : Uuid) (todo : List Uuid) (h : w.driver = .writing ws [] todo) :
      DriverTurn w (.write now) { w with driver := .driving todo }
  | write (now : Nat) (ws : Uuid) (wb : WriteBack) (due : List WriteBack) (todo : List Uuid)
      (h : w.driver = .writing ws (wb :: due) todo) : DriverTurn w (.write now)
        { w.setGoals (applyWriteBack w.shared.goals ws now wb) with
          driver := .writing ws due todo }
  | callRefused (env : AdvanceEnv) (ws : Uuid) (todo : List Uuid) (h : w.driver = .calling ws todo) :
      DriverTurn w (.call env) { w with driver := .driving todo }
  | call (env : AdvanceEnv) (ws : Uuid) (run : GoalRun) (todo : List Uuid)
      (h : w.driver = .calling ws todo) (hrun : w.cloneForAdvance ws env = some run) :
      DriverTurn w (.call env)
        { w.setThread 0 (.advancing ws run) with driver := .advancing todo }
  | returned (todo : List Uuid) (h : w.driver = .advancing todo) (hidle : w.threads 0 = .idle) :
      DriverTurn w .returned { w with driver := .driving todo }

/-- **Every step of the main loop is one of its turns.** -/
theorem driverStep_turn {w w' : World} {s : DriverStep} (h : w.driverStep s = some w') :
    DriverTurn w s w' := by
  cases s with
  | tick =>
      dsimp only [driverStep] at h
      split at h
      next hd =>
        cases h
        exact .tick hd
      · cases h
  | process env =>
      dsimp only [driverStep] at h
      split at h
      next graph todo hd =>
        cases h
        exact .process env graph todo hd
      · cases h
  | snapshot =>
      dsimp only [driverStep] at h
      split at h
      next hd =>
        cases h
        exact .snapshot hd
      · cases h
  | purge =>
      dsimp only [driverStep] at h
      split at h
      next live hd =>
        cases h
        exact .purge live hd
      · cases h
  | collect =>
      dsimp only [driverStep] at h
      split at h
      next hd =>
        cases h
        exact .collect hd
      · cases h
  | clone =>
      dsimp only [driverStep] at h
      split at h
      next hd =>
        cases h
        exact .cloneEnd hd
      next ws todo hd =>
        split at h
        · cases h
          exact .cloneGone ws todo hd
        next run hrun =>
          cases h
          exact .clone ws run todo hd hrun
      · cases h
  | evaluate obs =>
      dsimp only [driverStep] at h
      split at h
      next ws run todo hd =>
        cases h
        exact .evaluate obs ws run todo hd
      · cases h
  | drop =>
      dsimp only [driverStep] at h
      split at h
      next ws todo hd =>
        cases h
        exact .drop ws todo hd
      · cases h
  | write now =>
      dsimp only [driverStep] at h
      split at h
      next ws todo hd =>
        cases h
        exact .writeEnd now ws todo hd
      next ws wb due todo hd =>
        cases h
        exact .write now ws wb due todo hd
      · cases h
  | call env =>
      dsimp only [driverStep] at h
      split at h
      next ws todo hd =>
        split at h
        · cases h
          exact .callRefused env ws todo hd
        next run hrun =>
          cases h
          exact .call env ws run todo hd hrun
      · cases h
  | returned =>
      dsimp only [driverStep] at h
      split at h
      next todo hd =>
        split at h
        next hidle =>
          cases h
          exact .returned todo hd hidle
        · cases h
      · cases h

/-! ## §3. Restarts. -/

/-- A restart restores workspaces that were there before. -/
theorem step_restart {w w' : World} {unreadable : List String} {restored : List Uuid}
    (h : w.step (.restart unreadable restored) = some w') :
    (∀ ws ∈ restored, ws < w.shared.nextUuid) ∧ w' = w.restart unreadable restored := by
  dsimp only [step] at h
  split at h
  next hold =>
    refine ⟨fun ws hws => ?_, (Option.some.inj h).symm⟩
    exact of_decide_eq_true (List.all_eq_true.mp hold ws hws)
  · cases h

end World

end Jmux.Goal
