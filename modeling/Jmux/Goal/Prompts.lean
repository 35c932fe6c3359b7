/-
  Jmux.Goal.Prompts — the texts that are typed into an agent's pane
  (`advance_iteration`, the nudge of `drive_one`, `revise_graph`).

  Each prompt is meant to be one line, with the carriage return that submits it at
  the end.  Three kinds of text go into it: the steering note, which
  `sanitize_note` flattens; the output directory, which comes out of
  `validate_output_dir`; and, for a revision, the note as it stands.

  Main results:
    * `plain_outputDirOrDefault_iff` — which settings keep control characters out.
    * `reach_launched`        — where the output directory of a registered run
                                 comes from.
    * `prompt_one_line_iff`   — which prompts are typed as one line.
-/
import Jmux.Goal.Iterate
import Jmux.Goal.Revise
import Jmux.Lib.TypedLine

namespace Jmux.Goal

open Jmux.Lib
open Jmux.Lib.TypedLine
open Jmux.Model

/-! ## §1. The prompts. -/

def sanitizeNote (note : String) : String :=
  let flat := note.toList.map fun c => if isControl c then ' ' else c
  let words := (flat.splitOnP Str.isWhitespace).filter (· ≠ [])
  String.ofList (([' '].intercalate words).take 500)

/-- Who calls `advance_iteration`. -/
inductive Reason where
  /-- The driver, on a report of status blocked. -/
  | blocked (iteration : Nat)
  /-- The panel's button. -/
  | button
  /-- `goal.continue`, with the `note` of the request. -/
  | continued (note : Option String)

/-- The first sentence of the prompt. -/
def Reason.text : Reason → String
  | .blocked n => "Iteration " ++ toString n ++ " reported status: blocked."
  | .button => "The reviewer asked for another iteration."
  | .continued note =>
      let note := (note.map sanitizeNote).getD ""
      if note = "" then "The reviewer asked for another iteration."
      else "The reviewer asked for another iteration, with this note: " ++ note

def advancePrompt (reason : String) (run : GoalRun) : String :=
  let next := run.iteration + 1
  reason ++ " Begin iteration " ++ toString next ++ ": re-read `" ++ run.outputRel run.iteration
    ++ "` (especially section 4), address the feedback with reasonable "
    ++ "assumptions, continue working the goal, and when finished write `" ++ run.outputRel next
    ++ "` in the same four-section format with front-matter status done or "
    ++ "blocked. Then run: jmux goal complete"

def nudgeText : String :=
  "Continue working toward the goal. When it is complete "
    ++ "(or you cannot proceed), write the "
    ++ "iteration file exactly as instructed, "
    ++ "then run: jmux goal report"

/-! ## §2. Where an output directory comes from. -/

inductive RunOrigin where
  /-- `create_goal`: the setting `goal.output_dir`. -/
  | setting (dir : String)
  /-- `launch_node`. -/
  | node (spec : GraphSpec) (id : String)

def RunOrigin.rel : RunOrigin → String
  | .setting dir => outputDirOrDefault dir
  | .node spec id => spec.nodeOutputDir id

/-- A registered run, with the origin of its output directory. -/
structure LaunchedRun where
  run       : GoalRun
  origin    : RunOrigin
  outputDir : run.outputDirRel = origin.rel

/-- Unusable, so that the default takes its place, or without control characters
between its ends. -/
def PlainSetting (dir : String) : Prop :=
  ∀ rel, validateOutputDir dir = .ok rel → Plain (Str.trim dir).toList

/-- No control character comes into the path. -/
def RunOrigin.PlainPath : RunOrigin → Prop
  | .setting dir => PlainSetting dir
  | .node spec id => PlainSetting spec.outputDir ∧ Plain spec.name.toList ∧ Plain id.toList

/-- The cleaned path has the setting's components. -/
theorem plain_of_validateOutputDir {dir rel : String} (h : validateOutputDir dir = .ok rel) :
    Plain rel.toList ↔ Plain (Str.trim dir).toList := by
  have hslash : Plain ['/'] := plain_of_all (by decide)
  unfold validateOutputDir at h
  dsimp only at h
  split at h
  · cases h
  split at h
  · cases h
  split at h
  · cases h
  obtain rfl := Except.ok.inj h
  have hjoined := @List.intercalate_splitOn _ (Str.trim dir).toList _ _ '/'
  rw [String.toList_ofList, plain_intercalate_iff hslash]
  have hall : Plain (Str.trim dir).toList ↔
      ∀ p ∈ (Str.trim dir).toList.splitOn '/', Plain p := by
    conv_lhs => rw [← hjoined]
    exact plain_intercalate_iff hslash _
  rw [hall]
  constructor
  · intro hnormal p hp
    by_cases hdrop : p ≠ [] ∧ p ≠ ['.']
    · exact hnormal p (List.mem_filter.mpr ⟨hp, by simpa using hdrop⟩)
    · -- the components that are left out are empty or a dot
      by_cases hnil : p = []
      · rw [hnil]
        exact plain_nil
      · have hdot : p = ['.'] := by
          by_contra hne
          exact hdrop ⟨hnil, hne⟩
        rw [hdot]
        exact plain_of_all (by decide)
  · intro hparts p hp
    exact hparts p (List.mem_filter.mp hp).1

theorem plain_outputDirOrDefault_iff (dir : String) :
    Plain (outputDirOrDefault dir).toList ↔ PlainSetting dir := by
  unfold outputDirOrDefault PlainSetting
  cases hvalid : validateOutputDir dir with
  | error e =>
      have hdefault : Plain defaultGoalOutputDir.toList := plain_of_all (by decide)
      simp [hdefault]
  | ok rel =>
      rw [plain_of_validateOutputDir hvalid]
      constructor
      · intro h _ _
        exact h
      · intro h
        exact h rel rfl

theorem RunOrigin.plain_rel_iff (origin : RunOrigin) :
    Plain origin.rel.toList ↔ origin.PlainPath := by
  cases origin with
  | setting dir => exact plain_outputDirOrDefault_iff dir
  | node spec id =>
      have hslash : Plain "/".toList := plain_of_all (by decide)
      show Plain (spec.nodeOutputDir id).toList ↔ PlainSetting spec.outputDir ∧ _ ∧ _
      unfold GraphSpec.nodeOutputDir GraphSpec.outputDirRel
      simp only [String.toList_append, plain_append_iff, plain_outputDirOrDefault_iff, hslash,
        and_true, and_assoc]

/-- What `create_goal` and `launch_node` launch. -/
def FromOrigin (spec : LaunchSpec) : Prop := ∃ origin : RunOrigin, spec.outputDirRel = origin.rel

theorem origin_law :
    RunLaw FromOrigin fun _ run => ∃ origin : RunOrigin, run.outputDirRel = origin.rel where
  node s id _ hspec := ⟨.node s id, hspec⟩
  launched _ _ _ hspec := hspec
  kept := by
    rintro op ws run run' hop ⟨origin, hrun⟩
    exact ⟨origin, (GoalOp.onRun_frame hop).2.trans hrun⟩

/-- In every run of steps in which bare goals take their directory from the setting. -/
theorem reach_launched {w₀ w : World} (h0 : w₀.Start)
    (hr : Reach World.step (CreatesBy FromOrigin) w₀ w) {ws : Uuid} {run : GoalRun}
    (hrun : w.shared.goals.lookup ws = some run) : ∃ launched : LaunchedRun, launched.run = run := by
  obtain ⟨origin, hdir⟩ := reach_everyRun origin_law h0 hr ws run hrun
  exact ⟨⟨run, origin, hdir⟩, rfl⟩

/-! ## §4. What is sent. -/

/-- The calls that type into an agent's pane. -/
inductive Sending where
  | advance (call : AdvanceCall) (launched : LaunchedRun) (reason : Reason)
  | nudge (launched : LaunchedRun) (obs : Observation)
  | revise (call : ReviseCall) (tm : TabManager) (graphs : GraphRegistry)

def Sending.sent : Sending → Option SendInput
  | .advance call launched reason =>
      if call.accepts launched.run then
        some { panelId := launched.run.panelId
               text    := advancePrompt reason.text launched.run ++ "\r" }
      else none
  | .nudge launched obs =>
      if .setRun .nudged ∈ driveScreen launched.run obs then
        some { panelId := launched.run.panelId, text := nudgeText ++ "\r" }
      else none
  | .revise call tm graphs => (handleRevise call tm graphs).2.2

/-- The prompt has a control character before its end only through the directory of an
advance; a revision always has one. -/
def Sending.Harmless : Sending → Prop
  | .advance _ launched _ => launched.origin.PlainPath
  | .nudge _ _ => True
  | .revise _ _ _ => False

theorem sanitizeNote_plain (note : String) : Plain (sanitizeNote note).toList := by
  have hflat : Plain (note.toList.map fun c => if isControl c then ' ' else c) := by
    intro c hc
    obtain ⟨d, _, rfl⟩ := List.mem_map.mp hc
    by_cases hd : isControl d = true
    · rw [if_pos hd]
      rfl
    · rw [if_neg hd]
      simpa using hd
  unfold sanitizeNote
  rw [String.toList_ofList]
  refine Plain.of_subset ?_ (List.take_subset 500 _)
  refine (plain_intercalate_iff (plain_of_all (by decide)) _).mpr fun w hw => ?_
  exact hflat.splitOnP _ w (List.mem_filter.mp hw).1

theorem Reason.plain_text (reason : Reason) : Plain reason.text.toList := by
  have hplain : Plain "The reviewer asked for another iteration.".toList :=
    plain_of_all (by decide)
  cases reason with
  | blocked n =>
      unfold Reason.text
      rw [String.toList_append, String.toList_append, plain_append_iff, plain_append_iff]
      exact ⟨⟨plain_of_all (by decide), plain_toString n⟩, plain_of_all (by decide)⟩
  | button => exact hplain
  | continued note =>
      unfold Reason.text
      dsimp only
      split
      · exact hplain
      · rw [String.toList_append, plain_append_iff]
        refine ⟨plain_of_all (by decide), ?_⟩
        cases note with
        | none => exact plain_nil
        | some note => exact sanitizeNote_plain note

theorem plain_outputRel_iff (run : GoalRun) (n : Nat) :
    Plain (run.outputRel n).toList ↔ Plain run.outputDirRel.toList := by
  have hfile : Plain "/iteration-".toList := plain_of_all (by decide)
  have hmd : Plain ".md".toList := plain_of_all (by decide)
  unfold GoalRun.outputRel iterationRel
  simp only [String.toList_append, plain_append_iff, hfile, hmd, plain_toString n, and_true]

/-- Only the directory can bring a control character into the prompt of an advance. -/
theorem plain_advancePrompt_iff (reason : Reason) (run : GoalRun) :
    Plain (advancePrompt reason.text run).toList ↔ Plain run.outputDirRel.toList := by
  have hbegin : Plain " Begin iteration ".toList := plain_of_all (by decide)
  have hread : Plain ": re-read `".toList := plain_of_all (by decide)
  have hsection : Plain "` (especially section 4), address the feedback with reasonable ".toList :=
    plain_of_all (by decide)
  have hwrite : Plain "assumptions, continue working the goal, and when finished write `".toList :=
    plain_of_all (by decide)
  have hformat :
      Plain "` in the same four-section format with front-matter status done or ".toList :=
    plain_of_all (by decide)
  have hrun : Plain "blocked. Then run: jmux goal complete".toList := plain_of_all (by decide)
  unfold advancePrompt
  simp only [String.toList_append, plain_append_iff, plain_outputRel_iff, reason.plain_text,
    plain_toString, hbegin, hread, hsection, hwrite, hformat, hrun, true_and, and_true, and_self]

theorem revisionPrompt_not_plain (note : String) (spec : GraphSpec) :
    ¬ Plain (revisionPrompt note spec).toList := by
  refine not_plain_of_mem (c := '\n') ?_ (by decide)
  unfold revisionPrompt
  simp only [String.toList_append, List.mem_append]
  refine .inl (.inl (.inl (.inr ?_)))
  decide

/-! ## §5. Which prompts are one line. -/

theorem advance_one_line_iff {call : AdvanceCall} {launched : LaunchedRun} {reason : Reason}
    {input : SendInput} (h : (Sending.advance call launched reason).sent = some input) :
    OneLine input.text.toList ↔ launched.origin.PlainPath := by
  unfold Sending.sent at h
  dsimp only at h
  split at h
  · obtain rfl := Option.some.inj h
    show OneLine (advancePrompt reason.text launched.run ++ "\r").toList ↔ _
    rw [String.toList_append]
    show OneLine (_ ++ ['\r']) ↔ _
    rw [oneLine_return_iff, plain_advancePrompt_iff, launched.outputDir,
      launched.origin.plain_rel_iff]
  · cases h

theorem nudge_one_line {launched : LaunchedRun} {obs : Observation} {input : SendInput}
    (h : (Sending.nudge launched obs).sent = some input) : OneLine input.text.toList := by
  unfold Sending.sent at h
  dsimp only at h
  split at h
  · obtain rfl := Option.some.inj h
    have hplain : Plain nudgeText.toList := by
      unfold nudgeText
      simp only [String.toList_append, plain_append_iff]
      exact ⟨⟨⟨plain_of_all (by decide), plain_of_all (by decide)⟩, plain_of_all (by decide)⟩,
        plain_of_all (by decide)⟩
    show OneLine (nudgeText ++ "\r").toList
    rw [String.toList_append]
    exact (oneLine_return_iff _).mpr hplain
  · cases h

theorem handleRevise_text {call : ReviseCall} {tm : TabManager} {graphs : GraphRegistry}
    {input : SendInput} (h : (handleRevise call tm graphs).2.2 = some input) :
    ∃ spec, input.text = revisionPrompt call.note spec ++ "\r" := by
  unfold handleRevise at h
  split at h
  · cases h
  next spec _ =>
    dsimp only at h
    split at h
    · split at h
      · obtain rfl := Option.some.inj h
        exact ⟨spec, rfl⟩
      · cases h
    · cases h
    · cases h

theorem revise_not_one_line {call : ReviseCall} {tm : TabManager} {graphs : GraphRegistry}
    {input : SendInput} (h : (Sending.revise call tm graphs).sent = some input) :
    ¬ OneLine input.text.toList := by
  obtain ⟨spec, htext⟩ := handleRevise_text h
  rw [htext, String.toList_append]
  intro hline
  exact revisionPrompt_not_plain call.note spec ((oneLine_return_iff _).mp hline)

/-- **Which prompts are typed as one line**: a nudge always, a revision never, and the
prompt of an advance when the path of its run has no control character. -/
theorem prompt_one_line_iff {sending : Sending} {input : SendInput}
    (h : sending.sent = some input) : OneLine input.text.toList ↔ sending.Harmless := by
  cases sending with
  | advance call launched reason => exact advance_one_line_iff h
  | nudge launched obs =>
      show _ ↔ True
      simpa using nudge_one_line h
  | revise call tm graphs =>
      show _ ↔ False
      simpa using revise_not_one_line h

/-- A run that has reported, with the directory from a setting. -/
def advancedRun (dir : String) : LaunchedRun where
  run :=
    LaunchSpec.run
      { goalName := "mapsite", goalPath := "goal.md", cwd := "/repo"
        outputDirRel := outputDirOrDefault dir, runnerName := "claude", runner := {}
        maxIterations := 3, wallClockMinutes := 0, graph := none } {} 0
  origin    := .setting dir
  outputDir := rfl

def reported : AdvanceCall where
  env := { file := some "---\nstatus: blocked\n---\n" }

/-- The note has a line break, the setting has none. -/
theorem steering_note_one_line :
    ∃ input, (Sending.advance reported (advancedRun "docs/roadmap")
        (.continued (some "be\nbrief"))).sent = some input ∧ OneLine input.text.toList := by
  refine ⟨_, rfl, (@prompt_one_line_iff (.advance reported (advancedRun "docs/roadmap")
    (.continued (some "be\nbrief"))) _ rfl).mpr ?_⟩
  intro rel _
  exact plain_of_all (by decide)

/-- A revision breaks its line after the note; a setting with a line break inside is
accepted and breaks the line of an advance. -/
theorem prompts_break_lines :
    (∃ input, (Sending.revise (revision 2) (plannedTabs plannedWorkspace) plannedGraphs).sent =
        some input ∧ ¬ OneLine input.text.toList) ∧
      validateOutputDir "docs\nroadmap" = .ok "docs\nroadmap" ∧
      ∃ input, (Sending.advance reported (advancedRun "docs\nroadmap") .button).sent = some input ∧
        ¬ OneLine input.text.toList := by
  refine ⟨?_, ?_, ?_⟩
  · have hsome : (Sending.revise (revision 2) (plannedTabs plannedWorkspace)
        plannedGraphs).sent.isSome = true := by decide
    obtain ⟨input, hinput⟩ := Option.isSome_iff_exists.mp hsome
    exact ⟨input, hinput, revise_not_one_line hinput⟩
  · decide
  · refine ⟨_, rfl, fun hline => ?_⟩
    have hplain := (@advance_one_line_iff reported (advancedRun "docs\nroadmap") .button _ rfl).mp
      hline
    refine not_plain_of_mem (c := '\n') ?_ (by decide) (hplain "docs\nroadmap" (by decide))
    decide

end Jmux.Goal
