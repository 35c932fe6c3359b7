/-
  Jmux.Goal.LaunchArgv — the arguments of a claude runner, and how they are taken.

  `launch_command` (`goal/mod.rs`) composes a text for the shell; the shell's words
  are then read by the agent's option parser, where `--allowedTools` takes every
  word up to the next option.  Quoting reaches the shell only: a tool pattern that
  begins with a dash is an option to the parser.

  Main result:
    * `exactArgv_iff` — the shell yields the intended arguments, and the tools are
                        the values of their option exactly when none of them is an option.
-/
import Jmux.Goal.Permission

namespace Jmux.Goal

open Jmux.Lib

/-! ## §1. The content of the seed file. -/

/-- What the shell puts for `$(cat <word>)`: the content of the file that the word names. -/
def catOutput (contents : String → String) (cmd : List Char) : List Char :=
  match Shell.words (fun _ => []) cmd with
  | some [program, file] =>
      if program = "cat".toList then (contents (String.ofList file)).toList else []
  | _ => []

theorem words_cat (output : List Char → List Char) (file : List Char) :
    Shell.words output ("cat ".toList ++ Shell.quote file) = some ["cat".toList, file] := by
  have hplain : ∀ c ∈ "cat".toList, Shell.isPlain c = true :=
    List.all_eq_true.mp (by decide : "cat".toList.all Shell.isPlain = true)
  have hreads : List.Forall₂ (Shell.Reads output) ["cat".toList, Shell.quote file]
      ["cat".toList, file] :=
    .cons (Shell.reads_plain (by decide) hplain) (.cons (Shell.reads_quote file) .nil)
  have hjoin : Shell.join ["cat".toList, Shell.quote file] = "cat ".toList ++ Shell.quote file := by
    unfold Shell.join
    rw [List.intercalate_cons_cons, List.intercalate_singleton]
    rfl
  rw [← hjoin]
  exact Shell.words_join hreads (List.cons_ne_nil _ _)

/-- The prompt is the content of exactly the seed file. -/
theorem promptOf_catOutput (contents : String → String) (seedFile : String) :
    promptOf (catOutput contents) seedFile = contents seedFile := by
  unfold promptOf catOutput
  rw [words_cat]
  show String.ofList (if "cat".toList = "cat".toList then _ else []) = contents seedFile
  rw [if_pos rfl, String.ofList_toList, String.ofList_toList]

/-! ## §2. Options and their values. -/

/-- A word that the option parser takes for an option: a dash with something behind it. -/
def isOption (w : String) : Bool :=
  match w.toList with
  | '-' :: _ :: _ => true
  | _ => false

/-- The values of a variadic option: every word behind it, up to the next option. -/
def variadicValues (opt : String) : List String → List String
  | [] => []
  | w :: ws => if w = opt then ws.takeWhile (!isOption ·) else variadicValues opt ws

/-- Up to an option, exactly the words that are none are taken. -/
theorem takeWhile_not_option_iff (values rest : List String) {next : String}
    (hnext : isOption next = true) :
    (values ++ next :: rest).takeWhile (!isOption ·) = values ↔
      ∀ w ∈ values, isOption w = false := by
  induction values with
  | nil =>
      have hstop : (next :: rest).takeWhile (!isOption ·) = [] :=
        List.takeWhile_cons_of_neg (by simp [hnext])
      simpa using hstop
  | cons w values ih =>
      rw [List.cons_append]
      cases hw : isOption w with
      | false =>
          rw [List.takeWhile_cons_of_pos (by simp [hw]), List.cons_inj_right, ih]
          simp [hw]
      | true =>
          rw [List.takeWhile_cons_of_neg (by simp [hw])]
          simp [hw]

/-- The tools that the agent takes from the arguments. -/
theorem variadicValues_claudeArgv_iff {runner : GoalRunner} (htools : runner.allowed ≠ [])
    (sessionId permissionMode prompt : String) :
    variadicValues "--allowedTools" (claudeArgv runner sessionId permissionMode prompt)
        = runner.allowed ↔
      ∀ t ∈ runner.allowed, isOption t = false := by
  have hargv : ∃ rest, claudeArgv runner sessionId permissionMode prompt
      = "claude" :: "--allowedTools" :: (runner.allowed ++ "--session-id" :: rest) := by
    unfold claudeArgv
    rw [if_neg htools]
    simp only [List.append_assoc, List.cons_append, List.nil_append]
    exact ⟨_, rfl⟩
  obtain ⟨rest, hrest⟩ := hargv
  have hclaude : "claude" ≠ "--allowedTools" := by decide
  rw [hrest]
  unfold variadicValues
  rw [if_neg hclaude]
  unfold variadicValues
  rw [if_pos rfl]
  exact takeWhile_not_option_iff runner.allowed rest (by decide)

/-! ## §3. The intended arguments. -/

/-- The shell starts the agent with the intended arguments, and the words behind
`--allowedTools` up to the next option are the tools. -/
def ExactArgv (contents : String → String) (runner : GoalRunner) (sid : SessionId)
    (seedFile permissionMode : String) : Prop :=
  commandWords (catOutput contents) (launchCommand runner sid.text seedFile permissionMode)
      = some (claudeArgv runner sid.text permissionMode (contents seedFile)) ∧
    (runner.allowed ≠ [] →
      variadicValues "--allowedTools"
        (claudeArgv runner sid.text permissionMode (contents seedFile)) = runner.allowed)

/-- **The arguments are the intended ones, to the shell and to the option parser,
exactly when no tool is an option.** -/
theorem exactArgv_iff (contents : String → String) {runner : GoalRunner}
    (hclaude : runner.usesTemplate = false) (sid : SessionId) (seedFile permissionMode : String) :
    ExactArgv contents runner sid seedFile permissionMode ↔
      ∀ t ∈ runner.allowed, isOption t = false := by
  have hwords := launchCommand_words (catOutput contents) hclaude sid seedFile permissionMode
  rw [promptOf_catOutput] at hwords
  unfold ExactArgv
  constructor
  · rintro ⟨_, hvalues⟩
    by_cases htools : runner.allowed = []
    · rw [htools]
      simp
    · exact (variadicValues_claudeArgv_iff htools _ _ _).mp (hvalues htools)
  · intro hnone
    exact ⟨hwords, fun htools => (variadicValues_claudeArgv_iff htools _ _ _).mpr hnone⟩

/-- A runner with two tools. -/
theorem exactArgv_readTest :
    ExactArgv (fun _ => "# Goal") { allowedTools := ["Read", " Bash(cargo test:*) "] } sampleSession
      "/seeds/1.md" "acceptEdits" :=
  (exactArgv_iff (fun _ => "# Goal") rfl sampleSession "/seeds/1.md" "acceptEdits").mpr
    (by decide)

/-- The second tool ends the list of the tools, and turns the permission checks off. -/
theorem not_exactArgv_dash :
    ¬ ExactArgv (fun _ => "# Goal")
        { allowedTools := ["Read", "--dangerously-skip-permissions"] } sampleSession
        "/seeds/1.md" "acceptEdits" := by
  rintro ⟨_, hvalues⟩
  exact absurd (hvalues (by decide)) (by decide)

end Jmux.Goal
