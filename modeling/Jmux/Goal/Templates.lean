/-
  Jmux.Goal.Templates — the placeholders of the seed and of a custom command.

  `compose_seed` and the custom branch of `launch_command` (`goal/mod.rs`) fill in a
  template by one `str::replace` after the other.  A later replacement reads what
  the earlier ones have put in, so a value may be expanded itself, or make a
  placeholder together with the text around it.

  Main result:
    * `templates_simultaneous` — the placeholders are filled in at once if no
                                 replacement finds one that the template has not.
-/
import Jmux.Goal.LaunchCommand
import Jmux.Lib.Placeholders

namespace Jmux.Goal

open Jmux.Lib Jmux.Lib.Placeholders

/-! ## §1. `compose_seed`. -/

/-- Where the agent finds the report that it continues from. -/
def feedbackText : Option String → String
  | some rel =>
      "\nA previous iteration exists: read `" ++ rel ++ "` (especially section 4, "
        ++ "Feedback) and address it before anything else.\n"
  | none => ""

/-- The reports of the completed upstream work. -/
def upstreamText (upstreamRefs : List String) : String :=
  if upstreamRefs = [] then ""
  else
    let list := "\n".intercalate (upstreamRefs.map fun r => "- `" ++ r ++ "`")
    "\nThis goal depends on completed upstream work. Read these iteration "
      ++ "reports first (sections 3 and 4 carry the hand-off):\n" ++ list ++ "\n"

/-- What a seed is composed of. -/
structure SeedValues where
  goalName : String
  goalText : String
  iteration : Nat
  outputDirRel : String
  feedbackRef : Option String := none
  upstreamRefs : List String := []

/-- `compose_seed`; the template is the guidance document. -/
def composeSeed (template : String) (values : SeedValues) : String :=
  let feedback := feedbackText values.feedbackRef
  let upstream := upstreamText values.upstreamRefs
  let text := template.toList
  let text := replaceAll "\x7bgoal_name\x7d".toList values.goalName.toList 0 text
  let text := replaceAll "\x7biteration\x7d".toList (toString values.iteration).toList 0 text
  let text := replaceAll "\x7boutput_path\x7d".toList
    (iterationRel values.outputDirRel values.iteration).toList 0 text
  let text := replaceAll "\x7bfeedback\x7d".toList feedback.toList 0 text
  let text := replaceAll "\x7bupstream\x7d".toList upstream.toList 0 text
  String.ofList (replaceAll "\x7bgoal_text\x7d".toList values.goalText.toList 0 text)

/-! ## §2. The placeholders. -/

inductive SeedHole
  | goalName | iteration | outputPath | feedback | upstream | goalText
  deriving DecidableEq

/-- In the order of the replacements. -/
def SeedHole.order : List SeedHole :=
  [.goalName, .iteration, .outputPath, .feedback, .upstream, .goalText]

def SeedHole.name : SeedHole → List Char
  | goalName => "\x7bgoal_name\x7d".toList
  | iteration => "\x7biteration\x7d".toList
  | outputPath => "\x7boutput_path\x7d".toList
  | feedback => "\x7bfeedback\x7d".toList
  | upstream => "\x7bupstream\x7d".toList
  | goalText => "\x7bgoal_text\x7d".toList

def SeedValues.value (values : SeedValues) : SeedHole → List Char
  | .goalName => values.goalName.toList
  | .iteration => (toString values.iteration).toList
  | .outputPath => (iterationRel values.outputDirRel values.iteration).toList
  | .feedback => (feedbackText values.feedbackRef).toList
  | .upstream => (upstreamText values.upstreamRefs).toList
  | .goalText => values.goalText.toList

inductive CommandHole
  | sid | model | effort | seedFile | seed
  deriving DecidableEq

def CommandHole.order : List CommandHole := [.sid, .model, .effort, .seedFile, .seed]

def CommandHole.name : CommandHole → List Char
  | sid => "\x7bsid\x7d".toList
  | model => "\x7bmodel\x7d".toList
  | effort => "\x7beffort\x7d".toList
  | seedFile => "\x7bseed_file\x7d".toList
  | seed => "\x7bseed\x7d".toList

/-- What a custom command's placeholders stand for. -/
def GoalRunner.commandValue (runner : GoalRunner) (sessionId seedFile : String) :
    CommandHole → List Char
  | .sid => sessionId.toList
  | .model => runner.model.toList
  | .effort => runner.effort.toList
  | .seedFile => Shell.quote seedFile.toList
  | .seed => Shell.catFile seedFile.toList

section
variable {ι : Type*} [DecidableEq ι] (name value : ι → List Char)

/-- The placeholders of a template replaced at once, each by its value. -/
def filledAtOnce (order : List ι) (template : List Char) : List Char :=
  fill name value order (tokens name order 0 template)

/-- Whenever it is a placeholder's turn, the text reads as this placeholder only
where the template has it; the ones before it are filled in, the others are not. -/
def NoneMadeUp (order : List ι) (template : List Char) : Prop :=
  ∀ k : Fin order.length,
    OwnOnly name value (order.take k) (order.get k) (tokens name order 0 template)

/-! ## §3. One replacement. -/

variable {name value}

theorem replaceAll_skip {pat new : List Char} (s rest : List Char) :
    replaceAll pat new s.length (s ++ rest) = replaceAll pat new 0 rest := by
  induction s with
  | nil => rfl
  | cons c s ih =>
      rw [List.length_cons, List.cons_append, replaceAll]
      exact ih

theorem replaceAll_match {pat new : List Char} (hpat : pat ≠ []) (rest : List Char) :
    replaceAll pat new 0 (pat ++ rest) = new ++ replaceAll pat new 0 rest := by
  cases pat with
  | nil => exact absurd rfl hpat
  | cons c pat =>
      have hprefix : (c :: pat).isPrefixOf (c :: (pat ++ rest)) = true :=
        List.isPrefixOf_iff_prefix.mpr (List.prefix_append (c :: pat) rest)
      rw [List.cons_append, replaceAll, if_pos hprefix]
      exact congrArg (new ++ ·) (replaceAll_skip pat rest)

/-- What does not read as the pattern is left as it is. -/
theorem replaceAll_append {pat new s rest : List Char}
    (hnone : ∀ a b, s = a ++ b → b ≠ [] → ¬ pat <+: b ++ rest) :
    replaceAll pat new 0 (s ++ rest) = s ++ replaceAll pat new 0 rest := by
  induction s with
  | nil => rfl
  | cons c s ih =>
      have hc : ¬ pat.isPrefixOf (c :: (s ++ rest)) = true := fun h =>
        hnone [] (c :: s) rfl (List.cons_ne_nil c s) (List.isPrefixOf_iff_prefix.mp h)
      have hrest := ih fun a b hsplit hb => hnone (c :: a) b (by rw [hsplit]; rfl) hb
      rw [List.cons_append, replaceAll, if_neg hc, hrest]
      rfl

/-- **A replacement that finds the template's own placeholders only fills them in.** -/
theorem replaceAll_fill {filled : List ι} {i : ι} (hi : i ∉ filled) (hname : name i ≠ [])
    {ts : List (Token ι)} (hown : OwnOnly name value filled i ts) :
    replaceAll (name i) (value i) 0 (fill name value filled ts)
      = fill name value (filled ++ [i]) ts := by
  induction ts with
  | nil => rfl
  | cons t ts ih =>
      have hrest := ih (hown.tail hi hname)
      rw [fill_cons, fill_cons, ← hrest]
      by_cases ht : t = .hole i
      · rw [ht, piece_hole_of_notMem name value hi, replaceAll_match hname]
        refine congrArg (· ++ _) (Eq.symm (if_pos ?_))
        simp
      · rw [piece_concat_of_ne name value ht]
        exact replaceAll_append fun a b hsplit hb hreads => ht (hown.head hsplit hb hreads)

/-! ## §4. One replacement after the other. -/

theorem foldl_replaceAll_fill {ts : List (Token ι)} (hname : ∀ i, name i ≠ [])
    (rest filled : List ι) (hnodup : (filled ++ rest).Nodup)
    (hown : ∀ front i back, rest = front ++ i :: back → OwnOnly name value (filled ++ front) i ts) :
    rest.foldl (fun text i => replaceAll (name i) (value i) 0 text) (fill name value filled ts)
      = fill name value (filled ++ rest) ts := by
  induction rest generalizing filled with
  | nil => rw [List.append_nil, List.foldl_nil]
  | cons i rest ih =>
      have hi : i ∉ filled := fun hmem =>
        (List.nodup_append.mp hnodup).2.2 i hmem i List.mem_cons_self rfl
      have hfirst := hown [] i rest rfl
      rw [List.append_nil] at hfirst
      rw [List.foldl_cons, replaceAll_fill hi (hname i) hfirst,
        ih (filled ++ [i]) (by simpa using hnodup)]
      · rw [List.append_assoc, List.singleton_append]
      · intro front j back hsplit
        rw [List.append_assoc, List.singleton_append]
        exact hown (i :: front) j back (by rw [hsplit]; rfl)

theorem foldl_replaceAll_eq {order : List ι} (hname : ∀ i, name i ≠ []) (hnodup : order.Nodup)
    {template : List Char} (hnone : NoneMadeUp name value order template) :
    order.foldl (fun text i => replaceAll (name i) (value i) 0 text) template
      = filledAtOnce name value order template := by
  have hstart : fill name value [] (tokens name order 0 template) = template := by
    rw [fill_tokens name value (fun i _ => hname i), List.drop_zero]
  have hown : ∀ front i back, order = front ++ i :: back →
      OwnOnly name value ([] ++ front) i (tokens name order 0 template) := by
    rintro front i back rfl
    have hk := hnone ⟨front.length, by simp⟩
    simpa using hk
  conv_lhs => rw [← hstart]
  exact foldl_replaceAll_fill hname order [] hnodup hown

end

/-! ## §5. The two templates. -/

/-- Every replacement that composes the seed finds the template's own placeholders only. -/
def SeedApart (template : String) (values : SeedValues) : Prop :=
  NoneMadeUp SeedHole.name values.value SeedHole.order template.toList

/-- The same for the replacements in a custom command. -/
def CommandApart (runner : GoalRunner) (sessionId seedFile : String) : Prop :=
  NoneMadeUp CommandHole.name (runner.commandValue sessionId seedFile) CommandHole.order
    runner.commandTemplate.toList

/-- The seed is the guidance template with its placeholders replaced at once. -/
def SeedAtOnce (template : String) (values : SeedValues) : Prop :=
  (composeSeed template values).toList
    = filledAtOnce SeedHole.name values.value SeedHole.order template.toList

/-- The command is the runner's template with its placeholders replaced at once. -/
def CommandAtOnce (runner : GoalRunner) (sessionId seedFile permissionMode : String) : Prop :=
  (launchCommand runner sessionId seedFile permissionMode).toList
    = filledAtOnce CommandHole.name (runner.commandValue sessionId seedFile) CommandHole.order
        runner.commandTemplate.toList

/-- **Substitution is simultaneous if no replacement finds a placeholder that the
template has not**, in the seed and in a custom command. -/
theorem templates_simultaneous (template : String) (values : SeedValues) (runner : GoalRunner)
    (sessionId seedFile permissionMode : String) :
    (SeedApart template values → SeedAtOnce template values) ∧
      (runner.usesTemplate = true → CommandApart runner sessionId seedFile →
        CommandAtOnce runner sessionId seedFile permissionMode) := by
  constructor
  · intro hapart
    have hname : ∀ i : SeedHole, i.name ≠ [] := fun i => by cases i <;> decide
    have hfold := foldl_replaceAll_eq hname (by decide) hapart
    unfold SeedAtOnce composeSeed
    rw [← hfold]
    exact String.toList_ofList
  · intro htemplate hapart
    have hname : ∀ i : CommandHole, i.name ≠ [] := fun i => by cases i <;> decide
    have hfold := foldl_replaceAll_eq hname (by decide) hapart
    unfold CommandAtOnce launchCommand
    rw [← hfold, if_pos htemplate]
    exact String.toList_ofList

/-- A goal's name in braces, and a goal text with the name of a placeholder that has
been replaced before. -/
def bracedGoal : SeedValues where
  goalName := "\x7bmap\x7d"
  goalText := "for \x7bgoal_name\x7d"
  iteration := 2
  outputDirRel := "docs"

def codexRunner : GoalRunner where
  agent := "custom"
  commandTemplate := "codex \x7bmodel\x7d \x7bseed\x7d"
  model := "o"

theorem templates_simultaneous_codex :
    SeedAtOnce "\x7bgoal_name\x7d \x7biteration\x7d: \x7bgoal_text\x7d" bracedGoal ∧
      CommandAtOnce codexRunner "a" "/s" "plan" := by
  have hboth := templates_simultaneous "\x7bgoal_name\x7d \x7biteration\x7d: \x7bgoal_text\x7d"
    bracedGoal codexRunner "a" "/s" "plan"
  refine ⟨hboth.1 fun k => ownOnly_of_checkOwn ?_ ?_,
    hboth.2 (by decide) fun k => ownOnly_of_checkOwn ?_ ?_⟩
  · revert k
    decide
  · revert k
    decide
  · revert k
    decide
  · revert k
    decide

/-- A goal whose name is a placeholder, and a model that is one. -/
theorem not_simultaneous :
    ¬ SeedAtOnce "\x7bgoal_name\x7d"
        { goalName := "\x7bgoal_text\x7d", goalText := "x", iteration := 1, outputDirRel := "docs" } ∧
      ¬ CommandAtOnce
        { agent := "custom", commandTemplate := "codex \x7bmodel\x7d", model := "\x7bseed\x7d" }
        "a" "/s" "plan" := by
  unfold SeedAtOnce CommandAtOnce
  decide

end Jmux.Goal
