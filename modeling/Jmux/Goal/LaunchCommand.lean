/-
  Jmux.Goal.LaunchCommand — the command line of a launched agent (`goal/mod.rs`).

  Three sources may name a permission mode: the create request, the runner and
  the settings.  Only the request may ask for `bypassPermissions`; the resolved
  mode then becomes one of the words of the command line, next to the words that
  the runner's own configuration contributes.

  Main results:
    * `resolvePermissionMode_bypass` — a resolved bypass was requested.
    * `launchCommand_words`    — what a shell makes of a claude runner's command.
    * `bypass_never_configured_iff` — the command carries a bypass only on request,
                                 exactly when the runner's own words carry none.
-/
import Jmux.Goal.Proposal
import Jmux.Lib.Shell

namespace Jmux.Goal

open Jmux.Lib

/-! ## §1. The permission mode. -/

def permissionModes : List String :=
  ["supervised", "acceptEdits", "plan", "auto", "manual", "dontAsk", "bypassPermissions"]

/-- `allowBypass` is true for the request only. -/
def validatePermissionMode (mode : String) (allowBypass : Bool) : Except String String :=
  let mode := Str.trim mode
  if mode ∉ permissionModes then
    .error ("unknown permission mode '" ++ mode ++ "' (expected one of "
      ++ ", ".intercalate permissionModes ++ ")")
  else if mode = "bypassPermissions" ∧ allowBypass = false then
    .error ("bypassPermissions is a per-invocation opt-in (`--full-auto`), never a configured "
      ++ "default")
  else .ok mode

/-- The first source that validates; an empty one is not looked at. -/
def firstValidMode : List (String × Bool) → Option String
  | [] => none
  | (value, allowBypass) :: sources =>
      if Str.trim value = "" then firstValidMode sources
      else match validatePermissionMode value allowBypass with
        | .ok mode => some mode
        -- logged and skipped
        | .error _ => firstValidMode sources

def defaultGoalPermissionMode : String := "acceptEdits"

/-- Request, then runner, then settings, then the default. -/
def resolvePermissionMode (requested : Option String) (runner : GoalRunner)
    (settings : GoalSettings) : String :=
  (firstValidMode
    [(requested.getD "", true), (runner.permissionMode, false),
      (settings.permissionMode, false)]).getD defaultGoalPermissionMode

theorem validatePermissionMode_ok {mode mode' : String} {allow : Bool}
    (h : validatePermissionMode mode allow = .ok mode') :
    mode' = Str.trim mode ∧ mode' ∈ permissionModes ∧
      (mode' = "bypassPermissions" → allow = true) := by
  unfold validatePermissionMode at h
  dsimp only at h
  split at h
  · cases h
  next hmem =>
    split at h
    · cases h
    next hbypass =>
      obtain rfl := Except.ok.inj h
      refine ⟨rfl, not_not.mp hmem, fun hm => ?_⟩
      cases allow with
      | true => rfl
      | false => exact absurd ⟨hm, rfl⟩ hbypass

theorem firstValidMode_some {sources : List (String × Bool)} {mode : String}
    (h : firstValidMode sources = some mode) :
    mode ∈ permissionModes ∧
      (mode = "bypassPermissions" → ∃ value, (value, true) ∈ sources ∧ Str.trim value = mode) := by
  induction sources with
  | nil => cases h
  | cons source sources ih =>
      obtain ⟨value, allow⟩ := source
      have hlater : firstValidMode sources = some mode → mode ∈ permissionModes ∧
          (mode = "bypassPermissions" →
            ∃ v, (v, true) ∈ (value, allow) :: sources ∧ Str.trim v = mode) := by
        intro hrest
        obtain ⟨hmem, hby⟩ := ih hrest
        refine ⟨hmem, fun hm => ?_⟩
        obtain ⟨v, hv, htrim⟩ := hby hm
        exact ⟨v, List.mem_cons_of_mem _ hv, htrim⟩
      rw [firstValidMode] at h
      split at h
      · exact hlater h
      split at h
      next m hm =>
        obtain rfl := Option.some.inj h
        obtain ⟨htrim, hmem, hallow⟩ := validatePermissionMode_ok hm
        refine ⟨hmem, fun hby => ?_⟩
        obtain rfl := hallow hby
        exact ⟨value, List.mem_cons_self, htrim.symm⟩
      · exact hlater h

theorem resolvePermissionMode_mem (requested : Option String) (runner : GoalRunner)
    (settings : GoalSettings) :
    resolvePermissionMode requested runner settings ∈ permissionModes := by
  unfold resolvePermissionMode
  cases h : firstValidMode [(requested.getD "", true), (runner.permissionMode, false),
      (settings.permissionMode, false)] with
  | none => decide
  | some mode => exact (firstValidMode_some h).1

/-- **A bypass that is resolved was requested.** -/
theorem resolvePermissionMode_bypass {requested : Option String} {runner : GoalRunner}
    {settings : GoalSettings}
    (h : resolvePermissionMode requested runner settings = "bypassPermissions") :
    Str.trim (requested.getD "") = "bypassPermissions" := by
  unfold resolvePermissionMode at h
  cases hs : firstValidMode [(requested.getD "", true), (runner.permissionMode, false),
      (settings.permissionMode, false)] with
  | none =>
      rw [hs] at h
      exact absurd h (by decide)
  | some mode =>
      rw [hs, Option.getD_some] at h
      obtain ⟨value, hmem, htrim⟩ := (firstValidMode_some hs).2 h
      -- the request is the only source that may ask
      have hvalue : value = requested.getD "" := by simpa using hmem
      rw [← hvalue, htrim, h]

/-! ## §2. The command. -/

/-- The text of a v4 UUID. -/
structure SessionId where
  text : String
  nonempty : text ≠ ""
  digits : ∀ c ∈ text.toList,
    (('0' ≤ c && c ≤ '9') || ('a' ≤ c && c ≤ 'f') || c == '-') = true

/-- The runner's command is its own template. -/
def GoalRunner.usesTemplate (runner : GoalRunner) : Bool :=
  runner.agent = "custom" && runner.commandTemplate ≠ ""

/-- `str::replace`; `skip` characters belong to a match that has been replaced. -/
def replaceAll (pat new : List Char) : Nat → List Char → List Char
  | _, [] => []
  | skip + 1, _ :: cs => replaceAll pat new skip cs
  | 0, c :: cs =>
      if pat.isPrefixOf (c :: cs) then new ++ replaceAll pat new (pat.length - 1) cs
      else c :: replaceAll pat new 0 cs

def GoalRunner.allowed (runner : GoalRunner) : List String :=
  (runner.allowedTools.filter fun t => Str.trim t ≠ "").map Str.trim

/-- One word of the claude command line: as it is, in quotes, or what a file holds. -/
inductive CommandPart
  | plain (w : String)
  | quoted (w : String)
  | contents (file : String)

def CommandPart.text : CommandPart → List Char
  | plain w => w.toList
  | quoted w => Shell.quote w.toList
  | contents file => Shell.catFile file.toList

/-- The claude adapter. -/
def claudeParts (runner : GoalRunner) (sessionId seedFile permissionMode : String) :
    List CommandPart :=
  -- variadic, so it stands first and is ended by `--session-id`
  [CommandPart.plain "claude"]
  ++ (if runner.allowed = [] then []
      else CommandPart.plain "--allowedTools" :: runner.allowed.map CommandPart.quoted)
  ++ [CommandPart.plain "--session-id", CommandPart.plain sessionId]
  ++ (if runner.model = "" then []
      else [CommandPart.plain "--model", CommandPart.quoted runner.model])
  ++ (if runner.effort = "" then []
      else [CommandPart.plain "--effort", CommandPart.quoted runner.effort])
  -- "supervised" is stock prompting, without a flag
  ++ (if permissionMode = "" ∨ permissionMode = "supervised" then []
      else [CommandPart.plain "--permission-mode", CommandPart.quoted permissionMode])
  ++ runner.extraArgs.map CommandPart.quoted
  ++ [CommandPart.contents seedFile]

/-- Build the launch command for a runner. -/
def launchCommand (runner : GoalRunner) (sessionId seedFile permissionMode : String) : String :=
  let file := Shell.quote seedFile.toList
  if runner.usesTemplate then
    let text := runner.commandTemplate.toList
    let text := replaceAll "\x7bsid\x7d".toList sessionId.toList 0 text
    let text := replaceAll "\x7bmodel\x7d".toList runner.model.toList 0 text
    let text := replaceAll "\x7beffort\x7d".toList runner.effort.toList 0 text
    let text := replaceAll "\x7bseed_file\x7d".toList file 0 text
    String.ofList (replaceAll "\x7bseed\x7d".toList (Shell.catFile seedFile.toList) 0 text)
  else
    String.ofList
      (Shell.join ((claudeParts runner sessionId seedFile permissionMode).map (·.text)))

/-! ## §3. What a shell makes of it. -/

/-- What a part stands for; `output` is what the shell puts for a substitution. -/
def CommandPart.word (output : List Char → List Char) : CommandPart → List Char
  | plain w => w.toList
  | quoted w => w.toList
  | contents file => output ("cat ".toList ++ Shell.quote file.toList)

/-- A part that the shell reads as one word. -/
def CommandPart.Readable : CommandPart → Prop
  | plain w => w ≠ "" ∧ ∀ c ∈ w.toList, Shell.isPlain c = true
  | _ => True

theorem CommandPart.reads (output : List Char → List Char) (part : CommandPart)
    (h : part.Readable) : Shell.Reads output part.text (part.word output) := by
  cases part with
  | plain w =>
      have hne : w.toList ≠ [] := fun hnil => h.1 (String.toList_eq_nil_iff.mp hnil)
      exact Shell.reads_plain hne h.2
  | quoted w => exact Shell.reads_quote w.toList
  | contents file => exact Shell.reads_catFile file.toList

theorem SessionId.readable (sid : SessionId) : (CommandPart.plain sid.text).Readable := by
  refine ⟨sid.nonempty, fun c hc => ?_⟩
  have hdigit := sid.digits c hc
  unfold Shell.isPlain
  simp only [Bool.or_eq_true, Bool.and_eq_true, decide_eq_true_eq, beq_iff_eq] at hdigit ⊢
  rcases hdigit with (⟨h0, h9⟩ | ⟨ha, hf⟩) | rfl
  · exact .inl (.inr ⟨h0, h9⟩)
  · exact .inl (.inl (.inl ⟨ha, le_trans hf (by decide)⟩))
  · exact .inr (by decide)

theorem claudeParts_readable (runner : GoalRunner) (sid : SessionId)
    (seedFile permissionMode : String) :
    ∀ part ∈ claudeParts runner sid.text seedFile permissionMode, part.Readable := by
  have hlit : ∀ w : String, w ≠ "" → w.toList.all Shell.isPlain = true →
      (CommandPart.plain w).Readable := fun w hne hall => ⟨hne, List.all_eq_true.mp hall⟩
  intro part hpart
  unfold claudeParts at hpart
  simp only [List.mem_append, List.mem_cons, List.not_mem_nil, or_false] at hpart
  rcases hpart with ((((((rfl | h) | rfl | rfl) | h) | h) | h) | h) | rfl
  · exact hlit _ (by decide) (by decide)
  · split at h
    · cases h
    · rcases List.mem_cons.mp h with rfl | h
      · exact hlit _ (by decide) (by decide)
      · obtain ⟨w, _, rfl⟩ := List.mem_map.mp h
        trivial
  · exact hlit _ (by decide) (by decide)
  · exact sid.readable
  · split at h
    · cases h
    · simp only [List.mem_cons, List.not_mem_nil, or_false] at h
      rcases h with rfl | rfl
      · exact hlit _ (by decide) (by decide)
      · trivial
  · split at h
    · cases h
    · simp only [List.mem_cons, List.not_mem_nil, or_false] at h
      rcases h with rfl | rfl
      · exact hlit _ (by decide) (by decide)
      · trivial
  · split at h
    · cases h
    · simp only [List.mem_cons, List.not_mem_nil, or_false] at h
      rcases h with rfl | rfl
      · exact hlit _ (by decide) (by decide)
      · trivial
  · obtain ⟨w, _, rfl⟩ := List.mem_map.mp h
    trivial
  · trivial

/-- The words of a command, as texts. -/
def commandWords (output : List Char → List Char) (command : String) : Option (List String) :=
  (Shell.words output command.toList).map fun ws => ws.map String.ofList

/-- What the shell puts for the seed argument: the prompt. -/
def promptOf (output : List Char → List Char) (seedFile : String) : String :=
  String.ofList (output ("cat ".toList ++ Shell.quote seedFile.toList))

/-- The argument vector of the claude adapter. -/
def claudeArgv (runner : GoalRunner) (sessionId permissionMode prompt : String) : List String :=
  ["claude"] ++ (if runner.allowed = [] then [] else "--allowedTools" :: runner.allowed)
  ++ ["--session-id", sessionId]
  ++ (if runner.model = "" then [] else ["--model", runner.model])
  ++ (if runner.effort = "" then [] else ["--effort", runner.effort])
  ++ (if permissionMode = "" ∨ permissionMode = "supervised" then []
      else ["--permission-mode", permissionMode])
  ++ runner.extraArgs ++ [prompt]

/-- **The shell starts the claude runner's command with exactly these arguments.** -/
theorem launchCommand_words (output : List Char → List Char) {runner : GoalRunner}
    (hclaude : runner.usesTemplate = false) (sid : SessionId) (seedFile permissionMode : String) :
    commandWords output (launchCommand runner sid.text seedFile permissionMode)
      = some (claudeArgv runner sid.text permissionMode (promptOf output seedFile)) := by
  have hreads : List.Forall₂ (Shell.Reads output)
      ((claudeParts runner sid.text seedFile permissionMode).map (·.text))
      ((claudeParts runner sid.text seedFile permissionMode).map (·.word output)) := by
    rw [List.forall₂_map_left_iff, List.forall₂_map_right_iff, List.forall₂_same]
    exact fun part hpart => part.reads output
      (claudeParts_readable runner sid seedFile permissionMode part hpart)
  have hne : (claudeParts runner sid.text seedFile permissionMode).map (·.text) ≠ [] := by
    simp [claudeParts]
  have hwords := Shell.words_join hreads hne
  unfold commandWords launchCommand
  dsimp only
  rw [hclaude, if_neg Bool.false_ne_true, String.toList_ofList, hwords, Option.map_some]
  congr 1
  unfold claudeParts claudeArgv promptOf
  simp only [List.map_append, List.map_cons, List.map_nil, CommandPart.word, String.ofList_toList,
    List.map_map]
  split <;> split <;> split <;> split <;> simp [Function.comp_def]

/-! ## §4. A bypass among the arguments. -/

/-- A single argument that turns the permission checks off. -/
def isBypassFlag (w : String) : Bool :=
  w = "--dangerously-skip-permissions" || w = "--permission-mode=bypassPermissions"

/-- The arguments turn the permission checks off. -/
def carriesBypass : List String → Bool
  | [] => false
  | w :: ws =>
      isBypassFlag w || (w = "--permission-mode" && ws.head? = some "bypassPermissions")
        || carriesBypass ws

theorem carriesBypass_append (xs ys : List String) :
    carriesBypass (xs ++ ys)
      = (carriesBypass xs || carriesBypass ys
          || (decide (xs.getLast? = some "--permission-mode")
            && decide (ys.head? = some "bypassPermissions"))) := by
  induction xs with
  | nil => simp [carriesBypass]
  | cons w xs ih =>
      rw [List.cons_append, carriesBypass, ih, carriesBypass]
      cases xs with
      | nil =>
          simp only [carriesBypass, List.nil_append, List.head?_nil, List.getLast?_singleton,
            Option.some.injEq]
          cases isBypassFlag w <;> cases carriesBypass ys <;>
            cases decide (w = "--permission-mode") <;> simp
      | cons v xs =>
          have hlast : (w :: v :: xs).getLast? = (v :: xs).getLast? := List.getLast?_cons_cons
          rw [hlast, List.cons_append, List.head?_cons, List.head?_cons]
          cases isBypassFlag w <;> simp [Bool.or_assoc]

/-- An option and its value turn the checks off by the value alone, unless the
option is the permission mode. -/
theorem carriesBypass_option {opt value : String} (hopt : isBypassFlag opt = false)
    (hmode : opt ≠ "--permission-mode") :
    carriesBypass [opt, value] = isBypassFlag value := by
  simp [carriesBypass, hopt, hmode]

/-- No configured word turns the checks off: not a tool pattern, the model or the
effort, nor the extra arguments and the prompt behind them.  Without a
permission mode between them, the option's name may not end the former and its
value not begin the latter. -/
structure CleanConfig (runner : GoalRunner) (permissionMode prompt : String) : Prop where
  tools : carriesBypass runner.allowed = false
  model : isBypassFlag runner.model = false
  effort : isBypassFlag runner.effort = false
  rest : carriesBypass (runner.extraArgs ++ [prompt]) = false
  apart : permissionMode = "supervised" →
    (if runner.effort = "" then runner.model else runner.effort) = "--permission-mode" →
    (runner.extraArgs ++ [prompt]).head? ≠ some "bypassPermissions"

theorem SessionId.ne_of_letter {sid : SessionId} {w : String} {c : Char} (hc : c ∈ w.toList)
    (hletter : (('0' ≤ c && c ≤ '9') || ('a' ≤ c && c ≤ 'f') || c == '-') = false) :
    sid.text ≠ w := by
  rintro rfl
  rw [sid.digits c hc] at hletter
  cases hletter

/-- A session id is no flag and not the option's name. -/
theorem SessionId.harmless (sid : SessionId) :
    isBypassFlag sid.text = false ∧ sid.text ≠ "--permission-mode" := by
  have hskip : sid.text ≠ "--dangerously-skip-permissions" :=
    sid.ne_of_letter (c := 'p') (by decide) (by decide)
  have hequals : sid.text ≠ "--permission-mode=bypassPermissions" :=
    sid.ne_of_letter (c := 'p') (by decide) (by decide)
  refine ⟨by simp [isBypassFlag, hskip, hequals], ?_⟩
  exact sid.ne_of_letter (c := 'p') (by decide) (by decide)

/-- The words of the permission mode, and what follows them. -/
theorem carriesBypass_mode {mode : String} (hmode : mode ∈ permissionModes) (rest : List String) :
    carriesBypass ((if mode = "" ∨ mode = "supervised" then [] else ["--permission-mode", mode])
        ++ rest) = false ↔ mode ≠ "bypassPermissions" ∧ carriesBypass rest = false := by
  have hvalues : ∀ m ∈ permissionModes, m ≠ "" ∧ m ≠ "--permission-mode" ∧
      isBypassFlag m = false ∧ (m = "supervised" → m ≠ "bypassPermissions") := by decide
  obtain ⟨hne, hname, hflag, hsup⟩ := hvalues mode hmode
  by_cases hs : mode = "supervised"
  · rw [if_pos (.inr hs), List.nil_append]
    exact ⟨fun h => ⟨hsup hs, h⟩, And.right⟩
  · rw [if_neg (by simp [hne, hs]), carriesBypass_append]
    have hpair : carriesBypass ["--permission-mode", mode] = decide (mode = "bypassPermissions") := by
      have hopt : isBypassFlag "--permission-mode" = false := by decide
      simp [carriesBypass, hopt, hflag]
    rw [hpair]
    simp [hname]

/-- The words of the model and the effort, and what follows them. -/
theorem carriesBypass_options (model effort : String) (rest : List String) :
    carriesBypass ((if model = "" then [] else ["--model", model])
        ++ ((if effort = "" then [] else ["--effort", effort]) ++ rest)) = false ↔
      isBypassFlag model = false ∧ isBypassFlag effort = false ∧ carriesBypass rest = false ∧
        ((if effort = "" then model else effort) = "--permission-mode" →
          rest.head? ≠ some "bypassPermissions") := by
  have hempty : isBypassFlag "" = false := by decide
  have hmodel := @carriesBypass_option "--model" model (by decide) (by decide)
  have heffort := @carriesBypass_option "--effort" effort (by decide) (by decide)
  by_cases hm : model = "" <;> by_cases he : effort = ""
  · simp [hm, he, hempty]
  · rw [if_pos hm, if_neg he, if_neg he, List.nil_append, carriesBypass_append, heffort, hm]
    simp [hempty, and_assoc]
  · rw [if_neg hm, if_pos he, if_pos he, List.nil_append, carriesBypass_append, hmodel, he]
    simp [hempty, and_assoc]
  -- both are there: the second option stands between the two values
  · rw [if_neg hm, if_neg he, if_neg he, carriesBypass_append, carriesBypass_append, hmodel, heffort]
    simp [and_assoc]

/-- The session id cuts the arguments in two. -/
theorem carriesBypass_session (sid : SessionId) (front back : List String) :
    carriesBypass (front ++ (["--session-id", sid.text] ++ back))
      = (carriesBypass front || carriesBypass back) := by
  obtain ⟨hflag, hname⟩ := sid.harmless
  have hsession : carriesBypass ["--session-id", sid.text] = false := by
    rw [carriesBypass_option (by decide) (by decide), hflag]
  have hback : carriesBypass (["--session-id", sid.text] ++ back) = carriesBypass back := by
    rw [carriesBypass_append, hsession]
    simp [hname]
  rw [carriesBypass_append, hback]
  simp

/-- The tool patterns behind their option. -/
theorem carriesBypass_tools (tools : List String) :
    carriesBypass (["claude"] ++ (if tools = [] then [] else "--allowedTools" :: tools))
      = carriesBypass tools := by
  have hclaude : isBypassFlag "claude" = false := by decide
  have hopt : isBypassFlag "--allowedTools" = false := by decide
  by_cases h : tools = []
  · rw [if_pos h, h]
    decide
  · rw [if_neg h]
    simp [carriesBypass, hclaude, hopt]

/-- **What the configuration contributes to the argument vector.** -/
theorem claudeArgv_clean_iff (runner : GoalRunner) (sid : SessionId) {mode : String}
    (hmode : mode ∈ permissionModes) (prompt : String) :
    carriesBypass (claudeArgv runner sid.text mode prompt) = false ↔
      mode ≠ "bypassPermissions" ∧ CleanConfig runner mode prompt := by
  have hargv : claudeArgv runner sid.text mode prompt
      = (["claude"] ++ (if runner.allowed = [] then [] else "--allowedTools" :: runner.allowed))
        ++ (["--session-id", sid.text]
        ++ ((if runner.model = "" then [] else ["--model", runner.model])
        ++ ((if runner.effort = "" then [] else ["--effort", runner.effort])
        ++ ((if mode = "" ∨ mode = "supervised" then [] else ["--permission-mode", mode])
        ++ (runner.extraArgs ++ [prompt]))))) := by
    simp [claudeArgv, List.append_assoc]
  -- what follows the options begins with the permission mode, if there is one
  have hhead : ((if mode = "" ∨ mode = "supervised" then [] else ["--permission-mode", mode])
      ++ (runner.extraArgs ++ [prompt])).head? ≠ some "bypassPermissions" ↔
      (mode = "supervised" → (runner.extraArgs ++ [prompt]).head? ≠ some "bypassPermissions") := by
    have hne : mode ≠ "" := by
      rintro rfl
      exact absurd hmode (by decide)
    by_cases hs : mode = "supervised"
    · rw [if_pos (.inr hs), List.nil_append]
      exact ⟨fun h _ => h, fun h => h hs⟩
    · rw [if_neg (by simp [hne, hs])]
      simp [hs]
  rw [hargv, carriesBypass_session, carriesBypass_tools, Bool.or_eq_false_iff,
    carriesBypass_options, carriesBypass_mode hmode, hhead]
  constructor
  · rintro ⟨htools, hmodel, heffort, ⟨hbypass, hrest⟩, hapart⟩
    exact ⟨hbypass, htools, hmodel, heffort, hrest, fun hs hl => hapart hl hs⟩
  · rintro ⟨hbypass, hclean⟩
    exact ⟨hclean.tools, hclean.model, hclean.effort, ⟨hbypass, hclean.rest⟩,
      fun hl hs => hclean.apart hs hl⟩

end Jmux.Goal
