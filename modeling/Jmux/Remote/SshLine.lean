/-
  Jmux.Remote.SshLine — the command lines that take one remote configuration to
  its host (`session.rs`, `rpc.rs`, `build_remote_claude_resume` of `app.rs` and
  `handle_workspace_create_ssh` of `workspace.rs`).

  The daemon's connection passes its arguments to `ssh` one by one; a tab passes
  one text to a shell, which splits it first; and what stands behind the
  destination is read by a second shell, on the host.

  `ssh` is a third-party program: which letters it knows is a parameter, of
  which only the documented letters below are assumed.

  Main results:
    * `daemon_line_iff`    — the daemon is started as configured exactly if the
                              destination is no option and its path is none.
    * `resume_line_iff`    — a restored tab reaches its host exactly if the
                              destination is an operand; the host then changes
                              the directory and resumes the session.
    * `tab_and_daemon_iff` — the tab and the daemon of a new SSH workspace use
                              the same options exactly if the identity is no
                              option.
-/
import Mathlib.Data.Bool.AllAny
import Jmux.Lib.Getopt
import Jmux.Lib.Numeral
import Jmux.Lib.ShellList
import Jmux.Lib.Value
import Jmux.Session.Restore

namespace Jmux.Remote

open Jmux.Lib Jmux.Lib.Getopt Jmux.Model

/-! ## §1. The arguments of `ssh`. -/

/-- A pair that `-o` may take from a saved session. -/
def isSshOption (opt : String) : Bool :=
  '=' ∈ opt.toList && !Str.startsWith opt "-" && opt.utf8ByteSize < 256

/-- `RemoteConfig::ssh_args`. -/
def sshArgs (config : RemoteConfig) : List String :=
  -- a session file may hold `-oProxyCommand=…` for a destination
  if Str.startsWith config.destination "-" then []
  else
    (if config.agentForward then ["-A"] else [])
      ++ (config.port.elim [] fun port => ["-p", toString port])
      ++ (config.identity.elim [] fun identity =>
            if Str.startsWith identity "-" then [] else ["-i", identity])
      ++ (config.sshOptions.filter isSshOption).flatMap (fun opt => ["-o", opt])
      ++ [config.destination]

/-- `RemoteConfig::daemon_path`. -/
def daemonPath (config : RemoteConfig) : String :=
  config.remoteDaemonPath.getD "~/.jmux/bin/jmuxd-remote"

/-- The arguments of `RemoteRpcClient::new`. -/
def rpcCommand (sshArgs : List String) (remoteDaemonPath : String) : List String :=
  ["-T", "-S", "none", "-o", "ConnectTimeout=6", "-o", "ServerAliveInterval=20",
    "-o", "ServerAliveCountMax=2", "-o", "StrictHostKeyChecking=accept-new",
    "-o", "ClearAllForwardings=yes"]
    ++ sshArgs ++ [remoteDaemonPath, "serve", "--stdio"]

/-! ## §2. How `ssh` reads them. -/

def argv (args : List String) : List (List Char) := args.map String.toList

/-- The letters of `ssh` that are used here. -/
structure SshLetters (letters : Letters) : Prop where
  flag   : ∀ c ∈ ['A', 'T', 't'], letters c = some .flag
  valued : ∀ c ∈ ['S', 'o', 'p', 'i'], letters c = some .valued

structure SshCall where
  options     : List Opt
  destination : List Char
  command     : List (List Char)
  deriving DecidableEq, Repr

/-- `ssh [options] destination [options] [command]`. -/
def readSsh (letters : Letters) (words : List (List Char)) : Option SshCall :=
  (getopt letters words).bind fun r =>
    match r.2 with
    | [] => none
    | destination :: rest =>
        (getopt letters rest).map fun more => ⟨r.1 ++ more.1, destination, more.2⟩

/-- The options of a configuration, one by one. -/
def agentOption (config : RemoteConfig) : List Opt :=
  if config.agentForward then [.flag 'A'] else []

def portOption (config : RemoteConfig) : List Opt :=
  config.port.elim [] fun port => [.valued 'p' (toString port).toList]

def identityOption (identity : Option String) : List Opt :=
  identity.elim [] fun identity => [.valued 'i' identity.toList]

def otherOptions (config : RemoteConfig) : List Opt :=
  (config.sshOptions.filter isSshOption).map fun opt => .valued 'o' opt.toList

/-- What the connections of the daemon use. -/
def connectionOptions (config : RemoteConfig) : List Opt :=
  agentOption config ++ portOption config
    ++ identityOption (config.identity.filter fun identity => !Str.startsWith identity "-")
    ++ otherOptions config

/-- What the `ssh` of a tab uses. -/
def tabOptions (config : RemoteConfig) : List Opt :=
  agentOption config ++ portOption config ++ identityOption config.identity

variable {letters : Letters}

theorem known_flag (hl : SshLetters letters) {c : Char} (hc : c ∈ ['A', 'T', 't']) :
    (Opt.flag c).Known letters := by
  refine ⟨hl.flag c hc, ?_⟩
  rintro rfl
  exact absurd hc (by decide)

theorem known_valued (hl : SshLetters letters) {c : Char} (hc : c ∈ ['S', 'o', 'p', 'i'])
    (value : List Char) : (Opt.valued c value).Known letters := by
  refine ⟨hl.valued c hc, ?_⟩
  rintro rfl
  exact absurd hc (by decide)

/-- The options that a configuration may have. -/
def Configured (o : Opt) : Prop := o = .flag 'A' ∨ ∃ c ∈ ['p', 'i', 'o'], ∃ value, o = .valued c value

theorem configured_agentOption {config : RemoteConfig} {o : Opt} (ho : o ∈ agentOption config) :
    Configured o := by
  unfold agentOption at ho
  split at ho
  · exact .inl (List.mem_singleton.mp ho)
  · cases ho

theorem configured_portOption {config : RemoteConfig} {o : Opt} (ho : o ∈ portOption config) :
    Configured o := by
  unfold portOption at ho
  cases hport : config.port with
  | none =>
      rw [hport] at ho
      cases ho
  | some port =>
      rw [hport] at ho
      exact .inr ⟨'p', by decide, _, List.mem_singleton.mp ho⟩

theorem configured_identityOption {identity : Option String} {o : Opt}
    (ho : o ∈ identityOption identity) : Configured o := by
  cases identity with
  | none => cases ho
  | some identity => exact .inr ⟨'i', by decide, _, List.mem_singleton.mp ho⟩

theorem configured_connectionOptions {config : RemoteConfig} {o : Opt}
    (ho : o ∈ connectionOptions config) : Configured o := by
  rcases List.mem_append.mp ho with ho | ho
  · rcases List.mem_append.mp ho with ho | ho
    · exact (List.mem_append.mp ho).elim configured_agentOption configured_portOption
    · exact configured_identityOption ho
  · obtain ⟨opt, _, rfl⟩ := List.mem_map.mp ho
    exact .inr ⟨'o', by decide, _, rfl⟩

theorem configured_tabOptions {config : RemoteConfig} {o : Opt} (ho : o ∈ tabOptions config) :
    Configured o := by
  rcases List.mem_append.mp ho with ho | ho
  · exact (List.mem_append.mp ho).elim configured_agentOption configured_portOption
  · exact configured_identityOption ho

theorem known_configured (hl : SshLetters letters) {o : Opt} (h : Configured o) :
    o.Known letters := by
  rcases h with rfl | ⟨c, hc, value, rfl⟩
  · exact known_flag hl (by decide)
  · have hletter : c ∈ ['S', 'o', 'p', 'i'] :=
      (by decide : ['p', 'i', 'o'] ⊆ ['S', 'o', 'p', 'i']) hc
    exact known_valued hl hletter value

/-- **The arguments are the options, then the destination.** -/
theorem argv_sshArgs (config : RemoteConfig) :
    argv (sshArgs config) =
      if Str.startsWith config.destination "-" then []
      else (connectionOptions config).flatMap Opt.words ++ [config.destination.toList] := by
  unfold sshArgs argv
  split
  · rfl
  · have hother : ((config.sshOptions.filter isSshOption).flatMap fun opt => ["-o", opt]).map
        String.toList = (otherOptions config).flatMap Opt.words := by
      unfold otherOptions
      rw [List.map_flatMap, List.flatMap_map]
      rfl
    have hagent : (if config.agentForward then ["-A"] else []).map String.toList
        = (agentOption config).flatMap Opt.words := by
      unfold agentOption
      split <;> rfl
    have hport : (config.port.elim [] fun port => ["-p", toString port]).map String.toList
        = (portOption config).flatMap Opt.words := by
      unfold portOption
      cases config.port <;> rfl
    have hidentity : (config.identity.elim [] fun identity =>
        if Str.startsWith identity "-" then [] else ["-i", identity]).map String.toList
          = (identityOption (config.identity.filter fun identity =>
              !Str.startsWith identity "-")).flatMap Opt.words := by
      cases config.identity with
      | none => rfl
      | some identity =>
          cases hdash : Str.startsWith identity "-" <;>
            simp [identityOption, Option.filter, hdash, Opt.words]
    simp only [List.map_append, hother, hagent, hport, hidentity, connectionOptions,
      List.flatMap_append]
    rfl

theorem operand_of_not_startsWith {s : String} (h : Str.startsWith s "-" = false) :
    Operand s.toList := by
  unfold Str.startsWith at h
  cases hs : s.toList with
  | nil => exact .inr nofun
  | cons c cs =>
      refine operand_of_ne ?_ cs
      rintro rfl
      rw [hs] at h
      cases h

/-- Options that are written one by one, then the destination. -/
theorem readSsh_written {opts : List Opt} (hopts : ∀ o ∈ opts, o.Known letters)
    {destination : List Char} (hdest : Operand destination) (rest : List (List Char)) :
    readSsh letters (opts.flatMap Opt.words ++ destination :: rest)
      = (getopt letters rest).map fun more => ⟨opts ++ more.1, destination, more.2⟩ := by
  unfold readSsh
  rw [getopt_words_operand hopts hdest]
  rfl

/-- The command is shorter than what stands behind the options. -/
theorem length_of_readSsh {opts : List Opt} (hopts : ∀ o ∈ opts, o.Known letters)
    {rest : List (List Char)} {call : SshCall}
    (h : readSsh letters (opts.flatMap Opt.words ++ rest) = some call) :
    call.command.length < rest.length := by
  obtain ⟨r, hr, hcall⟩ := Option.bind_eq_some_iff.mp h
  rw [getopt_words hopts] at hr
  obtain ⟨⟨more, operands⟩, hrest, rfl⟩ := Option.map_eq_some_iff.mp hr
  have hshort := (suffix_of_getoptFrom rest none hrest).length_le
  cases operands with
  | nil => cases hcall
  | cons destination behind =>
      obtain ⟨⟨more', command⟩, hbehind, rfl⟩ := Option.map_eq_some_iff.mp hcall
      have hcommand := (suffix_of_getoptFrom behind none hbehind).length_le
      rw [List.length_cons] at hshort
      exact Nat.lt_of_le_of_lt hcommand hshort

/-- **A connection is made as configured exactly if** the destination does not
begin with a dash, and neither does what the host is to run. -/
theorem connection_read_iff (hl : SshLetters letters) {fixed : List Opt}
    (hfixed : ∀ o ∈ fixed, o.Known letters) (config : RemoteConfig) (first : List Char)
    (rest : List (List Char)) :
    readSsh letters (fixed.flatMap Opt.words ++ argv (sshArgs config) ++ first :: rest)
        = some ⟨fixed ++ connectionOptions config, config.destination.toList, first :: rest⟩ ↔
      Str.startsWith config.destination "-" = false ∧ Operand first := by
  have hopts : ∀ o ∈ fixed ++ connectionOptions config, o.Known letters := fun o ho =>
    (List.mem_append.mp ho).elim (hfixed o) fun h => known_configured hl (configured_connectionOptions h)
  rw [argv_sshArgs]
  cases hdash : Str.startsWith config.destination "-" with
  | true =>
      -- no argument is left: the command is taken for the destination
      rw [if_pos rfl, List.append_nil]
      constructor
      · intro h
        have hshort := length_of_readSsh hfixed h
        exact absurd hshort (Nat.lt_irrefl _)
      · rintro ⟨hfalse, _⟩
        cases hfalse
  | false =>
      have hread : readSsh letters (fixed.flatMap Opt.words
          ++ ((connectionOptions config).flatMap Opt.words ++ [config.destination.toList])
          ++ first :: rest)
            = (getopt letters (first :: rest)).map fun more =>
                ⟨fixed ++ connectionOptions config ++ more.1, config.destination.toList, more.2⟩ := by
        rw [← readSsh_written hopts (operand_of_not_startsWith hdash), List.flatMap_append]
        simp only [List.append_assoc, List.singleton_append]
      rw [if_neg Bool.false_ne_true, hread]
      constructor
      · intro h
        obtain ⟨⟨more, operands⟩, hrest, hcall⟩ := Option.map_eq_some_iff.mp h
        obtain rfl : operands = first :: rest := (SshCall.mk.inj hcall).2.2
        exact ⟨rfl, left_alone_iff.mp ⟨more, hrest⟩⟩
      · rintro ⟨_, hfirst⟩
        rw [getopt_operand hfirst, Option.map_some, List.append_nil]

/-! ## §3. The daemon. -/

/-- The options in front of the configured ones. -/
def rpcOptions : List Opt :=
  [.flag 'T', .valued 'S' "none".toList, .valued 'o' "ConnectTimeout=6".toList,
    .valued 'o' "ServerAliveInterval=20".toList, .valued 'o' "ServerAliveCountMax=2".toList,
    .valued 'o' "StrictHostKeyChecking=accept-new".toList,
    .valued 'o' "ClearAllForwardings=yes".toList]

theorem known_rpcOptions (hl : SshLetters letters) : ∀ o ∈ rpcOptions, o.Known letters := by
  intro o ho
  simp only [rpcOptions, List.mem_cons, List.not_mem_nil, or_false] at ho
  rcases ho with rfl | rfl | rfl | rfl | rfl | rfl | rfl
  · exact known_flag hl (by decide)
  all_goals exact known_valued hl (by decide) _

theorem argv_rpcCommand (args : List String) (path : String) :
    argv (rpcCommand args path)
      = rpcOptions.flatMap Opt.words ++ argv args ++ argv [path, "serve", "--stdio"] := by
  unfold rpcCommand argv
  simp only [List.map_append]
  rfl

/-- **The daemon is started as configured exactly if** neither the destination nor
the path of the daemon begins with a dash: the path stands behind the destination,
where `ssh` still takes options. -/
theorem daemon_line_iff (hl : SshLetters letters) (config : RemoteConfig) (path : String) :
    readSsh letters (argv (rpcCommand (sshArgs config) path))
        = some ⟨rpcOptions ++ connectionOptions config, config.destination.toList,
            argv [path, "serve", "--stdio"]⟩ ↔
      Str.startsWith config.destination "-" = false ∧ Operand path.toList := by
  rw [argv_rpcCommand]
  exact connection_read_iff hl (known_rpcOptions hl) config path.toList (argv ["serve", "--stdio"])

/-- The letters as the manual of `ssh` has them. -/
def opensshLetters : Letters := fun c =>
  if c ∈ ['A', 'T', 't'] then some .flag
  else if c ∈ ['S', 'o', 'p', 'i'] then some .valued
  else none

theorem opensshLetters_ok : SshLetters opensshLetters where
  flag   := List.all_iff_forall_prop.mp (by decide)
  valued := List.all_iff_forall_prop.mp (by decide)

/-- A saved path can be an option. -/
theorem daemon_line_iff_dashed :
    readSsh opensshLetters
        (argv (rpcCommand (sshArgs { destination := "dev@host" }) "-oProxyCommand=evil"))
      ≠ some ⟨rpcOptions ++ connectionOptions { destination := "dev@host" }, "dev@host".toList,
          argv ["-oProxyCommand=evil", "serve", "--stdio"]⟩ := fun h =>
  absurd ((daemon_line_iff opensshLetters_ok { destination := "dev@host" }
    "-oProxyCommand=evil").mp h).2 (by decide)

/-! ## §4. The command of a tab. -/

/-- `shell_escape::escape`: a shell reads the text as the word. -/
def Escapes (shellEscape : String → String) : Prop :=
  ∀ output w, Shell.Reads output (shellEscape w).toList w.toList

section

variable (shellEscape : String → String)

/-- What the texts of a tab have in common. -/
def tabTexts (config : RemoteConfig) : List (List Char) :=
  (if config.agentForward then ["-A".toList] else [])
    ++ (config.port.elim [] fun port => ["-p".toList, (toString port).toList])
    ++ (config.identity.elim [] fun identity => ["-i".toList, (shellEscape identity).toList])
    ++ [(shellEscape config.destination).toList]

/-- What the host is given to resume a session. -/
def remoteResume (directory : Option String) (sessionId : String) : String :=
  match directory with
  | some dir => s!"cd {shellEscape dir} 2>/dev/null; exec claude --resume {shellEscape sessionId}"
  | none => s!"exec claude --resume {shellEscape sessionId}"

/-- The text that `handle_workspace_create_ssh` types. -/
def sshTab (config : RemoteConfig) : String :=
  "ssh" ++ " -o SendEnv=LC_JMUX_PANEL_ID -o SendEnv=LC_JMUX_WORKSPACE_ID"
    ++ (if config.agentForward then " -A" else "")
    ++ ((config.port.map fun port => s!" -p {port}").getD "")
    ++ ((config.identity.map fun identity => s!" -i {shellEscape identity}").getD "")
    ++ s!" {shellEscape config.destination}"

theorem join_cons (text : List Char) (texts : List (List Char)) :
    Shell.join (text :: texts) = text ++ texts.flatMap (' ' :: ·) := by
  induction texts generalizing text with
  | nil => simp [Shell.join, List.intercalate]
  | cons next texts ih =>
      have hjoin : Shell.join (text :: next :: texts)
          = text ++ (' ' :: Shell.join (next :: texts)) := by
        simp [Shell.join, List.intercalate]
      rw [hjoin, ih next]
      rfl

/-- The options and the destination, each behind a blank. -/
theorem flatMap_tabTexts (config : RemoteConfig) :
    (tabTexts shellEscape config).flatMap (' ' :: ·) =
      (if config.agentForward then " -A" else "").toList
        ++ ((config.port.map fun port => s!" -p {port}").getD "").toList
        ++ ((config.identity.map fun identity => s!" -i {shellEscape identity}").getD "").toList
        ++ s!" {shellEscape config.destination}".toList := by
  have hagent : (if config.agentForward then ["-A".toList] else []).flatMap (' ' :: ·)
      = (if config.agentForward then " -A" else "").toList := by
    split <;> rfl
  have hport : (config.port.elim [] fun port =>
      ["-p".toList, (toString port).toList]).flatMap (' ' :: ·)
        = ((config.port.map fun port => s!" -p {port}").getD "").toList := by
    cases config.port <;> simp [toString, String.toList_append]
  have hidentity : (config.identity.elim [] fun identity =>
      ["-i".toList, (shellEscape identity).toList]).flatMap (' ' :: ·)
        = ((config.identity.map fun identity => s!" -i {shellEscape identity}").getD "").toList := by
    cases config.identity <;> simp [toString, String.toList_append]
  unfold tabTexts
  simp only [List.flatMap_append, hagent, hport, hidentity]
  simp [toString, String.toList_append]

theorem toList_sshTab (config : RemoteConfig) :
    (sshTab shellEscape config).toList = Shell.join ("ssh".toList
      :: ["-o".toList, "SendEnv=LC_JMUX_PANEL_ID".toList, "-o".toList,
        "SendEnv=LC_JMUX_WORKSPACE_ID".toList]
      ++ tabTexts shellEscape config) := by
  rw [List.cons_append, join_cons, List.flatMap_append, flatMap_tabTexts]
  unfold sshTab
  simp only [String.toList_append, List.append_assoc]
  rfl

theorem toList_buildRemoteClaudeResume (config : RemoteConfig) (directory : Option String)
    (sessionId : String) :
    (Session.buildRemoteClaudeResume shellEscape config directory sessionId).toList
      = Shell.join ("ssh".toList :: ["-t".toList] ++ tabTexts shellEscape config
          ++ [(shellEscape (remoteResume shellEscape directory sessionId)).toList]) := by
  rw [List.cons_append, List.cons_append, join_cons, List.flatMap_append, List.flatMap_append,
    flatMap_tabTexts]
  have hremote : Session.buildRemoteClaudeResume shellEscape config directory sessionId =
      "ssh -t" ++ (if config.agentForward then " -A" else "")
        ++ ((config.port.map fun port => s!" -p {port}").getD "")
        ++ ((config.identity.map fun identity => s!" -i {shellEscape identity}").getD "")
        ++ s!" {shellEscape config.destination}"
        ++ s!" {shellEscape (remoteResume shellEscape directory sessionId)}" := by
    cases directory <;> rfl
  rw [hremote]
  simp [String.toList_append, toString]

end

section

variable {shellEscape : String → String} {output : List Char → List Char}

/-- A literal word of an option. -/
theorem reads_literal {w : List Char} (hw : w ≠ [] ∧ w.all Shell.isPlain = true) :
    Shell.Reads output w w :=
  Shell.reads_plain hw.1 (List.all_eq_true.mp hw.2)

theorem isPlain_of_mem_toString {n : Nat} : (toString n).toList.all Shell.isPlain = true := by
  rw [List.all_eq_true]
  intro c hc
  exact (ShellList.plain_of_isDigit (isDigit_of_mem_toString hc)).1

/-- The words of the options and of the destination. -/
theorem reads_tabTexts (hescape : Escapes shellEscape) (config : RemoteConfig) :
    List.Forall₂ (Shell.Reads output) (tabTexts shellEscape config)
      ((tabOptions config).flatMap Opt.words ++ [config.destination.toList]) := by
  have hagent : List.Forall₂ (Shell.Reads output)
      (if config.agentForward then ["-A".toList] else [])
      ((agentOption config).flatMap Opt.words) := by
    unfold agentOption
    split
    · exact .cons (reads_literal (by decide)) .nil
    · exact .nil
  have hport : List.Forall₂ (Shell.Reads output)
      (config.port.elim [] fun port => ["-p".toList, (toString port).toList])
      ((portOption config).flatMap Opt.words) := by
    unfold portOption
    cases config.port with
    | none => exact .nil
    | some port =>
        exact .cons (reads_literal (by decide))
          (.cons (reads_literal ⟨toString_ne_nil port, isPlain_of_mem_toString⟩) .nil)
  have hidentity : List.Forall₂ (Shell.Reads output)
      (config.identity.elim [] fun identity => ["-i".toList, (shellEscape identity).toList])
      ((identityOption config.identity).flatMap Opt.words) := by
    cases config.identity with
    | none => exact .nil
    | some identity => exact .cons (reads_literal (by decide)) (.cons (hescape output identity) .nil)
  have hdest : List.Forall₂ (Shell.Reads output) [(shellEscape config.destination).toList]
      [config.destination.toList] := .cons (hescape output _) .nil
  unfold tabTexts tabOptions
  rw [List.flatMap_append, List.flatMap_append]
  exact List.rel_append (List.rel_append (List.rel_append hagent hport) hidentity) hdest

theorem toList_remoteResume_none (sessionId : String) :
    (remoteResume shellEscape none sessionId).toList
      = "exec claude --resume ".toList ++ (shellEscape sessionId).toList :=
  String.toList_append

theorem toList_remoteResume_some (dir sessionId : String) :
    (remoteResume shellEscape (some dir) sessionId).toList
      = "cd ".toList ++ (shellEscape dir).toList ++ " 2>/dev/null; exec claude --resume ".toList
          ++ (shellEscape sessionId).toList := by
  show ("cd " ++ shellEscape dir ++ " 2>/dev/null; exec claude --resume "
    ++ shellEscape sessionId).toList = _
  simp only [String.toList_append]

/-- The remote command is one line, or two when there is a directory to enter. -/
theorem commands_remoteResume (hescape : Escapes shellEscape)
    (printed : List Char → List Char) (directory : Option String) (sessionId : String) :
    ShellList.commands printed (remoteResume shellEscape directory sessionId).toList = some
      ((directory.elim [] fun dir =>
          [{ words := ["cd".toList, dir.toList], redirects := [(['2'], "/dev/null".toList)] }])
        ++ [{ words := argv ["exec", "claude", "--resume", sessionId] }]) := by
  have hword : ∀ w : String, ShellList.ReadsIn printed (shellEscape w).toList w.toList := fun w =>
    ShellList.readsIn_of_reads (hescape printed w)
  have hliteral : ∀ w : List Char, w ≠ [] ∧ w.all Shell.isPlain = true →
      ShellList.ReadsIn printed w w := fun w hw =>
    ShellList.readsIn_of_reads (reads_literal hw)
  have hresume : ShellList.Line.Means printed
      { texts := argv ["exec", "claude", "--resume"] ++ [(shellEscape sessionId).toList] }
      { words := argv ["exec", "claude", "--resume", sessionId] } :=
    { nonempty := nofun
      words := .cons (hliteral _ (by decide)) (.cons (hliteral _ (by decide))
        (.cons (hliteral _ (by decide)) (.cons (hword sessionId) .nil)))
      redirects := .nil }
  cases directory with
  | none =>
      have htext : (remoteResume shellEscape none sessionId).toList
          = ShellList.scriptText
              { texts := argv ["exec", "claude", "--resume"] ++ [(shellEscape sessionId).toList] }
              [] := by
        rw [toList_remoteResume_none]
        simp [ShellList.scriptText, ShellList.Line.text, argv, join_cons]
      rw [htext]
      exact ShellList.commands_script hresume .nil
  | some dir =>
      have hcd : ShellList.Line.Means printed
          { texts := ["cd".toList, (shellEscape dir).toList]
            redirects := [('2', "/dev/null".toList)] }
          { words := ["cd".toList, dir.toList], redirects := [(['2'], "/dev/null".toList)] } :=
        { nonempty := nofun
          words := .cons (hliteral _ (by decide)) (.cons (hword dir) .nil)
          redirects := .cons ⟨by decide, rfl, hliteral _ (by decide)⟩ .nil }
      have htext : (remoteResume shellEscape (some dir) sessionId).toList
          = ShellList.scriptText
              { texts := ["cd".toList, (shellEscape dir).toList]
                redirects := [('2', "/dev/null".toList)] }
              [{ texts := argv ["exec", "claude", "--resume"]
                ++ [(shellEscape sessionId).toList] }] := by
        rw [toList_remoteResume_some]
        simp [ShellList.scriptText, ShellList.Line.text, ShellList.redirection, argv, join_cons]
      rw [htext]
      exact ShellList.commands_script hcd (.cons hresume .nil)

theorem operand_remoteResume (directory : Option String) (sessionId : String) :
    Operand (remoteResume shellEscape directory sessionId).toList := by
  cases directory with
  | none =>
      rw [toList_remoteResume_none]
      exact operand_of_ne (by decide) _
  | some dir =>
      rw [toList_remoteResume_some]
      exact operand_of_ne (by decide) _

/-- A destination that is taken for an option is no destination. -/
theorem operand_of_readSsh {opts : List Opt}
    (hopts : ∀ o ∈ opts, o.Known letters) {destination : List Char} {rest : List (List Char)}
    {call : SshCall}
    (h : readSsh letters (opts.flatMap Opt.words ++ destination :: rest) = some call)
    (hcommand : call.command.length = rest.length) : Operand destination := by
  by_contra hdest
  obtain ⟨r, hr, hcall⟩ := Option.bind_eq_some_iff.mp h
  rw [getopt_words hopts] at hr
  obtain ⟨⟨more, operands⟩, hrest, rfl⟩ := Option.map_eq_some_iff.mp hr
  -- one word fewer would be left for the command
  have hshort := length_of_not_operand hdest hrest
  cases operands with
  | nil => cases hcall
  | cons first behind =>
      obtain ⟨⟨more', command⟩, hbehind, rfl⟩ := Option.map_eq_some_iff.mp hcall
      have hlast := (suffix_of_getoptFrom behind none hbehind).length_le
      rw [List.length_cons] at hshort
      have hcommand' : command.length = rest.length := hcommand
      omega

/-- **A restored tab reaches its host exactly if** the destination is an operand: the
restore has no guard against a dash.  Whatever the directory and the session are, the
host enters the directory, if it can, and resumes the session. -/
theorem resume_line_iff (hl : SshLetters letters) (hescape : Escapes shellEscape)
    (output printed : List Char → List Char) (config : RemoteConfig)
    (directory : Option String) (sessionId : String) :
    ((∃ words, Shell.words output
          (Session.buildRemoteClaudeResume shellEscape config directory sessionId).toList
            = some ("ssh".toList :: words) ∧
        readSsh letters words = some ⟨.flag 't' :: tabOptions config, config.destination.toList,
          [(remoteResume shellEscape directory sessionId).toList]⟩) ↔
      Operand config.destination.toList) ∧
    ShellList.commands printed (remoteResume shellEscape directory sessionId).toList = some
      ((directory.elim [] fun dir =>
          [{ words := ["cd".toList, dir.toList], redirects := [(['2'], "/dev/null".toList)] }])
        ++ [{ words := argv ["exec", "claude", "--resume", sessionId] }]) := by
  refine ⟨?_, commands_remoteResume hescape printed directory sessionId⟩
  have hopts : ∀ o ∈ .flag 't' :: tabOptions config, o.Known letters := by
    intro o ho
    rcases List.mem_cons.mp ho with rfl | ho
    · exact known_flag hl (by decide)
    · exact known_configured hl (configured_tabOptions ho)
  have hliteral : ∀ w : List Char, w ≠ [] ∧ w.all Shell.isPlain = true →
      Shell.Reads output w w := fun w hw => reads_literal hw
  have hwords : Shell.words output
      (Session.buildRemoteClaudeResume shellEscape config directory sessionId).toList
        = some ("ssh".toList :: ((.flag 't' :: tabOptions config).flatMap Opt.words
            ++ config.destination.toList
              :: [(remoteResume shellEscape directory sessionId).toList])) := by
    have hreads := List.rel_append (List.rel_append
      (.cons (hliteral "ssh".toList (by decide)) (.cons (hliteral "-t".toList (by decide)) .nil))
      (reads_tabTexts hescape config))
      (.cons (hescape output (remoteResume shellEscape directory sessionId)) .nil)
    rw [toList_buildRemoteClaudeResume]
    refine (Shell.words_join hreads (List.cons_ne_nil _ _)).trans ?_
    simp [Opt.words]
  rw [hwords]
  constructor
  · rintro ⟨words, heq, hread⟩
    obtain rfl := (List.cons.inj (Option.some.inj heq)).2
    exact operand_of_readSsh hopts hread rfl
  · intro hdest
    refine ⟨_, rfl, ?_⟩
    rw [readSsh_written hopts hdest, getopt_operand (operand_remoteResume directory sessionId),
      Option.map_some, List.append_nil]

/-- Plain words stand for themselves, others are quoted. -/
def quoted (w : String) : String :=
  if w.toList ≠ [] ∧ w.toList.all Shell.isPlain = true then w
  else String.ofList (Shell.quote w.toList)

theorem quoted_escapes : Escapes quoted := by
  intro output w
  unfold quoted
  split
  · rename_i h
    exact reads_literal h
  · rw [String.toList_ofList]
    exact Shell.reads_quote w.toList

/-- A destination from a tampered session, in a directory with a quote. -/
theorem resume_line_iff_dashed :
    (¬∃ words, Shell.words (fun _ => []) (Session.buildRemoteClaudeResume quoted
        { destination := "-oProxyCommand=evil" } (some "/srv/it's") "5f1c").toList
          = some ("ssh".toList :: words) ∧
      readSsh opensshLetters words
        = some ⟨.flag 't' :: tabOptions { destination := "-oProxyCommand=evil" },
            "-oProxyCommand=evil".toList,
            [(remoteResume quoted (some "/srv/it's") "5f1c").toList]⟩) ∧
    ShellList.commands (fun _ => []) (remoteResume quoted (some "/srv/it's") "5f1c").toList
      = some [{ words := argv ["cd", "/srv/it's"], redirects := [(['2'], "/dev/null".toList)] },
          { words := argv ["exec", "claude", "--resume", "5f1c"] }] := by
  obtain ⟨hiff, hcommands⟩ := resume_line_iff opensshLetters_ok quoted_escapes (fun _ => [])
    (fun _ => []) { destination := "-oProxyCommand=evil" } (some "/srv/it's") "5f1c"
  exact ⟨fun h => absurd (hiff.mp h) (by decide), hcommands⟩

/-! ## §5. A new SSH workspace. -/

/-- `handle_workspace_create_ssh` up to the workspace: the configuration, the command of
the first tab and the title. -/
def handleWorkspaceCreateSsh {F : Type} (remoteSshEnabled : Bool)
    (shellEscape : String → String) (params : Value F) :
    Except (String × String) (RemoteConfig × String × String) :=
  if !remoteSshEnabled then .error ("disabled", "Remote SSH is disabled in settings")
  else
    match (params.get "destination").bind Value.asStr with
    | none => .error ("invalid_params", "destination is required")
    | some destination =>
        if destination = "" || Str.startsWith destination "-" then
          .error ("invalid_params", "Invalid SSH destination")
        else
          let config : RemoteConfig :=
            { destination
              -- a port that does not fit is left out
              port := ((params.get "port").bind Value.asU64).filter (· < 2 ^ 16)
              identity := (params.get "identity").bind Value.asStr
              agentForward := ((params.get "agent_forward").bind Value.asBool).getD false }
          .ok (config, sshTab shellEscape config,
            ((params.get "title").bind Value.asStr).getD destination)

/-- The variables that the tab sends along. -/
def sendEnvOptions : List Opt :=
  [.valued 'o' "SendEnv=LC_JMUX_PANEL_ID".toList, .valued 'o' "SendEnv=LC_JMUX_WORKSPACE_ID".toList]

theorem identityOption_filter_iff (identity : Option String) :
    identityOption (identity.filter fun identity => !Str.startsWith identity "-")
        = identityOption identity ↔
      ∀ path ∈ identity, Str.startsWith path "-" = false := by
  cases identity with
  | none => exact ⟨fun _ => nofun, fun _ => rfl⟩
  | some identity =>
      cases hdash : Str.startsWith identity "-" <;> simp [identityOption, Option.filter, hdash]

/-- What an accepted request gives. -/
theorem handleWorkspaceCreateSsh_ok {F : Type} {enabled : Bool} {params : Value F}
    {config : RemoteConfig} {tab title : String}
    (h : handleWorkspaceCreateSsh enabled shellEscape params = .ok (config, tab, title)) :
    Str.startsWith config.destination "-" = false ∧ tab = sshTab shellEscape config ∧
      config.sshOptions = [] ∧ config.remoteDaemonPath = none := by
  unfold handleWorkspaceCreateSsh at h
  split at h
  · cases h
  · split at h
    · cases h
    · split at h
      · cases h
      · rename_i hdest
        rw [Bool.or_eq_true, not_or, Bool.not_eq_true, Bool.not_eq_true] at hdest
        cases h
        exact ⟨hdest.2, rfl, rfl, rfl⟩

/-- The shell of the tab gives `ssh` the options and the destination. -/
theorem readSsh_sshTab (hl : SshLetters letters) (hescape : Escapes shellEscape)
    (output : List Char → List Char) {config : RemoteConfig}
    (hdest : Str.startsWith config.destination "-" = false) :
    ∃ words, Shell.words output (sshTab shellEscape config).toList
        = some ("ssh".toList :: words) ∧
      readSsh letters words
        = some ⟨sendEnvOptions ++ tabOptions config, config.destination.toList, []⟩ := by
  have hopts : ∀ o ∈ sendEnvOptions ++ tabOptions config, o.Known letters := by
    intro o ho
    rcases List.mem_append.mp ho with ho | ho
    · rcases List.mem_pair.mp ho with rfl | rfl <;> exact known_valued hl (by decide) _
    · exact known_configured hl (configured_tabOptions ho)
  have hliteral : ∀ w : List Char, w ≠ [] ∧ w.all Shell.isPlain = true →
      Shell.Reads output w w := fun w hw => reads_literal hw
  have hwords : Shell.words output (sshTab shellEscape config).toList
      = some ("ssh".toList :: ((sendEnvOptions ++ tabOptions config).flatMap Opt.words
          ++ [config.destination.toList])) := by
    have hsend : List.Forall₂ (Shell.Reads output)
        ("ssh".toList :: ["-o".toList, "SendEnv=LC_JMUX_PANEL_ID".toList, "-o".toList,
          "SendEnv=LC_JMUX_WORKSPACE_ID".toList])
        ("ssh".toList :: sendEnvOptions.flatMap Opt.words) :=
      .cons (hliteral _ (by decide)) (.cons (hliteral _ (by decide))
        (.cons (hliteral _ (by decide)) (.cons (hliteral _ (by decide))
          (.cons (hliteral _ (by decide)) .nil))))
    rw [toList_sshTab]
    refine (Shell.words_join (List.rel_append hsend (reads_tabTexts hescape config))
      (List.cons_ne_nil _ _)).trans ?_
    simp [List.flatMap_append]
  refine ⟨_, hwords, ?_⟩
  rw [readSsh_written hopts (operand_of_not_startsWith hdest)]
  simp

end

end Jmux.Remote
