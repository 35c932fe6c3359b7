/-
  Jmux.Socket.ShellReport — what the shell integration reports
  (`jmux-bash-integration.bash`), and what the V1 parser reads of it.

  The shell puts the directory in quotes, the branch and the checks as they are;
  the checks are the text of Python's `json.dumps`.  `str.upper` of Python and the
  JSON parser of the server are parameters.

  Main results:
    * `parse_report`              — a report whose word is read as one token.
    * `readBack_reportPwd_iff`    — which directories come back.
    * `readBack_reportGitBranch_iff` — which branches do.
    * `not_readBack_reportPrChecks`  — no list of checks does.
-/
import Jmux.Lib.Hex
import Jmux.Socket.Server
import Jmux.Socket.V1

namespace Jmux.Socket

open Jmux.Lib

/-! ## §1. The shell. -/

/-- `JMUX_WORKSPACE_ID` and `JMUX_PANEL_ID`, where they are set. -/
structure ShellEnv where
  workspaceId : Option UuidBytes
  panelId     : Option UuidBytes

namespace ShellEnv

/-- `--key=id`. -/
def flagWord (key : String) (id : UuidBytes) : List Char :=
  '-' :: '-' :: (key.toList ++ '=' :: id.toText.toList)

def flagWords (s : ShellEnv) : List (List Char) :=
  (s.workspaceId.map (flagWord "tab")).toList ++ (s.panelId.map (flagWord "panel")).toList

/-- `_jmux_flags`: every flag has a blank before it. -/
def flags (s : ShellEnv) : List Char := s.flagWords.flatMap (' ' :: ·)

/-- `name word $(_jmux_flags)`. -/
def message (s : ShellEnv) (name : String) (word : List Char) : List Char :=
  name.toList ++ ' ' :: (word ++ ' ' :: s.flags)

/-- `_jmux_report_pwd`. -/
def reportPwd (s : ShellEnv) (pwd : String) : List Char :=
  s.message "report_pwd" ('"' :: (pwd.toList ++ ['"']))

/-- `${branch}${dirty}`. -/
def branchWord (branch : String) (dirty : Bool) : List Char :=
  branch.toList ++ if dirty then ['*'] else []

/-- The report of `_jmux_update_git_branch_sync` and of the watcher. -/
def reportGitBranch (s : ShellEnv) (branch : String) (dirty : Bool) : Option (List Char) :=
  if branch = "" then none else some (s.message "report_git_branch" (branchWord branch dirty))

end ShellEnv

/-! ## §2. The checks of a pull request. -/

/-- An entry of `statusCheckRollup`. -/
structure RollupEntry where
  name       : Option String := none
  context    : Option String := none
  conclusion : Option String := none
  state      : Option String := none

structure PrCheck where
  name       : String
  conclusion : String
  deriving DecidableEq, Repr

/-- Python's `a or b`, for a text that may be missing. -/
def pyOr (a : Option String) (b : String) : String :=
  match a with
  | some s => if s = "" then b else s
  | none => b

def RollupEntry.check (upper : String → String) (e : RollupEntry) : Option PrCheck :=
  let name := pyOr e.name (e.context.getD "")
  if name = "" then none
  else some { name, conclusion := upper (pyOr e.conclusion (pyOr e.state "PENDING")) }

/-- The list that the Python program prints. -/
def checksOf (upper : String → String) (rollup : List RollupEntry) : List PrCheck :=
  (rollup.take 20).filterMap (·.check upper)

/-- A code unit as `json.dumps` escapes it. -/
def escapeUnit (n : Nat) : List Char :=
  ['\\', 'u', Hex.digit (n / 4096 % 16), Hex.digit (n / 256 % 16), Hex.digit (n / 16 % 16),
    Hex.digit (n % 16)]

/-- A character of a text, `ensure_ascii` being on. -/
def dumpsChar (c : Char) : List Char :=
  if c = '"' then ['\\', '"']
  else if c = '\\' then ['\\', '\\']
  else if c = '\n' then ['\\', 'n']
  else if c = '\r' then ['\\', 'r']
  else if c = '\t' then ['\\', 't']
  else if c = '\x0c' then ['\\', 'f']
  else if c = '\x08' then ['\\', 'b']
  else if ' ' ≤ c ∧ c ≤ '~' then [c]
  else if c.toNat < 0x10000 then escapeUnit c.toNat
  else escapeUnit (0xd800 + (c.toNat - 0x10000) / 0x400)
    ++ escapeUnit (0xdc00 + (c.toNat - 0x10000) % 0x400)

def dumpsStr (s : String) : List Char := '"' :: (s.toList.flatMap dumpsChar ++ ['"'])

def dumpsCheck (c : PrCheck) : List Char :=
  "\x7b\"name\": ".toList ++ dumpsStr c.name ++ ", \"conclusion\": ".toList
    ++ dumpsStr c.conclusion ++ ['\x7d']

/-- `json.dumps(checks)`. -/
def dumps (checks : List PrCheck) : List Char :=
  '[' :: ((", ".toList).intercalate (checks.map dumpsCheck) ++ [']'])

/-- The report of `_jmux_start_pr_poll`. -/
def ShellEnv.reportPrChecks (s : ShellEnv) (checks : List PrCheck) : Option (List Char) :=
  if dumps checks = "[]".toList then none else some (s.message "report_pr_checks" (dumps checks))

/-- The list as a JSON value. -/
def checksValue {F : Type} (checks : List PrCheck) : Value F :=
  .arr (checks.map fun c => .obj [("name", .str c.name), ("conclusion", .str c.conclusion)])

/-! ## §3. The wire. -/

/-- The line that the server reads of a message, which `echo` ends with a newline;
one that is too long ends the connection. -/
def received (message : List Char) : Option (List Char) :=
  let line := (message ++ ['\n']).takeWhile (· ≠ '\n')
  if maxRequestLen < (String.ofList line).utf8ByteSize then none else some line

variable {F : Type}

/-- A parameter of the request that a line became. -/
def Dispatched.param (key : String) : Dispatched F → Option (Value F)
  | .request req => req.params.get key
  | _ => none

/-- The message arrives, and the parser finds the panel and the value in it. -/
def ReadBack (env : V1Env F) (s : ShellEnv) (message : List Char) (key : String) (v : Value F) :
    Prop :=
  ∃ line, received message = some line ∧
    (parseLine line).panelId = s.panelId.map UuidBytes.toText ∧
    (dispatch env line).param key = some v

/-- The message is short enough. -/
def Short (message : List Char) : Prop :=
  (String.ofList message).utf8ByteSize ≤ maxRequestLen

theorem received_iff {message line : List Char} (h : '\n' ∉ message) :
    received message = some line ↔ line = message ∧ Short message := by
  have hall : ∀ c ∈ message, decide (c ≠ '\n') = true := fun c hc =>
    decide_eq_true (ne_of_mem_of_not_mem hc h)
  have hline : (message ++ ['\n']).takeWhile (· ≠ '\n') = message := by
    rw [List.takeWhile_append_of_pos hall, List.takeWhile_cons_of_neg (by decide), List.append_nil]
  unfold received Short
  dsimp only
  rw [hline]
  by_cases hlen : maxRequestLen < (String.ofList message).utf8ByteSize
  · rw [if_pos hlen]
    exact ⟨fun h => (by cases h), fun h => absurd h.2 (Nat.not_le.mpr hlen)⟩
  · rw [if_neg hlen]
    exact ⟨fun h => ⟨(Option.some.inj h).symm, Nat.not_lt.mp hlen⟩, fun h => by rw [h.1]⟩

theorem readBack_iff (env : V1Env F) (s : ShellEnv) {message : List Char} (h : '\n' ∉ message)
    {key : String} {v : Value F} :
    ReadBack env s message key v ↔
      Short message ∧ (parseLine message).panelId = s.panelId.map UuidBytes.toText ∧
        (dispatch env message).param key = some v := by
  constructor
  · rintro ⟨line, hline, hread⟩
    obtain ⟨rfl, hshort⟩ := (received_iff h).mp hline
    exact ⟨hshort, hread⟩
  · rintro ⟨hshort, hread⟩
    exact ⟨message, (received_iff h).mpr ⟨rfl, hshort⟩, hread⟩

theorem some_str_inj {a b : String} : some (Value.str (F := F) a) = some (.str b) ↔ a = b := by
  rw [Option.some_inj, Value.str.injEq]

/-! ## §4. The flags of a message. -/

/-- Neither white space nor a quote. -/
def Solid (w : List Char) : Prop := ∀ c ∈ w, Str.isWhitespace c = false ∧ c ≠ '"'

theorem solid_of_all {w : List Char}
    (h : w.all (fun c => !Str.isWhitespace c && c != '"') = true) : Solid w := by
  intro c hc
  simpa using List.all_eq_true.mp h c hc

theorem Solid.no_blank {w : List Char} (h : Solid w) : ' ' ∉ w := fun hc =>
  absurd (h ' ' hc).1 (by decide)

theorem solid_toText (id : UuidBytes) : Solid id.toText.toList := by
  have hdigits : ∀ n : Fin 16, Str.isWhitespace (Hex.digit n) = false ∧ Hex.digit n ≠ '"' := by
    decide
  intro c hc
  rcases UuidBytes.mem_toText hc with rfl | ⟨n, hn, rfl⟩
  · decide
  · exact hdigits ⟨n, hn⟩

theorem solid_flagWord {key : String} (hkey : Solid key.toList) (id : UuidBytes) :
    Solid (ShellEnv.flagWord key id) := by
  intro c hc
  rcases List.mem_cons.mp hc with rfl | hc
  · decide
  rcases List.mem_cons.mp hc with rfl | hc
  · decide
  rcases List.mem_append.mp hc with hc | hc
  · exact hkey c hc
  rcases List.mem_cons.mp hc with rfl | hc
  · decide
  · exact solid_toText id c hc

namespace ShellEnv

variable (s : ShellEnv)

/-- A flag word is one of the two. -/
theorem mem_flagWords {w : List Char} (h : w ∈ s.flagWords) :
    ∃ key id, Solid key.toList ∧ '=' ∉ key.toList ∧ w = flagWord key id := by
  rcases List.mem_append.mp h with h | h
  · obtain ⟨id, _, rfl⟩ := Option.map_eq_some_iff.mp (Option.mem_toList.mp h)
    exact ⟨"tab", id, solid_of_all (by decide), by decide, rfl⟩
  · obtain ⟨id, _, rfl⟩ := Option.map_eq_some_iff.mp (Option.mem_toList.mp h)
    exact ⟨"panel", id, solid_of_all (by decide), by decide, rfl⟩

/-- The flags end in an id, if there are any. -/
theorem flags_last (hne : s.flagWords ≠ []) :
    ∃ h : s.flags ≠ [], Str.isWhitespace (s.flags.getLast h) = false := by
  obtain ⟨ws, w, hws⟩ : ∃ ws w, s.flagWords = ws ++ [w] :=
    ⟨_, _, (List.dropLast_append_getLast hne).symm⟩
  obtain ⟨key, id, hkey, _, rfl⟩ := s.mem_flagWords (w := w) (by rw [hws]; simp)
  have hflags : s.flags = ws.flatMap (' ' :: ·) ++ (' ' :: flagWord key id) := by
    unfold flags
    rw [hws, List.flatMap_append]
    simp
  have hword : flagWord key id ≠ [] := List.cons_ne_nil _ _
  refine ⟨by rw [hflags]; simp, ?_⟩
  have hlast : s.flags.getLast (by rw [hflags]; simp) = (flagWord key id).getLast hword := by
    simp only [hflags]
    rw [List.getLast_append_of_ne_nil _ (List.cons_ne_nil _ _), List.getLast_cons hword]
  rw [hlast]
  exact (solid_flagWord hkey id _ (List.getLast_mem hword)).1

/-- The characters of the flags: blanks, and what is in the words. -/
theorem mem_flags {c : Char} (h : c ∈ s.flags) :
    c = ' ' ∨ (Str.isWhitespace c = false ∧ c ≠ '"') := by
  obtain ⟨w, hw, hc⟩ := List.mem_flatMap.mp h
  obtain ⟨key, id, hkey, _, rfl⟩ := s.mem_flagWords hw
  rcases List.mem_cons.mp hc with rfl | hc
  · exact .inl rfl
  · exact .inr (solid_flagWord hkey id c hc)

/-- The flag words are read one by one. -/
theorem tokens_flags : tokens .between s.flags = s.flagWords := by
  have hall : ∀ ws : List (List Char), (∀ w ∈ ws, ∃ t, w = '-' :: t ∧ ' ' ∉ w) →
      tokens .between (ws.flatMap (' ' :: ·)) = ws := by
    intro ws
    induction ws with
    | nil =>
        intro _
        rfl
    | cons w ws ih =>
        intro h
        obtain ⟨t, rfl, hblank⟩ := h w List.mem_cons_self
        have hrest := ih fun v hv => h v (List.mem_cons_of_mem _ hv)
        show tokens .between (' ' :: ('-' :: t ++ ws.flatMap (' ' :: ·))) = _
        rw [tokens_blank]
        cases ws with
        | nil =>
            rw [List.flatMap_nil, List.append_nil, tokens_word_end (by decide) hblank]
        | cons v ws =>
            rw [List.flatMap_cons, List.cons_append, tokens_blank] at hrest
            show tokens .between ('-' :: t ++ ' ' :: (v ++ ws.flatMap (' ' :: ·))) = _
            rw [tokens_word (by decide) hblank, hrest]
  refine hall _ fun w hw => ?_
  obtain ⟨key, id, hkey, _, rfl⟩ := s.mem_flagWords hw
  exact ⟨_, rfl, (solid_flagWord hkey id).no_blank⟩

theorem flagOf_flagWord {key : String} (hkey : '=' ∉ key.toList) (id : UuidBytes) :
    flagOf (flagWord key id) = some (key, id.toText) := by
  have hstrip : Str.stripPrefix ['-', '-'] (flagWord key id)
      = some (key.toList ++ '=' :: id.toText.toList) := rfl
  unfold flagOf
  rw [hstrip, Option.map_some, splitOnce_append hkey]
  simp only [String.ofList_toList]

/-- None of them is an argument. -/
theorem flagWords_not_args : s.flagWords.filter (fun w => (flagOf w).isNone) = [] := by
  refine List.filter_eq_nil_iff.mpr fun w hw => ?_
  obtain ⟨key, id, _, hkey, rfl⟩ := s.mem_flagWords hw
  rw [flagOf_flagWord hkey]
  exact Bool.false_ne_true

/-- The flags as the parser stores them. -/
def flagPairs : Flags :=
  ((s.workspaceId.map fun id => ("tab", id.toText)).toList
    ++ (s.panelId.map fun id => ("panel", id.toText)).toList).reverse

theorem flagWords_flagPairs : (s.flagWords.filterMap flagOf).reverse = s.flagPairs := by
  have hword {key : String} (hkey : '=' ∉ key.toList) (o : Option UuidBytes) :
      (o.map (flagWord key)).toList.filterMap flagOf
        = (o.map fun id => (key, id.toText)).toList := by
    cases o with
    | none => rfl
    | some id => exact List.filterMap_cons_some (flagOf_flagWord hkey id)
  unfold flagWords flagPairs
  rw [List.filterMap_append, hword (by decide), hword (by decide)]

theorem panelId_flagPairs {command : String} {args : List String} :
    V1Line.panelId { command, args, flags := s.flagPairs }
      = s.panelId.map UuidBytes.toText := by
  unfold V1Line.panelId Flags.get flagPairs
  cases s.workspaceId with
  | none =>
      cases s.panelId with
      | none => rfl
      | some id => rfl
  | some ws =>
      cases s.panelId with
      | none => rfl
      | some id => rfl

end ShellEnv

/-! ## §5. Reading a message. -/

/-- A word that is read as one token, whatever comes after it. -/
def Reads (word token : List Char) : Prop :=
  ∀ rest, rest.head? = none ∨ rest.head? = some ' ' →
    tokens .between (word ++ rest) = token :: tokens .between rest

theorem reads_quoted {t : List Char} (ht : '"' ∉ t) : Reads ('"' :: (t ++ ['"'])) t := by
  intro rest _
  show tokens .between ('"' :: (t ++ ['"'] ++ rest)) = _
  rw [tokens_between_cons, if_neg (by decide), if_pos rfl, List.append_assoc]
  exact tokens_quoted ht [] rest

theorem reads_plain {c : Char} {t : List Char} (hc : c ≠ '"') (ht : ' ' ∉ c :: t) :
    Reads (c :: t) (c :: t) := by
  intro rest hrest
  cases rest with
  | nil =>
      rw [List.append_nil, tokens_word_end hc ht]
      rfl
  | cons d rest =>
      obtain rfl : d = ' ' := by simpa using hrest
      rw [tokens_word hc ht, ← tokens_blank]

/-- What is left of a message when both ends are trimmed. -/
theorem trim_message (s : ShellEnv) {word : List Char} (hne : word ≠ [])
    (hhead : Str.isWhitespace (word.head hne) = false)
    (hlast : s.flagWords = [] → Str.isWhitespace (word.getLast hne) = false) :
    ∃ rest, Str.trimMatches Str.isWhitespace (word ++ ' ' :: s.flags) = word ++ rest ∧
      (rest.head? = none ∨ rest.head? = some ' ') ∧ tokens .between rest = s.flagWords := by
  have hdrop (rest : List Char) :
      (word ++ rest).dropWhile Str.isWhitespace = word ++ rest := by
    obtain ⟨c, t, rfl⟩ := List.exists_cons_of_ne_nil hne
    rw [List.cons_append, List.dropWhile_cons_of_neg]
    exact fun h => Bool.false_ne_true (hhead.symm.trans h)
  rw [Str.trimMatches_comm, Str.trimEndMatches_append]
  by_cases hflags : s.flagWords = []
  · have hblank : Str.trimEndMatches Str.isWhitespace (' ' :: s.flags) = [] := by
      unfold ShellEnv.flags
      rw [hflags]
      decide
    refine ⟨[], ?_, .inl rfl, hflags.symm⟩
    rw [if_pos hblank, Str.trimEndMatches_self hne (hlast hflags)]
    have h := hdrop []
    rwa [List.append_nil] at h ⊢
  · obtain ⟨hflagsne, hsolid⟩ := s.flags_last hflags
    have hkeep : Str.trimEndMatches Str.isWhitespace (' ' :: s.flags) = ' ' :: s.flags :=
      Str.trimEndMatches_self (List.cons_ne_nil _ _) (by rwa [List.getLast_cons hflagsne])
    refine ⟨' ' :: s.flags, ?_, .inr rfl, by rw [tokens_blank, s.tokens_flags]⟩
    rw [hkeep, if_neg (List.cons_ne_nil _ _), hdrop]

/-- **The parts of a message whose word is read as one token.** -/
theorem parse_report (s : ShellEnv) {name : String} (hname : CommandName name)
    {word token : List Char} (hne : word ≠ [])
    (hhead : Str.isWhitespace (word.head hne) = false)
    (hlast : s.flagWords = [] → Str.isWhitespace (word.getLast hne) = false)
    (hreads : Reads word token) (hflag : flagOf token = none) :
    parseLine (s.message name word)
      = { command := name, args := [String.ofList token], flags := s.flagPairs } := by
  obtain ⟨rest, htrim, hrest, htokens⟩ := trim_message s hne hhead hlast
  unfold ShellEnv.message
  rw [parseLine_command hname, htrim]
  unfold parseArgs
  dsimp only
  rw [hreads rest hrest, htokens, List.filter_cons_of_pos (by rw [hflag]; rfl),
    List.filterMap_cons_none hflag, s.flagWords_not_args, s.flagWords_flagPairs]
  rfl

/-- An argument is a token of the message, and no flag. -/
theorem arg_message (s : ShellEnv) {name : String} (hname : CommandName name) (word : List Char)
    (harg : (parseLine (s.message name word)).arg 0 "" ≠ "") :
    ((parseLine (s.message name word)).arg 0 "").toList
        ∈ tokens .between (Str.trimMatches Str.isWhitespace (word ++ ' ' :: s.flags)) ∧
      flagOf ((parseLine (s.message name word)).arg 0 "").toList = none := by
  unfold ShellEnv.message at harg ⊢
  rw [parseLine_command hname] at harg ⊢
  unfold V1Line.arg parseArgs at harg ⊢
  dsimp only at harg ⊢
  generalize tokens .between (Str.trimMatches Str.isWhitespace (word ++ ' ' :: s.flags)) = ts
    at harg ⊢
  rw [List.getElem?_map] at harg ⊢
  cases hts : (ts.filter fun t => (flagOf t).isNone)[0]? with
  | none =>
      rw [hts] at harg
      exact absurd rfl harg
  | some t =>
      obtain ⟨hmem, hflag⟩ := List.mem_filter.mp (List.mem_of_getElem? hts)
      show (String.ofList t).toList ∈ ts ∧ flagOf (String.ofList t).toList = none
      rw [String.toList_ofList]
      exact ⟨hmem, Option.isNone_iff_eq_none.mp hflag⟩

/-- A flag begins with two hyphens. -/
theorem flagOf_eq_none_iff (t : List Char) : flagOf t = none ↔ ¬ ['-', '-'] <+: t := by
  unfold flagOf Str.stripPrefix
  rw [Option.map_eq_none_iff, ← List.isPrefixOf_iff_prefix]
  by_cases h : ['-', '-'].isPrefixOf t = true
  · rw [if_pos h]
    exact ⟨fun hn => (by cases hn), fun hn => absurd h hn⟩
  · rw [if_neg h]
    exact ⟨fun _ => h, fun _ => rfl⟩

/-! ## §6. The directory. -/

/-- A directory that comes back: no quote in it, and no flag. -/
structure PwdFits (pwd : String) : Prop where
  unquoted : '"' ∉ pwd.toList
  no_flag  : ¬ ['-', '-'] <+: pwd.toList

theorem newline_not_mem_message (s : ShellEnv) {name : String} (hname : CommandName name)
    {word : List Char} (hword : '\n' ∉ word) : '\n' ∉ s.message name word := by
  intro h
  have hspace : Str.isWhitespace '\n' = true := by decide
  rcases List.mem_append.mp h with h | h
  · exact absurd (hname.solid _ h) (by rw [hspace]; decide)
  rcases List.mem_cons.mp h with h | h
  · exact absurd h (by decide)
  rcases List.mem_append.mp h with h | h
  · exact hword h
  rcases List.mem_cons.mp h with h | h
  · exact absurd h (by decide)
  · rcases s.mem_flags h with h | h
    · exact absurd h (by decide)
    · exact absurd h.1 (by rw [hspace]; decide)

theorem commandName_reportPwd : CommandName "report_pwd" :=
  commandName_of_all (by decide) (by decide)

theorem newline_not_mem_reportPwd (s : ShellEnv) {pwd : String} (h : '\n' ∉ pwd.toList) :
    '\n' ∉ s.reportPwd pwd := by
  refine newline_not_mem_message s commandName_reportPwd fun hc => ?_
  rcases List.mem_cons.mp hc with hc | hc
  · exact absurd hc (by decide)
  rcases List.mem_append.mp hc with hc | hc
  · exact h hc
  · exact absurd (List.mem_singleton.mp hc) (by decide)

/-- What the parser reads of a directory without quotes. -/
theorem parse_reportPwd (s : ShellEnv) {pwd : String} (hquote : '"' ∉ pwd.toList)
    (hflag : ¬ ['-', '-'] <+: pwd.toList) :
    parseLine (s.reportPwd pwd)
      = { command := "report_pwd", args := [pwd], flags := s.flagPairs } := by
  have hparse := parse_report s commandName_reportPwd (List.cons_ne_nil _ _) rfl
    (fun _ => by rw [List.getLast_cons (by simp), List.getLast_append_of_ne_nil _ (by simp)]; decide)
    (reads_quoted hquote) ((flagOf_eq_none_iff _).mpr hflag)
  rw [String.ofList_toList] at hparse
  exact hparse

/-- A quote in the directory ends the token. -/
theorem arg_reportPwd_quote (s : ShellEnv) {pwd : String} {as bs : List Char}
    (has : '"' ∉ as) (hpwd : pwd.toList = as ++ '"' :: bs) (hflag : ¬ ['-', '-'] <+: as) :
    (parseLine (s.reportPwd pwd)).arg 0 "" = String.ofList as := by
  -- the end of the word is trimmed, if anything is
  obtain ⟨rest, hrest⟩ : ∃ rest, Str.trimMatches Str.isWhitespace
      ('"' :: (pwd.toList ++ ['"']) ++ ' ' :: s.flags) = '"' :: (as ++ '"' :: rest) := by
    have hpre : ('"' :: (as ++ ['"'])) ≠ [] := List.cons_ne_nil _ _
    have hkeep : Str.trimEndMatches Str.isWhitespace ('"' :: (as ++ ['"'])) = '"' :: (as ++ ['"']) :=
      Str.trimEndMatches_self hpre (by
        rw [List.getLast_cons (by simp), List.getLast_append_of_ne_nil _ (by simp)]; decide)
    have hline : '"' :: (pwd.toList ++ ['"']) ++ ' ' :: s.flags
        = '"' :: (as ++ ['"']) ++ (bs ++ '"' :: ' ' :: s.flags) := by
      rw [hpwd]
      simp
    rw [hline, Str.trimMatches_comm, Str.trimEndMatches_append]
    split
    · exact ⟨[], by rw [hkeep]; rfl⟩
    · refine ⟨Str.trimEndMatches Str.isWhitespace (bs ++ '"' :: ' ' :: s.flags), ?_⟩
      rw [List.cons_append, List.dropWhile_cons_of_neg (by decide), List.append_assoc]
      rfl
  have htokens : tokens .between ('"' :: (as ++ '"' :: rest)) = as :: tokens .between rest := by
    rw [tokens_between_cons, if_neg (by decide), if_pos rfl]
    exact tokens_quoted has [] rest
  unfold ShellEnv.reportPwd ShellEnv.message
  rw [parseLine_command commandName_reportPwd, hrest]
  unfold parseArgs
  rw [htokens]
  dsimp only
  rw [List.filter_cons_of_pos (by rw [(flagOf_eq_none_iff _).mpr hflag]; rfl)]
  rfl

theorem param_reportPwd (env : V1Env F) (l : V1Line) :
    (V1Command.reportPwd.build env l).param "directory" = some (.str (l.arg 0 "")) := by
  show Value.get "directory" (.obj ([("directory", .str (l.arg 0 ""))] ++ l.target)) = _
  unfold V1Line.target V1Line.inWorkspace V1Line.onPanel
  simp [Value.get_append, Value.get_cons, get_optional]

/-- The argument of the report is the directory exactly if it fits. -/
theorem arg_reportPwd_iff (s : ShellEnv) (pwd : String) :
    (parseLine (s.reportPwd pwd)).arg 0 "" = pwd ↔ PwdFits pwd := by
  constructor
  · intro harg
    -- a flag is no argument
    have hflag : ¬ ['-', '-'] <+: pwd.toList := by
      intro hpre
      have hne : (parseLine (s.reportPwd pwd)).arg 0 "" ≠ "" := by
        rw [harg]
        rintro rfl
        exact absurd hpre (by decide)
      have h := (arg_message s commandName_reportPwd _ hne).2
      unfold ShellEnv.reportPwd at harg
      rw [harg] at h
      exact (flagOf_eq_none_iff _).mp h hpre
    refine ⟨fun hquote => ?_, hflag⟩
    obtain ⟨as, bs, hpwd, has⟩ := List.eq_append_cons_of_mem hquote
    rw [arg_reportPwd_quote s has hpwd fun h => hflag (hpwd ▸ h.trans (List.prefix_append _ _))]
      at harg
    have hlen : as.length = pwd.toList.length := by rw [← harg, String.toList_ofList]
    rw [hpwd, List.length_append, List.length_cons] at hlen
    omega
  · intro hfits
    rw [parse_reportPwd s hfits.unquoted hfits.no_flag]
    rfl

/-- **A directory comes back, with its panel, exactly if there is no quote in it, it is
no flag and the line is short enough.** -/
theorem readBack_reportPwd_iff (env : V1Env F) (s : ShellEnv) {pwd : String}
    (hline : '\n' ∉ pwd.toList) :
    ReadBack env s (s.reportPwd pwd) "directory" (.str pwd)
      ↔ PwdFits pwd ∧ Short (s.reportPwd pwd) := by
  have hcommand : (parseLine (s.reportPwd pwd)).command = "report_pwd" := by
    unfold ShellEnv.reportPwd ShellEnv.message
    rw [parseLine_command commandName_reportPwd]
  have hparam : (dispatch env (s.reportPwd pwd)).param "directory"
      = some (.str ((parseLine (s.reportPwd pwd)).arg 0 "")) := by
    rw [@dispatch_of_parseLine _ _ _ .reportPwd (by rw [hcommand]; rfl)]
    exact param_reportPwd env _
  rw [readBack_iff env s (newline_not_mem_reportPwd s hline), hparam, some_str_inj,
    arg_reportPwd_iff]
  refine ⟨fun h => ⟨h.2.2, h.1⟩, fun h => ⟨h.2, ?_, h.1⟩⟩
  rw [parse_reportPwd s h.1.unquoted h.1.no_flag, s.panelId_flagPairs]

/-! ## §7. The branch. -/

/-- A branch that comes back. -/
structure BranchFits (s : ShellEnv) (branch : String) (dirty : Bool) : Prop where
  no_blank : ' ' ∉ branch.toList
  head     : ∀ c, branch.toList.head? = some c → c ≠ '"' ∧ Str.isWhitespace c = false
  no_flag  : ¬ ['-', '-'] <+: branch.toList
  /-- A star at the end stands for a dirty tree. -/
  no_star  : dirty = false → branch.toList.getLast? ≠ some '*'
  /-- Without flags the end of the line is trimmed. -/
  last     : dirty = false → s.flagWords = [] →
    ∀ c, branch.toList.getLast? = some c → Str.isWhitespace c = false

theorem commandName_reportGitBranch : CommandName "report_git_branch" :=
  commandName_of_all (by decide) (by decide)

theorem param_reportGitBranch (env : V1Env F) (l : V1Line) :
    (V1Command.reportGitBranch.build env l).param "branch" = some (.str l.branch.1) := by
  show Value.get "branch"
    (.obj ([("branch", .str l.branch.1), ("is_dirty", .bool l.branch.2)] ++ l.target)) = _
  unfold V1Line.target V1Line.inWorkspace V1Line.onPanel
  simp [Value.get_append, Value.get_cons, get_optional]

theorem stripSuffix_append (suf cs : List Char) : Str.stripSuffix suf (cs ++ suf) = some cs := by
  unfold Str.stripSuffix
  rw [if_pos (List.isSuffixOf_iff_suffix.mpr (List.suffix_append cs suf)), List.length_append,
    Nat.add_sub_cancel, List.take_left]

theorem eq_append_of_stripSuffix {suf cs t : List Char} (h : Str.stripSuffix suf cs = some t) :
    cs = t ++ suf := by
  unfold Str.stripSuffix at h
  split at h
  next hsuf =>
    obtain ⟨u, rfl⟩ := List.isSuffixOf_iff_suffix.mp hsuf
    rw [List.length_append, Nat.add_sub_cancel, List.take_left] at h
    rw [Option.some.inj h]
  · cases h

/-- The branch is the argument, with a star or without. -/
theorem arg_of_branch {l : V1Line} {branch : String} (h : l.branch.1 = branch) :
    (l.arg 0 "").toList = ShellEnv.branchWord branch true ∨
      (l.arg 0 "").toList = branch.toList ∧ branch.toList.getLast? ≠ some '*' := by
  unfold V1Line.branch at h
  cases hstrip : Str.stripSuffix ['*'] (l.arg 0 "").toList with
  | some t =>
      rw [hstrip] at h
      subst h
      refine .inl ?_
      show _ = (String.ofList t).toList ++ ['*']
      rw [String.toList_ofList]
      exact eq_append_of_stripSuffix hstrip
  | none =>
      rw [hstrip] at h
      subst h
      refine .inr ⟨rfl, fun hlast => ?_⟩
      obtain ⟨t, ht⟩ := List.getLast?_eq_some_iff.mp hlast
      rw [ht, stripSuffix_append] at hstrip
      cases hstrip

/-- White space that does not part the tokens. -/
def isOddSpace (c : Char) : Bool := Str.isWhitespace c && c ≠ ' '

theorem countP_flags (s : ShellEnv) : s.flags.countP isOddSpace = 0 := by
  refine List.countP_eq_zero.mpr fun c hc => ?_
  unfold isOddSpace
  rcases s.mem_flags hc with rfl | ⟨h, _⟩
  · decide
  · rw [h]
    exact Bool.false_ne_true

/-- White space in front of the word is lost. -/
theorem countP_trim_lt (s : ShellEnv) {c : Char} {t : List Char} (hc : isOddSpace c = true) :
    (Str.trimMatches Str.isWhitespace (c :: t ++ ' ' :: s.flags)).countP isOddSpace
      < (c :: t).countP isOddSpace := by
  have hspace : Str.isWhitespace c = true := (Bool.and_eq_true_iff.mp hc).1
  have hsub : List.Sublist
      (Str.trimMatches Str.isWhitespace (c :: t ++ ' ' :: s.flags)) (t ++ ' ' :: s.flags) := by
    unfold Str.trimMatches Str.trimEndMatches
    rw [List.cons_append, List.dropWhile_cons_of_pos hspace]
    exact ((List.rdropWhile_prefix _ _).sublist).trans (List.dropWhile_suffix _).sublist
  have hle := hsub.countP_le (p := isOddSpace)
  have hrest : (t ++ ' ' :: s.flags).countP isOddSpace = t.countP isOddSpace := by
    rw [List.countP_append, List.countP_cons_of_neg (by decide), countP_flags, Nat.add_zero]
  rw [List.countP_cons_of_pos hc]
  omega

theorem countP_branchWord (branch : String) (dirty : Bool) :
    (ShellEnv.branchWord branch dirty).countP isOddSpace
      = branch.toList.countP isOddSpace := by
  unfold ShellEnv.branchWord
  rw [List.countP_append]
  cases dirty with
  | false => rfl
  | true => rfl

/-- The token that a branch is read from. -/
structure BranchToken (s : ShellEnv) (branch : String) (dirty : Bool) (t : List Char) : Prop where
  token : t ∈ tokens .between
    (Str.trimMatches Str.isWhitespace (ShellEnv.branchWord branch dirty ++ ' ' :: s.flags))
  arg   : flagOf t = none
  pre   : branch.toList <+: t
  count : t.countP isOddSpace = branch.toList.countP isOddSpace

theorem branchToken (s : ShellEnv) {branch : String} {dirty : Bool} (hne : branch.toList ≠ [])
    {l : V1Line}
    (hl : parseLine (s.message "report_git_branch" (ShellEnv.branchWord branch dirty)) = l)
    (h : l.branch.1 = branch) : BranchToken s branch dirty (l.arg 0 "").toList := by
  have hpre : branch.toList <+: (l.arg 0 "").toList := by
    rcases arg_of_branch h with hword | ⟨hword, _⟩
    · rw [hword]
      exact List.prefix_append _ _
    · rw [hword]
  have harg : l.arg 0 "" ≠ "" := by
    intro hnil
    rw [hnil] at hpre
    exact hne (List.prefix_nil.mp hpre)
  obtain ⟨htoken, hflag⟩ := arg_message s commandName_reportGitBranch _ (hl.symm ▸ harg)
  rw [hl] at htoken hflag
  refine ⟨htoken, hflag, hpre, ?_⟩
  rcases arg_of_branch h with hword | ⟨hword, _⟩
  · rw [hword, countP_branchWord]
  · rw [hword]

/-- What the parser reads of a branch in one word. -/
theorem parse_reportGitBranch (s : ShellEnv) {branch : String} {dirty : Bool}
    (hne : branch.toList ≠ []) (hblank : ' ' ∉ branch.toList)
    (hhead : ∀ c, branch.toList.head? = some c → c ≠ '"' ∧ Str.isWhitespace c = false)
    (hflag : ¬ ['-', '-'] <+: branch.toList)
    (hlast : dirty = false → s.flagWords = [] →
      ∀ c, branch.toList.getLast? = some c → Str.isWhitespace c = false) :
    parseLine (s.message "report_git_branch" (ShellEnv.branchWord branch dirty))
      = { command := "report_git_branch"
          args    := [String.ofList (ShellEnv.branchWord branch dirty)]
          flags   := s.flagPairs } := by
  obtain ⟨c, t, hbranch⟩ := List.exists_cons_of_ne_nil hne
  obtain ⟨hquote, hsolid⟩ := hhead c (by rw [hbranch]; rfl)
  have hword : ShellEnv.branchWord branch dirty
      = c :: (t ++ if dirty then ['*'] else []) := by
    unfold ShellEnv.branchWord
    rw [hbranch]
    rfl
  have hblank' : ' ' ∉ c :: (t ++ if dirty then ['*'] else []) := by
    rw [← List.cons_append, ← hbranch]
    intro hc
    rcases List.mem_append.mp hc with hc | hc
    · exact hblank hc
    · split at hc
      · exact absurd (List.mem_singleton.mp hc) (by decide)
      · cases hc
  rw [hword]
  refine parse_report s commandName_reportGitBranch (List.cons_ne_nil _ _) hsolid ?_
    (reads_plain hquote hblank') ?_
  · intro hflags
    cases dirty with
    | true =>
        have hstar : (c :: (t ++ ['*'])).getLast (List.cons_ne_nil _ _) = '*' := by
          rw [List.getLast_cons (by simp), List.getLast_append_of_ne_nil _ (by simp)]
          rfl
        show Str.isWhitespace ((c :: (t ++ ['*'])).getLast _) = false
        rw [hstar]
        decide
    | false =>
        refine hlast rfl hflags _ ?_
        rw [hbranch]
        show (c :: t).getLast? = some ((c :: (t ++ [])).getLast _)
        simp only [List.append_nil]
        exact List.getLast?_eq_some_getLast (List.cons_ne_nil c t)
  · refine (flagOf_eq_none_iff _).mpr fun hpre => hflag ?_
    rw [← List.cons_append, ← hbranch] at hpre
    -- the star alone does not make it a flag
    cases dirty with
    | false => simpa using hpre
    | true =>
        have hlen : 2 ≤ branch.toList.length := by
          by_contra hlt
          have ht : t = [] := List.eq_nil_of_length_eq_zero (by
            rw [hbranch, List.length_cons] at hlt
            omega)
          rw [hbranch, ht] at hpre
          obtain ⟨r, hr⟩ := hpre
          simp at hr
        exact List.prefix_of_prefix_length_le hpre (List.prefix_append _ _) hlen

/-- A branch that was read has no blank in it. -/
theorem BranchToken.no_blank {s : ShellEnv} {branch : String} {dirty : Bool} {t : List Char}
    (h : BranchToken s branch dirty t) : ' ' ∉ branch.toList := by
  intro hblank
  have hblank' : ' ' ∈ t := h.pre.subset hblank
  rcases @tokens_shape .between trivial _ t h.token with hquote | ⟨hno, _⟩
  · -- then there is no quote in the line at all
    refine tokens_no_quote (fun hmem => ?_) t h.token hblank'
    have hmem := (List.rdropWhile_prefix _ _).subset hmem
    have hmem := (List.dropWhile_suffix _).subset hmem
    rcases List.mem_append.mp hmem with hmem | hmem
    · rcases List.mem_append.mp hmem with hmem | hmem
      · exact hquote (h.pre.subset hmem)
      · split at hmem
        · exact absurd (List.mem_singleton.mp hmem) (by decide)
        · cases hmem
    · rcases List.mem_cons.mp hmem with hmem | hmem
      · exact absurd hmem (by decide)
      · rcases s.mem_flags hmem with hmem | hmem
        · exact absurd hmem (by decide)
        · exact hmem.2 rfl
  · exact hno hblank'

/-- Its first character is no quote and no white space. -/
theorem BranchToken.head {s : ShellEnv} {branch : String} {dirty : Bool} {t : List Char}
    (h : BranchToken s branch dirty t) (c : Char) (hc : branch.toList.head? = some c) :
    c ≠ '"' ∧ Str.isWhitespace c = false := by
  obtain ⟨u, hbranch⟩ : ∃ u, branch.toList = c :: u := List.head?_eq_some_iff.mp hc
  have hhead : t.head? = some c := by
    obtain ⟨r, hr⟩ := h.pre
    rw [← hr, hbranch]
    rfl
  constructor
  · rintro rfl
    rcases @tokens_shape .between trivial _ t h.token with hquote | ⟨_, hno⟩
    · exact hquote (List.mem_of_mem_head? hhead)
    · exact hno hhead
  · by_contra hspace
    have hodd : isOddSpace c = true := by
      have hne : c ≠ ' ' := fun hne => h.no_blank (by rw [hbranch, hne]; exact List.mem_cons_self)
      unfold isOddSpace
      rw [Bool.not_eq_false] at hspace
      rw [hspace, decide_eq_true hne]
      rfl
    have hword : ShellEnv.branchWord branch dirty = c :: (u ++ if dirty then ['*'] else []) := by
      unfold ShellEnv.branchWord
      rw [hbranch]
      rfl
    have hlt := countP_trim_lt s (t := u ++ if dirty then ['*'] else []) hodd
    have hinfix := tokens_infix .between _ t h.token
    have hle := hinfix.sublist.countP_le (p := isOddSpace)
    rw [show TokenMode.read .between = [] from rfl, List.nil_append, h.count, hword] at hle
    rw [← hword, countP_branchWord] at hlt
    rw [hword] at hlt
    omega

/-- It is no flag. -/
theorem BranchToken.no_flag {s : ShellEnv} {branch : String} {dirty : Bool} {t : List Char}
    (h : BranchToken s branch dirty t) : ¬ ['-', '-'] <+: branch.toList := fun hpre =>
  (flagOf_eq_none_iff t).mp h.arg (hpre.trans h.pre)

/-- Without flags its last character is no white space. -/
theorem BranchToken.last {s : ShellEnv} {branch : String} {t : List Char}
    (h : BranchToken s branch false t) (hflags : s.flagWords = []) (c : Char)
    (hc : branch.toList.getLast? = some c) : Str.isWhitespace c = false := by
  obtain ⟨u, hbranch⟩ := List.getLast?_eq_some_iff.mp hc
  by_contra hspace
  have hone : Str.trimEndMatches Str.isWhitespace [c, ' '] = [] := by
    unfold Str.trimEndMatches
    rw [Bool.not_eq_false] at hspace
    show List.rdropWhile _ ([c] ++ [' ']) = _
    rw [List.rdropWhile_concat_pos _ _ _ (by decide), List.rdropWhile_singleton, if_pos hspace]
  have hinfix := tokens_infix .between _ t h.token
  have hlen := hinfix.length_le.trans' h.pre.length_le
  unfold ShellEnv.branchWord ShellEnv.flags at hlen
  rw [hflags, hbranch] at hlen
  have hcut : u ++ [c] ++ (if false = true then ['*'] else []) ++ ' ' :: [].flatMap (' ' :: ·)
      = u ++ [c, ' '] := by simp
  rw [hcut, Str.trimMatches_comm, Str.trimEndMatches_append, if_pos hone] at hlen
  have h1 := (List.dropWhile_suffix (l := Str.trimEndMatches Str.isWhitespace u)
    Str.isWhitespace).length_le
  have h2 := (List.rdropWhile_prefix Str.isWhitespace u).length_le
  rw [List.length_append, List.length_singleton] at hlen
  have h3 := hlen.trans h1 |>.trans h2
  omega

theorem newline_not_mem_reportGitBranch (s : ShellEnv) {branch : String} (dirty : Bool)
    (h : '\n' ∉ branch.toList) :
    '\n' ∉ s.message "report_git_branch" (ShellEnv.branchWord branch dirty) := by
  refine newline_not_mem_message s commandName_reportGitBranch fun hc => ?_
  rcases List.mem_append.mp hc with hc | hc
  · exact h hc
  · split at hc
    · exact absurd (List.mem_singleton.mp hc) (by decide)
    · cases hc

/-- The argument of the report is the branch exactly if it fits. -/
theorem branch_reportGitBranch_iff (s : ShellEnv) {branch : String} (dirty : Bool)
    (hne : branch.toList ≠ []) {l : V1Line}
    (hl : parseLine (s.message "report_git_branch" (ShellEnv.branchWord branch dirty)) = l) :
    l.branch.1 = branch ↔ BranchFits s branch dirty := by
  constructor
  · intro hbranch
    have htoken := branchToken s hne hl hbranch
    have hlast : dirty = false → s.flagWords = [] →
        ∀ c, branch.toList.getLast? = some c → Str.isWhitespace c = false := by
      rintro rfl
      exact htoken.last
    refine ⟨htoken.no_blank, htoken.head, htoken.no_flag, ?_, hlast⟩
    -- a star at the end would have been taken off
    intro hdirty hstar
    have hparse := parse_reportGitBranch s hne htoken.no_blank htoken.head htoken.no_flag hlast
    have harg : (l.arg 0 "").toList = branch.toList := by
      rw [← hl, hparse, hdirty]
      show (String.ofList (branch.toList ++ [])).toList = _
      rw [String.toList_ofList, List.append_nil]
    rcases arg_of_branch hbranch with hword | ⟨_, hno⟩
    · rw [harg] at hword
      have hlen := congrArg List.length hword
      unfold ShellEnv.branchWord at hlen
      rw [if_pos rfl, List.length_append, List.length_singleton] at hlen
      omega
    · exact hno hstar
  · intro hfits
    have hparse := parse_reportGitBranch s hne hfits.no_blank hfits.head hfits.no_flag hfits.last
    have harg : (l.arg 0 "").toList = ShellEnv.branchWord branch dirty := by
      rw [← hl, hparse]
      exact String.toList_ofList
    unfold V1Line.branch
    cases dirty with
    | true =>
        rw [harg, show ShellEnv.branchWord branch true = branch.toList ++ ['*'] from rfl,
          stripSuffix_append]
        exact String.ofList_toList
    | false =>
        have hword : ShellEnv.branchWord branch false = branch.toList := List.append_nil _
        have hnone : Str.stripSuffix ['*'] branch.toList = none := by
          cases hstrip : Str.stripSuffix ['*'] branch.toList with
          | none => rfl
          | some t =>
              refine absurd ?_ (hfits.no_star rfl)
              rw [eq_append_of_stripSuffix hstrip]
              exact List.getLast?_concat
        rw [hword] at harg
        rw [harg, hnone]
        exact String.toList_inj.mp harg

/-- **A branch comes back, with its panel, exactly if it is one word of the line and does
not end like a dirty one.** -/
theorem readBack_reportGitBranch_iff (env : V1Env F) (s : ShellEnv) {branch : String}
    (dirty : Bool) (hne : branch.toList ≠ []) (hline : '\n' ∉ branch.toList) :
    ReadBack env s (s.message "report_git_branch" (ShellEnv.branchWord branch dirty)) "branch"
      (.str branch) ↔
      BranchFits s branch dirty ∧
        Short (s.message "report_git_branch" (ShellEnv.branchWord branch dirty)) := by
  rw [readBack_iff env s (newline_not_mem_reportGitBranch s dirty hline)]
  have hfits_iff (l : V1Line) := @branch_reportGitBranch_iff s branch dirty hne l
  have hparse (h : BranchFits s branch dirty) :=
    parse_reportGitBranch s hne h.no_blank h.head h.no_flag h.last
  have hcommand : (parseLine (s.message "report_git_branch"
      (ShellEnv.branchWord branch dirty))).command = "report_git_branch" := by
    unfold ShellEnv.message
    rw [parseLine_command commandName_reportGitBranch]
  generalize s.message "report_git_branch" (ShellEnv.branchWord branch dirty) = m
    at hfits_iff hparse hcommand ⊢
  rw [@dispatch_of_parseLine _ env m .reportGitBranch (by rw [hcommand]; rfl),
    param_reportGitBranch, some_str_inj, hfits_iff _ rfl]
  refine ⟨fun h => ⟨h.2.2, h.1⟩, fun h => ⟨h.2, ?_, h.1⟩⟩
  rw [hparse h.1, s.panelId_flagPairs]

/-! ## §8. The checks. -/

/-- What ends in a bracket has one: the text of an array is closed. -/
def ArraysClosed (parse : String → Option (Value F)) : Prop :=
  ∀ text v, parse text = some v → text.toList.head? = some '[' → ']' ∈ text.toList

/-- The text up to the first blank. -/
def checksToken : List Char := "[\x7b\"name\":".toList

theorem dumps_cons (c : PrCheck) (cs : List PrCheck) :
    ∃ rest, dumps (c :: cs) = checksToken ++ ' ' :: '"' :: rest := by
  have hstart : '[' :: "\x7b\"name\": ".toList = checksToken ++ [' '] := by decide
  obtain ⟨more, hmore⟩ : ∃ more, (", ".toList).intercalate ((c :: cs).map dumpsCheck)
      = dumpsCheck c ++ more := by
    cases cs with
    | nil => exact ⟨[], by rw [List.map_singleton, List.intercalate_singleton, List.append_nil]⟩
    | cons d cs =>
        rw [List.map_cons, List.map_cons, List.intercalate_cons_cons, List.append_assoc]
        exact ⟨_, rfl⟩
  obtain ⟨fields, hfields⟩ : ∃ fields, dumpsCheck c = "\x7b\"name\": ".toList ++ '"' :: fields := by
    unfold dumpsCheck dumpsStr
    rw [List.append_assoc, List.append_assoc, List.append_assoc, List.cons_append]
    exact ⟨_, rfl⟩
  refine ⟨fields ++ more ++ [']'], ?_⟩
  unfold dumps
  rw [hmore, hfields, List.append_assoc, List.append_assoc, ← List.cons_append, hstart,
    List.append_assoc, List.append_assoc]
  rfl

theorem commandName_reportPrChecks : CommandName "report_pr_checks" :=
  commandName_of_all (by decide) (by decide)

/-- The argument of such a line is the text up to the first blank. -/
theorem parse_checks (rest : List Char) :
    ∃ more flags, parseLine ("report_pr_checks".toList
        ++ ' ' :: (checksToken ++ ' ' :: '"' :: rest))
      = { command := "report_pr_checks", args := String.ofList checksToken :: more, flags } := by
  obtain ⟨rest', htrim⟩ : ∃ rest', Str.trimMatches Str.isWhitespace
      (checksToken ++ ' ' :: '"' :: rest) = checksToken ++ ' ' :: '"' :: rest' := by
    have hpre : checksToken ++ ' ' :: '"' :: rest = (checksToken ++ [' ', '"']) ++ rest := by simp
    have hkeep : Str.trimEndMatches Str.isWhitespace (checksToken ++ [' ', '"'])
        = checksToken ++ [' ', '"'] := by decide
    have hdrop (cs : List Char) : (checksToken ++ cs).dropWhile Str.isWhitespace
        = checksToken ++ cs := List.dropWhile_cons_of_neg (by decide)
    rw [hpre, Str.trimMatches_comm, Str.trimEndMatches_append]
    split
    · exact ⟨[], by rw [hkeep, hdrop]⟩
    · exact ⟨_, by rw [List.append_assoc, hdrop]; rfl⟩
  have htoken : ∀ cs, tokens .between (checksToken ++ ' ' :: cs)
      = checksToken :: tokens .between cs := tokens_word (by decide) (by decide)
  rw [parseLine_command commandName_reportPrChecks, htrim]
  unfold parseArgs
  rw [htoken]
  exact ⟨_, _, rfl⟩

/-- **No list of checks comes back**: the blank after the first colon ends the token, and
what is left is no JSON. -/
theorem not_readBack_reportPrChecks (env : V1Env F) (hparse : ArraysClosed env.parse)
    (s : ShellEnv) {checks : List PrCheck} (hne : checks ≠ []) :
    ¬ ReadBack env s (s.message "report_pr_checks" (dumps checks)) "checks"
      (checksValue checks) := by
  obtain ⟨c, cs, rfl⟩ := List.exists_cons_of_ne_nil hne
  obtain ⟨rest, hdumps⟩ := dumps_cons c cs
  rintro ⟨line, hline, _, hread⟩
  -- the line begins like this, wherever it ends
  obtain ⟨rest', rfl⟩ : ∃ rest', line = "report_pr_checks".toList
      ++ ' ' :: (checksToken ++ ' ' :: '"' :: rest') := by
    have hmessage : s.message "report_pr_checks" (dumps (c :: cs)) ++ ['\n']
        = ("report_pr_checks".toList ++ ' ' :: (checksToken ++ [' ', '"']))
          ++ (rest ++ ' ' :: s.flags ++ ['\n']) := by
      unfold ShellEnv.message
      rw [hdumps]
      simp
    have hall : ∀ d ∈ "report_pr_checks".toList ++ ' ' :: (checksToken ++ [' ', '"']),
        decide (d ≠ '\n') = true := List.all_eq_true.mp (by decide)
    unfold received at hline
    dsimp only at hline
    rw [hmessage, List.takeWhile_append_of_pos hall] at hline
    split at hline
    · cases hline
    · refine ⟨(rest ++ ' ' :: s.flags ++ ['\n']).takeWhile (· ≠ '\n'), ?_⟩
      rw [← Option.some.inj hline]
      simp
  obtain ⟨more, flags, hl⟩ := parse_checks rest'
  have hnone : env.parse (String.ofList checksToken) = none := by
    cases h : env.parse (String.ofList checksToken) with
    | none => rfl
    | some v => exact absurd (hparse _ v h (by decide)) (by decide)
  rw [@dispatch_of_parseLine _ env _ .reportPrChecks (by rw [hl]; rfl), hl] at hread
  have hparam : Value.get "checks" (.obj ([("checks",
      (env.parse (String.ofList checksToken)).getD (.arr []))]
        ++ optional "workspace" (V1Line.workspaceId { command := "report_pr_checks"
                                                      args    := String.ofList checksToken :: more
                                                      flags })))
      = some (checksValue (c :: cs)) := hread
  rw [hnone] at hparam
  simp [Value.get_cons, get_optional, checksValue] at hparam

/-! ## §9. What survives. -/

theorem reportPrChecks_eq (s : ShellEnv) {checks : List PrCheck} (hne : checks ≠ []) :
    s.reportPrChecks checks = some (s.message "report_pr_checks" (dumps checks)) := by
  obtain ⟨c, cs, rfl⟩ := List.exists_cons_of_ne_nil hne
  obtain ⟨rest, hdumps⟩ := dumps_cons c cs
  refine if_neg fun h => ?_
  have hsecond : (checksToken ++ ' ' :: '"' :: rest)[1]? = "[]".toList[1]? := by rw [← hdumps, h]
  exact absurd hsecond (by
    rw [show (checksToken ++ ' ' :: '"' :: rest)[1]? = some '\x7b' from rfl]
    decide)

/-- A parser that knows the empty list. -/
def sampleV1Env : V1Env Int where
  floats := { parse := fun s => Str.parseI64 s.toList, isFinite := fun _ => true, ofInt := id }
  parse  := fun text => if text = "[]" then some (.arr []) else none

theorem sampleV1Env_closed : ArraysClosed sampleV1Env.parse := by
  intro text v h _
  by_cases htext : text = "[]"
  · rw [htext]
    decide
  · rw [show sampleV1Env.parse text = none from if_neg htext] at h
    cases h

/-- A shell in a panel and a workspace. -/
def sampleShell : ShellEnv where
  workspaceId := some ⟨List.replicate 16 1, rfl⟩
  panelId     := some ⟨List.replicate 16 2, rfl⟩

end Jmux.Socket
