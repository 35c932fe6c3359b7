/-
  Jmux.Socket.V1Line — a line of the V1 text protocol and its parts
  (`parse_args` and the first lines of `dispatch` in `socket/v1.rs`).

  The three inner loops of `parse_args` are the three modes of `tokens`.

  Main results:
    * `tokens_shape`      — what every token of a line looks like.
    * `parseLine_written` — a command whose words are written in quotes is read
                             back as it was.
-/
import Jmux.Lib.Str
import Mathlib.Data.List.Infix

namespace Jmux.Socket

open Jmux.Lib

/-! ## §1. Tokens. -/

inductive TokenMode
  /-- The blanks before a token. -/
  | between
  | quoted (token : List Char)
  | plain (token : List Char)

/-- The tokens of the rest of a line. -/
def tokens : TokenMode → List Char → List (List Char)
  | .between, [] => []
  | .between, c :: cs =>
      if c = ' ' then tokens .between cs
      else if c = '"' then tokens (.quoted []) cs
      else tokens (.plain [c]) cs
  -- a quote that is never closed ends with the line
  | .quoted token, [] => [token]
  | .quoted token, c :: cs =>
      if c = '"' then token :: tokens .between cs else tokens (.quoted (token ++ [c])) cs
  | .plain token, [] => [token]
  | .plain token, c :: cs =>
      if c = ' ' then token :: tokens .between cs else tokens (.plain (token ++ [c])) cs

theorem tokens_between_cons (c : Char) (cs : List Char) :
    tokens .between (c :: cs) =
      if c = ' ' then tokens .between cs
      else if c = '"' then tokens (.quoted []) cs
      else tokens (.plain [c]) cs := rfl

theorem tokens_quoted_cons (token : List Char) (c : Char) (cs : List Char) :
    tokens (.quoted token) (c :: cs) =
      if c = '"' then token :: tokens .between cs else tokens (.quoted (token ++ [c])) cs := rfl

theorem tokens_plain_nil (token : List Char) : tokens (.plain token) [] = [token] := rfl

theorem tokens_plain_cons (token : List Char) (c : Char) (cs : List Char) :
    tokens (.plain token) (c :: cs) =
      if c = ' ' then token :: tokens .between cs else tokens (.plain (token ++ [c])) cs := rfl

/-- `str::split_once`. -/
def splitOnce (sep : Char) (cs : List Char) : Option (List Char × List Char) :=
  if sep ∈ cs then some (cs.takeWhile (· ≠ sep), (cs.dropWhile (· ≠ sep)).tail) else none

/-! ## §2. Arguments and flags. -/

/-- The flags of a line, the last one first. -/
abbrev Flags := List (String × String)

/-- `HashMap::get`: of a repeated flag the last one counts. -/
def Flags.get (flags : Flags) (key : String) : Option String := flags.lookup key

/-- `--key=value` or `--key`, if the token is a flag. -/
def flagOf (token : List Char) : Option (String × String) :=
  (Str.stripPrefix ['-', '-'] token).map fun flag =>
    match splitOnce '=' flag with
    | some (key, value) => (String.ofList key, String.ofList value)
    | none => (String.ofList flag, "")

/-- The positional arguments and the flags. -/
def parseArgs (input : List Char) : List String × Flags :=
  let ts := tokens .between input
  ((ts.filter fun t => (flagOf t).isNone).map String.ofList, (ts.filterMap flagOf).reverse)

/-- A line in parts. -/
structure V1Line where
  command : String
  args    : List String := []
  flags   : Flags := []
  deriving DecidableEq, Repr

def parseLine (line : List Char) : V1Line :=
  let trimmed := Str.trimMatches Str.isWhitespace line
  match splitOnce ' ' trimmed with
  | some (command, rest) =>
      let parsed := parseArgs (Str.trimMatches Str.isWhitespace rest)
      { command := String.ofList command, args := parsed.1, flags := parsed.2 }
  | none => { command := String.ofList trimmed }

namespace V1Line

def workspaceId (l : V1Line) : Option String := (l.flags.get "tab").or (l.flags.get "workspace")

def panelId (l : V1Line) : Option String := (l.flags.get "panel").or (l.flags.get "surface")

/-- `args.first()` as text, with what stands for a missing one. -/
def arg (l : V1Line) (i : Nat) (missing : String) : String := (l.args[i]?).getD missing

end V1Line

/-! ## §3. How tokens are read. -/

theorem tokens_quoted {t : List Char} (ht : '"' ∉ t) (acc rest : List Char) :
    tokens (.quoted acc) (t ++ '"' :: rest) = (acc ++ t) :: tokens .between rest := by
  induction t generalizing acc with
  | nil =>
      show tokens (.quoted acc) ('"' :: rest) = _
      rw [tokens_quoted_cons, if_pos rfl, List.append_nil]
  | cons c t ih =>
      have hc : c ≠ '"' := fun h => ht (h ▸ List.mem_cons_self)
      show tokens (.quoted acc) (c :: (t ++ '"' :: rest)) = _
      rw [tokens_quoted_cons, if_neg hc, ih (fun h => ht (List.mem_cons_of_mem c h)), List.append_assoc]
      rfl

theorem tokens_plain {t : List Char} (ht : ' ' ∉ t) (acc rest : List Char) :
    tokens (.plain acc) (t ++ ' ' :: rest) = (acc ++ t) :: tokens .between rest := by
  induction t generalizing acc with
  | nil =>
      show tokens (.plain acc) (' ' :: rest) = _
      rw [tokens_plain_cons, if_pos rfl, List.append_nil]
  | cons c t ih =>
      have hc : c ≠ ' ' := fun h => ht (h ▸ List.mem_cons_self)
      show tokens (.plain acc) (c :: (t ++ ' ' :: rest)) = _
      rw [tokens_plain_cons, if_neg hc, ih (fun h => ht (List.mem_cons_of_mem c h)), List.append_assoc]
      rfl

theorem tokens_plain_end {t : List Char} (ht : ' ' ∉ t) (acc : List Char) :
    tokens (.plain acc) t = [acc ++ t] := by
  induction t generalizing acc with
  | nil =>
      rw [tokens_plain_nil, List.append_nil]
  | cons c t ih =>
      have hc : c ≠ ' ' := fun h => ht (h ▸ List.mem_cons_self)
      rw [tokens_plain_cons, if_neg hc, ih (fun h => ht (List.mem_cons_of_mem c h)), List.append_assoc]
      rfl

theorem tokens_blank (rest : List Char) : tokens .between (' ' :: rest) = tokens .between rest := by
  rw [tokens_between_cons, if_pos rfl]

/-- A word that starts with neither a blank nor a quote is read up to a blank. -/
theorem tokens_word {c : Char} {t : List Char} (hc : c ≠ '"') (ht : ' ' ∉ c :: t)
    (rest : List Char) :
    tokens .between (c :: t ++ ' ' :: rest) = (c :: t) :: tokens .between rest := by
  obtain ⟨hblank, ht⟩ := not_or.mp (mt List.mem_cons.mpr ht)
  show tokens .between (c :: (t ++ ' ' :: rest)) = _
  rw [tokens_between_cons, if_neg (Ne.symm hblank), if_neg hc, tokens_plain ht]
  rfl

theorem tokens_word_end {c : Char} {t : List Char} (hc : c ≠ '"') (ht : ' ' ∉ c :: t) :
    tokens .between (c :: t) = [c :: t] := by
  obtain ⟨hblank, ht⟩ := not_or.mp (mt List.mem_cons.mpr ht)
  rw [tokens_between_cons, if_neg (Ne.symm hblank), if_neg hc, tokens_plain_end ht]
  rfl

/-! ## §4. What tokens look like. -/

/-- A quoted token has no quote in it; a plain one has no blank in it and does not
start with a quote. -/
def TokenShape (t : List Char) : Prop :=
  '"' ∉ t ∨ (' ' ∉ t ∧ t.head? ≠ some '"')

/-- What a mode knows about the token in progress. -/
def TokenMode.Ok : TokenMode → Prop
  | .between => True
  | .quoted token => '"' ∉ token
  | .plain token => ' ' ∉ token ∧ ∃ c t, token = c :: t ∧ c ≠ '"'

/-- **Every token of a line has one of the two shapes, and stands in the line.** -/
theorem tokens_shape {mode : TokenMode} (hmode : mode.Ok) (cs : List Char) :
    ∀ t ∈ tokens mode cs, TokenShape t := by
  induction cs generalizing mode with
  | nil =>
      cases mode with
      | between =>
          intro t ht
          cases ht
      | quoted token =>
          intro t ht
          obtain rfl := List.mem_singleton.mp ht
          exact .inl hmode
      | plain token =>
          intro t ht
          obtain rfl := List.mem_singleton.mp ht
          obtain ⟨hblank, c, u, rfl, hc⟩ := hmode
          exact .inr ⟨hblank, fun h => hc (Option.some.inj h)⟩
  | cons c cs ih =>
      cases mode with
      | between =>
          rw [tokens_between_cons]
          split
          · exact ih trivial
          next hblank =>
            split
            · exact ih List.not_mem_nil
            next hquote =>
              exact ih ⟨fun h => hblank (List.mem_singleton.mp h).symm, c, [], rfl, hquote⟩
      | quoted token =>
          rw [tokens_quoted_cons]
          split
          · intro t ht
            rcases List.mem_cons.mp ht with rfl | ht
            · exact .inl hmode
            · exact @ih .between trivial t ht
          next hquote =>
            refine ih fun h => ?_
            rcases List.mem_append.mp h with h | h
            · exact hmode h
            · exact hquote (List.mem_singleton.mp h).symm
      | plain token =>
          obtain ⟨hno, d, u, hd, hquote⟩ := hmode
          rw [tokens_plain_cons]
          split
          · intro t ht
            rcases List.mem_cons.mp ht with rfl | ht
            · subst hd
              exact .inr ⟨hno, fun h => hquote (Option.some.inj h)⟩
            · exact @ih .between trivial t ht
          next hblank =>
            refine ih ⟨fun h => ?_, d, u ++ [c], by rw [hd]; rfl, hquote⟩
            rcases List.mem_append.mp h with h | h
            · exact hno h
            · exact hblank (List.mem_singleton.mp h).symm

/-- Without quotes a line is cut at every blank. -/
theorem tokens_no_quote {cs : List Char} (hcs : '"' ∉ cs) :
    ∀ t ∈ tokens .between cs, ' ' ∉ t := by
  suffices hall : ∀ mode : TokenMode, (∀ t, mode ≠ .quoted t) → mode.Ok →
      ∀ t ∈ tokens mode cs, ' ' ∉ t from hall .between (fun t h => by cases h) trivial
  induction cs with
  | nil =>
      intro mode hmode hok t ht
      cases mode with
      | between => cases ht
      | quoted token => exact absurd rfl (hmode token)
      | plain token => exact List.mem_singleton.mp ht ▸ hok.1
  | cons c cs ih =>
      have hcs' : '"' ∉ cs := fun h => hcs (List.mem_cons_of_mem c h)
      have hc : c ≠ '"' := fun h => hcs (h ▸ List.mem_cons_self)
      intro mode hmode hok
      cases mode with
      | between =>
          rw [tokens_between_cons]
          split
          · exact ih hcs' .between (fun t h => by cases h) trivial
          next hblank =>
            exact ih hcs' (.plain [c]) (fun t h => by cases h)
              ⟨fun h => hblank (List.mem_singleton.mp h).symm, c, [], rfl, hc⟩
      | quoted token => exact absurd rfl (hmode token)
      | plain token =>
          obtain ⟨hno, d, u, hd, hquote⟩ := hok
          rw [tokens_plain_cons]
          split
          · intro t ht
            rcases List.mem_cons.mp ht with rfl | ht
            · exact hno
            · exact ih hcs' .between (fun t h => by cases h) trivial t ht
          next hblank =>
            refine ih hcs' (.plain (token ++ [c])) (fun t h => by cases h)
              ⟨fun h => ?_, d, u ++ [c], by rw [hd]; rfl, hquote⟩
            rcases List.mem_append.mp h with h | h
            · exact hno h
            · exact hblank (List.mem_singleton.mp h).symm

/-- What a mode has read already. -/
def TokenMode.read : TokenMode → List Char
  | .between => []
  | .quoted token | .plain token => token

/-- A token is a part of the line. -/
theorem tokens_infix (mode : TokenMode) (cs : List Char) :
    ∀ t ∈ tokens mode cs, t <:+: mode.read ++ cs := by
  induction cs generalizing mode with
  | nil =>
      intro t ht
      cases mode with
      | between => cases ht
      | quoted token =>
          obtain rfl := List.mem_singleton.mp ht
          exact (List.append_nil _).symm ▸ List.infix_refl _
      | plain token =>
          obtain rfl := List.mem_singleton.mp ht
          exact (List.append_nil _).symm ▸ List.infix_refl _
  | cons c cs ih =>
      have htail : cs <:+: c :: cs := (List.suffix_cons c cs).isInfix
      -- the token in progress ends here, or takes the character
      have hends : ∀ {token t : List Char}, t ∈ token :: tokens .between cs →
          t <:+: token ++ c :: cs := by
        intro token t ht
        rcases List.mem_cons.mp ht with rfl | ht
        · exact (List.prefix_append _ _).isInfix
        · exact ((ih .between t ht).trans htail).trans (List.suffix_append _ _).isInfix
      have hgrows : ∀ {grown : TokenMode} {token t : List Char}, grown.read = token ++ [c] →
          t ∈ tokens grown cs → t <:+: token ++ c :: cs := by
        intro grown token t hread ht
        have h := ih grown t ht
        rw [hread, List.append_assoc] at h
        exact h
      intro t ht
      cases mode with
      | between =>
          rw [tokens_between_cons] at ht
          split at ht
          · exact (ih _ t ht).trans htail
          · split at ht
            · exact (ih _ t ht).trans htail
            · exact ih _ t ht
      | quoted token =>
          rw [tokens_quoted_cons] at ht
          split at ht
          · exact hends ht
          · exact hgrows rfl ht
      | plain token =>
          rw [tokens_plain_cons] at ht
          split at ht
          · exact hends ht
          · exact hgrows rfl ht

/-! ## §5. A command that is written in quotes. -/

theorem splitOnce_append {sep : Char} {as : List Char} (h : sep ∉ as) (bs : List Char) :
    splitOnce sep (as ++ sep :: bs) = some (as, bs) := by
  have hall : ∀ c ∈ as, decide (c ≠ sep) = true := fun c hc =>
    decide_eq_true (ne_of_mem_of_not_mem hc h)
  unfold splitOnce
  rw [if_pos (List.mem_append_right _ List.mem_cons_self), List.takeWhile_append_of_pos hall,
    List.dropWhile_append_of_pos hall]
  simp

theorem splitOnce_none {sep : Char} {cs : List Char} (h : sep ∉ cs) : splitOnce sep cs = none :=
  if_neg h

/-- Nothing to trim. -/
theorem trimMatches_self {p : Char → Bool} {cs : List Char} (hne : cs ≠ [])
    (hhead : p (cs.head hne) = false) (hlast : p (cs.getLast hne) = false) :
    Str.trimMatches p cs = cs := by
  have hdrop : cs.dropWhile p = cs := by
    obtain ⟨c, t, rfl⟩ := List.exists_cons_of_ne_nil hne
    rw [List.dropWhile_cons_of_neg (by simpa using hhead)]
  unfold Str.trimMatches Str.trimEndMatches
  rw [hdrop, List.rdropWhile_eq_self_iff]
  intro _
  rw [hlast]
  exact Bool.false_ne_true

/-- The words of a command, each in quotes. -/
def quotedWords : List String → List Char
  | [] => []
  | [w] => '"' :: (w.toList ++ ['"'])
  | w :: ws => '"' :: (w.toList ++ '"' :: ' ' :: quotedWords ws)

/-- The line of a command. -/
def written (command : String) (words : List String) : List Char :=
  if words = [] then command.toList else command.toList ++ ' ' :: quotedWords words

theorem tokens_quotedWords {words : List String} (h : ∀ w ∈ words, '"' ∉ w.toList) :
    tokens .between (quotedWords words) = words.map (·.toList) := by
  have hopen : ∀ cs, tokens .between ('"' :: cs) = tokens (.quoted []) cs := by
    intro cs
    rw [tokens_between_cons, if_neg (by decide), if_pos rfl]
  induction words with
  | nil => rfl
  | cons w ws ih =>
      have hw : '"' ∉ w.toList := h w List.mem_cons_self
      cases ws with
      | nil =>
          show tokens .between ('"' :: (w.toList ++ '"' :: [])) = _
          rw [hopen, tokens_quoted hw]
          rfl
      | cons v ws =>
          show tokens .between ('"' :: (w.toList ++ '"' :: ' ' :: quotedWords (v :: ws))) = _
          rw [hopen, tokens_quoted hw, tokens_blank, ih fun u hu => h u (List.mem_cons_of_mem w hu)]
          rfl

/-- The words begin and end with a quote. -/
theorem quotedWords_ends {words : List String} (hne : words ≠ []) :
    ∃ h : quotedWords words ≠ [], (quotedWords words).head h = '"' ∧
      (quotedWords words).getLast h = '"' := by
  induction words with
  | nil => exact absurd rfl hne
  | cons w ws ih =>
      cases ws with
      | nil =>
          refine ⟨List.cons_ne_nil _ _, rfl, ?_⟩
          show ('"' :: (w.toList ++ ['"'])).getLast _ = '"'
          simp
      | cons v ws =>
          obtain ⟨hne', _, hlast⟩ := ih (List.cons_ne_nil _ _)
          refine ⟨List.cons_ne_nil _ _, rfl, ?_⟩
          show ('"' :: (w.toList ++ '"' :: ' ' :: quotedWords (v :: ws))).getLast _ = '"'
          rw [List.getLast_cons (by simp), List.getLast_append_of_ne_nil _ (by simp),
            List.getLast_cons (by simp), List.getLast_cons hne', hlast]

/-- A command name: something, and no white space in it. -/
structure CommandName (command : String) : Prop where
  nonempty : command.toList ≠ []
  solid    : ∀ c ∈ command.toList, Str.isWhitespace c = false

theorem commandName_of_all {command : String} (hne : command.toList ≠ [])
    (hall : command.toList.all (fun c => !Str.isWhitespace c) = true) : CommandName command where
  nonempty := hne
  solid    := fun c hc => by simpa using List.all_eq_true.mp hall c hc

theorem CommandName.no_blank {command : String} (h : CommandName command) :
    ' ' ∉ command.toList := fun hmem => absurd (h.solid ' ' hmem) (by decide)

/-- The parts of a line that begins with a command name. -/
theorem parseLine_command {command : String} (hc : CommandName command) (rest : List Char) :
    parseLine (command.toList ++ ' ' :: rest)
      = { command
          args  := (parseArgs (Str.trimMatches Str.isWhitespace rest)).1
          flags := (parseArgs (Str.trimMatches Str.isWhitespace rest)).2 } := by
  have hhead : Str.isWhitespace (command.toList.head hc.nonempty) = false :=
    hc.solid _ (List.head_mem _)
  have hname : Str.trimEndMatches Str.isWhitespace command.toList = command.toList :=
    Str.trimEndMatches_self hc.nonempty (hc.solid _ (List.getLast_mem _))
  have htail : Str.trimEndMatches Str.isWhitespace (' ' :: rest)
      = if Str.trimEndMatches Str.isWhitespace rest = [] then []
        else ' ' :: Str.trimEndMatches Str.isWhitespace rest :=
    Str.trimEndMatches_append Str.isWhitespace [' '] rest
  -- nothing is trimmed in front
  have hdrop (cs : List Char) :
      (command.toList ++ cs).dropWhile Str.isWhitespace = command.toList ++ cs := by
    obtain ⟨c, t, hct⟩ := List.exists_cons_of_ne_nil hc.nonempty
    have hcw : Str.isWhitespace c = false := hc.solid c (hct ▸ List.mem_cons_self)
    rw [hct, List.cons_append, List.dropWhile_cons_of_neg (by rw [hcw]; exact Bool.false_ne_true)]
  unfold parseLine
  rw [Str.trimMatches_comm, Str.trimEndMatches_append, htail]
  by_cases hrest : Str.trimEndMatches Str.isWhitespace rest = []
  · have hdone : Str.trimMatches Str.isWhitespace rest = [] := by
      rw [Str.trimMatches_comm, hrest]
      rfl
    have hname' := hdrop []
    rw [List.append_nil] at hname'
    rw [if_pos hrest, if_pos rfl, hname, hname', hdone]
    dsimp only
    rw [splitOnce_none hc.no_blank, String.ofList_toList]
    rfl
  · rw [if_neg hrest, if_neg (List.cons_ne_nil _ _), hdrop]
    dsimp only
    rw [splitOnce_append hc.no_blank]
    dsimp only
    rw [Str.trimMatches_trimEndMatches, String.ofList_toList]

/-- **A command whose words are in quotes is read back as it was written.** -/
theorem parseLine_written {command : String} (hc : CommandName command) {words : List String}
    (h : ∀ w ∈ words, '"' ∉ w.toList) :
    parseLine (written command words)
      = { command
          args  := words.filter fun w => (flagOf w.toList).isNone
          flags := (words.filterMap fun w => flagOf w.toList).reverse } := by
  unfold written
  by_cases hwords : words = []
  · have hhead : Str.isWhitespace (command.toList.head hc.nonempty) = false :=
      hc.solid _ (List.head_mem _)
    subst hwords
    unfold parseLine
    rw [if_pos rfl, trimMatches_self hc.nonempty hhead (hc.solid _ (List.getLast_mem _))]
    dsimp only
    rw [splitOnce_none hc.no_blank, String.ofList_toList]
    rfl
  · obtain ⟨hne, hfirst, hlast⟩ := quotedWords_ends hwords
    have hquote : Str.isWhitespace '"' = false := by decide
    have hrest : Str.trimMatches Str.isWhitespace (quotedWords words) = quotedWords words :=
      trimMatches_self hne (hfirst ▸ hquote) (hlast ▸ hquote)
    have hid : (String.ofList ∘ fun w : String => w.toList) = id :=
      funext fun w => String.ofList_toList
    rw [if_neg hwords, parseLine_command hc, hrest]
    unfold parseArgs
    dsimp only
    rw [tokens_quotedWords h, List.filter_map, List.map_map, List.filterMap_map, hid, List.map_id]
    rfl

end Jmux.Socket
