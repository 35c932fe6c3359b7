/-
  Jmux.Lib.ShellList — how a POSIX shell reads a list of simple commands.

  On top of the words of `Jmux.Lib.Shell`: commands joined by `;`, and redirections.
  A text that the splitter of words accepts has neither, so it is read here as it is
  read there (`exec_words`), and what was proved about one word carries over.

  Main results:
    * `readsIn_of_reads`  — a text that is read as one word is read as that word
                             inside a list of commands.
    * `commands_script`   — lines of words and redirections, joined by `;`, are read as
                             the commands they write.
-/
import Jmux.Lib.Shell

namespace Jmux.Lib.ShellList

open Jmux.Lib.Shell (ShellState Reads)

/-! ## §1. The reader. -/

inductive Token
  | word (text : List Char)
  /-- `2>`: the next word is the file. -/
  | redirect (descriptor : List Char)
  | semicolon
  deriving DecidableEq, Repr

structure ListState where
  tokens : List Token := []
  /-- The words since the last token. -/
  words  : ShellState := {}
  /-- The text of the word in progress, as it stands. -/
  raw    : List Char := []
  deriving DecidableEq

namespace ListState

/-- An operator ends the word in progress. -/
def operator (st : ListState) (token : Token) : ListState :=
  { tokens := st.tokens ++ (st.words.done ++ st.words.cur.toList).map .word ++ [token] }

/-- `>`: a number in front of it, not quoted, is the descriptor. -/
def redirection (st : ListState) : Option ListState :=
  if st.words.cur = some st.raw ∧ st.raw.all Char.isDigit then
    some { tokens := st.tokens ++ st.words.done.map .word ++ [.redirect st.raw] }
  else if st.words.cur = none then some (st.operator (.redirect ['1']))
  else none

variable (output : List Char → List Char)

/-- The character is one of a word. -/
def inWord (st : ListState) (c : Char) : Option ListState :=
  (ShellState.step output st.words c).map fun words =>
    -- `raw` follows the words: a blank ends both
    { st with words, raw := if st.words.mode = .plain ∧ c = ' ' then [] else st.raw ++ [c] }

def step (st : ListState) (c : Char) : Option ListState :=
  if st.words.mode ≠ .plain then st.inWord output c
  else if c = ';' then some (st.operator .semicolon)
  else if c = '>' then st.redirection
  else st.inWord output c

end ListState

/-- The tokens of a text; `none` for one outside the modelled part. -/
def tokens (output : List Char → List Char) (text : List Char) : Option (List Token) :=
  (exec (ListState.step output) {} text).bind fun st =>
    if st.words.mode = .plain then
      some (st.tokens ++ (st.words.done ++ st.words.cur.toList).map .word)
    else none

/-! ## §2. The commands. -/

structure Command where
  words     : List (List Char) := []
  redirects : List (List Char × List Char) := []
  deriving DecidableEq, Repr

/-- One command, without its list. -/
def command : List Token → Option Command
  | [] => some {}
  | .word w :: ts => (command ts).map fun c => { c with words := w :: c.words }
  | .redirect fd :: .word file :: ts =>
      (command ts).map fun c => { c with redirects := (fd, file) :: c.redirects }
  | _ => none

def isSemicolon : Token → Bool
  | .semicolon => true
  | _ => false

/-- The commands of a text, in order. -/
def commands (output : List Char → List Char) (text : List Char) : Option (List Command) :=
  (tokens output text).bind fun ts => (ts.splitOnP isSemicolon).mapM command

/-! ## §3. Words inside a list. -/

variable {output : List Char → List Char}

/-- What the splitter of words takes outside of quotes. -/
theorem taken_plain {words next : ShellState} {c : Char} (hplain : words.mode = .plain)
    (h : ShellState.step output words c = some next) :
    c = ' ' ∨ c = '\'' ∨ c = '"' ∨ c = '\\' ∨ Shell.isPlain c = true := by
  by_contra hnot
  simp only [not_or] at hnot
  obtain ⟨hblank, hsingle, hdouble, hescape, hchar⟩ := hnot
  unfold ShellState.step at h
  simp only [hplain, if_neg hblank, if_neg hsingle, if_neg hdouble, if_neg hescape,
    if_neg hchar] at h
  cases h

/-- A character that the splitter of words takes is no operator. -/
theorem step_word {st : ListState} {c : Char} {words : ShellState}
    (h : ShellState.step output st.words c = some words) :
    ∃ raw, ListState.step output st c = some { st with words, raw } := by
  have hinWord : st.inWord output c = some { st with
      words, raw := if st.words.mode = .plain ∧ c = ' ' then [] else st.raw ++ [c] } := by
    unfold ListState.inWord
    rw [h, Option.map_some]
  refine ⟨_, Eq.trans ?_ hinWord⟩
  unfold ListState.step
  by_cases hplain : st.words.mode = .plain
  · -- outside of quotes the splitter refuses the operators
    have hchar := taken_plain hplain h
    have hne : c ≠ ';' ∧ c ≠ '>' := by
      refine ⟨?_, ?_⟩ <;> (rintro rfl; exact absurd hchar (by decide))
    rw [if_neg (not_not_intro hplain), if_neg hne.1, if_neg hne.2]
  · rw [if_pos hplain]

/-- **A text of words is read as these words.** -/
theorem exec_words {text : List Char} :
    ∀ {st : ListState} {words : ShellState},
      exec (ShellState.step output) st.words text = some words →
      ∃ raw, exec (ListState.step output) st text = some { st with words, raw } := by
  induction text with
  | nil =>
      intro st words h
      cases h
      exact ⟨st.raw, rfl⟩
  | cons c text ih =>
      intro st words h
      obtain ⟨mid, hc, hrest⟩ := exec_cons.mp h
      obtain ⟨raw, hstep⟩ := step_word hc
      obtain ⟨raw', hafter⟩ := @ih { st with words := mid, raw } words hrest
      exact ⟨raw', exec_cons.mpr ⟨_, hstep, hafter⟩⟩

/-- Read outside of quotes, the text adds `w` to the word in progress. -/
def ReadsIn (output : List Char → List Char) (text w : List Char) : Prop :=
  ∀ st : ListState, st.words.mode = .plain →
    ∃ raw, exec (ListState.step output) st text
      = some { st with words := st.words.push w .plain, raw }

/-- **A word is read inside a list of commands as it is read alone.** -/
theorem readsIn_of_reads {text w : List Char} (h : Reads output text w) :
    ReadsIn output text w :=
  fun st hmode => exec_words (h st.words hmode)

/-- Everything read so far, the word in progress included. -/
def ListState.flushed (st : ListState) : List Token :=
  st.tokens ++ (st.words.done ++ st.words.cur.toList).map .word

/-- A line without redirections leaves its words. -/
theorem exec_words_line {texts ws : List (List Char)}
    (h : List.Forall₂ (ReadsIn output) texts ws) :
    ∀ (ts : List Token) (done : List (List Char)), texts ≠ [] →
      ∃ st, exec (ListState.step output) { tokens := ts, words := { done } } (Shell.join texts)
          = some st ∧ st.words.mode = .plain ∧ st.words.cur ≠ none ∧
        st.flushed = ts ++ (done ++ ws).map .word := by
  induction h with
  | nil =>
      intro ts done hne
      exact absurd rfl hne
  | @cons text w texts ws hw hrest ih =>
      intro ts done _
      obtain ⟨raw, hfirst⟩ := hw { tokens := ts, words := { done } } rfl
      cases hrest with
      | nil =>
          refine ⟨{ tokens := ts, words := ({ done } : ShellState).push w .plain, raw }, ?_, rfl,
            ?_, ?_⟩
          · simpa [Shell.join] using hfirst
          · simp [ShellState.push]
          · simp [ListState.flushed, ShellState.push]
      | @cons text' w' texts ws hw' hrest =>
          obtain ⟨st, hst, hmode, hcur, hflushed⟩ := ih ts (done ++ [w]) (List.cons_ne_nil _ _)
          refine ⟨st, ?_, hmode, hcur, by rw [hflushed]; simp⟩
          have hblank : ListState.step output
              { tokens := ts, words := ({ done } : ShellState).push w .plain, raw } ' '
                = some { tokens := ts, words := { done := done ++ [w] } } := by
            simp [ListState.step, ListState.inWord, ShellState.step, ShellState.push,
              ShellState.finish]
          have hjoin : Shell.join (text :: text' :: texts)
              = text ++ (' ' :: Shell.join (text' :: texts)) := by
            simp [Shell.join, List.intercalate]
          rw [hjoin]
          exact exec_append.mpr ⟨_, hfirst, exec_cons.mpr ⟨_, hblank, hst⟩⟩

/-- The text of a redirection. -/
def redirection (fd : Char) (file : List Char) : List Char := ' ' :: fd :: '>' :: file

theorem plain_of_isDigit {c : Char} (h : c.isDigit = true) :
    Shell.isPlain c = true ∧ c ≠ ' ' ∧ c ≠ '\'' ∧ c ≠ '"' ∧ c ≠ '\\' ∧ c ≠ ';' ∧ c ≠ '>' := by
  constructor
  · unfold Char.isDigit at h
    unfold Shell.isPlain
    simp only [Bool.and_eq_true, decide_eq_true_eq] at h
    simp only [Bool.or_eq_true, Bool.and_eq_true, decide_eq_true_eq]
    exact .inl (.inr h)
  · refine ⟨?_, ?_, ?_, ?_, ?_, ?_⟩ <;> (rintro rfl; exact absurd h (by decide))

/-- **A redirection behind a word.** -/
theorem exec_redirection {fd : Char} (hfd : fd.isDigit = true) {file w : List Char}
    (hfile : ReadsIn output file w) {st : ListState} (hmode : st.words.mode = .plain)
    (hcur : st.words.cur ≠ none) :
    ∃ st', exec (ListState.step output) st (redirection fd file) = some st' ∧
      st'.words.mode = .plain ∧ st'.words.cur ≠ none ∧
      st'.flushed = st.flushed ++ [.redirect [fd], .word w] := by
  obtain ⟨ts, words, raw⟩ := st
  -- a blank, the descriptor, the operator, and the file as a word of its own
  have hblank : ListState.step output { tokens := ts, words, raw } ' '
      = some { tokens := ts, words := words.finish } := by
    have hmode' : words.mode = .plain := hmode
    simp [ListState.step, ListState.inWord, hmode', ShellState.step]
  have hdigit : ListState.step output { tokens := ts, words := words.finish } fd
      = some { tokens := ts, words := words.finish.push [fd] .plain, raw := [fd] } := by
    obtain ⟨hplain, hne⟩ := plain_of_isDigit hfd
    simp [ListState.step, ListState.inWord, ShellState.step, ShellState.finish, hplain, hne]
  have hop : ListState.step output
      { tokens := ts, words := words.finish.push [fd] .plain, raw := [fd] } '>'
        = some { tokens := ts ++ words.finish.done.map .word ++ [.redirect [fd]] } := by
    simp [ListState.step, ListState.redirection, ShellState.push, ShellState.finish, hfd]
  obtain ⟨raw', hread⟩ := hfile
    { tokens := ts ++ words.finish.done.map .word ++ [.redirect [fd]] } rfl
  refine ⟨_, exec_cons.mpr ⟨_, hblank, exec_cons.mpr ⟨_, hdigit, exec_cons.mpr ⟨_, hop, hread⟩⟩⟩,
    rfl, ?_, ?_⟩
  · simp [ShellState.push]
  · simp [ListState.flushed, ShellState.push, ShellState.finish]

/-- The text of a command: its words, then its redirections. -/
structure Line where
  texts     : List (List Char)
  redirects : List (Char × List Char) := []

def Line.text (l : Line) : List Char :=
  Shell.join l.texts ++ l.redirects.flatMap fun r => redirection r.1 r.2

/-- What a redirection's text writes. -/
def RedirectMeans (output : List Char → List Char) (r : Char × List Char)
    (m : List Char × List Char) : Prop :=
  r.1.isDigit = true ∧ m.1 = [r.1] ∧ ReadsIn output r.2 m.2

/-- Part by part, the text is that of the command. -/
structure Line.Means (output : List Char → List Char) (l : Line) (c : Command) : Prop where
  nonempty  : l.texts ≠ []
  words     : List.Forall₂ (ReadsIn output) l.texts c.words
  redirects : List.Forall₂ (RedirectMeans output) l.redirects c.redirects

def Command.tokens (c : Command) : List Token :=
  c.words.map .word ++ c.redirects.flatMap fun r => [.redirect r.1, .word r.2]

theorem exec_redirections {rs : List (Char × List Char)} {ms : List (List Char × List Char)}
    (h : List.Forall₂ (RedirectMeans output) rs ms) :
    ∀ st : ListState, st.words.mode = .plain → st.words.cur ≠ none →
      ∃ st', exec (ListState.step output) st (rs.flatMap fun r => redirection r.1 r.2)
          = some st' ∧ st'.words.mode = .plain ∧
        st'.flushed = st.flushed ++ ms.flatMap fun r => [.redirect r.1, .word r.2] := by
  induction h with
  | nil =>
      intro st hmode _
      exact ⟨st, rfl, hmode, (List.append_nil _).symm⟩
  | @cons r m rs ms hr _ ih =>
      intro st hmode hcur
      obtain ⟨hfd, hm, hfile⟩ := hr
      obtain ⟨mid, hmid, hmode', hcur', hflushed⟩ := exec_redirection hfd hfile hmode hcur
      obtain ⟨st', hst', hm', hlast⟩ := ih mid hmode' hcur'
      refine ⟨st', exec_append.mpr ⟨mid, hmid, hst'⟩, hm', ?_⟩
      rw [hlast, hflushed, List.flatMap_cons, hm, List.append_assoc]

theorem exec_line {l : Line} {c : Command} (h : l.Means output c) (ts : List Token) :
    ∃ st, exec (ListState.step output) { tokens := ts } l.text = some st ∧
      st.words.mode = .plain ∧ st.flushed = ts ++ c.tokens := by
  obtain ⟨mid, hmid, hmode, hcur, hflushed⟩ := exec_words_line h.words ts [] h.nonempty
  obtain ⟨st, hst, hm, hlast⟩ := exec_redirections h.redirects mid hmode hcur
  refine ⟨st, exec_append.mpr ⟨mid, hmid, hst⟩, hm, ?_⟩
  rw [hlast, hflushed, List.append_assoc]
  rfl

/-! ## §4. Lines joined by `;`. -/

def scriptText (first : Line) (rest : List Line) : List Char :=
  first.text ++ rest.flatMap fun l => ';' :: ' ' :: l.text

theorem exec_semicolon {st : ListState} (hmode : st.words.mode = .plain) :
    exec (ListState.step output) st [';', ' '] = some { tokens := st.flushed ++ [.semicolon] } := by
  obtain ⟨ts, words, raw⟩ := st
  have hmode' : words.mode = .plain := hmode
  simp [exec, ListState.step, ListState.inWord, ListState.operator, ListState.flushed,
    ShellState.step, ShellState.finish, hmode']

/-- The tokens of the lines behind the first. -/
def restTokens (cs : List Command) : List Token := cs.flatMap fun c => .semicolon :: c.tokens

theorem exec_rest {rest : List Line} {cs : List Command}
    (h : List.Forall₂ (Line.Means output) rest cs) :
    ∀ st : ListState, st.words.mode = .plain →
      ∃ st', exec (ListState.step output) st (rest.flatMap fun l => ';' :: ' ' :: l.text)
          = some st' ∧ st'.words.mode = .plain ∧ st'.flushed = st.flushed ++ restTokens cs := by
  induction h with
  | nil =>
      intro st hmode
      exact ⟨st, rfl, hmode, (List.append_nil _).symm⟩
  | @cons l c rest cs hl _ ih =>
      intro st hmode
      obtain ⟨mid, hmid, hm, hflushed⟩ := exec_line hl (st.flushed ++ [.semicolon])
      obtain ⟨st', hst', hm', hlast⟩ := ih mid hm
      refine ⟨st', ?_, hm', ?_⟩
      · have hhead : exec (ListState.step output) st ([';', ' '] ++ l.text) = some mid :=
          exec_append.mpr ⟨_, exec_semicolon hmode, hmid⟩
        exact exec_append.mpr ⟨mid, hhead, hst'⟩
      · rw [hlast, hflushed]
        simp [restTokens]

theorem command_tokens (c : Command) : command c.tokens = some c := by
  obtain ⟨ws, rs⟩ := c
  have hredirects : command (rs.flatMap fun r => [.redirect r.1, .word r.2])
      = some { redirects := rs } := by
    induction rs with
    | nil => rfl
    | cons r rs ih =>
        exact congrArg (Option.map fun c => { c with redirects := r :: c.redirects }) ih
  unfold Command.tokens
  induction ws with
  | nil => exact hredirects
  | cons w ws ih => exact congrArg (Option.map fun c => { c with words := w :: c.words }) ih

theorem mapM_command_tokens (cs : List Command) :
    (cs.map Command.tokens).mapM command = some cs := by
  induction cs with
  | nil => rfl
  | cons c cs ih =>
      rw [List.map_cons, List.mapM_cons, command_tokens, ih]
      rfl

theorem not_semicolon_of_mem_tokens {c : Command} : ∀ t ∈ c.tokens, isSemicolon t = false := by
  intro t ht
  unfold Command.tokens at ht
  rcases List.mem_append.mp ht with h | h
  · obtain ⟨w, _, rfl⟩ := List.mem_map.mp h
    rfl
  · obtain ⟨r, _, hr⟩ := List.mem_flatMap.mp h
    rcases List.mem_pair.mp hr with rfl | rfl <;> rfl

theorem splitOnP_tokens (c : Command) (cs : List Command) :
    (c.tokens ++ restTokens cs).splitOnP isSemicolon = (c :: cs).map Command.tokens := by
  induction cs generalizing c with
  | nil =>
      rw [show restTokens [] = [] from rfl, List.append_nil,
        List.splitOnP_eq_singleton not_semicolon_of_mem_tokens]
      rfl
  | cons d cs ih =>
      rw [show restTokens (d :: cs) = .semicolon :: (d.tokens ++ restTokens cs) from rfl,
        List.splitOnP_append_cons_of_forall_mem not_semicolon_of_mem_tokens _ rfl, ih d]
      rfl

/-- **A script is read as the commands of its lines.** -/
theorem commands_script {first : Line} {c : Command} {rest : List Line} {cs : List Command}
    (hfirst : first.Means output c) (hrest : List.Forall₂ (Line.Means output) rest cs) :
    commands output (scriptText first rest) = some (c :: cs) := by
  obtain ⟨mid, hmid, hmode, hflushed⟩ := exec_line hfirst []
  obtain ⟨st, hst, hm, hlast⟩ := exec_rest hrest mid hmode
  have htokens : tokens output (scriptText first rest) = some (c.tokens ++ restTokens cs) := by
    have hall : exec (ListState.step output) {} (scriptText first rest) = some st :=
      exec_append.mpr ⟨mid, hmid, hst⟩
    unfold tokens
    rw [hall, Option.bind_some, if_pos hm]
    show some st.flushed = _
    rw [hlast, hflushed, List.nil_append]
  unfold commands
  rw [htokens, Option.bind_some, splitOnP_tokens, mapM_command_tokens]

end Jmux.Lib.ShellList
