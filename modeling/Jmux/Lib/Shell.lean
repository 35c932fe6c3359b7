/-
  Jmux.Lib.Shell — how a POSIX shell splits a simple command into words.

  The part of the grammar that programs use when they build a command line:
  words of plain characters, single quotes, escapes, and `"$(…)"` with a command
  whose output becomes (part of) one word.  Everything else makes the splitter
  fail, so a text it accepts has no operator, no other expansion and no glob.

  The splitter reads one character at a time (`ShellState.step`), hence a text
  is read part by part: `exec_append` of `Jmux.Lib.Transition` is the only
  composition rule the proofs need.

  Main results:
    * `reads_quote`       — a quoted word is read as that word.
    * `reads_plain`       — so is a word of plain characters.
    * `reads_substituted` — `"$(cmd)"` is read as one word, the output of `cmd`.
    * `words_join`        — texts that are read as words, joined by blanks, are
                             split into these words.
-/
import Jmux.Lib.Transition
import Mathlib.Data.List.Forall2

namespace Jmux.Lib.Shell

/-! ## §1. Quoting. -/

/-- POSIX single-quote escaping: `'` becomes `'\''`. -/
def quote (w : List Char) : List Char :=
  '\'' :: (w.flatMap fun c => if c = '\'' then ['\'', '\\', '\'', '\''] else [c]) ++ ['\'']

/-- A character that stands for itself outside of quotes. -/
def isPlain (c : Char) : Bool :=
  (('a' ≤ c && c ≤ 'z') || ('A' ≤ c && c ≤ 'Z') || ('0' ≤ c && c ≤ '9'))
    || c ∈ ['-', '_', '.', '/', ':', ',', '=', '@', '%', '+']

/-! ## §2. The splitter. -/

inductive Mode
  | plain
  | escape
  | single
  | double
  /-- A `$` in double quotes. -/
  | dollar
  /-- Inside `$(…)`; the command text so far. -/
  | command (cmd : List Char)
  | commandEscape (cmd : List Char)
  | commandSingle (cmd : List Char)
  deriving DecidableEq

structure ShellState where
  done : List (List Char) := []
  /-- The word in progress. -/
  cur  : Option (List Char) := none
  mode : Mode := .plain
  deriving DecidableEq

namespace ShellState

/-- The word in progress grows; a first character or an opening quote begins it. -/
def push (st : ShellState) (cs : List Char) (mode : Mode) : ShellState :=
  { st with cur := some (st.cur.getD [] ++ cs), mode }

def withMode (st : ShellState) (mode : Mode) : ShellState := { st with mode }

/-- A blank ends the word in progress. -/
def finish (st : ShellState) : ShellState := { done := st.done ++ st.cur.toList }

variable (output : List Char → List Char)

/-- Read one character; `output` is what a command substitution is replaced by. -/
def step (st : ShellState) (c : Char) : Option ShellState :=
  match st.mode with
  | .plain =>
      if c = ' ' then some st.finish
      else if c = '\'' then some (st.push [] .single)
      else if c = '"' then some (st.push [] .double)
      else if c = '\\' then some (st.withMode .escape)
      else if isPlain c then some (st.push [c] .plain)
      else none
  | .escape => some (st.push [c] .plain)
  | .single => if c = '\'' then some (st.withMode .plain) else some (st.push [c] .single)
  | .double =>
      if c = '"' then some (st.withMode .plain)
      else if c = '$' then some (st.withMode .dollar)
      else if c = '\\' || c = '`' then none
      else some (st.push [c] .double)
  -- only `$(` is an expansion of the modelled part
  | .dollar => if c = '(' then some (st.withMode (.command [])) else none
  | .command cmd =>
      if c = ')' then some (st.push (output cmd) .double)
      else if c = '\'' then some (st.withMode (.commandSingle (cmd ++ [c])))
      else if c = '\\' then some (st.withMode (.commandEscape (cmd ++ [c])))
      else if c = '(' || c = '"' || c = '`' then none
      else some (st.withMode (.command (cmd ++ [c])))
  | .commandEscape cmd => some (st.withMode (.command (cmd ++ [c])))
  | .commandSingle cmd =>
      if c = '\'' then some (st.withMode (.command (cmd ++ [c])))
      else some (st.withMode (.commandSingle (cmd ++ [c])))

end ShellState

/-- The words of a command line; `none` for a text outside the modelled part. -/
def words (output : List Char → List Char) (text : List Char) : Option (List (List Char)) :=
  (exec (ShellState.step output) {} text).bind fun st =>
    if st.mode = .plain then some (st.done ++ st.cur.toList) else none

/-! ## §3. Reading one word. -/

variable {output : List Char → List Char}

/-- Read outside of quotes, the text adds `w` to the word in progress. -/
def Reads (output : List Char → List Char) (text w : List Char) : Prop :=
  ∀ st : ShellState, st.mode = .plain →
    exec (ShellState.step output) st text = some (st.push w .plain)

theorem push_push (st : ShellState) (v w : List Char) (m m' : Mode) :
    (st.push v m).push w m' = st.push (v ++ w) m' := by
  simp [ShellState.push, List.append_assoc]

/-- One text after the other. -/
theorem exec_trans {st st' st'' : ShellState} {xs ys : List Char}
    (hxs : exec (ShellState.step output) st xs = some st')
    (hys : exec (ShellState.step output) st' ys = some st'') :
    exec (ShellState.step output) st (xs ++ ys) = some st'' :=
  exec_append.mpr ⟨st', hxs, hys⟩

/-- Plain characters are added one by one. -/
theorem reads_plain {w : List Char} (hne : w ≠ []) (hw : ∀ c ∈ w, isPlain c = true) :
    Reads output w w := by
  intro st hst
  induction w generalizing st with
  | nil => exact absurd rfl hne
  | cons c w ih =>
      have hc := hw c List.mem_cons_self
      have hstep : ShellState.step output st c = some (st.push [c] .plain) := by
        have hspace : c ≠ ' ' := by rintro rfl; exact absurd hc (by decide)
        have hquote : c ≠ '\'' := by rintro rfl; exact absurd hc (by decide)
        have hdouble : c ≠ '"' := by rintro rfl; exact absurd hc (by decide)
        have hescape : c ≠ '\\' := by rintro rfl; exact absurd hc (by decide)
        simp [ShellState.step, hst, hspace, hquote, hdouble, hescape, hc]
      rw [exec_cons]
      refine ⟨_, hstep, ?_⟩
      cases w with
      | nil => rfl
      | cons d w =>
          rw [ih (List.cons_ne_nil d w) (fun e he => hw e (List.mem_cons_of_mem c he)) _ rfl,
            push_push]
          rfl

/-- What stands between the quotes. -/
theorem exec_quoted (w : List Char) (st : ShellState) (hst : st.mode = .single) (hcur : st.cur ≠ none) :
    exec (ShellState.step output) st
        (w.flatMap fun c => if c = '\'' then ['\'', '\\', '\'', '\''] else [c])
      = some (st.push w .single) := by
  induction w generalizing st with
  | nil =>
      obtain ⟨v, hv⟩ := Option.ne_none_iff_exists'.mp hcur
      obtain ⟨done, cur, mode⟩ := st
      cases hst
      cases hv
      simp [exec, ShellState.push]
  | cons c w ih =>
      have hc : exec (ShellState.step output) st
          (if c = '\'' then ['\'', '\\', '\'', '\''] else [c]) = some (st.push [c] .single) := by
        split
        next h =>
          -- the quote is closed, escaped, and opened again
          subst h
          simp [exec, ShellState.step, hst, ShellState.withMode, ShellState.push]
        next h => simp [exec, ShellState.step, hst, h]
      rw [List.flatMap_cons]
      have hrest := ih (st.push [c] .single) rfl (by simp [ShellState.push])
      rw [push_push] at hrest
      exact exec_trans hc hrest

/-- **A quoted word is read as that word.** -/
theorem reads_quote (w : List Char) : Reads output (quote w) w := by
  intro st hst
  have hopen : exec (ShellState.step output) st ['\''] = some (st.push [] .single) := by
    simp [exec, ShellState.step, hst]
  have hmid := @exec_quoted output w (st.push [] .single) rfl (by simp [ShellState.push])
  rw [push_push] at hmid
  have hclose : exec (ShellState.step output) (st.push ([] ++ w) .single) ['\'']
      = some (st.push w .plain) := by
    simp [exec, ShellState.step, ShellState.push, ShellState.withMode]
  exact exec_trans (exec_trans hopen hmid) hclose

/-! ## §4. The output of a command as one word. -/

/-- Inside `$(…)` a quoted word is part of the command text. -/
theorem exec_commandQuote (w cmd : List Char) (st : ShellState) :
    exec (ShellState.step output) (st.withMode (.command cmd)) (quote w)
      = some (st.withMode (.command (cmd ++ quote w))) := by
  have hmid : ∀ (w cmd : List Char),
      exec (ShellState.step output) (st.withMode (.commandSingle cmd))
          (w.flatMap fun c => if c = '\'' then ['\'', '\\', '\'', '\''] else [c])
        = some (st.withMode (.commandSingle
            (cmd ++ w.flatMap fun c => if c = '\'' then ['\'', '\\', '\'', '\''] else [c]))) := by
    intro w
    induction w with
    | nil =>
        intro cmd
        simp [exec]
    | cons c w ih =>
        intro cmd
        rw [List.flatMap_cons, ← List.append_assoc]
        refine exec_trans ?_ (ih _)
        split
        next h =>
          subst h
          simp [exec, ShellState.step, ShellState.withMode]
        next h => simp [exec, ShellState.step, ShellState.withMode, h]
  have hopen : exec (ShellState.step output) (st.withMode (.command cmd)) ['\'']
      = some (st.withMode (.commandSingle (cmd ++ ['\'']))) := by
    simp [exec, ShellState.step, ShellState.withMode]
  have hclose : exec (ShellState.step output)
      (st.withMode (.commandSingle (cmd ++ ['\''] ++
        w.flatMap fun c => if c = '\'' then ['\'', '\\', '\'', '\''] else [c]))) ['\'']
        = some (st.withMode (.command (cmd ++ quote w))) := by
    simp [exec, ShellState.step, ShellState.withMode, quote]
  exact exec_trans (exec_trans hopen (hmid w (cmd ++ ['\'']))) hclose

/-- `"$(cat <file>)"`. -/
def catFile (file : List Char) : List Char :=
  "\"$(cat ".toList ++ quote file ++ ")\"".toList

/-- **The output of the command is read as one word.** -/
theorem reads_catFile (file : List Char) :
    Reads output (catFile file) (output ("cat ".toList ++ quote file)) := by
  intro st hst
  have hopen : exec (ShellState.step output) st "\"$(cat ".toList
      = some ((st.push [] .double).withMode (.command "cat ".toList)) := by
    simp [exec, ShellState.step, hst, ShellState.push, ShellState.withMode]
  have hclose : exec (ShellState.step output)
      ((st.push [] .double).withMode (.command ("cat ".toList ++ quote file))) ")\"".toList
        = some (st.push (output ("cat ".toList ++ quote file)) .plain) := by
    simp [exec, ShellState.step, ShellState.push, ShellState.withMode]
  exact exec_trans (exec_trans hopen (exec_commandQuote file _ _)) hclose

/-! ## §5. A whole command line. -/

/-- The texts, joined by single blanks. -/
def join (texts : List (List Char)) : List Char := [' '].intercalate texts

theorem exec_join {texts ws : List (List Char)} (h : List.Forall₂ (Reads output) texts ws) :
    ∀ done : List (List Char), texts ≠ [] →
      ∃ st, exec (ShellState.step output) { done } (join texts) = some st ∧ st.mode = .plain ∧
        st.done ++ st.cur.toList = done ++ ws := by
  induction h with
  | nil =>
      intro done hne
      exact absurd rfl hne
  | @cons text w texts ws hw hrest ih =>
      intro done _
      have hfirst := hw { done } rfl
      cases hrest with
      | nil =>
          refine ⟨({ done } : ShellState).push w .plain, ?_, rfl, ?_⟩
          · simpa [join] using hfirst
          · simp [ShellState.push]
      | @cons text' w' texts ws hw' hrest =>
          obtain ⟨st, hst, hmode, hwords⟩ := ih (done ++ [w]) (List.cons_ne_nil _ _)
          refine ⟨st, ?_, hmode, by rw [hwords]; simp⟩
          have hblank : exec (ShellState.step output) (({ done } : ShellState).push w .plain) [' ']
              = some { done := done ++ [w] } := by
            simp [exec, ShellState.step, ShellState.push, ShellState.finish]
          have hjoin : join (text :: text' :: texts) = text ++ ([' '] ++ join (text' :: texts)) := by
            simp [join, List.intercalate]
          rw [hjoin]
          exact exec_trans hfirst (exec_trans hblank hst)

/-- **Joined texts are split into the words they are read as.** -/
theorem words_join {texts ws : List (List Char)} (h : List.Forall₂ (Reads output) texts ws)
    (hne : texts ≠ []) : words output (join texts) = some ws := by
  obtain ⟨st, hst, hmode, hwords⟩ := exec_join h [] hne
  unfold words
  rw [hst, Option.bind_some, if_pos hmode, hwords, List.nil_append]

end Jmux.Lib.Shell
