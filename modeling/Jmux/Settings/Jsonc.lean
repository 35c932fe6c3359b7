/-
  Jmux.Settings.Jsonc — stripping comments from the settings (`settings/mod.rs`).

  The loops over one iterator are one scan, with a mode for the loop that it is in.

  Main results:
    * `scan_flat`  — the scan of a text that is cut into segments leaves out the
                      comments, but for the newlines of block comments.
-/
import Jmux.Lib.Jsonc

namespace Jmux.Settings

open Jmux.Lib Jmux.Lib.Jsonc Jmux.Lib.JsonTokens
open Jmux.Lib.Jsonc.Segment

/-! ## §1. `strip_jsonc_comments`. -/

/-- Which call of `chars.next()` takes the next character. -/
inductive Scan
  | code
  | string
  /-- After a backslash. -/
  | escaped
  /-- The second character of `//` or of the beginning of a block comment. -/
  | lineMark
  | blockMark
  | line
  | block (prev : Char)

def scan : Scan → List Char → List Char
  | _, [] => []
  | .string, c :: rest =>
      if c = '\\' then c :: scan .escaped rest
      else if c = '"' then c :: scan .code rest
      else c :: scan .string rest
  -- taken along, so that `\"` does not end the string
  | .escaped, c :: rest => c :: scan .string rest
  | .code, c :: rest =>
      if c = '"' then c :: scan .string rest
      else if c = '/' then
        if rest.head? = some '/' then scan .lineMark rest
        else if rest.head? = some '*' then scan .blockMark rest
        else c :: scan .code rest
      else c :: scan .code rest
  | .lineMark, _ :: rest => scan .line rest
  | .blockMark, _ :: rest => scan (.block '\x00') rest
  | .line, ch :: rest => if ch = '\n' then '\n' :: scan .code rest else scan .line rest
  | .block prev, ch :: rest =>
      if prev = '*' ∧ ch = '/' then scan .code rest
      else if ch = '\n' then '\n' :: scan (.block ch) rest
      else scan (.block ch) rest

def stripJsoncComments (s : List Char) : List Char := scan .code s

/-! ## §2. One segment. -/

theorem scan_string {raw : List Char} (h : Escaped raw) (rest : List Char) :
    scan .string (raw ++ rest) = raw ++ scan .string rest := by
  induction h with
  | nil => rfl
  | @char c raw hquote hback _ ih =>
      show (if c = '\\' then _ else if c = '"' then _ else c :: scan .string (raw ++ rest)) = _
      rw [if_neg hback, if_neg hquote, ih]
      rfl
  | @pair c raw _ ih =>
      show '\\' :: c :: scan .string (raw ++ rest) = _
      rw [ih]
      rfl

theorem scan_unclosed {raw : List Char} (h : Unclosed raw) : scan .string raw = raw := by
  obtain ⟨before, hbefore, rfl | rfl⟩ := h
  · have hnil := scan_string hbefore []
    rwa [List.append_nil, show scan .string [] = [] from rfl, List.append_nil] at hnil
  · exact scan_string hbefore ['\\']

/-- Up to the end of the line, or of the text. -/
theorem scan_line {body : List Char} (h : '\n' ∉ body) {rest : List Char}
    (hrest : ∀ c, rest.head? = some c → c = '\n') :
    scan .line (body ++ rest) = scan .code rest := by
  induction body with
  | nil =>
      cases rest with
      | nil => rfl
      | cons c rest =>
          rw [hrest c rfl]
          rfl
  | cons c body ih =>
      have hc : c ≠ '\n' := fun he => h (he ▸ List.mem_cons_self)
      show (if c = '\n' then _ else scan .line (body ++ rest)) = _
      rw [if_neg hc, ih fun hmem => h (List.mem_cons_of_mem c hmem)]

/-- Inside a block comment only newlines come out. -/
theorem scan_block {body : List Char} {prev : Char} (h : NoClose (prev :: body))
    (rest : List Char) :
    scan (.block prev) (body ++ rest) =
      body.filter (· = '\n') ++ scan (.block (body.getLastD prev)) rest := by
  induction body generalizing prev with
  | nil => rfl
  | cons c body ih =>
      have hopen : ¬ (prev = '*' ∧ c = '/') := by
        rintro ⟨rfl, rfl⟩
        exact h ⟨[], body, rfl⟩
      have hrest : NoClose (c :: body) := fun hin => h (hin.trans (List.suffix_cons prev _).isInfix)
      show (if prev = '*' ∧ c = '/' then _
        else if c = '\n' then '\n' :: scan (.block c) (body ++ rest)
        else scan (.block c) (body ++ rest)) = _
      rw [if_neg hopen, ih hrest, List.getLastD_cons]
      by_cases hfeed : c = '\n'
      · rw [if_pos hfeed, List.filter_cons_of_pos (by simpa using hfeed), hfeed]
        rfl
      · rw [if_neg hfeed, List.filter_cons_of_neg (by simpa using hfeed)]

/-- The comment begins with nothing that could close it. -/
theorem noClose_begin {body : List Char} (h : NoClose body) : NoClose ('\x00' :: body) :=
  h.cons fun hstar => absurd hstar (by decide)

/-- Behind the comment. -/
theorem scan_close (prev : Char) (rest : List Char) :
    scan (.block prev) ('*' :: '/' :: rest) = scan .code rest := by
  have hopen : ¬ (prev = '*' ∧ '*' = '/') := fun h => absurd h.2 (by decide)
  show (if prev = '*' ∧ '*' = '/' then _ else _) = _
  rw [if_neg hopen]
  rfl

/-! ## §3. Texts. -/

/-- **Stripping comments** leaves every other segment as it is, and the newlines of block
comments. -/
theorem scan_flat {segments : List Segment} (h : Lexed segments) :
    stripJsoncComments (flat segments) = segments.flatMap kept := by
  unfold stripJsoncComments
  induction segments with
  | nil => rfl
  | cons segment rest ih =>
      cases segment with
      | code c =>
          obtain ⟨hquote, hslash, hrest⟩ := h
          have hgoal : scan .code (c :: flat rest) = c :: scan .code (flat rest) := by
            show (if c = '"' then _ else if c = '/' then _ else c :: scan .code (flat rest)) = _
            rw [if_neg hquote]
            by_cases hc : c = '/'
            · have hnot := hslash hc
              rw [if_pos hc, if_neg fun hd => (hnot _ hd).1 rfl, if_neg fun hd => (hnot _ hd).2 rfl]
            · rw [if_neg hc]
          show scan .code (c :: flat rest) = c :: rest.flatMap kept
          rw [hgoal, ih hrest]
      | quoted raw =>
          obtain ⟨hraw, hrest⟩ := h
          show scan .code (('"' :: raw ++ ['"']) ++ flat rest) = ('"' :: raw ++ ['"']) ++ _
          rw [List.append_assoc, List.append_assoc]
          show '"' :: scan .string (raw ++ '"' :: flat rest) = '"' :: (raw ++ '"' :: rest.flatMap kept)
          rw [scan_string hraw, ← ih hrest]
          rfl
      | line body =>
          obtain ⟨hbody, hnext, hrest⟩ := h
          show scan .line (body ++ flat rest) = rest.flatMap kept
          rw [scan_line hbody, ih hrest]
          intro c hc
          cases rest with
          | nil => cases hc
          | cons s rest =>
              rw [hnext s rfl] at hc
              exact (Option.some.inj hc).symm
      | block body =>
          obtain ⟨hbody, hrest⟩ := h
          show scan (.block '\x00') ((body ++ ['*', '/']) ++ flat rest) =
            body.filter (· = '\n') ++ rest.flatMap kept
          rw [List.append_assoc, scan_block (noClose_begin hbody), ← ih hrest]
          exact congrArg _ (scan_close _ _)
      | openText raw =>
          obtain ⟨hraw, rfl⟩ := h
          show scan .code (('"' :: raw) ++ []) = ('"' :: raw) ++ []
          rw [List.append_nil]
          exact congrArg _ (scan_unclosed hraw)
      | openBlock body =>
          obtain ⟨hbody, rfl⟩ := h
          show scan (.block '\x00') (body ++ []) = body.filter (· = '\n') ++ []
          rw [scan_block (noClose_begin hbody)]
          rfl

end Jmux.Settings
