/-
  Jmux.Cli.Config — stripping comments in the CLI (`config.rs`), and what both
  implementations do.

  Main results:
    * `strip_agree`  — the two scanners agree on every text.
    * `strip_exact`  — they keep everything but comments, and what is left of a JSON
                        document with comments is read as the document.
-/
import Jmux.Settings.Jsonc

namespace Jmux.Cli

open Jmux.Lib Jmux.Lib.Jsonc Jmux.Lib.JsonTokens
open Jmux.Settings (Scan)

/-! ## §1. The second implementation. -/

/-- `strip_jsonc_comments` of the CLI, loop by loop as in the app. -/
def stripScan : Scan → List Char → List Char
  | _, [] => []
  | .string, c :: rest =>
      if c = '\\' then c :: stripScan .escaped rest
      else c :: stripScan (if c = '"' then .code else .string) rest
  | .escaped, c :: rest => c :: stripScan .string rest
  | .code, c :: rest =>
      if c = '"' then c :: stripScan .string rest
      else if c = '/' then
        match rest.head? with
        | some '/' => stripScan .lineMark rest
        | some '*' => stripScan .blockMark rest
        | _ => c :: stripScan .code rest
      else c :: stripScan .code rest
  | .lineMark, _ :: rest => stripScan .line rest
  | .blockMark, _ :: rest => stripScan (.block '\x00') rest
  | .line, ch :: rest => if ch = '\n' then '\n' :: stripScan .code rest else stripScan .line rest
  | .block prev, ch :: rest =>
      if prev = '*' ∧ ch = '/' then stripScan .code rest
      else (if ch = '\n' then ['\n'] else []) ++ stripScan (.block ch) rest

def stripJsoncComments (s : List Char) : List Char := stripScan .code s

theorem stripScan_eq (mode : Scan) (cs : List Char) : stripScan mode cs = Settings.scan mode cs := by
  induction cs generalizing mode with
  | nil => cases mode <;> rfl
  | cons c rest ih =>
      cases mode with
      | code =>
          show (if c = '"' then _ else if c = '/' then _ else _) =
            (if c = '"' then _ else if c = '/' then _ else _)
          simp only [ih]
          congr 2
          cases hpeek : rest.head? with
          | none => rfl
          | some d =>
              by_cases hslash : d = '/'
              · subst hslash
                rfl
              by_cases hstar : d = '*'
              · subst hstar
                rfl
              · simp [hslash, hstar]
      | string =>
          show (if c = '\\' then _ else c :: stripScan (if c = '"' then .code else .string) rest) = _
          rw [ih, ih]
          by_cases hquote : c = '"'
          · subst hquote
            rfl
          · rw [if_neg hquote]
            show _ = (if c = '\\' then _ else if c = '"' then _ else _)
            rw [if_neg hquote]
      | escaped => exact congrArg (c :: ·) (ih .string)
      | lineMark => exact ih .line
      | blockMark => exact ih (.block '\x00')
      | line =>
          show (if c = '\n' then _ else _) = (if c = '\n' then _ else _)
          rw [ih, ih]
      | block prev =>
          show (if prev = '*' ∧ c = '/' then _ else (if c = '\n' then _ else _) ++ _) =
            (if prev = '*' ∧ c = '/' then _ else if c = '\n' then _ else _)
          rw [ih, ih]
          congr 1
          by_cases hfeed : c = '\n' <;> simp [hfeed]

/-- **The two implementations agree.** -/
theorem strip_agree (s : List Char) : stripJsoncComments s = Settings.stripJsoncComments s :=
  stripScan_eq .code s

/-! ## §2. What is left. -/

section Documents

variable {F : Type} (lits : Literals F) (limit : Nat)

/-- **Stripping comments is exact**: both implementations give the same; of every text that is
cut into segments the comments go, and texts in quotes, like all other characters, stay; and
where blanks and comments are put between the tokens of a JSON document, what is left is read
as the document is, and as it is with a blank for each comment. -/
theorem strip_exact :
    (∀ s, stripJsoncComments s = Settings.stripJsoncComments s) ∧
      (∀ s, ∃ segments, Lexed segments ∧ flat segments = s) ∧
      (∀ segments, Lexed segments →
        Settings.stripJsoncComments (flat segments) = segments.flatMap Segment.kept) ∧
      ∀ (s : List Char) (v : Value F), parse lits limit s = some v →
        ∀ doc : Document, lex s = some doc.tokens →
          parse lits limit (Settings.stripJsoncComments doc.text) = some v ∧
            parse lits limit doc.spaced = some v := by
  refine ⟨strip_agree, exists_lexed, fun segments h => Settings.scan_flat h, ?_⟩
  intro s v hs doc hdoc
  have hread : read lits limit doc.tokens = some v := by
    unfold parse at hs
    rwa [hdoc] at hs
  refine ⟨?_, parse_spaced lits limit hread⟩
  show parse lits limit (Settings.stripJsoncComments (flat doc.segments)) = some v
  rw [show Settings.stripJsoncComments (flat doc.segments) = doc.kept from
    Settings.scan_flat doc.lexed]
  exact parse_kept lits limit hread

end Documents

example : Settings.stripJsoncComments "[\"a//\\\"b\", /* x\n */ 1] // y".toList =
    "[\"a//\\\"b\", \n 1] ".toList := by decide

end Jmux.Cli
