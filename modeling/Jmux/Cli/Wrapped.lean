/-
  Jmux.Cli.Wrapped — the word wrap of the agent view (`wrapped` in `agent_view.rs`).

  A line that is too long is filled again word by word; a word that is too long for any
  line is cut.  However narrow the terminal is, eight columns are used.

  Main results:
    * `Wrap.Fits.addWord`    — the lines still fit after a word.
    * `Wrap.addWord_visible` — what is seen of it there.
    * `wrapLine_spec`        — both for a line of the text.
    * `wrapped_faithful`     — and for the text.
-/
import Jmux.Lib.Str

namespace Jmux.Cli

open Jmux.Lib

/-! ## §1. The loop. -/

/-- The lines so far, the line that is being filled and its number of characters. -/
structure Wrap where
  out   : List (List Char) := []
  line  : List Char := []
  count : Nat := 0

namespace Wrap

def flush (s : Wrap) : Wrap := { out := s.out ++ [s.line] }

def push (s : Wrap) (cs : List Char) : Wrap :=
  { s with line := s.line ++ cs, count := s.count + cs.length }

def pushChar (width : Nat) (s : Wrap) (ch : Char) : Wrap :=
  (if s.count = width then s.flush else s).push [ch]

/-- The line is full if a blank and the word have no room on it. -/
def makeRoom (width wlen : Nat) (s : Wrap) : Wrap :=
  if 0 < s.count ∧ width < s.count + 1 + wlen then s.flush else s

def separate (s : Wrap) : Wrap := if 0 < s.count then s.push [' '] else s

def addWord (width : Nat) (s : Wrap) (word : List Char) : Wrap :=
  let wlen := word.length
  let s := (s.makeRoom width wlen).separate
  -- hard-split words longer than the width
  if width < wlen then word.foldl (pushChar width) s else s.push word

end Wrap

def wrapLine (width : Nat) (out : List (List Char)) (raw : List Char) : List (List Char) :=
  if raw.length ≤ width then out ++ [raw]
  else
    let s := (raw.splitOn ' ').foldl (Wrap.addWord width) { out }
    s.out ++ [s.line]

/-- The least number of columns. -/
def minColumns : Nat := 8

/-- `Renderer::wrapped` on a terminal of so many columns. -/
def wrapped (columns : Nat) (text : String) (indent : Nat) : List (List Char) :=
  let width := max (columns - indent) minColumns
  let out := (Str.lines text).foldl (wrapLine width) []
  if out = [] then [[]] else out

/-! ## §2. What can be seen of a text. -/

def visible (cs : List Char) : List Char := cs.filter fun c => !Str.isWhitespace c

theorem visible_append (as bs : List Char) : visible (as ++ bs) = visible as ++ visible bs :=
  List.filter_append as bs

theorem visible_blank {c : Char} (h : Str.isWhitespace c = true) : visible [c] = [] := by
  simp [visible, h]

/-- A text is seen through its pieces, wherever blanks separate them. -/
theorem visible_splitOn {sep : Char} (hsep : Str.isWhitespace sep = true) (cs : List Char) :
    (cs.splitOn sep).flatMap visible = visible cs := by
  have hblank : visible [sep] = [] := visible_blank hsep
  calc (cs.splitOn sep).flatMap visible
      = visible ([sep].intercalate (cs.splitOn sep)) := by
        induction cs.splitOn sep with
        | nil => rfl
        | cons part parts ih =>
            cases parts with
            | nil =>
                rw [List.intercalate_singleton]
                exact List.append_nil (visible part)
            | cons next parts =>
                rw [List.intercalate_cons_cons, visible_append, visible_append, hblank,
                  List.append_nil, ← ih]
                rfl
    _ = visible cs := by rw [List.intercalate_splitOn]

theorem visible_dropCarriageReturn (line : List Char) :
    visible (Str.dropCarriageReturn line) = visible line := by
  unfold Str.dropCarriageReturn
  by_cases hlast : line.getLast? = some '\r'
  · obtain ⟨front, rfl⟩ := List.getLast?_eq_some_iff.mp hlast
    have hblank : visible ['\r'] = [] := visible_blank (by decide)
    rw [if_pos hlast, List.dropLast_concat, visible_append, hblank, List.append_nil]
  · rw [if_neg hlast]

/-- The lines of a text show what the text shows. -/
theorem visible_lines (text : String) :
    (Str.lines text).flatMap visible = visible text.toList := by
  have hnewline : Str.isWhitespace '\n' = true := by decide
  have hne := List.splitOn_ne_nil '\n' text.toList
  unfold Str.lines
  rw [← visible_splitOn hnewline text.toList]
  dsimp only
  generalize text.toList.splitOn '\n' = parts at hne
  have hends : parts.dropLast.flatMap visible ++ visible (parts.getLast hne)
      = parts.flatMap visible := by
    conv => rhs; rw [← List.dropLast_concat_getLast hne]
    rw [List.flatMap_append, List.flatMap_singleton]
  have hfront : (parts.dropLast.map Str.dropCarriageReturn).flatMap visible
      = parts.dropLast.flatMap visible := by
    rw [List.flatMap_map]
    exact List.flatMap_congr fun line _ => visible_dropCarriageReturn line
  have hlast : ((parts.getLast?.filter (· ≠ [])).toList).flatMap visible
      = visible (parts.getLast hne) := by
    rw [List.getLast?_eq_some_getLast hne]
    by_cases hempty : parts.getLast hne = []
    · rw [hempty]
      rfl
    · rw [Option.filter_some, if_pos (by simpa using hempty)]
      exact List.append_nil _
  rw [List.flatMap_append, hfront, hlast, hends]

/-! ## §3. One word. -/

namespace Wrap

variable {width : Nat} {s : Wrap}

def text (s : Wrap) : List Char := s.out.flatten ++ s.line

structure Fits (width : Nat) (s : Wrap) : Prop where
  counted : s.count = s.line.length
  line    : s.count ≤ width
  out     : ∀ l ∈ s.out, l.length ≤ width

theorem text_flush (s : Wrap) : s.flush.text = s.text := by
  show (s.out ++ [s.line]).flatten ++ [] = s.out.flatten ++ s.line
  rw [List.append_nil, List.flatten_append, List.flatten_singleton]

theorem text_push (s : Wrap) (cs : List Char) : (s.push cs).text = s.text ++ cs := by
  show s.out.flatten ++ (s.line ++ cs) = s.out.flatten ++ s.line ++ cs
  rw [List.append_assoc]

theorem Fits.flush (h : Fits width s) : Fits width s.flush where
  counted := rfl
  line    := Nat.zero_le width
  out l hl := by
    rcases List.mem_append.mp hl with hold | hnew
    · exact h.out l hold
    · have hcounted := h.counted
      have hline := h.line
      rw [List.mem_singleton.mp hnew]
      omega

theorem Fits.push (h : Fits width s) {cs : List Char} (hroom : s.count + cs.length ≤ width) :
    Fits width (s.push cs) where
  counted := by
    show s.count + cs.length = (s.line ++ cs).length
    rw [List.length_append, h.counted]
  line := hroom
  out  := h.out

theorem pushChar_text (width : Nat) (s : Wrap) (ch : Char) :
    (pushChar width s ch).text = s.text ++ [ch] := by
  unfold pushChar
  rw [text_push]
  split
  · rw [text_flush]
  · rfl

theorem Fits.pushChar (hwidth : 0 < width) (h : Fits width s) (ch : Char) :
    Fits width (pushChar width s ch) := by
  unfold Wrap.pushChar
  by_cases hfull : s.count = width
  · rw [if_pos hfull]
    exact h.flush.push hwidth
  · have hline := h.line
    rw [if_neg hfull]
    apply h.push
    show s.count + 1 ≤ width
    omega

theorem hardSplit_text (width : Nat) (s : Wrap) (word : List Char) :
    (word.foldl (pushChar width) s).text = s.text ++ word := by
  induction word generalizing s with
  | nil => exact (List.append_nil s.text).symm
  | cons ch word ih =>
      rw [List.foldl_cons, ih, pushChar_text, List.append_assoc]
      rfl

theorem Fits.hardSplit (hwidth : 0 < width) (h : Fits width s) (word : List Char) :
    Fits width (word.foldl (Wrap.pushChar width) s) := by
  induction word generalizing s with
  | nil => exact h
  | cons ch word ih => exact ih (h.pushChar hwidth ch)

theorem makeRoom_text (width wlen : Nat) (s : Wrap) : (s.makeRoom width wlen).text = s.text := by
  unfold makeRoom
  split
  · rw [text_flush]
  · rfl

theorem Fits.makeRoom (h : Fits width s) (wlen : Nat) : Fits width (s.makeRoom width wlen) := by
  unfold Wrap.makeRoom
  split
  · exact h.flush
  · exact h

theorem makeRoom_count (width wlen : Nat) (s : Wrap) :
    (s.makeRoom width wlen).count = 0 ∨ (s.makeRoom width wlen).count + 1 + wlen ≤ width := by
  unfold makeRoom
  by_cases hfull : 0 < s.count ∧ width < s.count + 1 + wlen
  · rw [if_pos hfull]
    exact .inl rfl
  · rw [if_neg hfull]
    omega

theorem separate_visible (s : Wrap) : visible s.separate.text = visible s.text := by
  have hblank : visible [' '] = [] := visible_blank (by decide)
  unfold separate
  split
  · rw [text_push, visible_append, hblank, List.append_nil]
  · rfl

/-- With room for the blank and the word, there is room for the word. -/
theorem Fits.separate (h : Fits width s) {wlen : Nat}
    (hroom : s.count = 0 ∨ s.count + 1 + wlen ≤ width) :
    Fits width s.separate ∧ (s.separate.count = 0 ∨ s.separate.count + wlen ≤ width) := by
  unfold Wrap.separate
  by_cases hpos : 0 < s.count
  · rw [if_pos hpos]
    have hfits : s.count + 1 + wlen ≤ width := by omega
    refine ⟨h.push ?_, .inr hfits⟩
    show s.count + 1 ≤ width
    omega
  · rw [if_neg hpos]
    exact ⟨h, .inl (by omega)⟩

theorem addWord_visible (width : Nat) (s : Wrap) (word : List Char) :
    visible (addWord width s word).text = visible s.text ++ visible word := by
  have hstart : visible (s.makeRoom width word.length).separate.text = visible s.text := by
    rw [separate_visible, makeRoom_text]
  unfold addWord
  dsimp only
  split
  · rw [hardSplit_text, visible_append, hstart]
  · rw [text_push, visible_append, hstart]

theorem Fits.addWord (hwidth : 0 < width) (h : Fits width s) (word : List Char) :
    Fits width (addWord width s word) := by
  have hroom := makeRoom_count width word.length s
  obtain ⟨hfits, hcount⟩ := (h.makeRoom word.length).separate hroom
  unfold Wrap.addWord
  dsimp only
  by_cases hlong : width < word.length
  · rw [if_pos hlong]
    exact hfits.hardSplit hwidth word
  · rw [if_neg hlong]
    exact hfits.push (by omega)

theorem addWords_visible (width : Nat) (s : Wrap) (words : List (List Char)) :
    visible (words.foldl (addWord width) s).text = visible s.text ++ words.flatMap visible := by
  induction words generalizing s with
  | nil => exact (List.append_nil _).symm
  | cons word words ih =>
      rw [List.foldl_cons, ih, addWord_visible, List.append_assoc]
      rfl

theorem Fits.addWords (hwidth : 0 < width) (h : Fits width s) (words : List (List Char)) :
    Fits width (words.foldl (Wrap.addWord width) s) := by
  induction words generalizing s with
  | nil => exact h
  | cons word words ih => exact ih (h.addWord hwidth word)

end Wrap

/-! ## §4. The whole text. -/

/-- **One line of the text** gives lines that fit and show what it shows. -/
theorem wrapLine_spec {width : Nat} (hwidth : 0 < width) {out : List (List Char)}
    (hout : ∀ l ∈ out, l.length ≤ width) (raw : List Char) :
    (∀ l ∈ wrapLine width out raw, l.length ≤ width) ∧
      visible (wrapLine width out raw).flatten = visible out.flatten ++ visible raw := by
  have hconcat : ∀ (lines : List (List Char)) (line : List Char),
      (∀ l ∈ lines, l.length ≤ width) → line.length ≤ width →
        ∀ l ∈ lines ++ [line], l.length ≤ width := by
    intro lines line hlines hline l hl
    rcases List.mem_append.mp hl with hold | hnew
    · exact hlines l hold
    · rw [List.mem_singleton.mp hnew]
      exact hline
  unfold wrapLine
  by_cases hshort : raw.length ≤ width
  · rw [if_pos hshort]
    refine ⟨hconcat out raw hout hshort, ?_⟩
    rw [List.flatten_append, List.flatten_singleton, visible_append]
  · have hstart : Wrap.Fits width { out } :=
      { counted := rfl, line := Nat.zero_le width, out := hout }
    have hseen := Wrap.addWords_visible width { out } (raw.splitOn ' ')
    have hfits := hstart.addWords hwidth (raw.splitOn ' ')
    rw [if_neg hshort]
    dsimp only
    generalize (raw.splitOn ' ').foldl (Wrap.addWord width) { out } = s at *
    have hline : s.line.length ≤ width := hfits.counted ▸ hfits.line
    refine ⟨hconcat s.out s.line hfits.out hline, ?_⟩
    have hblank : Str.isWhitespace ' ' = true := by decide
    have hsplit := visible_splitOn hblank raw
    rw [List.flatten_append, List.flatten_singleton]
    show visible s.text = visible out.flatten ++ visible raw
    rw [hseen, hsplit]
    show visible (out.flatten ++ []) ++ visible raw = _
    rw [List.append_nil]

theorem wrapLines_spec {width : Nat} (hwidth : 0 < width) (raws : List (List Char))
    {out : List (List Char)} (hout : ∀ l ∈ out, l.length ≤ width) :
    (∀ l ∈ raws.foldl (wrapLine width) out, l.length ≤ width) ∧
      visible (raws.foldl (wrapLine width) out).flatten
        = visible out.flatten ++ raws.flatMap visible := by
  induction raws generalizing out with
  | nil => exact ⟨hout, (List.append_nil _).symm⟩
  | cons raw raws ih =>
      obtain ⟨hfits, hseen⟩ := wrapLine_spec hwidth hout raw
      obtain ⟨hfits', hseen'⟩ := ih hfits
      refine ⟨hfits', ?_⟩
      rw [List.foldl_cons, hseen', hseen, List.append_assoc]
      rfl

/-- **Word wrapping is faithful**, on any terminal and with any indent. -/
theorem wrapped_faithful (columns : Nat) (text : String) (indent : Nat) :
    (∀ line ∈ wrapped columns text indent, line.length ≤ max (columns - indent) minColumns) ∧
      visible (wrapped columns text indent).flatten = visible text.toList := by
  have hwidth : 0 < max (columns - indent) minColumns :=
    Nat.lt_of_lt_of_le (by decide) (Nat.le_max_right _ _)
  have hnone : ∀ l ∈ ([] : List (List Char)), l.length ≤ max (columns - indent) minColumns :=
    fun l hl => absurd hl List.not_mem_nil
  obtain ⟨hfits, hseen⟩ := wrapLines_spec hwidth (Str.lines text) hnone
  rw [visible_lines] at hseen
  unfold wrapped
  dsimp only
  generalize (Str.lines text).foldl (wrapLine (max (columns - indent) minColumns)) [] = out at *
  by_cases hempty : out = []
  · rw [if_pos hempty]
    rw [hempty] at hseen
    constructor
    · intro line hline
      rw [List.mem_singleton.mp hline]
      exact Nat.zero_le _
    · exact hseen
  · rw [if_neg hempty]
    exact ⟨hfits, hseen⟩

/-- Seven columns are not enough for eight letters, which stand on one line. -/
theorem wrapped_wider :
    ¬ ∀ (columns : Nat) (text : String) (indent : Nat), 1 ≤ columns →
      (∀ line ∈ wrapped columns text indent, line.length ≤ columns) ∧
        visible (wrapped columns text indent).flatten = visible text.toList := by
  intro hall
  have hline := (hall 7 "somebody" 0 (by decide)).1 "somebody".toList (by decide)
  exact absurd hline (by decide)

end Jmux.Cli
