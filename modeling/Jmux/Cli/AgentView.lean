/-
  Jmux.Cli.AgentView — following a transcript (`agent_view.rs` of the CLI).

  `jmux agent view` reads what has been appended to a file every 300 ms, keeps the
  line that has not ended yet and renders the others.  The file grows, and it is
  truncated and written anew.

  Main results:
    * `drainLines_eq`        — the loop over the carried text gives its ended lines.
    * `follows_step`         — what one step keeps.
    * `transcript_followed`  — in which runs every line is rendered, once, in order
                                and as it is.
-/
import Jmux.Lib.LineStream
import Jmux.Lib.Transition
import Jmux.Remote.LossyText

namespace Jmux.Cli

open Jmux.Lib Jmux.Lib.LineStream
open Jmux.Remote (Bytes utf8Lossy encode WholeChars)

/-! ## §1. The loop. -/

/-- Read what follows the offset; a file that has become shorter is read from its start. -/
def readAppended (file : Option Bytes) (offset : Nat) : Option (Bytes × Nat) :=
  file.map fun bytes =>
    let len := bytes.length
    let start := if len < offset then 0 else offset
    if len = start then ([], start)
    else
      let buf := bytes.drop start
      (buf, start + buf.length)

/-- `carry.find('\n')` and `carry.drain(..=nl)`: the line, and what is left. -/
def drainLine (carry : List Char) : Option (List Char × List Char) :=
  match carry.dropWhile (· ≠ '\n') with
  | [] => none
  | nl :: rest => some (carry.takeWhile (· ≠ '\n') ++ [nl], rest)

/-- The inner loop: the lines, each with its newline, and what is left.  A turn takes a
character at least. -/
def drainLines : Nat → List Char → List (List Char) × List Char
  | fuel + 1, carry =>
      match drainLine carry with
      | some (line, rest) =>
          let (lines, rest) := drainLines fuel rest
          (line :: lines, rest)
      | none => ([], carry)
  | 0, carry => ([], carry)

/-- `str::trim_end`. -/
def trimEnd (line : List Char) : List Char := Str.trimEndMatches Str.isWhitespace line

structure View where
  offset   : Nat := 0
  carry    : List Char := []
  /-- What `render_line` has got since the screen was cleared. -/
  rendered : List (List Char) := []
  deriving DecidableEq

def View.read (v : View) (file : Option Bytes) : View :=
  match readAppended file v.offset with
  | some (bytes, newOffset) =>
      let carry := v.carry ++ utf8Lossy bytes
      let (lines, carry) := drainLines carry.length carry
      { offset   := newOffset
        carry    := carry
        rendered := v.rendered ++ lines.map trimEnd }
  -- the file is missing: keep waiting
  | none => v

/-- One turn of the outer loop; on a resize the conversation is rendered anew. -/
def View.turn (v : View) (file : Option Bytes) (resized : Bool) : View :=
  (if resized then {} else v).read file

/-! ## §2. The lines of the carried text. -/

theorem drainLine_of_notMem {carry : List Char} (h : '\n' ∉ carry) : drainLine carry = none := by
  have hall : carry.dropWhile (· ≠ '\n') = [] := by
    rw [List.dropWhile_eq_nil_iff]
    intro c hc
    simpa using fun he : c = '\n' => h (he ▸ hc)
  unfold drainLine
  rw [hall]

theorem drainLine_line {l : List Char} (h : '\n' ∉ l) (rest : List Char) :
    drainLine (l ++ '\n' :: rest) = some (l ++ ['\n'], rest) := by
  have hall : ∀ c ∈ l, (c ≠ '\n' : Bool) = true := by
    intro c hc
    simpa using fun he : c = '\n' => h (he ▸ hc)
  have hdrop : (l ++ '\n' :: rest).dropWhile (· ≠ '\n') = '\n' :: rest := by
    rw [List.dropWhile_append_of_pos hall]
    simp
  have htake : (l ++ '\n' :: rest).takeWhile (· ≠ '\n') = l := by
    rw [List.takeWhile_append_of_pos hall]
    simp
  unfold drainLine
  rw [hdrop, htake]

/-- **The inner loop** gives the ended lines of the carried text and keeps the rest. -/
theorem drainLines_eq (fuel : Nat) (carry : List Char) (h : carry.length ≤ fuel) :
    drainLines fuel carry = ((ended '\n' carry).map (· ++ ['\n']), tail '\n' carry) := by
  induction fuel generalizing carry with
  | zero =>
      rw [List.length_eq_zero_iff.mp (Nat.le_zero.mp h)]
      rfl
  | succ fuel ih =>
      unfold drainLines
      rcases line_or_notMem '\n' carry with hnone | ⟨l, rest, heq, hl⟩
      · rw [drainLine_of_notMem hnone, ended_of_notMem hnone, tail_of_notMem hnone]
        rfl
      · have hshort : rest.length ≤ fuel := by
          rw [heq, List.length_append, List.length_cons] at h
          omega
        rw [heq, drainLine_line hl, ended_line hl, tail_line hl]
        dsimp only
        rw [ih rest hshort]
        rfl

/-- The newline is white space. -/
theorem trimEnd_newline (line : List Char) : trimEnd (line ++ ['\n']) = trimEnd line := by
  unfold trimEnd
  rw [Str.trimEndMatches_append, if_pos (by decide)]

/-! ## §3. The file and the view. -/

structure World where
  file : Option Bytes := none
  /-- What the file held when it was truncated, since the screen was cleared. -/
  past : List Bytes := []
  /-- It was truncated since the last turn that found it. -/
  cut  : Bool := false
  view : View := {}

inductive Event
  | append (bytes : Bytes)
  /-- Truncated and written anew, or removed. -/
  | replace (content : Option Bytes)
  | turn (resized : Bool)

def newline : UInt8 := 0x0a

namespace World

def content (w : World) : Bytes := w.file.getD []

def step (w : World) : Event → World
  | .append bytes => { w with file := some (w.content ++ bytes) }
  | .replace content => { w with file := content, past := w.past ++ [w.content], cut := true }
  | .turn resized =>
      { w with
        past := if resized then [] else w.past
        cut  := !resized && w.cut && w.file.isNone
        view := w.view.turn w.file resized }

/-- The lines that have been ended since the screen was cleared. -/
def lines (w : World) : List Bytes :=
  w.past.flatMap (ended newline) ++ ended newline w.content

end World

/-- A line is rendered as the text that its bytes are, without white space at the end. -/
def Shown (line : Bytes) (shown : List Char) : Prop :=
  ∃ text, line = encode text ∧ shown = trimEnd text

/-- The lines up to some line are rendered, once, in order and as they are; nothing else is. -/
def Faithful (w : World) : Prop :=
  ∃ rendered later, w.lines = rendered ++ later ∧ rendered.Forall₂ Shown w.view.rendered

/-- So are all lines. -/
def CaughtUp (w : World) : Prop := w.lines.Forall₂ Shown w.view.rendered

/-- What has not been read yet of the file as it is now. -/
def World.unread (w : World) : Bytes := w.content.drop (if w.cut then 0 else w.view.offset)

/-- A file is truncated when its lines have been read.  A turn finds whole characters in it;
the first one after a truncation finds it shorter than what was read before, with no beginning
of a line carried over. -/
def Meets (w : World) : Event → Prop
  | .append _ => True
  | .replace _ => newline ∉ w.unread
  | .turn resized =>
      WholeChars w.content ∧
        (resized = false → w.cut = true → w.file.isSome = true →
          w.view.carry = [] ∧ (w.content.length < w.view.offset ∨ w.view.offset = 0))

/-! ## §4. What a step keeps. -/

/-- Only the newline is written as one. -/
theorem writes_newline : Writes '\n' newline String.utf8EncodeChar where
  same := by decide
  other _ hc hmem := hc (Remote.eq_of_mem_encodeChar (by decide) hmem)

/-- How far the view has got with the file as it is now. -/
structure Follows (w : World) (text : List Char) : Prop where
  shown : (w.past.flatMap (ended newline) ++ ended newline (encode text)).Forall₂ Shown
    w.view.rendered
  read  : encode text <+: w.content
  cut   : w.cut = true → text = []
  uncut : w.cut = false → w.view.offset = (encode text).length ∧ w.view.carry = tail '\n' text

theorem follows_start : Follows {} [] where
  shown := .nil
  read  := List.prefix_refl _
  cut _ := rfl
  uncut _ := ⟨rfl, rfl⟩

theorem prefix_of_encode_prefix {text full : List Char} (h : encode text <+: encode full) :
    text <+: full := by
  obtain ⟨rest, hrest⟩ := h
  have hdecoded := congrArg utf8Lossy hrest
  rw [Remote.utf8Lossy_encode_append, Remote.utf8Lossy_encode] at hdecoded
  exact ⟨_, hdecoded⟩

theorem ended_encode (text : List Char) :
    ended newline (encode text) = (ended '\n' text).map encode :=
  ended_flatMap writes_newline text

/-- A read of whole characters, from where the last one has stopped. -/
theorem read_whole {v : View} {text more : List Char}
    (hstart : (if (encode (text ++ more)).length < v.offset then 0 else v.offset)
      = (encode text).length) (hcarry : v.carry = tail '\n' text) :
    v.read (some (encode (text ++ more))) =
      { offset   := (encode (text ++ more)).length
        carry    := tail '\n' (text ++ more)
        rendered := v.rendered ++ (ended '\n' (tail '\n' text ++ more)).map trimEnd } := by
  have hread : readAppended (some (encode (text ++ more))) v.offset =
      some (encode more, (encode (text ++ more)).length) := by
    show some (if (encode (text ++ more)).length = (if _ < v.offset then 0 else v.offset) then _
      else _) = _
    rw [hstart, Remote.encode_append, List.length_append, List.drop_left]
    split
    · next hsame =>
        have hnil : encode more = [] := List.length_eq_zero_iff.mp (by omega)
        rw [hnil]
        rfl
    · rfl
  have htrim : ∀ lines : List (List Char),
      (lines.map (· ++ ['\n'])).map trimEnd = lines.map trimEnd := by
    intro lines
    rw [List.map_map]
    exact List.map_congr_left fun line _ => trimEnd_newline line
  unfold View.read
  rw [hread, hcarry]
  dsimp only
  rw [Remote.utf8Lossy_encode, drainLines_eq _ _ (Nat.le_refl _), htrim, ← tail_append]

/-- What is new is shown as it is. -/
theorem shown_append {past : List Bytes} {text more : List Char} {rendered : List (List Char)}
    (h : (past.flatMap (ended newline) ++ ended newline (encode text)).Forall₂ Shown rendered) :
    (past.flatMap (ended newline) ++ ended newline (encode (text ++ more))).Forall₂ Shown
      (rendered ++ (ended '\n' (tail '\n' text ++ more)).map trimEnd) := by
  rw [ended_encode, ended_append, List.map_append, ← ended_encode, ← List.append_assoc]
  refine List.rel_append h ?_
  rw [List.forall₂_map_left_iff, List.forall₂_map_right_iff, List.forall₂_same]
  intro line _
  exact ⟨line, rfl, rfl⟩

theorem follows_append {w : World} {text : List Char} (h : Follows w text) (bytes : Bytes) :
    Follows (w.step (.append bytes)) text where
  shown := h.shown
  read  := h.read.trans (List.prefix_append _ _)
  cut   := h.cut
  uncut := h.uncut

theorem follows_replace {w : World} {text : List Char} (h : Follows w text)
    (content : Option Bytes) (hmeets : newline ∉ w.unread) :
    Follows (w.step (.replace content)) [] where
  shown := by
    -- nothing but the beginning of a line has not been read
    obtain ⟨more, hmore⟩ := h.read
    have hunread : w.unread = more := by
      unfold World.unread
      rw [← hmore]
      cases hcut : w.cut with
      | true =>
          rw [h.cut hcut]
          rfl
      | false =>
          rw [if_neg Bool.false_ne_true, (h.uncut hcut).1, List.drop_left]
    have hended : ended newline w.content = ended newline (encode text) := by
      rw [← hmore, ended_append_of_notMem _ (hunread ▸ hmeets)]
    show ((w.past ++ [w.content]).flatMap (ended newline) ++ []).Forall₂ Shown w.view.rendered
    rw [List.append_nil, List.flatMap_append, List.flatMap_singleton, hended]
    exact h.shown
  read  := List.nil_prefix
  cut _ := rfl
  uncut := fun h => nomatch h

/-- A turn that reads from the place where it is. -/
theorem follows_read {w : World} {v : View} {past : List Bytes} {text full : List Char}
    (hshown : (past.flatMap (ended newline) ++ ended newline (encode text)).Forall₂ Shown v.rendered)
    (hread : encode text <+: encode full)
    (hstart : (if (encode full).length < v.offset then 0 else v.offset) = (encode text).length)
    (hcarry : v.carry = tail '\n' text) (hfile : w.file = some (encode full))
    (hpast : w.past = past) (hview : w.view = v.read (some (encode full))) (hcut : w.cut = false) :
    Follows w full := by
  obtain ⟨more, rfl⟩ := prefix_of_encode_prefix hread
  rw [read_whole hstart hcarry] at hview
  have hcontent : w.content = encode (text ++ more) := by
    unfold World.content
    rw [hfile]
    rfl
  refine ⟨?_, hcontent ▸ List.prefix_refl _, fun h => ?_, fun _ => ?_⟩
  · rw [hpast, hview]
    exact shown_append hshown
  · rw [hcut] at h
    cases h
  · rw [hview]
    exact ⟨rfl, rfl⟩

/-- A turn finds everything there is in the file. -/
theorem follows_turn {w : World} {text : List Char} (h : Follows w text) {resized : Bool}
    (hmeets : Meets w (.turn resized)) :
    ∃ full, Follows (w.step (.turn resized)) full ∧ encode full = w.content := by
  obtain ⟨⟨full, hwhole⟩, hfirst⟩ := hmeets
  cases hfile : w.file with
  | none =>
      have hcontent : w.content = [] := by
        unfold World.content
        rw [hfile]
        rfl
      have htext : text = [] := by
        have hnil : encode text = [] := List.prefix_nil.mp (hcontent ▸ h.read)
        rw [← Remote.utf8Lossy_encode text, hnil]
        rfl
      subst htext
      refine ⟨[], ?_, hcontent.symm⟩
      unfold World.step View.turn
      cases resized with
      | true => exact ⟨by rw [hfile]; exact .nil, List.nil_prefix, fun _ => rfl,
          fun _ => by rw [hfile]; exact ⟨rfl, rfl⟩⟩
      | false =>
          refine ⟨?_, List.nil_prefix, fun _ => rfl, fun hcut => ?_⟩
          · rw [hfile]
            exact h.shown
          · rw [hfile] at hcut ⊢
            have hold : w.cut = false := by simpa using hcut
            exact h.uncut hold
  | some bytes =>
      have hcontent : w.content = bytes := by
        unfold World.content
        rw [hfile]
        rfl
      obtain rfl : bytes = encode full := hcontent.symm.trans hwhole
      refine ⟨full, ?_, hwhole.symm⟩
      by_cases hresized : resized = true
      · -- everything is rendered anew
        subst hresized
        refine @follows_read (w.step (.turn true)) {} [] [] full .nil List.nil_prefix ?_ rfl hfile
          rfl ?_ rfl
        · exact if_neg (Nat.not_lt_zero _)
        · show View.read {} w.file = _
          rw [hfile]
      · rw [Bool.not_eq_true] at hresized
        subst hresized
        have hview : (w.step (.turn false)).view = w.view.read (some (encode full)) := by
          show w.view.read w.file = _
          rw [hfile]
        have hcut' : (w.step (.turn false)).cut = false := by
          show (true && w.cut && w.file.isNone) = false
          rw [hfile]
          simp
        cases hcut : w.cut with
        | true =>
            -- the file begins anew
            obtain ⟨hcarry, hshort⟩ := hfirst rfl hcut (by rw [hfile]; rfl)
            have hnil := h.cut hcut
            subst hnil
            refine follows_read h.shown List.nil_prefix ?_ hcarry hfile rfl hview hcut'
            rw [← hwhole]
            split
            · rfl
            · exact hshort.resolve_left ‹_›
        | false =>
            obtain ⟨hoffset, hcarry⟩ := h.uncut hcut
            have hread : encode text <+: encode full := hwhole ▸ h.read
            refine follows_read h.shown hread ?_ hcarry hfile rfl hview hcut'
            have hle := hread.length_le
            rw [hoffset, if_neg (by omega)]

theorem follows_step {w : World} (h : ∃ text, Follows w text) (event : Event)
    (hmeets : Meets w event) : ∃ text, Follows (w.step event) text := by
  obtain ⟨text, h⟩ := h
  cases event with
  | append bytes => exact ⟨text, follows_append h bytes⟩
  | replace content => exact ⟨[], follows_replace h content hmeets⟩
  | turn resized =>
      obtain ⟨full, hfull, -⟩ := follows_turn h hmeets
      exact ⟨full, hfull⟩

/-! ## §5. Runs. -/

theorem faithful_of_follows {w : World} {text : List Char} (h : Follows w text) : Faithful w := by
  obtain ⟨more, hmore⟩ := h.read
  refine ⟨_, ended newline (tail newline (encode text) ++ more), ?_, h.shown⟩
  unfold World.lines
  rw [← hmore, ended_append, List.append_assoc]

/-- The states of the runs whose steps meet the condition. -/
abbrev Followed (w : World) : Prop := Reach (fun w event => some (w.step event)) Meets {} w

/-- **The transcript is followed** in every run whose steps meet the condition: at any time
the lines up to some line are rendered, once, in order and as they are, and after every turn
all of them are. -/
theorem transcript_followed {w : World} (hr : Followed w) :
    Faithful w ∧ ∀ resized, Meets w (.turn resized) → CaughtUp (w.step (.turn resized)) := by
  have hinv : ∃ text, Follows w text := by
    refine hr.invariant (fun w => ∃ text, Follows w text) ⟨[], follows_start⟩ ?_
    intro w event w' h hmeets hstep
    obtain rfl := Option.some.inj hstep
    exact follows_step h event hmeets
  obtain ⟨text, h⟩ := hinv
  refine ⟨faithful_of_follows h, fun resized hmeets => ?_⟩
  obtain ⟨full, hfull, hcontent⟩ := follows_turn h hmeets
  have hshown := hfull.shown
  rw [hcontent] at hshown
  exact hshown

/-- A line with a character whose bytes arrive together, then a truncation between lines. -/
theorem transcript_followed_truncated :
    CaughtUp ((((((({} : World).step (.append [0xc3, 0xa9, 0x0a])).step (.turn false)).step
      (.replace (some [0x61]))).step (.turn false)).step (.append [0x0a])).step (.turn false)) := by
  refine (transcript_followed (.next (.next (.next (.next (.next .start ?_ rfl) ?_ rfl) ?_ rfl)
    ?_ rfl) ?_ rfl)).2 false ?_
  · trivial
  · exact ⟨⟨['é', '\n'], by decide⟩, fun _ h => nomatch h⟩
  · show newline ∉ ([] : Bytes)
    exact List.not_mem_nil
  · exact ⟨⟨['a'], by decide⟩, fun _ _ _ => ⟨by decide, .inl (by decide)⟩⟩
  · trivial
  · exact ⟨⟨['a', '\n'], by decide⟩, fun _ h => nomatch h⟩

/-! ## §6. Characters in two pieces and texts of two files. -/

theorem Shown.eq {line : Bytes} {shown : List Char} (h : Shown line shown) :
    shown = trimEnd (utf8Lossy line) := by
  obtain ⟨text, hline, hshown⟩ := h
  rw [hline, Remote.utf8Lossy_encode]
  exact hshown

/-- What must have been rendered. -/
theorem Faithful.rendered_eq {w : World} (h : Faithful w) :
    w.view.rendered =
      (w.lines.take w.view.rendered.length).map fun line => trimEnd (utf8Lossy line) := by
  obtain ⟨rendered, later, hlines, hshown⟩ := h
  have hlength : w.view.rendered.length = rendered.length := hshown.length_eq.symm
  rw [hlines, hlength, List.take_left]
  clear hlines hlength
  generalize w.view.rendered = texts at hshown
  induction hshown with
  | nil => rfl
  | cons hline _ ih => rw [List.map_cons, ← hline.eq, ← ih]

def run (events : List Event) : World := events.foldl World.step {}

/-- A character that arrives in two pieces becomes two replacement characters. -/
def splitCharacter : World := run [.append [0xc3], .turn false, .append [0xa9, 0x0a], .turn false]

/-- The beginning of a line before a truncation, and a line after it. -/
def joinedLines : World :=
  run [.append [0x61, 0x62, 0x63], .turn false, .replace (some [0x64, 0x0a]), .turn false]

/-- A truncation followed by more than there was before. -/
def longerFile : World :=
  run [.append [0x61, 0x0a], .turn false, .replace (some [0x62, 0x63, 0x0a]), .turn false]

theorem transcript_garbled :
    (splitCharacter.lines = [[0xc3, 0xa9]] ∧
        splitCharacter.view.rendered = [['\ufffd', '\ufffd']] ∧ ¬ Faithful splitCharacter) ∧
      (joinedLines.lines = [[0x64]] ∧ joinedLines.view.rendered = [['a', 'b', 'c', 'd']] ∧
        ¬ Faithful joinedLines) ∧
      (longerFile.lines = [[0x61], [0x62, 0x63]] ∧ longerFile.view.rendered = [['a'], []] ∧
        ¬ Faithful longerFile) := by
  refine ⟨⟨by decide, by decide, fun h => ?_⟩, ⟨by decide, by decide, fun h => ?_⟩,
    ⟨by decide, by decide, fun h => ?_⟩⟩
  · exact absurd h.rendered_eq (by decide)
  · exact absurd h.rendered_eq (by decide)
  · exact absurd h.rendered_eq (by decide)

end Jmux.Cli
