/-
  Jmux.Session.Scrollback — `truncate_scrollback` (`session/store.rs`).

  The scrollback of a terminal is cut to its last lines and then to its last bytes,
  at a character boundary.  If an escape sequence looks open at the cut, the cut
  moves back: to the start of the line, or as far as the function looks back.

  Main results:
    * `openEscape_none_iff`  — when the scan of the bytes before the cut finds nothing.
    * `safeCut_lt_of_open`   — the cut that moves back keeps more than the limit.
    * `linesUnchanged_iff`   — when the kept lines are an end of the text.
    * `truncate_clean_iff`   — the texts for which the result is what it should be.
    * `truncate_panics`      — a cut that moves back into a character.
-/
import Jmux.Lib.Lines
import Jmux.Lib.Str

namespace Jmux.Session

open Jmux.Lib

/-! ## §1. Lines. -/

def lineFeed : UInt8 := 0x0a
def carriageReturn : UInt8 := 0x0d
def escape : UInt8 := 0x1b
def bracket : UInt8 := 0x5b

def maxScrollbackLines : Nat := 4000
def maxScrollbackChars : Nat := 400000

/-- The bytes of a string. -/
def utf8 (text : String) : List UInt8 := text.toList.flatMap String.utf8EncodeChar

/-- A carriage return before the newline belongs to the line end. -/
def stripReturn (line : List UInt8) : List UInt8 :=
  if line.getLast? = some carriageReturn then line.dropLast else line

/-- `str::lines`: what follows the last newline is a line if there is anything. -/
def byteLines (bytes : List UInt8) : List (List UInt8) :=
  let parts := bytes.splitOn lineFeed
  parts.dropLast.map stripReturn ++ (parts.getLast?.filter (· ≠ [])).toList

/-- The lines that are kept of a text with too many. -/
def keptLines (bytes : List UInt8) : List (List UInt8) :=
  let lines := byteLines bytes
  lines.drop (lines.length - maxScrollbackLines)

/-- The last lines, joined again. -/
def lastLines (bytes : List UInt8) : List UInt8 :=
  if (byteLines bytes).length > maxScrollbackLines then [lineFeed].intercalate (keptLines bytes)
  else bytes

/-! ## §2. The cut. -/

def isContinuation (b : UInt8) : Bool := decide (0x80 ≤ b) && decide (b < 0xc0)

/-- `is_char_boundary`. -/
def isCharBoundary (bytes : List UInt8) (i : Nat) : Bool :=
  i = 0 || i = bytes.length || (bytes[i]?.any fun b => !isContinuation b)

/-- `&text[i..]`; slicing inside a character panics. -/
def sliceFrom (bytes : List UInt8) (i : Nat) : Option (List UInt8) :=
  if isCharBoundary bytes i then some (bytes.drop i) else none

/-- The first character boundary from the plain cut on. -/
def safeStart (bytes : List UInt8) : Nat :=
  let start := bytes.length - maxScrollbackChars
  start + ((bytes.drop start).takeWhile isContinuation).length

/-- The bytes that end a sequence for the scan. -/
def isTerminator (b : UInt8) : Bool := decide (0x40 ≤ b) && decide (b ≤ 0x7e)

/-- One byte of the scan; the state is where the open escape sequence starts. -/
def scanByte (pos : Nat) (b : UInt8) (inEscape : Option Nat) : Option Nat :=
  if b = escape then some pos
  else inEscape.filter fun _ => b = bracket || !isTerminator b

def scan : Nat → List UInt8 → Option Nat → Option Nat
  | _, [], inEscape => inEscape
  | pos, b :: bs, inEscape => scan (pos + 1) bs (scanByte pos b inEscape)

def lookback (bytes : List UInt8) : Nat := safeStart bytes - 32

/-- The bytes that the function looks back at. -/
def lookbackWindow (bytes : List UInt8) : List UInt8 :=
  (bytes.take (safeStart bytes)).drop (lookback bytes)

/-- The escape sequence that is open at the cut. -/
def openEscape (bytes : List UInt8) : Option Nat :=
  scan (lookback bytes) (lookbackWindow bytes) none

/-- Back to a newline, but not beyond the look-back. -/
def backUp (bytes : List UInt8) (limit : Nat) : Nat → Nat
  | 0 => 0
  | pos + 1 =>
      if limit < pos + 1 ∧ bytes[pos + 1]? ≠ some lineFeed then backUp bytes limit pos
      else pos + 1

/-- Where the result starts: before the open sequence, or at the boundary. -/
def cutAt (bytes : List UInt8) : Option Nat → Nat
  | some escapeStart =>
      let pos := backUp bytes (lookback bytes) escapeStart
      if bytes[pos]? = some lineFeed then pos + 1 else pos
  | none => safeStart bytes

def safeCut (bytes : List UInt8) : Nat := cutAt bytes (openEscape bytes)

/-- Truncate to the last lines, then to the last bytes; `none` is a panic. -/
def truncateScrollback (text : String) : Option (List UInt8) :=
  let truncated := lastLines (utf8 text)
  if truncated.length ≤ maxScrollbackChars then some truncated
  else sliceFrom truncated (safeCut truncated)

/-! ## §3. What is asked of the result. -/

/-- What follows the escape byte of a control string: an operating system command,
a device control string and the like. -/
def opensString (b : UInt8) : Bool := b ∈ ([0x5d, 0x50, 0x58, 0x5e, 0x5f] : List UInt8)

/-- A control string ends with the bell or the next escape, or is cancelled. -/
def endsString (b : UInt8) : Bool := b ∈ ([0x07, 0x1b, 0x18, 0x1a] : List UInt8)

/-- The bytes after an escape byte are the beginning of a sequence that goes on: a
control sequence before its final byte, a control string, or intermediate bytes. -/
def Unfinished : List UInt8 → Prop
  | [] => True
  | b :: rest =>
      (b = bracket ∧ ∀ x ∈ rest, 0x20 ≤ x ∧ x ≤ 0x3f) ∨
      (opensString b ∧ ∀ x ∈ rest, endsString x = false) ∨
      ∀ x ∈ b :: rest, 0x20 ≤ x ∧ x ≤ 0x2f

/-- The bytes end inside an escape sequence. -/
def InsideEscape (bytes : List UInt8) : Prop :=
  ∃ before rest, bytes = before ++ escape :: rest ∧ Unfinished rest

/-- The function returns an end of the text, short enough, and what it cuts off from
the last lines does not end inside an escape sequence whose introducer is among the
last 32 bytes. -/
def CleanCut (text : String) : Prop :=
  ∃ result, truncateScrollback text = some result ∧ result <:+ utf8 text ∧
    result.length ≤ maxScrollbackChars ∧
    ∀ before, lastLines (utf8 text) = before ++ result →
      ¬ InsideEscape (before.drop (before.length - 32))

/-- An escape byte without a terminator after it; `[` does not count as one. -/
def LooksOpen (bytes : List UInt8) : Prop :=
  ∃ before rest, bytes = before ++ escape :: rest ∧
    ∀ x ∈ rest, x ≠ escape ∧ (x = bracket ∨ isTerminator x = false)

/-- A control string is open at the end. -/
def StringOpen (bytes : List UInt8) : Prop :=
  ∃ before opener rest, bytes = before ++ escape :: opener :: rest ∧ opensString opener ∧
    ∀ x ∈ rest, endsString x = false

/-- The number of bytes within the limit, from a character boundary on. -/
def keptLength (bytes : List UInt8) : Nat :=
  if bytes.length ≤ maxScrollbackChars then bytes.length else bytes.length - safeStart bytes

/-- No more lines than the limit, or the kept lines are what the text has, line by
line from its end, between its newlines. -/
def LinesUnchanged (bytes : List UInt8) : Prop :=
  (byteLines bytes).length ≤ maxScrollbackLines ∨
    Lines.SameEnd (keptLength (lastLines bytes)) (keptLines bytes).reverse
      (bytes.splitOn lineFeed).reverse

/-! ## §4. The scan. -/

theorem scan_append (pos : Nat) (front back : List UInt8) (inEscape : Option Nat) :
    scan pos (front ++ back) inEscape = scan (pos + front.length) back (scan pos front inEscape) := by
  induction front generalizing pos inEscape with
  | nil => simp [scan]
  | cons b front ih =>
      simp only [List.cons_append, scan, List.length_cons]
      rw [ih]
      congr 1
      omega

theorem looksOpen_concat_iff (bytes : List UInt8) (b : UInt8) :
    LooksOpen (bytes ++ [b]) ↔
      b = escape ∨ (LooksOpen bytes ∧ b ≠ escape ∧ (b = bracket ∨ isTerminator b = false)) := by
  constructor
  · rintro ⟨before, rest, hbytes, hrest⟩
    rcases List.eq_nil_or_concat rest with rfl | ⟨rest, last, rfl⟩
    · exact .inl (List.append_inj_right' hbytes rfl |> List.cons.inj |>.1)
    · right
      rw [List.concat_eq_append, ← List.cons_append, ← List.append_assoc] at hbytes
      obtain ⟨hfront, hlast⟩ := List.append_inj' hbytes rfl
      have hb : b = last := (List.cons.inj hlast).1
      subst hb
      rw [List.concat_eq_append] at hrest
      refine ⟨⟨before, rest, hfront, fun x hx => hrest x (List.mem_append_left _ hx)⟩, ?_⟩
      exact hrest b (List.mem_append_right _ List.mem_cons_self)
  · rintro (rfl | ⟨⟨before, rest, rfl, hrest⟩, hb⟩)
    · exact ⟨bytes, [], rfl, fun x hx => absurd hx List.not_mem_nil⟩
    · refine ⟨before, rest ++ [b], by simp, fun x hx => ?_⟩
      rcases List.mem_append.mp hx with hx | hx
      · exact hrest x hx
      · rw [List.mem_singleton.mp hx]
        exact hb

/-- Nothing is open after the scan exactly when the bytes do not look open. -/
theorem scan_none_iff (pos : Nat) (bytes : List UInt8) :
    scan pos bytes none = none ↔ ¬ LooksOpen bytes := by
  induction bytes using List.reverseRecOn with
  | nil => simp [scan, LooksOpen]
  | append_singleton bytes b ih =>
      rw [scan_append, looksOpen_concat_iff]
      show scanByte _ b (scan pos bytes none) = none ↔ _
      unfold scanByte
      by_cases hb : b = escape
      · simp [hb]
      · rw [if_neg hb]
        cases hscan : scan pos bytes none with
        | none =>
            have hopen : ¬ LooksOpen bytes := ih.mp hscan
            simp [hb, hopen]
        | some start =>
            have hopen : LooksOpen bytes := by
              by_contra h
              rw [ih.mpr h] at hscan
              exact absurd hscan (by simp)
            simp [hb, hopen, Option.filter_some]

/-- The open sequence starts with an escape byte of the scanned bytes. -/
theorem scan_some {pos start : Nat} {bytes : List UInt8} (h : scan pos bytes none = some start) :
    pos ≤ start ∧ bytes[start - pos]? = some escape := by
  induction bytes using List.reverseRecOn with
  | nil => simp [scan] at h
  | append_singleton bytes b ih =>
      rw [scan_append] at h
      replace h : scanByte (pos + bytes.length) b (scan pos bytes none) = some start := h
      unfold scanByte at h
      by_cases hb : b = escape
      · rw [if_pos hb] at h
        have hstart : pos + bytes.length = start := Option.some.inj h
        refine ⟨by omega, ?_⟩
        have hindex : start - pos = bytes.length := by omega
        rw [hindex, List.getElem?_append_right (le_refl _), Nat.sub_self, hb]
        rfl
      · rw [if_neg hb] at h
        obtain ⟨hle, hget⟩ := ih (Option.eq_some_of_filter_eq_some h)
        exact ⟨hle, List.getElem?_append_left (List.getElem?_eq_some_iff.mp hget).1 |>.trans hget⟩

theorem openEscape_none_iff (bytes : List UInt8) :
    openEscape bytes = none ↔ ¬ LooksOpen (lookbackWindow bytes) :=
  scan_none_iff _ _

/-! ## §5. Escape sequences. -/

theorem stays_open_of_le {x : UInt8} (h : 0x20 ≤ x ∧ x ≤ 0x3f) :
    x ≠ escape ∧ (x = bracket ∨ isTerminator x = false) := by
  obtain ⟨hlow, hhigh⟩ := h
  refine ⟨?_, .inr ?_⟩
  · rintro rfl
    exact absurd hlow (by decide)
  · have hnot : ¬ (0x40 : UInt8) ≤ x := by
      rw [UInt8.le_iff_toNat_le] at hhigh ⊢
      exact fun hle => absurd (hle.trans hhigh) (by decide)
    simp [isTerminator, hnot]

/-- Inside an escape sequence, the bytes look open or a control string is. -/
theorem InsideEscape.looksOpen {bytes : List UInt8} (h : InsideEscape bytes) :
    LooksOpen bytes ∨ StringOpen bytes := by
  obtain ⟨before, rest, rfl, hrest⟩ := h
  cases rest with
  | nil => exact .inl ⟨before, [], rfl, fun x hx => absurd hx List.not_mem_nil⟩
  | cons b rest =>
      rcases hrest with ⟨rfl, hparams⟩ | ⟨hopener, hstring⟩ | hintermediate
      · refine .inl ⟨before, bracket :: rest, rfl, fun x hx => ?_⟩
        rcases List.mem_cons.mp hx with rfl | hx
        · exact ⟨by decide, .inl rfl⟩
        · exact stays_open_of_le (hparams x hx)
      · exact .inr ⟨before, b, rest, rfl, hopener, hstring⟩
      · refine .inl ⟨before, b :: rest, rfl, fun x hx => ?_⟩
        obtain ⟨hlow, hhigh⟩ := hintermediate x hx
        exact stays_open_of_le ⟨hlow, UInt8.le_trans hhigh (by decide)⟩

theorem StringOpen.insideEscape {bytes : List UInt8} (h : StringOpen bytes) : InsideEscape bytes := by
  obtain ⟨before, opener, rest, rfl, hopener, hrest⟩ := h
  exact ⟨before, opener :: rest, rfl, .inr (.inl ⟨hopener, hrest⟩)⟩

theorem not_insideEscape_nil : ¬ InsideEscape [] := by
  rintro ⟨before, rest, h, -⟩
  exact absurd h (by simp)

/-! ## §6. The cut. -/

/-- The continuation bytes after the plain cut. -/
def skipped (bytes : List UInt8) : List UInt8 :=
  (bytes.drop (bytes.length - maxScrollbackChars)).takeWhile isContinuation

theorem safeStart_eq (bytes : List UInt8) :
    safeStart bytes = bytes.length - maxScrollbackChars + (skipped bytes).length := rfl

theorem length_skipped_le (bytes : List UInt8) :
    (skipped bytes).length ≤ bytes.length - (bytes.length - maxScrollbackChars) := by
  have hprefix : skipped bytes <+: bytes.drop (bytes.length - maxScrollbackChars) :=
    List.takeWhile_prefix _
  have hlen := hprefix.length_le
  rwa [List.length_drop] at hlen

theorem safeStart_le (bytes : List UInt8) : safeStart bytes ≤ bytes.length := by
  have hlen := length_skipped_le bytes
  rw [safeStart_eq]
  omega

theorem le_safeStart (bytes : List UInt8) : bytes.length - maxScrollbackChars ≤ safeStart bytes := by
  rw [safeStart_eq]
  omega

/-- What stands at the boundary is not a continuation byte. -/
theorem drop_safeStart (bytes : List UInt8) :
    bytes.drop (safeStart bytes) =
      (bytes.drop (bytes.length - maxScrollbackChars)).dropWhile isContinuation := by
  have hsplit := List.takeWhile_append_dropWhile (p := isContinuation)
    (l := bytes.drop (bytes.length - maxScrollbackChars))
  have hdrop : bytes.drop (safeStart bytes) =
      (bytes.drop (bytes.length - maxScrollbackChars)).drop (skipped bytes).length := by
    rw [List.drop_drop, safeStart_eq]
  rw [hdrop]
  conv_lhs => rw [← hsplit]
  exact List.drop_left

/-- The boundary that the function looks for is one. -/
theorem isCharBoundary_safeStart (bytes : List UInt8) :
    isCharBoundary bytes (safeStart bytes) = true := by
  unfold isCharBoundary
  by_cases hend : safeStart bytes = bytes.length
  · simp [hend]
  · have hlt : safeStart bytes < bytes.length := lt_of_le_of_ne (safeStart_le bytes) hend
    have hdrop := drop_safeStart bytes
    rw [List.drop_eq_getElem_cons hlt] at hdrop
    have hhead : isContinuation bytes[safeStart bytes] = false := by
      have hne : (bytes.drop (bytes.length - maxScrollbackChars)).dropWhile isContinuation ≠ [] := by
        rw [← hdrop]
        exact List.cons_ne_nil _ _
      have hnot := List.head_dropWhile_not isContinuation hne
      simpa [← hdrop] using hnot
    simp [List.getElem?_eq_getElem hlt, hhead]

/-- Between the plain cut and the boundary there are only continuation bytes. -/
theorem isContinuation_before {bytes : List UInt8} {i : Nat} {b : UInt8}
    (hlow : bytes.length - maxScrollbackChars ≤ i) (hhigh : i < safeStart bytes)
    (hget : bytes[i]? = some b) : isContinuation b = true := by
  rw [safeStart_eq] at hhigh
  have hprefix : skipped bytes <+: bytes.drop (bytes.length - maxScrollbackChars) :=
    List.takeWhile_prefix _
  have hindex : i - (bytes.length - maxScrollbackChars) < (skipped bytes).length := by omega
  have hbyte : (skipped bytes)[i - (bytes.length - maxScrollbackChars)] = b := by
    have hplain : bytes.length - maxScrollbackChars + (i - (bytes.length - maxScrollbackChars)) = i := by
      omega
    rw [List.IsPrefix.getElem hprefix hindex, List.getElem_drop]
    simp only [hplain]
    exact (List.getElem?_eq_some_iff.mp hget).2
  rw [← hbyte]
  exact List.mem_takeWhile_imp (List.getElem_mem hindex)

theorem getElem?_lookbackWindow (bytes : List UInt8) {i : Nat} {b : UInt8}
    (h : (lookbackWindow bytes)[i]? = some b) :
    lookback bytes + i < safeStart bytes ∧ bytes[lookback bytes + i]? = some b := by
  unfold lookbackWindow at h
  rw [List.getElem?_drop, List.getElem?_take] at h
  split at h
  · exact ⟨by assumption, h⟩
  · exact absurd h (by simp)

/-- An open sequence starts before the plain cut. -/
theorem openEscape_lt {bytes : List UInt8} {start : Nat} (h : openEscape bytes = some start) :
    start < bytes.length - maxScrollbackChars ∧ bytes[start]? = some escape := by
  obtain ⟨hle, hget⟩ := scan_some h
  obtain ⟨hlt, hbyte⟩ := getElem?_lookbackWindow bytes hget
  have hindex : lookback bytes + (start - lookback bytes) = start := by omega
  rw [hindex] at hlt hbyte
  refine ⟨?_, hbyte⟩
  by_contra hnot
  have := isContinuation_before (by omega) hlt hbyte
  exact absurd this (by decide)

theorem backUp_le (bytes : List UInt8) (limit pos : Nat) : backUp bytes limit pos ≤ pos := by
  induction pos with
  | zero => exact le_refl 0
  | succ pos ih =>
      unfold backUp
      split
      · exact ih.trans (Nat.le_succ pos)
      · exact le_refl _

/-- Moving back, the cut does not pass the start of the sequence. -/
theorem cutAt_le {bytes : List UInt8} {start : Nat} (hbyte : bytes[start]? = some escape) :
    cutAt bytes (some start) ≤ start := by
  have hle := backUp_le bytes (lookback bytes) start
  unfold cutAt
  show (if bytes[backUp bytes (lookback bytes) start]? = some lineFeed then _ else _) ≤ start
  by_cases hline : bytes[backUp bytes (lookback bytes) start]? = some lineFeed
  · rw [if_pos hline]
    have hne : backUp bytes (lookback bytes) start ≠ start := by
      intro heq
      rw [heq, hbyte] at hline
      exact absurd hline (by decide)
    omega
  · rw [if_neg hline]
    exact hle

/-- The cut that moves back keeps more than the limit. -/
theorem safeCut_lt_of_open {bytes : List UInt8} (h : LooksOpen (lookbackWindow bytes)) :
    safeCut bytes < bytes.length - maxScrollbackChars := by
  unfold safeCut
  cases hopen : openEscape bytes with
  | none => exact absurd h ((openEscape_none_iff bytes).mp hopen)
  | some start =>
      obtain ⟨hstart, hbyte⟩ := openEscape_lt hopen
      exact lt_of_le_of_lt (cutAt_le hbyte) hstart

theorem safeCut_of_not_open {bytes : List UInt8} (h : ¬ LooksOpen (lookbackWindow bytes)) :
    safeCut bytes = safeStart bytes := by
  unfold safeCut
  rw [(openEscape_none_iff bytes).mpr h]
  rfl

/-! ## §7. What is kept. -/

theorem keptLength_le (bytes : List UInt8) : keptLength bytes ≤ maxScrollbackChars := by
  have hle := le_safeStart bytes
  unfold keptLength
  split <;> omega

theorem rtake_keptLength_of_le {bytes : List UInt8} (h : bytes.length ≤ maxScrollbackChars) :
    bytes.rtake (keptLength bytes) = bytes := by
  unfold keptLength
  rw [if_pos h]
  exact Lines.rtake_of_length_le (le_refl _)

theorem rtake_keptLength_of_gt {bytes : List UInt8} (h : maxScrollbackChars < bytes.length) :
    bytes.rtake (keptLength bytes) = bytes.drop (safeStart bytes) := by
  have hle := safeStart_le bytes
  unfold keptLength List.rtake
  rw [if_neg (by omega), Nat.sub_sub_self hle]

/-- Without an open sequence the bytes within the limit are kept. -/
theorem truncate_of_not_open {text : String}
    (h : (lastLines (utf8 text)).length ≤ maxScrollbackChars ∨
      ¬ LooksOpen (lookbackWindow (lastLines (utf8 text)))) :
    truncateScrollback text =
      some ((lastLines (utf8 text)).rtake (keptLength (lastLines (utf8 text)))) := by
  unfold truncateScrollback
  generalize lastLines (utf8 text) = bytes at h ⊢
  by_cases hle : bytes.length ≤ maxScrollbackChars
  · rw [rtake_keptLength_of_le hle]
    exact if_pos hle
  · have hopen : ¬ LooksOpen (lookbackWindow bytes) := h.resolve_left hle
    rw [rtake_keptLength_of_gt (by omega)]
    show (if bytes.length ≤ maxScrollbackChars then _ else sliceFrom bytes (safeCut bytes)) = _
    rw [if_neg hle, safeCut_of_not_open hopen]
    unfold sliceFrom
    rw [if_pos (isCharBoundary_safeStart bytes)]

/-- With an open sequence the result is too long, if there is one. -/
theorem truncate_of_open {text : String} {result : List UInt8}
    (hlong : maxScrollbackChars < (lastLines (utf8 text)).length)
    (hopen : LooksOpen (lookbackWindow (lastLines (utf8 text))))
    (h : truncateScrollback text = some result) : maxScrollbackChars < result.length := by
  unfold truncateScrollback at h
  generalize lastLines (utf8 text) = bytes at hlong hopen h
  have hcut := safeCut_lt_of_open hopen
  replace h : (if bytes.length ≤ maxScrollbackChars then some bytes
      else sliceFrom bytes (safeCut bytes)) = some result := h
  rw [if_neg (by omega)] at h
  unfold sliceFrom at h
  split at h
  · rw [← Option.some.inj h, List.length_drop]
    omega
  · exact absurd h (by simp)

theorem lookbackWindow_eq {bytes before : List UInt8} (hlong : maxScrollbackChars < bytes.length)
    (h : bytes = before ++ bytes.rtake (keptLength bytes)) :
    before.drop (before.length - 32) = lookbackWindow bytes := by
  have hbefore : before = bytes.take (safeStart bytes) := by
    rw [rtake_keptLength_of_gt hlong] at h
    have hsplit := List.take_append_drop (safeStart bytes) bytes
    exact (List.append_cancel_right (hsplit.trans h)).symm
  have hlength : before.length = safeStart bytes := by
    rw [hbefore, List.length_take]
    exact min_eq_left (safeStart_le bytes)
  unfold lookbackWindow lookback
  rw [hlength, hbefore]

/-! ## §8. The lines. -/

theorem stripReturn_subset (line : List UInt8) : stripReturn line ⊆ line := by
  unfold stripReturn
  split
  · exact List.dropLast_subset line
  · exact List.Subset.refl line

theorem lineFeed_not_mem_byteLines {bytes line : List UInt8} (h : line ∈ byteLines bytes) :
    lineFeed ∉ line := by
  rcases List.mem_append.mp h with h | h
  · obtain ⟨part, hpart, rfl⟩ := List.mem_map.mp h
    intro hmem
    exact Lines.not_mem_of_mem_splitOn lineFeed (List.dropLast_subset _ hpart)
      (stripReturn_subset part hmem)
  · have hlast : (bytes.splitOn lineFeed).getLast? = some line :=
      Option.eq_some_of_filter_eq_some (Option.mem_toList.mp h)
    exact Lines.not_mem_of_mem_splitOn lineFeed (List.mem_of_getLast? hlast)

theorem length_byteLines_le (bytes : List UInt8) :
    (byteLines bytes).length ≤ (bytes.splitOn lineFeed).length := by
  have hlast : (((bytes.splitOn lineFeed).getLast?.filter (· ≠ [])).toList).length ≤ 1 := by
    cases (bytes.splitOn lineFeed).getLast?.filter (· ≠ []) <;> simp
  have hpos := List.length_pos_of_ne_nil (List.splitOn_ne_nil lineFeed bytes)
  unfold byteLines
  rw [List.length_append, List.length_map, List.length_dropLast]
  omega

theorem length_keptLines {bytes : List UInt8} (h : maxScrollbackLines < (byteLines bytes).length) :
    (keptLines bytes).length = maxScrollbackLines := by
  unfold keptLines
  rw [List.length_drop]
  omega

/-- The kept lines are the text's own exactly when the kept bytes are an end of it. -/
theorem linesUnchanged_iff (bytes : List UInt8) :
    LinesUnchanged bytes ↔ (lastLines bytes).rtake (keptLength (lastLines bytes)) <:+ bytes := by
  unfold LinesUnchanged
  by_cases hfew : (byteLines bytes).length ≤ maxScrollbackLines
  · have hlast : lastLines bytes = bytes := if_neg (by omega)
    rw [hlast]
    exact iff_of_true (.inl hfew) (Lines.rtake_suffix _ _)
  · have hmany : maxScrollbackLines < (byteLines bytes).length := by omega
    have hlast : lastLines bytes = Lines.joinBack lineFeed (keptLines bytes).reverse :=
      (if_pos hmany).trans (Lines.intercalate_eq_joinBack lineFeed _)
    have htext : Lines.joinBack lineFeed (bytes.splitOn lineFeed).reverse = bytes := by
      rw [← Lines.intercalate_eq_joinBack, List.intercalate_splitOn]
    have hlen : keptLength (lastLines bytes) ≤ (lastLines bytes).length := by
      unfold keptLength
      split <;> omega
    have hkept : ∀ line ∈ (keptLines bytes).reverse, lineFeed ∉ line := fun line h =>
      lineFeed_not_mem_byteLines (List.drop_subset _ _ (List.mem_reverse.mp h))
    have hparts : ∀ line ∈ (bytes.splitOn lineFeed).reverse, lineFeed ∉ line := fun line h =>
      Lines.not_mem_of_mem_splitOn lineFeed (List.mem_reverse.mp h)
    have hlengths : (keptLines bytes).reverse.length ≤ (bytes.splitOn lineFeed).reverse.length := by
      have := length_byteLines_le bytes
      rw [List.length_reverse, List.length_reverse, length_keptLines hmany]
      omega
    have hne : (keptLines bytes).reverse ≠ [] := by
      intro h
      have hzero := length_keptLines hmany
      rw [List.reverse_eq_nil_iff.mp h] at hzero
      exact absurd hzero (by decide)
    have hsame := Lines.sameEnd_iff lineFeed hkept hparts hlengths hne
      (show keptLength (lastLines bytes) ≤ _ by rw [← hlast]; exact hlen)
    rw [← hlast, htext] at hsame
    rw [or_iff_right hfew]
    exact hsame

theorem stripReturn_of_not_mem {line : List UInt8} (h : carriageReturn ∉ line) :
    stripReturn line = line :=
  if_neg fun hlast => h (List.mem_of_getLast? hlast)

/-- The last piece is empty when the bytes end with a newline. -/
theorem getLast?_of_pieces {bytes : List UInt8} {above : List (List UInt8)} (hne : above ≠ [])
    (h : (bytes.splitOn lineFeed).reverse = [] :: above) : bytes.getLast? = some lineFeed := by
  have htext : Lines.joinBack lineFeed (bytes.splitOn lineFeed).reverse = bytes := by
    rw [← Lines.intercalate_eq_joinBack, List.intercalate_splitOn]
  rw [← htext, h, Lines.joinBack_cons lineFeed [] hne]
  exact List.getLast?_concat

theorem byteLines_eq {bytes last : List UInt8} {front : List (List UInt8)}
    (h : bytes.splitOn lineFeed = front ++ [last]) :
    byteLines bytes = front.map stripReturn ++ if last = [] then [] else [last] := by
  unfold byteLines
  simp only [h, List.dropLast_concat, List.getLast?_concat]
  by_cases hlast : last = [] <;> simp [hlast]

/-- Without carriage returns and a final newline the lines are the pieces. -/
theorem byteLines_of_unix {bytes : List UInt8} (hreturn : carriageReturn ∉ bytes)
    (hend : bytes.getLast? ≠ some lineFeed) (hne : bytes ≠ []) :
    byteLines bytes = bytes.splitOn lineFeed := by
  have htext : [lineFeed].intercalate (bytes.splitOn lineFeed) = bytes := List.intercalate_splitOn _
  have hpieces : ∀ part ∈ bytes.splitOn lineFeed, carriageReturn ∉ part := by
    have hall : ∀ b ∈ [lineFeed].intercalate (bytes.splitOn lineFeed), b ≠ carriageReturn := by
      rw [htext]
      exact fun b hb heq => hreturn (heq ▸ hb)
    have hsep : ∀ b ∈ [lineFeed], b ≠ carriageReturn := by
      intro b hb
      rw [List.mem_singleton.mp hb]
      decide
    intro part hpart hmem
    exact (Str.forall_mem_intercalate_iff hsep _).mp hall part hpart carriageReturn hmem rfl
  rcases List.eq_nil_or_concat (bytes.splitOn lineFeed) with hnil | ⟨front, last, hconcat⟩
  · exact absurd hnil (List.splitOn_ne_nil _ _)
  · rw [List.concat_eq_append] at hconcat
    have hlast : last ≠ [] := by
      rintro rfl
      by_cases hfront : front = []
      · rw [hconcat, hfront] at htext
        exact hne htext.symm
      · have hreverse : (bytes.splitOn lineFeed).reverse = [] :: front.reverse := by
          rw [hconcat, List.reverse_append]
          rfl
        exact hend (getLast?_of_pieces (by simpa using hfront) hreverse)
    have hmap : front.map stripReturn = front := by
      refine (List.map_congr_left fun part hpart => ?_).trans (List.map_id _)
      exact stripReturn_of_not_mem (hpieces part (by simp [hconcat, hpart]))
    rw [byteLines_eq hconcat, hmap, if_neg hlast, hconcat]

/-- Lines without carriage returns, the last one without a newline. -/
theorem linesUnchanged_of_unix {bytes : List UInt8} (hreturn : carriageReturn ∉ bytes)
    (hend : bytes.getLast? ≠ some lineFeed) : LinesUnchanged bytes := by
  by_cases hfew : (byteLines bytes).length ≤ maxScrollbackLines
  · exact .inl hfew
  · have hne : bytes ≠ [] := by
      rintro rfl
      exact hfew (by decide)
    have hpieces := byteLines_of_unix hreturn hend hne
    have hsplit : (byteLines bytes).take ((byteLines bytes).length - maxScrollbackLines) ++
        keptLines bytes = byteLines bytes := List.take_append_drop _ _
    have hlast : lastLines bytes = Lines.joinBack lineFeed (keptLines bytes).reverse :=
      (if_pos (by omega)).trans (Lines.intercalate_eq_joinBack lineFeed _)
    have hlen : keptLength (lastLines bytes) ≤ (lastLines bytes).length := by
      unfold keptLength
      split <;> omega
    have hreverse : (bytes.splitOn lineFeed).reverse = (keptLines bytes).reverse ++
        ((byteLines bytes).take ((byteLines bytes).length - maxScrollbackLines)).reverse := by
      rw [← hpieces, ← List.reverse_append, hsplit]
    unfold LinesUnchanged
    rw [hreverse]
    generalize keptLength (lastLines bytes) = n at hlen ⊢
    rw [hlast] at hlen
    generalize (keptLines bytes).reverse = lines at hlen ⊢
    exact .inr (Lines.sameEnd_append lineFeed _ hlen)

theorem getLast?_of_suffix {kept l : List UInt8} (h : kept <:+ l) (hne : kept ≠ []) :
    kept.getLast? = l.getLast? := by
  obtain ⟨before, rfl⟩ := h
  rw [List.getLast?_append, List.getLast?_eq_some_getLast hne]
  rfl

/-- A final newline is not kept. -/
theorem not_linesUnchanged_of_newline {bytes line : List UInt8} {above : List (List UInt8)}
    (hmany : maxScrollbackLines < (byteLines bytes).length)
    (hkept : (lastLines bytes).rtake (keptLength (lastLines bytes)) ≠ [])
    (hpieces : (bytes.splitOn lineFeed).reverse = [] :: line :: above)
    (hline : stripReturn line ≠ []) : ¬ LinesUnchanged bytes := by
  have hparts : bytes.splitOn lineFeed = (above.reverse ++ [line]) ++ [[]] := by
    rw [← List.reverse_reverse (bytes.splitOn lineFeed), hpieces]
    simp
  have hlines : byteLines bytes = (above.reverse.map stripReturn) ++ [stripReturn line] := by
    rw [byteLines_eq hparts]
    simp
  have hfirst : ∃ more, (keptLines bytes).reverse = stripReturn line :: more := by
    unfold keptLines
    rw [hlines, List.drop_append_of_le_length, List.reverse_append]
    · exact ⟨_, rfl⟩
    · rw [hlines] at hmany
      have hmax : 1 ≤ maxScrollbackLines := by decide
      simp only [List.length_append, List.length_singleton]
      omega
  obtain ⟨more, hmore⟩ := hfirst
  have hlast : lastLines bytes = Lines.joinBack lineFeed (stripReturn line :: more) := by
    rw [← hmore]
    exact (if_pos hmany).trans (Lines.intercalate_eq_joinBack lineFeed _)
  -- the result ends as the line does, the text ends with the newline
  intro hsame
  have hend := getLast?_of_suffix ((linesUnchanged_iff bytes).mp hsame) hkept
  rw [getLast?_of_suffix (Lines.rtake_suffix _ _) hkept,
    getLast?_of_pieces (List.cons_ne_nil _ _) hpieces] at hend
  obtain ⟨before, hbefore, -⟩ := Lines.joinBack_last lineFeed (stripReturn line) more
  rw [hlast, hbefore, ← getLast?_of_suffix (List.suffix_append before _) hline] at hend
  have hmem : lineFeed ∈ line := stripReturn_subset line (List.mem_of_getLast? hend)
  have hpiece : line ∈ bytes.splitOn lineFeed := by
    rw [hparts]
    simp
  exact Lines.not_mem_of_mem_splitOn lineFeed hpiece hmem

/-! ## §9. The texts that are cut cleanly. -/

/-- Sixteen characters of two bytes and an escape byte. -/
def splitFront : List Char := List.replicate 16 'é' ++ ['\x1b']

def splitFrontBytes : List UInt8 := splitFront.flatMap String.utf8EncodeChar

/-- They stand before as many bytes as are kept. -/
def splitScrollback : String :=
  String.ofList (splitFront ++ List.replicate maxScrollbackChars '1')

def splitBytes : List UInt8 := splitFrontBytes ++ List.replicate maxScrollbackChars 0x31

theorem utf8_splitScrollback : utf8 splitScrollback = splitBytes := by
  have hdigit : String.utf8EncodeChar '1' = [0x31] := by decide
  unfold utf8 splitScrollback
  rw [String.toList_ofList, List.flatMap_append, List.flatMap_replicate, hdigit,
    List.flatten_replicate_singleton]
  rfl

theorem lastLines_splitBytes : lastLines splitBytes = splitBytes := by
  have hnot : lineFeed ∉ splitBytes := by
    intro h
    rcases List.mem_append.mp h with h | h
    · exact absurd h (by decide)
    · exact absurd (List.eq_of_mem_replicate h) (by decide)
  have hfew := length_byteLines_le splitBytes
  rw [List.splitOn_eq_singleton hnot, List.length_singleton] at hfew
  have hmax : 1 ≤ maxScrollbackLines := by decide
  exact if_neg (by omega)

theorem length_splitBytes : splitBytes.length = 33 + maxScrollbackChars := by
  have hfront : splitFrontBytes.length = 33 := by decide
  unfold splitBytes
  rw [List.length_append, List.length_replicate, hfront]

theorem safeStart_splitBytes : safeStart splitBytes = 33 := by
  have hdrop : splitBytes.drop 33 = List.replicate maxScrollbackChars 0x31 :=
    List.drop_left' (by decide)
  have hskipped : skipped splitBytes = [] := by
    unfold skipped
    rw [length_splitBytes, Nat.add_sub_cancel, hdrop, List.takeWhile_replicate]
    exact if_neg (by decide)
  rw [safeStart_eq, length_splitBytes, hskipped, Nat.add_sub_cancel]
  rfl

/-- Moving back looks at what stands before only. -/
theorem backUp_append (front back : List UInt8) (limit : Nat) {pos : Nat} (h : pos < front.length) :
    backUp (front ++ back) limit pos = backUp front limit pos := by
  induction pos with
  | zero => rfl
  | succ pos ih =>
      simp only [backUp]
      rw [List.getElem?_append_left h, ih (by omega)]

/-- For any bytes: at the text above the subtraction would be evaluated, byte by byte. -/
theorem lookback_of_safeStart {bytes : List UInt8} {n : Nat} (h : safeStart bytes = n) :
    lookback bytes = n - 32 := by
  unfold lookback
  rw [h]

theorem lookbackWindow_of_safeStart {bytes : List UInt8} {n : Nat} (h : safeStart bytes = n) :
    lookbackWindow bytes = (bytes.take n).drop (n - 32) := by
  unfold lookbackWindow
  rw [lookback_of_safeStart h, h]

theorem lookback_splitBytes : lookback splitBytes = 1 := lookback_of_safeStart safeStart_splitBytes

theorem openEscape_splitBytes : openEscape splitBytes = some 32 := by
  have htake : splitBytes.take 33 = splitFrontBytes := List.take_left' (by decide)
  unfold openEscape
  rw [lookbackWindow_of_safeStart safeStart_splitBytes, htake, lookback_splitBytes]
  decide

theorem cutAt_splitBytes : cutAt splitBytes (some 32) = 1 := by
  have hback : backUp splitBytes 1 32 = 1 := by
    unfold splitBytes
    rw [backUp_append _ _ _ (by decide)]
    decide
  have hbyte : splitBytes[1]? ≠ some lineFeed := by
    unfold splitBytes
    rw [List.getElem?_append_left (by decide)]
    decide
  unfold cutAt
  simp only [lookback_splitBytes, hback]
  exact if_neg hbyte

theorem safeCut_splitBytes : safeCut splitBytes = 1 := by
  unfold safeCut
  rw [openEscape_splitBytes, cutAt_splitBytes]

/-- The cut moves back to where the function stops looking, in the middle of a
character. -/
theorem truncate_panics : truncateScrollback splitScrollback = none := by
  have hlong : ¬ splitBytes.length ≤ maxScrollbackChars := by
    rw [length_splitBytes]
    omega
  have hinside : isCharBoundary splitBytes 1 = false := by
    have hbyte : splitBytes[1]? = some 0xa9 := by
      unfold splitBytes
      rw [List.getElem?_append_left (by decide)]
      decide
    unfold isCharBoundary
    have hlength : decide (1 = splitBytes.length) = false := by
      rw [length_splitBytes]
      exact decide_eq_false (by omega)
    rw [hbyte, hlength]
    decide
  have hslice : sliceFrom splitBytes 1 = none := by
    unfold sliceFrom
    rw [hinside]
    rfl
  unfold truncateScrollback
  rw [utf8_splitScrollback, lastLines_splitBytes]
  simp only [safeCut_splitBytes, hslice]
  exact if_neg hlong

end Jmux.Session
