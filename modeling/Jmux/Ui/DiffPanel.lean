/-
  Jmux.Ui.DiffPanel — review comments on the lines of a diff (`ui/diff_panel.rs`).

  A comment is kept under a key made of the line's text.  A right-click makes the
  key of the line of the text buffer that it hits, `render_diff` of the diff line
  that it inserts.

  Main results:
    * `lineAt_render`       — the line of the buffer that a click on a diff line hits.
    * `comment_keys`        — when the two keys agree, and which lines share one.
    * `inlineComment_commit` — where a comment is shown.
-/
import Jmux.Lib.FiniteMap
import Jmux.Lib.LineStream

namespace Jmux.Ui

open Jmux.Lib Jmux.Lib.LineStream

/-! ## §1. `render_diff`. -/

/-- `str::split_inclusive`: the lines, each with its newline. -/
def splitInclusive (text : List Char) : List (List Char) :=
  (ended '\n' text).map (· ++ ['\n']) ++ (if tail '\n' text = [] then [] else [tail '\n' text])

/-- The beginnings of lines that are not code, after `+++`. -/
def headerStarts : List String :=
  ["---", "@@", "diff ", "index ", "new file", "deleted file", "rename ", "similarity ",
    "old mode", "new mode", "\\"]

def isHeader (line : List Char) : Bool :=
  "+++".toList.isPrefixOf line || headerStarts.any fun start => start.toList.isPrefixOf line

/-- The marker that is inserted before the content of a code line, and that content. -/
def codeOf (line : List Char) : Option (Option Char × List Char) :=
  if isHeader line then none
  else
    match line with
    | '+' :: rest => some (some '+', rest)
    | '-' :: rest => some (some '-', rest)
    | ' ' :: rest => some (some ' ', rest)
    | rest => some (none, rest)

/-- Line-code → comment. -/
abbrev Comments := AList fun _ : List Char => List Char

def trim (code : List Char) : List Char := Str.trimMatches Str.isWhitespace code

/-- The key of the content; nothing is kept under an empty one. -/
def keyOf (code : List Char) : Option (List Char) := some (trim code) |>.filter (· ≠ [])

def insertInlineComment (comments : Comments) (code : List Char) : List Char :=
  match (keyOf code).bind fun key => comments.lookup key with
  | some comment => "    💬 ".toList ++ comment ++ ['\n']
  | none => []

def renderLine (comments : Comments) (line : List Char) : List Char :=
  match codeOf line with
  | none => line
  | some (marker, rest) => marker.toList ++ rest ++ insertInlineComment comments rest

/-- The text of the buffer. -/
def renderDiff (comments : Comments) (text : List Char) : List Char :=
  (splitInclusive text).flatMap (renderLine comments)

/-! ## §2. A right-click. -/

/-- What ends a line of a text buffer. -/
def isBreak (c : Char) : Bool := c = '\n' || c = '\r' || c = '\u2029'

/-- The line of the buffer around a place in it. -/
def lineAt (buffer : List Char) (pos : Nat) : List Char :=
  (buffer.take pos).rtakeWhile (fun c => !isBreak c) ++
    (buffer.drop pos).takeWhile (fun c => !isBreak c)

def isMarker (c : Char) : Bool := c = ' ' || c = '+' || c = '-'

/-- The key of a right-click; nothing happens without one. -/
def clickKey (buffer : List Char) (pos : Nat) : Option (List Char) :=
  keyOf ((lineAt buffer pos).dropWhile isMarker)

/-- The comment is saved, or removed when it is blank. -/
def commit (comments : Comments) (key text : List Char) : Comments :=
  if trim text = [] then comments.erase key else comments.insert key (trim text)

/-! ## §3. White space around a text. -/

/-- The two agree apart from white space around them. -/
def AgreeInside (as bs : List Char) : Prop :=
  ∃ core, ∃ l r l' r' : List Char, as = l ++ core ++ r ∧ bs = l' ++ core ++ r' ∧
    ∀ c ∈ l ++ r ++ (l' ++ r'), Str.isWhitespace c = true

theorem trim_append_right (cs : List Char) {r : List Char}
    (hr : ∀ c ∈ r, Str.isWhitespace c = true) : trim (cs ++ r) = trim cs := by
  have hnil : Str.trimEndMatches Str.isWhitespace r = [] := by
    unfold Str.trimEndMatches
    exact List.rdropWhile_eq_nil_iff.mpr hr
  unfold trim
  rw [Str.trimMatches_comm, Str.trimEndMatches_append, if_pos hnil, ← Str.trimMatches_comm]

theorem trim_append_left {l : List Char} (hl : ∀ c ∈ l, Str.isWhitespace c = true)
    (cs : List Char) : trim (l ++ cs) = trim cs := by
  unfold trim Str.trimMatches
  rw [List.dropWhile_append_of_pos hl]

/-- A text is what is left of it with white space around. -/
theorem exists_trim (cs : List Char) :
    ∃ l r, cs = l ++ trim cs ++ r ∧ ∀ c ∈ l ++ r, Str.isWhitespace c = true := by
  refine ⟨cs.takeWhile Str.isWhitespace, (cs.dropWhile Str.isWhitespace).rtakeWhile Str.isWhitespace,
    ?_, ?_⟩
  · have hback : trim cs ++ (cs.dropWhile Str.isWhitespace).rtakeWhile Str.isWhitespace =
        cs.dropWhile Str.isWhitespace := List.rdropWhile_append_rtakeWhile
    rw [List.append_assoc, hback, List.takeWhile_append_dropWhile]
  · intro c hc
    rcases List.mem_append.mp hc with hc | hc
    · exact List.mem_takeWhile_imp hc
    · exact List.mem_rtakeWhile_imp hc

theorem trim_eq_iff (as bs : List Char) : trim as = trim bs ↔ AgreeInside as bs := by
  constructor
  · intro h
    obtain ⟨l, r, has, hl⟩ := exists_trim as
    obtain ⟨l', r', hbs, hl'⟩ := exists_trim bs
    exact ⟨trim as, l, r, l', r', has, h ▸ hbs, List.forall_mem_append.mpr ⟨hl, hl'⟩⟩
  · rintro ⟨core, l, r, l', r', rfl, rfl, hspace⟩
    simp only [List.forall_mem_append] at hspace
    obtain ⟨⟨hl, hr⟩, hl', hr'⟩ := hspace
    rw [trim_append_right _ hr, trim_append_left hl, trim_append_right _ hr', trim_append_left hl']

theorem keyOf_eq_iff (as bs : List Char) : keyOf as = keyOf bs ↔ AgreeInside as bs := by
  rw [← trim_eq_iff]
  constructor
  · intro h
    have hsome : ∀ cs, keyOf cs = if trim cs = [] then none else some (trim cs) := by
      intro cs
      by_cases hnil : trim cs = [] <;> simp [keyOf, hnil]
    rw [hsome, hsome] at h
    by_cases ha : trim as = [] <;> by_cases hb : trim bs = []
    · rw [ha, hb]
    · simp [ha, hb] at h
    · simp [ha, hb] at h
    · rw [if_neg ha, if_neg hb] at h
      exact Option.some.inj h
  · intro h
    unfold keyOf
    rw [h]

/-- The content does not begin with a marker of its own, white space aside. -/
def Unmarked (content : List Char) : Prop :=
  ∀ c, (content.dropWhile (· = ' ')).head? = some c → c ≠ '+' ∧ c ≠ '-'

/-- Only the blanks at the front go with the markers. -/
theorem dropWhile_isMarker {content : List Char} (h : Unmarked content) :
    content.dropWhile isMarker = content.dropWhile (· = ' ') := by
  induction content with
  | nil => rfl
  | cons c content ih =>
      by_cases hblank : c = ' '
      · subst hblank
        exact ih h
      · have hhead := h c (by simp [hblank])
        rw [List.dropWhile_cons_of_neg (by simp [isMarker, hblank, hhead]),
          List.dropWhile_cons_of_neg (by simpa using hblank)]

theorem keyOf_dropWhile {content : List Char} (h : Unmarked content) :
    keyOf (content.dropWhile isMarker) = keyOf content := by
  rw [dropWhile_isMarker h, keyOf_eq_iff, ← trim_eq_iff]
  have hblank : ∀ c ∈ content.takeWhile (· = ' '), Str.isWhitespace c = true := by
    intro c hc
    have hc : c = ' ' := by simpa using List.mem_takeWhile_imp hc
    rw [hc]
    decide
  have hsplit := @List.takeWhile_append_dropWhile _ (fun c : Char => decide (c = ' ')) content
  rw [← trim_append_left hblank, hsplit]

/-! ## §4. The line under a click. -/

/-- A text between two breaks is a line of the buffer. -/
theorem lineAt_between {above visible below : List Char} (habove : ∀ c, above.getLast? = some c →
    isBreak c = true) (hvisible : ∀ c ∈ visible, isBreak c = false)
    (hbelow : ∀ c, below.head? = some c → isBreak c = true) {i : Nat} (hi : i ≤ visible.length) :
    lineAt (above ++ (visible ++ below)) (above.length + i) = visible := by
  have htake : (above ++ (visible ++ below)).take (above.length + i) = above ++ visible.take i := by
    rw [List.take_length_add_append, List.take_append_of_le_length hi]
  have hdrop : (above ++ (visible ++ below)).drop (above.length + i) = visible.drop i ++ below := by
    rw [List.drop_length_add_append, List.drop_append_of_le_length hi]
  have hfront : (above ++ visible.take i).rtakeWhile (fun c => !isBreak c) = visible.take i := by
    have hall : ∀ c ∈ (visible.take i).reverse, (!isBreak c) = true := by
      intro c hc
      rw [hvisible c (List.mem_of_mem_take (List.mem_reverse.mp hc))]
      rfl
    have hstop : above.reverse.takeWhile (fun c => !isBreak c) = [] := by
      cases hrev : above.reverse with
      | nil => rfl
      | cons c rest =>
          have hlast : above.getLast? = some c := by
            rw [List.getLast?_eq_head?_reverse, hrev]
            rfl
          rw [List.takeWhile_cons_of_neg (by rw [habove c hlast]; exact Bool.false_ne_true)]
    unfold List.rtakeWhile
    rw [List.reverse_append, List.takeWhile_append_of_pos hall, hstop, List.append_nil,
      List.reverse_reverse]
  have hback : (visible.drop i ++ below).takeWhile (fun c => !isBreak c) = visible.drop i := by
    have hall : ∀ c ∈ visible.drop i, (!isBreak c) = true := by
      intro c hc
      rw [hvisible c (List.mem_of_mem_drop hc)]
      rfl
    have hstop : below.takeWhile (fun c => !isBreak c) = [] := by
      cases below with
      | nil => rfl
      | cons c rest =>
          rw [List.takeWhile_cons_of_neg (by rw [hbelow c rfl]; exact Bool.false_ne_true)]
    rw [List.takeWhile_append_of_pos hall, hstop, List.append_nil]
  unfold lineAt
  rw [htake, hdrop, hfront, hback, List.take_append_drop]

/-- What is inserted for a line goes on with the line itself. -/
theorem renderLine_eq (comments : Comments) (line : List Char) :
    ∃ comment, renderLine comments line = line ++ comment ∧
      ∀ c, comment.getLast? = some c → c = '\n' := by
  have hcomment : ∀ code c, (insertInlineComment comments code).getLast? = some c → c = '\n' := by
    intro code c hc
    unfold insertInlineComment at hc
    split at hc
    · rw [List.getLast?_concat] at hc
      exact (Option.some.inj hc).symm
    · cases hc
  cases hcode : codeOf line with
  | none =>
      refine ⟨[], ?_, fun c hc => nomatch hc⟩
      unfold renderLine
      rw [hcode, List.append_nil]
  | some code =>
      refine ⟨insertInlineComment comments code.2, ?_, hcomment code.2⟩
      have hline : code.1.toList ++ code.2 = line := by
        unfold codeOf at hcode
        split at hcode
        · cases hcode
        · split at hcode <;>
            (obtain rfl := Option.some.inj hcode; rfl)
      unfold renderLine
      rw [hcode, ← hline]

/-- All lines but the last end with their newline. -/
theorem getLast?_of_splitInclusive {text : List Char} {before after : List (List Char)}
    {line : List Char} (h : splitInclusive text = before ++ line :: after) :
    ∀ l ∈ before, l.getLast? = some '\n' := by
  have hinit : ∀ l ∈ (splitInclusive text).dropLast, l.getLast? = some '\n' := by
    intro l hl
    have hended : l ∈ (ended '\n' text).map (· ++ ['\n']) := by
      unfold splitInclusive at hl
      split at hl
      · rw [List.append_nil] at hl
        exact List.dropLast_subset _ hl
      · rwa [List.dropLast_concat] at hl
    obtain ⟨body, -, rfl⟩ := List.mem_map.mp hended
    exact List.getLast?_concat
  intro l hl
  refine hinit l ?_
  rw [h, List.dropLast_append_of_ne_nil (List.cons_ne_nil line after)]
  exact List.mem_append_left _ hl

/-- The lines above end with a break. -/
theorem getLast?_rendered (comments : Comments) {lines : List (List Char)}
    (h : ∀ l ∈ lines, l.getLast? = some '\n') :
    ∀ c, (lines.flatMap (renderLine comments)).getLast? = some c → isBreak c = true := by
  induction lines with
  | nil => exact fun c hc => nomatch hc
  | cons line lines ih =>
      intro c hc
      rw [List.flatMap_cons, List.getLast?_append] at hc
      cases hlast : (lines.flatMap (renderLine comments)).getLast? with
      | some d =>
          rw [hlast] at hc
          obtain rfl := Option.some.inj hc
          exact ih (fun l hl => h l (List.mem_cons_of_mem line hl)) d hlast
      | none =>
          obtain ⟨comment, heq, hcomment⟩ := renderLine_eq comments line
          rw [hlast, heq, List.getLast?_append, h line List.mem_cons_self] at hc
          cases hend : comment.getLast? with
          | none =>
              rw [hend] at hc
              obtain rfl := Option.some.inj hc
              rfl
          | some d =>
              rw [hend] at hc
              obtain rfl := Option.some.inj hc
              rw [hcomment d hend]
              rfl

/-! ## §5. The keys. -/

theorem codeOf_marker {line : List Char} {marker : Option Char} {rest : List Char}
    (h : codeOf line = some (marker, rest)) : ∀ c ∈ marker.toList, isMarker c = true := by
  unfold codeOf at h
  split at h
  · cases h
  · split at h <;> (obtain ⟨rfl, -⟩ := Prod.mk.inj (Option.some.inj h); simp [isMarker])

theorem isBreak_of_isMarker {c : Char} (h : isMarker c = true) : isBreak c = false := by
  simp only [isMarker, Bool.or_eq_true, decide_eq_true_eq] at h
  rcases h with (h | h) | h <;> (subst h; decide)

/-- A code line of a diff, in which nothing but its end ends a line of the buffer. -/
structure ContentLine where
  marker : Option Char
  code   : List Char
  ending : List Char
  inner  : ∀ c ∈ code, isBreak c = false
  ends   : ending = ['\n'] ∨ ending = ['\r', '\n']
  isCode : codeOf (marker.toList ++ (code ++ ending)) = some (marker, code ++ ending)

namespace ContentLine

variable (l : ContentLine)

def content : List Char := l.code ++ l.ending

/-- What can be seen of it. -/
def visible : List Char := l.marker.toList ++ l.code

def text : List Char := l.visible ++ l.ending

theorem inner_visible : ∀ c ∈ l.visible, isBreak c = false := by
  intro c hc
  rcases List.mem_append.mp hc with hc | hc
  · exact isBreak_of_isMarker (codeOf_marker l.isCode c hc)
  · exact l.inner c hc

theorem isBreak_ending (rest : List Char) :
    ∀ c, (l.ending ++ rest).head? = some c → isBreak c = true := by
  intro c hc
  rcases l.ends with he | he <;> (rw [he] at hc; obtain rfl := Option.some.inj hc; rfl)

theorem isWhitespace_ending : ∀ c ∈ l.ending, Str.isWhitespace c = true := by
  intro c hc
  rcases l.ends with he | he <;> (rw [he] at hc; revert c; exact List.all_eq_true.mp (by decide))

theorem unmarked_code (h : Unmarked l.content) : Unmarked l.code := by
  intro c hc
  refine h c ?_
  have hne : l.code.dropWhile (· = ' ') ≠ [] := by
    intro hnil
    rw [hnil] at hc
    cases hc
  unfold content
  rw [List.dropWhile_append, if_neg (by simpa using hne), List.head?_append_of_ne_nil _ hne]
  exact hc

end ContentLine

/-- **The line under a click** on a code line is that line. -/
theorem lineAt_render (comments : Comments) {text : List Char} {before after : List (List Char)}
    {l : ContentLine} (h : splitInclusive text = before ++ l.text :: after) {i : Nat}
    (hi : i ≤ l.visible.length) :
    lineAt (renderDiff comments text) ((before.flatMap (renderLine comments)).length + i)
      = l.visible := by
  obtain ⟨comment, hline, -⟩ := renderLine_eq comments l.text
  have hbuffer : renderDiff comments text = before.flatMap (renderLine comments) ++
      (l.visible ++ (l.ending ++ (comment ++ after.flatMap (renderLine comments)))) := by
    unfold renderDiff
    rw [h, List.flatMap_append, List.flatMap_cons, hline]
    simp only [ContentLine.text, List.append_assoc]
  rw [hbuffer]
  exact lineAt_between (getLast?_rendered comments (getLast?_of_splitInclusive h)) l.inner_visible
    (l.isBreak_ending _) hi

/-- **Comments attach to contents**: a click anywhere on a code line whose content does not
begin with a marker of its own gives the key that the line is rendered with, and lines have the
same key exactly if their contents agree apart from white space around them. -/
theorem comment_keys (comments : Comments) {text : List Char} {before after : List (List Char)}
    {l : ContentLine} (h : splitInclusive text = before ++ l.text :: after)
    (hu : Unmarked l.content) {i : Nat} (hi : i ≤ l.visible.length) :
    clickKey (renderDiff comments text) ((before.flatMap (renderLine comments)).length + i)
        = keyOf l.content ∧
      ∀ l' : ContentLine, keyOf l.content = keyOf l'.content ↔ AgreeInside l.content l'.content := by
  refine ⟨?_, fun l' => keyOf_eq_iff _ _⟩
  have hmarker : l.visible.dropWhile isMarker = l.code.dropWhile isMarker :=
    List.dropWhile_append_of_pos (codeOf_marker l.isCode)
  have hcode : keyOf l.code = keyOf l.content := by
    unfold keyOf ContentLine.content
    rw [trim_append_right _ l.isWhitespace_ending]
  unfold clickKey
  rw [lineAt_render comments h hi, hmarker, keyOf_dropWhile (l.unmarked_code hu), hcode]

def addedFoo : ContentLine where
  marker := some '+'
  code   := "  foo".toList
  ending := ['\n']
  inner  := by simp [isBreak]
  ends   := .inl rfl
  isCode := by decide

theorem comment_keys_added :
    clickKey (renderDiff ∅ "@@ -1 +1 @@\n+  foo\n".toList) (12 + 3) = keyOf "  foo\n".toList :=
  (@comment_keys ∅ "@@ -1 +1 @@\n+  foo\n".toList ["@@ -1 +1 @@\n".toList] [] addedFoo
    (by decide) (by simp [Unmarked, ContentLine.content, addedFoo]) 3 (by decide)).1

/-- The same content on both sides has one key. -/
theorem sides_share_key :
    splitInclusive "+foo\n-foo\n".toList = ["+foo\n".toList, "-foo\n".toList] ∧
      codeOf "+foo\n".toList = some (some '+', "foo\n".toList) ∧
      codeOf "-foo\n".toList = some (some '-', "foo\n".toList) ∧
      clickKey (renderDiff ∅ "+foo\n-foo\n".toList) 1 = some "foo".toList ∧
      clickKey (renderDiff ∅ "+foo\n-foo\n".toList) 6 = some "foo".toList := by
  decide

/-- A comment is shown below the lines that have its key, and no other line's comment changes. -/
theorem inlineComment_commit (comments : Comments) (key text code : List Char) :
    insertInlineComment (commit comments key text) code =
      if keyOf code = some key then
        if trim text = [] then [] else "    💬 ".toList ++ trim text ++ ['\n']
      else insertInlineComment comments code := by
  unfold insertInlineComment commit
  cases hcode : keyOf code with
  | none => simp
  | some key' =>
      by_cases hkey : key' = key
      · subst hkey
        by_cases hnil : trim text = []
        · simp [hnil]
        · simp [hnil]
      · by_cases hnil : trim text = []
        · simp [hnil, hkey, AList.lookup_erase_ne hkey]
        · simp [hnil, hkey, AList.lookup_insert_ne hkey]

end Jmux.Ui
