/-
  Jmux.Lib.Jsonc — JSON texts with comments.

  A text is cut into texts in quotes, comments and other characters; every text can
  be cut so.  Comments stand where blanks can stand: without them, or with a blank
  for each, the text has the same tokens.

  Main results:
    * `exists_lexed`     — every text is such segments.
    * `parse_kept`, `parse_spaced` — comments between the tokens do not change what is
                            read, when they go and when they become blanks.
    * `exists_document`  — every JSON text is a document without comments.
-/
import Jmux.Lib.JsonTokens

namespace Jmux.Lib.Jsonc

open JsonTokens
open JsonText (blank)

/-! ## §1. Segments. -/

inductive Segment
  | code (c : Char)
  /-- A text in quotes, as it is written between them. -/
  | quoted (raw : List Char)
  /-- From `//` to the end of the line. -/
  | line (body : List Char)
  | block (body : List Char)
  /-- Quotes that are not closed. -/
  | openText (raw : List Char)
  /-- A block comment that is not closed. -/
  | openBlock (body : List Char)

namespace Segment

def text : Segment → List Char
  | code c => [c]
  | quoted raw => '"' :: raw ++ ['"']
  | line body => '/' :: '/' :: body
  | block body => '/' :: '*' :: (body ++ ['*', '/'])
  | openText raw => '"' :: raw
  | openBlock body => '/' :: '*' :: body

/-- Without comments; their newlines stay. -/
def kept : Segment → List Char
  | line _ => []
  | block body => body.filter (· = '\n')
  | openBlock body => body.filter (· = '\n')
  | s => s.text

/-- A blank for each comment. -/
def spaced : Segment → List Char
  | line _ => [' ']
  | block _ => [' ']
  | openBlock _ => [' ']
  | s => s.text

end Segment

open Segment

def flat (segments : List Segment) : List Char := segments.flatMap text

/-- Nothing in it closes a block comment. -/
def NoClose (body : List Char) : Prop := ¬ ['*', '/'] <:+: body

/-- No quote in it closes the text. -/
def Unclosed (raw : List Char) : Prop :=
  ∃ before, Escaped before ∧ (raw = before ∨ raw = before ++ ['\\'])

/-- The segments are where they end, and characters of the code begin none. -/
def Lexed : List Segment → Prop
  | [] => True
  | code c :: rest =>
      c ≠ '"' ∧ (c = '/' → ∀ d, (flat rest).head? = some d → d ≠ '/' ∧ d ≠ '*') ∧ Lexed rest
  | quoted raw :: rest => Escaped raw ∧ Lexed rest
  | line body :: rest =>
      '\n' ∉ body ∧ (∀ s, rest.head? = some s → s = code '\n') ∧ Lexed rest
  | block body :: rest => NoClose body ∧ Lexed rest
  | openText raw :: rest => Unclosed raw ∧ rest = []
  | openBlock body :: rest => NoClose body ∧ rest = []

/-- A text after a quote is closed or not. -/
theorem quoted_or_unclosed (cs : List Char) :
    (∃ raw rest, cs = raw ++ '"' :: rest ∧ Escaped raw) ∨ Unclosed cs := by
  induction hn : cs.length using Nat.strongRecOn generalizing cs with
  | ind n ih =>
      cases cs with
      | nil => exact .inr ⟨[], .nil, .inl rfl⟩
      | cons c cs =>
          by_cases hquote : c = '"'
          · exact .inl ⟨[], cs, by rw [hquote]; rfl, .nil⟩
          by_cases hback : c = '\\'
          · subst hback
            cases cs with
            | nil => exact .inr ⟨[], .nil, .inr rfl⟩
            | cons d cs =>
                have hlt : cs.length < n := by simp only [List.length_cons] at hn; omega
                rcases ih cs.length hlt cs rfl with ⟨raw, rest, rfl, hraw⟩ | ⟨before, hb, heq⟩
                · exact .inl ⟨'\\' :: d :: raw, rest, rfl, .pair d hraw⟩
                · refine .inr ⟨'\\' :: d :: before, .pair d hb, ?_⟩
                  rcases heq with rfl | rfl
                  · exact .inl rfl
                  · exact .inr rfl
          · have hlt : cs.length < n := by simp only [List.length_cons] at hn; omega
            rcases ih cs.length hlt cs rfl with ⟨raw, rest, rfl, hraw⟩ | ⟨before, hb, heq⟩
            · exact .inl ⟨c :: raw, rest, rfl, .char hquote hback hraw⟩
            · refine .inr ⟨c :: before, .char hquote hback hb, ?_⟩
              rcases heq with rfl | rfl
              · exact .inl rfl
              · exact .inr rfl

theorem noClose_nil : NoClose [] := by
  intro h
  have hlen := h.length_le
  simp at hlen

/-- One more character in front closes nothing where none follows that would. -/
theorem NoClose.cons {c : Char} {body : List Char} (h : NoClose body)
    (hc : c = '*' → body.head? ≠ some '/') : NoClose (c :: body) := by
  intro hin
  rcases List.infix_cons_iff.mp hin with hpre | hin
  · obtain ⟨hstar, hslash⟩ := List.cons_prefix_cons.mp hpre
    obtain ⟨rest, hrest⟩ := hslash
    exact hc hstar.symm (by rw [← hrest]; rfl)
  · exact h hin

/-- A block comment is closed or not. -/
theorem closed_or_noClose (cs : List Char) :
    (∃ body rest, cs = body ++ '*' :: '/' :: rest ∧ NoClose body) ∨ NoClose cs := by
  induction cs with
  | nil => exact .inr noClose_nil
  | cons c cs ih =>
      by_cases hclose : c = '*' ∧ cs.head? = some '/'
      · obtain ⟨rest, hrest⟩ := List.head?_eq_some_iff.mp hclose.2
        exact .inl ⟨[], rest, by rw [hclose.1, hrest]; rfl, noClose_nil⟩
      · rcases ih with ⟨body, rest, rfl, hbody⟩ | hnone
        · refine .inl ⟨c :: body, rest, rfl, hbody.cons fun hstar hhead => hclose ⟨hstar, ?_⟩⟩
          cases body with
          | nil => cases hhead
          | cons d body => exact hhead
        · exact .inr (hnone.cons fun hstar hhead => hclose ⟨hstar, hhead⟩)

/-- The text is such segments. -/
def Cuttable (text : List Char) : Prop := ∃ segments, Lexed segments ∧ flat segments = text

theorem Cuttable.cons {segment : Segment} {rest : List Char} (h : Cuttable rest)
    (hl : ∀ segments, Lexed segments → flat segments = rest → Lexed (segment :: segments)) :
    Cuttable (segment.text ++ rest) := by
  obtain ⟨segments, hlexed, hflat⟩ := h
  exact ⟨segment :: segments, hl segments hlexed hflat, congrArg (segment.text ++ ·) hflat⟩

theorem cuttable_quote {cs : List Char} (ih : ∀ rest, rest.length ≤ cs.length → Cuttable rest) :
    Cuttable ('"' :: cs) := by
  rcases quoted_or_unclosed cs with ⟨raw, rest, rfl, hraw⟩ | hopen
  · have hlen : rest.length ≤ (raw ++ '"' :: rest).length := by
      simp only [List.length_append, List.length_cons]
      omega
    have hcons : Cuttable ((quoted raw).text ++ rest) :=
      (ih rest hlen).cons fun _ hlexed _ => ⟨hraw, hlexed⟩
    rwa [show (quoted raw).text ++ rest = '"' :: (raw ++ '"' :: rest) by simp [text]] at hcons
  · exact ⟨[openText cs], ⟨hopen, rfl⟩, List.append_nil _⟩

theorem cuttable_line {cs : List Char} (ih : ∀ rest, rest.length ≤ cs.length → Cuttable rest) :
    Cuttable ('/' :: '/' :: cs) := by
  by_cases hfeed : '\n' ∈ cs
  · obtain ⟨body, rest, rfl, hbody⟩ := List.eq_append_cons_of_mem hfeed
    have hlen : rest.length ≤ (body ++ '\n' :: rest).length := by
      simp only [List.length_append, List.length_cons]
      omega
    obtain ⟨segments, hlexed, hflat⟩ := ih rest hlen
    have hnewline : Lexed (code '\n' :: segments) :=
      ⟨by decide, fun h => absurd h (by decide), hlexed⟩
    refine ⟨line body :: code '\n' :: segments, ⟨hbody, ?_, hnewline⟩, ?_⟩
    · exact fun s hs => (Option.some.inj hs).symm
    · show '/' :: '/' :: (body ++ '\n' :: flat segments) = _
      rw [hflat]
  · exact ⟨[line cs], ⟨hfeed, (fun s hs => nomatch hs), trivial⟩, List.append_nil _⟩

theorem cuttable_block {cs : List Char} (ih : ∀ rest, rest.length ≤ cs.length → Cuttable rest) :
    Cuttable ('/' :: '*' :: cs) := by
  rcases closed_or_noClose cs with ⟨body, rest, rfl, hbody⟩ | hopen
  · have hlen : rest.length ≤ (body ++ '*' :: '/' :: rest).length := by
      simp only [List.length_append, List.length_cons]
      omega
    have hcons : Cuttable ((block body).text ++ rest) :=
      (ih rest hlen).cons fun _ hlexed _ => ⟨hbody, hlexed⟩
    rwa [show (block body).text ++ rest = '/' :: '*' :: (body ++ '*' :: '/' :: rest) by
      simp [text]] at hcons
  · exact ⟨[openBlock cs], ⟨hopen, rfl⟩, List.append_nil _⟩

/-- **Every text** is such segments. -/
theorem exists_lexed (text : List Char) : Cuttable text := by
  induction hn : text.length using Nat.strongRecOn generalizing text with
  | ind n ih =>
      cases text with
      | nil => exact ⟨[], trivial, rfl⟩
      | cons c cs =>
          have hrec : ∀ rest : List Char, rest.length ≤ cs.length → Cuttable rest := by
            intro rest hle
            refine ih rest.length ?_ rest rfl
            rw [← hn, List.length_cons]
            omega
          by_cases hquote : c = '"'
          · subst hquote
            exact cuttable_quote hrec
          by_cases hline : c = '/' ∧ cs.head? = some '/'
          · obtain ⟨rest, rfl⟩ := List.head?_eq_some_iff.mp hline.2
            rw [hline.1]
            exact cuttable_line fun after hle =>
              hrec after (Nat.le_trans hle (Nat.le_succ _))
          by_cases hblock : c = '/' ∧ cs.head? = some '*'
          · obtain ⟨rest, rfl⟩ := List.head?_eq_some_iff.mp hblock.2
            rw [hblock.1]
            exact cuttable_block fun after hle =>
              hrec after (Nat.le_trans hle (Nat.le_succ _))
          · have hcons : Cuttable ((code c).text ++ cs) := by
              refine (hrec cs (Nat.le_refl _)).cons fun segments hlexed hflat => ?_
              refine ⟨hquote, fun hc d hd => ?_, hlexed⟩
              rw [hflat] at hd
              exact ⟨fun h => hline ⟨hc, h ▸ hd⟩, fun h => hblock ⟨hc, h ▸ hd⟩⟩
            exact hcons

/-! ## §2. Documents. -/

/-- It can stand between two tokens: a blank or a comment. -/
def Segment.IsGap : Segment → Prop
  | code c => blank c = true
  | line _ | block _ | openBlock _ => True
  | quoted _ | openText _ => False

def segmentsOf : Token → List Segment
  | .mark c => [code c]
  | .quoted raw => [quoted raw]
  | .word raw => raw.map code

/-- Tokens, each with the segments before it, and the segments at the end. -/
def joined : List (List Segment × Token) → List Segment → List Segment
  | [], last => last
  | piece :: pieces, last => piece.1 ++ (segmentsOf piece.2 ++ joined pieces last)

/-- Tokens with blanks and comments between them. -/
structure Document where
  pieces : List (List Segment × Token)
  last   : List Segment
  gaps   : ∀ piece ∈ pieces, ∀ s ∈ piece.1, s.IsGap
  ends   : ∀ s ∈ last, s.IsGap
  valid  : ∀ piece ∈ pieces, piece.2.Valid
  lexed  : Lexed (joined pieces last)

namespace Document

variable (doc : Document)

def tokens : List Token := doc.pieces.map (·.2)

def segments : List Segment := joined doc.pieces doc.last

def text : List Char := flat doc.segments

/-- Every comment is replaced by a blank. -/
def spaced : List Char := doc.segments.flatMap Segment.spaced

/-- Only the newlines of its comments are left. -/
def kept : List Char := doc.segments.flatMap Segment.kept

end Document

theorem blank_kept {s : Segment} (h : s.IsGap) : ∀ c ∈ s.kept, blank c = true := by
  have hfilter : ∀ {body : List Char}, ∀ c ∈ body.filter (· = '\n'), blank c = true := by
    intro body c hc
    have hfeed : c = '\n' := by simpa using (List.mem_filter.mp hc).2
    rw [hfeed]
    rfl
  intro c hc
  cases s with
  | code d => exact List.mem_singleton.mp hc ▸ h
  | quoted raw => exact h.elim
  | line body => cases hc
  | block body => exact hfilter c hc
  | openText raw => exact h.elim
  | openBlock body => exact hfilter c hc

theorem blank_spaced {s : Segment} (h : s.IsGap) : ∀ c ∈ s.spaced, blank c = true := by
  intro c hc
  cases s with
  | code d => exact List.mem_singleton.mp hc ▸ h
  | quoted raw => exact h.elim
  | line body => exact List.mem_singleton.mp hc ▸ rfl
  | block body => exact List.mem_singleton.mp hc ▸ rfl
  | openText raw => exact h.elim
  | openBlock body => exact List.mem_singleton.mp hc ▸ rfl

/-- A way to write segments that leaves tokens as they are. -/
def Leaves (write : Segment → List Char) : Prop :=
  (∀ c, write (code c) = [c]) ∧ ∀ raw, write (quoted raw) = (quoted raw).text

theorem flatMap_segmentsOf {write : Segment → List Char} (h : Leaves write) (t : Token) :
    (segmentsOf t).flatMap write = t.text := by
  cases t with
  | mark c =>
      show write (code c) ++ [] = [c]
      rw [h.1]
      rfl
  | quoted raw =>
      show write (quoted raw) ++ [] = _
      rw [h.2, List.append_nil]
      rfl
  | word raw =>
      show (raw.map code).flatMap write = raw
      induction raw with
      | nil => rfl
      | cons c raw ih =>
          rw [List.map_cons, List.flatMap_cons, h.1, ih]
          rfl

theorem flatMap_joined {write : Segment → List Char} (h : Leaves write)
    (pieces : List (List Segment × Token)) (last : List Segment) :
    (joined pieces last).flatMap write =
      weave (pieces.map fun piece => (piece.1.flatMap write, piece.2)) (last.flatMap write) := by
  induction pieces with
  | nil => rfl
  | cons piece pieces ih =>
      show (piece.1 ++ (segmentsOf piece.2 ++ joined pieces last)).flatMap write = _
      rw [List.flatMap_append, List.flatMap_append, flatMap_segmentsOf h, ih]
      rfl

section Reading

variable {F : Type} (lits : Literals F) (limit : Nat) {doc : Document} {v : Value F}

/-- Written so, its comments are blanks. -/
theorem parse_written {write : Segment → List Char} (h : Leaves write)
    (hblank : ∀ {s : Segment}, s.IsGap → ∀ c ∈ write s, blank c = true)
    (hread : read lits limit doc.tokens = some v) :
    parse lits limit (doc.segments.flatMap write) = some v := by
  have hgap : ∀ {segments : List Segment}, (∀ s ∈ segments, s.IsGap) →
      ∀ c ∈ segments.flatMap write, blank c = true := by
    intro segments hs c hc
    obtain ⟨s, hmem, hc⟩ := List.mem_flatMap.mp hc
    exact hblank (hs s hmem) c hc
  unfold Document.segments
  rw [flatMap_joined h]
  refine parse_weave lits limit ?_ (hgap doc.ends) ?_ ?_
  · intro piece hpiece
    obtain ⟨before, hbefore, rfl⟩ := List.mem_map.mp hpiece
    exact hgap (doc.gaps before hbefore)
  · intro piece hpiece
    obtain ⟨before, hbefore, rfl⟩ := List.mem_map.mp hpiece
    exact doc.valid before hbefore
  · rw [List.map_map]
    exact hread

/-- **Without its comments** a document is read as its tokens. -/
theorem parse_kept (hread : read lits limit doc.tokens = some v) :
    parse lits limit doc.kept = some v :=
  parse_written lits limit ⟨fun _ => rfl, fun _ => rfl⟩ blank_kept hread

/-- **With a blank for each comment** too. -/
theorem parse_spaced (hread : read lits limit doc.tokens = some v) :
    parse lits limit doc.spaced = some v :=
  parse_written lits limit ⟨fun _ => rfl, fun _ => rfl⟩ blank_spaced hread

end Reading

/-! ## §3. Documents without comments. -/

/-- Characters that begin neither a text in quotes nor a comment. -/
theorem lexed_codes {cs : List Char} (h : ∀ c ∈ cs, c ≠ '"' ∧ c ≠ '/') {rest : List Segment}
    (hrest : Lexed rest) : Lexed (cs.map code ++ rest) := by
  induction cs with
  | nil => exact hrest
  | cons c cs ih =>
      obtain ⟨hc, hcs⟩ := List.forall_mem_cons.mp h
      exact ⟨hc.1, fun hslash => absurd hslash hc.2, ih hcs⟩

theorem plain_of_blank {c : Char} (h : blank c = true) : c ≠ '"' ∧ c ≠ '/' := by
  constructor <;> (rintro rfl; exact absurd h (by decide))

theorem lexed_segmentsOf {t : Token} (ht : t.Valid) {rest : List Segment} (hrest : Lexed rest) :
    Lexed (segmentsOf t ++ rest) := by
  cases t with
  | mark c =>
      have hmark : JsonTokens.isMark c = true := ht
      have hc : c ≠ '"' ∧ c ≠ '/' := by
        constructor <;> (rintro rfl; exact absurd hmark (by decide))
      exact ⟨hc.1, fun hslash => absurd hslash hc.2, hrest⟩
  | quoted raw => exact ⟨ht, hrest⟩
  | word raw =>
      refine lexed_codes (fun c hc => ?_) hrest
      have hword := ht.2 c hc
      constructor <;> (rintro rfl; exact absurd hword (by decide))

/-- Blanks are gaps. -/
theorem gap_of_blank {cs : List Char} (h : ∀ c ∈ cs, blank c = true) :
    ∀ s ∈ cs.map code, s.IsGap := by
  intro s hs
  obtain ⟨c, hc, rfl⟩ := List.mem_map.mp hs
  exact h c hc

/-- **A text of tokens** is a document without comments: comments can be put into any of its
gaps. -/
theorem exists_document {text : List Char} {tokens : List Token} (h : lex text = some tokens) :
    ∃ doc : Document, doc.text = text ∧ doc.tokens = tokens := by
  obtain ⟨pieces, last, hw⟩ := woven_of_lex h
  let pieces' := pieces.map fun piece => (piece.1.map code, piece.2)
  have hcodes : ∀ cs : List Char, (cs.map code).flatMap Segment.text = cs := by
    intro cs
    rw [List.flatMap_map]
    exact List.flatMap_singleton' cs
  have hlexed : Lexed (joined pieces' (last.map code)) := by
    have hlast : Lexed (last.map code ++ []) :=
      lexed_codes (fun c hc => plain_of_blank (hw.ends c hc)) trivial
    rw [List.append_nil] at hlast
    have hgaps := hw.gaps
    have hvalid := hw.valid
    show Lexed (joined (pieces.map _) (last.map code))
    clear hw h
    induction pieces with
    | nil => exact hlast
    | cons piece pieces ih =>
        obtain ⟨hgap, hgaps⟩ := List.forall_mem_cons.mp hgaps
        obtain ⟨htoken, hvalid⟩ := List.forall_mem_cons.mp hvalid
        exact lexed_codes (fun c hc => plain_of_blank (hgap c hc))
          (lexed_segmentsOf htoken (ih hgaps hvalid))
  refine ⟨⟨pieces', last.map code, ?_, gap_of_blank hw.ends, ?_, hlexed⟩, ?_, ?_⟩
  · intro piece hpiece
    obtain ⟨before, hbefore, rfl⟩ := List.mem_map.mp hpiece
    exact gap_of_blank (hw.gaps before hbefore)
  · intro piece hpiece
    obtain ⟨before, hbefore, rfl⟩ := List.mem_map.mp hpiece
    exact hw.valid before hbefore
  · show (joined pieces' (last.map code)).flatMap Segment.text = text
    rw [flatMap_joined ⟨fun _ => rfl, fun _ => rfl⟩, List.map_map, hcodes, hw.text]
    congr 1
    refine (List.map_congr_left fun piece _ => ?_).trans (List.map_id _)
    show ((piece.1.map code).flatMap Segment.text, piece.2) = piece
    rw [hcodes]
  · show (pieces.map _).map _ = tokens
    rw [List.map_map, hw.tokens]
    rfl

end Jmux.Lib.Jsonc
