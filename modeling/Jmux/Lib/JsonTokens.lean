/-
  Jmux.Lib.JsonTokens — JSON texts, token by token.

  A text is cut into tokens first, which the blanks between them do not change.
  The tokens are read with a stack of the arrays and objects that are open.  What a
  number or a text in quotes stands for is a parameter.

  Main results:
    * `lex_weave`      — tokens with any blanks between them are cut into these tokens.
    * `apart_of_read`  — what can be read has no two words side by side.
    * `parse_weave`    — so blanks between the tokens do not change what is read.
-/
import Jmux.Lib.JsonText
import Mathlib.Data.List.Chain

namespace Jmux.Lib.JsonTokens

open Jmux.Lib.JsonText (blank)

/-! ## §1. Tokens. -/

inductive Token
  /-- A bracket, a brace, a colon or a comma. -/
  | mark (c : Char)
  /-- A text in quotes, as it is written between them. -/
  | quoted (raw : List Char)
  /-- A number, `true`, `false` or `null`. -/
  | word (raw : List Char)
  deriving DecidableEq, Repr

def isMark (c : Char) : Bool :=
  c == '[' || c == ']' || c == '{' || c == '}' || c == ':' || c == ','

def isWordChar (c : Char) : Bool := c.isAlphanum || c == '+' || c == '-' || c == '.'

/-- What can stand between quotes: every backslash takes the character behind it along. -/
inductive Escaped : List Char → Prop
  | nil : Escaped []
  | char {c : Char} {raw : List Char} : c ≠ '"' → c ≠ '\\' → Escaped raw → Escaped (c :: raw)
  | pair (c : Char) {raw : List Char} : Escaped raw → Escaped ('\\' :: c :: raw)

namespace Token

def text : Token → List Char
  | mark c => [c]
  | quoted raw => '"' :: raw ++ ['"']
  | word raw => raw

/-- It is written as a token. -/
def Valid : Token → Prop
  | mark c => isMark c = true
  | quoted raw => Escaped raw
  | word raw => raw ≠ [] ∧ ∀ c ∈ raw, isWordChar c = true

def isWord : Token → Bool
  | word _ => true
  | _ => false

end Token

/-! ## §2. Cutting a text. -/

/-- Where the cutter is, with what it has of the token. -/
inductive Lexing
  | between
  | word (raw : List Char)
  | text (raw : List Char)
  | escape (raw : List Char)

/-- A character between two tokens. -/
def beginToken (c : Char) : Option (Lexing × List Token) :=
  if blank c then some (.between, [])
  else if isMark c then some (.between, [.mark c])
  else if c = '"' then some (.text [], [])
  else if isWordChar c then some (.word [c], [])
  else none

def lexStep : Lexing → Char → Option (Lexing × List Token)
  | .between, c => beginToken c
  | .word raw, c =>
      if isWordChar c then some (.word (raw ++ [c]), [])
      else (beginToken c).map fun r => (r.1, .word raw :: r.2)
  | .text raw, c =>
      if c = '"' then some (.between, [.quoted raw])
      else if c = '\\' then some (.escape raw, [])
      else some (.text (raw ++ [c]), [])
  | .escape raw, c => some (.text (raw ++ ['\\', c]), [])

def lexFrom : Lexing → List Char → Option (List Token)
  | .between, [] => some []
  | .word raw, [] => some [.word raw]
  | .text _, [] => none
  | .escape _, [] => none
  | s, c :: cs => (lexStep s c).bind fun r => (lexFrom r.1 cs).map (r.2 ++ ·)

/-- The tokens of a text. -/
def lex (text : List Char) : Option (List Token) := lexFrom .between text

theorem lexFrom_cons (s : Lexing) (c : Char) (cs : List Char) :
    lexFrom s (c :: cs) = (lexStep s c).bind fun r => (lexFrom r.1 cs).map (r.2 ++ ·) := by
  cases s <;> rfl

/-- A step that ends no token. -/
theorem lexFrom_quiet {s s' : Lexing} {c : Char} (h : lexStep s c = some (s', []))
    (cs : List Char) : lexFrom s (c :: cs) = lexFrom s' cs := by
  rw [lexFrom_cons, h, Option.bind_some]
  exact Option.map_id'

theorem lexFrom_blanks {gap : List Char} (h : ∀ c ∈ gap, blank c = true) (rest : List Char) :
    lexFrom .between (gap ++ rest) = lexFrom .between rest := by
  induction gap with
  | nil => rfl
  | cons c gap ih =>
      have hc : lexStep .between c = some (.between, []) := if_pos (h c List.mem_cons_self)
      rw [List.cons_append, lexFrom_quiet hc, ih fun d hd => h d (List.mem_cons_of_mem c hd)]

theorem blank_of_isMark {c : Char} (h : isMark c = true) : blank c = false := by
  simp only [isMark, Bool.or_eq_true, beq_iff_eq] at h
  rcases h with ((((h | h) | h) | h) | h) | h <;> (subst h; decide)

theorem lexFrom_mark {c : Char} (h : isMark c = true) (rest : List Char) :
    lexFrom .between (c :: rest) = (lexFrom .between rest).map (.mark c :: ·) := by
  have hc : lexStep .between c = some (.between, [.mark c]) := by
    show beginToken c = _
    unfold beginToken
    rw [if_neg (by rw [blank_of_isMark h]; exact Bool.false_ne_true), if_pos h]
  rw [lexFrom_cons, hc]
  rfl

/-- From inside the quotes to behind them. -/
theorem lexFrom_text {raw : List Char} (h : Escaped raw) (before rest : List Char) :
    lexFrom (.text before) (raw ++ '"' :: rest) =
      (lexFrom .between rest).map (.quoted (before ++ raw) :: ·) := by
  induction h generalizing before with
  | nil =>
      rw [List.append_nil]
      rfl
  | @char c raw hquote hback _ ih =>
      have hc : lexStep (.text before) c = some (.text (before ++ [c]), []) :=
        (if_neg hquote).trans (if_neg hback)
      rw [List.cons_append, lexFrom_quiet hc, ih, List.append_assoc]
      rfl
  | @pair c raw _ ih =>
      have hback : lexStep (.text before) '\\' = some (.escape before, []) := rfl
      have hpair : lexStep (.escape before) c = some (.text (before ++ ['\\', c]), []) := rfl
      rw [List.cons_append, List.cons_append, lexFrom_quiet hback, lexFrom_quiet hpair, ih,
        List.append_assoc]
      rfl

/-- A word ends where no other character of one follows. -/
theorem lexFrom_word {raw : List Char} (h : ∀ c ∈ raw, isWordChar c = true) (before : List Char)
    {rest : List Char} (hrest : ∀ c, rest.head? = some c → isWordChar c = false) :
    lexFrom (.word before) (raw ++ rest) =
      (lexFrom .between rest).map (.word (before ++ raw) :: ·) := by
  induction raw generalizing before with
  | nil =>
      rw [List.append_nil, List.nil_append]
      cases rest with
      | nil => rfl
      | cons c rest =>
          have hc : isWordChar c = false := hrest c rfl
          have hstep : lexStep (.word before) c =
              (beginToken c).map fun r => (r.1, .word before :: r.2) :=
            if_neg (by rw [hc]; exact Bool.false_ne_true)
          rw [lexFrom_cons, lexFrom_cons, hstep]
          show _ = ((beginToken c).bind _).map _
          cases beginToken c with
          | none => rfl
          | some r =>
              show (lexFrom r.1 rest).map ((.word before :: r.2) ++ ·) = _
              rw [Option.bind_some, Option.map_map]
              rfl
  | cons c raw ih =>
      have hc : lexStep (.word before) c = some (.word (before ++ [c]), []) :=
        if_pos (h c List.mem_cons_self)
      rw [List.cons_append, lexFrom_quiet hc, ih fun d hd => h d (List.mem_cons_of_mem c hd),
        List.append_assoc]
      rfl

/-! ## §3. Tokens with something between them. -/

/-- Tokens, each with what stands before it, and what stands at the end. -/
def weave : List (List Char × Token) → List Char → List Char
  | [], last => last
  | piece :: pieces, last => piece.1 ++ (piece.2.text ++ weave pieces last)

/-- No two words side by side. -/
def Apart (tokens : List Token) : Prop :=
  tokens.IsChain fun a b => ¬ (a.isWord = true ∧ b.isWord = true)

theorem not_isWordChar_of_blank {c : Char} (h : blank c = true) : isWordChar c = false := by
  simp only [blank, Bool.or_eq_true, beq_iff_eq] at h
  rcases h with ((h | h) | h) | h <;> (subst h; decide)

theorem not_isWordChar_of_isMark {c : Char} (h : isMark c = true) : isWordChar c = false := by
  simp only [isMark, Bool.or_eq_true, beq_iff_eq] at h
  rcases h with ((((h | h) | h) | h) | h) | h <;> (subst h; decide)

theorem lexFrom_newWord {raw rest : List Char} (hne : raw ≠ [])
    (hchars : ∀ c ∈ raw, isWordChar c = true)
    (hrest : ∀ c, rest.head? = some c → isWordChar c = false) :
    lexFrom .between (raw ++ rest) = (lexFrom .between rest).map (.word raw :: ·) := by
  cases raw with
  | nil => exact absurd rfl hne
  | cons c raw =>
      obtain ⟨hc, hchars⟩ := List.forall_mem_cons.mp hchars
      have hnot : ¬ blank c = true := fun h => by
        rw [not_isWordChar_of_blank h] at hc
        cases hc
      have hmark : ¬ isMark c = true := fun h => by
        rw [not_isWordChar_of_isMark h] at hc
        cases hc
      have hquote : c ≠ '"' := fun h => by
        rw [h] at hc
        exact absurd hc (by decide)
      have hopen : lexStep .between c = some (.word [c], []) := by
        show beginToken c = _
        unfold beginToken
        rw [if_neg hnot, if_neg hmark, if_neg hquote, if_pos hc]
      rw [List.cons_append, lexFrom_quiet hopen]
      exact lexFrom_word hchars [c] hrest

/-- What begins with blanks or with a token that is no word does not go on with a word. -/
theorem head_weave {pieces : List (List Char × Token)} {last : List Char}
    (hgap : ∀ piece ∈ pieces, ∀ c ∈ piece.1, blank c = true) (hlast : ∀ c ∈ last, blank c = true)
    (hvalid : ∀ piece ∈ pieces, piece.2.Valid)
    (hfirst : ∀ piece, pieces.head? = some piece → piece.2.isWord = false) :
    ∀ c, (weave pieces last).head? = some c → isWordChar c = false := by
  intro c hc
  cases pieces with
  | nil => exact not_isWordChar_of_blank (hlast c (List.mem_of_head? hc))
  | cons piece pieces =>
      obtain ⟨gap, token⟩ := piece
      cases gap with
      | cons b gap =>
          obtain rfl := Option.some.inj hc
          exact not_isWordChar_of_blank (hgap _ List.mem_cons_self _ List.mem_cons_self)
      | nil =>
          have hv := hvalid _ List.mem_cons_self
          have hword := hfirst _ rfl
          cases token with
          | mark d =>
              obtain rfl := Option.some.inj hc
              exact not_isWordChar_of_isMark hv
          | quoted raw =>
              obtain rfl := Option.some.inj hc
              decide
          | word raw => cases hword

/-- **Blanks do not matter**: tokens with blanks between them are cut into these tokens. -/
theorem lex_weave {pieces : List (List Char × Token)} {last : List Char}
    (hgap : ∀ piece ∈ pieces, ∀ c ∈ piece.1, blank c = true) (hlast : ∀ c ∈ last, blank c = true)
    (hvalid : ∀ piece ∈ pieces, piece.2.Valid) (hapart : Apart (pieces.map (·.2))) :
    lex (weave pieces last) = some (pieces.map (·.2)) := by
  induction pieces with
  | nil =>
      have h := lexFrom_blanks hlast []
      rwa [List.append_nil] at h
  | cons piece pieces ih =>
      have hgap' := List.forall_mem_cons.mp hgap
      have hvalid' := List.forall_mem_cons.mp hvalid
      obtain ⟨hnext, hapart'⟩ := List.isChain_cons.mp hapart
      have hrest := ih hgap'.2 hvalid'.2 hapart'
      show lexFrom .between (piece.1 ++ (piece.2.text ++ weave pieces last)) = _
      rw [lexFrom_blanks hgap'.1]
      have hone : lexFrom .between (piece.2.text ++ weave pieces last) =
          (lexFrom .between (weave pieces last)).map (piece.2 :: ·) := by
        cases htoken : piece.2 with
        | mark c =>
            rw [htoken] at hvalid'
            exact lexFrom_mark hvalid'.1 _
        | quoted raw =>
            rw [htoken] at hvalid'
            have hopen : lexStep .between '"' = some (.text [], []) := rfl
            show lexFrom .between (('"' :: raw ++ ['"']) ++ weave pieces last) = _
            rw [List.append_assoc, List.cons_append, lexFrom_quiet hopen]
            exact lexFrom_text hvalid'.1 [] _
        | word raw =>
            rw [htoken] at hvalid'
            obtain ⟨⟨hne, hchars⟩, -⟩ := hvalid'
            have hhead : ∀ c, (weave pieces last).head? = some c → isWordChar c = false := by
              refine head_weave hgap'.2 hlast (List.forall_mem_cons.mp hvalid).2 ?_
              intro next hnext'
              have h : ¬ (piece.2.isWord = true ∧ next.2.isWord = true) :=
                hnext next.2 (by rw [List.head?_map, hnext']; rfl)
              rw [htoken] at h
              simpa [Token.isWord] using h
            exact lexFrom_newWord hne hchars hhead
      rw [hone]
      show (lex (weave pieces last)).map _ = _
      rw [hrest]
      rfl

/-- Blanks and valid tokens. -/
structure Woven (text : List Char) (tokens : List Token) (pieces : List (List Char × Token))
    (last : List Char) : Prop where
  gaps   : ∀ piece ∈ pieces, ∀ c ∈ piece.1, blank c = true
  ends   : ∀ c ∈ last, blank c = true
  valid  : ∀ piece ∈ pieces, piece.2.Valid
  text   : text = weave pieces last
  tokens : tokens = pieces.map (·.2)

namespace Woven

variable {text : List Char} {tokens : List Token} {pieces : List (List Char × Token)}
  {last : List Char}

theorem token (h : Woven text tokens pieces last) {t : Token} (ht : t.Valid) :
    Woven (t.text ++ text) (t :: tokens) (([], t) :: pieces) last where
  gaps   := List.forall_mem_cons.mpr ⟨(fun _ hc => nomatch hc), h.gaps⟩
  ends   := h.ends
  valid  := List.forall_mem_cons.mpr ⟨ht, h.valid⟩
  text   := by rw [h.text]; rfl
  tokens := by rw [h.tokens]; rfl

theorem blank (h : Woven text tokens pieces last) {c : Char} (hc : JsonText.blank c = true) :
    ∃ pieces last, Woven (c :: text) tokens pieces last := by
  cases pieces with
  | nil => exact ⟨[], c :: last, h.gaps, List.forall_mem_cons.mpr ⟨hc, h.ends⟩, h.valid,
      by rw [h.text]; rfl, h.tokens⟩
  | cons piece pieces =>
      obtain ⟨hgap, hgaps⟩ := List.forall_mem_cons.mp h.gaps
      refine ⟨(c :: piece.1, piece.2) :: pieces, last, ?_, h.ends, ?_, ?_, h.tokens⟩
      · exact List.forall_mem_cons.mpr ⟨List.forall_mem_cons.mpr ⟨hc, hgap⟩, hgaps⟩
      · exact List.forall_mem_cons.mpr (List.forall_mem_cons.mp h.valid)
      · rw [h.text]
        rfl

end Woven

theorem Escaped.append {raw more : List Char} (h : Escaped raw) (hmore : Escaped more) :
    Escaped (raw ++ more) := by
  induction h with
  | nil => exact hmore
  | char hquote hback _ ih => exact .char hquote hback ih
  | pair c _ ih => exact .pair c ih

/-- What has been read of the token. -/
def Lexing.pending : Lexing → List Char
  | .between => []
  | .word raw => raw
  | .text raw => '"' :: raw
  | .escape raw => '"' :: raw ++ ['\\']

def Lexing.Sound : Lexing → Prop
  | .between => True
  | .word raw => (Token.word raw).Valid
  | .text raw => Escaped raw
  | .escape raw => Escaped raw

/-- What a step from between two tokens comes to. -/
theorem woven_beginToken {r : Lexing × List Token} {c : Char} (h : beginToken c = some r)
    {cs : List Char} {tokens : List Token}
    (hrest : r.1.Sound → ∃ pieces last, Woven (r.1.pending ++ cs) tokens pieces last) :
    ∃ pieces last, Woven (c :: cs) (r.2 ++ tokens) pieces last := by
  unfold beginToken at h
  split at h
  · next hblank =>
      obtain rfl := Option.some.inj h
      obtain ⟨pieces, last, hw⟩ := hrest trivial
      exact hw.blank hblank
  split at h
  · next hmark =>
      obtain rfl := Option.some.inj h
      obtain ⟨pieces, last, hw⟩ := hrest trivial
      exact ⟨_, _, hw.token (t := .mark c) hmark⟩
  split at h
  · next hquote =>
      obtain rfl := Option.some.inj h
      subst hquote
      exact hrest .nil
  split at h
  · next hword =>
      obtain rfl := Option.some.inj h
      exact hrest ⟨List.cons_ne_nil _ _, fun d hd => List.mem_singleton.mp hd ▸ hword⟩
  · cases h

theorem woven_of_lexFrom {s : Lexing} {cs : List Char} {tokens : List Token} (hs : s.Sound)
    (h : lexFrom s cs = some tokens) :
    ∃ pieces last, Woven (s.pending ++ cs) tokens pieces last := by
  have hnil : Woven [] [] [] [] := ⟨(fun _ hp => nomatch hp), (fun _ hc => nomatch hc),
    (fun _ hp => nomatch hp), rfl, rfl⟩
  induction cs generalizing s tokens with
  | nil =>
      cases s with
      | between =>
          obtain rfl := Option.some.inj h
          exact ⟨[], [], hnil⟩
      | word raw =>
          obtain rfl := Option.some.inj h
          exact ⟨_, _, hnil.token (t := .word raw) hs⟩
      | text raw => cases h
      | escape raw => cases h
  | cons c cs ih =>
      rw [lexFrom_cons] at h
      obtain ⟨r, hstep, hrest⟩ := Option.bind_eq_some_iff.mp h
      obtain ⟨tokens', htokens, rfl⟩ := Option.map_eq_some_iff.mp hrest
      cases s with
      | between => exact woven_beginToken hstep fun hr => ih hr htokens
      | word raw =>
          by_cases hc : isWordChar c = true
          · obtain rfl : _ = r := Option.some.inj ((if_pos hc).symm.trans hstep)
            have hmore := ih (s := .word (raw ++ [c])) ⟨by simp, fun d hd => by
              rcases List.mem_append.mp hd with hd | hd
              · exact hs.2 d hd
              · exact List.mem_singleton.mp hd ▸ hc⟩ htokens
            rwa [show Lexing.pending (.word (raw ++ [c])) ++ cs = raw ++ c :: cs by
              simp [Lexing.pending]] at hmore
          · obtain ⟨r', hr', rfl⟩ :=
              Option.map_eq_some_iff.mp ((if_neg hc).symm.trans hstep)
            obtain ⟨pieces, last, hw⟩ := woven_beginToken hr' fun hr => ih hr htokens
            exact ⟨_, _, hw.token (t := .word raw) hs⟩
      | text raw =>
          by_cases hquote : c = '"'
          · obtain rfl : _ = r := Option.some.inj ((if_pos hquote).symm.trans hstep)
            subst hquote
            obtain ⟨pieces, last, hw⟩ := ih (s := .between) trivial htokens
            have htoken := hw.token (t := .quoted raw) hs
            rw [show Token.text (.quoted raw) ++ (Lexing.pending .between ++ cs) =
              Lexing.pending (.text raw) ++ '"' :: cs by simp [Token.text, Lexing.pending]] at htoken
            exact ⟨_, _, htoken⟩
          by_cases hback : c = '\\'
          · obtain rfl : _ = r :=
              Option.some.inj (((if_neg hquote).trans (if_pos hback)).symm.trans hstep)
            subst hback
            have hmore := ih (s := .escape raw) hs htokens
            rwa [show Lexing.pending (.escape raw) ++ cs = Lexing.pending (.text raw) ++ '\\' :: cs by
              simp [Lexing.pending]] at hmore
          · obtain rfl : _ = r :=
              Option.some.inj (((if_neg hquote).trans (if_neg hback)).symm.trans hstep)
            have hmore := ih (s := .text (raw ++ [c]))
              (Escaped.append hs (.char hquote hback .nil)) htokens
            rwa [show Lexing.pending (.text (raw ++ [c])) ++ cs =
              Lexing.pending (.text raw) ++ c :: cs by simp [Lexing.pending]] at hmore
      | escape raw =>
          obtain rfl : _ = r := Option.some.inj hstep
          have hmore := ih (s := .text (raw ++ ['\\', c])) (Escaped.append hs (.pair c .nil)) htokens
          rwa [show Lexing.pending (.text (raw ++ ['\\', c])) ++ cs =
            Lexing.pending (.escape raw) ++ c :: cs by simp [Lexing.pending]] at hmore

/-- A text that can be cut into tokens is these tokens with blanks between them. -/
theorem woven_of_lex {text : List Char} {tokens : List Token} (h : lex text = some tokens) :
    ∃ pieces last, Woven text tokens pieces last :=
  woven_of_lexFrom (s := .between) trivial h

/-! ## §4. Reading. -/

/-- What numbers and texts in quotes stand for; `none` if they are not well-formed. -/
structure Literals (F : Type) where
  number : List Char → Option (Value F)
  text   : List Char → Option String

/-- What is open, and what of it has been read. -/
inductive Frame (F : Type)
  | array (items : List (Value F))
  /-- A member's value is to come. -/
  | object (fields : List (String × Value F)) (key : String)

inductive Mode (F : Type)
  | value
  /-- After `[`. -/
  | firstItem
  /-- After the opening brace. -/
  | firstKey
  | nextKey (fields : List (String × Value F))
  | colon (fields : List (String × Value F)) (key : String)
  | done (v : Value F)

structure Reading (F : Type) where
  mode  : Mode F
  stack : List (Frame F)

variable {F : Type} (lits : Literals F) (limit : Nat)

/-- The value of a word. -/
def wordValue (raw : List Char) : Option (Value F) :=
  if raw = "null".toList then some .null
  else if raw = "true".toList then some (.bool true)
  else if raw = "false".toList then some (.bool false)
  else lits.number raw

/-- The first token of a value; at most `limit` brackets may be open. -/
def beginValue (stack : List (Frame F)) : Token → Option (Reading F)
  | .word raw => (wordValue lits raw).map fun v => ⟨.done v, stack⟩
  | .quoted raw => (lits.text raw).map fun s => ⟨.done (.str s), stack⟩
  | .mark c =>
      if limit ≤ stack.length then none
      else if c = '[' then some ⟨.firstItem, .array [] :: stack⟩
      else if c = '{' then some ⟨.firstKey, stack⟩
      else none

/-- What may follow a value. -/
def afterValue (v : Value F) : List (Frame F) → Token → Option (Reading F)
  | .array items :: stack, .mark c =>
      if c = ',' then some ⟨.value, .array (items ++ [v]) :: stack⟩
      else if c = ']' then some ⟨.done (.arr (items ++ [v])), stack⟩
      else none
  | .object fields key :: stack, .mark c =>
      if c = ',' then some ⟨.nextKey (fields ++ [(key, v)]), stack⟩
      else if c = '}' then some ⟨.done (.obj (fields ++ [(key, v)])), stack⟩
      else none
  | _, _ => none

def readStep (r : Reading F) (t : Token) : Option (Reading F) :=
  match r.mode with
  | .value => beginValue lits limit r.stack t
  | .firstItem =>
      if t = .mark ']' then some ⟨.done (.arr []), r.stack.tail⟩
      else beginValue lits limit r.stack t
  | .firstKey =>
      match t with
      | .quoted raw => (lits.text raw).map fun key => ⟨.colon [] key, r.stack⟩
      | .mark c => if c = '}' then some ⟨.done (.obj []), r.stack⟩ else none
      | .word _ => none
  | .nextKey fields =>
      match t with
      | .quoted raw => (lits.text raw).map fun key => ⟨.colon fields key, r.stack⟩
      | _ => none
  | .colon fields key =>
      if t = .mark ':' then some ⟨.value, .object fields key :: r.stack⟩ else none
  | .done v => afterValue v r.stack t

/-- The value that the tokens are; nothing may be left open. -/
def read (tokens : List Token) : Option (Value F) :=
  (exec (readStep lits limit) ⟨.value, []⟩ tokens).bind fun r =>
    match r with
    | ⟨.done v, []⟩ => some v
    | _ => none

def parse (text : List Char) : Option (Value F) := (lex text).bind (read lits limit)

/-- A word comes where a value is to come, and is one. -/
theorem readStep_word {r r' : Reading F} {raw : List Char}
    (h : readStep lits limit r (.word raw) = some r') : ∃ v, r'.mode = .done v := by
  have hbegin : ∀ {stack : List (Frame F)}, beginValue lits limit stack (.word raw) = some r' →
      ∃ v, r'.mode = .done v := by
    intro stack hb
    obtain ⟨v, -, rfl⟩ := Option.map_eq_some_iff.mp hb
    exact ⟨v, rfl⟩
  obtain ⟨mode, stack⟩ := r
  cases mode with
  | value => exact hbegin h
  | firstItem => exact hbegin h
  | firstKey => cases h
  | nextKey fields => cases h
  | colon fields key => cases h
  | done v =>
      cases stack with
      | nil => cases h
      | cons frame stack => cases frame <;> cases h

/-- After a value no word is read. -/
theorem readStep_done {r : Reading F} {v : Value F} (h : r.mode = .done v) (raw : List Char) :
    readStep lits limit r (.word raw) = none := by
  obtain ⟨mode, stack⟩ := r
  obtain rfl : mode = .done v := h
  cases stack with
  | nil => rfl
  | cons frame stack => cases frame <;> rfl

theorem apart_of_exec {tokens : List Token} {r r' : Reading F}
    (h : exec (readStep lits limit) r tokens = some r') : Apart tokens := by
  induction tokens generalizing r with
  | nil => exact List.isChain_nil
  | cons t tokens ih =>
      obtain ⟨m, hm, hrest⟩ := exec_cons.mp h
      refine List.isChain_cons.mpr ⟨?_, ih hrest⟩
      rintro next hnext ⟨ht, hn⟩
      cases t with
      | mark c => cases ht
      | quoted raw => cases ht
      | word raw =>
          cases tokens with
          | nil => cases hnext
          | cons first tokens =>
              obtain rfl := Option.some.inj hnext
              obtain ⟨k, hk, -⟩ := exec_cons.mp hrest
              obtain ⟨v, hv⟩ := readStep_word lits limit hm
              cases first with
              | mark c => cases hn
              | quoted raw => cases hn
              | word raw =>
                  rw [readStep_done lits limit hv] at hk
                  cases hk

theorem apart_of_read {tokens : List Token} {v : Value F} (h : read lits limit tokens = some v) :
    Apart tokens := by
  obtain ⟨r, hr, -⟩ := Option.bind_eq_some_iff.mp h
  exact apart_of_exec lits limit hr

/-- **Blanks between tokens** do not change what is read. -/
theorem parse_weave {pieces : List (List Char × Token)} {last : List Char} {v : Value F}
    (hgap : ∀ piece ∈ pieces, ∀ c ∈ piece.1, blank c = true) (hlast : ∀ c ∈ last, blank c = true)
    (hvalid : ∀ piece ∈ pieces, piece.2.Valid)
    (hread : read lits limit (pieces.map (·.2)) = some v) :
    parse lits limit (weave pieces last) = some v := by
  unfold parse
  rw [lex_weave hgap hlast hvalid (apart_of_read lits limit hread)]
  exact hread

end Jmux.Lib.JsonTokens
