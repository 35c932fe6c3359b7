/-
  Jmux.Session.WordMatch — whole words in a text.

  There are two loops for this, `is_word_match` in `model/claude_state.rs` and in
  `session/snapshot.rs`.  They look at the bytes around an occurrence; the first one goes
  on behind it, the second one a byte further.

  Main results:
    * `ClaudeState.isWordMatch_spec` — the first one decides over the occurrences that do
                                        not overlap, counted from the left.
    * `Snapshot.isWordMatch_spec`    — the second one over all.
    * `word_matches_agree_iff`       — where both find what there is.
    * `always_agree_iff`             — the words for which they do in every text.
-/
import Mathlib.Data.Bool.AllAny
import Jmux.Lib.CharIndex
import Jmux.Remote.LossyText
import Jmux.Session.Snapshot

namespace Jmux.Session

open Jmux.Lib Jmux.Lib.CharIndex Jmux.Lib.Occurrences
open Jmux.Remote (encode)

/-! ## §1. The two loops. -/

def isWordChar (c : Char) : Bool := Str.isAsciiAlphanumeric c || c == '_'

/-- `u8::is_ascii_alphanumeric`, or the byte of `_`. -/
def isWordByte (b : UInt8) : Bool := isWordChar (Char.ofNat b.toNat)

namespace ClaudeState

/-- No byte of a word stands before byte `abs`; an index that is out of place is a
panic, `none`. -/
def beforeOk (bytes : List UInt8) (abs : Nat) : Option Bool :=
  if abs = 0 then some true else bytes[abs - 1]?.map (!isWordByte ·)

def afterOk (bytes : List UInt8) (afterIdx : Nat) : Option Bool :=
  if bytes.length ≤ afterIdx then some true else bytes[afterIdx]?.map (!isWordByte ·)

/-- The loop from byte `start` on, which is a panic inside a character.  A turn takes a
byte at least. -/
def searchFrom (haystack word : List Char) : Nat → Nat → Option Bool
  | 0, _ => none
  | fuel + 1, start =>
      (CharIndex.sliceFrom start haystack).bind fun rest =>
        match find word rest with
        | none => some false
        | some pos => do
            let abs := start + pos
            let before ← beforeOk (encode haystack) abs
            let after ← afterOk (encode haystack) (abs + byteLen word)
            if before && after then some true
            else searchFrom haystack word fuel (abs + byteLen word)

def isWordMatch (haystack word : List Char) : Option Bool :=
  searchFrom haystack word (byteLen haystack + 1) 0

end ClaudeState

namespace Snapshot

def beforeOk (bytes : List UInt8) (abs : Nat) : Bool :=
  abs == 0 || !(bytes[abs - 1]?.map isWordByte).getD false

def afterOk (bytes : List UInt8) (afterIdx : Nat) : Bool :=
  decide (bytes.length ≤ afterIdx) || !(bytes[afterIdx]?.map isWordByte).getD false

/-- The loop from byte `start` on, as above. -/
def searchFrom (haystack word : List Char) : Nat → Nat → Option Bool
  | 0, _ => none
  | fuel + 1, start =>
      (CharIndex.sliceFrom start haystack).bind fun rest =>
        match find word rest with
        | none => some false
        | some pos =>
            let bytes := encode haystack
            let abs := start + pos
            if beforeOk bytes abs && afterOk bytes (abs + byteLen word) then some true
            else
              let start := abs + 1
              if bytes.length ≤ start then some false
              else searchFrom haystack word fuel start

def isWordMatch (haystack word : List Char) : Option Bool :=
  searchFrom haystack word (byteLen haystack + 1) 0

end Snapshot

/-! ## §2. The bytes around an occurrence. -/

theorem length_encode (cs : List Char) : (encode cs).length = byteLen cs := by
  induction cs with
  | nil => rfl
  | cons c cs ih =>
      show (String.utf8EncodeChar c ++ encode cs).length = c.utf8Size + byteLen cs
      rw [List.length_append, String.length_utf8EncodeChar, ih]

theorem isWordByte_small :
    ∀ n < 128, isWordByte (UInt8.ofNat n) = isWordChar (Char.ofNat n) := by
  decide

theorem isWordChar_of_large {c : Char} (h : 128 ≤ c.toNat) : isWordChar c = false := by
  rw [← Bool.not_eq_true]
  intro hword
  unfold isWordChar at hword
  rcases Bool.or_eq_true_iff.mp hword with halpha | hunderscore
  · have hsmall := Str.toNat_of_isAsciiAlphanumeric halpha
    omega
  · rw [beq_iff_eq.mp hunderscore] at h
    exact absurd h (by decide)

theorem isWordByte_large {b : UInt8} (h : 0x80 ≤ b) : isWordByte b = false := by
  have hlt := b.toNat_lt
  have hlow : 128 ≤ b.toNat := h
  have hvalue : (Char.ofNat b.toNat).toNat = b.toNat := Str.toNat_ofNat (by omega)
  exact isWordChar_of_large (hlow.trans_eq hvalue.symm)

/-- The first and the last byte of a character say whether it belongs to a word. -/
theorem ends_encodeChar (c : Char) :
    ∃ first last, (String.utf8EncodeChar c).head? = some first ∧
      (String.utf8EncodeChar c).getLast? = some last ∧
      isWordByte first = isWordChar c ∧ isWordByte last = isWordChar c := by
  by_cases hascii : c.toNat ≤ 0x7f
  · have hbyte := isWordByte_small c.toNat (by omega)
    rw [Char.ofNat_toNat] at hbyte
    rw [Remote.encodeChar_ascii hascii]
    exact ⟨_, _, rfl, rfl, hbyte, hbyte⟩
  · obtain ⟨first, second, more, h⟩ := (Remote.ascii_or_multibyte c).resolve_left hascii
    have hno : isWordChar c = false := isWordChar_of_large (by omega)
    have hne := List.cons_ne_nil second more
    rw [h.bytes, hno]
    refine ⟨first, (second :: more).getLast hne, rfl, ?_, ?_, ?_⟩
    · rw [List.getLast?_cons_cons, List.getLast?_eq_some_getLast]
    · exact isWordByte_large (UInt8.not_lt.mp h.notAscii)
    · have hlast := h.tail _ (List.getLast_mem hne)
      simp only [Remote.isContinuationByte, Bool.and_eq_true, decide_eq_true_eq] at hlast
      exact isWordByte_large hlast.1

/-- The byte at the index behind `before` is the first one of the next character. -/
theorem byte_behind (before behind : List Char) :
    (encode (before ++ behind))[byteLen before]?.map isWordByte = behind.head?.map isWordChar := by
  rw [Remote.encode_append, ← length_encode, List.getElem?_append_right le_rfl, Nat.sub_self]
  cases behind with
  | nil => rfl
  | cons c behind =>
      obtain ⟨first, -, hfirst, -, hword, -⟩ := ends_encodeChar c
      have hhead : (encode (c :: behind))[0]? = some first := by
        show (String.utf8EncodeChar c ++ encode behind)[0]? = some first
        rw [← List.head?_eq_getElem?, List.head?_append, hfirst]
        rfl
      rw [hhead]
      exact congrArg some hword

/-- The byte before it is the last one of the character before. -/
theorem byte_before {before : List Char} (hne : before ≠ []) (behind : List Char) :
    (encode (before ++ behind))[byteLen before - 1]?.map isWordByte
      = before.getLast?.map isWordChar := by
  have hbytes : encode before ≠ [] := by
    intro hnil
    have hlen := congrArg List.length hnil
    rw [length_encode] at hlen
    exact hne (byteLen_eq_zero hlen)
  have hlt : byteLen before - 1 < (encode before).length := by
    have hpos := List.length_pos_iff.mpr hbytes
    rw [← length_encode]
    omega
  rw [Remote.encode_append, List.getElem?_append_left hlt, ← length_encode,
    ← List.getLast?_eq_getElem?]
  obtain ⟨front, c, rfl⟩ := (List.eq_nil_or_concat' before).resolve_left hne
  obtain ⟨-, last, -, hlast, -, hword⟩ := ends_encodeChar c
  have hone : (encode (front ++ [c])).getLast? = some last := by
    rw [Remote.encode_append]
    show (encode front ++ (String.utf8EncodeChar c ++ [])).getLast? = some last
    rw [List.append_nil, List.getLast?_append, hlast]
    rfl
  rw [hone, List.getLast?_concat]
  exact congrArg some hword

/-! ## §3. One turn. -/

/-- No character of a word stands next to the occurrence. -/
def apart (before after : List Char) : Bool :=
  isWordBoundary before.getLast? && isWordBoundary after.head?

theorem isWordBoundary_map (c : Option Char) :
    isWordBoundary c = !(c.map isWordChar).getD false := by
  cases c with
  | none => rfl
  | some c => rfl

theorem byteLen_pos {cs : List Char} (h : cs ≠ []) : byteLen cs ≠ 0 :=
  fun hzero => h (byteLen_eq_zero hzero)

theorem length_le_iff (before behind : List Char) :
    (encode (before ++ behind)).length ≤ byteLen before ↔ behind = [] := by
  rw [length_encode, byteLen_append]
  constructor
  · intro h
    exact byteLen_eq_zero (by omega)
  · intro h
    rw [h]
    exact le_rfl

theorem Snapshot.beforeOk_eq (before behind : List Char) :
    beforeOk (encode (before ++ behind)) (byteLen before) = isWordBoundary before.getLast? := by
  unfold beforeOk
  by_cases hne : before = []
  · rw [hne]
    rfl
  · rw [byte_before hne, beq_eq_false_iff_ne.mpr (byteLen_pos hne), Bool.false_or,
      isWordBoundary_map]

theorem Snapshot.afterOk_eq (before behind : List Char) :
    afterOk (encode (before ++ behind)) (byteLen before) = isWordBoundary behind.head? := by
  unfold afterOk
  rw [byte_behind, isWordBoundary_map]
  by_cases hnil : behind = []
  · rw [hnil]
    exact Bool.or_true _
  · rw [decide_eq_false (mt (length_le_iff before behind).mp hnil), Bool.false_or]

/-- A byte that is looked at is there: an index is in place where the other loop has
its default. -/
theorem ClaudeState.beforeOk_eq (before behind : List Char) :
    beforeOk (encode (before ++ behind)) (byteLen before)
      = some (isWordBoundary before.getLast?) := by
  unfold beforeOk
  by_cases hne : before = []
  · rw [hne]
    rfl
  · have hbyte := byte_before hne behind
    rw [List.getLast?_eq_some_getLast hne] at hbyte ⊢
    obtain ⟨b, hb, hword⟩ := Option.map_eq_some_iff.mp hbyte
    rw [if_neg (byteLen_pos hne), hb]
    show some (!isWordByte b) = some (!isWordChar (before.getLast hne))
    rw [hword]

theorem ClaudeState.afterOk_eq (before behind : List Char) :
    afterOk (encode (before ++ behind)) (byteLen before) = some (isWordBoundary behind.head?) := by
  unfold afterOk
  by_cases hnil : behind = []
  · rw [if_pos ((length_le_iff before behind).mpr hnil), hnil]
    rfl
  · have hbyte := byte_behind before behind
    rw [List.head?_eq_some_head hnil] at hbyte ⊢
    obtain ⟨b, hb, hword⟩ := Option.map_eq_some_iff.mp hbyte
    rw [if_neg (mt (length_le_iff before behind).mp hnil), hb]
    show some (!isWordByte b) = some (!isWordChar (behind.head hnil))
    rw [hword]

section Turn

variable {word front rest before after : List Char} {fuel : Nat}

theorem ClaudeState.searchFrom_none (h : ¬ word <:+: rest) :
    searchFrom (front ++ rest) word (fuel + 1) (byteLen front) = some false := by
  unfold searchFrom
  rw [sliceFrom_byteLen, Option.bind_some, find_eq_none h]

theorem Snapshot.searchFrom_none (h : ¬ word <:+: rest) :
    searchFrom (front ++ rest) word (fuel + 1) (byteLen front) = some false := by
  unfold searchFrom
  rw [sliceFrom_byteLen, Option.bind_some, find_eq_none h]

/-- The first loop goes on behind the occurrence. -/
theorem ClaudeState.searchFrom_first (h : First word rest before after) :
    searchFrom (front ++ rest) word (fuel + 1) (byteLen front) =
      if apart (front ++ before) after then some true
      else searchFrom (front ++ rest) word fuel (byteLen (front ++ before ++ word)) := by
  have hbefore : front ++ rest = (front ++ before) ++ (word ++ after) := by
    rw [h.text]
    simp only [List.append_assoc]
  have hafter : front ++ rest = (front ++ before ++ word) ++ after := by
    rw [hbefore, List.append_assoc (front ++ before)]
  have habs : byteLen front + byteLen before = byteLen (front ++ before) :=
    (byteLen_append front before).symm
  have hbehind : byteLen (front ++ before) + byteLen word = byteLen (front ++ before ++ word) :=
    (byteLen_append (front ++ before) word).symm
  have hbeforeOk := beforeOk_eq (front ++ before) (word ++ after)
  have hafterOk := afterOk_eq (front ++ before ++ word) after
  rw [← hbefore] at hbeforeOk
  rw [← hafter] at hafterOk
  conv => lhs; unfold searchFrom
  rw [sliceFrom_byteLen, Option.bind_some, find_first h]
  dsimp only
  rw [habs, hbehind, hbeforeOk, hafterOk]
  rfl

/-- The second loop goes on behind the first character of the occurrence. -/
theorem Snapshot.searchFrom_first {c : Char} {tail : List Char} (hc : c.utf8Size = 1)
    (h : First (c :: tail) rest before after) :
    searchFrom (front ++ rest) (c :: tail) (fuel + 1) (byteLen front) =
      if apart (front ++ before) after then some true
      else if tail ++ after = [] then some false
      else searchFrom (front ++ rest) (c :: tail) fuel (byteLen (front ++ before ++ [c])) := by
  have hbefore : front ++ rest = (front ++ before) ++ (c :: tail ++ after) := by
    rw [h.text]
    simp only [List.append_assoc]
  have hafter : front ++ rest = (front ++ before ++ (c :: tail)) ++ after := by
    rw [hbefore, List.append_assoc (front ++ before)]
  have hnext : front ++ rest = (front ++ before ++ [c]) ++ (tail ++ after) := by
    rw [hbefore]
    simp only [List.append_assoc, List.cons_append, List.nil_append]
  have habs : byteLen front + byteLen before = byteLen (front ++ before) :=
    (byteLen_append front before).symm
  have hbehind : byteLen (front ++ before) + byteLen (c :: tail)
      = byteLen (front ++ before ++ (c :: tail)) :=
    (byteLen_append (front ++ before) (c :: tail)).symm
  have hstart : byteLen (front ++ before) + 1 = byteLen (front ++ before ++ [c]) := by
    rw [byteLen_append (front ++ before) [c]]
    show _ = _ + (c.utf8Size + 0)
    rw [hc]
  have hbeforeOk := beforeOk_eq (front ++ before) (c :: tail ++ after)
  have hafterOk := afterOk_eq (front ++ before ++ (c :: tail)) after
  have hend := length_le_iff (front ++ before ++ [c]) (tail ++ after)
  rw [← hbefore] at hbeforeOk
  rw [← hafter] at hafterOk
  rw [← hnext] at hend
  conv => lhs; unfold searchFrom
  rw [sliceFrom_byteLen, Option.bind_some, find_first h]
  dsimp only
  rw [habs, hbehind, hbeforeOk, hafterOk, hstart]
  simp only [hend]
  rfl

end Turn

/-! ## §4. The whole search. -/

/-- **The first loop** sees the occurrences that are counted. -/
theorem ClaudeState.searchFrom_spec {word : List Char} (hne : word ≠ []) (fuel : Nat)
    (front rest : List Char) (hfuel : byteLen rest < fuel) :
    ∃ found, searchFrom (front ++ rest) word fuel (byteLen front) = some found ∧
      (found = true ↔ ∃ before after, Counted word rest before after ∧
        apart (front ++ before) after = true) := by
  induction fuel generalizing front rest with
  | zero => exact absurd hfuel (Nat.not_lt_zero _)
  | succ fuel ih =>
      by_cases hin : word <:+: rest
      · obtain ⟨before, after, hfirst⟩ := exists_first hin
        rw [searchFrom_first hfirst]
        by_cases hapart : apart (front ++ before) after = true
        · rw [if_pos hapart]
          exact ⟨true, rfl, iff_of_true rfl ⟨before, after, .first hfirst, hapart⟩⟩
        · rw [if_neg hapart]
          have htext : front ++ rest = (front ++ before ++ word) ++ after := by
            rw [hfirst.text]
            simp only [List.append_assoc]
          have hshorter : byteLen after < fuel := by
            have hsum := congrArg byteLen hfirst.text
            have hpos := byteLen_pos hne
            rw [byteLen_append, byteLen_append] at hsum
            omega
          rw [htext]
          obtain ⟨found, hfound, hiff⟩ := ih (front ++ before ++ word) after hshorter
          refine ⟨found, hfound, hiff.trans ?_⟩
          constructor
          · rintro ⟨gap, back, hcounted, hback⟩
            refine ⟨before ++ word ++ gap, back, .later hfirst hcounted, ?_⟩
            rw [← hback]
            simp only [List.append_assoc]
          · rintro ⟨place, back, hcounted, hback⟩
            rcases (counted_iff hfirst).mp hcounted with ⟨rfl, rfl⟩ | ⟨gap, rfl, hlater⟩
            · exact absurd hback hapart
            · refine ⟨gap, back, hlater, ?_⟩
              rw [← hback]
              simp only [List.append_assoc]
      · rw [searchFrom_none hin]
        refine ⟨false, rfl, iff_of_false Bool.false_ne_true ?_⟩
        rintro ⟨before, after, hcounted, -⟩
        exact hin ⟨before, after, hcounted.text.symm⟩

/-- **The second loop** sees every occurrence. -/
theorem Snapshot.searchFrom_spec {c : Char} {tail : List Char} (hc : c.utf8Size = 1) (fuel : Nat)
    (front rest : List Char) (hfuel : byteLen rest < fuel) :
    ∃ found, searchFrom (front ++ rest) (c :: tail) fuel (byteLen front) = some found ∧
      (found = true ↔ ∃ before after, rest = before ++ (c :: tail) ++ after ∧
        apart (front ++ before) after = true) := by
  induction fuel generalizing front rest with
  | zero => exact absurd hfuel (Nat.not_lt_zero _)
  | succ fuel ih =>
      by_cases hin : c :: tail <:+: rest
      · obtain ⟨before, after, hfirst⟩ := exists_first hin
        rw [searchFrom_first hc hfirst]
        by_cases hapart : apart (front ++ before) after = true
        · rw [if_pos hapart]
          exact ⟨true, rfl, iff_of_true rfl ⟨before, after, hfirst.text, hapart⟩⟩
        · rw [if_neg hapart]
          -- any other occurrence begins behind the first character of this one
          have hlater : (∃ gap back, tail ++ after = gap ++ (c :: tail) ++ back ∧
                apart (front ++ before ++ [c] ++ gap) back = true) ↔
              ∃ before after, rest = before ++ (c :: tail) ++ after ∧
                apart (front ++ before) after = true := by
            constructor
            · rintro ⟨gap, back, hgap, hback⟩
              refine ⟨_, back, (occurrence_iff hfirst).mpr (.inr ⟨gap, rfl, hgap⟩), ?_⟩
              rw [← hback]
              simp only [List.append_assoc]
            · rintro ⟨place, back, hplace, hback⟩
              rcases (occurrence_iff hfirst).mp hplace with ⟨rfl, rfl⟩ | ⟨gap, rfl, hgap⟩
              · exact absurd hback hapart
              · refine ⟨gap, back, hgap, ?_⟩
                rw [← hback]
                simp only [List.append_assoc]
          by_cases hend : tail ++ after = []
          · rw [if_pos hend]
            refine ⟨false, rfl, iff_of_false Bool.false_ne_true ?_⟩
            rw [← hlater, hend]
            rintro ⟨gap, back, hgap, -⟩
            have hlen := congrArg List.length hgap
            simp at hlen
          · have htext : front ++ rest = (front ++ before ++ [c]) ++ (tail ++ after) := by
              rw [hfirst.text]
              simp only [List.append_assoc, List.cons_append, List.nil_append]
            have hshorter : byteLen (tail ++ after) < fuel := by
              have hsum := congrArg byteLen hfirst.text
              have hword : byteLen (c :: tail) = c.utf8Size + byteLen tail := rfl
              rw [byteLen_append, byteLen_append, hword] at hsum
              rw [byteLen_append]
              omega
            rw [if_neg hend, htext]
            obtain ⟨found, hfound, hiff⟩ := ih (front ++ before ++ [c]) (tail ++ after) hshorter
            exact ⟨found, hfound, hiff.trans hlater⟩
      · rw [searchFrom_none hin]
        refine ⟨false, rfl, iff_of_false Bool.false_ne_true ?_⟩
        rintro ⟨before, after, htext, -⟩
        exact hin ⟨before, after, htext.symm⟩

/-- The word occurs somewhere with no character of a word next to it. -/
def OccursApart (haystack word : List Char) : Prop :=
  ∃ before after, haystack = before ++ word ++ after ∧ apart before after = true

/-- The same of the occurrences that are counted: they do not overlap. -/
def CountedApart (haystack word : List Char) : Prop :=
  ∃ before after, Counted word haystack before after ∧ apart before after = true

theorem CountedApart.occursApart {haystack word : List Char} (h : CountedApart haystack word) :
    OccursApart haystack word := by
  obtain ⟨before, after, hcounted, hapart⟩ := h
  exact ⟨before, after, hcounted.text, hapart⟩

theorem ClaudeState.isWordMatch_spec (haystack : List Char) {word : List Char} (hne : word ≠ []) :
    ∃ found, isWordMatch haystack word = some found ∧
      (found = true ↔ CountedApart haystack word) :=
  searchFrom_spec hne (byteLen haystack + 1) [] haystack (Nat.lt_succ_self _)

theorem Snapshot.isWordMatch_spec (haystack : List Char) {word : List Char} (hne : word ≠ [])
    (hascii : ∀ c ∈ word, c.toNat < 128) :
    ∃ found, isWordMatch haystack word = some found ∧
      (found = true ↔ OccursApart haystack word) := by
  cases word with
  | nil => exact absurd rfl hne
  | cons c tail =>
      have hc : c.utf8Size = 1 :=
        Char.utf8Size_eq_one_iff.mpr (Nat.le_of_lt_succ (hascii c List.mem_cons_self))
      exact searchFrom_spec hc (byteLen haystack + 1) [] haystack (Nat.lt_succ_self _)

/-- The two agree, and on what there is. -/
def Agree (haystack word : List Char) : Prop :=
  ∃ found, ClaudeState.isWordMatch haystack word = some found ∧
    Snapshot.isWordMatch haystack word = some found ∧
    (found = true ↔ OccursApart haystack word)

/-- **Both find what there is** exactly if an occurrence apart is among the counted ones
where there is one at all. -/
theorem word_matches_agree_iff (haystack word : List Char) (hne : word ≠ [])
    (hascii : ∀ c ∈ word, c.toNat < 128) :
    Agree haystack word ↔ (OccursApart haystack word → CountedApart haystack word) := by
  obtain ⟨found, hfound, hcounted⟩ := ClaudeState.isWordMatch_spec haystack hne
  obtain ⟨found', hfound', hoccurs⟩ := Snapshot.isWordMatch_spec haystack hne hascii
  constructor
  · rintro ⟨both, hboth, -, hiff⟩ hin
    have heq : found = both := Option.some.inj (hfound.symm.trans hboth)
    exact hcounted.mp (heq.trans (hiff.mpr hin))
  · intro himp
    have heq : found = found' := by
      rw [Bool.eq_iff_iff, hcounted, hoccurs]
      exact ⟨CountedApart.occursApart, himp⟩
    exact ⟨found, hfound, heq ▸ hfound', heq ▸ hoccurs⟩

theorem word_matches_agree_iff_claude : Agree "claude -c".toList "claude".toList := by
  refine (word_matches_agree_iff _ _ (by decide) (List.all_iff_forall_prop.mp (by decide))).mpr fun _ => ?_
  exact ⟨[], " -c".toList, .first (first_at_start rfl), by decide⟩

/-- The second of two copies of the word that overlap stands apart. -/
theorem word_matches_disagree :
    ¬ ∀ haystack word : List Char, word ≠ [] → (∀ c ∈ word, c.toNat < 128) →
      Agree haystack word := by
  intro hall
  obtain ⟨found, hclaude, hsnapshot, -⟩ :=
    hall "xa-a-a".toList "a-a".toList (by decide) (List.all_iff_forall_prop.mp (by decide))
  rw [show ClaudeState.isWordMatch "xa-a-a".toList "a-a".toList = some false by decide] at hclaude
  rw [show Snapshot.isWordMatch "xa-a-a".toList "a-a".toList = some true by decide] at hsnapshot
  exact absurd (hclaude.trans hsnapshot.symm) (by decide)

/-! ## §5. The search of the other modules. -/

/-- A letter that is not the first one of the word. -/
theorem exists_other_letter (word : List Char) :
    ∃ c, isWordChar c = true ∧ ∀ d ∈ word.head?, d ≠ c := by
  by_cases ha : word.head? = some 'a'
  · refine ⟨'b', by decide, ?_⟩
    intro d hd hb
    rw [hb] at hd
    exact absurd (ha.symm.trans hd) (by decide)
  · refine ⟨'a', by decide, ?_⟩
    intro d hd heq
    exact ha (heq ▸ hd)

/-- **In every text** the two agree exactly if no copy of the word overlaps another behind
a character that belongs to no word. -/
theorem always_agree_iff {word : List Char} (hne : word ≠ []) (hascii : ∀ c ∈ word, c.toNat < 128) :
    (∀ haystack, Agree haystack word) ↔
      ∀ part back, Overlap word part back → isWordBoundary part.getLast? = false := by
  constructor
  · intro hall part back hover
    by_contra hboundary
    rw [Bool.not_eq_false] at hboundary
    obtain ⟨c, hc, hhead⟩ := exists_other_letter word
    have hlast : (c :: part).getLast? = part.getLast? := by
      rw [List.getLast?_cons, List.getLast?_eq_some_getLast hover.frontNe]
      rfl
    have hin : OccursApart (c :: (part ++ word)) word := by
      refine ⟨c :: part, [], (List.append_nil _).symm, ?_⟩
      unfold apart
      rw [hlast, hboundary]
      rfl
    have hagree := hall (c :: (part ++ word))
    obtain ⟨before, after, hcounted, hapart⟩ :=
      (word_matches_agree_iff _ word hne hascii).mp hagree hin
    -- the one that is counted stands behind the letter
    rw [overlap_hides hover hhead hcounted] at hapart
    have hletter : isWordBoundary (some c) = true := (Bool.and_eq_true_iff.mp hapart).1
    rw [isWordBoundary_map] at hletter
    simp [hc] at hletter
  · intro hno haystack
    rw [word_matches_agree_iff haystack word hne hascii]
    rintro ⟨before, after, htext, hapart⟩
    refine ⟨before, after, counted_of_no_overlap hne htext ?_, hapart⟩
    rintro part back hover ⟨front, rfl⟩
    have hlast : (front ++ part).getLast? = part.getLast? := by
      rw [List.getLast?_append, List.getLast?_eq_some_getLast hover.frontNe]
      rfl
    have hboundary := (Bool.and_eq_true_iff.mp hapart).1
    rw [hlast, hno part back hover] at hboundary
    exact Bool.false_ne_true hboundary

/-- No end of `done` is one of its beginnings. -/
theorem not_overlap_done (part back : List Char) : ¬ Overlap "done".toList part back := by
  intro hover
  have hback : back = "done".toList.drop part.length := by
    rw [hover.split, List.drop_left]
  have hpos := List.length_pos_iff.mpr hover.frontNe
  have hpos' := List.length_pos_iff.mpr hover.backNe
  have hlength : 4 = part.length + back.length := by
    rw [← List.length_append, ← hover.split]
    rfl
  have hrepeated := hover.repeated
  rw [hback] at hrepeated
  obtain h | h | h : part.length = 1 ∨ part.length = 2 ∨ part.length = 3 := by omega
  all_goals
    rw [h] at hrepeated
    exact absurd hrepeated (by decide)

/-- No text tells the two searches for `done` apart. -/
theorem always_agree_iff_done : ¬ ∃ haystack, ¬ Agree haystack "done".toList := by
  rintro ⟨haystack, hdiffer⟩
  have hall := (@always_agree_iff "done".toList (by decide)
    (List.all_iff_forall_prop.mp (by decide))).mpr
      fun part back hover => absurd hover (not_overlap_done part back)
  exact hdiffer (hall haystack)

end Jmux.Session
