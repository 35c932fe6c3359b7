/-
  Jmux.Remote.LossyText — decoding a text that arrives in pieces.

  `String::from_utf8_lossy` decodes each piece by itself.  A piece that begins or
  ends within a character has bytes there that no character is made of.

  Main results:
    * `utf8Lossy_encode_append` — whole characters are decoded as they are.
    * `utf8Lossy_cut`           — the beginning of a character becomes one replacement.
    * `ink_le_decoded`          — pieces cut within a character have more marks than
                                   the text.
-/
import Jmux.Remote.Proxy

namespace Jmux.Remote

open Jmux.Lib

/-! ## §1. The bytes of a character. -/

/-- The bytes of a character that has several. -/
structure Multibyte (c : Char) (first second : UInt8) (more : Bytes) : Prop where
  bytes    : String.utf8EncodeChar c = first :: second :: more
  notAscii : ¬ first < 0x80
  width    : utf8Width first = more.length + 2
  follows  : isSecondByte first second = true
  tail     : ∀ b ∈ second :: more, isContinuationByte b = true
  char     : utf8Char first (second :: more) = c

theorem encodeChar_ascii {c : Char} (h : c.toNat ≤ 0x7f) :
    String.utf8EncodeChar c = [UInt8.ofNat c.toNat] :=
  if_pos h

theorem ofNat_isContinuationByte {n : Nat} (h : n < 0x40) :
    isContinuationByte (UInt8.ofNat (n + 0x80)) = true := by
  simp only [isContinuationByte, UInt8.le_iff_toNat_le, UInt8.toNat_ofNat', Bool.and_eq_true,
    decide_eq_true_eq]
  constructor
  · show 128 ≤ _
    omega
  · show _ ≤ 191
    omega

theorem char_valid (c : Char) : c.toNat < 0xd800 ∨ (0xdfff < c.toNat ∧ c.toNat < 0x110000) :=
  c.valid

/-- The value of a byte that is made of a small number. -/
theorem toNat_ofNat_of_lt {n : Nat} (h : n < 256) : (UInt8.ofNat n).toNat = n := by
  rw [UInt8.toNat_ofNat']
  exact Nat.mod_eq_of_lt h

/-- The second byte of a character, by its value. -/
theorem isSecondByte_of_toNat {first b : UInt8} (hlow : 0x80 ≤ b.toNat) (hhigh : b.toNat ≤ 0xbf)
    (he0 : first.toNat = 0xe0 → 0xa0 ≤ b.toNat) (hed : first.toNat = 0xed → b.toNat ≤ 0x9f)
    (hf0 : first.toNat = 0xf0 → 0x90 ≤ b.toNat) (hf4 : first.toNat = 0xf4 → b.toNat ≤ 0x8f) :
    isSecondByte first b = true := by
  have hbound : ∀ n : UInt8, first = n → first.toNat = n.toNat := fun n h => congrArg _ h
  unfold isSecondByte isContinuationByte
  simp only [UInt8.le_iff_toNat_le]
  split
  · next h => simpa using ⟨he0 (hbound _ h), hhigh⟩
  split
  · next h => simpa using ⟨hlow, hed (hbound _ h)⟩
  split
  · next h => simpa using ⟨hf0 (hbound _ h), hhigh⟩
  split
  · next h => simpa using ⟨hlow, hf4 (hbound _ h)⟩
  · simpa using ⟨hlow, hhigh⟩

theorem multibyte_two {c : Char} (hlow : 0x7f < c.toNat) (hhigh : c.toNat ≤ 0x7ff) :
    Multibyte c (UInt8.ofNat (c.toNat / 64 % 0x20 + 0xc0)) (UInt8.ofNat (c.toNat % 0x40 + 0x80))
      [] := by
  have hbytes : String.utf8EncodeChar c =
      [UInt8.ofNat (c.toNat / 64 % 0x20 + 0xc0), UInt8.ofNat (c.toNat % 0x40 + 0x80)] :=
    (if_neg (by show ¬ c.toNat ≤ 0x7f; omega)).trans (if_pos hhigh)
  have hcont := @ofNat_isContinuationByte (c.toNat % 0x40) (Nat.mod_lt _ (by decide))
  have hfirst := @toNat_ofNat_of_lt (c.toNat / 64 % 0x20 + 0xc0) (by omega)
  have hsecond := @toNat_ofNat_of_lt (c.toNat % 0x40 + 0x80) (by omega)
  generalize UInt8.ofNat (c.toNat / 64 % 0x20 + 0xc0) = first at *
  generalize UInt8.ofNat (c.toNat % 0x40 + 0x80) = second at *
  have hwidth : utf8Width first = 2 := by
    simp [utf8Width, UInt8.le_iff_toNat_le, hfirst]
    omega
  refine ⟨hbytes, ?_, hwidth, ?_, ?_, ?_⟩
  · simp [UInt8.lt_iff_toNat_lt, hfirst]
  · apply isSecondByte_of_toNat <;> omega
  · simpa using hcont
  · have harith : c.toNat = 64 * (first.toNat % 2 ^ 5) + second.toNat % 64 := by omega
    unfold utf8Char
    rw [hwidth]
    show Char.ofNat (64 * (first.toNat % 2 ^ 5) + second.toNat % 64) = c
    rw [← harith, Char.ofNat_toNat]

theorem multibyte_three {c : Char} (hlow : 0x7ff < c.toNat) (hhigh : c.toNat ≤ 0xffff) :
    Multibyte c (UInt8.ofNat (c.toNat / 4096 % 0x10 + 0xe0))
      (UInt8.ofNat (c.toNat / 64 % 0x40 + 0x80)) [UInt8.ofNat (c.toNat % 0x40 + 0x80)] := by
  have hvalid := char_valid c
  have hbytes : String.utf8EncodeChar c =
      [UInt8.ofNat (c.toNat / 4096 % 0x10 + 0xe0), UInt8.ofNat (c.toNat / 64 % 0x40 + 0x80),
        UInt8.ofNat (c.toNat % 0x40 + 0x80)] :=
    (if_neg (by show ¬ c.toNat ≤ 0x7f; omega)).trans
      ((if_neg (by show ¬ c.toNat ≤ 0x7ff; omega)).trans (if_pos hhigh))
  have hcont₁ := @ofNat_isContinuationByte (c.toNat / 64 % 0x40) (Nat.mod_lt _ (by decide))
  have hcont₂ := @ofNat_isContinuationByte (c.toNat % 0x40) (Nat.mod_lt _ (by decide))
  have hfirst := @toNat_ofNat_of_lt (c.toNat / 4096 % 0x10 + 0xe0) (by omega)
  have hsecond := @toNat_ofNat_of_lt (c.toNat / 64 % 0x40 + 0x80) (by omega)
  have hthird := @toNat_ofNat_of_lt (c.toNat % 0x40 + 0x80) (by omega)
  generalize UInt8.ofNat (c.toNat / 4096 % 0x10 + 0xe0) = first at *
  generalize UInt8.ofNat (c.toNat / 64 % 0x40 + 0x80) = second at *
  generalize UInt8.ofNat (c.toNat % 0x40 + 0x80) = third at *
  have hwidth : utf8Width first = 3 := by
    simp [utf8Width, UInt8.le_iff_toNat_le, hfirst]
    omega
  refine ⟨hbytes, ?_, hwidth, ?_, ?_, ?_⟩
  · simp [UInt8.lt_iff_toNat_lt, hfirst]
  · apply isSecondByte_of_toNat <;> omega
  · simpa using ⟨hcont₁, hcont₂⟩
  · have harith : c.toNat =
        64 * (64 * (first.toNat % 2 ^ 4) + second.toNat % 64) + third.toNat % 64 := by omega
    unfold utf8Char
    rw [hwidth]
    show Char.ofNat (64 * (64 * (first.toNat % 2 ^ 4) + second.toNat % 64) + third.toNat % 64) = c
    rw [← harith, Char.ofNat_toNat]

theorem multibyte_four {c : Char} (hlow : 0xffff < c.toNat) :
    Multibyte c (UInt8.ofNat (c.toNat / 262144 % 0x08 + 0xf0))
      (UInt8.ofNat (c.toNat / 4096 % 0x40 + 0x80))
      [UInt8.ofNat (c.toNat / 64 % 0x40 + 0x80), UInt8.ofNat (c.toNat % 0x40 + 0x80)] := by
  have hvalid := char_valid c
  have hbytes : String.utf8EncodeChar c =
      [UInt8.ofNat (c.toNat / 262144 % 0x08 + 0xf0), UInt8.ofNat (c.toNat / 4096 % 0x40 + 0x80),
        UInt8.ofNat (c.toNat / 64 % 0x40 + 0x80), UInt8.ofNat (c.toNat % 0x40 + 0x80)] :=
    (if_neg (by show ¬ c.toNat ≤ 0x7f; omega)).trans
      ((if_neg (by show ¬ c.toNat ≤ 0x7ff; omega)).trans
        (if_neg (by show ¬ c.toNat ≤ 0xffff; omega)))
  have hcont₁ := @ofNat_isContinuationByte (c.toNat / 4096 % 0x40) (Nat.mod_lt _ (by decide))
  have hcont₂ := @ofNat_isContinuationByte (c.toNat / 64 % 0x40) (Nat.mod_lt _ (by decide))
  have hcont₃ := @ofNat_isContinuationByte (c.toNat % 0x40) (Nat.mod_lt _ (by decide))
  have hfirst := @toNat_ofNat_of_lt (c.toNat / 262144 % 0x08 + 0xf0) (by omega)
  have hsecond := @toNat_ofNat_of_lt (c.toNat / 4096 % 0x40 + 0x80) (by omega)
  have hthird := @toNat_ofNat_of_lt (c.toNat / 64 % 0x40 + 0x80) (by omega)
  have hfourth := @toNat_ofNat_of_lt (c.toNat % 0x40 + 0x80) (by omega)
  generalize UInt8.ofNat (c.toNat / 262144 % 0x08 + 0xf0) = first at *
  generalize UInt8.ofNat (c.toNat / 4096 % 0x40 + 0x80) = second at *
  generalize UInt8.ofNat (c.toNat / 64 % 0x40 + 0x80) = third at *
  generalize UInt8.ofNat (c.toNat % 0x40 + 0x80) = fourth at *
  have hwidth : utf8Width first = 4 := by
    simp [utf8Width, UInt8.le_iff_toNat_le, hfirst]
    omega
  refine ⟨hbytes, ?_, hwidth, ?_, ?_, ?_⟩
  · simp [UInt8.lt_iff_toNat_lt, hfirst]
  · apply isSecondByte_of_toNat <;> omega
  · simpa using ⟨hcont₁, hcont₂, hcont₃⟩
  · have harith : c.toNat =
        64 * (64 * (64 * (first.toNat % 2 ^ 3) + second.toNat % 64) + third.toNat % 64) +
          fourth.toNat % 64 := by omega
    unfold utf8Char
    rw [hwidth]
    show Char.ofNat (64 * (64 * (64 * (first.toNat % 2 ^ 3) + second.toNat % 64) +
      third.toNat % 64) + fourth.toNat % 64) = c
    rw [← harith, Char.ofNat_toNat]

/-- A character is one byte of ASCII or has several bytes. -/
theorem ascii_or_multibyte (c : Char) :
    c.toNat ≤ 0x7f ∨ ∃ first second more, Multibyte c first second more := by
  by_cases hone : c.toNat ≤ 0x7f
  · exact .inl hone
  by_cases htwo : c.toNat ≤ 0x7ff
  · exact .inr ⟨_, _, _, multibyte_two (by omega) htwo⟩
  by_cases hthree : c.toNat ≤ 0xffff
  · exact .inr ⟨_, _, _, multibyte_three (by omega) hthree⟩
  · exact .inr ⟨_, _, _, multibyte_four (by omega)⟩

/-- The byte of an ASCII character stands in no other character. -/
theorem eq_of_mem_encodeChar {c d : Char} (hd : d.toNat ≤ 0x7f)
    (h : UInt8.ofNat d.toNat ∈ String.utf8EncodeChar c) : c = d := by
  have hvalue : (UInt8.ofNat d.toNat).toNat = d.toNat := toNat_ofNat_of_lt (by omega)
  rcases ascii_or_multibyte c with hascii | ⟨first, second, more, hmulti⟩
  · rw [encodeChar_ascii hascii, List.mem_singleton] at h
    have hsame := congrArg UInt8.toNat h
    rw [hvalue, toNat_ofNat_of_lt (by omega)] at hsame
    exact Char.toNat_inj.mp hsame.symm
  · -- all bytes of the others are large
    have hlarge : 0x80 ≤ UInt8.ofNat d.toNat := by
      rw [hmulti.bytes] at h
      rcases List.mem_cons.mp h with hfirst | hrest
      · exact UInt8.not_lt.mp (hfirst ▸ hmulti.notAscii)
      · have hcontinues := hmulti.tail _ hrest
        simp only [isContinuationByte, Bool.and_eq_true, decide_eq_true_eq] at hcontinues
        exact hcontinues.1
    rw [UInt8.le_iff_toNat_le, hvalue] at hlarge
    have hlow : 128 ≤ d.toNat := hlarge
    omega

/-! ## §2. Decoding. -/

/-- Fuel beyond the length of the bytes does nothing. -/
theorem utf8LossyFrom_congr (fuel fuel' : Nat) (bytes : Bytes) (h : bytes.length ≤ fuel)
    (h' : bytes.length ≤ fuel') : utf8LossyFrom fuel bytes = utf8LossyFrom fuel' bytes := by
  induction fuel generalizing fuel' bytes with
  | zero =>
      rw [List.length_eq_zero_iff.mp (Nat.le_zero.mp h)]
      cases fuel' <;> rfl
  | succ fuel ih =>
      cases bytes with
      | nil => cases fuel' <;> rfl
      | cons first rest =>
          cases fuel' with
          | zero => simp at h'
          | succ fuel' =>
              rw [List.length_cons] at h h'
              unfold utf8LossyFrom
              rw [ih fuel' rest (by omega) (by omega)]
              dsimp only
              rw [ih fuel' (rest.drop (utf8Tail first rest).length)
                (by rw [List.length_drop]; omega) (by rw [List.length_drop]; omega)]

theorem utf8Lossy_ascii {first : UInt8} (hfirst : first < 0x80) (rest : Bytes) :
    utf8Lossy (first :: rest) = Char.ofNat first.toNat :: utf8Lossy rest :=
  if_pos hfirst

theorem utf8Lossy_cons {first : UInt8} (hfirst : ¬ first < 0x80) {rest tail : Bytes}
    (htail : utf8Tail first rest = tail) :
    utf8Lossy (first :: rest) =
      (if tail ≠ [] ∧ tail.length + 1 = utf8Width first then utf8Char first tail
        else replacementChar) :: utf8Lossy (rest.drop tail.length) := by
  have hstep : utf8Lossy (first :: rest) =
      (if utf8Tail first rest ≠ [] ∧ (utf8Tail first rest).length + 1 = utf8Width first then
          utf8Char first (utf8Tail first rest) else replacementChar) ::
        utf8LossyFrom rest.length (rest.drop (utf8Tail first rest).length) :=
    if_neg hfirst
  rw [hstep, htail]
  congr 1
  exact utf8LossyFrom_congr _ _ _ (by rw [List.length_drop]; omega) (Nat.le_refl _)

/-- A byte within a character begins none. -/
theorem utf8Lossy_continuation {b : UInt8} (hb : isContinuationByte b = true) (rest : Bytes) :
    utf8Lossy (b :: rest) = replacementChar :: utf8Lossy rest := by
  have hrange : 0x80 ≤ b.toNat ∧ b.toNat ≤ 0xbf := by
    simpa [isContinuationByte, UInt8.le_iff_toNat_le] using hb
  have hwidth : utf8Width b = 1 := by
    have hbelow : ∀ n : UInt8, 0xc0 ≤ n.toNat → ¬ n ≤ b := by
      intro n hn hle
      rw [UInt8.le_iff_toNat_le] at hle
      omega
    unfold utf8Width
    rw [if_neg fun h => hbelow _ (by decide) h.1, if_neg fun h => hbelow _ (by decide) h.1,
      if_neg fun h => hbelow _ (by decide) h.1]
  have htail : utf8Tail b rest = [] := by
    unfold utf8Tail
    rw [hwidth]
    rfl
  have hnotAscii : ¬ b < 0x80 := by
    rw [UInt8.lt_iff_toNat_lt]
    show ¬ b.toNat < 128
    omega
  rw [utf8Lossy_cons hnotAscii htail]
  rfl

theorem utf8Lossy_continuations {tail : Bytes} (htail : ∀ b ∈ tail, isContinuationByte b = true)
    (rest : Bytes) :
    utf8Lossy (tail ++ rest) = List.replicate tail.length replacementChar ++ utf8Lossy rest := by
  induction tail with
  | nil => rfl
  | cons b tail ih =>
      rw [List.cons_append, utf8Lossy_continuation (htail b List.mem_cons_self),
        ih fun b' hb' => htail b' (List.mem_cons_of_mem b hb')]
      rfl

/-- What the decoder takes for the rest of a character. -/
theorem Multibyte.utf8Tail {c : Char} {first second : UInt8} {more : Bytes}
    (h : Multibyte c first second more) {part behind : Bytes} (hpart : part <+: second :: more)
    (htake : (part ++ behind).take (more.length + 1) = part) :
    utf8Tail first (part ++ behind) = part := by
  unfold Remote.utf8Tail
  rw [h.width, show more.length + 2 - 1 = more.length + 1 from rfl, htake]
  cases part with
  | nil => rfl
  | cons b part =>
      obtain ⟨hb, hrest⟩ := List.cons_prefix_cons.mp hpart
      dsimp only
      rw [hb, if_pos h.follows, List.takeWhile_eq_self_iff.mpr]
      intro b' hb'
      exact h.tail b' (List.mem_cons_of_mem second (hrest.subset hb'))

theorem utf8Lossy_char (c : Char) (rest : Bytes) :
    utf8Lossy (String.utf8EncodeChar c ++ rest) = c :: utf8Lossy rest := by
  rcases ascii_or_multibyte c with hascii | ⟨first, second, more, h⟩
  · have hvalue := @toNat_ofNat_of_lt c.toNat (by omega)
    have hlt : UInt8.ofNat c.toNat < 0x80 := by
      rw [UInt8.lt_iff_toNat_lt, hvalue]
      show c.toNat < 128
      omega
    rw [encodeChar_ascii hascii, List.singleton_append, utf8Lossy_ascii hlt, hvalue,
      Char.ofNat_toNat]
  · have htail := @Multibyte.utf8Tail c first second more h (second :: more) rest
      (List.prefix_refl _) (List.take_left' rfl)
    rw [h.bytes, List.cons_append, utf8Lossy_cons h.notAscii htail,
      if_pos ⟨List.cons_ne_nil _ _, h.width.symm⟩, h.char, List.drop_left]

/-- The beginning of a character, and nothing behind it. -/
theorem utf8Lossy_cut {c : Char} {head tail : Bytes} (hbytes : String.utf8EncodeChar c = head ++ tail)
    (hhead : head ≠ []) (htail : tail ≠ []) : utf8Lossy head = [replacementChar] := by
  have hlen : 0 < tail.length := List.length_pos_of_ne_nil htail
  rcases ascii_or_multibyte c with hascii | ⟨first, second, more, h⟩
  · -- one byte is not cut
    rw [encodeChar_ascii hascii] at hbytes
    have hone := congrArg List.length hbytes
    have hhead := List.length_pos_of_ne_nil hhead
    rw [List.length_append, List.length_singleton] at hone
    omega
  · rw [h.bytes] at hbytes
    cases head with
    | nil => exact absurd rfl hhead
    | cons b part =>
        rw [List.cons_append] at hbytes
        obtain ⟨hb, hpart⟩ := List.cons.inj hbytes
        have hshort := congrArg List.length hpart
        rw [List.length_append, List.length_cons] at hshort
        have hrest := @Multibyte.utf8Tail c first second more h part [] ⟨tail, hpart.symm⟩
          (by rw [List.append_nil]; exact List.take_of_length_le (by omega))
        rw [List.append_nil] at hrest
        rw [← hb, utf8Lossy_cons h.notAscii hrest, if_neg (by rw [h.width]; omega),
          List.drop_of_length_le (Nat.le_refl _)]
        rfl

/-- Behind the beginning of a character come only bytes that begin none. -/
theorem continuation_of_cut {c : Char} {head tail : Bytes}
    (hbytes : String.utf8EncodeChar c = head ++ tail) (hhead : head ≠ []) :
    ∀ b ∈ tail, isContinuationByte b = true := by
  intro b hb
  cases head with
  | nil => exact absurd rfl hhead
  | cons first' part =>
      rcases ascii_or_multibyte c with hascii | ⟨first, second, more, h⟩
      · rw [encodeChar_ascii hascii, List.cons_append] at hbytes
        have hnil := (List.cons.inj hbytes).2
        rw [(List.append_eq_nil_iff.mp hnil.symm).2] at hb
        cases hb
      · rw [h.bytes, List.cons_append] at hbytes
        apply h.tail
        rw [(List.cons.inj hbytes).2]
        exact List.mem_append_right part hb

/-! ## §3. A text in pieces. -/

/-- The bytes of a text. -/
def encode (text : List Char) : Bytes := text.flatMap String.utf8EncodeChar

theorem encode_append (text rest : List Char) : encode (text ++ rest) = encode text ++ encode rest :=
  List.flatMap_append

/-- Whole characters are decoded as they are. -/
theorem utf8Lossy_encode_append (text : List Char) (rest : Bytes) :
    utf8Lossy (encode text ++ rest) = text ++ utf8Lossy rest := by
  induction text with
  | nil => rfl
  | cons c text ih =>
      show utf8Lossy ((String.utf8EncodeChar c ++ encode text) ++ rest) = _
      rw [List.append_assoc, utf8Lossy_char, ih]
      rfl

theorem utf8Lossy_encode (text : List Char) : utf8Lossy (encode text) = text := by
  have h := utf8Lossy_encode_append text []
  rw [List.append_nil, show utf8Lossy [] = [] from rfl, List.append_nil] at h
  exact h

/-- Valid UTF-8: bytes that end and begin with a character. -/
def WholeChars (bytes : Bytes) : Prop := ∃ text, bytes = encode text

/-- Where the bytes of a text are cut: between characters, or within one. -/
inductive Cut : List Char → Bytes → Bytes → Prop
  | between (text rest : List Char) : Cut (text ++ rest) (encode text) (encode rest)
  | within (text : List Char) {c : Char} (rest : List Char) {head tail : Bytes} :
      String.utf8EncodeChar c = head ++ tail → head ≠ [] → tail ≠ [] →
      Cut (text ++ c :: rest) (encode text ++ head) (tail ++ encode rest)

theorem Cut.cons {text : List Char} {before behind : Bytes} (h : Cut text before behind) (c : Char) :
    Cut (c :: text) (String.utf8EncodeChar c ++ before) behind := by
  cases h with
  | between text rest => exact .between (c :: text) rest
  | @within text c' rest head tail hbytes hhead htail =>
      rw [← List.append_assoc]
      exact .within (c :: text) rest hbytes hhead htail

theorem cut_of_append {text : List Char} {before behind : Bytes}
    (h : encode text = before ++ behind) : Cut text before behind := by
  induction text generalizing before with
  | nil =>
      obtain ⟨hbefore, hbehind⟩ := List.append_eq_nil_iff.mp h.symm
      rw [hbefore, hbehind]
      exact .between [] []
  | cons c text ih =>
      have hcons : String.utf8EncodeChar c ++ encode text = before ++ behind := h
      rcases List.append_eq_append_iff.mp hcons with ⟨more, hbefore, htext⟩ | ⟨tail, hc, hbehind⟩
      · rw [hbefore]
        exact (ih htext).cons c
      · by_cases hhead : before = []
        · rw [hhead, List.nil_append] at hc
          rw [hhead, hbehind, ← hc]
          exact .between [] (c :: text)
        by_cases htail : tail = []
        · rw [htail, List.append_nil] at hc
          rw [hbehind, htail, ← hc]
          have hone := Cut.between [c] text
          rwa [show encode [c] = String.utf8EncodeChar c from List.append_nil _] at hone
        · rw [hbehind]
          exact .within [] text hc hhead htail

/-- How many characters of a text are not white space. -/
def ink (text : List Char) : Nat := text.countP fun c => !Str.isWhitespace c

theorem ink_append (text rest : List Char) : ink (text ++ rest) = ink text + ink rest :=
  List.countP_append

theorem ink_replacements (n : Nat) : ink (List.replicate n replacementChar) = n := by
  unfold ink
  rw [List.countP_replicate, if_pos (by decide)]

theorem ink_singleton_le (c : Char) : ink [c] ≤ 1 := List.countP_le_length

/-- What is decoded of a text behind a cut: as many marks as are in the text at least, and
only as many if every piece is of whole characters. -/
theorem ink_le_decoded (pieces : List Bytes) (tail : Bytes) (text : List Char)
    (htail : ∀ b ∈ tail, isContinuationByte b = true)
    (hpieces : pieces.flatten = tail ++ encode text) :
    tail.length + ink text ≤ ink (pieces.flatMap utf8Lossy) ∧
      (ink (pieces.flatMap utf8Lossy) ≤ ink text → ∀ piece ∈ pieces, WholeChars piece) := by
  induction pieces generalizing tail text with
  | nil =>
      obtain ⟨htail, htext⟩ := List.append_eq_nil_iff.mp hpieces.symm
      have hnil : text = [] := by rw [← utf8Lossy_encode text, htext]; rfl
      rw [htail, hnil]
      exact ⟨Nat.le_refl _, fun _ _ hmem => nomatch hmem⟩
  | cons piece pieces ih =>
      rw [List.flatten_cons] at hpieces
      rw [List.flatMap_cons, ink_append]
      rcases List.append_eq_append_iff.mp hpieces with ⟨more, htail', hrest⟩ | ⟨more, hpiece, hrest⟩
      · -- the piece ends within the character before
        have hcont := List.forall_mem_append.mp (htail' ▸ htail)
        obtain ⟨hle, hwhole⟩ := ih more text hcont.2 hrest
        have hdecoded := utf8Lossy_continuations hcont.1 []
        rw [List.append_nil, show utf8Lossy [] = [] from rfl, List.append_nil] at hdecoded
        rw [hdecoded, ink_replacements, htail', List.length_append]
        refine ⟨by omega, fun h piece' hmem => ?_⟩
        have hnil : piece = [] := List.length_eq_zero_iff.mp (by omega)
        rcases List.mem_cons.mp hmem with hmem | hmem
        · exact ⟨[], by rw [hmem, hnil]; rfl⟩
        · exact hwhole (by omega) piece' hmem
      · rw [hpiece, utf8Lossy_continuations htail, ink_append, ink_replacements]
        generalize hflat : pieces.flatten = behind at hrest
        cases cut_of_append hrest with
        | between before rest =>
            obtain ⟨hle, hwhole⟩ := ih [] rest (fun _ hb => nomatch hb) hflat
            rw [List.length_nil] at hle
            rw [utf8Lossy_encode, ink_append]
            refine ⟨by omega, fun h piece' hmem => ?_⟩
            have hnil : tail = [] := List.length_eq_zero_iff.mp (by omega)
            rcases List.mem_cons.mp hmem with hmem | hmem
            · exact ⟨before, by rw [hmem, hnil]; rfl⟩
            · exact hwhole (by omega) piece' hmem
        | @within before c rest head tail' hbytes hhead htail' =>
            obtain ⟨hle, _⟩ := ih tail' rest (continuation_of_cut hbytes hhead) hflat
            have hpos := List.length_pos_of_ne_nil htail'
            have hone := ink_singleton_le c
            have hcons : ink (c :: rest) = ink [c] + ink rest := ink_append [c] rest
            have hcut : ink [replacementChar] = 1 := ink_replacements 1
            rw [utf8Lossy_encode_append, utf8Lossy_cut hbytes hhead htail', ink_append, ink_append,
              hcons, hcut]
            exact ⟨by omega, fun h => by omega⟩

/-- Pieces of whole characters are decoded to the text. -/
theorem decoded_of_whole {pieces : List Bytes} {text : List Char}
    (hpieces : pieces.flatten = encode text) (hwhole : ∀ piece ∈ pieces, WholeChars piece) :
    pieces.flatMap utf8Lossy = text := by
  have hback : encode (pieces.flatMap utf8Lossy) = pieces.flatten := by
    clear hpieces
    induction pieces with
    | nil => rfl
    | cons piece pieces ih =>
        obtain ⟨part, hpart⟩ := hwhole piece List.mem_cons_self
        rw [List.flatMap_cons, encode_append, List.flatten_cons,
          ih fun p hp => hwhole p (List.mem_cons_of_mem piece hp), hpart, utf8Lossy_encode]
  rw [← utf8Lossy_encode (pieces.flatMap utf8Lossy), hback, hpieces, utf8Lossy_encode]

end Jmux.Remote
