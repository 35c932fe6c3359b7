/-
  Jmux.Remote.HexToken — what `hex_decode` (`socket/auth.rs`) accepts.

  The length is checked in bytes and the loop takes characters, two at a time.  A
  character of two or four bytes behind the pairs passes the check, and the loop ends
  at it without an error.

  Main results:
    * `hexDecode_eq_decode_iff` — where it is the strict reader, as the client has it.
    * `hex_decode_exact_iff`    — where it accepts the written texts, in either case,
                                   and no others.
-/
import Jmux.Remote.RelayAuth

namespace Jmux.Remote

open Jmux.Lib

/-! ## §1. A character left over. -/

/-- Pairs of digits, and behind them one character of two or four bytes. -/
def EndsInHalfPair (s : String) : Prop :=
  ∃ digits c, s.toList = digits ++ [c] ∧ digits.length % 2 = 0 ∧
    (∀ d ∈ digits, (Hex.toDigit d).isSome = true) ∧ c.utf8Size % 2 = 0

/-- Such a text is read as its pairs. -/
theorem hexDecode_of_endsInHalfPair {s : String} (h : EndsInHalfPair s) :
    (hexDecode s).isSome = true ∧ Hex.decode s = none := by
  obtain ⟨digits, c, hs, heven, hdigits, hsize⟩ := h
  have hpairs : (Hex.decodeChars digits).isSome = true :=
    Hex.isSome_decodeChars_iff.mpr ⟨heven, hdigits⟩
  constructor
  · obtain ⟨data, hdata⟩ := Option.isSome_iff_exists.mp hpairs
    have hascii := (Hex.utf8Size_of_decode hdata).2
    have hbytes : s.utf8ByteSize % 2 = 0 := by
      rw [CharIndex.utf8ByteSize_eq_byteLen, hs, CharIndex.byteLen_append,
        CharIndex.byteLen_of_ascii hascii]
      show (digits.length + (c.utf8Size + 0)) % 2 = 0
      omega
    unfold hexDecode
    rw [if_pos hbytes, hs, @hexDecodeChars_append digits [c] heven (Nat.le_refl 1)]
    exact hpairs
  · have hodd : ¬ (Hex.decodeChars (digits ++ [c])).isSome = true := by
      rw [Hex.isSome_decodeChars_iff, List.length_append, List.length_singleton]
      intro h
      omega
    unfold Hex.decode
    rw [hs]
    exact Option.not_isSome_iff_eq_none.mp hodd

/-- No other text is read beyond what the strict reader reads. -/
theorem endsInHalfPair_of_read {s : String} (hread : hexDecode s ≠ none)
    (hnone : Hex.decode s = none) : EndsInHalfPair s := by
  have hbytes : s.utf8ByteSize % 2 = 0 := by
    by_contra hodd
    exact hread (if_neg hodd)
  unfold hexDecode at hread
  rw [if_pos hbytes] at hread
  by_cases heven : s.toList.length % 2 = 0
  · rw [hexDecodeChars_of_even heven] at hread
    exact absurd hnone hread
  · -- the last character is not looked at
    rcases List.eq_nil_or_concat' s.toList with hnil | ⟨digits, c, hs⟩
    · rw [hnil] at heven
      exact absurd rfl heven
    · have hfront : digits.length % 2 = 0 := by
        rw [hs, List.length_append, List.length_singleton] at heven
        omega
      rw [hs, @hexDecodeChars_append digits [c] hfront (Nat.le_refl 1)] at hread
      obtain ⟨data, hdata⟩ := Option.ne_none_iff_exists'.mp hread
      have hascii := (Hex.utf8Size_of_decode hdata).2
      have hdigits := Hex.isSome_decodeChars_iff.mp (Option.isSome_iff_ne_none.mpr hread)
      refine ⟨digits, c, hs, hfront, hdigits.2, ?_⟩
      rw [CharIndex.utf8ByteSize_eq_byteLen, hs, CharIndex.byteLen_append,
        CharIndex.byteLen_of_ascii hascii] at hbytes
      have hsum : (digits.length + (c.utf8Size + 0)) % 2 = 0 := hbytes
      omega

/-- Every other text is read as by the strict reader. -/
theorem hexDecode_eq_decode {s : String} (h : ¬ EndsInHalfPair s) : hexDecode s = Hex.decode s := by
  cases hdecode : Hex.decode s with
  | some key => exact hexDecode_of_decode hdecode
  | none =>
      by_contra hread
      exact h (endsInHalfPair_of_read hread hdecode)

/-- **The relay and the client read the same key**, except from such a text. -/
theorem hexDecode_eq_decode_iff (s : String) : hexDecode s = Hex.decode s ↔ ¬ EndsInHalfPair s := by
  constructor
  · intro heq h
    obtain ⟨hsome, hnone⟩ := hexDecode_of_endsInHalfPair h
    rw [heq, hnone] at hsome
    exact nomatch hsome
  · exact hexDecode_eq_decode

/-! ## §2. What is accepted. -/

/-- The text is read as the bytes that are written so, in either case; one of odd length,
or with another character than a digit, is not read. -/
structure ReadsHex (s : String) : Prop where
  exact    : ∀ data, hexDecode s = some data ↔ Hex.EqIgnoreAsciiCase s (Hex.encode data)
  rejected : s.utf8ByteSize % 2 = 1 ∨ s.toList.length % 2 = 1 ∨
    (∃ c ∈ s.toList, Hex.toDigit c = none) → hexDecode s = none

theorem readsHex_of_decode {s : String} (h : hexDecode s = Hex.decode s) : ReadsHex s where
  exact data := by
    rw [h]
    exact Hex.decode_eq_some_iff
  rejected hbad := by
    rw [h]
    by_contra hsome
    obtain ⟨data, hdata⟩ := Option.ne_none_iff_exists'.mp hsome
    obtain ⟨heven, hdigits⟩ :=
      Hex.isSome_decodeChars_iff.mp (Option.isSome_iff_exists.mpr ⟨data, hdata⟩)
    have hascii := (Hex.utf8Size_of_decode hdata).2
    have hbytes : s.utf8ByteSize = s.toList.length := by
      rw [CharIndex.utf8ByteSize_eq_byteLen, CharIndex.byteLen_of_ascii hascii]
    rcases hbad with hodd | hodd | ⟨c, hc, hnone⟩
    · omega
    · omega
    · have hdigit := hdigits c hc
      rw [hnone] at hdigit
      exact nomatch hdigit

/-- **`hex_decode` accepts exactly what `hex_encode` writes**, in either case, unless the
text ends in half a pair of more than one byte; what was written is always read. -/
theorem hex_decode_exact_iff (s : String) (data : Bytes) :
    hexDecode (Hex.encode data) = some data ∧ (ReadsHex s ↔ ¬ EndsInHalfPair s) := by
  refine ⟨hexDecode_of_decode (Hex.decode_encode data), ?_⟩
  rw [← hexDecode_eq_decode_iff]
  constructor
  · intro h
    refine Option.ext fun bytes => ?_
    rw [h.exact, Hex.decode_eq_some_iff]
  · exact readsHex_of_decode

/-- One letter of two bytes is read as no bytes, and behind a pair as the pair. -/
theorem half_pair_accepted :
    hexDecode "é" = some [] ∧ ¬ Hex.EqIgnoreAsciiCase "é" (Hex.encode []) ∧
    hexDecode "abé" = some [0xab] ∧ ¬ Hex.EqIgnoreAsciiCase "abé" (Hex.encode [0xab]) ∧
    Hex.toDigit 'é' = none := by
  decide

end Jmux.Remote
