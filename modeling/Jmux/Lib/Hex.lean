/-
  Jmux.Lib.Hex — bytes as hexadecimal text.

  `encode` writes two lower-case digits a byte.  `decode` is the strict reader:
  digits of either case, an even number of them, and nothing else.

  Main results:
    * `decode_encode`        — reading gives back the bytes that were written.
    * `decode_eq_some_iff`   — the texts that are read are the written ones, in either case.
-/
import Jmux.Lib.Str
import Mathlib.Data.List.Basic
import Mathlib.Data.String.Basic

namespace Jmux.Lib.Hex

/-! ## §1. Digits. -/

/-- The lower-case digit of a number under 16. -/
def digit (n : Nat) : Char := if n < 10 then Char.ofNat (48 + n) else Char.ofNat (87 + n)

/-- `char::to_digit(16)`. -/
def toDigit (c : Char) : Option Nat :=
  let n := c.toNat
  if 48 ≤ n ∧ n ≤ 57 then some (n - 48)
  else if 97 ≤ n ∧ n ≤ 102 then some (n - 87)
  else if 65 ≤ n ∧ n ≤ 70 then some (n - 55)
  else none

theorem toDigit_digit {n : Nat} (h : n < 16) : toDigit (digit n) = some n := by
  have hall : ∀ n : Fin 16, toDigit (digit n) = some n.val := by decide
  exact hall ⟨n, h⟩

/-- The three ranges of digits. -/
theorem toDigit_eq_some_range {c : Char} {n : Nat} : toDigit c = some n ↔
    (c.toNat = 48 + n ∧ n < 10) ∨ (c.toNat = 87 + n ∧ 10 ≤ n ∧ n < 16) ∨
      (c.toNat = 55 + n ∧ 10 ≤ n ∧ n < 16) := by
  unfold toDigit
  dsimp only
  split_ifs with hdecimal hsmall hcapital
  · rw [Option.some.injEq]
    omega
  · rw [Option.some.injEq]
    omega
  · rw [Option.some.injEq]
    omega
  · refine iff_of_false (fun h => nomatch h) fun h => ?_
    omega

/-- A digit is an ASCII character. -/
theorem utf8Size_of_toDigit {c : Char} {n : Nat} (h : toDigit c = some n) : c.utf8Size = 1 := by
  have hle : c.toNat ≤ 127 := by
    rw [toDigit_eq_some_range] at h
    omega
  rw [Char.utf8Size_eq_one_iff]
  exact UInt32.le_iff_toNat_le.mpr hle

/-! ## §2. Writing and reading. -/

def encodeByte (b : UInt8) : List Char := [digit (b.toNat / 16), digit (b.toNat % 16)]

def encode (data : List UInt8) : String := String.ofList (data.flatMap encodeByte)

/-- The byte of two digits. -/
def byte (a b : Char) : Option UInt8 :=
  (toDigit a).bind fun hi => (toDigit b).map fun lo => UInt8.ofNat (16 * hi + lo)

def decodeChars : List Char → Option (List UInt8)
  | [] => some []
  | [_] => none
  | a :: b :: cs => (byte a b).bind fun x => (decodeChars cs).map (x :: ·)

def decode (s : String) : Option (List UInt8) := decodeChars s.toList

/-! ## §3. Reading what was written. -/

theorem byte_encodeByte (b : UInt8) :
    byte (digit (b.toNat / 16)) (digit (b.toNat % 16)) = some b := by
  have hb : b.toNat < 256 := b.toNat_lt
  have hhi : b.toNat / 16 < 16 := by omega
  have hlo : b.toNat % 16 < 16 := by omega
  unfold byte
  rw [toDigit_digit hhi, toDigit_digit hlo]
  show some (UInt8.ofNat (16 * (b.toNat / 16) + b.toNat % 16)) = some b
  rw [Nat.div_add_mod, UInt8.ofNat_toNat]

theorem decodeChars_encode (data : List UInt8) :
    decodeChars (data.flatMap encodeByte) = some data := by
  induction data with
  | nil => rfl
  | cons b data ih =>
      rw [List.flatMap_cons]
      show (byte _ _).bind (fun x => (decodeChars (data.flatMap encodeByte)).map (x :: ·)) = _
      rw [byte_encodeByte, ih]
      rfl

/-- **Reading gives back what was written.** -/
theorem decode_encode (data : List UInt8) : decode (encode data) = some data := by
  unfold decode encode
  rw [String.toList_ofList]
  exact decodeChars_encode data

/-- What is written are digits. -/
theorem mem_encode {data : List UInt8} {c : Char} (h : c ∈ (encode data).toList) :
    ∃ n < 16, c = digit n := by
  unfold encode at h
  rw [String.toList_ofList] at h
  obtain ⟨b, _, hc⟩ := List.mem_flatMap.mp h
  have hb : b.toNat < 256 := b.toNat_lt
  rcases List.mem_cons.mp hc with rfl | hc
  · exact ⟨b.toNat / 16, by omega, rfl⟩
  · exact ⟨b.toNat % 16, by omega, List.mem_singleton.mp hc⟩

/-- Text that can be read has ASCII characters only. -/
theorem utf8Size_of_decode {cs : List Char} {data : List UInt8}
    (h : decodeChars cs = some data) : cs.length = 2 * data.length ∧ ∀ c ∈ cs, c.utf8Size = 1 := by
  induction cs using decodeChars.induct generalizing data with
  | case1 =>
      cases h
      exact ⟨rfl, fun c hc => (by cases hc)⟩
  | case2 c => cases h
  | case3 a b cs ih =>
      unfold decodeChars byte at h
      obtain ⟨x, hx, hrest⟩ := Option.bind_eq_some_iff.mp h
      obtain ⟨rest, hdecode, rfl⟩ := Option.map_eq_some_iff.mp hrest
      obtain ⟨hi, ha, hlo⟩ := Option.bind_eq_some_iff.mp hx
      obtain ⟨lo, hb, _⟩ := Option.map_eq_some_iff.mp hlo
      obtain ⟨hlen, hall⟩ := ih hdecode
      refine ⟨?_, fun c hc => ?_⟩
      · simp only [List.length_cons, hlen]
        omega
      · rcases List.mem_cons.mp hc with rfl | hc
        · exact utf8Size_of_toDigit ha
        · rcases List.mem_cons.mp hc with rfl | hc
          · exact utf8Size_of_toDigit hb
          · exact hall c hc

/-- The texts that can be read: digits, an even number of them. -/
theorem isSome_decodeChars_iff {cs : List Char} : (decodeChars cs).isSome = true ↔
    cs.length % 2 = 0 ∧ ∀ c ∈ cs, (toDigit c).isSome = true := by
  induction cs using decodeChars.induct with
  | case1 => simp [decodeChars]
  | case2 c => simp [decodeChars]
  | case3 a b cs ih =>
      have hlength : (a :: b :: cs).length % 2 = cs.length % 2 := by
        simp only [List.length_cons]
        omega
      rw [hlength, List.forall_mem_cons, List.forall_mem_cons, and_left_comm,
        @and_left_comm (_ = 0), ← ih]
      show ((byte a b).bind fun x => (decodeChars cs).map (x :: ·)).isSome = true ↔ _
      unfold byte
      cases toDigit a with
      | none => simp
      | some hi =>
          cases toDigit b with
          | none => simp
          | some lo => simp

/-! ## §4. Upper and lower case. -/

/-- `str::eq_ignore_ascii_case`. -/
def EqIgnoreAsciiCase (s t : String) : Prop :=
  s.toList.map Str.toAsciiLowercase = t.toList.map Str.toAsciiLowercase

instance (s t : String) : Decidable (EqIgnoreAsciiCase s t) :=
  inferInstanceAs (Decidable (s.toList.map _ = t.toList.map _))

theorem toNat_digit {n : Nat} (h : n < 16) :
    (digit n).toNat = if n < 10 then 48 + n else 87 + n := by
  have hall : ∀ n : Fin 16, (digit n).toNat = if n.val < 10 then 48 + n.val else 87 + n.val := by
    decide
  exact hall ⟨n, h⟩

/-- **What is read as a digit** is the digit, or its capital letter. -/
theorem toDigit_eq_some_iff {c : Char} {n : Nat} :
    toDigit c = some n ↔ n < 16 ∧ Str.toAsciiLowercase c = digit n := by
  rw [toDigit_eq_some_range, ← Char.toNat_inj, Str.toNat_toAsciiLowercase]
  constructor
  · intro h
    have hn : n < 16 := by omega
    refine ⟨hn, ?_⟩
    rw [toNat_digit hn]
    split_ifs <;> omega
  · rintro ⟨hn, h⟩
    rw [toNat_digit hn] at h
    split_ifs at h <;> omega

/-- A byte is read from its two digits in either case. -/
theorem byte_eq_some_iff {a b : Char} {x : UInt8} :
    byte a b = some x ↔ [a, b].map Str.toAsciiLowercase = encodeByte x := by
  have hx : x.toNat < 256 := x.toNat_lt
  have hpair : [a, b].map Str.toAsciiLowercase = encodeByte x ↔
      Str.toAsciiLowercase a = digit (x.toNat / 16) ∧
      Str.toAsciiLowercase b = digit (x.toNat % 16) := by
    simp [encodeByte]
  rw [hpair]
  constructor
  · intro h
    obtain ⟨hi, ha, hrest⟩ := Option.bind_eq_some_iff.mp h
    obtain ⟨lo, hb, rfl⟩ := Option.map_eq_some_iff.mp hrest
    obtain ⟨hhi, ha⟩ := toDigit_eq_some_iff.mp ha
    obtain ⟨hlo, hb⟩ := toDigit_eq_some_iff.mp hb
    have hsmall : 16 * hi + lo < UInt8.size := by
      show 16 * hi + lo < 256
      omega
    have hsum : (UInt8.ofNat (16 * hi + lo)).toNat = 16 * hi + lo :=
      UInt8.toNat_ofNat_of_lt' hsmall
    rw [hsum, show (16 * hi + lo) / 16 = hi by omega, show (16 * hi + lo) % 16 = lo by omega]
    exact ⟨ha, hb⟩
  · rintro ⟨ha, hb⟩
    unfold byte
    rw [toDigit_eq_some_iff.mpr ⟨by omega, ha⟩, toDigit_eq_some_iff.mpr ⟨by omega, hb⟩]
    show some (UInt8.ofNat (16 * (x.toNat / 16) + x.toNat % 16)) = some x
    rw [Nat.div_add_mod, UInt8.ofNat_toNat]

theorem decodeChars_eq_some_iff {cs : List Char} {data : List UInt8} :
    decodeChars cs = some data ↔ cs.map Str.toAsciiLowercase = data.flatMap encodeByte := by
  induction cs using decodeChars.induct generalizing data with
  | case1 =>
      cases data with
      | nil => exact iff_of_true rfl rfl
      | cons x data => exact iff_of_false (fun h => nomatch h) (fun h => nomatch h)
  | case2 c =>
      refine iff_of_false (fun h => nomatch h) fun h => ?_
      -- two characters a byte
      cases data with
      | nil => exact nomatch h
      | cons x data => exact nomatch (List.cons.inj h).2
  | case3 a b cs ih =>
      cases data with
      | nil =>
          refine iff_of_false (fun h => ?_) (fun h => nomatch h)
          obtain ⟨x, -, hrest⟩ := Option.bind_eq_some_iff.mp h
          obtain ⟨rest, -, hcons⟩ := Option.map_eq_some_iff.mp hrest
          exact nomatch hcons
      | cons x data =>
          have hsplit : (a :: b :: cs).map Str.toAsciiLowercase = (x :: data).flatMap encodeByte ↔
              [a, b].map Str.toAsciiLowercase = encodeByte x ∧
              cs.map Str.toAsciiLowercase = data.flatMap encodeByte := by
            simp [encodeByte, and_assoc]
          rw [hsplit, ← byte_eq_some_iff, ← ih]
          constructor
          · intro h
            obtain ⟨y, hy, hrest⟩ := Option.bind_eq_some_iff.mp h
            obtain ⟨rest, hdecode, hcons⟩ := Option.map_eq_some_iff.mp hrest
            obtain ⟨rfl, rfl⟩ := List.cons.inj hcons
            exact ⟨hy, hdecode⟩
          · rintro ⟨hx, hdecode⟩
            show (byte a b).bind (fun x => (decodeChars cs).map (x :: ·)) = _
            rw [hx, hdecode]
            rfl

/-- What is written is in lower case. -/
theorem lower_encode (data : List UInt8) :
    (encode data).toList.map Str.toAsciiLowercase = data.flatMap encodeByte := by
  rw [← decodeChars_eq_some_iff]
  exact decode_encode data

/-- **The texts that are read** are the ones that were written, in either case. -/
theorem decode_eq_some_iff {s : String} {data : List UInt8} :
    decode s = some data ↔ EqIgnoreAsciiCase s (encode data) := by
  unfold EqIgnoreAsciiCase
  rw [lower_encode]
  exact decodeChars_eq_some_iff

end Jmux.Lib.Hex

namespace Jmux.Lib

/-! ## §5. UUIDs. -/

/-- Sixteen random bytes, as `Uuid::new_v4()` draws them. -/
structure UuidBytes where
  bytes : List UInt8
  size  : bytes.length = 16
  deriving DecidableEq

namespace UuidBytes

/-- `Uuid::to_string`. -/
def toText (u : UuidBytes) : String :=
  Hex.encode (u.bytes.take 4) ++ "-" ++ Hex.encode ((u.bytes.drop 4).take 2) ++ "-"
    ++ Hex.encode ((u.bytes.drop 6).take 2) ++ "-" ++ Hex.encode ((u.bytes.drop 8).take 2) ++ "-"
    ++ Hex.encode (u.bytes.drop 10)

/-- The characters of a UUID are digits and hyphens. -/
theorem mem_toText {u : UuidBytes} {c : Char} (h : c ∈ u.toText.toList) :
    c = '-' ∨ ∃ n < 16, c = Hex.digit n := by
  unfold toText at h
  simp only [String.toList_append, List.mem_append] at h
  have hyphen : c ∈ "-".toList → c = '-' := fun h => List.mem_singleton.mp h
  rcases h with (((((((h | h) | h) | h) | h) | h) | h) | h) | h
  · exact .inr (Hex.mem_encode h)
  · exact .inl (hyphen h)
  · exact .inr (Hex.mem_encode h)
  · exact .inl (hyphen h)
  · exact .inr (Hex.mem_encode h)
  · exact .inl (hyphen h)
  · exact .inr (Hex.mem_encode h)
  · exact .inl (hyphen h)
  · exact .inr (Hex.mem_encode h)

/-- A UUID has the hyphens at least. -/
theorem toText_ne_nil (u : UuidBytes) : u.toText.toList ≠ [] := by
  unfold toText
  simp

end UuidBytes

end Jmux.Lib
