/-
  Jmux.Lib.Numeral — numbers as decimal and hexadecimal text, read back.

  Main results:
    * `parseUsize_toString` — decimal.
    * `hexValue_hexDigits` — upper-case hexadecimal digits of a fixed width.
-/
import Jmux.Lib.Hex
import Jmux.Lib.Str

namespace Jmux.Lib

/-! ## §1. Decimal. -/

/-- The character of a decimal digit. -/
theorem digits_eq_ofDigitChars {cs : List Char} (h : ∀ c ∈ cs, c.isDigit = true) (acc : Nat) :
    Str.digits acc cs = some (Nat.ofDigitChars 10 cs acc) := by
  induction cs generalizing acc with
  | nil => rfl
  | cons c cs ih =>
      have hc : '0' ≤ c ∧ c ≤ '9' := by
        have hdigit := h c List.mem_cons_self
        simp only [Char.isDigit, Bool.and_eq_true, decide_eq_true_eq] at hdigit
        exact hdigit
      rw [Str.digits, if_pos hc, ih fun d hd => h d (List.mem_cons_of_mem c hd),
        Nat.ofDigitChars_cons, Nat.mul_comm]

theorem toList_toString (n : Nat) : (toString n).toList = Nat.toDigits 10 n := by
  show (Nat.repr n).toList = _
  rw [Nat.repr, String.toList_ofList]

theorem isDigit_of_mem_toString {n : Nat} {c : Char} (h : c ∈ (toString n).toList) :
    c.isDigit = true := by
  rw [toList_toString] at h
  exact Nat.isDigit_of_mem_toDigits (by decide) (by decide) h

/-- A number is read from the digits it is written in. -/
theorem digits_toString (n : Nat) : Str.digits 0 (toString n).toList = some n := by
  rw [digits_eq_ofDigitChars fun c hc => isDigit_of_mem_toString hc, toList_toString,
    Nat.ofDigitChars_ten_toDigits]

theorem toString_ne_nil (n : Nat) : (toString n).toList ≠ [] := by
  rw [toList_toString]
  exact Nat.toDigits_ne_nil

/-- There is no sign in front. -/
theorem stripPrefix_plus_toString (n : Nat) :
    Str.stripPrefix ['+'] (toString n).toList = none := by
  cases hcs : (toString n).toList with
  | nil => exact absurd hcs (toString_ne_nil n)
  | cons c cs =>
      have hc : c.isDigit = true := isDigit_of_mem_toString (n := n) (hcs ▸ List.mem_cons_self)
      have hne : ('+' == c) = false := by
        refine beq_false_of_ne fun h => ?_
        rw [← h] at hc
        cases hc
      simp [Str.stripPrefix, List.isPrefixOf, hne]

theorem parseUsize_toString {n : Nat} (h : n < 2 ^ 64) :
    Str.parseUsize (toString n).toList = some n := by
  unfold Str.parseUsize
  rw [stripPrefix_plus_toString, Option.getD_none, if_neg (toString_ne_nil n), digits_toString]
  simpa using h

theorem parseU32_toString {n : Nat} (h : n < 2 ^ 32) :
    Str.parseU32 (toString n).toList = some n := by
  unfold Str.parseU32
  rw [stripPrefix_plus_toString, Option.getD_none, if_neg (toString_ne_nil n), digits_toString]
  simpa using h

/-- A number that is not negative is written like a natural number. -/
theorem toList_toString_natCast (n : Nat) :
    (toString (n : Int)).toList = (toString n).toList := rfl

theorem toList_toString_neg (n : Nat) :
    (toString (-(n + 1 : Nat) : Int)).toList = '-' :: (toString (n + 1)).toList := by
  show ("-" ++ Nat.repr (n + 1)).toList = _
  rw [String.toList_append]
  rfl

/-- No unsigned number has a minus sign. -/
theorem parseUsize_neg (cs : List Char) : Str.parseUsize ('-' :: cs) = none := by
  simp [Str.parseUsize, Str.stripPrefix, List.isPrefixOf, Str.digits]

theorem parseI64_toString {n : Int} (hlow : -2 ^ 63 ≤ n) (hhigh : n < 2 ^ 63) :
    Str.parseI64 (toString n).toList = some n := by
  obtain ⟨m, rfl | rfl⟩ := n.eq_nat_or_neg
  · have hstrip : Str.stripPrefix ['-'] (toString m).toList = none := by
      cases hcs : (toString m).toList with
      | nil => exact absurd hcs (toString_ne_nil m)
      | cons c cs =>
          have hc : c.isDigit = true := isDigit_of_mem_toString (n := m) (hcs ▸ List.mem_cons_self)
          have hne : ('-' == c) = false := by
            refine beq_false_of_ne fun h => ?_
            rw [← h] at hc
            cases hc
          simp [Str.stripPrefix, List.isPrefixOf, hne]
    rw [toList_toString_natCast, Str.parseI64, hstrip]
    simp only
    rw [parseUsize_toString (by omega)]
    simpa using hhigh
  · cases m with
    | zero => decide
    | succ m =>
        rw [toList_toString_neg]
        have hbody : Str.stripPrefix ['-'] ('-' :: (toString (m + 1)).toList) =
            some (toString (m + 1)).toList := by
          simp [Str.stripPrefix, List.isPrefixOf]
        rw [Str.parseI64, hbody]
        simp only
        rw [if_neg (toString_ne_nil (m + 1)), digits_toString]
        simpa using hlow

/-! ## §2. Hexadecimal. -/

/-- The upper-case digit of a number under 16. -/
def upperDigit (n : Nat) : Char := if n < 10 then Char.ofNat (48 + n) else Char.ofNat (55 + n)

/-- The last `width` digits (`%02X`, `%04X` for a number that fits). -/
def hexDigits : Nat → Nat → List Char
  | 0, _ => []
  | width + 1, n => hexDigits width (n / 16) ++ [upperDigit (n % 16)]

/-- The hexadecimal digits of `cs` as a number, on top of `acc`. -/
def hexValue : Nat → List Char → Option Nat
  | acc, [] => some acc
  | acc, c :: cs => (Hex.toDigit c).bind fun d => hexValue (acc * 16 + d) cs

/-- `u16::from_str_radix(.., 16)`: an optional `+`, at least one digit, no overflow. -/
def parseU16Hex (cs : List Char) : Option Nat :=
  let body := (Str.stripPrefix ['+'] cs).getD cs
  if body = [] then none else (hexValue 0 body).filter (· < 2 ^ 16)

theorem toDigit_upperDigit {n : Nat} (h : n < 16) : Hex.toDigit (upperDigit n) = some n := by
  have hall : ∀ n : Fin 16, Hex.toDigit (upperDigit n) = some n.val := by decide
  exact hall ⟨n, h⟩

theorem mem_hexDigits {width n : Nat} {c : Char} (h : c ∈ hexDigits width n) :
    ∃ d < 16, c = upperDigit d := by
  induction width generalizing n with
  | zero => cases h
  | succ width ih =>
      rcases List.mem_append.mp h with h | h
      · exact ih h
      · exact ⟨n % 16, Nat.mod_lt n (by decide), List.mem_singleton.mp h⟩

theorem length_hexDigits (width n : Nat) : (hexDigits width n).length = width := by
  induction width generalizing n with
  | zero => rfl
  | succ width ih => rw [hexDigits, List.length_append, ih, List.length_singleton]

theorem hexValue_append (as bs : List Char) (acc : Nat) :
    hexValue acc (as ++ bs) = (hexValue acc as).bind fun n => hexValue n bs := by
  induction as generalizing acc with
  | nil => rfl
  | cons a as ih =>
      rw [List.cons_append, hexValue, hexValue]
      cases Hex.toDigit a with
      | none => rfl
      | some d => exact ih (acc * 16 + d)

theorem hexValue_hexDigits (width n : Nat) : hexValue 0 (hexDigits width n) = some (n % 16 ^ width) := by
  induction width generalizing n with
  | zero => simp [hexDigits, hexValue, Nat.mod_one]
  | succ width ih =>
      have hdigit := toDigit_upperDigit (Nat.mod_lt n (by decide : 0 < 16))
      rw [hexDigits, hexValue_append, ih, Option.bind_some, hexValue, hdigit, Option.bind_some,
        hexValue]
      congr 1
      rw [Nat.pow_succ, Nat.mul_comm (16 ^ width) 16, Nat.mod_mul, Nat.mul_comm, Nat.add_comm]

/-- No digit is a sign. -/
theorem upperDigit_ne_plus {d : Nat} (h : d < 16) : upperDigit d ≠ '+' := by
  have hall : ∀ n : Fin 16, upperDigit n ≠ '+' := by decide
  exact hall ⟨d, h⟩

theorem parseU16Hex_hexDigits {n : Nat} (h : n < 2 ^ 16) : parseU16Hex (hexDigits 4 n) = some n := by
  have hstrip : Str.stripPrefix ['+'] (hexDigits 4 n) = none := by
    cases hcs : hexDigits 4 n with
    | nil =>
        have hlen := length_hexDigits 4 n
        rw [hcs] at hlen
        cases hlen
    | cons c cs =>
        obtain ⟨d, hd, rfl⟩ := mem_hexDigits (hcs ▸ List.mem_cons_self : c ∈ hexDigits 4 n)
        have hne : ('+' == upperDigit d) = false := beq_false_of_ne (upperDigit_ne_plus hd).symm
        simp [Str.stripPrefix, List.isPrefixOf, hne]
  have hne : hexDigits 4 n ≠ [] := List.ne_nil_of_length_pos (by rw [length_hexDigits]; decide)
  unfold parseU16Hex
  rw [hstrip, Option.getD_none, if_neg hne, hexValue_hexDigits, Nat.mod_eq_of_lt (by omega)]
  simpa using h

end Jmux.Lib
