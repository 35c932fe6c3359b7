/-
  Jmux.Model.PointerMenu — the selection menus of an agent's screen
  (`has_pointer_menu`, `claude_state.rs`).

  A menu is a block of lines numbered from 1, with a pointer before one of them.
  The numbers are `u32`, and so is the count, which begins again at 0 behind the
  last one.

  Main results:
    * `parseOption_eq_some_iff` — the lines that are options.
    * `pointerMenuIn_eq_search` — the loop is a greedy search for a numbered run.
    * `menuNumbered_of_short`   — on a screen the count is exact.
-/
import Jmux.Lib.NumberedRun
import Jmux.Lib.Str

namespace Jmux.Model

open Jmux.Lib

/-! ## §1. The functions. -/

def isPointer (c : Char) : Bool := c = '❯' || c = '>'

/-- The number of an option, from behind the pointer on. -/
def optionNumber (s : List Char) : Option UInt32 :=
  let digits := s.takeWhile Char.isDigit
  if digits = [] then none
  else
    match s.drop digits.length with
    | delim :: after =>
        if delim = '.' ∨ delim = ')' then
          if after.head?.any Str.isWhitespace = false
              ∨ Str.trimMatches Str.isWhitespace after = [] then none
          -- a number too large for `u32` is no option
          else (Str.parseU32 digits).map UInt32.ofNat
        else none
    | [] => none

/-- Whether the option is pointed at, and its number. -/
def parseOption (line : List Char) : Option (Bool × UInt32) :=
  let s := line.dropWhile Str.isWhitespace
  let pointed := s.head?.any isPointer
  let s := if pointed then (s.drop 1).dropWhile Str.isWhitespace else s
  (optionNumber s).map fun n => (pointed, n)

/-- The inner loop: whether one of its lines is pointed at, and how many there are. -/
def menuRun (expected : UInt32) : List (List Char) → Bool × Nat
  | line :: rest =>
      match parseOption line with
      | some (p, n) =>
          if n = expected then
            let (pointed, len) := menuRun (expected + 1) rest
            (p || pointed, len + 1)
          else (false, 0)
      | none => (false, 0)
  | [] => (false, 0)

/-- The outer loop, from a line on. -/
def pointerMenuIn : List (List Char) → Bool
  | [] => false
  | line :: rest =>
      let (pointed, len) := menuRun 1 (line :: rest)
      if 2 ≤ len ∧ pointed then true
      else pointerMenuIn ((line :: rest).drop (if 0 < len then len else 1))
termination_by lines => lines.length
decreasing_by
  rw [List.length_drop, List.length_cons]
  split <;> omega

def hasPointerMenu (text : String) : Bool := pointerMenuIn (Str.lines text)

/-! ## §2. The lines that are options. -/

/-- A number, a delimiter, and a label behind white space. -/
structure OptionBody (digits : List Char) (delim : Char) (label : List Char) (n : UInt32) :
    Prop where
  nonempty  : digits ≠ []
  allDigits : ∀ c ∈ digits, c.isDigit = true
  value     : Str.parseU32 digits = some n.toNat
  delimiter : delim = '.' ∨ delim = ')'
  space     : label.head?.any Str.isWhitespace = true
  solid     : ∃ c ∈ label, Str.isWhitespace c = false

inductive OptionLine : List Char → Bool → UInt32 → Prop
  | plain {indent digits label : List Char} {delim : Char} {n : UInt32} :
      (∀ c ∈ indent, Str.isWhitespace c = true) → OptionBody digits delim label n →
      OptionLine (indent ++ (digits ++ delim :: label)) false n
  | pointed {indent gap digits label : List Char} {pointer delim : Char} {n : UInt32} :
      (∀ c ∈ indent, Str.isWhitespace c = true) → isPointer pointer = true →
      (∀ c ∈ gap, Str.isWhitespace c = true) → OptionBody digits delim label n →
      OptionLine (indent ++ pointer :: (gap ++ (digits ++ delim :: label))) true n

theorem dropWhile_head {p : Char → Bool} {s : List Char} (h : ∀ c ∈ s.head?, p c = false) :
    s.dropWhile p = s := by
  cases s with
  | nil => rfl
  | cons c s => exact List.dropWhile_cons_of_neg (by simp [h c rfl])

theorem digit_range {c : Char} (h : c.isDigit = true) : 48 ≤ c.toNat ∧ c.toNat ≤ 57 := by
  simp only [Char.isDigit, Bool.and_eq_true, decide_eq_true_eq] at h
  exact h

theorem isWhitespace_of_digit {c : Char} (h : c.isDigit = true) : Str.isWhitespace c = false := by
  have hrange := digit_range h
  simp only [Str.isWhitespace, Bool.or_eq_false_iff, Bool.and_eq_false_iff, beq_eq_false_iff_ne,
    decide_eq_false_iff_not]
  omega

theorem isPointer_of_digit {c : Char} (h : c.isDigit = true) : isPointer c = false := by
  have hrange := digit_range h
  by_contra hpointer
  simp only [isPointer, Bool.not_eq_false, Bool.or_eq_true, decide_eq_true_eq] at hpointer
  rcases hpointer with hc | hc
  · rw [hc, show '❯'.toNat = 10095 from rfl] at hrange
    omega
  · rw [hc, show '>'.toNat = 62 from rfl] at hrange
    omega

theorem trimMatches_ne_nil_iff {label : List Char} :
    Str.trimMatches Str.isWhitespace label ≠ [] ↔ ∃ c ∈ label, Str.isWhitespace c = false := by
  rw [ne_eq, Str.trimMatches_eq_nil_iff]
  simp

theorem optionNumber_eq_some_iff {s : List Char} {n : UInt32} :
    optionNumber s = some n ↔
      ∃ digits delim label, s = digits ++ delim :: label ∧ OptionBody digits delim label n := by
  constructor
  · intro h
    have hsplit := @List.takeWhile_append_dropWhile _ Char.isDigit s
    have hdigits : ∀ c ∈ s.takeWhile Char.isDigit, c.isDigit = true := fun c hc =>
      List.mem_takeWhile_imp hc
    unfold optionNumber at h
    dsimp only at h
    generalize s.takeWhile Char.isDigit = digits at *
    rw [← hsplit, List.drop_left] at h
    split at h
    · cases h
    split at h
    · next hne _ delim label hbehind =>
        split at h
        · next hdelim =>
            split at h
            · cases h
            · next hlabel =>
                obtain ⟨m, hm, hn⟩ := Option.map_eq_some_iff.mp h
                rw [not_or] at hlabel
                have hlt := Str.parseU32_lt hm
                have hvalue : n.toNat = m := by
                  rw [← hn, UInt32.toNat_ofNat']
                  exact Nat.mod_eq_of_lt hlt
                exact ⟨digits, delim, label, by rw [← hsplit, hbehind], hne, hdigits,
                  by rw [hvalue]; exact hm, hdelim, by simpa using hlabel.1,
                  trimMatches_ne_nil_iff.mp hlabel.2⟩
        · cases h
    · cases h
  · intro h
    obtain ⟨digits, delim, label, hs, hbody⟩ := h
    have hdelim : delim.isDigit = false := by
      rcases hbody.delimiter with hdelim | hdelim <;> rw [hdelim] <;> rfl
    have hdigits : s.takeWhile Char.isDigit = digits := by
      rw [hs, List.takeWhile_append_of_pos hbody.allDigits,
        List.takeWhile_cons_of_neg (by simp [hdelim]), List.append_nil]
    have hlabel : ¬ (label.head?.any Str.isWhitespace = false ∨
        Str.trimMatches Str.isWhitespace label = []) := by
      rw [not_or]
      exact ⟨by simp [hbody.space], trimMatches_ne_nil_iff.mpr hbody.solid⟩
    unfold optionNumber
    dsimp only
    rw [hdigits, if_neg hbody.nonempty, hs, List.drop_left]
    dsimp only
    rw [if_pos hbody.delimiter, if_neg hlabel, hbody.value]
    simp

theorem OptionBody.head_digit {digits label : List Char} {delim : Char} {n : UInt32}
    (h : OptionBody digits delim label n) :
    ∀ c ∈ (digits ++ delim :: label).head?, c.isDigit = true := by
  intro c hc
  cases digits with
  | nil => exact absurd rfl h.nonempty
  | cons d digits =>
      rw [← Option.some.inj hc]
      exact h.allDigits d List.mem_cons_self

/-- White space is dropped up to the number. -/
theorem OptionBody.dropWhile_append {digits label : List Char} {delim : Char} {n : UInt32}
    (h : OptionBody digits delim label n) {space : List Char}
    (hspace : ∀ c ∈ space, Str.isWhitespace c = true) :
    (space ++ (digits ++ delim :: label)).dropWhile Str.isWhitespace =
      digits ++ delim :: label := by
  rw [List.dropWhile_append_of_pos hspace]
  exact dropWhile_head fun c hc => isWhitespace_of_digit (h.head_digit c hc)

theorem isWhitespace_of_isPointer {c : Char} (h : isPointer c = true) :
    Str.isWhitespace c = false := by
  simp only [isPointer, Bool.or_eq_true, decide_eq_true_eq] at h
  rcases h with hc | hc <;> rw [hc] <;> rfl

/-- The lines that are read as options. -/
theorem parseOption_eq_some_iff {line : List Char} {pointed : Bool} {n : UInt32} :
    parseOption line = some (pointed, n) ↔ OptionLine line pointed n := by
  constructor
  · intro h
    have hline := @List.takeWhile_append_dropWhile _ Str.isWhitespace line
    have hindent : ∀ c ∈ line.takeWhile Str.isWhitespace, Str.isWhitespace c = true := fun c hc =>
      List.mem_takeWhile_imp hc
    unfold parseOption at h
    dsimp only at h
    generalize line.takeWhile Str.isWhitespace = indent at *
    generalize line.dropWhile Str.isWhitespace = s at *
    obtain ⟨m, hm, heq⟩ := Option.map_eq_some_iff.mp h
    obtain ⟨hpointed, hn⟩ := Prod.mk.inj heq
    rw [hn] at hm
    by_cases hany : s.head?.any isPointer = true
    · rw [if_pos hany] at hm
      rw [← hpointed, hany]
      cases s with
      | nil => cases hany
      | cons pointer rest =>
          have hrest := @List.takeWhile_append_dropWhile _ Str.isWhitespace rest
          have hgap : ∀ c ∈ rest.takeWhile Str.isWhitespace, Str.isWhitespace c = true :=
            fun c hc => List.mem_takeWhile_imp hc
          obtain ⟨digits, delim, label, hs, hbody⟩ := optionNumber_eq_some_iff.mp hm
          have hdrop : rest.dropWhile Str.isWhitespace = digits ++ delim :: label := hs
          rw [← hline, ← hrest, hdrop]
          exact .pointed hindent (by simpa using hany) hgap hbody
    · rw [if_neg hany] at hm
      obtain ⟨digits, delim, label, hs, hbody⟩ := optionNumber_eq_some_iff.mp hm
      rw [← hpointed, Bool.eq_false_of_not_eq_true hany, ← hline, hs]
      exact .plain hindent hbody
  · intro h
    cases h with
    | @plain indent digits label delim n hindent hbody =>
        have hpointer : (digits ++ delim :: label).head?.any isPointer = false := by
          rw [Option.any_eq_false]
          intro c hc
          simp [isPointer_of_digit (hbody.head_digit c hc)]
        unfold parseOption
        dsimp only
        rw [hbody.dropWhile_append hindent, hpointer, if_neg Bool.false_ne_true,
          optionNumber_eq_some_iff.mpr ⟨digits, delim, label, rfl, hbody⟩]
        rfl
    | @pointed indent gap digits label pointer delim n hindent hpointer hgap hbody =>
        have hdrop : (indent ++ pointer :: (gap ++ (digits ++ delim :: label))).dropWhile
            Str.isWhitespace = pointer :: (gap ++ (digits ++ delim :: label)) := by
          rw [List.dropWhile_append_of_pos hindent]
          exact List.dropWhile_cons_of_neg (by simp [isWhitespace_of_isPointer hpointer])
        unfold parseOption
        dsimp only
        rw [hdrop, List.head?_cons, Option.any_some, hpointer, if_pos rfl, List.drop_succ_cons,
          List.drop_zero, hbody.dropWhile_append hgap,
          optionNumber_eq_some_iff.mpr ⟨digits, delim, label, rfl, hbody⟩]
        rfl

/-! ## §3. The loops. -/

def number (line : List Char) : Option UInt32 := (parseOption line).map (·.2)

def isPointed (line : List Char) : Bool := (parseOption line).any (·.1)

/-- The run of lines that the inner loop goes through. -/
def numberedRun (expected : UInt32) (lines : List (List Char)) : List (List Char) :=
  NumberedRun.takeRun number (· + 1) expected lines

theorem menuRun_eq (expected : UInt32) (lines : List (List Char)) :
    menuRun expected lines =
      ((numberedRun expected lines).any isPointed, (numberedRun expected lines).length) := by
  induction lines generalizing expected with
  | nil => rfl
  | cons line rest ih =>
      unfold menuRun
      cases hoption : parseOption line with
      | none =>
          have hstop : number line ≠ some expected := by simp [number, hoption]
          rw [numberedRun, NumberedRun.takeRun_stop hstop]
          rfl
      | some option =>
          obtain ⟨p, n⟩ := option
          have hpointed : isPointed line = p := by simp [isPointed, hoption]
          by_cases hn : n = expected
          · have hgoes : number line = some expected := by simp [number, hoption, hn]
            have hrun : numberedRun expected (line :: rest) =
                line :: numberedRun (expected + 1) rest := NumberedRun.takeRun_cons hgoes rest
            dsimp only
            rw [if_pos hn, hrun, ih, List.any_cons, List.length_cons, hpointed]
          · have hstop : number line ≠ some expected := by simpa [number, hoption] using hn
            dsimp only
            rw [if_neg hn, numberedRun, NumberedRun.takeRun_stop hstop]
            rfl

/-- At least two lines, one of them pointed at. -/
def isMenu (run : List (List Char)) : Bool := 2 ≤ run.length && run.any isPointed

theorem pointerMenuIn_eq_search (lines : List (List Char)) :
    pointerMenuIn lines = NumberedRun.search number (· + 1) isMenu 1 lines := by
  induction hn : lines.length using Nat.strong_induction_on generalizing lines with
  | _ n ih =>
      unfold pointerMenuIn NumberedRun.search
      cases lines with
      | nil => rfl
      | cons line rest =>
          have hrun : NumberedRun.takeRun number (· + 1) 1 (line :: rest) =
              numberedRun 1 (line :: rest) := rfl
          dsimp only
          rw [menuRun_eq, hrun]
          generalize numberedRun 1 (line :: rest) = run
          have hplace : (if 0 < run.length then run.length else 1) = max run.length 1 := by
            split <;> omega
          have hshort : ((line :: rest).drop (max run.length 1)).length < n := by
            rw [← hn, List.length_drop, List.length_cons]
            omega
          rw [hplace, ih _ hshort _ rfl]
          simp [isMenu]

theorem isMenu_mono {block run : List (List Char)} (h : block <:+: run)
    (hmenu : isMenu block = true) : isMenu run = true := by
  simp only [isMenu, Bool.and_eq_true, decide_eq_true_eq, List.any_eq_true] at hmenu ⊢
  obtain ⟨hlen, line, hline, hpointed⟩ := hmenu
  exact ⟨Nat.le_trans hlen h.length_le, line, h.subset hline, hpointed⟩

/-- The count, which begins again behind the last `u32`. -/
theorem toNat_count (i : Nat) : ((· + 1)^[i] (1 : UInt32)).toNat = (i + 1) % 2 ^ 32 := by
  induction i with
  | zero => rfl
  | succ i ih =>
      rw [Function.iterate_succ_apply', UInt32.toNat_add, ih]
      show ((i + 1) % 2 ^ 32 + 1) % 2 ^ 32 = _
      omega

/-! ## §4. Menus. -/

/-- A block of at least two lines that are options with these numbers, with one of them
pointed at. -/
def MenuNumbered (numbers : Nat → Nat) (lines : List (List Char)) : Prop :=
  ∃ block, block <:+: lines ∧ 2 ≤ block.length ∧
    (∀ i line, block[i]? = some line →
      ∃ pointed n, parseOption line = some (pointed, n) ∧ n.toNat = numbers i) ∧
    ∃ line ∈ block, ∃ n, parseOption line = some (true, n)

theorem number_eq_some_iff {line : List Char} {n : UInt32} :
    number line = some n ↔ ∃ pointed, parseOption line = some (pointed, n) := by
  unfold number
  rw [Option.map_eq_some_iff]
  constructor
  · intro h
    obtain ⟨option, hoption, hn⟩ := h
    exact ⟨option.1, by rw [hoption, ← hn]⟩
  · intro h
    obtain ⟨pointed, hoption⟩ := h
    exact ⟨(pointed, n), hoption, rfl⟩

theorem isPointed_iff {line : List Char} :
    isPointed line = true ↔ ∃ n, parseOption line = some (true, n) := by
  unfold isPointed
  rw [Option.any_eq_true]
  constructor
  · intro h
    obtain ⟨option, hoption, hpointed⟩ := h
    exact ⟨option.2, by rw [hoption, ← hpointed]⟩
  · intro h
    obtain ⟨n, hoption⟩ := h
    exact ⟨(true, n), hoption, rfl⟩

theorem pointerMenuIn_iff (lines : List (List Char)) :
    pointerMenuIn lines = true ↔ MenuNumbered (fun i => (i + 1) % 2 ^ 32) lines := by
  have hmono := fun block run h => @isMenu_mono block run h
  rw [pointerMenuIn_eq_search, NumberedRun.search_iff rfl hmono]
  apply exists_congr
  intro block
  have hnumbered : NumberedRun.Numbered number (· + 1) 1 block ↔
      ∀ i line, block[i]? = some line →
        ∃ pointed n, parseOption line = some (pointed, n) ∧ n.toNat = (i + 1) % 2 ^ 32 := by
    rw [NumberedRun.numbered_iff]
    apply forall_congr'
    intro i
    apply forall_congr'
    intro line
    apply imp_congr_right
    intro _
    rw [number_eq_some_iff]
    constructor
    · intro h
      obtain ⟨pointed, hoption⟩ := h
      exact ⟨pointed, _, hoption, toNat_count i⟩
    · intro h
      obtain ⟨pointed, n, hoption, hn⟩ := h
      exact ⟨pointed, by rw [hoption, UInt32.toNat_inj.mp (hn.trans (toNat_count i).symm)]⟩
  have hmenu : isMenu block = true ↔
      2 ≤ block.length ∧ ∃ line ∈ block, ∃ n, parseOption line = some (true, n) := by
    simp only [isMenu, Bool.and_eq_true, decide_eq_true_eq, List.any_eq_true, isPointed_iff]
  rw [hnumbered, hmenu]
  constructor
  · intro h
    exact ⟨h.1, h.2.2.1, h.2.1, h.2.2.2⟩
  · intro h
    exact ⟨h.1, h.2.2.1, h.2.1, h.2.2.2⟩

/-- With fewer lines than there are `u32` numbers, the count is exact. -/
theorem menuNumbered_of_short {lines : List (List Char)} (h : lines.length < 2 ^ 32) :
    MenuNumbered (fun i => (i + 1) % 2 ^ 32) lines ↔ MenuNumbered (fun i => i + 1) lines := by
  apply exists_congr
  intro block
  apply and_congr_right
  intro hblock
  have hlen := hblock.length_le
  have hcount : ∀ i line, block[i]? = some line → (i + 1) % 2 ^ 32 = i + 1 := by
    intro i line hline
    obtain ⟨hi, _⟩ := List.getElem?_eq_some_iff.mp hline
    omega
  apply and_congr_right
  intro _
  apply and_congr_left
  intro _
  apply forall_congr'
  intro i
  apply forall_congr'
  intro line
  apply imp_congr_right
  intro hline
  simp only [hcount i line hline]

/-- **Menus.**  A menu is found exactly where there is a block of at least two options,
numbered from 1 in order, with the pointer before one of them; the numbers are those of
`u32`, which for any screen are the natural ones. -/
theorem hasPointerMenu_iff (text : String) :
    (hasPointerMenu text = true ↔
        MenuNumbered (fun i => (i + 1) % 2 ^ 32) (Str.lines text)) ∧
      ((Str.lines text).length < 2 ^ 32 →
        (hasPointerMenu text = true ↔ MenuNumbered (fun i => i + 1) (Str.lines text))) := by
  have hiff := pointerMenuIn_iff (Str.lines text)
  exact ⟨hiff, fun h => hiff.trans (menuNumbered_of_short h)⟩

example : hasPointerMenu "Allow command execution?\n> 1. Yes\n  2. No\n" = true := by
  decide +kernel

end Jmux.Model
