/-
  Jmux.Lib.LowerCase — `str::to_lowercase` over the whole of Unicode.

  The case mapping is a table of the Unicode version that the standard library
  was built with; what every version promises of it are the fields of `CaseTable`.
  A capital sigma at the end of a word has a mapping of its own, which depends on
  the characters around it.

  Main results:
    * `toLowercase_idem`    — a text in lower case is not changed.
    * `mem_toLowercase_iff`, `infix_of_infix_lowerFrom` — punctuation stays where it is,
                              and none comes.
-/
import Jmux.Lib.Str
import Mathlib.Algebra.GroupWithZero.Nat

namespace Jmux.Lib

/-- A mark: an ASCII character that is not a letter. -/
def isMark (c : Char) : Bool :=
  decide (c.toNat < 128) && !(('a' ≤ c && c ≤ 'z') || ('A' ≤ c && c ≤ 'Z'))

/-- The case mapping of the Unicode Character Database. -/
structure CaseTable where
  /-- `char::to_lowercase` -/
  lower         : Char → List Char
  /-- The property `Cased`. -/
  cased         : Char → Bool
  /-- The property `Case_Ignorable`. -/
  caseIgnorable : Char → Bool
  ascii         : ∀ c : Char, c.toNat < 128 → lower c = [Str.toAsciiLowercase c]
  sigma         : lower 'Σ' = ['σ']
  finalSigma    : lower 'ς' = ['ς']
  nonempty      : ∀ c, lower c ≠ []
  /-- A lower case is in lower case. -/
  stable        : ∀ c, ∀ d ∈ lower c, lower d = [d]
  /-- Only a mark becomes one, and only white space white space. -/
  letter        : ∀ c, ∀ d ∈ lower c, d = c ∨ isMark d = false ∧ Str.isWhitespace d = false

namespace CaseTable

variable (t : CaseTable)

/-! ## §1. The mapping. -/

/-- Behind characters that can be ignored stands a cased one. -/
def caseIgnorableThenCased (cs : List Char) : Bool :=
  (cs.dropWhile t.caseIgnorable).head?.any t.cased

/-- A capital sigma between the text before it, the nearest character first, and
the text behind it. -/
def mapUppercaseSigma (before after : List Char) : Char :=
  if t.caseIgnorableThenCased before && !t.caseIgnorableThenCased after then 'ς' else 'σ'

/-- One character in its place. -/
def lowerAt (before : List Char) (c : Char) (after : List Char) : List Char :=
  if c = 'Σ' then [t.mapUppercaseSigma before after] else t.lower c

def lowerFrom : List Char → List Char → List Char
  | _, [] => []
  | before, c :: after => t.lowerAt before c after ++ lowerFrom (c :: before) after

/-- `str::to_lowercase` -/
def toLowercase (cs : List Char) : List Char := t.lowerFrom [] cs

/-! ## §2. One character. -/

variable {t}

theorem mapUppercaseSigma_cases (before after : List Char) :
    t.mapUppercaseSigma before after = 'ς' ∨ t.mapUppercaseSigma before after = 'σ' := by
  unfold mapUppercaseSigma
  split
  · exact .inl rfl
  · exact .inr rfl

theorem lowerAt_ne_nil (before : List Char) (c : Char) (after : List Char) :
    t.lowerAt before c after ≠ [] := by
  unfold lowerAt
  split
  · exact List.cons_ne_nil _ _
  · exact t.nonempty c

theorem mem_lowerAt {before after : List Char} {c d : Char} (h : d ∈ t.lowerAt before c after) :
    d = c ∨ isMark d = false ∧ Str.isWhitespace d = false := by
  unfold lowerAt at h
  split at h
  · rw [List.mem_singleton] at h
    rcases @mapUppercaseSigma_cases t before after with hs | hs
    · rw [h, hs]
      exact .inr (by decide)
    · rw [h, hs]
      exact .inr (by decide)
  · exact t.letter c d h

/-- What comes out is in lower case, and no capital sigma. -/
theorem lower_of_mem_lowerAt {before after : List Char} {c d : Char}
    (h : d ∈ t.lowerAt before c after) : t.lower d = [d] := by
  unfold lowerAt at h
  split at h
  · rw [List.mem_singleton] at h
    rcases @mapUppercaseSigma_cases t before after with hs | hs
    · rw [h, hs]
      exact t.finalSigma
    · rw [h, hs]
      exact t.stable 'Σ' 'σ' (by simp [t.sigma])
  · exact t.stable c d h

theorem lowerAt_mark {c : Char} (h : isMark c = true) (before after : List Char) :
    t.lowerAt before c after = [c] := by
  unfold isMark at h
  simp only [Bool.and_eq_true, decide_eq_true_eq, Bool.not_eq_true', Bool.or_eq_false_iff] at h
  obtain ⟨hascii, _, hupper⟩ := h
  have hne : c ≠ 'Σ' := by
    rintro rfl
    revert hascii
    decide
  unfold lowerAt
  rw [if_neg hne, t.ascii c hascii]
  unfold Str.toAsciiLowercase
  rw [if_neg]
  simpa using hupper

/-! ## §3. A text. -/

variable {before : List Char}

theorem mem_lowerFrom {cs : List Char} {d : Char} (h : d ∈ t.lowerFrom before cs) :
    d ∈ cs ∨ isMark d = false ∧ Str.isWhitespace d = false := by
  induction cs generalizing before with
  | nil => cases h
  | cons c cs ih =>
      rcases List.mem_append.mp h with hc | hrest
      · rcases mem_lowerAt hc with rfl | hletter
        · exact .inl List.mem_cons_self
        · exact .inr hletter
      · rcases ih hrest with hmem | hletter
        · exact .inl (List.mem_cons_of_mem c hmem)
        · exact .inr hletter

theorem lower_of_mem_lowerFrom {cs : List Char} {d : Char} (h : d ∈ t.lowerFrom before cs) :
    t.lower d = [d] := by
  induction cs generalizing before with
  | nil => cases h
  | cons c cs ih =>
      rcases List.mem_append.mp h with hc | hrest
      · exact lower_of_mem_lowerAt hc
      · exact ih hrest

/-- A text in lower case is not changed. -/
theorem lowerFrom_self {cs : List Char} (h : ∀ c ∈ cs, t.lower c = [c]) :
    t.lowerFrom before cs = cs := by
  induction cs generalizing before with
  | nil => rfl
  | cons c cs ih =>
      have hne : c ≠ 'Σ' := by
        intro heq
        have hc := h c List.mem_cons_self
        rw [heq, t.sigma] at hc
        exact absurd hc (by decide)
      show t.lowerAt before c cs ++ t.lowerFrom (c :: before) cs = c :: cs
      unfold lowerAt
      rw [if_neg hne, h c List.mem_cons_self, ih fun d hd => h d (List.mem_cons_of_mem c hd)]
      rfl

/-- **A text in lower case stays as it is.** -/
theorem toLowercase_idem (cs : List Char) :
    t.toLowercase (t.toLowercase cs) = t.toLowercase cs :=
  lowerFrom_self fun _ hd => lower_of_mem_lowerFrom hd

/-- **Marks stay**, and none comes. -/
theorem mem_lowerFrom_iff {cs : List Char} {d : Char} (hd : isMark d = true) :
    d ∈ t.lowerFrom before cs ↔ d ∈ cs := by
  constructor
  · intro h
    rcases mem_lowerFrom h with hmem | ⟨hmark, _⟩
    · exact hmem
    · rw [hd] at hmark
      cases hmark
  · intro h
    induction cs generalizing before with
    | nil => cases h
    | cons c cs ih =>
        rcases List.mem_cons.mp h with rfl | hmem
        · exact List.mem_append_left _ (by simp [lowerAt_mark hd])
        · exact List.mem_append_right _ (ih hmem)

theorem mem_toLowercase_iff {cs : List Char} {d : Char} (hd : isMark d = true) :
    d ∈ t.toLowercase cs ↔ d ∈ cs := mem_lowerFrom_iff hd

/-- What comes first is a mark only if it was one. -/
theorem head_lowerFrom {cs : List Char} {d : Char} {rest : List Char} (hd : isMark d = true)
    (h : t.lowerFrom before cs = d :: rest) :
    ∃ after, cs = d :: after ∧ rest = t.lowerFrom (d :: before) after := by
  cases cs with
  | nil => cases h
  | cons c cs =>
      have hcons : t.lowerAt before c cs ++ t.lowerFrom (c :: before) cs = d :: rest := h
      cases hl : t.lowerAt before c cs with
      | nil => exact absurd hl (lowerAt_ne_nil before c cs)
      | cons x xs =>
          rw [hl, List.cons_append] at hcons
          obtain ⟨rfl, hxs⟩ := List.cons.inj hcons
          have hx := @mem_lowerAt t before cs c x (by simp [hl])
          have hxc : x = c := hx.resolve_right fun hletter => by simp [hd] at hletter
          subst hxc
          rw [lowerAt_mark hd] at hl
          obtain ⟨_, rfl⟩ := List.cons.inj hl
          exact ⟨cs, rfl, hxs.symm⟩

/-! ## §4. Marks in a row. -/

theorem prefix_of_prefix_lowerFrom {needle cs : List Char} (hmarks : ∀ c ∈ needle, isMark c = true)
    (h : needle <+: t.lowerFrom before cs) : needle <+: cs := by
  induction needle generalizing before cs with
  | nil => exact List.nil_prefix
  | cons d needle ih =>
      obtain ⟨rest, hrest⟩ := h
      obtain ⟨after, rfl, hafter⟩ := head_lowerFrom (hmarks d List.mem_cons_self) hrest.symm
      have htail := ih (fun c hc => hmarks c (List.mem_cons_of_mem d hc)) ⟨rest, hafter⟩
      exact (List.prefix_cons_inj d).mpr htail

/-- An occurrence cannot begin among elements that are not its first one. -/
theorem infix_of_infix_append {α : Type*} {d : α} {needle as bs : List α} (hd : d ∉ as)
    (h : d :: needle <:+: as ++ bs) : d :: needle <:+: bs := by
  induction as with
  | nil => exact h
  | cons a as ih =>
      rcases List.infix_cons_iff.mp h with hpre | hin
      · obtain ⟨rest, hrest⟩ := hpre
        obtain ⟨rfl, _⟩ := List.cons.inj hrest
        exact absurd List.mem_cons_self hd
      · exact ih (fun hmem => hd (List.mem_cons_of_mem a hmem)) hin

/-- **A row of marks** comes only from the same row. -/
theorem infix_of_infix_lowerFrom {needle cs : List Char} (hmarks : ∀ c ∈ needle, isMark c = true)
    (h : needle <:+: t.lowerFrom before cs) : needle <:+: cs := by
  cases needle with
  | nil => exact List.nil_infix
  | cons d needle =>
      induction cs generalizing before with
      | nil => exact h
      | cons c cs ih =>
          have hsplit : d :: needle <:+: t.lowerAt before c cs ++ t.lowerFrom (c :: before) cs := h
          by_cases hd : d ∈ t.lowerAt before c cs
          · have hmark := hmarks d List.mem_cons_self
            have hdc : d = c := (mem_lowerAt hd).resolve_right fun hletter => by
              simp [hmark] at hletter
            subst hdc
            rw [lowerAt_mark hmark, List.singleton_append] at hsplit
            rcases List.infix_cons_iff.mp hsplit with hpre | hin
            · have hpre' : d :: needle <+: t.lowerFrom before (d :: cs) := by
                show d :: needle <+: t.lowerAt before d cs ++ t.lowerFrom (d :: before) cs
                rw [lowerAt_mark hmark]
                exact hpre
              exact (prefix_of_prefix_lowerFrom hmarks hpre').isInfix
            · exact (ih hin).trans (List.suffix_cons d cs).isInfix
          · exact (ih (infix_of_infix_append hd hsplit)).trans (List.suffix_cons c cs).isInfix

/-! ## §5. The ends of a text, and its length. -/

/-- The first character is white space only if it was. -/
theorem head?_lowerFrom {cs : List Char} (h : ∀ c ∈ cs.head?, Str.isWhitespace c = false) :
    ∀ d ∈ (t.lowerFrom before cs).head?, Str.isWhitespace d = false := by
  intro d hd
  cases cs with
  | nil => cases hd
  | cons c cs =>
      have hmem : d ∈ t.lowerAt before c cs := by
        have happ : d ∈ (t.lowerAt before c cs ++ t.lowerFrom (c :: before) cs).head? := hd
        rw [List.head?_append_of_ne_nil _ (lowerAt_ne_nil before c cs)] at happ
        exact List.mem_of_mem_head? happ
      rcases mem_lowerAt hmem with rfl | ⟨_, hletter⟩
      · exact h d rfl
      · exact hletter

/-- The last character as well. -/
theorem getLast?_lowerFrom {cs : List Char} (h : ∀ c ∈ cs.getLast?, Str.isWhitespace c = false) :
    ∀ d ∈ (t.lowerFrom before cs).getLast?, Str.isWhitespace d = false := by
  induction cs generalizing before with
  | nil => intro d hd; cases hd
  | cons c cs ih =>
      intro d hd
      have happ : d ∈ (t.lowerAt before c cs ++ t.lowerFrom (c :: before) cs).getLast? := hd
      cases cs with
      | nil =>
          have hmem : d ∈ t.lowerAt before c [] := by
            rw [show t.lowerFrom (c :: before) [] = [] from rfl, List.append_nil] at happ
            exact List.mem_of_mem_getLast? happ
          rcases mem_lowerAt hmem with rfl | ⟨_, hletter⟩
          · exact h d rfl
          · exact hletter
      | cons c' cs =>
          have hne : t.lowerFrom (c :: before) (c' :: cs) ≠ [] :=
            List.append_ne_nil_of_left_ne_nil (lowerAt_ne_nil _ c' cs) _
          rw [List.getLast?_append_of_ne_nil _ hne] at happ
          exact ih (by simpa using h) d happ

/-- How many characters become of one; a sigma is one in either form. -/
def width (t : CaseTable) (c : Char) : Nat := if c = 'Σ' then 1 else (t.lower c).length

theorem width_pos (c : Char) : 0 < t.width c := by
  unfold width
  split
  · exact Nat.one_pos
  · exact List.length_pos_of_ne_nil (t.nonempty c)

theorem length_lowerFrom (before cs : List Char) :
    (t.lowerFrom before cs).length = (cs.map t.width).sum := by
  induction cs generalizing before with
  | nil => rfl
  | cons c cs ih =>
      have hc : (t.lowerAt before c cs).length = t.width c := by
        unfold lowerAt width
        split
        · rfl
        · rfl
      show (t.lowerAt before c cs ++ t.lowerFrom (c :: before) cs).length = _
      rw [List.length_append, hc, ih]
      rfl

/-- A longer text has a longer lower case. -/
theorem length_lowerFrom_lt {before before' as bs : List Char} (hbs : bs ≠ []) :
    (t.lowerFrom before as).length < (t.lowerFrom before' (as ++ bs)).length := by
  rw [length_lowerFrom, length_lowerFrom, List.map_append, List.sum_append]
  cases bs with
  | nil => exact absurd rfl hbs
  | cons b bs =>
      have hpos := @width_pos t b
      rw [List.map_cons, List.sum_cons]
      omega

end CaseTable

end Jmux.Lib
