/-
  Jmux.Lib.Getopt — how POSIX `getopt` splits the words of a command line into
  options and operands.

  Each letter is a flag, takes a value, or is unknown.  Letters of one word may
  be clustered, a value is the rest of its word or the next word, and the
  options end at the first operand or behind `--`.

  Main results:
    * `getopt_words`   — options that are written one by one are read back,
                          whatever their values look like.
    * `getopt_operand` — an operand ends the options.
    * `left_alone_iff` — words are left alone exactly if the first one is an
                          operand.
-/
import Mathlib.Data.List.Infix

namespace Jmux.Lib.Getopt

/-- What a letter is for. -/
inductive Kind
  | flag
  | valued
  deriving DecidableEq, Repr

/-- One option with its letter. -/
inductive Opt
  | flag (letter : Char)
  | valued (letter : Char) (value : List Char)
  deriving DecidableEq, Repr

/-- The letters that a program knows. -/
abbrev Letters := Char → Option Kind

variable (letters : Letters)

/-! ## §1. Reading. -/

/-- A word that is not taken for options. -/
def Operand (word : List Char) : Prop := word = ['-'] ∨ word.head? ≠ some '-'

instance (word : List Char) : Decidable (Operand word) := by unfold Operand; infer_instance

/-- The letters of one word.  A letter whose value is not in the word comes second. -/
def cluster : List Char → Option (List Opt × Option Char)
  | [] => some ([], none)
  | c :: cs =>
      match letters c with
      | none => none
      | some .flag => (cluster cs).map fun r => (.flag c :: r.1, r.2)
      -- the rest of the word is the value
      | some .valued => if cs = [] then some ([], some c) else some ([.valued c cs], none)

def prepend (opts : List Opt) (r : List Opt × List (List Char)) : List Opt × List (List Char) :=
  (opts ++ r.1, r.2)

/-- Read on, with a letter that still wants its value. -/
def getoptFrom : Option Char → List (List Char) → Option (List Opt × List (List Char))
  | none, [] => some ([], [])
  | some _, [] => none
  | some letter, value :: rest => (getoptFrom none rest).map (prepend [.valued letter value])
  | none, word :: rest =>
      if word = ['-', '-'] then some ([], rest)
      else if Operand word then some ([], word :: rest)
      else (cluster letters word.tail).bind fun r => (getoptFrom r.2 rest).map (prepend r.1)

/-- The options, and the operands behind them; `none` for a usage error. -/
def getopt (words : List (List Char)) : Option (List Opt × List (List Char)) :=
  getoptFrom letters none words

/-! ## §2. Operands. -/

variable {letters}

theorem not_operand_dashes : ¬Operand ['-', '-'] := by decide

theorem operand_of_ne {c : Char} (hc : c ≠ '-') (cs : List Char) : Operand (c :: cs) :=
  .inr fun h => hc (Option.some.inj h)

@[simp] theorem getopt_nil : getopt letters [] = some ([], []) := rfl

/-- **An operand ends the options.** -/
theorem getopt_operand {word : List Char} (h : Operand word) (rest : List (List Char)) :
    getopt letters (word :: rest) = some ([], word :: rest) := by
  have hends : word ≠ ['-', '-'] := by
    rintro rfl
    exact not_operand_dashes h
  show getoptFrom letters none (word :: rest) = _
  rw [getoptFrom, if_neg hends, if_pos h]

/-- What is left are the last words. -/
theorem suffix_of_getoptFrom (words : List (List Char)) :
    ∀ (pending : Option Char) {opts : List Opt} {operands : List (List Char)},
      getoptFrom letters pending words = some (opts, operands) → operands <:+ words := by
  induction words with
  | nil =>
      intro pending opts operands h
      cases pending with
      | none =>
          cases h
          exact List.suffix_refl _
      | some letter => cases h
  | cons word rest ih =>
      intro pending opts operands h
      cases pending with
      | some letter =>
          -- the word is the value, whatever it looks like
          obtain ⟨r, hrest, heq⟩ := Option.map_eq_some_iff.mp h
          cases heq
          exact (ih none hrest).trans (List.suffix_cons _ _)
      | none =>
          rw [getoptFrom] at h
          split at h
          · cases h
            exact List.suffix_cons _ _
          · split at h
            · cases h
              exact List.suffix_refl _
            · obtain ⟨c, hcluster, hrest⟩ := Option.bind_eq_some_iff.mp h
              obtain ⟨r, hr, heq⟩ := Option.map_eq_some_iff.mp hrest
              cases heq
              exact (ih c.2 hr).trans (List.suffix_cons _ _)

/-- A word that is not an operand is not left. -/
theorem length_of_not_operand {word : List Char} (h : ¬Operand word) {rest : List (List Char)}
    {opts : List Opt} {operands : List (List Char)}
    (hread : getopt letters (word :: rest) = some (opts, operands)) :
    operands.length ≤ rest.length := by
  change getoptFrom letters none (word :: rest) = _ at hread
  rw [getoptFrom, if_neg h] at hread
  split at hread
  · cases hread
    exact Nat.le_refl _
  · obtain ⟨c, hcluster, hrest⟩ := Option.bind_eq_some_iff.mp hread
    obtain ⟨r, hr, heq⟩ := Option.map_eq_some_iff.mp hrest
    cases heq
    exact (suffix_of_getoptFrom rest c.2 hr).length_le

/-- **Words are left alone exactly if the first one is an operand.** -/
theorem left_alone_iff {word : List Char} {rest : List (List Char)} :
    (∃ opts, getopt letters (word :: rest) = some (opts, word :: rest)) ↔ Operand word := by
  constructor
  · rintro ⟨opts, h⟩
    by_contra hword
    have hshort := length_of_not_operand hword h
    rw [List.length_cons] at hshort
    omega
  · intro h
    exact ⟨[], getopt_operand h rest⟩

/-! ## §3. Writing. -/

/-- The words of an option. -/
def Opt.words : Opt → List (List Char)
  | .flag letter => [['-', letter]]
  | .valued letter value => [['-', letter], value]

/-- The program has the option. -/
def Opt.Known (letters : Letters) : Opt → Prop
  | .flag letter => letters letter = some .flag ∧ letter ≠ '-'
  | .valued letter _ => letters letter = some .valued ∧ letter ≠ '-'

theorem getopt_letter {c : Char} (hc : c ≠ '-') (rest : List (List Char)) :
    getopt letters (['-', c] :: rest)
      = (cluster letters [c]).bind fun r => (getoptFrom letters r.2 rest).map (prepend r.1) := by
  have hends : ['-', c] ≠ ['-', '-'] := fun h => hc (List.cons.inj (List.cons.inj h).2).1
  have hword : ¬Operand ['-', c] := by
    rintro (h | h)
    · cases h
    · exact h rfl
  show getoptFrom letters none (['-', c] :: rest) = _
  rw [getoptFrom, if_neg hends, if_neg hword]
  rfl

theorem getopt_option {o : Opt} (h : o.Known letters) (rest : List (List Char)) :
    getopt letters (o.words ++ rest) = (getopt letters rest).map (prepend [o]) := by
  cases o with
  | flag letter =>
      show getopt letters (['-', letter] :: rest) = _
      rw [getopt_letter h.2]
      simp only [cluster, h.1]
      rfl
  | valued letter value =>
      show getopt letters (['-', letter] :: value :: rest) = _
      rw [getopt_letter h.2]
      simp only [cluster, h.1]
      show ((getopt letters rest).map (prepend [.valued letter value])).map (prepend []) = _
      rw [Option.map_map]
      rfl

/-- **Options that are written one by one are read back.** -/
theorem getopt_words {opts : List Opt} (h : ∀ o ∈ opts, o.Known letters)
    (rest : List (List Char)) :
    getopt letters (opts.flatMap Opt.words ++ rest)
      = (getopt letters rest).map (prepend opts) := by
  induction opts with
  | nil =>
      show getopt letters rest = Option.map (fun r => r) (getopt letters rest)
      rw [Option.map_id']
  | cons o opts ih =>
      rw [List.flatMap_cons, List.append_assoc, getopt_option (h o List.mem_cons_self),
        ih fun p hp => h p (List.mem_cons_of_mem o hp), Option.map_map]
      rfl

/-- The options in front of an operand. -/
theorem getopt_words_operand {opts : List Opt} (h : ∀ o ∈ opts, o.Known letters)
    {word : List Char} (hword : Operand word) (rest : List (List Char)) :
    getopt letters (opts.flatMap Opt.words ++ word :: rest) = some (opts, word :: rest) := by
  rw [getopt_words h, getopt_operand hword, Option.map_some, prepend, List.append_nil]

end Jmux.Lib.Getopt
