/-
  Jmux.Goal.Slug — the name of a run that is made up from the text of its goal
  (`slugify_goal` in `goal/mod.rs`).

  Main results:
    * `slugifyGoal_valid` — it is a valid id.
-/
import Jmux.Goal.Proposal
import Jmux.Lib.CharIndex

namespace Jmux.Goal

open Jmux.Lib Jmux.Lib.CharIndex

/-! ## §1. The name. -/

def slugWord (raw : List Char) : List Char :=
  (raw.filter Str.isAsciiAlphanumeric).map Str.toAsciiLowercase

/-- The loop over the words; it breaks at the sixth that is left. -/
def slugWords (words : List (List Char)) : List (List Char) → List (List Char)
  | [] => words
  | raw :: rest =>
      let word := slugWord raw
      if word = [] then slugWords words rest
      else
        let words := words ++ [word]
        if words.length = 6 then words else slugWords words rest

def maxSlugBytes : Nat := 48

def slugOf (text : List Char) : Option (List Char) := do
  let slug := ['-'].intercalate (slugWords [] (Str.splitWhitespace text))
  let slug ← if maxSlugBytes < byteLen slug then truncateAt maxSlugBytes slug else some slug
  let slug := Str.trimMatches (· = '-') slug
  return if slug = [] then "goal".toList else slug

def slugifyGoal (text : String) : Option String := (slugOf text.toList).map String.ofList

/-! ## §2. The words. -/

theorem isNodeIdChar_lowercase_small :
    ∀ n < 128, Str.isAsciiAlphanumeric (Char.ofNat n) = true →
      isNodeIdChar (Str.toAsciiLowercase (Char.ofNat n)) = true := by
  decide

theorem mem_slugWord {raw : List Char} {c : Char} (h : c ∈ slugWord raw) :
    isNodeIdChar c = true := by
  obtain ⟨d, hd, rfl⟩ := List.mem_map.mp h
  have halpha := (List.mem_filter.mp hd).2
  have hsmall := isNodeIdChar_lowercase_small d.toNat (Str.toNat_of_isAsciiAlphanumeric halpha)
  rw [Char.ofNat_toNat] at hsmall
  exact hsmall halpha

/-- **The rule for the loop**: what holds of the words so far and is kept by one more. -/
theorem slugWords_invariant {Inv : List (List Char) → Prop}
    (hmore : ∀ words raw, words.length < 6 → Inv words → Inv (words ++ [slugWord raw]))
    {words raws : List (List Char)} (hlen : words.length < 6) (h : Inv words) :
    Inv (slugWords words raws) := by
  induction raws generalizing words with
  | nil => exact h
  | cons raw rest ih =>
      have hnext := hmore words raw hlen h
      have hlonger : (words ++ [slugWord raw]).length = words.length + 1 := List.length_append
      unfold slugWords
      dsimp only
      by_cases hempty : slugWord raw = []
      · rw [if_pos hempty]
        exact ih hlen h
      · rw [if_neg hempty]
        by_cases hsix : (words ++ [slugWord raw]).length = 6
        · rw [if_pos hsix]
          exact hnext
        · rw [if_neg hsix]
          exact ih (by omega) hnext

/-- What holds of each word that is taken holds of all of them. -/
theorem forall_slugWords {P : List Char → Prop} (hword : ∀ raw, P (slugWord raw))
    {raws : List (List Char)} : ∀ word ∈ slugWords [] raws, P word := by
  have hmore : ∀ words raw, words.length < 6 → (∀ word ∈ words, P word) →
      ∀ word ∈ words ++ [slugWord raw], P word := by
    intro words raw _ h word hmem
    rcases List.mem_append.mp hmem with hold | hnew
    · exact h word hold
    · rw [List.mem_singleton.mp hnew]
      exact hword raw
  exact slugWords_invariant hmore (by decide) fun word hmem => absurd hmem List.not_mem_nil

/-- Every character of an id is one byte. -/
theorem utf8Size_of_isNodeIdChar {c : Char} (h : isNodeIdChar c = true) : c.utf8Size = 1 := by
  have hle : ∀ d : Char, c ≤ d → c.toNat ≤ d.toNat := fun d hd => hd
  have hsmall : c.toNat ≤ 127 := by
    unfold isNodeIdChar at h
    simp only [Bool.or_eq_true, Bool.and_eq_true, decide_eq_true_eq, beq_iff_eq] at h
    rcases h with ((⟨-, hlower⟩ | ⟨-, hdigit⟩) | rfl) | rfl
    · have hz : c.toNat ≤ 122 := hle 'z' hlower
      omega
    · have hnine : c.toNat ≤ 57 := hle '9' hdigit
      omega
    · decide
    · decide
  exact Char.utf8Size_eq_one_iff.mpr hsmall

theorem isNodeIdChar_joined (text : List Char) :
    ∀ c ∈ ['-'].intercalate (slugWords [] (Str.splitWhitespace text)), isNodeIdChar c = true := by
  have hhyphen : ∀ c ∈ ['-'], isNodeIdChar c = true := List.all_eq_true.mp (by decide)
  rw [Str.forall_mem_intercalate_iff hhyphen]
  exact @forall_slugWords (fun word => ∀ c ∈ word, isNodeIdChar c = true)
    (fun raw c => mem_slugWord) _

/-- The cut is between two characters, so that the name is a piece of the joined words
with the hyphens at its ends gone, or the one for no words. -/
theorem slugOf_eq (text : List Char) :
    ∃ cut, (∀ c ∈ cut, isNodeIdChar c = true) ∧ cut.length ≤ maxSlugBytes ∧
      slugOf text = some (if Str.trimMatches (· = '-') cut = [] then "goal".toList
        else Str.trimMatches (· = '-') cut) := by
  have hchars := isNodeIdChar_joined text
  have hascii := fun c hc => utf8Size_of_isNodeIdChar (hchars c hc)
  have hlen := byteLen_of_ascii hascii
  unfold slugOf
  generalize ['-'].intercalate (slugWords [] (Str.splitWhitespace text)) = joined at *
  by_cases hlong : maxSlugBytes < byteLen joined
  · refine ⟨joined.take maxSlugBytes, fun c hc => hchars c (List.mem_of_mem_take hc), ?_, ?_⟩
    · exact List.length_take_le maxSlugBytes joined
    · dsimp only
      rw [if_pos hlong, truncateAt_of_ascii hascii]
      rfl
  · refine ⟨joined, hchars, by omega, ?_⟩
    dsimp only
    rw [if_neg hlong]
    rfl

/-- **A slug is a valid id**, whatever the goal. -/
theorem slugifyGoal_valid (text : String) :
    ∃ slug, slugifyGoal text = some slug ∧ validNodeId slug = true := by
  obtain ⟨cut, hchars, hlen, hslug⟩ := slugOf_eq text.toList
  refine ⟨_, congrArg (Option.map String.ofList) hslug, ?_⟩
  by_cases hempty : Str.trimMatches (· = '-') cut = []
  · rw [if_pos hempty]
    decide
  · rw [if_neg hempty]
    have htrimmed : ∀ c ∈ Str.trimMatches (· = '-') cut, isNodeIdChar c = true :=
      fun c hc => hchars c (Str.mem_of_mem_trimMatches hc)
    have hshort := (Str.trimMatches_isInfix (· = '-') cut).length_le
    generalize Str.trimMatches (· = '-') cut = slug at *
    have hbytes := byteLen_of_ascii fun c hc => utf8Size_of_isNodeIdChar (htrimmed c hc)
    unfold maxSlugBytes at hlen
    unfold validNodeId
    rw [utf8ByteSize_ofList, String.toList_ofList]
    simp only [Bool.and_eq_true, decide_eq_true_eq, List.all_eq_true]
    refine ⟨⟨?_, by omega⟩, htrimmed⟩
    intro heq
    exact hempty (String.ofList_eq_empty_iff.mp heq)

end Jmux.Goal
