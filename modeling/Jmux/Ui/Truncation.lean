/-
  Jmux.Ui.Truncation — cutting a text to so many bytes.

  The program has three helpers for this: `truncate_str` of the workspace
  (`model/workspace.rs`), `trunc` of the CLI's process table and `truncate` of the
  omnibar (`ui/omnibar.rs`), which gets what the user types.

  Main results:
    * `truncateStr_longest`   — two of them find the longest beginning that fits.
    * `truncate_eq_some_iff`  — where the third one does.
    * `truncations_agree_iff` — where all of them return it.
    * `truncateStr_toList`    — the loop is what other modules call `truncateStr`.
    * `searchRow_isSome_iff`  — what may be typed into the omnibar.
-/
import Jmux.Lib.CharIndex
import Jmux.Lib.Str
import Jmux.Model.Workspace

namespace Jmux.Ui

open Jmux.Lib Jmux.Lib.CharIndex

/-! ## §1. The three helpers; `none` is a panic. -/

def truncateStr (s : List Char) (maxBytes : Nat) : Option (List Char) :=
  if byteLen s ≤ maxBytes then some s
  else
    let endIdx := floorBoundary s maxBytes
    sliceTo endIdx s

def trunc (s : List Char) (max : Nat) : Option (List Char) :=
  if byteLen s ≤ max then some s
  else
    let endIdx := floorBoundary s max
    sliceTo endIdx s

/-- It slices wherever the bound is. -/
def truncate (s : List Char) (max : Nat) : Option (List Char) :=
  if byteLen s ≤ max then some s else sliceTo max s

/-- Both loops step back to a boundary. -/
theorem truncateStr_eq_trunc (s : List Char) (max : Nat) : truncateStr s max = trunc s max := rfl

/-! ## §2. Where they find the longest beginning. -/

theorem truncateStr_longest (s : List Char) (max : Nat) :
    ∃ p, truncateStr s max = some p ∧ LongestPrefix s max p := by
  unfold truncateStr
  by_cases hfits : byteLen s ≤ max
  · rw [if_pos hfits]
    exact ⟨s, rfl, longest_self hfits⟩
  · rw [if_neg hfits]
    exact longest_floor s max

/-- A text that is too long is cut where the bound is, if a character begins there. -/
theorem truncate_eq_some_iff {s p : List Char} {max : Nat} :
    truncate s max = some p ↔
      (byteLen s ≤ max ∨ isBoundary s max = true) ∧ LongestPrefix s max p := by
  unfold truncate
  by_cases hfits : byteLen s ≤ max
  · rw [if_pos hfits, Option.some.injEq]
    constructor
    · rintro rfl
      exact ⟨.inl hfits, longest_self hfits⟩
    · rintro ⟨-, hlongest⟩
      exact (longest_self hfits).unique hlongest
  · rw [if_neg hfits, sliceTo_eq_some_iff]
    constructor
    · rintro ⟨hbegin, hlen⟩
      exact ⟨.inr (isBoundary_iff.mpr ⟨p, hbegin, hlen⟩), longest_of_byteLen hbegin hlen⟩
    · rintro ⟨hat, hlongest⟩
      obtain ⟨q, hbegin, hlen⟩ := isBoundary_iff.mp (hat.resolve_left hfits)
      rw [← (longest_of_byteLen hbegin hlen).unique hlongest]
      exact ⟨hbegin, hlen⟩

theorem truncate_isSome_iff (s : List Char) (max : Nat) :
    (truncate s max).isSome = true ↔ byteLen s ≤ max ∨ isBoundary s max = true := by
  rw [Option.isSome_iff_exists]
  constructor
  · rintro ⟨p, hp⟩
    exact (truncate_eq_some_iff.mp hp).1
  · intro hat
    obtain ⟨p, -, hlongest⟩ := truncateStr_longest s max
    exact ⟨p, truncate_eq_some_iff.mpr ⟨hat, hlongest⟩⟩

/-- **All three are safe and agree** exactly if the text fits or the bound is between
two of its characters. -/
theorem truncations_agree_iff (s : List Char) (max : Nat) :
    (∃ p, LongestPrefix s max p ∧
      truncateStr s max = some p ∧ trunc s max = some p ∧ truncate s max = some p) ↔
    byteLen s ≤ max ∨ isBoundary s max = true := by
  constructor
  · rintro ⟨p, -, -, -, hp⟩
    exact (truncate_eq_some_iff.mp hp).1
  · intro hat
    obtain ⟨p, hp, hlongest⟩ := truncateStr_longest s max
    have htrunc : trunc s max = some p := (truncateStr_eq_trunc s max).symm.trans hp
    exact ⟨p, hlongest, hp, htrunc, truncate_eq_some_iff.mpr ⟨hat, hlongest⟩⟩

/-- A two-byte letter stands across the bound. -/
theorem truncations_disagree :
    ¬ ∀ s max, ∃ p, LongestPrefix s max p ∧
      truncateStr s max = some p ∧ trunc s max = some p ∧ truncate s max = some p := by
  intro hall
  obtain ⟨p, -, -, -, hp⟩ := hall ['a', 'é'] 2
  have hpanic : truncate ['a', 'é'] 2 = none := by decide
  rw [hpanic] at hp
  cases hp

/-! ## §3. What the rest of the model takes for `truncate_str`. -/

theorem truncateStr_toList (s : String) (max : Nat) :
    truncateStr s.toList max = some (Model.truncateStr s max).toList := by
  obtain ⟨p, hp, hlongest⟩ := truncateStr_longest s.toList max
  have hsize := utf8ByteSize_eq_byteLen s
  rw [hp, Option.some.injEq]
  unfold Model.truncateStr
  by_cases hfits : s.utf8ByteSize ≤ max
  · rw [if_pos hfits]
    exact hlongest.unique (longest_self (by omega))
  · rw [if_neg hfits, String.toList_ofList]
    exact hlongest.unique (Model.takeBytes_longest max s.toList)

/-! ## §4. The omnibar. -/

inductive SearchEngine
  | google | duckDuckGo | bing | kagi | startpage | custom
  deriving DecidableEq, Repr

def SearchEngine.label : SearchEngine → String
  | google => "Google" | duckDuckGo => "DuckDuckGo" | bing => "Bing" | kagi => "Kagi"
  | startpage => "Startpage" | custom => "Custom"

/-- The last row of `populate_suggestions`; nothing is suggested for a blank text.
The outer `none` is a panic. -/
def searchRow (query : List Char) (engine : SearchEngine) : Option (Option (List Char)) :=
  let trimmed := Str.trimMatches Str.isWhitespace query
  if trimmed = [] then some none
  else (truncate trimmed 40).map fun shown =>
    some ("Search \"".toList ++ shown ++ "\" with ".toList ++ engine.label.toList)

/-- **What may be typed**: without the blanks around it, a text of at most 40 bytes
or one with a character that begins after the fortieth byte. -/
theorem searchRow_isSome_iff (query : List Char) (engine : SearchEngine) :
    (searchRow query engine).isSome = true ↔
      byteLen (Str.trimMatches Str.isWhitespace query) ≤ 40 ∨
        isBoundary (Str.trimMatches Str.isWhitespace query) 40 = true := by
  unfold searchRow
  by_cases hblank : Str.trimMatches Str.isWhitespace query = []
  · rw [hblank]
    simp [byteLen]
  · simp only [if_neg hblank, Option.isSome_map]
    exact truncate_isSome_iff _ 40

end Jmux.Ui
