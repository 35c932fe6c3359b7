/-
  Jmux.Lib.CharIndex — texts that are indexed by bytes.

  The library of Rust indexes a string by bytes and panics where an index is not
  between two characters.  A text is a list of characters here; an index cuts it
  only at such a place.

  Main results:
    * `splitAt_eq_some_iff`  — the two sides of an index.
    * `find_first`           — the index at which a word occurs first.
    * `LongestPrefix.unique` — there is one longest beginning within a bound.
    * `longest_floor`        — stepping back to a boundary finds it.
-/
import Jmux.Lib.Occurrences

namespace Jmux.Lib.CharIndex

open Jmux.Lib.Occurrences

/-! ## §1. Bytes and boundaries. -/

/-- `str::len`. -/
def byteLen : List Char → Nat
  | [] => 0
  | c :: cs => c.utf8Size + byteLen cs

/-- The text before and after an index; `none` inside a character and beyond the end. -/
def splitAt : Nat → List Char → Option (List Char × List Char)
  | 0, cs => some ([], cs)
  | _ + 1, [] => none
  | i + 1, c :: cs =>
      if c.utf8Size ≤ i + 1 then
        (splitAt (i + 1 - c.utf8Size) cs).map fun (before, behind) => (c :: before, behind)
      else none

/-- `str::is_char_boundary`. -/
def isBoundary (cs : List Char) (i : Nat) : Bool := (splitAt i cs).isSome

/-- `&s[..i]`; `none` is a panic. -/
def sliceTo (i : Nat) (cs : List Char) : Option (List Char) := (splitAt i cs).map (·.1)

/-- `&s[i..]`. -/
def sliceFrom (i : Nat) (cs : List Char) : Option (List Char) := (splitAt i cs).map (·.2)

/-- `str::find`: the index of the first occurrence. -/
def find (word : List Char) : List Char → Option Nat
  | [] => if word = [] then some 0 else none
  | c :: cs =>
      if word.isPrefixOf (c :: cs) then some 0 else (find word cs).map (c.utf8Size + ·)

/-- `String::truncate`; `none` is a panic. -/
def truncateAt (len : Nat) (cs : List Char) : Option (List Char) :=
  if len ≤ byteLen cs then sliceTo len cs else some cs

theorem byteLen_append (as bs : List Char) : byteLen (as ++ bs) = byteLen as + byteLen bs := by
  induction as with
  | nil => simp [byteLen]
  | cons a as ih =>
      show a.utf8Size + byteLen (as ++ bs) = a.utf8Size + byteLen as + byteLen bs
      rw [ih]
      omega

theorem utf8ByteSize_ofList (cs : List Char) : (String.ofList cs).utf8ByteSize = byteLen cs := by
  induction cs with
  | nil => rfl
  | cons c cs ih =>
      rw [String.ofList_cons, String.utf8ByteSize_append, String.utf8ByteSize_singleton, ih]
      rfl

theorem utf8ByteSize_eq_byteLen (s : String) : s.utf8ByteSize = byteLen s.toList := by
  rw [← utf8ByteSize_ofList, String.ofList_toList]

theorem byteLen_eq_zero {cs : List Char} (h : byteLen cs = 0) : cs = [] := by
  cases cs with
  | nil => rfl
  | cons c cs =>
      have hpos := c.utf8Size_pos
      have hsum : c.utf8Size + byteLen cs = 0 := h
      omega

theorem splitAt_eq_some_iff {i : Nat} {cs before behind : List Char} :
    splitAt i cs = some (before, behind) ↔ cs = before ++ behind ∧ byteLen before = i := by
  induction i, cs using splitAt.induct generalizing before behind with
  | case1 cs =>
      rw [splitAt]
      constructor
      · intro h
        cases h
        exact ⟨rfl, rfl⟩
      · rintro ⟨rfl, hlen⟩
        rw [byteLen_eq_zero hlen, List.nil_append]
  | case2 i =>
      rw [splitAt]
      constructor
      · intro h
        cases h
      · rintro ⟨hnil, hlen⟩
        rw [(List.append_eq_nil_iff.mp hnil.symm).1] at hlen
        cases hlen
  | case3 i c cs hfits ih =>
      rw [splitAt, if_pos hfits]
      constructor
      · intro h
        obtain ⟨⟨before', behind'⟩, hsplit, heq⟩ := Option.map_eq_some_iff.mp h
        obtain ⟨rfl, hlen⟩ := ih.mp hsplit
        cases heq
        refine ⟨rfl, ?_⟩
        show c.utf8Size + byteLen before' = i + 1
        omega
      · rintro ⟨happend, hlen⟩
        cases before with
        | nil => cases hlen
        | cons b before =>
            obtain ⟨rfl, rfl⟩ := List.cons.inj happend
            have hsum : c.utf8Size + byteLen before = i + 1 := hlen
            rw [ih.mpr ⟨rfl, by omega⟩]
            rfl
  | case4 i c cs hfits =>
      rw [splitAt, if_neg hfits]
      constructor
      · intro h
        cases h
      · rintro ⟨happend, hlen⟩
        cases before with
        | nil => cases hlen
        | cons b before =>
            obtain ⟨rfl, rfl⟩ := List.cons.inj happend
            have hsum : c.utf8Size + byteLen before = i + 1 := hlen
            omega

theorem isBoundary_iff {cs : List Char} {i : Nat} :
    isBoundary cs i = true ↔ ∃ before, before <+: cs ∧ byteLen before = i := by
  unfold isBoundary
  rw [Option.isSome_iff_exists]
  constructor
  · rintro ⟨⟨before, behind⟩, h⟩
    obtain ⟨rfl, hlen⟩ := splitAt_eq_some_iff.mp h
    exact ⟨before, List.prefix_append before behind, hlen⟩
  · rintro ⟨before, ⟨behind, rfl⟩, hlen⟩
    exact ⟨(before, behind), splitAt_eq_some_iff.mpr ⟨rfl, hlen⟩⟩

theorem sliceTo_eq_some_iff {i : Nat} {cs before : List Char} :
    sliceTo i cs = some before ↔ before <+: cs ∧ byteLen before = i := by
  unfold sliceTo
  rw [Option.map_eq_some_iff]
  constructor
  · rintro ⟨⟨before, behind⟩, h, rfl⟩
    obtain ⟨rfl, hlen⟩ := splitAt_eq_some_iff.mp h
    exact ⟨List.prefix_append before behind, hlen⟩
  · rintro ⟨⟨behind, rfl⟩, hlen⟩
    exact ⟨(before, behind), splitAt_eq_some_iff.mpr ⟨rfl, hlen⟩, rfl⟩

theorem sliceFrom_byteLen (before behind : List Char) :
    sliceFrom (byteLen before) (before ++ behind) = some behind := by
  unfold sliceFrom
  rw [splitAt_eq_some_iff.mpr ⟨rfl, rfl⟩]
  rfl

theorem find_eq_none {word cs : List Char} (h : ¬ word <:+: cs) : find word cs = none := by
  induction cs with
  | nil =>
      unfold find
      rw [if_neg]
      intro hnil
      exact h (hnil ▸ List.infix_refl [])
  | cons c cs ih =>
      have hhere : ¬ word.isPrefixOf (c :: cs) = true :=
        fun hprefix => h (List.isPrefixOf_iff_prefix.mp hprefix).isInfix
      have hlater : ¬ word <:+: cs := fun hin => h (List.infix_cons hin)
      unfold find
      rw [if_neg hhere, ih hlater]
      rfl

theorem find_first {word cs before after : List Char} (h : First word cs before after) :
    find word cs = some (byteLen before) := by
  induction cs generalizing before with
  | nil =>
      obtain ⟨hfront, -⟩ := List.append_eq_nil_iff.mp h.text.symm
      obtain ⟨rfl, rfl⟩ := List.append_eq_nil_iff.mp hfront
      rfl
  | cons c cs ih =>
      unfold find
      by_cases hhere : word.isPrefixOf (c :: cs) = true
      · have hnil : before.length ≤ 0 := h.least [] (List.isPrefixOf_iff_prefix.mp hhere)
        rw [if_pos hhere, List.length_eq_zero_iff.mp (Nat.le_zero.mp hnil)]
        rfl
      · rw [if_neg hhere]
        have hno : ¬ word <+: c :: cs := fun hp => hhere (List.isPrefixOf_iff_prefix.mpr hp)
        have hin : word <:+: cs := (List.infix_cons_iff.mp h.isInfix).resolve_left hno
        obtain ⟨before', after', hfirst⟩ := exists_first hin
        obtain ⟨rfl, rfl⟩ := h.unique (first_cons hno hfirst)
        rw [ih hfirst]
        rfl

theorem byteLen_of_ascii {cs : List Char} (h : ∀ c ∈ cs, c.utf8Size = 1) :
    byteLen cs = cs.length := by
  induction cs with
  | nil => rfl
  | cons c cs ih =>
      have hrest := ih fun d hd => h d (List.mem_cons_of_mem c hd)
      have hfirst := h c List.mem_cons_self
      show c.utf8Size + byteLen cs = cs.length + 1
      omega

/-- One byte a character: the index counts them. -/
theorem truncateAt_of_ascii {len : Nat} {cs : List Char} (h : ∀ c ∈ cs, c.utf8Size = 1) :
    truncateAt len cs = some (cs.take len) := by
  have hlen := byteLen_of_ascii h
  unfold truncateAt
  by_cases hle : len ≤ byteLen cs
  · rw [if_pos hle, sliceTo_eq_some_iff]
    refine ⟨List.take_prefix len cs, ?_⟩
    rw [byteLen_of_ascii fun c hc => h c (List.mem_of_mem_take hc), List.length_take]
    omega
  · rw [if_neg hle, List.take_of_length_le (by omega)]

/-! ## §2. The longest beginning. -/

/-- The longest beginning of `cs` that has at most `bound` bytes. -/
structure LongestPrefix (cs : List Char) (bound : Nat) (p : List Char) : Prop where
  isPrefix : p <+: cs
  fits     : byteLen p ≤ bound
  longest  : ∀ q, q <+: cs → byteLen q ≤ bound → q <+: p

variable {cs p : List Char} {bound : Nat}

theorem LongestPrefix.unique {q : List Char} (hp : LongestPrefix cs bound p)
    (hq : LongestPrefix cs bound q) : p = q := by
  have hpq := hq.longest p hp.isPrefix hp.fits
  have hqp := hp.longest q hq.isPrefix hq.fits
  exact hpq.eq_of_length (le_antisymm hpq.length_le hqp.length_le)

theorem longest_self (h : byteLen cs ≤ bound) : LongestPrefix cs bound cs :=
  ⟨List.prefix_refl cs, h, fun _ hq _ => hq⟩

/-- Of two beginnings of a text the one with fewer bytes begins the other. -/
theorem prefix_of_byteLen_le {q : List Char} (hp : p <+: cs) (hq : q <+: cs)
    (h : byteLen q ≤ byteLen p) : q <+: p := by
  rcases List.prefix_or_prefix_of_prefix hq hp with hqp | ⟨rest, rfl⟩
  · exact hqp
  · have hsum := byteLen_append p rest
    have hnil : rest = [] := byteLen_eq_zero (by omega)
    rw [hnil, List.append_nil]

/-- A beginning of exactly this many bytes is the longest. -/
theorem longest_of_byteLen (hp : p <+: cs) (h : byteLen p = bound) : LongestPrefix cs bound p :=
  ⟨hp, h.le, fun _ hq hfits => prefix_of_byteLen_le hp hq (by omega)⟩

/-- Step back from an index until it is a boundary. -/
def floorBoundary (cs : List Char) : Nat → Nat
  | 0 => 0
  | i + 1 => if isBoundary cs (i + 1) then i + 1 else floorBoundary cs i

/-- **Stepping back** ends at the longest beginning within the bound. -/
theorem longest_floor (cs : List Char) (bound : Nat) :
    ∃ p, sliceTo (floorBoundary cs bound) cs = some p ∧ LongestPrefix cs bound p := by
  induction bound with
  | zero =>
      refine ⟨[], sliceTo_eq_some_iff.mpr ⟨List.nil_prefix, rfl⟩, ?_⟩
      exact longest_of_byteLen List.nil_prefix rfl
  | succ bound ih =>
      unfold floorBoundary
      by_cases hat : isBoundary cs (bound + 1) = true
      · rw [if_pos hat]
        obtain ⟨p, hp, hlen⟩ := isBoundary_iff.mp hat
        exact ⟨p, sliceTo_eq_some_iff.mpr ⟨hp, hlen⟩, longest_of_byteLen hp hlen⟩
      · rw [if_neg hat]
        obtain ⟨p, hslice, hlongest⟩ := ih
        have hfits := hlongest.fits
        refine ⟨p, hslice, hlongest.isPrefix, by omega, ?_⟩
        intro q hq hlen
        -- a beginning of `bound + 1` bytes would make it a boundary
        have hne : byteLen q ≠ bound + 1 := fun heq => hat (isBoundary_iff.mpr ⟨q, hq, heq⟩)
        exact hlongest.longest q hq (by omega)

end Jmux.Lib.CharIndex
