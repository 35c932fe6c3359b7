/-
  Jmux.Lib.Occurrences — where a word occurs in a text.

  A search that goes on behind each occurrence finds the occurrences that do not
  overlap, counted from the left; one that goes on one place further finds all.

  Main results:
    * `counted_iff`           — the occurrences that are counted, from the first one on.
    * `counted_of_no_overlap` — where they are all that a test can accept.
    * `overlap_hides`         — a text where they are not.
-/
import Mathlib.Data.List.Infix

namespace Jmux.Lib.Occurrences

variable {α : Type*} {word cs before after : List α}

/-! ## §1. The first occurrence. -/

structure First (word cs before after : List α) : Prop where
  text  : cs = before ++ word ++ after
  least : ∀ front, front ++ word <+: cs → before.length ≤ front.length

/-- Two beginnings of one text, of which the first is no longer. -/
theorem exists_between {front : List α} (hbefore : before <+: cs) (hfront : front <+: cs)
    (hlen : before.length ≤ front.length) : ∃ mid, front = before ++ mid := by
  obtain ⟨mid, hmid⟩ := List.prefix_of_prefix_length_le hbefore hfront hlen
  exact ⟨mid, hmid.symm⟩

theorem First.isPrefix (h : First word cs before after) : before ++ word <+: cs :=
  ⟨after, h.text.symm⟩

theorem First.isInfix (h : First word cs before after) : word <:+: cs :=
  ⟨before, after, h.text.symm⟩

theorem First.unique {before' after' : List α} (h : First word cs before after)
    (h' : First word cs before' after') : before = before' ∧ after = after' := by
  have hlen : before.length = before'.length :=
    le_antisymm (h.least before' h'.isPrefix) (h'.least before h.isPrefix)
  have htext : before ++ (word ++ after) = before' ++ (word ++ after') := by
    rw [← List.append_assoc, ← List.append_assoc, ← h.text, ← h'.text]
  obtain ⟨hbefore, hrest⟩ := List.append_inj htext hlen
  exact ⟨hbefore, List.append_cancel_left hrest⟩

/-- The first occurrence in a text with one more element in front. -/
theorem first_cons {c : α} (hno : ¬ word <+: c :: cs) (h : First word cs before after) :
    First word (c :: cs) (c :: before) after where
  text := by
    rw [h.text]
    rfl
  least front hfront := by
    cases front with
    | nil => exact absurd hfront hno
    | cons d front =>
        have hrest : front ++ word <+: cs := (List.cons_prefix_cons.mp hfront).2
        exact Nat.succ_le_succ (h.least front hrest)

theorem first_at_start (h : word ++ after = cs) : First word cs [] after where
  text := h.symm
  least _ _ := Nat.zero_le _

theorem exists_first (h : word <:+: cs) : ∃ before after, First word cs before after := by
  induction cs with
  | nil =>
      have hnil : word = [] := List.infix_nil.mp h
      subst hnil
      exact ⟨[], [], first_at_start rfl⟩
  | cons c cs ih =>
      by_cases hhere : word <+: c :: cs
      · obtain ⟨after, hafter⟩ := hhere
        exact ⟨[], after, first_at_start hafter⟩
      · have hlater := (List.infix_cons_iff.mp h).resolve_left hhere
        obtain ⟨before, after, hfirst⟩ := ih hlater
        exact ⟨c :: before, after, first_cons hhere hfirst⟩

theorem First.exists_mid {front rest : List α} (hfirst : First word cs front rest)
    (h : cs = before ++ word ++ after) :
    ∃ mid, before = front ++ mid ∧ word ++ rest = mid ++ (word ++ after) := by
  have hprefix : before ++ word <+: cs := ⟨after, h.symm⟩
  have hle := hfirst.least before hprefix
  obtain ⟨mid, rfl⟩ := exists_between ((List.prefix_append front word).trans hfirst.isPrefix)
    ((List.prefix_append before word).trans hprefix) hle
  have htext := hfirst.text.symm.trans h
  simp only [List.append_assoc] at htext
  exact ⟨mid, rfl, List.append_cancel_left htext⟩

/-- An occurrence is the first one, or begins behind the first element of it. -/
theorem occurrence_iff {c : α} {tail front rest : List α} (hfirst : First (c :: tail) cs front rest) :
    cs = before ++ (c :: tail) ++ after ↔ before = front ∧ after = rest ∨
      ∃ gap, before = front ++ [c] ++ gap ∧ tail ++ rest = gap ++ (c :: tail) ++ after := by
  constructor
  · intro h
    obtain ⟨mid, rfl, hmid⟩ := hfirst.exists_mid h
    cases mid with
    | nil =>
        rw [List.append_nil]
        exact .inl ⟨rfl, (List.append_cancel_left hmid).symm⟩
    | cons d gap =>
        obtain ⟨rfl, hgap⟩ := List.cons.inj hmid
        refine .inr ⟨gap, ?_, ?_⟩
        · rw [List.append_assoc]
          rfl
        · rw [List.append_assoc]
          exact hgap
  · rintro (⟨rfl, rfl⟩ | ⟨gap, rfl, hgap⟩)
    · exact hfirst.text
    · rw [hfirst.text, List.append_assoc, List.cons_append, hgap]
      simp only [List.append_assoc, List.cons_append, List.nil_append]

/-! ## §2. Counting from the left. -/

/-- The occurrences that are counted: the first one, and those behind it. -/
inductive Counted (word : List α) : List α → List α → List α → Prop
  | first {cs before after : List α} : First word cs before after → Counted word cs before after
  | later {cs front rest before after : List α} :
      First word cs front rest → Counted word rest before after →
      Counted word cs (front ++ word ++ before) after

theorem Counted.text (h : Counted word cs before after) : cs = before ++ word ++ after := by
  induction h with
  | first hfirst => exact hfirst.text
  | later hfirst _ ih =>
      rw [hfirst.text, ih]
      simp only [List.append_assoc]

/-- **Counting** goes on behind the first occurrence. -/
theorem counted_iff {front rest : List α} (hfirst : First word cs front rest) :
    Counted word cs before after ↔ before = front ∧ after = rest ∨
      ∃ gap, before = front ++ word ++ gap ∧ Counted word rest gap after := by
  constructor
  · intro h
    cases h with
    | first hfirst' => exact .inl (hfirst'.unique hfirst)
    | later hfirst' hrest =>
        obtain ⟨rfl, rfl⟩ := hfirst'.unique hfirst
        exact .inr ⟨_, rfl, hrest⟩
  · rintro (⟨rfl, rfl⟩ | ⟨gap, rfl, hrest⟩)
    · exact .first hfirst
    · exact .later hfirst hrest

/-! ## §3. Overlaps. -/

/-- A copy of the word begins behind `front`, before the word ends. -/
structure Overlap (word front back : List α) : Prop where
  split    : word = front ++ back
  frontNe  : front ≠ []
  backNe   : back ≠ []
  repeated : back <+: word

/-- An occurrence is the first one, or overlaps it, or is behind it. -/
theorem occurrence_cases {front rest : List α} (hfirst : First word cs front rest)
    (h : cs = before ++ word ++ after) :
    before = front ∧ after = rest ∨
      (∃ part back, Overlap word part back ∧ before = front ++ part) ∨
      ∃ gap, before = front ++ word ++ gap ∧ rest = gap ++ word ++ after := by
  obtain ⟨mid, rfl, hrest⟩ := hfirst.exists_mid h
  rcases List.append_eq_append_iff.mp hrest with ⟨gap, hmid, hgap⟩ | ⟨back, hword, hback⟩
  · right; right
    refine ⟨gap, ?_, ?_⟩
    · rw [hmid, List.append_assoc]
    · rw [hgap, List.append_assoc]
  · by_cases hmid : mid = []
    · left
      rw [hmid, List.nil_append] at hrest
      rw [hmid, List.append_nil]
      exact ⟨rfl, (List.append_cancel_left hrest).symm⟩
    by_cases hnil : back = []
    · right; right
      rw [hnil, List.append_nil] at hword
      rw [hnil, List.nil_append] at hback
      refine ⟨[], ?_, ?_⟩
      · rw [List.append_nil, hword]
      · rw [List.nil_append, hback]
    · right; left
      have hagain : back <+: word := by
        have hlen : back.length ≤ word.length := by
          rw [hword, List.length_append]
          exact Nat.le_add_left _ _
        exact List.prefix_of_prefix_length_le ⟨rest, hback.symm⟩ (List.prefix_append word after) hlen
      exact ⟨mid, back, ⟨hword, hmid, hnil, hagain⟩, rfl⟩

/-- An occurrence is counted if no copy of the word that it could overlap ends at the
element before it. -/
theorem counted_of_no_overlap (hword : word ≠ [])
    (h : cs = before ++ word ++ after)
    (hno : ∀ part back, Overlap word part back → ¬ part <:+ before) :
    Counted word cs before after := by
  induction hn : cs.length using Nat.strong_induction_on generalizing cs before with
  | _ n ih =>
      obtain ⟨front, rest, hat⟩ := exists_first ⟨before, after, h.symm⟩
      rcases occurrence_cases hat h with ⟨rfl, rfl⟩ | ⟨part, back, hover, rfl⟩ | ⟨gap, rfl, hrest⟩
      · exact .first hat
      · exact absurd (List.suffix_append front part) (hno part back hover)
      · refine .later hat (ih rest.length ?_ hrest ?_ rfl)
        · have hlen := List.length_pos_iff.mpr hword
          rw [← hn, hat.text]
          simp only [List.length_append]
          omega
        · intro part back hover hsuffix
          exact hno part back hover (hsuffix.trans (List.suffix_append _ gap))

/-- **An overlap hides** the second of two occurrences: only the first one is counted in
this text, if the word does not begin with `c`. -/
theorem overlap_hides {part back : List α} (hover : Overlap word part back) {c : α}
    (hc : ∀ d ∈ word.head?, d ≠ c) (h : Counted word (c :: (part ++ word)) before after) :
    before = [c] := by
  obtain ⟨tail, htail⟩ := hover.repeated
  have hpart : part ++ word = word ++ tail := by
    conv => lhs; rw [← htail]
    rw [← List.append_assoc, ← hover.split]
  have hfirst : First word (c :: (part ++ word)) [c] tail := by
    refine first_cons ?_ (first_at_start hpart.symm)
    intro hprefix
    cases hword : word with
    | nil =>
        have hsplit := hover.split
        rw [hword] at hsplit
        exact hover.frontNe (List.append_eq_nil_iff.mp hsplit.symm).1
    | cons d rest =>
        rw [hword] at hprefix hc
        exact hc d rfl (List.cons_prefix_cons.mp hprefix).1
  rcases (counted_iff hfirst).mp h with ⟨heq, -⟩ | ⟨gap, -, hrest⟩
  · exact heq
  · -- what is left is shorter than the word
    have hshort := congrArg List.length htail
    have hlong := congrArg List.length hrest.text
    have hpos := List.length_pos_iff.mpr hover.backNe
    simp only [List.length_append] at hshort hlong
    omega

end Jmux.Lib.Occurrences
