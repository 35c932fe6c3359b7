/-
  Jmux.Lib.Cut — cutting a list at the first occurrence of another one.

  Main results:
    * `cut_eq_none_iff` — nothing is cut exactly without an occurrence.
    * `cut_append`      — the occurrence that no other one begins before.
-/
import Mathlib.Data.List.Infix

namespace Jmux.Lib

variable {α : Type*} [DecidableEq α]

/-- What stands before the first occurrence of `sep`, and behind it. -/
def cut (sep : List α) : List α → Option (List α × List α)
  | [] => if sep = [] then some ([], []) else none
  | c :: cs =>
      if sep.isPrefixOf (c :: cs) then some ([], (c :: cs).drop sep.length)
      else (cut sep cs).map fun p => (c :: p.1, p.2)

theorem cut_eq_none_iff {sep cs : List α} : cut sep cs = none ↔ ¬ sep <:+: cs := by
  induction cs with
  | nil =>
      unfold cut
      rw [List.infix_nil]
      split
      · next h => simp [h]
      · next h => simp [h]
  | cons c cs ih =>
      unfold cut
      rw [List.infix_cons_iff]
      split
      · next h => simp [List.isPrefixOf_iff_prefix.mp h]
      · next h =>
          rw [Option.map_eq_none_iff, ih, not_or]
          have hpre : ¬ sep <+: c :: cs := fun hp => h (List.isPrefixOf_iff_prefix.mpr hp)
          simp [hpre]

theorem eq_of_cut {sep cs before behind : List α} (h : cut sep cs = some (before, behind)) :
    cs = before ++ sep ++ behind := by
  induction cs generalizing before with
  | nil =>
      unfold cut at h
      split at h
      · next hsep =>
          obtain ⟨rfl, rfl⟩ := Prod.mk.inj (Option.some.inj h)
          simp [hsep]
      · cases h
  | cons c cs ih =>
      unfold cut at h
      split at h
      · next hpre =>
          obtain ⟨rfl, rfl⟩ := Prod.mk.inj (Option.some.inj h)
          exact (List.prefix_append_drop (List.isPrefixOf_iff_prefix.mp hpre))
      · obtain ⟨p, hp, heq⟩ := Option.map_eq_some_iff.mp h
        obtain ⟨rfl, rfl⟩ := Prod.mk.inj heq
        rw [ih hp]
        simp

/-- The part before the cut has no occurrence. -/
theorem not_infix_of_cut {sep cs before behind : List α} (hne : sep ≠ [])
    (h : cut sep cs = some (before, behind)) : ¬ sep <:+: before := by
  induction cs generalizing before with
  | nil =>
      unfold cut at h
      rw [if_neg hne] at h
      cases h
  | cons c cs ih =>
      unfold cut at h
      split at h
      · obtain ⟨rfl, rfl⟩ := Prod.mk.inj (Option.some.inj h)
        rwa [List.infix_nil]
      · next hpre =>
          obtain ⟨p, hp, heq⟩ := Option.map_eq_some_iff.mp h
          obtain ⟨rfl, rfl⟩ := Prod.mk.inj heq
          intro hin
          rcases List.infix_cons_iff.mp hin with hfront | hrest
          · refine hpre (List.isPrefixOf_iff_prefix.mpr (hfront.trans ?_))
            rw [eq_of_cut hp]
            exact ⟨sep ++ p.2, by simp⟩
          · exact ih hp hrest

/-- No occurrence begins before the one that is cut out. -/
theorem cut_append {sep before : List α} (h : ¬ sep <:+: before ++ sep.dropLast)
    (behind : List α) : cut sep (before ++ sep ++ behind) = some (before, behind) := by
  have hne : sep ≠ [] := by
    rintro rfl
    exact h List.nil_infix
  induction before with
  | nil =>
      cases hsep : sep ++ behind with
      | nil => exact absurd (List.append_eq_nil_iff.mp hsep).1 hne
      | cons c cs =>
          have hpre : sep.isPrefixOf (c :: cs) = true :=
            List.isPrefixOf_iff_prefix.mpr ⟨behind, hsep⟩
          rw [List.nil_append, hsep]
          unfold cut
          rw [if_pos hpre, ← hsep, List.drop_left]
  | cons b before ih =>
      have hpre : ¬ sep.isPrefixOf (b :: (before ++ sep ++ behind)) = true := by
        intro hp
        refine h (List.IsPrefix.isInfix ?_)
        -- the occurrence at the front ends before the last element of the other one
        have hlong : b :: (before ++ sep ++ behind)
            = (b :: before ++ sep.dropLast) ++ (sep.getLast hne :: behind) := by
          conv_lhs => rw [← List.dropLast_append_getLast hne]
          simp
        have hprefix := List.isPrefixOf_iff_prefix.mp hp
        rw [hlong] at hprefix
        refine List.prefix_of_prefix_length_le hprefix (List.prefix_append _ _) ?_
        have hpos := List.length_pos_of_ne_nil hne
        simp only [List.length_append, List.length_cons, List.length_dropLast]
        omega
      have hrest : ¬ sep <:+: before ++ sep.dropLast :=
        fun hin => h (hin.trans (List.suffix_cons b _).isInfix)
      rw [List.cons_append, List.cons_append]
      unfold cut
      rw [if_neg hpre, ih hrest]
      rfl

end Jmux.Lib
