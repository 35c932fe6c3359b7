/-
  Jmux.Lib.Lines — ends of texts that are lists of lines.

  A text is its lines joined by a separator.  An end of one text is an end of
  another one when the lines agree, counted from the last, as far as that end reaches.

  Main result:
    * `sameEnd_iff` — the comparison line by line and the one on the joined texts.
-/
import Mathlib.Data.List.Basic
import Mathlib.Data.List.DropRight
import Mathlib.Data.List.Infix

namespace Jmux.Lib.Lines

variable {α : Type*} (sep : α)

/-! ## §1. Joined lines. -/

/-- The lines, given from the last one on, joined. -/
def joinBack : List (List α) → List α
  | [] => []
  | [line] => line
  | line :: above :: rest => joinBack (above :: rest) ++ sep :: line

theorem joinBack_cons {above : List (List α)} (line : List α) (h : above ≠ []) :
    joinBack sep (line :: above) = joinBack sep above ++ sep :: line := by
  cases above with
  | nil => exact absurd rfl h
  | cons _ _ => rfl

/-- One more line at the top. -/
theorem joinBack_append (lines : List (List α)) (line : List α) (h : lines ≠ []) :
    joinBack sep (lines ++ [line]) = line ++ sep :: joinBack sep lines := by
  induction lines with
  | nil => exact absurd rfl h
  | cons last above ih =>
      by_cases habove : above = []
      · subst habove
        rfl
      · have hne : above ++ [line] ≠ [] := by simp
        rw [List.cons_append, joinBack_cons sep last hne, ih habove,
          joinBack_cons sep last habove, List.append_assoc]
        rfl

theorem intercalate_eq_joinBack (lines : List (List α)) :
    [sep].intercalate lines = joinBack sep lines.reverse := by
  induction lines with
  | nil => rfl
  | cons line below ih =>
      cases below with
      | nil => simp [joinBack]
      | cons next below =>
          have hne : (next :: below).reverse ≠ [] := by simp
          rw [List.intercalate_cons_cons, ih, List.append_assoc]
          exact (joinBack_append sep _ line hne).symm.trans (by rw [← List.reverse_cons])

/-- The last line stands at the end, after a separator if anything stands before it. -/
theorem joinBack_last (line : List α) (above : List (List α)) :
    ∃ before, joinBack sep (line :: above) = before ++ line ∧
      ∀ last, before.getLast? = some last → last = sep := by
  by_cases habove : above = []
  · subst habove
    exact ⟨[], rfl, fun last h => by simp at h⟩
  · refine ⟨joinBack sep above ++ [sep], ?_, fun last h => ?_⟩
    · rw [joinBack_cons sep line habove, List.append_assoc]
      rfl
    · rw [List.getLast?_concat] at h
      exact (Option.some.inj h).symm

/-- No piece between separators holds one. -/
theorem not_mem_of_mem_splitOn [BEq α] [LawfulBEq α] {l piece : List α}
    (h : piece ∈ l.splitOn sep) : sep ∉ piece := by
  induction l generalizing piece with
  | nil =>
      rw [List.splitOn_nil] at h
      rw [List.mem_singleton.mp h]
      exact List.not_mem_nil
  | cons x l ih =>
      rw [List.splitOn_cons_eq_if_modifyHead] at h
      split at h
      · rcases List.mem_cons.mp h with rfl | h
        · exact List.not_mem_nil
        · exact ih h
      · rename_i hx
        cases hsplit : l.splitOn sep with
        | nil => exact absurd hsplit (List.splitOn_ne_nil sep l)
        | cons first rest =>
            rw [hsplit] at h ih
            rcases List.mem_cons.mp h with rfl | h
            · intro hmem
              rcases List.mem_cons.mp hmem with rfl | hmem
              · exact hx (beq_self_eq_true _)
              · exact ih List.mem_cons_self hmem
            · exact ih (List.mem_cons_of_mem _ h)

/-! ## §2. Ends. -/

theorem length_rtake (l : List α) (n : Nat) : (l.rtake n).length = min n l.length := by
  unfold List.rtake
  rw [List.length_drop]
  omega

theorem rtake_suffix (l : List α) (n : Nat) : l.rtake n <:+ l := by
  unfold List.rtake
  exact List.drop_suffix _ _

theorem rtake_of_length_le {l : List α} {n : Nat} (h : l.length ≤ n) : l.rtake n = l := by
  unfold List.rtake
  rw [Nat.sub_eq_zero_of_le h, List.drop_zero]

/-- An end that the last part holds. -/
theorem rtake_append_of_le {l₁ l₂ : List α} {n : Nat} (h : n ≤ l₂.length) :
    (l₁ ++ l₂).rtake n = l₂.rtake n := by
  unfold List.rtake
  rw [List.length_append, List.drop_append, List.drop_eq_nil_of_le (by omega), List.nil_append]
  congr 1
  omega

theorem rtake_append_of_ge {l₁ l₂ : List α} {n : Nat} (h : l₂.length ≤ n) :
    (l₁ ++ l₂).rtake n = l₁.rtake (n - l₂.length) ++ l₂ := by
  unfold List.rtake
  rw [List.length_append, List.drop_append]
  have hzero : l₁.length + l₂.length - n - l₁.length = 0 := by omega
  rw [hzero, List.drop_zero]
  congr 2
  omega

/-- A list of that length is an end exactly when it is what is taken from there. -/
theorem suffix_iff_rtake {r l : List α} : r <:+ l ↔ l.rtake r.length = r := by
  constructor
  · rintro ⟨before, rfl⟩
    rw [rtake_append_of_le (le_refl _), rtake_of_length_le (le_refl _)]
  · intro h
    rw [← h]
    exact rtake_suffix l _

/-- The end does not reach beyond the last line. -/
theorem suffix_joinBack_iff {r : List α} (hr : sep ∉ r) (line : List α) (above : List (List α)) :
    r <:+ joinBack sep (line :: above) ↔ r <:+ line := by
  obtain ⟨before, hjoin, hlast⟩ := joinBack_last sep line above
  rw [hjoin]
  constructor
  · intro h
    rcases List.suffix_or_suffix_of_suffix h (List.suffix_append before line) with hin | ⟨top, rfl⟩
    · exact hin
    · have htop : top <:+ before := by
        obtain ⟨front, hfront⟩ := h
        rw [← List.append_assoc] at hfront
        exact ⟨front, List.append_cancel_right hfront⟩
      cases hsep : top.getLast? with
      | none =>
          rw [List.getLast?_eq_none_iff.mp hsep]
          exact List.suffix_refl line
      | some last =>
          have hbefore : before.getLast? = some last := by
            obtain ⟨front, rfl⟩ := htop
            rw [List.getLast?_append, hsep]
            rfl
          have hmem : last ∈ top := List.mem_of_getLast? hsep
          rw [hlast last hbefore] at hmem
          exact absurd (List.mem_append_left line hmem) hr
  · intro h
    exact h.trans (List.suffix_append before line)

/-- What follows the last separator, and what stands before it. -/
theorem append_sep_inj {a b line line' : List α} (hline : sep ∉ line) (hline' : sep ∉ line')
    (h : a ++ sep :: line = b ++ sep :: line') : a = b ∧ line = line' := by
  rcases List.append_eq_append_iff.mp h with ⟨c, rfl, hc⟩ | ⟨c, rfl, hc⟩
  · cases c with
    | nil => exact ⟨(List.append_nil a).symm, (List.cons.inj hc).2⟩
    | cons x c =>
        have hrest : line = c ++ sep :: line' := (List.cons.inj hc).2
        rw [hrest] at hline
        exact absurd (List.mem_append_right c List.mem_cons_self) hline
  · cases c with
    | nil => exact ⟨List.append_nil b, (List.cons.inj hc).2.symm⟩
    | cons x c =>
        have hrest : line' = c ++ sep :: line := (List.cons.inj hc).2
        rw [hrest] at hline'
        exact absurd (List.mem_append_right c List.mem_cons_self) hline'

/-! ## §3. Line by line. -/

/-- The last `n` elements of the one text and of the other are the same, line by
line; both are given from the last line on. -/
def SameEnd : Nat → List (List α) → List (List α) → Prop
  | n, line :: above, line' :: above' =>
      line.rtake n = line'.rtake n ∧ SameEnd (n - (line.length + 1)) above above'
  | n, _, _ => n = 0

theorem sameEnd_zero : ∀ lines lines' : List (List α), SameEnd 0 lines lines'
  | [], _ => rfl
  | _ :: _, [] => rfl
  | line :: above, line' :: above' => by
      refine ⟨by simp, ?_⟩
      rw [Nat.zero_sub]
      exact sameEnd_zero above above'

/-- A text with more lines above has the same end. -/
theorem sameEnd_append (more : List (List α)) :
    ∀ {n : Nat} {lines : List (List α)}, n ≤ (joinBack sep lines).length →
      SameEnd n lines (lines ++ more)
  | n, [], h => by
      rw [Nat.le_zero.mp h]
      exact sameEnd_zero _ _
  | n, line :: above, h => by
      refine ⟨rfl, ?_⟩
      by_cases habove : above = []
      · subst habove
        have hzero : n - (line.length + 1) = 0 := by
          simp only [joinBack] at h
          omega
        rw [hzero]
        exact sameEnd_zero _ _
      · refine sameEnd_append more ?_
        rw [joinBack_cons sep line habove, List.length_append, List.length_cons] at h
        omega

/-- The comparison line by line is the one of the joined texts. -/
theorem sameEnd_iff {n : Nat} {lines lines' : List (List α)} (hsep : ∀ line ∈ lines, sep ∉ line)
    (hsep' : ∀ line ∈ lines', sep ∉ line) (hlength : lines.length ≤ lines'.length)
    (hne : lines ≠ []) (hn : n ≤ (joinBack sep lines).length) :
    SameEnd n lines lines' ↔ (joinBack sep lines).rtake n <:+ joinBack sep lines' := by
  induction lines generalizing n lines' with
  | nil => exact absurd rfl hne
  | cons line above ih =>
      cases lines' with
      | nil => simp at hlength
      | cons line' above' =>
          have hline : sep ∉ line := hsep line List.mem_cons_self
          have hline' : sep ∉ line' := hsep' line' List.mem_cons_self
          -- a cut within the last line
          have hwithin : n ≤ line.length →
              ((joinBack sep (line :: above)).rtake n <:+ joinBack sep (line' :: above') ↔
                line.rtake n = line'.rtake n) := by
            intro hle
            obtain ⟨before, hjoin, -⟩ := joinBack_last sep line above
            have hnot : sep ∉ line.rtake n := fun h => hline ((rtake_suffix line n).subset h)
            rw [hjoin, rtake_append_of_le hle, suffix_joinBack_iff sep hnot, suffix_iff_rtake,
              length_rtake, min_eq_left hle]
            exact eq_comm
          by_cases hle : n ≤ line.length
          · rw [hwithin hle]
            have hzero : n - (line.length + 1) = 0 := by omega
            show (_ ∧ SameEnd (n - (line.length + 1)) above above') ↔ _
            rw [hzero]
            exact and_iff_left (sameEnd_zero above above')
          · have habove : above ≠ [] := by
              rintro rfl
              exact hle (by simpa [joinBack] using hn)
            have habove' : above' ≠ [] := by
              rintro rfl
              have := List.length_pos_of_ne_nil habove
              simp only [List.length_cons, List.length_nil] at hlength
              omega
            rw [joinBack_cons sep line habove] at hn ⊢
            rw [joinBack_cons sep line' habove']
            have hrest : n - (line.length + 1) ≤ (joinBack sep above).length := by
              rw [List.length_append, List.length_cons] at hn
              omega
            have hreach : (sep :: line).length ≤ n := by
              rw [List.length_cons]
              omega
            rw [rtake_append_of_ge hreach, List.length_cons]
            have hlast : line.rtake n = line'.rtake n ↔ line = line' := by
              rw [rtake_of_length_le (show line.length ≤ n by omega)]
              constructor
              · intro h
                have hlen := congrArg List.length h
                rw [length_rtake] at hlen
                rw [h, rtake_of_length_le (show line'.length ≤ n by omega)]
              · rintro rfl
                exact (rtake_of_length_le (by omega)).symm
            show (_ ∧ SameEnd (n - (line.length + 1)) above above') ↔ _
            rw [hlast, ih (fun l h => hsep l (List.mem_cons_of_mem _ h))
              (fun l h => hsep' l (List.mem_cons_of_mem _ h)) (by simpa using hlength) habove hrest]
            constructor
            · rintro ⟨rfl, before, hbefore⟩
              exact ⟨before, by rw [← List.append_assoc, hbefore]⟩
            · rintro ⟨before, hbefore⟩
              rw [← List.append_assoc] at hbefore
              obtain ⟨habove, hlines⟩ := append_sep_inj sep hline hline' hbefore
              exact ⟨hlines, before, habove⟩

end Jmux.Lib.Lines
