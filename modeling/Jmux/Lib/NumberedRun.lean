/-
  Jmux.Lib.NumberedRun — blocks of a list whose items are numbered in order.

  An item has a label or none; a block is numbered from `s` when its labels are `s`,
  `succ s`, `succ (succ s)` and so on.  A greedy search takes the longest numbered run
  that begins at the head of the list, looks at it, and goes on behind it.

  Main results:
    * `numbered_iff` — the labels of a numbered block, by their places.
    * `search_iff`   — the greedy search misses no block, for a property of blocks that
                       a longer run has too.  The successor may run in a circle.
-/
import Mathlib.Data.List.Infix
import Mathlib.Logic.Function.Iterate

namespace Jmux.Lib.NumberedRun

variable {α σ : Type*}

/-! ## §1. Numbered blocks. -/

def Numbered (label : α → Option σ) (succ : σ → σ) : σ → List α → Prop
  | _, [] => True
  | s, a :: rest => label a = some s ∧ Numbered label succ (succ s) rest

variable {label : α → Option σ} {succ : σ → σ}

theorem numbered_iff {s : σ} {block : List α} :
    Numbered label succ s block ↔
      ∀ i a, block[i]? = some a → label a = some (succ^[i] s) := by
  induction block generalizing s with
  | nil => simp [Numbered]
  | cons b block ih =>
      constructor
      · intro h i a ha
        cases i with
        | zero =>
            rw [List.getElem?_cons_zero] at ha
            rw [← Option.some.inj ha]
            exact h.1
        | succ i => exact ih.mp h.2 i a ha
      · intro h
        exact ⟨h 0 b rfl, ih.mpr fun i a ha => h (i + 1) a ha⟩

/-! ## §2. The longest run. -/

variable [DecidableEq σ]

def takeRun (label : α → Option σ) (succ : σ → σ) : σ → List α → List α
  | s, a :: rest => if label a = some s then a :: takeRun label succ (succ s) rest else []
  | _, [] => []

theorem takeRun_cons {s : σ} {a : α} (h : label a = some s) (rest : List α) :
    takeRun label succ s (a :: rest) = a :: takeRun label succ (succ s) rest :=
  if_pos h

theorem takeRun_stop {s : σ} {a : α} (h : label a ≠ some s) (rest : List α) :
    takeRun label succ s (a :: rest) = [] :=
  if_neg h

theorem takeRun_isPrefix (s : σ) (items : List α) : takeRun label succ s items <+: items := by
  induction items generalizing s with
  | nil => exact List.prefix_refl []
  | cons a items ih =>
      by_cases h : label a = some s
      · rw [takeRun_cons h]
        exact List.cons_prefix_cons.mpr ⟨rfl, ih (succ s)⟩
      · rw [takeRun_stop h]
        exact List.nil_prefix

theorem takeRun_numbered (s : σ) (items : List α) :
    Numbered label succ s (takeRun label succ s items) := by
  induction items generalizing s with
  | nil => trivial
  | cons a items ih =>
      by_cases h : label a = some s
      · rw [takeRun_cons h]
        exact ⟨h, ih (succ s)⟩
      · rw [takeRun_stop h]
        trivial

/-- A numbered block is taken whole. -/
theorem Numbered.prefix_takeRun {s : σ} {block : List α} (h : Numbered label succ s block)
    (rest : List α) : block <+: takeRun label succ s (block ++ rest) := by
  induction block generalizing s with
  | nil => exact List.nil_prefix
  | cons b block ih =>
      rw [List.cons_append, takeRun_cons h.1]
      exact List.cons_prefix_cons.mpr ⟨rfl, ih h.2⟩

/-- A run that gets past some items goes on from there. -/
theorem takeRun_append {s : σ} {before rest : List α}
    (h : before.length ≤ (takeRun label succ s (before ++ rest)).length) :
    takeRun label succ s (before ++ rest) =
      before ++ takeRun label succ (succ^[before.length] s) rest := by
  induction before generalizing s with
  | nil => rfl
  | cons b before ih =>
      rw [List.cons_append] at h ⊢
      by_cases hb : label b = some s
      · rw [takeRun_cons hb] at h ⊢
        rw [ih (by simpa using h)]
        rfl
      · rw [takeRun_stop hb] at h
        simp at h

/-- A run that goes into a block has all of it. -/
theorem Numbered.infix_takeRun {s : σ} {before block : List α} (h : Numbered label succ s block)
    (hne : block ≠ []) (rest : List α)
    (hinto : before.length < (takeRun label succ s (before ++ (block ++ rest))).length) :
    block <:+: takeRun label succ s (before ++ (block ++ rest)) := by
  have hrun := takeRun_append (Nat.le_of_lt hinto)
  cases block with
  | nil => exact absurd rfl hne
  | cons b block =>
      -- the run has the first item of the block, which has the first label
      have hback : succ^[before.length] s = s := by
        rw [hrun, List.length_append] at hinto
        by_contra hother
        have hlabel : label b ≠ some (succ^[before.length] s) := by
          rw [h.1]
          exact fun heq => hother (Option.some.inj heq).symm
        rw [List.cons_append, takeRun_stop hlabel] at hinto
        simp at hinto
      rw [hrun, hback]
      exact (h.prefix_takeRun rest).isInfix.trans (List.suffix_append _ _).isInfix

/-! ## §3. The search. -/

/-- The greedy search for a run that is `good`. -/
def search (label : α → Option σ) (succ : σ → σ) (good : List α → Bool) (s : σ) :
    List α → Bool
  | [] => false
  | a :: rest =>
      let run := takeRun label succ s (a :: rest)
      if good run then true
      else search label succ good s ((a :: rest).drop (max run.length 1))
termination_by items => items.length
decreasing_by
  rw [List.length_drop, List.length_cons]
  omega

/-- **The greedy search is exact.** -/
theorem search_iff {good : List α → Bool} (hnil : good [] = false)
    (hmono : ∀ block run, block <:+: run → good block = true → good run = true) (s : σ)
    (items : List α) :
    search label succ good s items = true ↔
      ∃ block, block <:+: items ∧ Numbered label succ s block ∧ good block = true := by
  induction hn : items.length using Nat.strong_induction_on generalizing items with
  | _ n ih =>
      cases items with
      | nil =>
          unfold search
          constructor
          · intro h
            cases h
          · intro h
            obtain ⟨block, hblock, _, hgood⟩ := h
            rw [List.infix_nil.mp hblock, hnil] at hgood
            cases hgood
      | cons a items =>
          generalize hrun : takeRun label succ s (a :: items) = run
          have hdrop : ((a :: items).drop (max run.length 1)).length < n := by
            rw [← hn, List.length_drop, List.length_cons]
            omega
          unfold search
          dsimp only
          rw [hrun]
          by_cases hgood : good run = true
          · rw [if_pos hgood]
            refine iff_of_true rfl ⟨run, ?_, ?_, hgood⟩
            · rw [← hrun]
              exact (takeRun_isPrefix s (a :: items)).isInfix
            · rw [← hrun]
              exact takeRun_numbered s (a :: items)
          · rw [if_neg hgood, ih _ hdrop _ rfl]
            constructor
            · intro h
              obtain ⟨block, hblock, hrest⟩ := h
              exact ⟨block, hblock.trans (List.drop_suffix _ _).isInfix, hrest⟩
            · intro h
              obtain ⟨block, ⟨before, behind, heq⟩, hnumbered, hblock⟩ := h
              have hne : block ≠ [] := by
                intro hempty
                rw [hempty, hnil] at hblock
                cases hblock
              rw [List.append_assoc] at heq
              -- the run would have the block in it
              have hpast : run.length ≤ before.length := by
                by_contra hlt
                have hinto := @Numbered.infix_takeRun _ _ label succ _ s before block hnumbered hne
                  behind (by rw [heq, hrun]; omega)
                rw [heq, hrun] at hinto
                exact hgood (hmono block run hinto hblock)
              have hone : before ≠ [] := by
                intro hempty
                have hhead := hnumbered.prefix_takeRun behind
                rw [hempty, List.nil_append] at heq
                rw [heq, hrun] at hhead
                exact hgood (hmono block run hhead.isInfix hblock)
              have hpos := List.length_pos_of_ne_nil hone
              refine ⟨block, ?_, hnumbered, hblock⟩
              rw [← heq, List.drop_append_of_le_length (by omega)]
              exact ⟨before.drop (max run.length 1), behind, by rw [List.append_assoc]⟩

end Jmux.Lib.NumberedRun
