/-
  Jmux.Lib.LineStream — the lines of a stream that goes on.

  A stream that has not ended yet holds lines that are ended by a separator and,
  behind the last one, the beginning of a line.  A reader that keeps this beginning
  gets, piece by piece, the lines of the whole stream.

  Main results:
    * `ended_append`, `tail_append`    — what more of the stream adds.
    * `ended_flatMap`                  — the same of a stream written otherwise.
-/
import Jmux.Lib.Lines
import Jmux.Lib.Str

namespace Jmux.Lib.LineStream

variable {α β : Type*} [BEq α] [LawfulBEq α] (sep : α)

/-! ## §1. Lines and the beginning of one. -/

/-- The lines that are ended. -/
def ended (xs : List α) : List (List α) := (xs.splitOn sep).dropLast

/-- What stands behind the last separator. -/
def tail (xs : List α) : List α := (xs.splitOn sep).getLastD []

variable {sep}

theorem splitOn_of_notMem {l : List α} (h : sep ∉ l) : l.splitOn sep = [l] := by
  rw [List.splitOn_eq_splitOnP]
  refine List.splitOnP_eq_singleton fun x hx => ?_
  have hne : x ≠ sep := fun he => h (he ▸ hx)
  simpa using hne

theorem ended_of_notMem {l : List α} (h : sep ∉ l) : ended sep l = [] := by
  unfold ended
  rw [splitOn_of_notMem h]
  rfl

theorem tail_of_notMem {l : List α} (h : sep ∉ l) : tail sep l = l := by
  unfold tail
  rw [splitOn_of_notMem h]
  rfl

theorem ended_line {l : List α} (h : sep ∉ l) (rest : List α) :
    ended sep (l ++ sep :: rest) = l :: ended sep rest := by
  unfold ended
  rw [Str.splitOn_line h, List.dropLast_cons_of_ne_nil (List.splitOn_ne_nil sep rest)]

theorem tail_line {l : List α} (h : sep ∉ l) (rest : List α) :
    tail sep (l ++ sep :: rest) = tail sep rest := by
  unfold tail
  rw [Str.splitOn_line h]
  cases hrest : rest.splitOn sep with
  | nil => exact absurd hrest (List.splitOn_ne_nil sep rest)
  | cons a as => rfl

variable (sep) in
/-- A line at the front, or none. -/
theorem line_or_notMem (xs : List α) :
    sep ∉ xs ∨ ∃ l rest, xs = l ++ sep :: rest ∧ sep ∉ l := by
  by_cases h : sep ∈ xs
  · obtain ⟨l, rest, heq, hl⟩ := List.eq_append_cons_of_mem h
    exact .inr ⟨l, rest, heq, hl⟩
  · exact .inl h

variable (sep) in
/-- Line by line. -/
theorem line_induction {motive : List α → Prop} (rest : ∀ l, sep ∉ l → motive l)
    (line : ∀ l xs, sep ∉ l → motive xs → motive (l ++ sep :: xs)) (xs : List α) : motive xs := by
  induction hn : xs.length using Nat.strongRecOn generalizing xs with
  | ind n ih =>
      rcases line_or_notMem sep xs with h | ⟨l, ys, heq, hl⟩
      · exact rest xs h
      · rw [heq]
        have hshort : ys.length < n := by
          rw [← hn, heq, List.length_append, List.length_cons]
          omega
        exact line l ys hl (ih ys.length hshort ys rfl)

theorem notMem_tail (xs : List α) : sep ∉ tail sep xs := by
  induction xs using (line_induction sep) with
  | rest l h => rwa [tail_of_notMem h]
  | line l xs h ih => rwa [tail_line h]

/-! ## §2. More of the stream. -/

/-- **More of the stream** ends the line that has begun and others. -/
theorem ended_append (xs ys : List α) :
    ended sep (xs ++ ys) = ended sep xs ++ ended sep (tail sep xs ++ ys) := by
  induction xs using (line_induction sep) with
  | rest l h => rw [ended_of_notMem h, tail_of_notMem h, List.nil_append]
  | line l xs h ih =>
      rw [List.append_assoc, List.cons_append, ended_line h, ih, ended_line h, tail_line h]
      rfl

theorem tail_append (xs ys : List α) : tail sep (xs ++ ys) = tail sep (tail sep xs ++ ys) := by
  induction xs using (line_induction sep) with
  | rest l h => rw [tail_of_notMem h]
  | line l xs h ih => rw [List.append_assoc, List.cons_append, tail_line h, ih, tail_line h]

/-- No line is ended without a separator. -/
theorem ended_append_of_notMem (xs : List α) {ys : List α} (h : sep ∉ ys) :
    ended sep (xs ++ ys) = ended sep xs := by
  have hnone : sep ∉ tail sep xs ++ ys :=
    fun hmem => (List.mem_append.mp hmem).elim (notMem_tail xs) h
  rw [ended_append, ended_of_notMem hnone, List.append_nil]

/-! ## §3. Written otherwise. -/

variable [BEq β] [LawfulBEq β] {sep' : β} {write : α → List β}

/-- The stream with every element written as some others; only the separator is written with
the other separator, and as that. -/
structure Writes (sep : α) (sep' : β) (write : α → List β) : Prop where
  same  : write sep = [sep']
  other : ∀ a, a ≠ sep → sep' ∉ write a

omit [BEq α] [LawfulBEq α] [BEq β] [LawfulBEq β] in
theorem Writes.notMem (hw : Writes sep sep' write) {l : List α} (h : sep ∉ l) :
    sep' ∉ l.flatMap write := by
  intro hmem
  obtain ⟨a, ha, hmem⟩ := List.mem_flatMap.mp hmem
  exact hw.other a (fun he => h (he ▸ ha)) hmem

theorem ended_flatMap (hw : Writes sep sep' write) (xs : List α) :
    ended sep' (xs.flatMap write) = (ended sep xs).map (·.flatMap write) := by
  induction xs using (line_induction sep) with
  | rest l h =>
      rw [ended_of_notMem h, ended_of_notMem (hw.notMem h)]
      rfl
  | line l xs h ih =>
      rw [List.flatMap_append, List.flatMap_cons, hw.same, List.singleton_append,
        ended_line (hw.notMem h), ended_line h, ih]
      rfl

end Jmux.Lib.LineStream
