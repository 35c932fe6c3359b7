/-
  Jmux.Goal.CleanBase — what `base_is_clean` (`goal/graph.rs`) reads in git's answer.

  The branch of a finished node is merged when git reports no change outside of the
  graph's own directory.  `base_is_clean` looks at the destination of a renamed file
  only, takes what follows the last ` -> ` of a line for it, and reads a quoted name
  as it is printed.

  Main result:
    * `destination_inside_of_baseIsClean` — what a clean answer says about the names
                                            that are read back as they are.
-/
import Jmux.Goal.Scheduler
import Jmux.Lib.Porcelain

namespace Jmux.Goal

open Jmux.Lib Jmux.Lib.Porcelain

/-! ## §1. Reading an entry. -/

/-- The directory `ownDir`, which ends in a slash, or something in it. -/
def InsideOwn (ownDir : String) (path : Name) : Prop :=
  utf8 ownDir.toList <+: path ++ [0x2f]

/-- A name that the code reads back from git's output: without the arrow of a
rename, and without escape sequences that could be taken for `ownDir`. -/
def Legible (ownDir : String) (path : Name) : Prop :=
  ¬ arrowBytes <:+: path ∧ ∀ b ∈ path, isUnusual b = true → '\\' ∉ ownDir.toList

/-- What is checked of the path that a line is read as. -/
def readsOwn (ownDir : String) (path : List Char) : Bool :=
  path.isEmpty || ownDir.toList.isPrefixOf path || path ++ ['/'] == ownDir.toList

theorem baseIsClean_porcelain (entries : List Entry) (ownDir : String) :
    baseIsClean (porcelain entries) ownDir = entries.all fun e =>
      readsOwn ownDir (Str.trimMatches (· == '"') (Str.afterLast arrow e.body)) := by
  have harrow : " -> ".toList = arrow := rfl
  unfold baseIsClean
  rw [lines_porcelain, List.all_map, harrow]
  refine congrArg (entries.all ·) (funext fun e => ?_)
  rw [Function.comp_apply, e.getFrom_line, Option.getD_some, e.trim_body]
  rfl

/-! ## §2. What a clean answer says. -/

/-- **What counts as clean has its destinations in the graph's own directory.** -/
theorem destination_inside_of_baseIsClean (entries : List Entry) (ownDir : String)
    (hclean : baseIsClean (porcelain entries) ownDir = true) :
    ∀ e ∈ entries, Legible ownDir e.path → InsideOwn ownDir e.path := by
  rw [baseIsClean_porcelain, List.all_eq_true] at hclean
  intro e he hlegible
  have hreads := hclean e he
  rw [e.afterLast_body hlegible.1, trimQuotes_quotePath e.path_ne] at hreads
  unfold readsOwn at hreads
  simp only [Bool.or_eq_true, List.isEmpty_iff, List.isPrefixOf_iff_prefix, beq_iff_eq,
    reading_ne_nil e.path_ne, false_or] at hreads
  exact prefix_of_reading hlegible.2 hreads

/-- A changed report of the graph. -/
def changedReport : Entry where
  index := .unmodified
  worktree := .modified
  source := none
  path := utf8 "docs/roadmap/g/a/iteration-1.md".toList
  path_ne := by decide
  source_ne := by decide
  source_iff := rfl

theorem changedReport_inside :
    baseIsClean (porcelain [changedReport]) "docs/roadmap/g/" = true ∧
      InsideOwn "docs/roadmap/g/" changedReport.path := by
  have hclean : baseIsClean (porcelain [changedReport]) "docs/roadmap/g/" = true := by
    rw [baseIsClean_porcelain]
    decide
  have hlegible : Legible "docs/roadmap/g/" changedReport.path :=
    ⟨by decide, fun _ _ _ => by decide⟩
  exact ⟨hclean, destination_inside_of_baseIsClean [changedReport] "docs/roadmap/g/" hclean
    changedReport List.mem_cons_self hlegible⟩

/-- A file that was moved into the directory. -/
def movedIn : Entry where
  index := .renamed
  worktree := .unmodified
  source := some (utf8 "src/main.rs".toList)
  path := utf8 "docs/roadmap/g/main.rs".toList
  path_ne := by decide
  source_ne := by decide
  source_iff := rfl

/-- Where it comes from is not looked at. -/
theorem clean_with_source_outside :
    baseIsClean (porcelain [movedIn]) "docs/roadmap/g/" = true ∧
      ¬ ∀ p ∈ movedIn.paths, InsideOwn "docs/roadmap/g/" p := by
  rw [baseIsClean_porcelain]
  constructor
  · decide
  · intro h
    exact absurd (h _ List.mem_cons_self) (by unfold InsideOwn; decide)

end Jmux.Goal
