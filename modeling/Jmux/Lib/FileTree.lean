/-
  Jmux.Lib.FileTree — trees of files, and what git does to them.

  A tree gives each path its contents, if there is such a file.  Paths and
  contents are elements of arbitrary types.  A commit records the files of a
  working directory except those that git leaves out; a merge decides path by path
  between two trees and the tree that both come from.

  Main results:
    * `record_eq_of_agree`    — a commit keeps what neither the directory nor the
                                 earlier commit has touched.
    * `merge_of_ours_kept`    — a merge takes their version where ours is untouched.
    * `merge_of_theirs_kept`  — and ours where theirs is.
-/
import Mathlib.Data.Option.Basic
import Mathlib.Logic.Function.Basic

namespace Jmux.Lib

variable {π κ : Type*}

abbrev FileTree (π κ : Type*) := π → Option κ

namespace FileTree

/-! ## §1. Commits. -/

/-- The tree of a commit of everything: the files of the directory, but on the
paths that are left out what the branch has had there before. -/
def record (leaves : π → Bool) (tracked files : FileTree π κ) : FileTree π κ :=
  fun p => if leaves p then tracked p else files p

theorem record_of_left {leaves : π → Bool} {tracked files : FileTree π κ} {p : π}
    (h : leaves p = true) : record leaves tracked files p = tracked p :=
  if_pos h

theorem record_of_staged {leaves : π → Bool} {tracked files : FileTree π κ} {p : π}
    (h : leaves p = false) : record leaves tracked files p = files p :=
  if_neg (by simp [h])

/-- A path on which both the branch and the directory agree with `base` does so
after the commit. -/
theorem record_eq_of_agree {leaves : π → Bool} {tracked files base : FileTree π κ} {p : π}
    (htracked : tracked p = base p) (hfiles : files p = base p) :
    record leaves tracked files p = base p := by
  cases h : leaves p with
  | true => rw [record_of_left h, htracked]
  | false => rw [record_of_staged h, hfiles]

/-! ## §2. Merges. -/

variable [DecidableEq κ]

/-- The three-way merge: a path that one side has left alone goes by the other
side; `both` is what becomes of the paths that both have changed. -/
def merge (both base ours theirs : FileTree π κ) : FileTree π κ := fun p =>
  if theirs p = base p then ours p
  else if ours p = base p ∨ ours p = theirs p then theirs p
  else both p

theorem merge_of_theirs_kept {both base ours theirs : FileTree π κ} {p : π}
    (h : theirs p = base p) : merge both base ours theirs p = ours p :=
  if_pos h

theorem merge_of_ours_kept {both base ours theirs : FileTree π κ} {p : π}
    (h : ours p = base p) : merge both base ours theirs p = theirs p := by
  unfold merge
  by_cases htheirs : theirs p = base p
  · rw [if_pos htheirs, h, htheirs]
  · rw [if_neg htheirs, if_pos (.inl h)]

end FileTree

end Jmux.Lib
