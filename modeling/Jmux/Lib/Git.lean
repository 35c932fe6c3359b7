/-
  Jmux.Lib.Git — what a few git commands do to a repository.

  A change is an element of an arbitrary type; a branch is a history of commits
  that record changes.  The repository has a main checkout, and one branch that
  is worked on in a linked worktree.  Every command takes git's answer as an
  argument, so that each of them can succeed or fail in every state.

  Main results:
    * `History.mem_changes_mergeNoFF` — a merge contains what the two sides
                                         contain, and nothing else.
    * `Repo.mem_branch_commit_addAll` — what `add -A` and `commit` leave on the
                                         worktree's branch, for every answer.
-/
import Mathlib.Data.List.Basic

namespace Jmux.Lib.Git

variable {δ : Type*}

/-! ## §1. Histories. -/

/-- What a commit records, on top of its parents. -/
inductive History (δ : Type*)
  | root
  | commit (parent : History δ) (changes : List δ)
  | merge (ours theirs : History δ)
  deriving DecidableEq

namespace History

/-- The changes that the commits of the history record. -/
def changes : History δ → List δ
  | root => []
  | commit parent cs => parent.changes ++ cs
  | merge ours theirs => ours.changes ++ theirs.changes

variable [DecidableEq δ]

def isAncestorOf (a : History δ) : History δ → Bool
  | root => a = root
  | commit parent cs => a = commit parent cs || a.isAncestorOf parent
  | merge ours theirs => a = merge ours theirs || a.isAncestorOf ours || a.isAncestorOf theirs

theorem mem_changes_of_isAncestorOf {a h : History δ} (hanc : a.isAncestorOf h = true) {d : δ}
    (hd : d ∈ a.changes) : d ∈ h.changes := by
  induction h with
  | root =>
      obtain rfl : a = root := by simpa [isAncestorOf] using hanc
      exact hd
  | commit parent cs ih =>
      have hor : a = commit parent cs ∨ a.isAncestorOf parent = true := by
        simpa [isAncestorOf] using hanc
      cases hor with
      | inl heq => exact heq ▸ hd
      | inr hpar => exact List.mem_append_left _ (ih hpar)
  | merge ours theirs iho iht =>
      have hor : (a = merge ours theirs ∨ a.isAncestorOf ours = true) ∨
          a.isAncestorOf theirs = true := by
        simpa [isAncestorOf] using hanc
      rcases hor with (heq | hours) | htheirs
      · exact heq ▸ hd
      · exact List.mem_append_left _ (iho hours)
      · exact List.mem_append_right _ (iht htheirs)

/-- `git merge --no-ff`: a merge commit, unless there is nothing to merge. -/
def mergeNoFF (ours theirs : History δ) : History δ :=
  if theirs.isAncestorOf ours then ours else .merge ours theirs

theorem mem_changes_mergeNoFF {ours theirs : History δ} {d : δ} :
    d ∈ (ours.mergeNoFF theirs).changes ↔ d ∈ ours.changes ∨ d ∈ theirs.changes := by
  unfold mergeNoFF
  by_cases h : theirs.isAncestorOf ours = true
  · rw [if_pos h]
    -- "already up to date": their changes are ours
    constructor
    · exact Or.inl
    · rintro (hours | htheirs)
      · exact hours
      · exact mem_changes_of_isAncestorOf h htheirs
  · rw [if_neg h]
    exact List.mem_append

end History

/-! ## §2. Checkouts. -/

/-- Where HEAD of the linked worktree is: on the worktree's branch, or wherever
someone has moved it. -/
inductive Head (δ : Type*)
  | onBranch
  | elsewhere (history : History δ)

/-- A linked worktree; `unstaged` is what `git add -A` would stage. -/
structure Worktree (δ : Type*) where
  head : Head δ := .onBranch
  staged : List δ := []
  unstaged : List δ := []

/-- The main checkout: its branch, the uncommitted edits, and what an unfinished
merge has put into the files. -/
structure Checkout (δ : Type*) where
  head : History δ := .root
  edits : List δ := []
  merging : Option (List δ) := none

structure Repo (δ : Type*) where
  base : Checkout δ := {}
  branch : History δ := .root
  worktree : Worktree δ := {}

/-- The answer of a git command: its output, or its error text. -/
abbrev Answer := Except String String

/-- How a merge ends: it is committed, it is refused before it touches anything,
or it stops half-way (a conflict, a commit hook). -/
inductive MergeAnswer
  | merged (out : String)
  | refused (e : String)
  | stopped (e : String)

def MergeAnswer.text : MergeAnswer → String
  | merged out => out
  | refused e => e
  | stopped e => e

namespace Repo

/-- The history that HEAD of the worktree points to. -/
def worktreeHead (r : Repo δ) : History δ :=
  match r.worktree.head with
  | .onBranch => r.branch
  | .elsewhere history => history

/-- Everything that is in the worktree, committed or not. -/
def worktreeChanges (r : Repo δ) : List δ :=
  r.worktreeHead.changes ++ r.worktree.staged ++ r.worktree.unstaged

/-! ## §3. Commands. -/

/-- `git add -A` in the worktree. -/
def addAll (answer : Answer) (r : Repo δ) : Repo δ :=
  match answer with
  | .ok _ =>
      { r with
        worktree :=
          { r.worktree with staged := r.worktree.staged ++ r.worktree.unstaged, unstaged := [] } }
  | .error _ => r

/-- `git commit` in the worktree; with nothing staged nothing is committed. -/
def commit (answer : Answer) (r : Repo δ) : Repo δ :=
  match answer with
  | .error _ => r
  | .ok _ =>
      if r.worktree.staged.isEmpty then r
      else
        let history := r.worktreeHead.commit r.worktree.staged
        match r.worktree.head with
        | .onBranch => { r with branch := history, worktree := { r.worktree with staged := [] } }
        | .elsewhere _ =>
            { r with worktree := { r.worktree with head := .elsewhere history, staged := [] } }

/-- `git merge --no-ff` of the worktree's branch into the main checkout; an
unfinished merge is in its way. -/
def merge [DecidableEq δ] (answer : MergeAnswer) (r : Repo δ) : Answer × Repo δ :=
  match r.base.merging, answer with
  | some _, answer => (.error answer.text, r)
  | none, .merged out =>
      (.ok out, { r with base := { r.base with head := r.base.head.mergeNoFF r.branch } })
  | none, .refused e => (.error e, r)
  | none, .stopped e =>
      (.error e, { r with base := { r.base with merging := some r.branch.changes } })

/-- `git merge --abort` in the main checkout. -/
def mergeAbort (answer : Answer) (r : Repo δ) : Repo δ :=
  match answer with
  | .ok _ => { r with base := { r.base with merging := none } }
  | .error _ => r

/-! ## §4. What the commands leave. -/

@[simp] theorem addAll_base (answer : Answer) (r : Repo δ) : (r.addAll answer).base = r.base := by
  cases answer with
  | ok _ => rfl
  | error _ => rfl

@[simp] theorem addAll_branch (answer : Answer) (r : Repo δ) :
    (r.addAll answer).branch = r.branch := by
  cases answer with
  | ok _ => rfl
  | error _ => rfl

@[simp] theorem addAll_head (answer : Answer) (r : Repo δ) :
    (r.addAll answer).worktree.head = r.worktree.head := by
  cases answer with
  | ok _ => rfl
  | error _ => rfl

theorem mem_staged_addAll (answer : Answer) (r : Repo δ) {d : δ} :
    d ∈ (r.addAll answer).worktree.staged ↔
      d ∈ r.worktree.staged ∨ (d ∈ r.worktree.unstaged ∧ answer.isOk = true) := by
  cases answer with
  | ok _ =>
      show d ∈ r.worktree.staged ++ r.worktree.unstaged ↔ _
      simp [Except.isOk, Except.toBool]
  | error _ => simp [addAll, Except.isOk, Except.toBool]

@[simp] theorem commit_base (answer : Answer) (r : Repo δ) : (r.commit answer).base = r.base := by
  unfold commit
  split
  · rfl
  · split
    · rfl
    · split <;> rfl

/-- What a commit leaves on the worktree's branch. -/
theorem mem_branch_commit (answer : Answer) (r : Repo δ) {d : δ} :
    d ∈ (r.commit answer).branch.changes ↔
      d ∈ r.branch.changes ∨
        (r.worktree.head = .onBranch ∧ answer.isOk = true ∧ d ∈ r.worktree.staged) := by
  unfold commit
  cases answer with
  | error e => simp [Except.isOk, Except.toBool]
  | ok out =>
      cases hst : r.worktree.staged with
      | nil => simp
      | cons s ss =>
          -- only a commit on the branch itself moves the branch
          cases hh : r.worktree.head with
          | onBranch => simp [worktreeHead, hh, History.changes, Except.isOk, Except.toBool]
          | elsewhere history => simp

/-- **What `add -A` followed by `commit` leaves on the worktree's branch.** -/
theorem mem_branch_commit_addAll (add commit : Answer) (r : Repo δ) {d : δ} :
    d ∈ ((r.addAll add).commit commit).branch.changes ↔
      d ∈ r.branch.changes ∨
        (r.worktree.head = .onBranch ∧ commit.isOk = true ∧
          (d ∈ r.worktree.staged ∨ (d ∈ r.worktree.unstaged ∧ add.isOk = true))) := by
  rw [mem_branch_commit, addAll_branch, addAll_head, mem_staged_addAll]

end Repo

end Jmux.Lib.Git
