/-
  Jmux.Goal.Merge — `finish_node` (`goal/graph.rs`) together with the repository
  it works on.

  `Scheduler.finishNode` reads two of git's answers.  Here the five commands are
  run one after the other on a repository, each of them answering as it likes:
  `add` and `commit` in the node's worktree, `status`, `merge` and, when the
  merge fails, `merge --abort` in the user's checkout.

  Main results:
    * `finishNodeIn_spec`      — the spec is edited as `finishNode` edits it.
    * `done_node_in_base_iff`  — exactly when a done node has its work in the
                                  base, and a blocked one leaves the base alone.
    * `uncommitted_work_lost`  — a refused commit and a failed abort break it.
-/
import Jmux.Lib.Git
import Jmux.Goal.NodeMoves

namespace Jmux.Goal

open Jmux.Lib
open Jmux.Lib.Git (Repo Answer MergeAnswer)

variable {δ : Type*}

/-! ## §1. The commands of `finish_node`. -/

/-- What git answers while one node is being finished. -/
structure GitAnswers where
  add : Answer := .ok ""
  commit : Answer := .ok ""
  status : Answer := .ok ""
  merge : MergeAnswer := .merged ""
  abort : Answer := .ok ""

/-- Commit whatever the node's agent left uncommitted; both answers are ignored. -/
def commitLeftovers (git : GitAnswers) (repo : Repo δ) : Repo δ :=
  (repo.addAll git.add).commit git.commit

@[simp] theorem commitLeftovers_base (git : GitAnswers) (repo : Repo δ) :
    (commitLeftovers git repo).base = repo.base := by
  unfold commitLeftovers
  rw [Repo.commit_base, Repo.addAll_base]

/-- The base checkout shows nothing but the graph's own files. -/
def GitAnswers.baseClean (git : GitAnswers) (ownDir : String) : Bool :=
  match git.status with
  | .ok out => baseIsClean out ownDir
  | .error _ => false

variable [DecidableEq δ]

/-- The commands that `finish_node` runs for a node in worktree mode. -/
def runFinish (git : GitAnswers) (ownDir : String) (repo : Repo δ) : Repo δ :=
  let repo := commitLeftovers git repo
  if git.baseClean ownDir then
    match repo.merge git.merge with
    | (.ok _, merged) => merged
    | (.error _, stopped) => stopped.mergeAbort git.abort
  else repo

/-- The two answers that the node's new state depends on. -/
def GitAnswers.outcome (git : GitAnswers) (repo : Repo δ) : GitOutcome where
  status := git.status
  merge := ((commitLeftovers git repo).merge git.merge).1

/-- `finish_node`: the spec and the repository afterwards. -/
def finishNodeIn (goals : GoalRegistry) (git : GitAnswers) (spec : GraphSpec) (id : String)
    (repo : Repo δ) : GraphSpec × Repo δ :=
  match spec.node id with
  | none => (spec, repo)
  | some node =>
      let spec' := spec.modifyNode id (·.finish goals spec.name spec.ownDir (git.outcome repo))
      if node.status = .done then (spec', repo)
      else match node.worktree, node.branch with
        | some _, some _ => (spec', runFinish git spec.ownDir repo)
        | _, _ => (spec', repo)

/-- **The spec is edited as the scheduler's `finishNode` edits it.** -/
theorem finishNodeIn_spec (goals : GoalRegistry) (git : GitAnswers) (spec : GraphSpec)
    (id : String) (repo : Repo δ) {n : GraphNode} (hn : spec.node id = some n) :
    (finishNodeIn goals git spec id repo).1 = finishNode goals (git.outcome repo) spec id := by
  unfold finishNodeIn
  rw [hn]
  dsimp only
  split
  · rfl
  · split <;> rfl

/-! ## §2. The state of the node. -/

/-- The merge has gone through. -/
def GitAnswers.mergedIn (git : GitAnswers) (ownDir : String) (repo : Repo δ) : Bool :=
  git.baseClean ownDir && ((commitLeftovers git repo).merge git.merge).1.isOk

/-- A worktree node that is finished is done if the merge has gone through, and
blocked otherwise. -/
theorem finish_status (goals : GoalRegistry) (name ownDir : String) (git : GitAnswers)
    (repo : Repo δ) {n : GraphNode} {wt br : String} (hwt : n.worktree = some wt)
    (hbr : n.branch = some br) (hopen : n.status ≠ .done) :
    (n.finish goals name ownDir (git.outcome repo)).status
      = if git.mergedIn ownDir repo then .done else .blocked := by
  unfold GraphNode.finish
  rw [if_neg hopen, GraphNode.mergeBack_status]
  have hrefused : ({ n with iteration := n.reportedIteration goals } : GraphNode).mergeRefused
      ownDir (git.outcome repo) = !git.mergedIn ownDir repo := by
    unfold GraphNode.mergeRefused GitAnswers.mergedIn GitAnswers.baseClean GitAnswers.outcome
    simp only [hwt, hbr, Option.isSome_some, Bool.true_and]
    cases git.status with
    | error e => rfl
    | ok out =>
        cases ((commitLeftovers git repo).merge git.merge).1 with
        | error e => simp [Except.isOk, Except.toBool]
        | ok _ => simp [Except.isOk, Except.toBool]
  rw [hrefused]
  cases git.mergedIn ownDir repo with
  | true => rfl
  | false => rfl

/-! ## §3. The base. -/

/-- The uncommitted change gets onto the node's branch. -/
def GitAnswers.Records (git : GitAnswers) (repo : Repo δ) (d : δ) : Prop :=
  repo.worktree.head = .onBranch ∧ git.commit.isOk = true ∧
    (d ∈ repo.worktree.staged ∨ (d ∈ repo.worktree.unstaged ∧ git.add.isOk = true))

/-- The change is in the base, on the node's branch, or gets there. -/
def GitAnswers.Carries (git : GitAnswers) (repo : Repo δ) (d : δ) : Prop :=
  d ∈ repo.base.head.changes ∨ d ∈ repo.branch.changes ∨ git.Records repo d

/-- What the finish of an open worktree node needs once the base is clean: a
merge has to carry everything, a merge that stops has to be aborted, and an
earlier unfinished merge must not be. -/
def GitAnswers.MergeSafe (git : GitAnswers) (repo : Repo δ) : Prop :=
  match repo.base.merging, git.merge with
  | none, .merged _ => ∀ d ∈ repo.worktreeChanges, git.Carries repo d
  | none, .refused _ => True
  | none, .stopped _ => git.abort.isOk = true
  | some _, _ => git.abort.isOk = false

/-- The base after a merge: what it had, and the branch with what was committed. -/
theorem mem_merged_base (git : GitAnswers) (repo : Repo δ) {d : δ} :
    d ∈ (repo.base.head.mergeNoFF (commitLeftovers git repo).branch).changes ↔
      git.Carries repo d := by
  rw [Jmux.Lib.Git.History.mem_changes_mergeNoFF]
  unfold commitLeftovers
  rw [Repo.mem_branch_commit_addAll]
  rfl

/-- What the user is promised about one finish. -/
structure WorkKept (repo repo' : Repo δ) (status : NodeState) : Prop where
  done : status = .done → ∀ d ∈ repo.worktreeChanges, d ∈ repo'.base.head.changes
  blocked : status = .blocked → repo'.base = repo.base

/-- The promise for an open worktree node, by the ways in which git can answer. -/
theorem runFinish_kept_iff (git : GitAnswers) (ownDir : String) (repo : Repo δ) :
    WorkKept repo (runFinish git ownDir repo)
        (if git.mergedIn ownDir repo then .done else .blocked) ↔
      (git.baseClean ownDir = true → git.MergeSafe repo) := by
  unfold GitAnswers.mergedIn runFinish
  cases hclean : git.baseClean ownDir with
  | false =>
      -- nothing is merged, and the node waits
      constructor
      · intro _ h
        cases h
      · intro _
        exact ⟨fun h => (by cases h), fun _ => commitLeftovers_base git repo⟩
  | true =>
      simp only [if_true, Bool.true_and, forall_const]
      unfold Repo.merge GitAnswers.MergeSafe
      rw [commitLeftovers_base]
      cases hm : repo.base.merging with
      | some files =>
          cases ha : git.abort with
          | ok out =>
              -- the abort throws the earlier merge away
              refine iff_of_false ?_ (by simp [Except.isOk, Except.toBool])
              intro h
              have hbase := congrArg (·.merging) (h.blocked rfl)
              simp [Repo.mergeAbort, hm] at hbase
          | error e =>
              refine iff_of_true ?_ rfl
              exact ⟨fun h => (by cases h), fun _ => commitLeftovers_base git repo⟩
      | none =>
          cases git.merge with
          | merged out =>
              dsimp only
              constructor
              · intro h d hd
                exact (mem_merged_base git repo).mp (h.done rfl d hd)
              · intro h
                exact ⟨fun _ d hd => (mem_merged_base git repo).mpr (h d hd),
                  fun h => (by cases h)⟩
          | refused e =>
              refine iff_of_true ⟨fun h => (by cases h), fun _ => ?_⟩ trivial
              -- with no merge in progress the abort changes nothing
              cases git.abort with
              | ok out =>
                  show { (commitLeftovers git repo).base with merging := none } = repo.base
                  rw [commitLeftovers_base, ← hm]
              | error e => exact commitLeftovers_base git repo
          | stopped e =>
              cases ha : git.abort with
              | ok out =>
                  refine iff_of_true ⟨fun h => (by cases h), fun _ => ?_⟩ rfl
                  show { repo.base with merging := none } = repo.base
                  rw [← hm]
              | error e =>
                  refine iff_of_false ?_ (by simp [Except.isOk, Except.toBool])
                  intro h
                  have hbase := congrArg (·.merging) (h.blocked rfl)
                  simp [Repo.mergeAbort, hm] at hbase

/-! ## §4. Done means merged. -/

/-- **A node that is left done has its work in the base, and one that is left
blocked leaves the base as it was, exactly under `MergeSafe`.**  A node that is
done already is not looked at again. -/
theorem done_node_in_base_iff (goals : GoalRegistry) (git : GitAnswers) (spec : GraphSpec)
    (id : String) (repo : Repo δ) {n : GraphNode} (hn : spec.node id = some n) {wt br : String}
    (hwt : n.worktree = some wt) (hbr : n.branch = some br) :
    (∀ n', (finishNodeIn goals git spec id repo).1.node id = some n' →
        (n'.status = .done → ∀ d ∈ repo.worktreeChanges,
          d ∈ (finishNodeIn goals git spec id repo).2.base.head.changes) ∧
        (n'.status = .blocked → (finishNodeIn goals git spec id repo).2.base = repo.base)) ↔
      if n.status = .done then ∀ d ∈ repo.worktreeChanges, d ∈ repo.base.head.changes
      else git.baseClean spec.ownDir = true → git.MergeSafe repo := by
  have hnode : (finishNodeIn goals git spec id repo).1.node id
      = some (n.finish goals spec.name spec.ownDir (git.outcome repo)) := by
    rw [finishNodeIn_spec goals git spec id repo hn]
    unfold finishNode
    rw [GraphSpec.modifyNode_node (GraphNode.finish_id goals spec.name spec.ownDir _), if_pos rfl,
      hn]
    rfl
  have hstep : ∀ P : GraphNode → Prop,
      (∀ n', (finishNodeIn goals git spec id repo).1.node id = some n' → P n') ↔
        P (n.finish goals spec.name spec.ownDir (git.outcome repo)) := by
    intro P
    rw [hnode]
    constructor
    · intro h
      exact h _ rfl
    · rintro h n' ⟨⟩
      exact h
  rw [hstep]
  by_cases hd : n.status = .done
  · have hrepo : (finishNodeIn goals git spec id repo).2 = repo := by
      unfold finishNodeIn
      rw [hn]
      simp only [hd, if_true]
    have hstatus : (n.finish goals spec.name spec.ownDir (git.outcome repo)).status = .done := by
      unfold GraphNode.finish
      rw [if_pos hd, hd]
    rw [hrepo, hstatus, if_pos hd]
    simp
  · have hrepo : (finishNodeIn goals git spec id repo).2 = runFinish git spec.ownDir repo := by
      unfold finishNodeIn
      rw [hn]
      simp only [hd, if_false, hwt, hbr]
    rw [hrepo, finish_status goals spec.name spec.ownDir git repo hwt hbr hd, if_neg hd,
      ← runFinish_kept_iff git spec.ownDir repo]
    constructor
    · intro h
      exact ⟨h.1, h.2⟩
    · intro h
      exact ⟨h.done, h.blocked⟩

def reviewedNode : GraphNode :=
  { id := "a", status := .review, worktree := some "/r-worktrees/a", branch := some "graph/g/a" }

def reviewedSpec : GraphSpec := { name := "g", baseCwd := "/r", nodes := [reviewedNode] }

/-- The node's agent has committed one change and left a second one uncommitted. -/
def finishedRepo : Repo String where
  branch := .commit .root ["parser"]
  worktree := { unstaged := ["tests"] }

/-- Where every command succeeds, both changes arrive. -/
theorem done_node_in_base_all_ok :
    ∃ n' ∈ (finishNodeIn ∅ {} reviewedSpec "a" finishedRepo).1.node "a",
      (n'.status = .done → ∀ d ∈ finishedRepo.worktreeChanges,
        d ∈ (finishNodeIn ∅ {} reviewedSpec "a" finishedRepo).2.base.head.changes) ∧
      (n'.status = .blocked →
        (finishNodeIn ∅ {} reviewedSpec "a" finishedRepo).2.base = finishedRepo.base) := by
  have hmerged :=
    (done_node_in_base_iff ∅ {} reviewedSpec "a" finishedRepo (n := reviewedNode) rfl rfl rfl).mpr
    (by
      rw [if_neg (by decide)]
      intro _ d hd
      have hpair : d = "parser" ∨ d = "tests" := by
        simpa [Repo.worktreeChanges, Repo.worktreeHead, finishedRepo,
          Jmux.Lib.Git.History.changes] using hd
      rcases hpair with rfl | rfl
      · exact .inr (.inl (by decide))
      · exact .inr (.inr ⟨rfl, rfl, .inr ⟨by decide, rfl⟩⟩))
  obtain ⟨n', hn'⟩ : ∃ n', (finishNodeIn ∅ {} reviewedSpec "a" finishedRepo).1.node "a" = some n' :=
    ⟨_, rfl⟩
  exact ⟨n', hn', hmerged n' hn'⟩

/-- A commit hook refuses the commit of the uncommitted change. -/
def lostWork : GraphSpec × Repo String :=
  finishNodeIn ∅ { commit := .error "pre-commit hook failed" } reviewedSpec "a" finishedRepo

/-- The merge has a conflict, and cannot be aborted either. -/
def halfMerged : GraphSpec × Repo String :=
  finishNodeIn ∅ { merge := .stopped "CONFLICT", abort := .error "fatal" } reviewedSpec "a"
    finishedRepo

/-- The node is done, and its uncommitted work is neither in the base nor on its
branch; the node is blocked, and the base is not what it was. -/
theorem uncommitted_work_lost :
    ((lostWork.1.node "a").map (·.status) = some .done ∧ "tests" ∈ finishedRepo.worktreeChanges ∧
      "tests" ∉ lostWork.2.base.head.changes ∧ "tests" ∉ lostWork.2.branch.changes) ∧
    ((halfMerged.1.node "a").map (·.status) = some .blocked ∧
      halfMerged.2.base.merging = some ["parser", "tests"] ∧ finishedRepo.base.merging = none) := by
  decide

end Jmux.Goal
