/-
  Jmux.Goal.MergeTexts — which texts of blocked nodes read like a refused merge.

  Why a node is blocked is kept in a text, and `resume_graph` goes by the text's first
  letters.  Runs that stop, launches that fail and merges that are refused all write it.
  Only the last of them write a text that starts with "merge".

  Main results:
    * `mergePending_finish`    — when `finish_node` leaves a node that waits.
    * `resumeGraph_node`       — which nodes `resume` finishes.
    * `launchNode_error_plain` — no failed launch reads like a merge.
    * `step_plainRuns`         — no run is blocked with a text that reads like one.
-/
import Jmux.Goal.Iterate
import Jmux.Goal.Stalled

namespace Jmux.Goal

open Jmux.Lib

/-! ## §1. Nodes that wait for their merge. -/

/-- The text does not read like that of a merge. -/
def PlainText (d : String) : Prop := Str.startsWith d "merge" = false

instance (d : String) : Decidable (PlainText d) :=
  inferInstanceAs (Decidable (Str.startsWith d "merge" = false))

/-- Only a blocked node waits for its merge. -/
theorem mergePending_of_not_blocked {n : GraphNode} (h : n.status ≠ .blocked) :
    n.mergePending = false := by
  unfold GraphNode.mergePending
  simp [h]

theorem mergePending_congr {n m : GraphNode} (hst : m.status = n.status)
    (hdetail : m.detail = n.detail) : m.mergePending = n.mergePending := by
  unfold GraphNode.mergePending
  rw [hst, hdetail]

theorem mergePending_of_plain {n : GraphNode} {d : String} (hdetail : n.detail = some d)
    (hd : PlainText d) : n.mergePending = false := by
  unfold PlainText at hd
  unfold GraphNode.mergePending
  rw [hdetail]
  simp [hd]

/-- What follows does not matter to the first letters. -/
theorem startsWith_append {s pre : String} (h : Str.startsWith s pre = true) (rest : String) :
    Str.startsWith (s ++ rest) pre = true := by
  unfold Str.startsWith at h ⊢
  rw [List.isPrefixOf_iff_prefix] at h ⊢
  rw [String.toList_append]
  exact h.trans (List.prefix_append _ _)

/-- A text is told from a merge's by its first letter. -/
theorem plainText_of_head {c : Char} {cs : List Char} {d : String} (h : d.toList = c :: cs)
    (hc : c ≠ 'm') : PlainText d := by
  unfold PlainText Str.startsWith
  rw [h]
  have hne : ('m' == c) = false := by
    rw [beq_eq_false_iff_ne]
    exact hc.symm
  show ('m' == c && _) = false
  rw [hne]
  rfl

theorem plainText_append {lit : String} (rest : String) (h : ∃ c cs, lit.toList = c :: cs ∧ c ≠ 'm') :
    PlainText (lit ++ rest) := by
  obtain ⟨c, cs, hlit, hc⟩ := h
  have hhead : (lit ++ rest).toList = c :: (cs ++ rest.toList) := by
    rw [String.toList_append, hlit]
    rfl
  exact plainText_of_head hhead hc

/-- **The merge step leaves a node that waits exactly when it is refused.** -/
theorem mergePending_mergeBack (name ownDir : String) (git : GitOutcome) (n : GraphNode) :
    (n.mergeBack name ownDir git).mergePending = n.mergeRefused ownDir git := by
  have hwaiting : Str.startsWith ("merge waiting: your checkout has uncommitted changes — commit or "
      ++ "stash them, then: jmux graph resume " ++ name) "merge" = true :=
    startsWith_append (startsWith_append (by decide) _) _
  have hconflict : ∀ e, Str.startsWith ("merge conflict: " ++ e) "merge" = true :=
    fun e => startsWith_append (by decide) e
  unfold GraphNode.mergeBack GraphNode.mergeRefused
  cases n.worktree with
  | none => rfl
  | some wt =>
      cases n.branch with
      | none => rfl
      | some branch =>
          cases git.status with
          | error e => simpa [GraphNode.mergePending] using hwaiting
          | ok out =>
              cases git.merge with
              | error e =>
                  by_cases hclean : baseIsClean out ownDir = true
                  · simpa [GraphNode.mergePending, hclean] using hconflict e
                  · simpa [GraphNode.mergePending, hclean] using hwaiting
              | ok _ =>
                  by_cases hclean : baseIsClean out ownDir = true
                  · simp [GraphNode.mergePending, hclean]
                  · simpa [GraphNode.mergePending, hclean] using hwaiting

/-- **When `finish_node` leaves a node that waits.** -/
theorem mergePending_finish (goals : GoalRegistry) (name ownDir : String) (git : GitOutcome)
    {n : GraphNode} (h : n.status ≠ .done) :
    (n.finish goals name ownDir git).mergePending = n.mergeRefused ownDir git := by
  unfold GraphNode.finish
  rw [if_neg h, mergePending_mergeBack]
  rfl

theorem mergePending_resume (n : GraphNode) : n.resume.mergePending = n.mergePending := by
  rcases n.resume_cases with ⟨hst, h⟩ | ⟨-, h⟩
  · rw [h, mergePending_of_not_blocked (by simp), mergePending_of_not_blocked (by simp [hst])]
  · rw [h]

theorem mergePending_continued (n : GraphNode) : n.continued.mergePending = n.mergePending := by
  unfold GraphNode.continued
  split
  next hst =>
    rw [mergePending_of_not_blocked (by simp), mergePending_of_not_blocked (by simp [hst])]
  · rfl

theorem mergePending_reconcile (n : GraphNode) : n.reconcile.mergePending = n.mergePending := by
  rcases n.reconcile_cases with ⟨hactive, h⟩ | ⟨-, h⟩
  · have hst : n.status ≠ .blocked := by
      intro hb
      rw [hb] at hactive
      cases hactive
    rw [h, mergePending_of_not_blocked (by simp), mergePending_of_not_blocked hst]
  · rw [h]

/-! ## §2. The operations of one graph. -/

/-- The node is in the graph and waits for its merge. -/
def GraphSpec.mergePending (s : GraphSpec) (id : String) : Bool := (s.node id).any (·.mergePending)

/-- An edit of one node that leaves the texts of merges alone. -/
theorem modifyNode_mergePending {f : GraphNode → GraphNode} (hid : ∀ n, (f n).id = n.id)
    (s : GraphSpec) (id : String)
    (hf : ∀ n, s.node id = some n → (f n).mergePending = n.mergePending) (i : String) :
    (s.modifyNode id f).mergePending i = s.mergePending i := by
  unfold GraphSpec.mergePending
  rw [GraphSpec.modifyNode_node hid]
  by_cases hi : i = id
  · rw [if_pos hi, hi]
    cases hn : s.node id with
    | none => rfl
    | some n => exact hf n hn
  · rw [if_neg hi]

theorem mapNodes_mergePending {f : GraphNode → GraphNode} (hid : ∀ n, (f n).id = n.id)
    (hf : ∀ n, (f n).mergePending = n.mergePending) (s : GraphSpec) (i : String) :
    GraphSpec.mergePending { s with nodes := s.nodes.map f } i = s.mergePending i := by
  unfold GraphSpec.mergePending
  rw [mapNodes_node hid]
  cases s.node i with
  | none => rfl
  | some n => exact hf n

theorem mergePending_of_nodes {s s' : GraphSpec} (h : s'.nodes = s.nodes) (i : String) :
    s'.mergePending i = s.mergePending i := by
  unfold GraphSpec.mergePending GraphSpec.node
  rw [h]

/-- A plan that takes the place of no nodes has none that waits. -/
theorem planned_mergePending {s : GraphSpec} {nodes : List GraphNode} (st : GraphState)
    (hnil : s.nodes = []) (hplan : WellFormedPlan nodes) (i : String) :
    GraphSpec.mergePending { s with nodes := nodes, status := st } i = s.mergePending i := by
  have hbefore : s.mergePending i = false := by
    unfold GraphSpec.mergePending GraphSpec.node
    rw [hnil]
    rfl
  rw [hbefore]
  unfold GraphSpec.mergePending
  cases hn : GraphSpec.node { s with nodes := nodes, status := st } i with
  | none => rfl
  | some n =>
      have hst := hplan.pending n (GraphSpec.node_mem hn)
      exact mergePending_of_not_blocked (by simp [hst])

theorem mem_mergeRetries {s : GraphSpec} (hnd : s.ids.Nodup) {id : String} {n : GraphNode}
    (hn : s.node id = some n) : id ∈ s.mergeRetries ↔ n.mergePending = true := by
  rw [mem_mergeRetries_iff hnd hn, mergePending_resume n]

/-- **Resume, node by node**: those that wait are finished, no other node is. -/
theorem resumeGraph_node {goals : GoalRegistry} {git : String → GitOutcome} {s s' : GraphSpec}
    (hnd : s.ids.Nodup) (h : resumeGraph goals git s = .ok s') {id : String} {n : GraphNode}
    (hn : s.node id = some n) :
    s'.node id = some (if n.mergePending then n.finish goals s.name s.ownDir (git id)
      else n.resume) := by
  obtain rfl := resumeGraph_ok h
  show (finishAll goals git s.resumeLoop s.mergeRetries).node id = _
  have hmem := mem_mergeRetries hnd hn
  rw [finishAll_node goals git _ _ (mergeRetries_nodup hnd) id, resumeLoop_node, hn]
  by_cases hpending : n.mergePending = true
  · -- a blocked node is not interrupted
    have hsame : n.resume = n := by
      rcases n.resume_cases with ⟨hst, -⟩ | ⟨-, hr⟩
      · rw [mergePending_of_not_blocked (by simp [hst])] at hpending
        cases hpending
      · exact hr
    rw [if_pos (hmem.mpr hpending), if_pos hpending, (resumeLoop_frame s).name,
      (resumeLoop_frame s).ownDir, Option.map_some, Option.map_some, hsame]
  · rw [if_neg fun hin => hpending (hmem.mp hin), if_neg hpending]
    rfl

theorem finishNode_node (goals : GoalRegistry) (git : GitOutcome) (s : GraphSpec) (id i : String) :
    (finishNode goals git s id).node i
      = if i = id then (s.node id).map (·.finish goals s.name s.ownDir git) else s.node i :=
  GraphSpec.modifyNode_node (fun n => n.finish_id goals s.name s.ownDir git) s id i

/-! The launches.  Their errors are `launch_node`'s own texts. -/

theorem LaunchError.message_plain (e : LaunchError) : PlainText e.message := by
  cases e with
  | outputDir dir answer =>
      show PlainText ("cannot create " ++ dir ++ ": " ++ answer)
      rw [String.append_assoc, String.append_assoc]
      exact plainText_append _ ⟨'c', _, rfl, by decide⟩
  | seedDir answer => exact plainText_append answer ⟨'c', _, rfl, by decide⟩
  | seedFile answer => exact plainText_append answer ⟨'c', _, rfl, by decide⟩
  | noPanel => exact plainText_of_head rfl (by decide)

theorem resolveRunnerByName_error_plain {name : String} {settings : GoalSettings} {e : String}
    (h : resolveRunnerByName name settings = .error e) : PlainText e := by
  unfold resolveRunnerByName at h
  dsimp only at h
  generalize (if name = "" then settings.defaultRunner else name) = runner at h
  by_cases hempty : runner = ""
  · rw [if_pos hempty] at h
    cases h
  · rw [if_neg hempty] at h
    cases hl : settings.runners.lookup runner with
    | some r =>
        rw [hl] at h
        cases h
    | none =>
        rw [hl] at h
        cases h
        rw [String.append_assoc]
        exact plainText_append _ ⟨'u', _, rfl, by decide⟩

/-- **No failed launch reads like a merge.** -/
theorem launchNode_error_plain {env : LaunchEnv} {s : GraphSpec} {id : String} {shared : Shared}
    {e : String} (h : launchNode env s id shared = .error e) : PlainText e := by
  unfold launchNode at h
  split at h
  · cases h
    rw [String.append_assoc]
    exact plainText_append _ ⟨'u', _, rfl, by decide⟩
  split at h
  next e' hprep =>
    cases h
    unfold prepareWorktree at hprep
    split at hprep
    · split at hprep
      · cases hprep
        exact plainText_append _ ⟨'c', _, rfl, by decide⟩
      · split at hprep
        · cases hprep
          exact plainText_append _ ⟨'g', _, rfl, by decide⟩
        · cases hprep
    · cases hprep
  dsimp only at h
  split at h
  next e' hrunner =>
    cases h
    exact resolveRunnerByName_error_plain hrunner
  split at h
  next e' hlaunch =>
    cases h
    unfold launchGoal at hlaunch
    split at hlaunch
    next err _ =>
      cases hlaunch
      exact err.message_plain
    · cases hlaunch
  · cases h

theorem launchReady_mergePending (env : String → LaunchEnv) (ids : List String) (slots : Nat)
    (t : Tick) (h : Launchable t.spec ids) (i : String) :
    (launchReady env ids slots t).spec.mergePending i = t.spec.mergePending i := by
  induction ids generalizing slots t with
  | nil => rfl
  | cons id ids ih =>
      cases slots with
      | zero => rfl
      | succ slots =>
          -- a pending node is launched or blocked with the error
          have hpending : ∀ n, t.spec.node id = some n → n.mergePending = false := by
            intro n hn
            obtain ⟨m, hm, hst⟩ := h.pending id List.mem_cons_self
            obtain rfl : n = m := Option.some.inj (hn.symm.trans hm)
            exact mergePending_of_not_blocked (by simp [hst])
          rw [launchReady]
          cases hlaunch : launchNode (env id) t.spec id t.shared with
          | error e =>
              dsimp only
              rw [ih _ _ (@Launchable.tail _ _ _ h (·.launchFailed e) fun _ => rfl)]
              refine @modifyNode_mergePending (·.launchFailed e) (fun _ => rfl) t.spec id
                (fun n hn => ?_) i
              rw [hpending n hn]
              exact mergePending_of_plain rfl (launchNode_error_plain hlaunch)
          | ok out =>
              obtain ⟨spec, shared⟩ := out
              obtain ⟨branch, wt, rfl, -⟩ := launchNode_ok hlaunch
              dsimp only
              have htail := @Launchable.tail _ _ _ h (·.launched t.shared.nextUuid branch wt)
                fun _ => rfl
              rw [ih _ _ htail]
              refine @modifyNode_mergePending (·.launched t.shared.nextUuid branch wt) (fun _ => rfl)
                t.spec id (fun n hn => ?_) i
              rw [hpending n hn]
              exact mergePending_of_not_blocked (by simp [GraphNode.launched])

/-! ## §3. The texts of stopped runs. -/

/-- The run is not blocked with a text that reads like a merge. -/
def GoalStatus.Plain (status : GoalStatus) : Prop := ∀ d, status = .blocked d → PlainText d

theorem GoalStatus.plain_of_open {status : GoalStatus} (h : status.isTerminal = false) :
    status.Plain := by
  intro d hd
  rw [hd] at h
  cases h

theorem plain_blocked {d : String} (h : PlainText d) : (GoalStatus.blocked d).Plain := by
  intro d' hd
  cases hd
  exact h

theorem plain_done : GoalStatus.done.Plain := by
  intro d hd
  cases hd

/-- No run is blocked with such a text, and the main loop has none to write back. -/
structure World.PlainRuns (w : World) : Prop where
  runs : EveryRun (fun _ run => run.status.Plain) w.shared.goals
  due  : ∀ ws due todo status, w.driver = .writing ws due todo →
    WriteBack.escalate status ∈ due → status.Plain

theorem SetRun.apply_plain (f : SetRun) {run : GoalRun} (h : run.status.Plain) :
    (f.apply run).status.Plain := by
  have hclear : run.status.clearAttention.Plain := by
    cases hst : run.status with
    | needsAttention d => exact GoalStatus.plain_of_open rfl
    | running => exact GoalStatus.plain_of_open rfl
    | done => exact plain_done
    | blocked d =>
        rw [hst] at h
        exact h
  cases f with
  | textBack => exact hclear
  | working => exact hclear
  | finished => exact plain_done
  | noTextTicks _ | idleTicks _ | nudged => exact h

/-- **What the operations on the registry do to the texts.** -/
theorem GoalOp.onRun_plain {op : GoalOp} {ws : Uuid} {run run' : GoalRun}
    (hop : ∀ k status now, op = .escalate k status now → status.Plain)
    (h : op.onRun ws (some run) = some run') (hrun : run.status.Plain) : run'.status.Plain := by
  have hif : ∀ (k : Uuid) (f : GoalRun → GoalRun), (f run).status.Plain →
      (if ws = k then (some run).map f else some run) = some run' → run'.status.Plain := by
    intro k f hf heq
    by_cases hk : ws = k
    · rw [if_pos hk] at heq
      cases heq
      exact hf
    · rw [if_neg hk] at heq
      cases heq
      exact hrun
  cases op with
  | keep | grow =>
      cases h
      exact hrun
  | setRun k f => exact hif k f.apply (f.apply_plain hrun) h
  | escalate k status now =>
      refine hif k (·.escalate status now) ?_ h
      rw [GoalRun.escalate_status]
      exact hop k status now rfl
  | stop k => exact hif k GoalRun.stop (plain_blocked (by decide)) h
  | markDone k => exact hif k GoalRun.markDone plain_done h
  | begin k next => exact hif k (·.begin next) (GoalStatus.plain_of_open rfl) h
  | stopOf g =>
      cases h
      show (run.stopIfOf g).status.Plain
      unfold GoalRun.stopIfOf
      split
      · exact plain_blocked (by decide)
      · exact hrun
  | purge live =>
      dsimp only [GoalOp.onRun] at h
      obtain ⟨heq, -⟩ := Option.filter_eq_some_iff.mp h
      cases heq
      exact hrun
  | drop k =>
      dsimp only [GoalOp.onRun] at h
      split at h <;> cases h
      exact hrun
  | clear => cases h

/-- Everything the main loop escalates has a text of its own. -/
theorem driveOne_plain {ws k : Uuid} {run : GoalRun} {opened : Bool} {obs : Observation}
    {due : List WriteBack} (h : driveOne ws run opened obs = .write k due) {status : GoalStatus}
    (hmem : WriteBack.escalate status ∈ due) : status.Plain := by
  have hopen : ∀ d, (GoalStatus.needsAttention d).Plain := fun d => GoalStatus.plain_of_open rfl
  have hidle : WriteBack.escalate status ∈ driveIdle run obs → status.Plain := by
    intro hin
    unfold driveIdle at hin
    dsimp only at hin
    repeat' split at hin
    all_goals simp only [List.mem_singleton, List.not_mem_nil, WriteBack.escalate.injEq,
      reduceCtorEq] at hin
    · rw [hin]
      exact plain_blocked (by decide)
    · rw [hin]
      exact hopen _
  have hscreen : WriteBack.escalate status ∈ driveScreen run obs → status.Plain := by
    intro hin
    unfold driveScreen at hin
    cases hs : obs.screen with
    | none =>
        rw [hs] at hin
        rcases List.mem_cons.mp hin with heq | hin
        · cases heq
        · split at hin
          · cases List.mem_singleton.mp hin
            exact hopen _
          · exact absurd hin List.not_mem_nil
    | some screen =>
        rw [hs] at hin
        rcases List.mem_append.mp hin with hin | hin
        · -- what resets the watchdog is no escalation
          split at hin
          · cases List.mem_singleton.mp hin
          · exact absurd hin List.not_mem_nil
        · split at hin
          · cases List.mem_singleton.mp hin
            exact hopen _
          · split at hin
            · cases List.mem_singleton.mp hin
            · cases List.mem_singleton.mp hin
            · exact hidle hin
            · exact hidle hin
  unfold driveOne at h
  split at h
  · cases h
  split at h
  · -- a report
    unfold onIterationFile at h
    dsimp only at h
    split at h
    · cases h
      cases List.mem_singleton.mp hmem
    · split at h
      · split at h
        · cases h
        · cases h
          cases List.mem_singleton.mp hmem
          exact plain_blocked (by decide)
      · cases h
        cases List.mem_singleton.mp hmem
        exact hopen _
  · cases h
    cases List.mem_singleton.mp hmem
    exact hopen _
  · split at h
    · cases h
      exact absurd hmem List.not_mem_nil
    · split at h
      · cases h
        cases List.mem_singleton.mp hmem
        exact plain_blocked (by decide)
      · split at h
        · cases h
          exact absurd hmem List.not_mem_nil
        · cases h
          exact hscreen hmem

theorem plainRuns_law :
    LaunchLaw (fun _ => True) fun _ run => run.status.Plain where
  node _ _ _ _ := trivial
  launched _ _ _ _ := GoalStatus.plain_of_open rfl

/-- What the main loop has to write back after a step: what it had before, or what it has
found in an evaluation. -/
theorem step_due {w w' : World} {a : Act} (h : w.step a = some w') {ws : Uuid}
    {due : List WriteBack} {todo : List Uuid} (hd : w'.driver = .writing ws due todo) :
    (∃ before, w.driver = .writing ws (before ++ due) todo) ∨
      ∃ k run opened obs, driveOne k run opened obs = .write ws due := by
  have hsame : w'.driver = w.driver → ∃ before, w.driver = .writing ws (before ++ due) todo :=
    fun heq => ⟨[], by rw [← heq, hd]; rfl⟩
  cases a with
  | request r =>
      cases h
      exact .inl (hsame (serve_frame w r).2.1)
  | thread t s => exact .inl (hsame (threadStep_frame h).1)
  | openWorkspace =>
      cases h
      exact .inl (hsame rfl)
  | closeWorkspace k =>
      cases h
      exact .inl (hsame rfl)
  | restart unreadable restored =>
      obtain ⟨-, rfl⟩ := World.step_restart h
      cases hd
  | driver s =>
      have hdriver : w.driverStep s = some w' := h
      cases World.driverStep_turn hdriver with
      | evaluate obs k run todo' hturn =>
          refine .inr ⟨k, run, decide (k ∈ w.shared.workspaces), obs, ?_⟩
          dsimp only at hd
          cases hplan : driveOne k run (decide (k ∈ w.shared.workspaces)) obs with
          | write k' due' =>
              rw [hplan] at hd
              cases hd
              rfl
          | drop k' =>
              rw [hplan] at hd
              cases hd
          | advance k' =>
              rw [hplan] at hd
              cases hd
      | write now k wb due' todo' hturn =>
          cases hd
          exact .inl ⟨[wb], hturn⟩
      | process _ _ _ _ | tick _ | snapshot _ | purge _ _ | collect _ | cloneEnd _
      | cloneGone _ _ _ | clone _ _ _ _ _ | drop _ _ _ | writeEnd _ _ _ _ | callRefused _ _ _ _
      | call _ _ _ _ _ _ | returned _ _ _ => cases hd

theorem step_plainRuns {w w' : World} {a : Act} (hw : w.Wf) (hp : w.PlainRuns)
    (h : w.step a = some w') : w'.PlainRuns where
  runs := by
    refine step_everyRun plainRuns_law hw hp.runs ?_ (fun ws run run' hop hrun => ?_) h
    · unfold CreatesBy
      split <;> trivial
    · refine GoalOp.onRun_plain (fun k status now hescalate => ?_) hop hrun
      obtain ⟨-, due, todo, hd⟩ := escalate_of_goalOp hescalate
      exact hp.due k _ todo status hd List.mem_cons_self
  due ws due todo status hd hmem := by
    rcases step_due h hd with ⟨before, hbefore⟩ | ⟨k, run, opened, obs, hplan⟩
    · exact hp.due ws _ todo status hbefore (List.mem_append_right before hmem)
    · exact driveOne_plain hplan hmem

theorem World.Start.plainRuns {w : World} (h : w.Start) : w.PlainRuns where
  runs ws run hrun := by
    rw [h.goals] at hrun
    cases hrun
  due ws due todo status hd := by
    rw [h.driver] at hd
    cases hd

end Jmux.Goal
