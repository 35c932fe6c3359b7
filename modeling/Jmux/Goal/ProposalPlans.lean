/-
  Jmux.Goal.ProposalPlans — which plans `parse_proposal` accepts.

  The checks of a node are read off one by one.  The cycle check is a worklist: the
  in-degree of a node is the number of its dependencies that are not done, and the order
  in which the queue starts, a hash map's, does not matter.

  Main results:
    * `checkNodes_iff`        — the checks before the cycle check.
    * `kahn_worklist`         — the queue loop, also with its subtraction checked.
    * `orderedCount_eq_iff`   — all nodes are ordered when there is no cycle.
    * `parseProposal_exact`   — the plans that are accepted, and what comes back.
-/
import Jmux.Goal.Proposal
import Jmux.Lib.TopologicalOrder

namespace Jmux.Goal

open Jmux.Lib

/-! ## §1. Plans. -/

namespace Proposal

def ids (p : Proposal) : List String := p.nodes.map (·.id)

/-- Node `a` lists `b` as a dependency. -/
def DependsOn (p : Proposal) (a b : String) : Prop := ∃ n ∈ p.nodes, n.id = a ∧ b ∈ n.deps

/-- What a plan has to be, in its own words. -/
structure WellFormed (p : Proposal) : Prop where
  some     : 1 ≤ p.nodes.length
  few      : p.nodes.length ≤ 50
  valid    : ∀ n ∈ p.nodes, validNodeId n.id = true
  distinct : p.ids.Nodup
  goals    : ∀ n ∈ p.nodes, ∃ c ∈ n.goal.toList, Str.isWhitespace c = false
  known    : ∀ n ∈ p.nodes, ∀ d ∈ n.deps, d ≠ n.id ∧ ∃ m ∈ p.nodes, m.id = d
  once     : ∀ n ∈ p.nodes, n.deps.Nodup
  acyclic  : ∀ id, ¬ Relation.TransGen p.DependsOn id id

/-- The plan comes to the cycle check. -/
structure PassesChecks (p : Proposal) : Prop where
  distinct : p.ids.Nodup
  nodes    : checkNodes p.ids p.nodes = .ok ()

/-- The dependencies of the node with the id. -/
def depsOf (p : Proposal) (id : String) : List String :=
  ((p.nodes.find? fun n => n.id = id).map (·.deps)).getD []

theorem depsOf_eq {p : Proposal} (hnd : p.ids.Nodup) {n : ProposalNode} (hn : n ∈ p.nodes) :
    p.depsOf n.id = n.deps := by
  have hfind : p.nodes.find? (fun m => m.id = n.id) = .some n :=
    (List.find?_key_eq_some hnd).mpr ⟨hn, rfl⟩
  unfold depsOf
  rw [hfind]
  rfl

theorem waitsFor_iff {p : Proposal} (hnd : p.ids.Nodup) (a b : String) :
    WaitsFor p.ids p.depsOf a b ↔ p.DependsOn a b := by
  unfold WaitsFor ids DependsOn
  rw [List.mem_map]
  constructor
  · rintro ⟨⟨n, hn, rfl⟩, hb⟩
    rw [depsOf_eq hnd hn] at hb
    exact ⟨n, hn, rfl, hb⟩
  · rintro ⟨n, hn, rfl, hb⟩
    refine ⟨⟨n, hn, rfl⟩, ?_⟩
    rw [depsOf_eq hnd hn]
    exact hb

theorem acyclic_iff {p : Proposal} (hnd : p.ids.Nodup) :
    Acyclic p.ids p.depsOf ↔ ∀ id, ¬ Relation.TransGen p.DependsOn id id := by
  have hsame : WaitsFor p.ids p.depsOf = p.DependsOn :=
    funext fun a => funext fun b => propext (waitsFor_iff hnd a b)
  unfold Acyclic
  rw [hsame]

end Proposal

/-! ## §2. The checks of a node. -/

theorem checkDeps_iff (ids : List String) (id : String) (seen deps : List String) :
    checkDeps ids id seen deps = .ok () ↔
      (∀ d ∈ deps, d ∈ ids ∧ d ≠ id ∧ d ∉ seen) ∧ deps.Nodup := by
  induction deps generalizing seen with
  | nil => simp [checkDeps]
  | cons d deps ih =>
      rw [checkDeps]
      by_cases hknown : d ∈ ids
      · rw [if_neg (not_not.mpr hknown)]
        by_cases hself : d = id
        · rw [if_pos hself]
          simp [hself]
        · rw [if_neg hself]
          by_cases hseen : d ∈ seen
          · rw [if_pos hseen]
            simp [hseen]
          · rw [if_neg hseen, ih (d :: seen), List.nodup_cons, List.forall_mem_cons]
            constructor
            · rintro ⟨hall, hnodup⟩
              refine ⟨⟨⟨hknown, hself, hseen⟩, fun e he => ?_⟩, fun hmem => ?_, hnodup⟩
              · obtain ⟨hin, hne, hnew⟩ := hall e he
                exact ⟨hin, hne, fun hmem => hnew (List.mem_cons_of_mem d hmem)⟩
              · exact (hall d hmem).2.2 List.mem_cons_self
            · rintro ⟨⟨-, hall⟩, hd, hnodup⟩
              refine ⟨fun e he => ⟨(hall e he).1, (hall e he).2.1, fun hmem => ?_⟩, hnodup⟩
              rcases List.mem_cons.mp hmem with rfl | hmem
              · exact hd he
              · exact (hall e he).2.2 hmem
      · rw [if_pos hknown]
        simp [hknown]

theorem checkNode_iff (ids : List String) (n : ProposalNode) :
    checkNode ids n = .ok () ↔ validNodeId n.id = true ∧
      (∃ c ∈ n.goal.toList, Str.isWhitespace c = false) ∧
      (∀ d ∈ n.deps, d ∈ ids ∧ d ≠ n.id) ∧ n.deps.Nodup := by
  unfold checkNode
  cases hvalid : validNodeId n.id with
  | false => simp
  | true =>
      rw [Bool.not_true, if_neg Bool.false_ne_true]
      by_cases hgoal : Str.trim n.goal = ""
      · rw [if_pos hgoal]
        have hblank := (Str.trim_eq_empty_iff n.goal).mp hgoal
        refine iff_of_false (fun h => nomatch h) ?_
        rintro ⟨-, ⟨c, hc, hwhite⟩, -⟩
        rw [hblank c hc] at hwhite
        exact nomatch hwhite
      · rw [if_neg hgoal, checkDeps_iff]
        have hsome : ∃ c ∈ n.goal.toList, Str.isWhitespace c = false := by
          by_contra hnone
          refine hgoal ((Str.trim_eq_empty_iff n.goal).mpr fun c hc => ?_)
          rw [← Bool.not_eq_false]
          exact fun hfalse => hnone ⟨c, hc, hfalse⟩
        simp only [List.not_mem_nil, not_false_eq_true, and_true, true_and, hsome]

theorem checkNodes_iff (ids : List String) (ns : List ProposalNode) :
    checkNodes ids ns = .ok () ↔ ∀ n ∈ ns, checkNode ids n = .ok () := by
  induction ns with
  | nil => simp [checkNodes]
  | cons n ns ih =>
      rw [checkNodes, List.forall_mem_cons]
      cases hn : checkNode ids n with
      | error e => simp
      | ok _ => simp [ih]

/-! ## §3. The queue loop. -/

/-- The loop over the dependents with its subtraction checked: `none` is a panic. -/
def releaseChecked (id : String) : List ProposalNode →
    AList (fun _ : String => Nat) × List String → Option (AList (fun _ : String => Nat) × List String)
  | [], state => some state
  | n :: ns, state =>
      if id ∈ n.deps then
        match state.1.lookup n.id with
        | some (degree + 1) =>
            releaseChecked id ns (state.1.modify n.id fun _ => degree,
              if degree = 0 then n.id :: state.2 else state.2)
        -- a key that is not there, or an in-degree below zero
        | _ => none
      else releaseChecked id ns state

/-- The queue loop with its subtractions checked. -/
def kahnChecked (nodes : List ProposalNode) :
    Nat → AList (fun _ : String => Nat) → List String → Nat → Option Nat
  | 0, _, _, seen => some seen
  | _ + 1, _, [], seen => some seen
  | fuel + 1, table, id :: queue, seen =>
      match releaseChecked id nodes (table, queue) with
      | some state => kahnChecked nodes fuel state.1 state.2 (seen + 1)
      | none => none

section Release

variable {id : String} {ns : List ProposalNode} {table : AList (fun _ : String => Nat)}
  {queue : List String}

theorem releaseDependents_cons (n : ProposalNode) (ns : List ProposalNode) (id : String)
    (state : AList (fun _ : String => Nat) × List String) :
    releaseDependents (n :: ns) id state = releaseDependents ns id
      (if id ∈ n.deps then
        (state.1.modify n.id (· - 1),
          if (state.1.modify n.id (· - 1)).lookup n.id = some 0 then n.id :: state.2 else state.2)
      else state) := rfl

/-- The node is a dependent, and this was the last one that it waited for. -/
def Freed (id : String) (table : AList (fun _ : String => Nat)) (n : ProposalNode) : Bool :=
  decide (id ∈ n.deps) && decide (table.lookup n.id = some 1)

/-- **One turn of the queue loop**, when no dependent is at zero. -/
theorem releaseChecked_spec (hnd : (ns.map (·.id)).Nodup)
    (hpos : ∀ n ∈ ns, id ∈ n.deps → ∃ degree, table.lookup n.id = some (degree + 1)) :
    releaseChecked id ns (table, queue) = some (releaseDependents ns id (table, queue)) ∧
    (releaseDependents ns id (table, queue)).2 =
      ((ns.filter (Freed id table)).map (·.id)).reverse ++ queue ∧
    (∀ n ∈ ns, id ∈ n.deps → (releaseDependents ns id (table, queue)).1.lookup n.id =
      (table.lookup n.id).map (· - 1)) ∧
    ∀ key, (∀ n ∈ ns, n.id = key → id ∉ n.deps) →
      (releaseDependents ns id (table, queue)).1.lookup key = table.lookup key := by
  induction ns generalizing table queue with
  | nil => exact ⟨rfl, rfl, fun n hn => absurd hn List.not_mem_nil, fun _ _ => rfl⟩
  | cons n ns ih =>
      obtain ⟨hfirst, hrest⟩ := List.nodup_cons.mp hnd
      have hother : ∀ m ∈ ns, m.id ≠ n.id := fun m hm heq =>
        hfirst (List.mem_map.mpr ⟨m, hm, heq⟩)
      rw [releaseDependents_cons, releaseChecked]
      by_cases hdep : id ∈ n.deps
      · obtain ⟨degree, hdegree⟩ := hpos n List.mem_cons_self hdep
        have hmodify : table.modify n.id (· - 1) = table.modify n.id (fun _ => degree) := by
          unfold AList.modify
          rw [hdegree]
          rfl
        have hkeep : ∀ key, key ≠ n.id →
            (table.modify n.id fun _ => degree).lookup key = table.lookup key := by
          intro key hne
          rw [AList.lookup_modify, if_neg hne]
        have hself : (table.modify n.id fun _ => degree).lookup n.id = some degree := by
          rw [AList.lookup_modify, if_pos rfl, hdegree]
          rfl
        rw [if_pos hdep, if_pos hdep, hdegree]
        simp only [hmodify, hself, Option.some.injEq]
        obtain ⟨hchecked, hqueue, hlookup, hothers⟩ := @ih (table.modify n.id fun _ => degree)
          (if degree = 0 then n.id :: queue else queue) hrest fun m hm hm' => by
            rw [hkeep m.id (hother m hm)]
            exact hpos m (List.mem_cons_of_mem _ hm) hm'
        refine ⟨hchecked, ?_, fun m hm hm' => ?_, fun key hkey => ?_⟩
        · have hfreed : ns.filter (Freed id (table.modify n.id fun _ => degree)) =
              ns.filter (Freed id table) := by
            refine List.filter_congr fun m hm => ?_
            unfold Freed
            rw [hkeep m.id (hother m hm)]
          rw [hqueue, hfreed]
          by_cases hzero : degree = 0
          · have hn : Freed id table n = true := by simp [Freed, hdep, hdegree, hzero]
            rw [if_pos hzero, List.filter_cons_of_pos hn]
            simp
          · have hn : ¬ Freed id table n = true := by simp [Freed, hdep, hdegree, hzero]
            rw [if_neg hzero, List.filter_cons_of_neg hn]
        · rcases List.mem_cons.mp hm with rfl | hm
          · have hlast := hothers m.id fun m' hm'' heq => absurd heq (hother m' hm'')
            rw [hlast, hself, hdegree]
            rfl
          · rw [hlookup m hm hm', hkeep m.id (hother m hm)]
        · have hne : key ≠ n.id := fun heq => hkey n List.mem_cons_self heq.symm hdep
          rw [hothers key fun m hm => hkey m (List.mem_cons_of_mem _ hm), hkeep key hne]
      · have hn : ¬ Freed id table n = true := by simp [Freed, hdep]
        rw [if_neg hdep, if_neg hdep, List.filter_cons_of_neg hn]
        obtain ⟨hchecked, hqueue, hlookup, hothers⟩ := @ih table queue hrest
          fun m hm => hpos m (List.mem_cons_of_mem _ hm)
        refine ⟨hchecked, hqueue, fun m hm hm' => ?_, fun key hkey => ?_⟩
        · rcases List.mem_cons.mp hm with rfl | hm
          · exact absurd hm' hdep
          · exact hlookup m hm hm'
        · exact hothers key fun m hm => hkey m (List.mem_cons_of_mem _ hm)

end Release

/-! ## §4. The pass over the nodes. -/

section Pass

variable {p : Proposal} {done queue : List String} {table : AList (fun _ : String => Nat)}

/-- The in-degree of a node is the number of its dependencies that are not done. -/
def Tracks (p : Proposal) (done : List String) (table : AList (fun _ : String => Nat)) : Prop :=
  ∀ n ∈ p.nodes, table.lookup n.id = some (unmet done n.deps)

theorem Proposal.PassesChecks.node (h : p.PassesChecks) {n : ProposalNode} (hn : n ∈ p.nodes) :
    checkNode p.ids n = .ok () :=
  (checkNodes_iff p.ids p.nodes).mp h.nodes n hn

theorem Proposal.PassesChecks.once (h : p.PassesChecks) {n : ProposalNode} (hn : n ∈ p.nodes) :
    n.deps.Nodup :=
  ((checkNode_iff p.ids n).mp (h.node hn)).2.2.2

theorem Proposal.PassesChecks.known (h : p.PassesChecks) :
    ∀ a ∈ p.ids, ∀ d ∈ p.depsOf a, d ∈ p.ids := by
  intro a ha d hd
  obtain ⟨n, hn, rfl⟩ := List.mem_map.mp ha
  rw [Proposal.depsOf_eq h.distinct hn] at hd
  exact (((checkNode_iff p.ids n).mp (h.node hn)).2.2.1 d hd).1

/-- The nodes that a turn of the loop puts into the queue. -/
def freedBy (p : Proposal) (table : AList (fun _ : String => Nat)) (id : String) : List String :=
  ((p.nodes.filter (Freed id table)).map (·.id)).reverse

theorem mem_freedBy_iff (hp : p.PassesChecks) (htracks : Tracks p done table) {id : String}
    (hnew : id ∉ done) (b : String) : b ∈ freedBy p table id ↔
      b ∈ p.ids ∧ id ∈ p.depsOf b ∧ ∀ d ∈ p.depsOf b, d ∈ id :: done := by
  have hfreed : ∀ n ∈ p.nodes, (Freed id table n = true ↔
      id ∈ p.depsOf n.id ∧ ∀ d ∈ p.depsOf n.id, d ∈ id :: done) := by
    intro n hn
    rw [Proposal.depsOf_eq hp.distinct hn, ← unmet_eq_zero_iff]
    unfold Freed
    rw [htracks n hn, Bool.and_eq_true, decide_eq_true_eq, decide_eq_true_eq, Option.some.injEq]
    refine and_congr_right fun hdep => ?_
    rw [unmet_cons_of_mem (hp.once hn) hdep hnew, Nat.add_eq_right]
  unfold freedBy Proposal.ids
  rw [List.mem_reverse, List.mem_map, List.mem_map]
  constructor
  · rintro ⟨n, hn, rfl⟩
    obtain ⟨hmem, hfree⟩ := List.mem_filter.mp hn
    exact ⟨⟨n, hmem, rfl⟩, (hfreed n hmem).mp hfree⟩
  · rintro ⟨⟨n, hn, rfl⟩, hrest⟩
    exact ⟨n, List.mem_filter.mpr ⟨hn, (hfreed n hn).mpr hrest⟩, rfl⟩

/-- **The queue loop does the worklist**, and no subtraction goes below zero. -/
theorem kahn_worklist (hp : p.PassesChecks) (fuel : Nat)
    (hwork : Worklist p.ids p.depsOf done queue) (htracks : Tracks p done table)
    (hfuel : p.nodes.length < done.length + fuel) :
    ∃ done', Worklist p.ids p.depsOf done' [] ∧
      kahn p.nodes fuel table queue done.length = done'.length ∧
      kahnChecked p.nodes fuel table queue done.length = some done'.length := by
  induction fuel generalizing done queue table with
  | zero =>
      have hlength := hwork.length_le
      have hids : p.ids.length = p.nodes.length := List.length_map _
      omega
  | succ fuel ih =>
      cases queue with
      | nil => exact ⟨done, hwork, rfl, rfl⟩
      | cons id queue =>
          have hnew : id ∉ done := fun hmem =>
            (List.nodup_append.mp hwork.nodup).2.2 id hmem id List.mem_cons_self rfl
          have hunmet : ∀ n ∈ p.nodes, id ∈ n.deps →
              table.lookup n.id = some (unmet (id :: done) n.deps + 1) := by
            intro n hn hdep
            rw [htracks n hn, unmet_cons_of_mem (hp.once hn) hdep hnew]
          obtain ⟨hchecked, hqueue, hlookup, hothers⟩ := @releaseChecked_spec id p.nodes table queue
            hp.distinct fun n hn hdep => ⟨_, hunmet n hn hdep⟩
          have hnodup : (freedBy p table id).Nodup :=
            List.nodup_reverse.mpr (hp.distinct.sublist (List.filter_sublist.map _))
          have hnext := hwork.step hnodup fun b => mem_freedBy_iff hp htracks hnew b
          rw [show freedBy p table id ++ queue = (releaseDependents p.nodes id (table, queue)).2
            from hqueue.symm] at hnext
          have htracks' : Tracks p (id :: done) (releaseDependents p.nodes id (table, queue)).1 := by
            intro n hn
            by_cases hdep : id ∈ n.deps
            · rw [hlookup n hn hdep, hunmet n hn hdep]
              rfl
            · rw [hothers n.id, htracks n hn, unmet_cons_of_notMem hdep]
              intro m hm heq
              have hsame := Proposal.depsOf_eq hp.distinct hm
              rw [heq, Proposal.depsOf_eq hp.distinct hn] at hsame
              rw [← hsame]
              exact hdep
          obtain ⟨done', hdone, hcount, hcount'⟩ := ih hnext htracks' (by
            rw [List.length_cons]
            omega)
          refine ⟨done', hdone, ?_, ?_⟩
          · rw [kahn]
            exact hcount
          · rw [kahnChecked, hchecked]
            exact hcount'

/-! ## §5. The start of the pass. -/

theorem lookup_zeros (ns : List ProposalNode) (table : AList (fun _ : String => Nat))
    (key : String) :
    (ns.foldl (fun m n => if n.id ∈ m then m else m.insert n.id 0) table).lookup key =
      (table.lookup key).or (if key ∈ ns.map (·.id) then some 0 else none) := by
  induction ns generalizing table with
  | nil =>
      show table.lookup key = _
      simp
  | cons n ns ih =>
      rw [List.foldl_cons, ih]
      by_cases hmem : n.id ∈ table
      · rw [if_pos hmem]
        by_cases hkey : key = n.id
        · obtain ⟨v, hv⟩ := Option.isSome_iff_exists.mp (AList.lookup_isSome.mpr (hkey ▸ hmem))
          rw [hv]
          rfl
        · simp [hkey]
      · rw [if_neg hmem, AList.lookup_insert_eq_ite]
        by_cases hkey : key = n.id
        · have hnone : table.lookup key = none := AList.lookup_eq_none.mpr (hkey ▸ hmem)
          rw [if_pos hkey, hnone]
          simp [hkey]
        · rw [if_neg hkey]
          simp [hkey]

theorem lookup_counts {ns : List ProposalNode} (hnd : (ns.map (·.id)).Nodup)
    (table : AList (fun _ : String => Nat)) :
    (∀ n ∈ ns, (ns.foldl (fun m n => m.modify n.id (· + n.deps.length)) table).lookup n.id =
      (table.lookup n.id).map (· + n.deps.length)) ∧
    ∀ key ∉ ns.map (·.id), (ns.foldl (fun m n => m.modify n.id (· + n.deps.length)) table).lookup key =
      table.lookup key := by
  induction ns generalizing table with
  | nil => exact ⟨fun n hn => absurd hn List.not_mem_nil, fun _ _ => rfl⟩
  | cons n ns ih =>
      obtain ⟨hfirst, hrest⟩ := List.nodup_cons.mp hnd
      obtain ⟨hcounts, hothers⟩ := ih hrest (table.modify n.id (· + n.deps.length))
      refine ⟨fun m hm => ?_, fun key hkey => ?_⟩
      · rw [List.foldl_cons]
        rcases List.mem_cons.mp hm with rfl | hm
        · rw [hothers m.id hfirst, AList.lookup_modify, if_pos rfl]
        · have hne : m.id ≠ n.id := fun heq => hfirst (List.mem_map.mpr ⟨m, hm, heq⟩)
          rw [hcounts m hm, AList.lookup_modify, if_neg hne]
      · obtain ⟨hne, hkey⟩ := List.mem_cons.not.mp hkey |> not_or.mp
        rw [List.foldl_cons, hothers key hkey, AList.lookup_modify, if_neg hne]

theorem indegrees_tracks (hnd : p.ids.Nodup) : Tracks p [] (indegrees p.nodes) := by
  intro n hn
  unfold indegrees
  dsimp only
  rw [(lookup_counts hnd _).1 n hn, lookup_zeros, if_pos (List.mem_map_of_mem hn), unmet_nil]
  simp

theorem indegrees_none (hnd : p.ids.Nodup) {key : String} (hkey : key ∉ p.ids) :
    (indegrees p.nodes).lookup key = none := by
  unfold indegrees
  dsimp only
  have hkey' : key ∉ p.nodes.map (·.id) := hkey
  rw [(lookup_counts hnd _).2 key hkey', lookup_zeros, if_neg hkey']
  simp

/-- The ids without dependencies, in the order of the table. -/
def startQueue (nodes : List ProposalNode) : List String :=
  ((indegrees nodes).entries.filter fun e => e.2 = 0).map (·.1)

theorem mem_startQueue_iff (hnd : p.ids.Nodup) (a : String) :
    a ∈ startQueue p.nodes ↔ a ∈ p.ids ∧ p.depsOf a = [] := by
  have hlookup : a ∈ startQueue p.nodes ↔ (indegrees p.nodes).lookup a = some 0 := by
    unfold startQueue
    simp only [List.mem_map, List.mem_filter, decide_eq_true_eq]
    constructor
    · rintro ⟨⟨key, degree⟩, ⟨hmem, hzero⟩, rfl⟩
      rw [AList.mem_lookup_iff.mpr hmem]
      exact congrArg some hzero
    · intro h
      exact ⟨⟨a, 0⟩, ⟨AList.mem_lookup_iff.mp h, rfl⟩, rfl⟩
  rw [hlookup]
  by_cases ha : a ∈ p.ids
  · obtain ⟨n, hn, rfl⟩ := List.mem_map.mp ha
    rw [indegrees_tracks hnd n hn, unmet_nil, Proposal.depsOf_eq hnd hn, Option.some.injEq,
      List.length_eq_zero_iff]
    exact ⟨fun h => ⟨ha, h⟩, fun h => h.2⟩
  · rw [indegrees_none hnd ha]
    exact iff_of_false (fun h => nomatch h) fun h => ha h.1

theorem startQueue_nodup (nodes : List ProposalNode) : (startQueue nodes).Nodup :=
  (indegrees nodes).keys_nodup.sublist (List.filter_sublist.map _)

/-- The pass, from any order of the first queue. -/
theorem kahn_from (hp : p.PassesChecks) (hqueue : queue.Perm (startQueue p.nodes)) :
    ∃ done, Worklist p.ids p.depsOf done [] ∧
      kahn p.nodes (p.nodes.length + 1) (indegrees p.nodes) queue 0 = done.length ∧
      kahnChecked p.nodes (p.nodes.length + 1) (indegrees p.nodes) queue 0 = some done.length := by
  have hstart : Worklist p.ids p.depsOf [] queue := by
    refine .start (hqueue.nodup_iff.mpr (startQueue_nodup _)) fun a => ?_
    rw [hqueue.mem_iff]
    exact mem_startQueue_iff hp.distinct a
  exact kahn_worklist hp (p.nodes.length + 1) hstart (indegrees_tracks hp.distinct) (by simp)

theorem orderedCount_worklist (hp : p.PassesChecks) :
    ∃ done, Worklist p.ids p.depsOf done [] ∧ orderedCount p.nodes = done.length := by
  obtain ⟨done, hdone, hcount, -⟩ := kahn_from hp (List.reverse_perm (startQueue p.nodes))
  exact ⟨done, hdone, hcount⟩

/-- Every node is ordered exactly when there is no cycle. -/
theorem orderedCount_eq_iff (hp : p.PassesChecks) :
    orderedCount p.nodes = p.nodes.length ↔ ∀ id, ¬ Relation.TransGen p.DependsOn id id := by
  obtain ⟨done, hdone, hcount⟩ := orderedCount_worklist hp
  have hlength : p.ids.length = p.nodes.length := List.length_map _
  rw [hcount, ← Proposal.acyclic_iff hp.distinct, ← hdone.length_eq_iff hp.distinct hp.known, hlength]

/-- Whatever the order of the table, the same number of nodes is ordered. -/
theorem kahnChecked_eq (hp : p.PassesChecks) (hqueue : queue.Perm (startQueue p.nodes)) :
    kahnChecked p.nodes (p.nodes.length + 1) (indegrees p.nodes) queue 0 =
      some (orderedCount p.nodes) := by
  obtain ⟨done, hdone, -, hchecked⟩ := kahn_from hp hqueue
  obtain ⟨done', hdone', hcount⟩ := orderedCount_worklist hp
  rw [hchecked, hcount, (hdone.perm hdone').length_eq]

end Pass

/-! ## §6. `parse_proposal`. -/

section Parse

variable {p : Proposal}

theorem dedup_length_iff (l : List String) : l.dedup.length = l.length ↔ l.Nodup := by
  constructor
  · intro h
    exact List.dedup_eq_self.mp ((List.dedup_sublist l).eq_of_length h)
  · intro h
    rw [List.dedup_eq_self.mpr h]

theorem wellFormed_iff : p.WellFormed ↔
    (p.nodes ≠ [] ∧ p.nodes.length ≤ 50) ∧ p.PassesChecks ∧
      ∀ id, ¬ Relation.TransGen p.DependsOn id id := by
  constructor
  · intro h
    refine ⟨⟨List.ne_nil_of_length_pos h.some, h.few⟩, ⟨h.distinct, ?_⟩, h.acyclic⟩
    refine (checkNodes_iff _ _).mpr fun n hn => (checkNode_iff _ n).mpr ?_
    refine ⟨h.valid n hn, h.goals n hn, fun d hd => ?_, h.once n hn⟩
    obtain ⟨hne, m, hm, hid⟩ := h.known n hn d hd
    exact ⟨List.mem_map.mpr ⟨m, hm, hid⟩, hne⟩
  · rintro ⟨⟨hsome, hfew⟩, hp, hacyclic⟩
    have hnode := fun n (hn : n ∈ p.nodes) => (checkNode_iff p.ids n).mp (hp.node hn)
    refine ⟨List.length_pos_of_ne_nil hsome, hfew, fun n hn => (hnode n hn).1, hp.distinct,
      fun n hn => (hnode n hn).2.1, fun n hn d hd => ?_, fun n hn => (hnode n hn).2.2.2, hacyclic⟩
    obtain ⟨hmem, hne⟩ := (hnode n hn).2.2.1 d hd
    obtain ⟨m, hm, hid⟩ := List.mem_map.mp hmem
    exact ⟨hne, m, hm, hid⟩

theorem parseProposal_ok_iff (nodes : List GraphNode) :
    parseProposal (.ok (.ok p)) = .ok nodes ↔
      p.WellFormed ∧ nodes = p.nodes.map (·.toGraphNode) := by
  rw [wellFormed_iff]
  unfold parseProposal
  dsimp only
  by_cases hempty : p.nodes = []
  · rw [if_pos hempty]
    exact iff_of_false (fun h => nomatch h) fun h => h.1.1.1 hempty
  rw [if_neg hempty]
  by_cases hmany : p.nodes.length > 50
  · rw [if_pos hmany]
    exact iff_of_false (fun h => nomatch h) fun h => absurd h.1.1.2 (Nat.not_le.mpr hmany)
  rw [if_neg hmany]
  by_cases hdup : (p.nodes.map (·.id)).dedup.length ≠ (p.nodes.map (·.id)).length
  · rw [if_pos hdup]
    exact iff_of_false (fun h => nomatch h) fun h =>
      hdup ((dedup_length_iff _).mpr h.1.2.1.distinct)
  rw [if_neg hdup]
  have hdistinct : p.ids.Nodup := (dedup_length_iff _).mp (not_not.mp hdup)
  cases hnodes : checkNodes (p.nodes.map (·.id)) p.nodes with
  | error e =>
      refine iff_of_false (fun h => nomatch h) fun h => ?_
      exact nomatch hnodes.symm.trans h.1.2.1.nodes
  | ok _ =>
      have hp : p.PassesChecks := ⟨hdistinct, hnodes⟩
      by_cases hcount : orderedCount p.nodes = p.nodes.length
      · rw [if_neg (not_not.mpr hcount), Except.ok.injEq]
        have hplan := (orderedCount_eq_iff hp).mp hcount
        exact ⟨fun h => ⟨⟨⟨hempty, by omega⟩, hp, hplan⟩, h.symm⟩, fun h => h.2.symm⟩
      · rw [if_pos hcount]
        exact iff_of_false (fun h => nomatch h) fun h =>
          hcount ((orderedCount_eq_iff hp).mpr h.1.2.2)

end Parse

/-- **`parse_proposal` accepts the well-formed plans and no others**; the nodes come back
in their order, pending, with their dependencies; and the cycle check, from any order of
its table, takes no in-degree below zero. -/
theorem parseProposal_exact (p : Proposal) :
    ((∃ nodes, parseProposal (.ok (.ok p)) = .ok nodes) ↔ p.WellFormed) ∧
    (∀ nodes, parseProposal (.ok (.ok p)) = .ok nodes →
      nodes.map (fun n => (n.id, n.goal, n.deps)) = p.nodes.map (fun n => (n.id, n.goal, n.deps)) ∧
      ∀ n ∈ nodes, n.status = .pending) ∧
    ∀ queue, p.PassesChecks → queue.Perm (startQueue p.nodes) →
      kahnChecked p.nodes (p.nodes.length + 1) (indegrees p.nodes) queue 0 =
        some (orderedCount p.nodes) := by
  refine ⟨?_, ?_, fun queue hp hqueue => kahnChecked_eq hp hqueue⟩
  · constructor
    · rintro ⟨nodes, h⟩
      exact ((parseProposal_ok_iff nodes).mp h).1
    · intro h
      exact ⟨_, (parseProposal_ok_iff _).mpr ⟨h, rfl⟩⟩
  · intro nodes h
    obtain ⟨-, rfl⟩ := (parseProposal_ok_iff nodes).mp h
    refine ⟨by rw [List.map_map]; rfl, fun n hn => ?_⟩
    obtain ⟨m, -, rfl⟩ := List.mem_map.mp hn
    rfl

end Jmux.Goal
