/-
  Jmux.Lib.TopologicalOrder — ordering nodes by their dependencies with a worklist.

  A worklist takes a node whose dependencies are all done, does it, and takes up the
  nodes that waited for it alone.  The order in which it takes them does not matter: it
  comes to all the nodes exactly when no node depends on itself, through however many
  others.

  Main results:
    * `Worklist.step`      — doing the node at the head of the queue.
    * `Worklist.all_iff`   — with an empty queue all nodes are done, unless there is a cycle.
    * `Worklist.perm`      — the order in which nodes are taken does not matter.
    * `unmet_done`         — the dependencies that are not met, one fewer after a step.
-/
import Mathlib.Data.Fintype.Card
import Mathlib.Data.Set.Finite.List
import Mathlib.Order.WellFounded
import Mathlib.Logic.Relation
import Mathlib.Data.List.Nodup

namespace Jmux.Lib

variable {ι : Type*}

/-! ## §1. Cycles. -/

/-- `a` is one of the nodes and waits for `b`. -/
def WaitsFor (nodes : List ι) (deps : ι → List ι) (a b : ι) : Prop := a ∈ nodes ∧ b ∈ deps a

/-- No node waits for itself, directly or through others. -/
def Acyclic (nodes : List ι) (deps : ι → List ι) : Prop :=
  ∀ a, ¬ Relation.TransGen (WaitsFor nodes deps) a a

/-- Each node of the list stands before the nodes that it waits for. -/
inductive Ordered (deps : ι → List ι) : List ι → Prop
  | nil : Ordered deps []
  | cons {a : ι} {done : List ι} (met : ∀ d ∈ deps a, d ∈ done) (rest : Ordered deps done) :
      Ordered deps (a :: done)

section Ordered

variable {nodes : List ι} {deps : ι → List ι}

theorem Ordered.closed {done : List ι} (h : Ordered deps done) {a b : ι} (ha : a ∈ done)
    (hb : b ∈ deps a) : b ∈ done := by
  induction h with
  | nil => exact absurd ha List.not_mem_nil
  | @cons first done met rest ih =>
      rcases List.mem_cons.mp ha with rfl | ha
      · exact List.mem_cons_of_mem _ (met b hb)
      · exact List.mem_cons_of_mem _ (ih ha)

theorem Ordered.reaches {done : List ι} (h : Ordered deps done) {a b : ι} (ha : a ∈ done)
    (hab : Relation.TransGen (WaitsFor nodes deps) a b) : b ∈ done := by
  induction hab with
  | single hstep => exact h.closed ha hstep.2
  | tail _ hstep ih => exact h.closed ih hstep.2

/-- Nodes that can be put in order do not wait for themselves. -/
theorem Ordered.irrefl {done : List ι} (h : Ordered deps done) (hnodup : done.Nodup) {a : ι}
    (ha : a ∈ done) : ¬ Relation.TransGen (WaitsFor nodes deps) a a := by
  induction h with
  | nil => exact absurd ha List.not_mem_nil
  | @cons first done met rest ih =>
      obtain ⟨hfirst, hdone⟩ := List.nodup_cons.mp hnodup
      rcases List.mem_cons.mp ha with rfl | ha
      · intro hcycle
        -- after its first step the cycle stays in the rest
        obtain ⟨b, hstep, hback⟩ := Relation.TransGen.head'_iff.mp hcycle
        have hb : b ∈ done := met b hstep.2
        rcases Relation.reflTransGen_iff_eq_or_transGen.mp hback with heq | htrans
        · exact hfirst (heq ▸ hb)
        · exact hfirst (rest.reaches hb htrans)
      · exact ih hdone ha

theorem Ordered.acyclic {done : List ι} (h : Ordered deps done) (hnodup : done.Nodup)
    (hall : ∀ a ∈ nodes, a ∈ done) : Acyclic nodes deps := by
  intro a hcycle
  obtain ⟨b, hstep, -⟩ := Relation.TransGen.head'_iff.mp hcycle
  exact h.irrefl hnodup (hall a hstep.1) hcycle

/-- Without a cycle some node of the rest waits for nothing in it. -/
theorem Acyclic.exists_free (h : Acyclic nodes deps) {rest : ι → Prop}
    (hrest : ∀ a, rest a → a ∈ nodes) {a : ι} (ha : rest a) :
    ∃ b, rest b ∧ ∀ d ∈ deps b, ¬ rest d := by
  let later : {a // a ∈ nodes} → {a // a ∈ nodes} → Prop := fun b a =>
    Relation.TransGen (WaitsFor nodes deps) a.1 b.1
  have htrans : IsTrans _ later := ⟨fun _ _ _ hab hbc => hbc.trans hab⟩
  have hirrefl : Std.Irrefl later := ⟨fun a => h a.1⟩
  have hfinite : Finite {a // a ∈ nodes} := List.finite_toSet nodes
  have hwf : WellFounded later := Finite.wellFounded_of_trans_of_irrefl later
  obtain ⟨⟨b, hb⟩, hmem, hmin⟩ := hwf.has_min {a | rest a.1} ⟨⟨a, hrest a ha⟩, ha⟩
  refine ⟨b, hmem, fun d hd hdrest => ?_⟩
  exact hmin ⟨d, hrest d hdrest⟩ hdrest (.single ⟨hb, hd⟩)

end Ordered

/-! ## §2. The worklist. -/

/-- `done` in the order in which the nodes were taken, the last one first, and the nodes
in the queue, which wait for nothing else. -/
structure Worklist (nodes : List ι) (deps : ι → List ι) (done queue : List ι) : Prop where
  nodup   : (done ++ queue).Nodup
  ordered : Ordered deps done
  mem_iff : ∀ a, a ∈ done ++ queue ↔ a ∈ nodes ∧ ∀ d ∈ deps a, d ∈ done

section Worklist

variable {nodes : List ι} {deps : ι → List ι} {done queue : List ι} {a : ι}

theorem Worklist.mem_nodes (h : Worklist nodes deps done queue) (ha : a ∈ done) : a ∈ nodes :=
  ((h.mem_iff a).mp (List.mem_append_left _ ha)).1

/-- At the start the nodes without dependencies are in the queue, in any order. -/
theorem Worklist.start (hnodup : queue.Nodup)
    (hqueue : ∀ a, a ∈ queue ↔ a ∈ nodes ∧ deps a = []) : Worklist nodes deps [] queue where
  nodup := hnodup
  ordered := .nil
  mem_iff a := by
    rw [List.nil_append, hqueue]
    refine and_congr_right fun _ => ?_
    rw [List.eq_nil_iff_forall_not_mem]
    simp

/-- **Doing the node at the head**: the nodes that waited for it alone come in. -/
theorem Worklist.step (h : Worklist nodes deps done (a :: queue)) {freed : List ι}
    (hnodup : freed.Nodup)
    (hfreed : ∀ b, b ∈ freed ↔ b ∈ nodes ∧ a ∈ deps b ∧ ∀ d ∈ deps b, d ∈ a :: done) :
    Worklist nodes deps (a :: done) (freed ++ queue) := by
  have ha : a ∈ nodes ∧ ∀ d ∈ deps a, d ∈ done := (h.mem_iff a).mp (by simp)
  have hnew : a ∉ done := by
    intro hmem
    exact (List.nodup_append.mp h.nodup).2.2 a hmem a List.mem_cons_self rfl
  -- a freed node has waited for `a`, which was not done
  have hfresh : ∀ b ∈ freed, b ∉ done ++ a :: queue := by
    intro b hb hmem
    exact hnew (((h.mem_iff b).mp hmem).2 a ((hfreed b).mp hb).2.1)
  refine ⟨?_, .cons ha.2 h.ordered, fun b => ?_⟩
  · have hperm : (done ++ a :: queue).Perm (a :: (done ++ queue)) := List.perm_middle
    have hbefore := hperm.nodup_iff.mp h.nodup
    have hafter : (a :: done ++ (freed ++ queue)).Perm (freed ++ (a :: (done ++ queue))) := by
      rw [List.cons_append, ← List.append_assoc]
      have hswap : (done ++ freed ++ queue).Perm (freed ++ (done ++ queue)) := by
        rw [← List.append_assoc]
        exact List.perm_append_comm.append_right queue
      exact (hswap.cons a).trans List.perm_middle.symm
    rw [hafter.nodup_iff, List.nodup_append]
    refine ⟨hnodup, hbefore, fun b hb c hc heq => ?_⟩
    exact hfresh b hb (hperm.mem_iff.mpr (heq ▸ hc))
  · have hold := h.mem_iff b
    constructor
    · intro hb
      rcases List.mem_append.mp hb with hb | hb
      · rcases List.mem_cons.mp hb with rfl | hb
        · exact ⟨ha.1, fun d hd => List.mem_cons_of_mem _ (ha.2 d hd)⟩
        · obtain ⟨hmem, hdeps⟩ := hold.mp (List.mem_append_left _ hb)
          exact ⟨hmem, fun d hd => List.mem_cons_of_mem _ (hdeps d hd)⟩
      · rcases List.mem_append.mp hb with hb | hb
        · obtain ⟨hmem, -, hdeps⟩ := (hfreed b).mp hb
          exact ⟨hmem, hdeps⟩
        · obtain ⟨hmem, hdeps⟩ := hold.mp (List.mem_append_right _ (List.mem_cons_of_mem _ hb))
          exact ⟨hmem, fun d hd => List.mem_cons_of_mem _ (hdeps d hd)⟩
    · rintro ⟨hmem, hdeps⟩
      by_cases hwaits : a ∈ deps b
      · exact List.mem_append_right _ (List.mem_append_left _ ((hfreed b).mpr ⟨hmem, hwaits, hdeps⟩))
      · have hmet : ∀ d ∈ deps b, d ∈ done := by
          intro d hd
          rcases List.mem_cons.mp (hdeps d hd) with rfl | hdone
          · exact absurd hd hwaits
          · exact hdone
        rcases List.mem_append.mp (hold.mpr ⟨hmem, hmet⟩) with hb | hb
        · exact List.mem_append_left _ (List.mem_cons_of_mem _ hb)
        · rcases List.mem_cons.mp hb with rfl | hb
          · exact List.mem_append_left _ List.mem_cons_self
          · exact List.mem_append_right _ (List.mem_append_right _ hb)

/-- **When the queue is empty**, all nodes are done exactly when there is no cycle. -/
theorem Worklist.all_iff (h : Worklist nodes deps done [])
    (hdeps : ∀ b ∈ nodes, ∀ d ∈ deps b, d ∈ nodes) :
    (∀ b ∈ nodes, b ∈ done) ↔ Acyclic nodes deps := by
  have hnodup : done.Nodup := by
    have := h.nodup
    rwa [List.append_nil] at this
  constructor
  · exact h.ordered.acyclic hnodup
  · intro hacyclic b hb
    by_contra hnot
    obtain ⟨c, ⟨hc, hopen⟩, hfree⟩ := @Acyclic.exists_free _ nodes deps hacyclic
      (fun c => c ∈ nodes ∧ c ∉ done) (fun _ hc => hc.1) b ⟨hb, hnot⟩
    refine hopen ?_
    have hmem := (h.mem_iff c).mpr ⟨hc, fun d hd => ?_⟩
    · rwa [List.append_nil] at hmem
    · by_contra hd'
      exact hfree d hd ⟨hdeps c hc d hd, hd'⟩

/-- The same, by the number of nodes that are done. -/
theorem Worklist.length_eq_iff (h : Worklist nodes deps done []) (hnodes : nodes.Nodup)
    (hdeps : ∀ b ∈ nodes, ∀ d ∈ deps b, d ∈ nodes) :
    done.length = nodes.length ↔ Acyclic nodes deps := by
  have hnodup : done.Nodup := by
    have := h.nodup
    rwa [List.append_nil] at this
  have hsub : done.Subperm nodes := hnodup.subperm fun a ha => h.mem_nodes ha
  rw [← h.all_iff hdeps]
  constructor
  · intro hlength b hb
    exact (hsub.perm_of_length_le hlength.ge).mem_iff.mpr hb
  · intro hall
    exact le_antisymm hsub.length_le (hnodes.subperm hall).length_le

/-- However the nodes are taken, the same ones are done in the end. -/
theorem Worklist.perm {done' : List ι} (h : Worklist nodes deps done [])
    (h' : Worklist nodes deps done' []) : done.Perm done' := by
  have hsub : ∀ {l l' : List ι}, Worklist nodes deps l [] → Worklist nodes deps l' [] →
      ∀ a ∈ l, a ∈ l' := by
    intro l l' hl hl'
    have hnodes : ∀ a ∈ l, a ∈ nodes := fun a ha => hl.mem_nodes ha
    have hordered := hl.ordered
    clear hl
    induction hordered with
    | nil =>
        intro a ha
        exact absurd ha List.not_mem_nil
    | @cons first rest met ordered ih =>
        intro a ha
        have hrest : ∀ b ∈ rest, b ∈ l' := ih fun c hc => hnodes c (List.mem_cons_of_mem first hc)
        rcases List.mem_cons.mp ha with rfl | ha
        · have hmem := (hl'.mem_iff a).mpr ⟨hnodes a List.mem_cons_self, fun d hd =>
            hrest d (met d hd)⟩
          rwa [List.append_nil] at hmem
        · exact hrest a ha
  have hnodup : ∀ {l : List ι}, Worklist nodes deps l [] → l.Nodup := by
    intro l hl
    have := hl.nodup
    rwa [List.append_nil] at this
  exact (List.perm_ext_iff_of_nodup (hnodup h) (hnodup h')).mpr fun a =>
    ⟨hsub h h' a, hsub h' h a⟩

theorem Worklist.length_le (h : Worklist nodes deps done queue) :
    done.length + queue.length ≤ nodes.length := by
  rw [← List.length_append]
  exact (h.nodup.subperm fun a ha => ((h.mem_iff a).mp ha).1).length_le

end Worklist

/-! ## §3. Counting what is not met. -/

section Unmet

variable [DecidableEq ι] {done deps : List ι} {a : ι}

/-- How many of the dependencies are not done. -/
def unmet (done deps : List ι) : Nat := deps.countP (· ∉ done)

theorem unmet_eq_zero_iff : unmet done deps = 0 ↔ ∀ d ∈ deps, d ∈ done := by
  unfold unmet
  rw [List.countP_eq_zero]
  simp

@[simp] theorem unmet_nil (deps : List ι) : unmet [] deps = deps.length := by
  simp [unmet]

/-- One fewer, for a node that has waited for it. -/
theorem unmet_cons_of_mem (hdeps : deps.Nodup) (ha : a ∈ deps) (hnew : a ∉ done) :
    unmet done deps = unmet (a :: done) deps + 1 := by
  unfold unmet
  induction deps with
  | nil => exact absurd ha List.not_mem_nil
  | cons d deps ih =>
      obtain ⟨hd, hrest⟩ := List.nodup_cons.mp hdeps
      rcases List.mem_cons.mp ha with rfl | ha
      · have hsame : deps.countP (· ∉ done) = deps.countP (· ∉ a :: done) := by
          refine List.countP_congr fun c hc => ?_
          have hne : c ≠ a := fun heq => hd (heq ▸ hc)
          simp [hne]
        rw [List.countP_cons_of_pos (by simpa using hnew), List.countP_cons_of_neg (by simp), hsame]
      · have hne : d ≠ a := fun heq => hd (heq ▸ ha)
        have hcons := ih hrest ha
        simp only [List.countP_cons, List.mem_cons, hne, false_or] at hcons ⊢
        omega

/-- Unchanged for a node that has not. -/
theorem unmet_cons_of_notMem (ha : a ∉ deps) : unmet (a :: done) deps = unmet done deps := by
  unfold unmet
  refine List.countP_congr fun c hc => ?_
  have hne : c ≠ a := fun heq => ha (heq ▸ hc)
  simp [hne]

end Unmet

end Jmux.Lib
