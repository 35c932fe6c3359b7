/-
  Jmux.Lib.LongestChain — how far down the chains of a relation lead.

  The depth of an element is the length of the longest chain below it.  It is one more
  than the greatest depth among the elements right below, which is how programs compute it.

  Main results:
    * `isDepth_of_below`      — the depth from the depths right below.
    * `IsDepth.lt`            — an element below has a smaller depth,
    * `IsDepth.exists_below`  — and no depth is left out on the way down.
    * `length_le_of_acyclic`  — without a cycle no chain is longer than the elements.
-/
import Mathlib.Data.List.Chain
import Mathlib.Data.List.Nodup
import Mathlib.Data.List.Perm.Subperm
import Mathlib.Logic.Relation
import Mathlib.Order.Bounds.Basic

namespace Jmux.Lib

variable {ι : Type*} {r : ι → ι → Prop} {a b : ι}

/-! ## §1. Chains. -/

/-- The numbers of steps that can be taken down from an element. -/
def chainLengths (r : ι → ι → Prop) (a : ι) : Set Nat :=
  {n | ∃ below : List ι, List.IsChain r (a :: below) ∧ below.length = n}

/-- The longest chain below `a` has `n` steps. -/
def IsDepth (r : ι → ι → Prop) (a : ι) (n : Nat) : Prop := IsGreatest (chainLengths r a) n

theorem zero_mem_chainLengths (r : ι → ι → Prop) (a : ι) : 0 ∈ chainLengths r a :=
  ⟨[], List.isChain_singleton a, rfl⟩

/-- The first step of a chain, and the rest. -/
theorem succ_mem_chainLengths_iff {n : Nat} :
    n + 1 ∈ chainLengths r a ↔ ∃ b, r a b ∧ n ∈ chainLengths r b := by
  constructor
  · rintro ⟨below, hchain, hlength⟩
    cases below with
    | nil => exact nomatch hlength
    | cons b below =>
        obtain ⟨hstep, hrest⟩ := List.isChain_cons_cons.mp hchain
        exact ⟨b, hstep, below, hrest, Nat.succ.inj hlength⟩
  · rintro ⟨b, hstep, below, hchain, hlength⟩
    exact ⟨b :: below, List.isChain_cons_cons.mpr ⟨hstep, hchain⟩, congrArg (· + 1) hlength⟩

/-- **Without a cycle** a chain meets no element twice. -/
theorem length_le_of_acyclic (hacyclic : ∀ a, ¬ Relation.TransGen r a a) {elements : List ι}
    (hbelow : ∀ a b, r a b → b ∈ elements) {n : Nat} (hn : n ∈ chainLengths r a) :
    n ≤ elements.length := by
  obtain ⟨below, hchain, rfl⟩ := hn
  have hreach : (a :: below).Pairwise (Relation.TransGen r) :=
    (hchain.imp fun _ _ hstep => Relation.TransGen.single hstep).pairwise
  have hnodup : below.Nodup := by
    refine (List.pairwise_cons.mp hreach).2.imp ?_
    rintro b c hbc rfl
    exact hacyclic b hbc
  have hmem : ∀ c ∈ below, c ∈ elements := by
    intro c hc
    -- the last step to it
    obtain ⟨b, -, hstep⟩ := Relation.TransGen.tail'_iff.mp ((List.pairwise_cons.mp hreach).1 c hc)
    exact hbelow b c hstep
  exact (List.subperm_of_subset hnodup hmem).length_le

/-! ## §2. Depths. -/

theorem IsDepth.unique {m n : Nat} (hm : IsDepth r a m) (hn : IsDepth r a n) : m = n :=
  IsGreatest.unique hm hn

/-- An element below is less deep. -/
theorem IsDepth.lt {m n : Nat} (ha : IsDepth r a m) (hb : IsDepth r b n) (hab : r a b) : n < m :=
  ha.2 (succ_mem_chainLengths_iff.mpr ⟨b, hab, hb.1⟩)

/-- Right below an element is one that is less deep by one. -/
theorem IsDepth.exists_below {n : Nat} (ha : IsDepth r a (n + 1)) : ∃ b, r a b ∧ IsDepth r b n := by
  obtain ⟨b, hab, hn⟩ := succ_mem_chainLengths_iff.mp ha.1
  refine ⟨b, hab, hn, fun m hm => ?_⟩
  exact Nat.le_of_succ_le_succ (ha.2 (succ_mem_chainLengths_iff.mpr ⟨b, hab, hm⟩))

/-- Every smaller depth is the depth of an element further down. -/
theorem IsDepth.exists_of_le {m n : Nat} (ha : IsDepth r a n) (hle : m ≤ n) :
    ∃ b, Relation.ReflTransGen r a b ∧ IsDepth r b m := by
  induction n generalizing a with
  | zero => exact ⟨a, .refl, Nat.le_zero.mp hle ▸ ha⟩
  | succ n ih =>
      rcases Nat.lt_or_eq_of_le hle with hlt | rfl
      · obtain ⟨b, hab, hb⟩ := ha.exists_below
        obtain ⟨c, hbc, hc⟩ := ih hb (Nat.le_of_lt_succ hlt)
        exact ⟨c, .head hab hbc, hc⟩
      · exact ⟨a, .refl, ha⟩

/-- **The depth from the depths right below**: one more than the greatest of them. -/
theorem isDepth_of_below {ds : List Nat} (hds : ∀ d ∈ ds, ∃ b n, r a b ∧ d = n + 1 ∧ IsDepth r b n)
    (hall : ∀ b, r a b → ∃ n, n + 1 ∈ ds ∧ IsDepth r b n) : IsDepth r a (ds.max?.getD 0) := by
  constructor
  · cases hmax : ds.max? with
    | none => exact zero_mem_chainLengths r a
    | some d =>
        obtain ⟨b, n, hab, rfl, hdepth⟩ := hds d (List.max?_mem hmax)
        exact succ_mem_chainLengths_iff.mpr ⟨b, hab, hdepth.1⟩
  · intro m hm
    cases m with
    | zero => exact Nat.zero_le _
    | succ m =>
        obtain ⟨b, hab, hm⟩ := succ_mem_chainLengths_iff.mp hm
        obtain ⟨n, hn, hdepth⟩ := hall b hab
        exact (Nat.succ_le_succ (hdepth.2 hm)).trans (List.le_max?_getD_of_mem hn)

end Jmux.Lib
