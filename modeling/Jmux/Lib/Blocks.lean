/-
  Jmux.Lib.Blocks — the elements of one kind stand next to each other.

  `Contiguous p l` says that the elements of `l` in `p` form one block.  A block
  survives whatever only takes elements away; an element that comes in breaks it
  exactly when it is of another kind and lands strictly inside.

  Main results:
    * `contiguous_insert_iff` — another element comes in.
    * `Contiguous.insert_behind_last` — an element of the kind comes in behind the last.
    * `blockMoved_resplice` — a block lifted out and put back elsewhere.
-/
import Mathlib.Data.List.Basic
import Mathlib.Data.List.Perm.Basic
import Jmux.Lib.MoveOne

namespace Jmux.Lib

variable {α : Type*}

/-! ## §1. One block. -/

/-- The elements in `p` form one block, which may be empty. -/
def Contiguous (p : α → Bool) (l : List α) : Prop :=
  ∃ before block after, l = before ++ block ++ after ∧
    (∀ x ∈ before, p x = false) ∧ (∀ x ∈ block, p x = true) ∧ ∀ x ∈ after, p x = false

section Contiguous

variable {p : α → Bool} {a b l l' : List α} {x m : α}

/-- Taking elements away keeps the block. -/
theorem Contiguous.sublist (h : Contiguous p l) (hsub : l'.Sublist l) : Contiguous p l' := by
  obtain ⟨before, block, after, rfl, hbefore, hblock, hafter⟩ := h
  obtain ⟨front, rear, rfl, hfront, hrear⟩ := List.sublist_append_iff.mp hsub
  obtain ⟨fst, snd, rfl, hfst, hsnd⟩ := List.sublist_append_iff.mp hfront
  refine ⟨fst, snd, rear, rfl, ?_, ?_, ?_⟩
  · intro x hx
    exact hbefore x (hfst.subset hx)
  · intro x hx
    exact hblock x (hsnd.subset hx)
  · intro x hx
    exact hafter x (hrear.subset hx)

/-- Between two elements of a block everything is of the kind. -/
theorem Contiguous.between (h : Contiguous p (a ++ x :: b)) (ha : ∃ y ∈ a, p y = true)
    (hb : ∃ z ∈ b, p z = true) : p x = true := by
  obtain ⟨y, hy, hpy⟩ := ha
  obtain ⟨z, hz, hpz⟩ := hb
  have hsub : [y, x, z].Sublist (a ++ x :: b) :=
    (List.singleton_sublist.mpr hy).append ((List.singleton_sublist.mpr hz).cons_cons x)
  obtain ⟨before, block, after, hl, hbefore, hblock, hafter⟩ := h.sublist hsub
  cases before with
  | cons c before =>
      have hc : y = c := by simpa using congrArg List.head? hl
      have := hbefore c List.mem_cons_self
      simp [← hc, hpy] at this
  | nil =>
      by_cases hx : x ∈ block
      · exact hblock x hx
      · -- `x` is behind the block, and so is everything behind it
        exfalso
        have hzafter : z ∈ after := by
          rcases block with _ | ⟨c, _ | ⟨d, rest⟩⟩
          · simp only [List.nil_append] at hl
            simp [← hl]
          · simp only [List.nil_append, List.cons_append, List.cons.injEq] at hl
            simp [← hl.2]
          · simp only [List.nil_append, List.cons_append, List.cons.injEq] at hl
            exact absurd (by simp [hl.2.1]) hx
        have := hafter z hzafter
        simp [hpz] at this

theorem contiguous_append_of_left (ha : ∀ y ∈ a, p y = false) :
    Contiguous p (a ++ b) ↔ Contiguous p b := by
  constructor
  · intro h
    exact h.sublist (List.sublist_append_right a b)
  · intro h
    obtain ⟨before, block, after, rfl, hbefore, hblock, hafter⟩ := h
    refine ⟨a ++ before, block, after, by simp, ?_, hblock, hafter⟩
    intro x hx
    rcases List.mem_append.mp hx with hx | hx
    · exact ha x hx
    · exact hbefore x hx

theorem contiguous_append_of_right (hb : ∀ y ∈ b, p y = false) :
    Contiguous p (a ++ b) ↔ Contiguous p a := by
  constructor
  · intro h
    exact h.sublist (List.sublist_append_left a b)
  · intro h
    obtain ⟨before, block, after, rfl, hbefore, hblock, hafter⟩ := h
    refine ⟨before, block, after ++ b, by simp, hbefore, hblock, ?_⟩
    intro x hx
    rcases List.mem_append.mp hx with hx | hx
    · exact hafter x hx
    · exact hb x hx

/-! ## §2. An element comes in. -/

/-- Another element breaks the block exactly when it lands strictly inside. -/
theorem contiguous_insert_iff (hx : p x = false) :
    Contiguous p (a ++ x :: b) ↔
      Contiguous p (a ++ b) ∧ ¬ ((∃ y ∈ a, p y = true) ∧ ∃ z ∈ b, p z = true) := by
  constructor
  · intro h
    refine ⟨h.sublist ((List.Sublist.refl a).append (List.sublist_cons_self x b)), ?_⟩
    intro hinside
    have := h.between hinside.1 hinside.2
    simp [hx] at this
  · intro h
    obtain ⟨h, hinside⟩ := h
    by_cases ha : ∃ y ∈ a, p y = true
    · have hb : ∀ z ∈ b, p z = false := by
        intro z hz
        by_contra hp
        exact hinside ⟨ha, z, hz, by simpa using hp⟩
      have hxb : ∀ z ∈ x :: b, p z = false := by
        simpa [hx] using hb
      exact (contiguous_append_of_right hxb).mpr ((contiguous_append_of_right hb).mp h)
    · have ha : ∀ y ∈ a, p y = false := by
        simpa using ha
      have hax : ∀ y ∈ a ++ [x], p y = false := by
        intro y hy
        rcases List.mem_append.mp hy with hy | hy
        · exact ha y hy
        · rw [List.mem_singleton.mp hy]
          exact hx
      rw [List.append_cons a x b, contiguous_append_of_left hax]
      exact (contiguous_append_of_left ha).mp h

/-- An element of the kind joins the block behind its last element. -/
theorem Contiguous.insert_behind_last (h : Contiguous p (a ++ m :: b)) (hm : p m = true)
    (hx : p x = true) (hb : ∀ z ∈ b, p z = false) : Contiguous p (a ++ m :: x :: b) := by
  have hfront : Contiguous p (a ++ [m]) := by
    rw [List.append_cons] at h
    exact (contiguous_append_of_right hb).mp h
  suffices hjoined : Contiguous p (a ++ [m] ++ [x]) by
    have := (contiguous_append_of_right hb).mpr hjoined
    simpa using this
  obtain ⟨before, block, after, hl, hbefore, hblock, hafter⟩ := hfront
  -- the list ends in `m`, so nothing is behind the block
  have hnil : after = [] := by
    by_contra hne
    obtain ⟨rest, z, rfl⟩ := (List.eq_nil_or_concat after).resolve_left hne
    rw [List.concat_eq_append, ← List.append_assoc] at hl
    obtain ⟨_, hz⟩ := List.append_inj' hl rfl
    have := hafter m (by simp [List.cons.inj hz])
    simp [hm] at this
  refine ⟨before, block ++ [x], [], ?_, hbefore, ?_, by simp⟩
  · rw [hl, hnil]
    simp
  · intro z hz
    rcases List.mem_append.mp hz with hz | hz
    · exact hblock z hz
    · rw [List.mem_singleton.mp hz]
      exact hx

/-- The first element of the kind is a block of its own. -/
theorem contiguous_insert_first (hx : p x = true) (hnone : ∀ y ∈ a ++ b, p y = false) :
    Contiguous p (a ++ x :: b) := by
  refine ⟨a, [x], b, by simp, ?_, by simpa using hx, ?_⟩
  · intro y hy
    exact hnone y (List.mem_append_left b hy)
  · intro y hy
    exact hnone y (List.mem_append_right a hy)

end Contiguous

/-! ## §3. The last position of the kind. -/

theorem positions_append (p : α → Bool) (a b : List α) (start : Nat) :
    positions p (a ++ b) start = positions p a start ++ positions p b (start + a.length) := by
  unfold positions
  rw [List.zipIdx_append, List.filter_append, List.map_append]

theorem positions_of_none {p : α → Bool} {l : List α} (h : ∀ x ∈ l, p x = false) (start : Nat) :
    positions p l start = [] := by
  induction l generalizing start with
  | nil => rfl
  | cons x l ih =>
      rw [positions_cons, if_neg (by simp [h x List.mem_cons_self])]
      exact ih (fun y hy => h y (List.mem_cons_of_mem x hy)) (start + 1)

theorem le_of_mem_positions {p : α → Bool} {l : List α} {start i : Nat}
    (h : i ∈ positions p l start) : start ≤ i ∧ i < start + l.length := by
  unfold positions at h
  obtain ⟨⟨x, j⟩, hx, rfl⟩ := List.mem_map.mp h
  have := List.mem_zipIdx (List.mem_filter.mp hx).1
  exact ⟨this.1, this.2.1⟩

/-- A list with an element of the kind, split at the last one. -/
theorem exists_last {p : α → Bool} {l : List α} (h : ∃ x ∈ l, p x = true) :
    ∃ a m b, l = a ++ m :: b ∧ p m = true ∧ ∀ z ∈ b, p z = false := by
  induction l with
  | nil => simp at h
  | cons x l ih =>
      by_cases hl : ∃ y ∈ l, p y = true
      · obtain ⟨a, m, b, rfl, hm, hb⟩ := ih hl
        exact ⟨x :: a, m, b, rfl, hm, hb⟩
      · have hnone : ∀ y ∈ l, p y = false := by
          simpa using hl
        obtain ⟨y, hy, hp⟩ := h
        rcases List.mem_cons.mp hy with rfl | hy
        · exact ⟨[], y, l, rfl, hp, hnone⟩
        · exact absurd ⟨y, hy, hp⟩ hl

theorem getLast?_positions {p : α → Bool} {a b : List α} {m : α} (hm : p m = true)
    (hb : ∀ z ∈ b, p z = false) (start : Nat) :
    (positions p (a ++ m :: b) start).getLast? = some (start + a.length) := by
  rw [positions_append, positions_cons, if_pos hm, positions_of_none hb]
  simp

/-- The last position of the kind besides the one of `x`. -/
theorem getLast?_positions_other {p : α → Bool} {before after : List α} {x : α} :
    ((positions p (before ++ x :: after) 0).filter (· ≠ before.length)).getLast? =
      (positions p before 0 ++ positions p after (before.length + 1)).getLast? := by
  have hbefore : (positions p before 0).filter (· ≠ before.length) = positions p before 0 := by
    rw [List.filter_eq_self]
    intro i hi
    have := (le_of_mem_positions hi).2
    simp only [decide_eq_true_eq]
    omega
  have hafter : (positions p after (before.length + 1)).filter (· ≠ before.length) =
      positions p after (before.length + 1) := by
    rw [List.filter_eq_self]
    intro i hi
    have := (le_of_mem_positions hi).1
    simp only [decide_eq_true_eq]
    omega
  rw [positions_append, positions_cons, List.filter_append, hbefore, Nat.zero_add]
  split
  · rw [List.filter_cons_of_neg (by simp), hafter]
  · rw [hafter]

/-- `x` moves right behind the last other element of the kind. -/
theorem moveOne_behind_last {p : α → Bool} {before after : List α} (x : α)
    (h : ∃ y ∈ before ++ after, p y = true) :
    ∃ a m b last, before ++ after = a ++ m :: b ∧ p m = true ∧ (∀ z ∈ b, p z = false) ∧
      ((positions p (before ++ x :: after) 0).filter (· ≠ before.length)).getLast? = some last ∧
      moveOne (before ++ x :: after) before.length
        (if last > before.length then last else last + 1) = a ++ m :: x :: b := by
  rw [getLast?_positions_other]
  by_cases hafter : ∃ y ∈ after, p y = true
  · obtain ⟨a, m, b, rfl, hm, hb⟩ := exists_last hafter
    refine ⟨before ++ a, m, b, before.length + 1 + a.length, by simp, hm, hb, ?_, ?_⟩
    · rw [List.getLast?_append, getLast?_positions hm hb]
      rfl
    · -- the elements up to `m` slide one place down
      have hmove := moveOne_lower before b x (List.append_ne_nil_of_right_ne_nil a
        (List.cons_ne_nil m []))
      rw [if_pos (by omega)]
      have hlen : before.length + 1 + a.length = before.length + (a ++ [m]).length := by
        simp
        omega
      rw [hlen]
      simpa using hmove
  · have hnone : ∀ y ∈ after, p y = false := by
      simpa using hafter
    have hbefore : ∃ y ∈ before, p y = true := by
      obtain ⟨y, hy, hp⟩ := h
      rcases List.mem_append.mp hy with hy | hy
      · exact ⟨y, hy, hp⟩
      · exact absurd ⟨y, hy, hp⟩ hafter
    obtain ⟨a, m, b, rfl, hm, hb⟩ := exists_last hbefore
    refine ⟨a, m, b ++ after, a.length, by simp, hm, ?_, ?_, ?_⟩
    · intro z hz
      rcases List.mem_append.mp hz with hz | hz
      · exact hb z hz
      · exact hnone z hz
    · rw [positions_of_none hnone, List.append_nil, getLast?_positions hm hb, Nat.zero_add]
    · rw [if_neg (by simp)]
      by_cases hb : b = []
      · subst hb
        have hself : a.length + 1 = (a ++ [m]).length := by simp
        rw [hself, moveOne_self]
        simp
      · have hmove := moveOne_lift (a ++ [m]) after x hb
        have hfrom : (a ++ m :: b).length = (a ++ [m]).length + b.length := by
          simp
          omega
        have hto : a.length + 1 = (a ++ [m]).length := by simp
        rw [hfrom, hto]
        simpa using hmove

/-! ## §4. A block lifted out and put back. -/

/-- From `l` to `l'` the elements in `p` move and keep their order, as the
others do. -/
structure BlockMoved (p : α → Bool) (l l' : List α) : Prop where
  perm    : l'.Perm l
  members : l'.filter p = l.filter p
  others  : l'.filter (!p ·) = l.filter (!p ·)

theorem BlockMoved.refl (p : α → Bool) (l : List α) : BlockMoved p l l where
  perm    := List.Perm.refl l
  members := rfl
  others  := rfl

/-- The elements in `p` as one block somewhere among the others. -/
theorem blockMoved_resplice {p : α → Bool} {l before after : List α}
    (h : l.filter (!p ·) = before ++ after) :
    BlockMoved p l (before ++ l.filter p ++ after) := by
  have hout : ∀ x ∈ before ++ after, p x = false := by
    intro x hx
    rw [← h] at hx
    simpa using (List.mem_filter.mp hx).2
  have hbefore : ∀ x ∈ before, p x = false := fun x hx => hout x (List.mem_append_left after hx)
  have hafter : ∀ x ∈ after, p x = false := fun x hx => hout x (List.mem_append_right before hx)
  have hnone : ∀ {s : List α}, (∀ x ∈ s, p x = false) → s.filter p = [] := by
    intro s hs
    rw [List.filter_eq_nil_iff]
    intro x hx
    simp [hs x hx]
  have hall : ∀ {s : List α}, (∀ x ∈ s, p x = false) → s.filter (!p ·) = s := by
    intro s hs
    rw [List.filter_eq_self]
    intro x hx
    simp [hs x hx]
  constructor
  · have hsplit : (l.filter p ++ l.filter (!p ·)).Perm l := List.filter_append_perm p l
    refine List.Perm.trans ?_ hsplit
    rw [h, List.append_assoc]
    exact List.perm_append_comm_assoc before (l.filter p) after
  · rw [List.filter_append, List.filter_append, hnone hbefore, hnone hafter, List.filter_filter]
    simp
  · have hgone : (l.filter p).filter (!p ·) = [] := by
      rw [List.filter_filter]
      simp
    rw [List.filter_append, List.filter_append, hall hbefore, hall hafter, hgone, h]
    simp

end Jmux.Lib
