/-
  Jmux.Lib.MoveOne — one entry of a list taken out and put back elsewhere.

  A list with at most one entry of interest (`p`).  Somebody moves the entry at
  an index; whether that was the entry of interest can be read off the lists
  before and after.

  Main result: `movesOnly_moveOne_iff` — a move towards one end moves the entry
  of interest alone exactly when the index is that entry's, or nothing moves.
-/
import Mathlib.Data.List.Nodup
import Mathlib.Data.List.Count
import Mathlib.Data.List.Perm.Basic
import Jmux.Lib.Cursor

namespace Jmux.Lib

variable {α : Type*}

/-! ## §1. The move and what it should keep. -/

/-- Take out the entry at `i` and put it back at `j`. -/
def moveOne (l : List α) (i j : Nat) : List α :=
  match l[i]? with
  | none => l
  | some x => if j ≥ l.length ∨ i = j then l else (l.eraseIdx i).insertIdx j x

/-- The end of the list that a move goes to. -/
inductive Toward
  | front
  | back
  deriving DecidableEq

/-- The index `j` is not further from that end than `i`. -/
def Toward.Nears : Toward → Nat → Nat → Prop
  | .front, i, j => j ≤ i
  | .back, i, j => i ≤ j

instance : ∀ (toward : Toward) (i j : Nat), Decidable (toward.Nears i j)
  | .front, i, j => inferInstanceAs (Decidable (j ≤ i))
  | .back, i, j => inferInstanceAs (Decidable (i ≤ j))

/-- From `l` to `l'` the entries outside `p` keep their order, and the entry in
`p` goes towards the given end if anywhere. -/
structure MovesOnly (p : α → Bool) (toward : Toward) (l l' : List α) : Prop where
  others : l'.filter (!p ·) = l.filter (!p ·)
  nears  : toward.Nears (l.findIdx p) (l'.findIdx p)

theorem MovesOnly.refl (p : α → Bool) (toward : Toward) (l : List α) :
    MovesOnly p toward l l where
  others := rfl
  nears := by
    cases toward with
    | front => exact Nat.le_refl _
    | back => exact Nat.le_refl _

/-- A move back is read backwards. -/
theorem MovesOnly.comm {p : α → Bool} {l l' : List α} :
    MovesOnly p .back l l' ↔ MovesOnly p .front l' l :=
  ⟨fun h => ⟨h.others.symm, h.nears⟩, fun h => ⟨h.others.symm, h.nears⟩⟩

/-! ## §2. An entry lifted over a block. -/

section Lift

variable {p : α → Bool} {front block rear : List α} {x : α}

theorem moveOne_lift (front rear : List α) (x : α) (hblock : block ≠ []) :
    moveOne (front ++ block ++ x :: rear) (front.length + block.length) front.length =
      front ++ x :: (block ++ rear) := by
  have hpos : 0 < block.length := List.length_pos_iff.mpr hblock
  have hget : (front ++ block ++ x :: rear)[front.length + block.length]? = some x := by
    rw [← List.length_append, List.getElem?_append_right (Nat.le_refl _)]
    simp
  have herase : (front ++ block ++ x :: rear).eraseIdx (front.length + block.length) =
      front ++ (block ++ rear) := by
    rw [← List.length_append, List.eraseIdx_append_of_length_le (Nat.le_refl _)]
    simp
  unfold moveOne
  rw [hget]
  dsimp only
  rw [if_neg, herase, insertIdx_append_length]
  simp only [List.length_append, List.length_cons]
  omega

theorem moveOne_lower (front rear : List α) (x : α) (hblock : block ≠ []) :
    moveOne (front ++ x :: (block ++ rear)) front.length (front.length + block.length) =
      front ++ block ++ x :: rear := by
  have hpos : 0 < block.length := List.length_pos_iff.mpr hblock
  have hget : (front ++ x :: (block ++ rear))[front.length]? = some x := by
    simp
  have herase : (front ++ x :: (block ++ rear)).eraseIdx front.length = front ++ block ++ rear := by
    rw [List.eraseIdx_append_of_length_le (Nat.le_refl _)]
    simp
  unfold moveOne
  rw [hget]
  dsimp only
  rw [if_neg, herase, ← List.length_append, insertIdx_append_length]
  simp only [List.length_append, List.length_cons]
  omega

/-- Behind entries outside `p` the search starts over. -/
theorem findIdx_append_of_countP (l : List α) (hnone : front.countP p = 0) :
    (front ++ l).findIdx p = l.findIdx p + front.length := by
  have hfront : front.findIdx p = front.length := by
    apply List.findIdx_eq_length_of_false
    intro y hy
    have h := List.countP_eq_zero.mp hnone y hy
    simpa using h
  rw [List.findIdx_append, hfront, if_neg (Nat.lt_irrefl _)]

/-- The entry of interest, lifted, moves alone and to the front. -/
theorem movesOnly_lift (hx : p x = true)
    (hone : (front ++ block ++ x :: rear).countP p ≤ 1) :
    MovesOnly p .front (front ++ block ++ x :: rear) (front ++ x :: (block ++ rear)) where
  others := by simp [hx]
  nears := by
    show (front ++ x :: (block ++ rear)).findIdx p ≤ (front ++ block ++ x :: rear).findIdx p
    have hcount : (front ++ block).countP p = 0 := by
      rw [List.countP_append, List.countP_cons_of_pos hx] at hone
      omega
    have hfront : front.countP p = 0 := by
      rw [List.countP_append] at hcount
      omega
    rw [findIdx_append_of_countP _ hcount, findIdx_append_of_countP _ hfront,
      List.findIdx_cons, List.findIdx_cons, hx, List.length_append]
    show 0 + front.length ≤ 0 + (front.length + block.length)
    omega

/-- Any other entry, lifted, comes before one that it was behind, or pushes the
entry of interest back. -/
theorem not_movesOnly_lift (hx : p x = false) (hblock : block ≠ [])
    (hnd : (front ++ block ++ x :: rear).Nodup)
    (hone : (front ++ block ++ x :: rear).countP p ≤ 1) :
    ¬ MovesOnly p .front (front ++ block ++ x :: rear) (front ++ x :: (block ++ rear)) := by
  intro h
  have hmem : x ∉ block := by
    intro hx
    have hmid := List.nodup_middle.mp hnd
    exact (List.nodup_cons.mp hmid).1 (by simp [hx])
  have hothers := h.others
  simp only [List.filter_append, List.filter_cons, hx, Bool.not_false, if_true,
    List.append_assoc, List.append_cancel_left_eq] at hothers
  cases hrest : block.filter (!p ·) with
  | cons y ys =>
      rw [hrest] at hothers
      obtain rfl : x = y := (List.cons.inj hothers).1
      have hy : x ∈ block.filter (!p ·) := by
        rw [hrest]
        exact List.mem_cons_self
      exact hmem (List.mem_filter.mp hy).1
  | nil =>
      -- the block is in `p`, so the entry of interest is its first
      cases block with
      | nil => exact hblock rfl
      | cons b bs =>
          have hb : p b = true := by
            have hb := List.filter_eq_nil_iff.mp hrest b List.mem_cons_self
            simpa using hb
          have hfront : front.countP p = 0 := by
            rw [List.countP_append, List.countP_append, List.countP_cons_of_pos hb] at hone
            omega
          have hnears : (front ++ x :: (b :: bs ++ rear)).findIdx p ≤
              (front ++ (b :: bs) ++ x :: rear).findIdx p := h.nears
          have hbefore : (b :: bs ++ x :: rear).findIdx p = 0 := by
            rw [List.cons_append, List.findIdx_cons, hb]
            rfl
          have hafter : 0 < (x :: (b :: bs ++ rear)).findIdx p := by
            rw [List.findIdx_cons, hx]
            exact Nat.succ_pos _
          rw [List.append_assoc, findIdx_append_of_countP _ hfront,
            findIdx_append_of_countP _ hfront, hbefore] at hnears
          omega

end Lift

/-! ## §3. Which entry a move is about. -/

variable {p : α → Bool} {l : List α}

/-- A list around two of its indices. -/
theorem exists_around {i j : Nat} {x : α} (hx : l[i]? = some x) (hj : j < i) :
    ∃ front block rear, l = front ++ block ++ x :: rear ∧ front.length = j ∧
      front.length + block.length = i ∧ block ≠ [] := by
  obtain ⟨hi, hget⟩ := List.getElem?_eq_some_iff.mp hx
  refine ⟨l.take j, (l.take i).drop j, l.drop (i + 1), ?_, ?_, ?_, ?_⟩
  · have hhead : l.take j ++ (l.take i).drop j = l.take i := by
      have htake : (l.take i).take j = l.take j := by
        rw [List.take_take, Nat.min_eq_left (Nat.le_of_lt hj)]
      rw [← htake, List.take_append_drop]
    rw [hhead, ← hget, ← List.drop_eq_getElem_cons hi, List.take_append_drop]
  · rw [List.length_take]
    omega
  · rw [List.length_drop, List.length_take, List.length_take]
    omega
  · apply List.ne_nil_of_length_pos
    rw [List.length_drop, List.length_take]
    omega

/-- A move loses nothing. -/
theorem moveOne_perm (l : List α) (i j : Nat) : (moveOne l i j).Perm l := by
  unfold moveOne
  cases hx : l[i]? with
  | none => exact List.Perm.refl l
  | some x =>
      obtain ⟨hi, rfl⟩ := List.getElem?_eq_some_iff.mp hx
      dsimp only
      split
      · exact List.Perm.refl l
      · have hj : j ≤ (l.eraseIdx i).length := by
          rw [List.length_eraseIdx_of_lt hi]
          omega
        exact (List.perm_insertIdx l[i] (l.eraseIdx i) hj).trans (List.getElem_cons_eraseIdx_perm hi)

theorem moveOne_self (l : List α) (i : Nat) : moveOne l i i = l := by
  unfold moveOne
  cases hx : l[i]? with
  | none => rfl
  | some x => simp

theorem moveOne_of_le {i j : Nat} (h : l.length ≤ i ∨ l.length ≤ j) : moveOne l i j = l := by
  unfold moveOne
  cases hx : l[i]? with
  | none => rfl
  | some x =>
      have hi := (List.getElem?_eq_some_iff.mp hx).1
      dsimp only
      rw [if_pos]
      omega

theorem movesOnly_lift_iff {front block rear : List α} {x : α} (hblock : block ≠ [])
    (hnd : (front ++ block ++ x :: rear).Nodup)
    (hone : (front ++ block ++ x :: rear).countP p ≤ 1) :
    MovesOnly p .front (front ++ block ++ x :: rear) (front ++ x :: (block ++ rear)) ↔
      p x = true := by
  constructor
  · intro h
    cases hx : p x with
    | true => rfl
    | false => exact absurd h (not_movesOnly_lift hx hblock hnd hone)
  · intro hx
    exact movesOnly_lift hx hone

/-- **Whose move it was**: a move towards one end is one of the entry of interest
alone exactly when the index is that entry's or nothing moves. -/
theorem movesOnly_moveOne_iff (hnd : l.Nodup) (hone : l.countP p ≤ 1) {toward : Toward}
    {i j : Nat} (htoward : toward.Nears i j) :
    MovesOnly p toward l (moveOne l i j) ↔
      l[i]?.any p ∨ l.length ≤ i ∨ l.length ≤ j ∨ i = j := by
  by_cases hout : l.length ≤ i ∨ l.length ≤ j ∨ i = j
  · have hsame : moveOne l i j = l := by
      rcases hout with hi | hj | rfl
      · exact moveOne_of_le (.inl hi)
      · exact moveOne_of_le (.inr hj)
      · exact moveOne_self l i
    rw [hsame]
    exact iff_of_true (MovesOnly.refl p toward l) (.inr hout)
  · have hi : i < l.length := by omega
    have hj : j < l.length := by omega
    rw [or_iff_left hout]
    obtain ⟨x, hx⟩ : ∃ x, l[i]? = some x := ⟨l[i], List.getElem?_eq_getElem hi⟩
    obtain ⟨y, hy⟩ : ∃ y, l[j]? = some y := ⟨l[j], List.getElem?_eq_getElem hj⟩
    rw [hx, Option.any_some]
    cases toward with
    | front =>
        have hlt : j < i := Nat.lt_of_le_of_ne htoward (by omega)
        obtain ⟨front, block, rear, rfl, rfl, rfl, hblock⟩ := exists_around hx hlt
        rw [moveOne_lift front rear x hblock]
        exact movesOnly_lift_iff hblock hnd hone
    | back =>
        -- read backwards, the move lifts `x` over what it was put behind
        have hlt : i < j := Nat.lt_of_le_of_ne htoward (by omega)
        obtain ⟨front, block, rear, rfl, rfl, rfl, hblock⟩ := exists_around hy hlt
        cases block with
        | nil => exact absurd rfl hblock
        | cons z bs =>
            obtain rfl : z = x := by simpa using hx
            have hne : bs ++ [y] ≠ [] := by simp
            have hl : front ++ z :: bs ++ y :: rear = front ++ z :: (bs ++ [y] ++ rear) := by simp
            have hlen : front.length + (z :: bs).length = front.length + (bs ++ [y]).length := by
              simp
            have hperm : (front ++ (bs ++ [y]) ++ z :: rear).Perm
                (front ++ z :: (bs ++ [y] ++ rear)) := by
              rw [List.append_assoc front]
              apply List.Perm.append_left
              have hmid := @List.perm_middle _ z (bs ++ [y]) rear
              rwa [List.append_assoc] at hmid ⊢
            rw [hl] at hnd hone ⊢
            rw [hlen, moveOne_lower front rear z hne, MovesOnly.comm]
            exact movesOnly_lift_iff hne (hperm.nodup_iff.mpr hnd)
              (le_of_eq_of_le (hperm.countP_eq p) hone)

end Jmux.Lib
