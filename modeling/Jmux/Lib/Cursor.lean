/-
  Jmux.Lib.Cursor — a list with a cursor into it.

  The cursor is an index, what it stands for is an element.  The lemmas say
  where an element is after an erasure, a move, an insertion or the removal of
  several positions, so that a program's index adjustment can be compared with
  the element it is meant to follow.

  Main results:
    * `eraseAll_positions` — erasing from the back, one by one, the positions
                              that satisfy a test filters them out.
    * `insertAll_eq`       — inserting a block element by element.
    * `tracks_eraseIdx`, `tracks_move`, `tracks_insertIdx` — the cursor follows.
-/
import Mathlib.Data.List.Nodup
import Mathlib.Data.List.InsertIdx

namespace Jmux.Lib

variable {α κ : Type*}

/-! ## §1. The cursor and the element under it. -/

/-- The cursor is on an element, or nowhere because there is none. -/
def CursorOn (l : List α) : Option Nat → Prop
  | none => l = []
  | some i => i < l.length

instance [DecidableEq α] (l : List α) (cursor : Option Nat) : Decidable (CursorOn l cursor) :=
  match cursor with
  | none => inferInstanceAs (Decidable (l = []))
  | some i => inferInstanceAs (Decidable (i < l.length))

/-- The key of the element under the cursor. -/
def keyAt (key : α → κ) (l : List α) (cursor : Option Nat) : Option κ :=
  (cursor.bind (l[·]?)).map key

/-- An element that was under the cursor and is still in the list is under it still. -/
def Tracks (key : α → κ) (l : List α) (cursor : Option Nat) (l' : List α)
    (cursor' : Option Nat) : Prop :=
  ∀ k, keyAt key l cursor = some k → k ∈ l'.map key → keyAt key l' cursor' = some k

theorem keyAt_some (key : α → κ) (l : List α) (i : Nat) :
    keyAt key l (some i) = l[i]?.map key := rfl

theorem keyAt_mem {key : α → κ} {l : List α} {cursor : Option Nat} {k : κ}
    (h : keyAt key l cursor = some k) : k ∈ l.map key := by
  cases cursor with
  | none => cases h
  | some i =>
      obtain ⟨x, hx, rfl⟩ := Option.map_eq_some_iff.mp h
      exact List.mem_map_of_mem (List.mem_of_getElem? hx)

/-- The same element at the new place. -/
theorem tracks_of_same {key : α → κ} {l l' : List α} {i j : Nat}
    (h : l'[j]?.map key = l[i]?.map key) : Tracks key l (some i) l' (some j) := by
  intro k hk _
  rw [keyAt_some] at hk ⊢
  rw [h, hk]

/-- Nothing to follow. -/
theorem tracks_none {key : α → κ} {l l' : List α} {cursor' : Option Nat} :
    Tracks key l none l' cursor' := by
  intro k hk
  cases hk

/-- The element is gone. -/
theorem tracks_of_gone {key : α → κ} {l l' : List α} {i : Nat} {cursor' : Option Nat}
    (h : ∀ x, l[i]? = some x → key x ∉ l'.map key) : Tracks key l (some i) l' cursor' := by
  intro k hk hmem
  obtain ⟨x, hx, rfl⟩ := Option.map_eq_some_iff.mp hk
  exact absurd hmem (h x hx)

/-- A cursor put where the key is found. -/
theorem keyAt_findIdx? [DecidableEq κ] {key : α → κ} {l : List α} {k : κ} (h : k ∈ l.map key) :
    keyAt key l (l.findIdx? (key · = k)) = some k := by
  obtain ⟨x, hx, rfl⟩ := List.mem_map.mp h
  cases hi : l.findIdx? (key · = key x) with
  | none => exact absurd (List.findIdx?_eq_none_iff.mp hi x hx) (by simp)
  | some i =>
      obtain ⟨hlt, hkey, _⟩ := List.findIdx?_eq_some_iff_getElem.mp hi
      rw [keyAt_some, List.getElem?_eq_getElem hlt]
      simpa using hkey

theorem cursorOn_of_findIdx? {p : α → Bool} {l : List α} {i : Nat}
    (h : l.findIdx? p = some i) : CursorOn l (some i) :=
  (List.findIdx?_eq_some_iff_getElem.mp h).1

/-- A key that is there is found, at a place that holds it. -/
theorem exists_findIdx? [DecidableEq κ] {key : α → κ} {l : List α} {k : κ} (h : k ∈ l.map key) :
    ∃ i, l.findIdx? (key · = k) = some i ∧ CursorOn l (some i) ∧ keyAt key l (some i) = some k := by
  have hat := keyAt_findIdx? h
  cases hi : l.findIdx? (key · = k) with
  | none =>
      rw [hi] at hat
      cases hat
  | some i =>
      rw [hi] at hat
      exact ⟨i, rfl, cursorOn_of_findIdx? hi, hat⟩

/-- One key, one place. -/
theorem getElem?_key_inj {key : α → κ} {l : List α} (hnd : (l.map key).Nodup) {i j : Nat} {k : κ}
    (hi : l[i]?.map key = some k) (hj : l[j]?.map key = some k) : i = j := by
  have hi' : (l.map key)[i]? = some k := by simpa using hi
  have hj' : (l.map key)[j]? = some k := by simpa using hj
  exact hnd.getElem_inj_iff.mp
    ((List.getElem?_eq_some_iff.mp hi').2.trans (List.getElem?_eq_some_iff.mp hj').2.symm)

/-! ## §2. One element leaves, moves or comes. -/

/-- The element erased is nowhere else. -/
theorem notMem_eraseIdx {key : α → κ} {l : List α} (hnd : (l.map key).Nodup) {i : Nat} {x : α}
    (h : l[i]? = some x) : key x ∉ (l.eraseIdx i).map key := by
  intro hmem
  obtain ⟨y, hy, hkey⟩ := List.mem_map.mp hmem
  obtain ⟨j, hj⟩ := List.mem_iff_getElem?.mp hy
  have hi : l[i]?.map key = some (key x) := by rw [h, Option.map_some]
  rw [List.getElem?_eraseIdx] at hj
  split at hj
  · have := getElem?_key_inj hnd hi (by rw [hj, Option.map_some, hkey])
    omega
  · have := getElem?_key_inj hnd hi (by rw [hj, Option.map_some, hkey])
    omega

theorem getElem?_eraseIdx_shift {l : List α} {i k : Nat} (h : i ≠ k) :
    (l.eraseIdx k)[if k < i then i - 1 else i]? = l[i]? := by
  rw [List.getElem?_eraseIdx]
  split
  · rw [if_neg (by omega), show i - 1 + 1 = i by omega]
  · rw [if_pos (by omega)]

/-- Erasing below the cursor shifts it, and erasing under it loses the element. -/
theorem tracks_eraseIdx {key : α → κ} {l : List α} (hnd : (l.map key).Nodup) {i k j : Nat}
    (hj : i ≠ k → j = if k < i then i - 1 else i) :
    Tracks key l (some i) (l.eraseIdx k) (some j) := by
  by_cases h : i = k
  · subst h
    exact tracks_of_gone fun x hx => notMem_eraseIdx hnd hx
  · rw [hj h]
    exact tracks_of_same (by rw [getElem?_eraseIdx_shift h])

/-- Where the element at `i` is after the one at `fromIdx` moved to `toIdx`. -/
def movedIndex (fromIdx toIdx i : Nat) : Nat :=
  if i = fromIdx then toIdx
  else if fromIdx < toIdx ∧ i > fromIdx ∧ i ≤ toIdx then i - 1
  else if fromIdx > toIdx ∧ i ≥ toIdx ∧ i < fromIdx then i + 1
  else i

theorem movedIndex_lt {fromIdx toIdx i n : Nat} (hto : toIdx < n) (hfrom : fromIdx < n)
    (hi : i < n) : movedIndex fromIdx toIdx i < n := by
  unfold movedIndex
  split
  · exact hto
  · split
    · omega
    · split <;> omega

theorem getElem?_move {l : List α} {fromIdx toIdx i : Nat} {x : α} (hx : l[fromIdx]? = some x)
    (hto : toIdx < l.length) :
    ((l.eraseIdx fromIdx).insertIdx toIdx x)[movedIndex fromIdx toIdx i]? = l[i]? := by
  have hfrom : fromIdx < l.length := (List.getElem?_eq_some_iff.mp hx).1
  have hlen : (l.eraseIdx fromIdx).length = l.length - 1 := List.length_eraseIdx_of_lt hfrom
  unfold movedIndex
  rw [List.getElem?_insertIdx]
  split
  · rename_i hi
    subst hi
    rw [if_neg (by omega), if_pos rfl, if_pos (by omega), hx]
  · rename_i hi
    split
    · rename_i hup
      rw [if_pos (by omega), List.getElem?_eraseIdx, if_neg (by omega),
        show i - 1 + 1 = i by omega]
    · split
      · rename_i hdown
        rw [if_neg (by omega), if_neg (by omega), List.getElem?_eraseIdx, if_pos (by omega)]
        congr 1
      · rename_i hup hdown
        by_cases hlt : i < toIdx
        · rw [if_pos hlt, List.getElem?_eraseIdx, if_pos (by omega)]
        · rw [if_neg hlt, if_neg (by omega), List.getElem?_eraseIdx, if_neg (by omega),
            show i - 1 + 1 = i by omega]

theorem tracks_move {key : α → κ} {l : List α} {fromIdx toIdx i : Nat} {x : α}
    (hx : l[fromIdx]? = some x) (hto : toIdx < l.length) :
    Tracks key l (some i) ((l.eraseIdx fromIdx).insertIdx toIdx x)
      (some (movedIndex fromIdx toIdx i)) :=
  tracks_of_same (by rw [getElem?_move hx hto])

theorem tracks_insertIdx {key : α → κ} {l : List α} {i k : Nat} (x : α) :
    Tracks key l (some i) (l.insertIdx k x) (some (if k ≤ i then i + 1 else i)) := by
  apply tracks_of_same
  rw [List.getElem?_insertIdx]
  split
  · rw [if_neg (by omega), if_neg (by omega)]
    rfl
  · rw [if_pos (by omega)]

/-! ## §3. Several positions at once. -/

/-- The positions of the elements that satisfy `p`, in a list that starts at `start`. -/
def positions (p : α → Bool) (l : List α) (start : Nat) : List Nat :=
  ((l.zipIdx start).filter fun x => p x.1).map (·.2)

/-- Erase the positions, the last one first. -/
def eraseAll (l : List α) (idxs : List Nat) : List α := idxs.foldr (fun i l => l.eraseIdx i) l

theorem eraseAll_sublist (l : List α) (idxs : List Nat) : (eraseAll l idxs).Sublist l := by
  induction idxs with
  | nil => exact List.Sublist.refl _
  | cons i idxs ih => exact (List.eraseIdx_sublist _ _).trans ih

theorem positions_cons (p : α → Bool) (x : α) (l : List α) (start : Nat) :
    positions p (x :: l) start =
      if p x then start :: positions p l (start + 1) else positions p l (start + 1) := by
  unfold positions
  rw [List.zipIdx_cons, List.filter_cons]
  split <;> simp

/-- An element that fails the test is one that the count leaves out. -/
theorem any_not_iff_countP_lt (p : α → Bool) (l : List α) :
    l.any (fun x => decide ¬ p x = true) = true ↔ l.countP p < l.length := by
  have hsum := List.length_eq_countP_add_countP p (l := l)
  rw [List.any_eq_true, ← List.countP_pos_iff]
  omega

/-- Erasing them filters them out, in whatever surroundings. -/
theorem eraseAll_positions (p : α → Bool) (before l after : List α) :
    eraseAll (before ++ l ++ after) (positions p l before.length) =
      before ++ l.filter (!p ·) ++ after := by
  induction l generalizing before with
  | nil => simp [positions, eraseAll]
  | cons x l ih =>
      -- the later positions go first, so they are read with `x` still in place
      have htail : eraseAll (before ++ x :: l ++ after) (positions p l (before.length + 1)) =
          before ++ (x :: l.filter (!p ·)) ++ after := by
        simpa using ih (before ++ [x])
      rw [positions_cons]
      by_cases hx : p x = true
      · rw [if_pos hx, List.filter_cons_of_neg (by simp [hx])]
        show (eraseAll (before ++ x :: l ++ after) _).eraseIdx before.length = _
        rw [htail, List.append_assoc, List.eraseIdx_append_of_length_le (Nat.le_refl _)]
        simp
      · rw [if_neg hx, List.filter_cons_of_pos (by simp [hx]), htail]

theorem insertIdx_append_length (before after : List α) (x : α) :
    (before ++ after).insertIdx before.length x = before ++ x :: after := by
  induction before with
  | nil => simp
  | cons y before ih => simp [ih]

/-- An element that the filter drops is nowhere. -/
theorem notMem_filter {key : α → κ} {p : α → Bool} {before l after : List α} {x : α}
    (hnd : ((before ++ (l ++ x :: after)).map key).Nodup) (hx : ¬ p x = true) :
    key x ∉ (before ++ (l ++ x :: after).filter p).map key := by
  have hsplit : before ++ (l ++ x :: after) = (before ++ l) ++ x :: after := by simp
  rw [hsplit, List.map_append, List.map_cons] at hnd
  have hnot : key x ∉ (before ++ l).map key ++ after.map key :=
    (List.nodup_cons.mp (List.nodup_middle.mp hnd)).1
  rw [List.filter_append, List.filter_cons_of_neg hx]
  intro hmem
  apply hnot
  simp only [List.map_append, List.mem_append, List.mem_map, List.mem_filter] at hmem ⊢
  obtain h | ⟨y, ⟨hy, _⟩, hk⟩ | ⟨y, ⟨hy, _⟩, hk⟩ := hmem
  · exact .inl (.inl h)
  · exact .inl (.inr ⟨y, hy, hk⟩)
  · exact .inr ⟨y, hy, hk⟩

/-- An element that the filter keeps is behind the kept ones before it, and
nowhere else. -/
theorem keyAt_filter_iff {key : α → κ} {p : α → Bool} {before l after : List α} {x : α}
    (hnd : ((before ++ (l ++ x :: after)).map key).Nodup) (hx : p x = true) (i : Nat) :
    keyAt key (before ++ (l ++ x :: after).filter p) (some i) = some (key x) ↔
      i = before.length + l.countP p := by
  have hsub : (before ++ (l ++ x :: after).filter p).Sublist (before ++ (l ++ x :: after)) :=
    List.Sublist.append (List.Sublist.refl _) List.filter_sublist
  have hnd' := (hsub.map key).nodup hnd
  have hat : (before ++ (l ++ x :: after).filter p)[before.length + l.countP p]?.map key =
      some (key x) := by
    rw [List.getElem?_append_right (by omega), List.filter_append, List.filter_cons_of_pos hx,
      List.getElem?_append_right (by rw [← List.countP_eq_length_filter]; omega),
      ← List.countP_eq_length_filter]
    simp
  constructor
  · intro h
    exact getElem?_key_inj hnd' h hat
  · rintro rfl
    exact hat

/-- Insert the elements one after the other from `start` on. -/
def insertAll (l : List α) (start : Nat) (block : List α) : List α :=
  (block.zipIdx).foldl (fun l x => l.insertIdx (start + x.2) x.1) l

theorem insertAll_eq {l : List α} {start : Nat} (h : start ≤ l.length) (block : List α) :
    insertAll l start block = l.take start ++ block ++ l.drop start := by
  have key : ∀ (block done : List α),
      (block.zipIdx done.length).foldl (fun l x => l.insertIdx (start + x.2) x.1)
        (l.take start ++ done ++ l.drop start) = l.take start ++ (done ++ block) ++ l.drop start := by
    intro block
    induction block with
    | nil => simp
    | cons x block ih =>
        intro done
        have hat : start + done.length = (l.take start ++ done).length := by
          simp [List.length_take, Nat.min_eq_left h]
        rw [List.zipIdx_cons, List.foldl_cons]
        have hins : (l.take start ++ done ++ l.drop start).insertIdx (start + done.length) x =
            l.take start ++ (done ++ [x]) ++ l.drop start := by
          rw [hat, insertIdx_append_length]
          simp
        have := ih (done ++ [x])
        rw [List.length_append, List.length_singleton] at this
        rw [hins, this]
        simp
  have := key block []
  simpa [insertAll] using this

end Jmux.Lib
