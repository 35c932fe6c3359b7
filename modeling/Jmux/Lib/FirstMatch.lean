/-
  Jmux.Lib.FirstMatch — updating the first list element that matches a test.

  `iter_mut().find(p)` followed by an assignment is how a program edits one
  record of a vector.  `modifyFirst` is that edit; the lemmas say what a search,
  a key column and a count see afterwards.
-/
import Mathlib.Data.List.Basic
import Mathlib.Data.List.Nodup
import Mathlib.Data.List.Count

namespace List

variable {α κ : Type*}

/-! ## §1. The edit. -/

/-- Apply `f` to the first element that satisfies `p`. -/
def modifyFirst (p : α → Bool) (f : α → α) : List α → List α
  | [] => []
  | x :: xs => if p x then f x :: xs else x :: modifyFirst p f xs

/-- **Shape of the edit**: either nothing matches, or exactly one element in the
middle is replaced. -/
theorem modifyFirst_split (p : α → Bool) (f : α → α) (l : List α) :
    (l.find? p = none ∧ l.modifyFirst p f = l) ∨
    ∃ xs y zs, l = xs ++ y :: zs ∧ (∀ x ∈ xs, p x = false) ∧ p y = true
      ∧ l.find? p = some y ∧ l.modifyFirst p f = xs ++ f y :: zs := by
  induction l with
  | nil => exact .inl ⟨rfl, rfl⟩
  | cons a as ih =>
      by_cases ha : p a
      · refine .inr ⟨[], a, as, rfl, by simp, ha, ?_, ?_⟩
        · rw [find?_cons_of_pos ha]
        · simp [modifyFirst, ha]
      · have hfind : (a :: as).find? p = as.find? p := find?_cons_of_neg ha
        have hmod : (a :: as).modifyFirst p f = a :: as.modifyFirst p f := by
          simp [modifyFirst, ha]
        rcases ih with ⟨hnone, hsame⟩ | ⟨xs, y, zs, rfl, hxs, hy, hsome, hedit⟩
        · exact .inl ⟨hfind.trans hnone, by rw [hmod, hsame]⟩
        · refine .inr ⟨a :: xs, y, zs, rfl, ?_, hy, hfind.trans hsome, by rw [hmod, hedit]; rfl⟩
          intro x hx
          rcases mem_cons.mp hx with rfl | hx
          · simpa using ha
          · exact hxs x hx

/-- The edit at a known place. -/
theorem modifyFirst_append_cons {p : α → Bool} {f : α → α} {xs zs : List α} {y : α}
    (hxs : ∀ x ∈ xs, p x = false) (hy : p y = true) :
    (xs ++ y :: zs).modifyFirst p f = xs ++ f y :: zs := by
  induction xs with
  | nil => simp [modifyFirst, hy]
  | cons x xs ih =>
      have hx : p x = false := hxs x mem_cons_self
      rw [cons_append, modifyFirst, hx, ih fun z hz => hxs z (mem_cons_of_mem x hz)]
      rfl

/-! ## §2. What the edit leaves alone. -/

/-- A column that the edit of the first match keeps is kept. -/
theorem map_modifyFirst_of_found {β : Type*} {p : α → Bool} {f : α → α} {g : α → β} {l : List α}
    (hg : ∀ x, l.find? p = some x → g (f x) = g x) : (l.modifyFirst p f).map g = l.map g := by
  rcases modifyFirst_split p f l with ⟨_, h⟩ | ⟨xs, y, zs, rfl, _, _, hfound, h⟩
  · rw [h]
  · rw [h]
    simp [hg y hfound]

/-- A column that `f` keeps is kept. -/
theorem map_modifyFirst {β : Type*} (p : α → Bool) (f : α → α) (g : α → β)
    (hg : ∀ x, g (f x) = g x) (l : List α) : (l.modifyFirst p f).map g = l.map g :=
  map_modifyFirst_of_found fun x _ => hg x

/-- With distinct keys the first match is the only one. -/
theorem modifyFirst_key_eq_map [DecidableEq κ] {key : α → κ} {l : List α}
    (hnd : (l.map key).Nodup) (k : κ) (f : α → α) :
    l.modifyFirst (key · = k) f = l.map fun x => if key x = k then f x else x := by
  induction l with
  | nil => rfl
  | cons x l ih =>
      rw [map_cons, nodup_cons] at hnd
      by_cases hx : key x = k
      · have hrest : l.map (fun x => if key x = k then f x else x) = l := by
          refine (map_congr_left fun y hy => ?_).trans (map_id l)
          rw [if_neg]
          · rfl
          · intro hy'
            exact hnd.1 (mem_map.mpr ⟨y, hy, hy'.trans hx.symm⟩)
        rw [modifyFirst, if_pos (decide_eq_true hx), map_cons, if_pos hx, hrest]
      · rw [modifyFirst, if_neg (by simpa using hx), map_cons, if_neg hx, ih hnd.2]

theorem mem_modifyFirst {p : α → Bool} {f : α → α} {l : List α} {x : α}
    (hx : x ∈ l.modifyFirst p f) : x ∈ l ∨ ∃ y ∈ l, p y = true ∧ x = f y := by
  rcases modifyFirst_split p f l with ⟨_, h⟩ | ⟨xs, y, zs, rfl, _, hy, _, h⟩
  · exact .inl (h ▸ hx)
  · rw [h] at hx
    rcases mem_append.mp hx with hx | hx
    · exact .inl (mem_append_left _ hx)
    · rcases mem_cons.mp hx with rfl | hx
      · exact .inr ⟨y, by simp, hy, rfl⟩
      · exact .inl (mem_append_right _ (mem_cons_of_mem _ hx))

/-- A search for something the edited element neither was nor becomes. -/
theorem find?_modifyFirst_of_disjoint {p q : α → Bool} {f : α → α}
    (hpq : ∀ x, p x = true → q x = false ∧ q (f x) = false) (l : List α) :
    (l.modifyFirst p f).find? q = l.find? q := by
  rcases modifyFirst_split p f l with ⟨_, h⟩ | ⟨xs, y, zs, rfl, _, hy, _, h⟩
  · rw [h]
  · rw [h, find?_append, find?_append, find?_cons_of_neg (by simp [(hpq y hy).2]),
        find?_cons_of_neg (by simp [(hpq y hy).1])]

/-- The search that located the element finds its edited version. -/
theorem find?_modifyFirst_self {p : α → Bool} {f : α → α} (hp : ∀ x, p x = true → p (f x) = true)
    (l : List α) : (l.modifyFirst p f).find? p = (l.find? p).map f := by
  rcases modifyFirst_split p f l with ⟨hnone, h⟩ | ⟨xs, y, zs, rfl, hxs, hy, hsome, h⟩
  · rw [h, hnone]
    rfl
  · rw [h, hsome, find?_append, find?_eq_none.mpr (by simpa using hxs),
        find?_cons_of_pos (hp y hy)]
    rfl

/-! ## §3. Counting after the edit. -/

/-- An edit that never turns a non-member of `q` into a member does not raise the count. -/
theorem countP_modifyFirst_le {p q : α → Bool} {f : α → α}
    (hq : ∀ x, p x = true → q (f x) = true → q x = true) (l : List α) :
    (l.modifyFirst p f).countP q ≤ l.countP q := by
  rcases modifyFirst_split p f l with ⟨_, h⟩ | ⟨xs, y, zs, rfl, _, hy, _, h⟩
  · exact Nat.le_of_eq (congrArg (countP q) h)
  · rw [h, countP_append, countP_append, countP_cons, countP_cons]
    have := hq y hy
    by_cases hfy : q (f y) = true
    · simp [hfy, this hfy]
    · simp [hfy]

/-- Any edit raises the count by at most one. -/
theorem countP_modifyFirst_le_succ (p q : α → Bool) (f : α → α) (l : List α) :
    (l.modifyFirst p f).countP q ≤ l.countP q + 1 := by
  rcases modifyFirst_split p f l with ⟨_, h⟩ | ⟨xs, y, zs, rfl, _, _, _, h⟩
  · rw [h]
    omega
  · rw [h, countP_append, countP_append, countP_cons, countP_cons]
    split <;> split <;> omega

/-! ## §4. Searching by a key that is not repeated. -/

/-- With no key twice, finding by key and being in the list are the same. -/
theorem find?_key_eq_some [DecidableEq κ] {key : α → κ} {l : List α} (hnd : (l.map key).Nodup)
    {k : κ} {x : α} : l.find? (fun y => key y = k) = some x ↔ x ∈ l ∧ key x = k := by
  induction l with
  | nil => simp
  | cons a as ih =>
      obtain ⟨ha, has⟩ := nodup_cons.mp hnd
      by_cases hak : key a = k
      · rw [find?_cons_of_pos (by simpa using hak)]
        constructor
        · rintro ⟨rfl⟩
          exact ⟨mem_cons_self, hak⟩
        · rintro ⟨hx, hxk⟩
          rcases mem_cons.mp hx with rfl | hx
          · rfl
          · exact absurd (mem_map.mpr ⟨x, hx, hxk.trans hak.symm⟩) ha
      · rw [find?_cons_of_neg (by simpa using hak), ih has, mem_cons]
        constructor
        · rintro ⟨hx, hxk⟩
          exact ⟨.inr hx, hxk⟩
        · rintro ⟨rfl | hx, hxk⟩
          · exact absurd hxk hak
          · exact ⟨hx, hxk⟩

end List
