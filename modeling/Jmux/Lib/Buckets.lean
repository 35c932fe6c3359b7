/-
  Jmux.Lib.Buckets — lists collected under keys, the keys in order.

  `push` appends an element to the list of its key in a map that is kept sorted
  by its keys (`map.entry(key).or_default().push(x)` on an ordered map).

  Main results:
    * `gather_sorted` — reading the lists one after another goes up in the keys.
    * `gather_key`    — and keeps the order of the elements of one key.
-/
import Mathlib.Data.List.Basic

namespace Jmux.Lib.Buckets

variable {κ β : Type*} [DecidableEq κ]

/-- A strict linear order, as a test. -/
structure Order (before : κ → κ → Bool) : Prop where
  irrefl : ∀ a, before a a = false
  trans  : ∀ a b c, before a b = true → before b c = true → before a c = true
  total  : ∀ a b, a ≠ b → before a b = false → before b a = true

def push (before : κ → κ → Bool) (key : κ) (x : β) : List (κ × List β) → List (κ × List β)
  | [] => [(key, [x])]
  | (k, xs) :: rest =>
      if key = k then (k, xs ++ [x]) :: rest
      else if before key k then (key, [x]) :: (k, xs) :: rest
      else (k, xs) :: push before key x rest

/-- All elements of a list under their keys, then read off key by key. -/
def gather (before : κ → κ → Bool) (key : β → κ) (xs : List β) : List β :=
  (xs.foldl (fun map x => push before (key x) x map) []).flatMap (·.2)

/-- The keys go up, and every element stands under its own. -/
structure Good (before : κ → κ → Bool) (key : β → κ) (map : List (κ × List β)) : Prop where
  ascending : map.Pairwise fun a b => before a.1 b.1 = true
  keyed     : ∀ e ∈ map, ∀ x ∈ e.2, key x = e.1

variable {before : κ → κ → Bool} {key : β → κ}

theorem push_keys (k : κ) (x : β) (map : List (κ × List β)) :
    ∀ e ∈ push before k x map, e.1 = k ∨ ∃ e' ∈ map, e'.1 = e.1 := by
  induction map with
  | nil =>
      intro e he
      simp [push] at he
      simp [he]
  | cons head rest ih =>
      intro e he
      by_cases hk : k = head.1
      · simp only [push, if_pos hk, List.mem_cons] at he
        rcases he with he | he
        · exact .inl (by rw [he, hk])
        · exact .inr ⟨e, List.mem_cons_of_mem _ he, rfl⟩
      · by_cases hb : before k head.1 = true
        · simp only [push, if_neg hk, if_pos hb, List.mem_cons] at he
          rcases he with he | he
          · exact .inl (by rw [he])
          · exact .inr ⟨e, List.mem_cons.mpr he, rfl⟩
        · simp only [push, if_neg hk, if_neg hb, List.mem_cons] at he
          rcases he with he | he
          · exact .inr ⟨head, List.mem_cons_self, by rw [he]⟩
          · rcases ih e he with h | ⟨e', he', h⟩
            · exact .inl h
            · exact .inr ⟨e', List.mem_cons_of_mem _ he', h⟩

/-- **One push** keeps the map good. -/
theorem push_good (ho : Order before) {map : List (κ × List β)} (h : Good before key map) (x : β) :
    Good before key (push before (key x) x map) := by
  induction map with
  | nil =>
      refine ⟨by simp [push], ?_⟩
      intro e he y hy
      simp [push] at he
      subst he
      simp at hy
      rw [hy]
  | cons head rest ih =>
      obtain ⟨hasc, hkeyed⟩ := h
      obtain ⟨hhead, hrest⟩ := List.pairwise_cons.mp hasc
      have hgood : Good before key (push before (key x) x rest) :=
        ih ⟨hrest, fun e he => hkeyed e (List.mem_cons_of_mem _ he)⟩
      by_cases hk : key x = head.1
      · simp only [push, if_pos hk]
        refine ⟨List.pairwise_cons.mpr ⟨hhead, hrest⟩, ?_⟩
        intro e he y hy
        rcases List.mem_cons.mp he with rfl | he
        · rcases List.mem_append.mp hy with hy | hy
          · exact hkeyed head List.mem_cons_self y hy
          · rw [List.mem_singleton.mp hy, hk]
        · exact hkeyed e (List.mem_cons_of_mem _ he) y hy
      · by_cases hb : before (key x) head.1 = true
        · simp only [push, if_neg hk, if_pos hb]
          refine ⟨List.pairwise_cons.mpr ⟨?_, hasc⟩, ?_⟩
          · intro e he
            rcases List.mem_cons.mp he with rfl | he
            · exact hb
            · exact ho.trans _ _ _ hb (hhead e he)
          · intro e he y hy
            rcases List.mem_cons.mp he with rfl | he
            · rw [List.mem_singleton.mp hy]
            · exact hkeyed e he y hy
        · simp only [push, if_neg hk, if_neg hb]
          refine ⟨List.pairwise_cons.mpr ⟨?_, hgood.ascending⟩, ?_⟩
          · intro e he
            rcases push_keys (key x) x rest e he with heq | ⟨e', he', heq⟩
            · rw [heq]
              exact ho.total _ _ hk (by simpa using hb)
            · rw [← heq]
              exact hhead e' he'
          · intro e he y hy
            rcases List.mem_cons.mp he with rfl | he
            · exact hkeyed _ List.mem_cons_self y hy
            · exact hgood.keyed e he y hy

/-- Nothing under a later key has the key of an element that comes first. -/
theorem filter_later (ho : Order before) {map : List (κ × List β)} (h : Good before key map)
    {k : κ} (hk : ∀ e ∈ map, before k e.1 = true) :
    (map.flatMap (·.2)).filter (fun x => key x = k) = [] := by
  rw [List.filter_eq_nil_iff]
  intro x hx
  obtain ⟨e, he, hxe⟩ := List.mem_flatMap.mp hx
  have hbefore := hk e he
  rw [← h.keyed e he x hxe] at hbefore
  intro heq
  rw [of_decide_eq_true heq, ho.irrefl] at hbefore
  cases hbefore

/-- **One push** adds the element after those of its key. -/
theorem filter_push (ho : Order before) {map : List (κ × List β)} (h : Good before key map)
    (x : β) (k : κ) :
    ((push before (key x) x map).flatMap (·.2)).filter (fun y => key y = k) =
      (map.flatMap (·.2)).filter (fun y => key y = k) ++ [x].filter (fun y => key y = k) := by
  induction map with
  | nil => simp [push]
  | cons head rest ih =>
      obtain ⟨hasc, hkeyed⟩ := h
      obtain ⟨hhead, hrest⟩ := List.pairwise_cons.mp hasc
      have hgood : Good before key rest :=
        ⟨hrest, fun e he => hkeyed e (List.mem_cons_of_mem _ he)⟩
      by_cases hk : key x = head.1
      · simp only [push, if_pos hk, List.flatMap_cons, List.filter_append]
        by_cases hx : key x = k
        · -- what comes after the bucket has later keys
          have hlater := filter_later ho hgood fun e he => (hx ▸ hk) ▸ hhead e he
          simp [hlater]
        · simp [hx]
      · by_cases hb : before (key x) head.1 = true
        · simp only [push, if_neg hk, if_pos hb, List.flatMap_cons, List.filter_append]
          by_cases hx : key x = k
          · have hgood' : Good before key (head :: rest) := ⟨hasc, hkeyed⟩
            have hlater := filter_later ho hgood' (k := k) (by
              intro e he
              rcases List.mem_cons.mp he with rfl | he
              · exact hx ▸ hb
              · exact ho.trans _ _ _ (hx ▸ hb) (hhead e he))
            rw [List.flatMap_cons, List.filter_append] at hlater
            rw [hlater, List.append_nil, List.nil_append]
          · simp [hx]
        · simp only [push, if_neg hk, if_neg hb, List.flatMap_cons, List.filter_append]
          rw [ih hgood, List.append_assoc]

/-- The map of a whole list. -/
theorem foldl_good (ho : Order before) (xs : List β) {map : List (κ × List β)}
    (h : Good before key map) (k : κ) :
    Good before key (xs.foldl (fun map x => push before (key x) x map) map) ∧
      ((xs.foldl (fun map x => push before (key x) x map) map).flatMap (·.2)).filter
          (fun y => key y = k) =
        (map.flatMap (·.2)).filter (fun y => key y = k) ++ xs.filter (fun y => key y = k) := by
  induction xs generalizing map with
  | nil => exact ⟨h, by simp⟩
  | cons x xs ih =>
      obtain ⟨hgood, hfilter⟩ := ih (push_good ho h x)
      refine ⟨hgood, ?_⟩
      rw [List.foldl_cons, hfilter, filter_push ho h, List.append_assoc, ← List.filter_append]
      rfl

omit [DecidableEq κ] in
theorem empty_good : Good before key ([] : List (κ × List β)) :=
  ⟨List.Pairwise.nil, fun _ he => by cases he⟩

/-- **The elements of one key keep their order.** -/
theorem gather_key (ho : Order before) (xs : List β) (k : κ) :
    (gather before key xs).filter (fun y => key y = k) = xs.filter (fun y => key y = k) :=
  (foldl_good ho xs empty_good k).2

theorem mem_gather (ho : Order before) (xs : List β) (x : β) :
    x ∈ gather before key xs ↔ x ∈ xs := by
  have hkey : (gather before key xs).filter (fun y => key y = key x) =
      xs.filter (fun y => key y = key x) := gather_key ho xs (key x)
  have hmem : ∀ ys : List β, x ∈ ys ↔ x ∈ ys.filter (fun y => key y = key x) := by
    intro ys
    simp
  rw [hmem (gather before key xs), hmem xs, hkey]

/-- **The keys go up.** -/
theorem gather_sorted (ho : Order before) (xs : List β) :
    (gather before key xs).Pairwise fun x y => before (key y) (key x) = false := by
  have hnotAfter : ∀ a b, before a b = true → before b a = false := by
    intro a b hab
    by_contra hba
    have haa := ho.trans a b a hab (by simpa using hba)
    rw [ho.irrefl] at haa
    cases haa
  unfold gather
  generalize hmap : xs.foldl (fun map x => push before (key x) x map) [] = map
  have hgood : Good before key map := by
    cases xs with
    | nil => exact hmap ▸ empty_good
    | cons x xs => exact hmap ▸ (foldl_good ho (x :: xs) empty_good (key x)).1
  clear hmap
  induction map with
  | nil => simp
  | cons head rest ih =>
      obtain ⟨hasc, hkeyed⟩ := hgood
      obtain ⟨hhead, hrest⟩ := List.pairwise_cons.mp hasc
      have hkeyed' : ∀ e ∈ rest, ∀ x ∈ e.2, key x = e.1 :=
        fun e he => hkeyed e (List.mem_cons_of_mem _ he)
      rw [List.flatMap_cons, List.pairwise_append]
      refine ⟨?_, ih ⟨hrest, hkeyed'⟩, ?_⟩
      · refine List.pairwise_iff_forall_sublist.mpr fun {x y} hxy => ?_
        have hx := hkeyed head List.mem_cons_self x (hxy.subset (by simp))
        have hy := hkeyed head List.mem_cons_self y (hxy.subset (by simp))
        rw [hx, hy]
        exact ho.irrefl _
      · intro x hx y hy
        obtain ⟨e, he, hye⟩ := List.mem_flatMap.mp hy
        rw [hkeyed head List.mem_cons_self x hx, hkeyed' e he y hye]
        exact hnotAfter _ _ (hhead e he)

end Jmux.Lib.Buckets
