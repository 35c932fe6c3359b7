/-
  Jmux.Lib.PlaceInOrder — a list brought into a given order by moving one entry
  at a time to its place, from left to right.

  Entries are told apart by a key.  Each round looks up where the entry with the
  next key is by then and moves it to the end of the part that is in order.

  Main results:
    * `place_eq`          — one round lengthens the part that is in order by one.
    * `placeAll_map_key`  — the keys stand in the order that was asked for.
    * `eq_of_map_key_eq`  — which entries these are, by their keys.
-/
import Jmux.Lib.MoveOne

namespace Jmux.Lib

variable {α κ : Type*} [DecidableEq κ]

/-! ## §1. Rounds. -/

/-- The entry with the key goes to its place, if it is not there. -/
def place (key : α → κ) (l : List α) (k : κ) (desired : Nat) : List α :=
  match l.findIdx? (key · = k) with
  | some current => if current ≠ desired then moveOne l current desired else l
  | none => l

/-- The entries of these keys, to the places from `start` on. -/
def placeAll (key : α → κ) (l : List α) (order : List κ) (start : Nat) : List α :=
  (order.zipIdx start).foldl (fun l entry => place key l entry.1 entry.2) l

section

variable {key : α → κ}

theorem placeAll_nil (l : List α) (start : Nat) : placeAll key l [] start = l := rfl

theorem placeAll_cons (l : List α) (k : κ) (order : List κ) (start : Nat) :
    placeAll key l (k :: order) start = placeAll key (place key l k start) order (start + 1) := rfl

/-- **One round.**  The entry is lifted over what stood between it and its place. -/
theorem place_eq {done block rear : List α} {x : α} {k : κ} (hx : key x = k)
    (hskip : ∀ y ∈ done ++ block, key y ≠ k) :
    place key (done ++ block ++ x :: rear) k done.length = done ++ x :: (block ++ rear) := by
  have hidx : (done ++ block ++ x :: rear).findIdx? (key · = k)
      = some (done.length + block.length) := by
    rw [List.findIdx?_append, List.findIdx?_eq_none_iff.mpr (by simpa using hskip)]
    simp [List.findIdx?_cons, hx]
  unfold place
  rw [hidx]
  dsimp only
  by_cases hblock : block = []
  · subst hblock
    rw [if_neg (by simp)]
    simp
  · have hpos : 0 < block.length := List.length_pos_iff.mpr hblock
    rw [if_pos (by omega), moveOne_lift done rear x hblock]

/-- **All rounds.**  The invariant is that `done` is in order and `rest` holds the
entries of the keys that are left. -/
theorem placeAll_append {done rest : List α} {order : List κ}
    (hperm : order.Perm (rest.map key)) (hnd : ((done ++ rest).map key).Nodup) :
    ∃ placed, placeAll key (done ++ rest) order done.length = done ++ placed ∧
      placed.map key = order ∧ placed.Perm rest := by
  induction order generalizing done rest with
  | nil =>
      have hrest : rest = [] := List.map_eq_nil_iff.mp hperm.nil_eq.symm
      subst hrest
      exact ⟨[], placeAll_nil _ _, rfl, List.Perm.refl _⟩
  | cons k order ih =>
      obtain ⟨x, hx, hkey⟩ := List.mem_map.mp (hperm.subset List.mem_cons_self)
      obtain ⟨block, rear, rfl⟩ := List.append_of_mem hx
      have hmid : ((done ++ block ++ x :: rear).map key).Nodup := by
        rwa [List.append_assoc]
      have hskip : ∀ y ∈ done ++ block, key y ≠ k := by
        intro y hy hyk
        rw [List.map_append, List.map_cons, List.nodup_append'] at hmid
        exact hmid.2.2 (List.mem_map_of_mem hy) (by simp [hyk, hkey])
      have hrest : (block ++ x :: rear).Perm (x :: (block ++ rear)) := List.perm_middle
      have hperm' : order.Perm ((block ++ rear).map key) := by
        have h := hperm.trans (hrest.map key)
        rw [List.map_cons, hkey] at h
        exact h.cons_inv
      have hnd' : ((done ++ [x] ++ (block ++ rear)).map key).Nodup := by
        have h : (done ++ (block ++ x :: rear)).Perm (done ++ [x] ++ (block ++ rear)) := by
          rw [List.append_assoc]
          exact hrest.append_left done
        exact (h.map key).nodup_iff.mp hnd
      obtain ⟨placed, heq, hmap, hp⟩ := ih hperm' hnd'
      refine ⟨x :: placed, ?_, ?_, ?_⟩
      · have hlist : done ++ x :: (block ++ rear) = done ++ [x] ++ (block ++ rear) := by simp
        have hlen : done.length + 1 = (done ++ [x]).length := by simp
        rw [placeAll_cons, ← List.append_assoc, place_eq hkey hskip, hlist, hlen, heq]
        simp
      · rw [List.map_cons, hmap, hkey]
      · exact (hp.cons x).trans hrest.symm

/-- **The keys are in the order that was asked for**, and no entry is lost. -/
theorem placeAll_map_key {l : List α} {order : List κ} (hperm : order.Perm (l.map key))
    (hnd : (l.map key).Nodup) :
    (placeAll key l order 0).map key = order ∧ (placeAll key l order 0).Perm l := by
  have hnd : (([] ++ l).map key).Nodup := hnd
  obtain ⟨placed, heq, hmap, hp⟩ := placeAll_append hperm hnd
  have heq : placeAll key l order 0 = placed := heq
  rw [heq]
  exact ⟨hmap, hp⟩

omit [DecidableEq κ] in
/-- Entries of one list are known by their keys. -/
theorem eq_of_map_key_eq {l as bs : List α} (hnd : (l.map key).Nodup) (has : as ⊆ l) (hbs : bs ⊆ l)
    (h : as.map key = bs.map key) : as = bs := by
  induction as generalizing bs with
  | nil => exact (List.map_eq_nil_iff.mp h.symm).symm
  | cons a as ih =>
      cases bs with
      | nil => cases h
      | cons b bs =>
          obtain ⟨hab, hrest⟩ := List.cons.inj h
          have hsame : a = b :=
            List.inj_on_of_nodup_map hnd (has List.mem_cons_self) (hbs List.mem_cons_self) hab
          rw [hsame, ih (fun x hx => has (List.mem_cons_of_mem a hx))
            (fun x hx => hbs (List.mem_cons_of_mem b hx)) hrest]

end

/-! ## §2. Some first, then the others. -/

theorem eraseDups_nodup (l : List κ) : l.eraseDups.Nodup := by
  induction hn : l.length using Nat.strongRecOn generalizing l with
  | ind n ih =>
      cases l with
      | nil => exact List.nodup_nil
      | cons a as =>
          subst hn
          rw [List.eraseDups_cons, List.nodup_cons]
          refine ⟨fun ha => ?_, ih _ (Nat.lt_succ_of_le (List.length_filter_le _ _)) _ rfl⟩
          have hne := (List.mem_filter.mp (List.mem_eraseDups.mp ha)).2
          simp at hne

theorem eraseDups_of_nodup {l : List κ} (hnd : l.Nodup) : l.eraseDups = l := by
  induction l with
  | nil => rfl
  | cons a as ih =>
      obtain ⟨ha, has⟩ := List.nodup_cons.mp hnd
      have hfilter : as.filter (fun b => !b == a) = as := by
        refine List.filter_eq_self.mpr fun b hb => ?_
        have hne : b ≠ a := fun h => ha (h ▸ hb)
        simpa using hne
      rw [List.eraseDups_cons, hfilter, ih has]

/-- A function that tells the entries apart. -/
theorem map_eraseDups [DecidableEq α] {key : α → κ} (l : List α)
    (hinj : ∀ a ∈ l, ∀ b ∈ l, key a = key b → a = b) :
    (l.map key).eraseDups = l.eraseDups.map key := by
  induction hn : l.length using Nat.strongRecOn generalizing l with
  | ind n ih =>
      cases l with
      | nil => rfl
      | cons a as =>
          subst hn
          have hfilter : (as.map key).filter (fun b => !b == key a)
              = (as.filter fun b => !b == a).map key := by
            rw [List.filter_map]
            congr 1
            refine List.filter_congr fun b hb => ?_
            have hiff : key b = key a ↔ b = a :=
              ⟨hinj b (List.mem_cons_of_mem a hb) a List.mem_cons_self, congrArg key⟩
            simp [hiff]
          rw [List.map_cons, List.eraseDups_cons, List.eraseDups_cons, hfilter,
            ih _ (Nat.lt_succ_of_le (List.length_filter_le _ _)) _ (fun x hx y hy =>
              hinj x (List.mem_cons_of_mem a (List.mem_of_mem_filter hx)) y
                (List.mem_cons_of_mem a (List.mem_of_mem_filter hy))) rfl]
          rfl

/-- The listed ones first, then the others as they stood. -/
def listedFirst (listed l : List κ) : List κ := listed.eraseDups ++ l.filter (· ∉ listed)

theorem eraseDups_append_all {listed l : List κ} (hnd : l.Nodup) :
    (listed ++ l).eraseDups = listedFirst listed l := by
  have hremove : l.removeAll listed = l.filter (· ∉ listed) := by
    refine List.filter_congr fun a _ => ?_
    simp
  rw [List.eraseDups_append, hremove, eraseDups_of_nodup (hnd.filter _), listedFirst]

/-- Nothing is lost and nothing doubled. -/
theorem listedFirst_perm {listed l : List κ} (hnd : l.Nodup) (hsub : listed ⊆ l) :
    (listedFirst listed l).Perm l := by
  refine (List.perm_ext_iff_of_nodup ?_ hnd).mpr fun a => ?_
  · rw [listedFirst, List.nodup_append']
    refine ⟨eraseDups_nodup listed, hnd.filter _, fun a ha hl => ?_⟩
    have hn := (List.mem_filter.mp hl).2
    exact absurd (List.mem_eraseDups.mp ha) (by simpa using hn)
  · rw [listedFirst, List.mem_append, List.mem_eraseDups, List.mem_filter]
    by_cases ha : a ∈ listed
    · exact iff_of_true (.inl ha) (hsub ha)
    · simp [ha]

/-- The same of the entries and of their keys. -/
theorem map_listedFirst [DecidableEq α] {key : α → κ} {listed l : List α}
    (hnd : (l.map key).Nodup) (hsub : listed ⊆ l) :
    (listedFirst listed l).map key = listedFirst (listed.map key) (l.map key) := by
  have hinj : ∀ a ∈ l, ∀ b ∈ l, key a = key b → a = b := fun a ha b hb h =>
    List.inj_on_of_nodup_map hnd ha hb h
  rw [listedFirst, listedFirst, List.map_append,
    map_eraseDups listed fun a ha b hb => hinj a (hsub ha) b (hsub hb), List.filter_map]
  congr 2
  refine List.filter_congr fun a ha => ?_
  rw [Function.comp_apply, decide_eq_decide, not_iff_not, List.mem_map]
  constructor
  · intro h
    exact ⟨a, h, rfl⟩
  · rintro ⟨b, hb, hkey⟩
    exact hinj b (hsub hb) a ha hkey ▸ hb

end Jmux.Lib
