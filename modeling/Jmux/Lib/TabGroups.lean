/-
  Jmux.Lib.TabGroups — rows of tab groups, one tab of each selected.

  What a tiled view shows is a row of groups of tabs, read from left to right:
  every tab sits in one group and every group shows one of its own tabs.  This
  file says what that is over any type of tabs and which edits keep it: putting
  other groups in the place of one group, closing a tab, renaming all tabs by
  an injective map.

  Main results:
    * `Sound.replace` — new groups for an old one, with further tabs or without.
    * `Sound.close`   — closing a tab; a group that held only it goes with it.
    * `Sound.rename`  — renaming.
    * `Shows.close`   — closing a tab leaves the other tabs shown that were.
-/
import Mathlib.Data.List.Perm.Basic
import Mathlib.Data.List.Nodup
import Mathlib.Data.List.Pairwise

namespace Jmux.Lib

/-- A group of tabs, of which one is selected. -/
structure TabGroup (ι : Type*) where
  tabs     : List ι
  selected : Option ι
  deriving DecidableEq, Repr

namespace TabGroup

variable {ι : Type*}

/-- The selected tab is one of the group's own; so the group is not empty. -/
def Valid (g : TabGroup ι) : Prop := ∃ t ∈ g.tabs, g.selected = some t

theorem Valid.tabs_ne_nil {g : TabGroup ι} (h : g.Valid) : g.tabs ≠ [] := by
  obtain ⟨t, ht, _⟩ := h
  exact List.ne_nil_of_mem ht

/-- The group of one tab. -/
def single (t : ι) : TabGroup ι := ⟨[t], some t⟩

theorem single_valid (t : ι) : (single t).Valid := ⟨t, List.mem_singleton_self t, rfl⟩

/-- Every tab renamed. -/
def rename (f : ι → ι) (g : TabGroup ι) : TabGroup ι := ⟨g.tabs.map f, g.selected.map f⟩

theorem Valid.rename {g : TabGroup ι} (h : g.Valid) (f : ι → ι) : (g.rename f).Valid := by
  obtain ⟨t, ht, hsel⟩ := h
  refine ⟨f t, List.mem_map_of_mem ht, ?_⟩
  show g.selected.map f = some (f t)
  rw [hsel]
  rfl

/-- Distinct names keep the selection's place. -/
theorem valid_rename_iff {f : ι → ι} (hf : Function.Injective f) (g : TabGroup ι) :
    (g.rename f).Valid ↔ g.Valid := by
  constructor
  · intro h
    obtain ⟨t, ht, hsel⟩ := h
    obtain ⟨s, hs, hst⟩ := Option.map_eq_some_iff.mp hsel
    have hmem : f s ∈ g.tabs.map f := hst ▸ ht
    exact ⟨s, (List.mem_map_of_injective hf).mp hmem, hs⟩
  · intro h
    exact h.rename f

variable [DecidableEq ι]

/-- Take one tab out; where it was selected the first of the others is. -/
def close (t : ι) (g : TabGroup ι) : TabGroup ι where
  tabs     := g.tabs.erase t
  selected := if g.selected = some t then (g.tabs.erase t).head? else g.selected

theorem Valid.close {g : TabGroup ι} (h : g.Valid) {t : ι} (hne : g.tabs.erase t ≠ []) :
    (g.close t).Valid := by
  obtain ⟨s, hs, hsel⟩ := h
  by_cases hst : s = t
  · obtain ⟨u, us, hu⟩ := List.exists_cons_of_ne_nil hne
    refine ⟨u, ?_, ?_⟩
    · show u ∈ g.tabs.erase t
      rw [hu]
      exact List.mem_cons_self
    · show (if g.selected = some t then (g.tabs.erase t).head? else g.selected) = some u
      rw [if_pos (by rw [hsel, hst]), hu]
      rfl
  · refine ⟨s, (List.mem_erase_of_ne hst).mpr hs, ?_⟩
    show (if g.selected = some t then (g.tabs.erase t).head? else g.selected) = some s
    rw [if_neg (by rw [hsel]; simpa using hst), hsel]

/-- What is left of a group when a tab is closed: nothing, if it was the last. -/
def remains (t : ι) (g : TabGroup ι) : List (TabGroup ι) :=
  if g.tabs.erase t = [] then [] else [g.close t]

end TabGroup

open TabGroup

variable {ι : Type*}

/-! ## §1. Rows of groups. -/

/-- The tabs of a row, from left to right. -/
def tabsOf (gs : List (TabGroup ι)) : List ι := gs.flatMap (·.tabs)

@[simp] theorem tabsOf_nil : tabsOf ([] : List (TabGroup ι)) = [] := rfl

@[simp] theorem tabsOf_cons (g : TabGroup ι) (gs : List (TabGroup ι)) :
    tabsOf (g :: gs) = g.tabs ++ tabsOf gs := rfl

@[simp] theorem tabsOf_append (gs hs : List (TabGroup ι)) :
    tabsOf (gs ++ hs) = tabsOf gs ++ tabsOf hs :=
  List.flatMap_append

theorem tabsOf_rename (f : ι → ι) (gs : List (TabGroup ι)) :
    tabsOf (gs.map (rename f)) = (tabsOf gs).map f := by
  induction gs with
  | nil => rfl
  | cons g gs ih =>
      rw [List.map_cons, tabsOf_cons, tabsOf_cons, List.map_append, ih]
      rfl

/-- No tab twice, and every group shows one of its own tabs. -/
structure Sound (gs : List (TabGroup ι)) : Prop where
  distinct : (tabsOf gs).Nodup
  valid    : ∀ g ∈ gs, g.Valid

/-! ## §2. Other groups in the place of one. -/

/-- What the row holds afterwards: what it held, and the further tabs. -/
theorem tabsOf_replace (before after : List (TabGroup ι)) {news : List (TabGroup ι)} {g : TabGroup ι} {extra : List ι}
    (hp : (tabsOf news).Perm (extra ++ g.tabs)) :
    (tabsOf (before ++ news ++ after)).Perm (extra ++ tabsOf (before ++ g :: after)) := by
  have h1 : tabsOf (before ++ news ++ after) = tabsOf before ++ (tabsOf news ++ tabsOf after) := by
    simp
  have h2 : extra ++ tabsOf (before ++ g :: after)
      = extra ++ (tabsOf before ++ (g.tabs ++ tabsOf after)) := by simp
  rw [h1, h2]
  calc
    List.Perm (tabsOf before ++ (tabsOf news ++ tabsOf after))
        (tabsOf before ++ ((extra ++ g.tabs) ++ tabsOf after)) :=
      (hp.append_right _).append_left _
    List.Perm _ ((extra ++ g.tabs) ++ tabsOf after ++ tabsOf before) := List.perm_append_comm
    List.Perm _ (extra ++ (tabsOf before ++ (g.tabs ++ tabsOf after))) := by
      rw [List.append_assoc, List.append_assoc]
      refine List.Perm.append_left extra ?_
      rw [← List.append_assoc]
      exact List.perm_append_comm

/-- **Replacing a group**: sound again, when the new groups show tabs of their
own and hold the old group's tabs and others that the row does not hold. -/
theorem Sound.replace {before after news : List (TabGroup ι)} {g : TabGroup ι} {extra : List ι}
    (h : Sound (before ++ g :: after)) (hv : ∀ n ∈ news, n.Valid)
    (hp : (tabsOf news).Perm (extra ++ g.tabs)) (hx : extra.Nodup)
    (hd : ∀ t ∈ extra, t ∉ tabsOf (before ++ g :: after)) :
    Sound (before ++ news ++ after) where
  distinct := by
    rw [(tabsOf_replace before after hp).nodup_iff, List.nodup_append']
    exact ⟨hx, h.distinct, fun t ht => hd t ht⟩
  valid := by
    intro n hn
    rcases List.mem_append.mp hn with hn | hn
    · rcases List.mem_append.mp hn with hn | hn
      · exact h.valid n (List.mem_append_left _ hn)
      · exact hv n hn
    · exact h.valid n (List.mem_append_right _ (List.mem_cons_of_mem g hn))

/-! ## §3. Renaming. -/

theorem Sound.rename {gs : List (TabGroup ι)} (h : Sound gs) {f : ι → ι}
    (hf : Function.Injective f) : Sound (gs.map (rename f)) where
  distinct := by
    rw [tabsOf_rename]
    exact h.distinct.map hf
  valid := by
    intro g hg
    obtain ⟨g', hg', rfl⟩ := List.mem_map.mp hg
    exact (h.valid g' hg').rename f

/-! ## §4. Closing a tab. -/

variable [DecidableEq ι]

theorem tabsOf_remains (t : ι) (g : TabGroup ι) : tabsOf (g.remains t) = g.tabs.erase t := by
  unfold remains
  split
  · next h => rw [h]; rfl
  · simp [TabGroup.close]

/-- The row held the closed tab and what it holds now. -/
theorem tabsOf_close (before after : List (TabGroup ι)) {g : TabGroup ι} {t : ι}
    (ht : t ∈ g.tabs) :
    (tabsOf (before ++ g :: after)).Perm (t :: tabsOf (before ++ g.remains t ++ after)) := by
  have hg : (tabsOf [g]).Perm ([t] ++ g.tabs.erase t) := by
    simpa using List.perm_cons_erase ht
  have hr : (tabsOf (before ++ g.remains t ++ after))
      = tabsOf (before ++ ⟨g.tabs.erase t, none⟩ :: after) := by
    simp [tabsOf_remains]
  rw [hr]
  let rest : TabGroup ι := ⟨g.tabs.erase t, none⟩
  have hold : (tabsOf (before ++ [g] ++ after)).Perm ([t] ++ tabsOf (before ++ rest :: after)) :=
    tabsOf_replace before after hg
  simpa using hold

/-- **Closing a tab** keeps a row sound. -/
theorem Sound.close {before after : List (TabGroup ι)} {g : TabGroup ι} {t : ι}
    (h : Sound (before ++ g :: after)) (ht : t ∈ g.tabs) :
    Sound (before ++ g.remains t ++ after) where
  distinct := (List.nodup_cons.mp ((tabsOf_close before after ht).nodup_iff.mp h.distinct)).2
  valid := by
    intro n hn
    rcases List.mem_append.mp hn with hn | hn
    · rcases List.mem_append.mp hn with hn | hn
      · exact h.valid n (List.mem_append_left _ hn)
      · have hg : g.Valid := h.valid g (List.mem_append_right _ List.mem_cons_self)
        unfold remains at hn
        split at hn
        · cases hn
        · next hne =>
            obtain rfl := List.mem_singleton.mp hn
            exact hg.close hne
    · exact h.valid n (List.mem_append_right _ (List.mem_cons_of_mem g hn))

/-! ## §5. The tabs that are shown. -/

/-- Some group shows the tab. -/
def Shows (gs : List (TabGroup ι)) (t : ι) : Prop := ∃ g ∈ gs, t ∈ g.tabs ∧ g.selected = some t

omit [DecidableEq ι] in
/-- In a row with distinct tabs a tab has one group. -/
theorem eq_of_mem_tabs {gs : List (TabGroup ι)} (hd : (tabsOf gs).Nodup) {g n : TabGroup ι}
    (hg : g ∈ gs) (hn : n ∈ gs) {t : ι} (htg : t ∈ g.tabs) (htn : t ∈ n.tabs) : g = n := by
  have hpair := (List.nodup_flatMap.mp hd).2
  have hsymm : Std.Symm (Function.onFun List.Disjoint (fun g : TabGroup ι => g.tabs)) :=
    ⟨fun _ _ h _ hx hy => h hy hx⟩
  by_contra hne
  exact hpair.forall hg hn hne htg htn

omit [DecidableEq ι] in
/-- It is shown when that group shows it. -/
theorem shows_iff_selected {gs : List (TabGroup ι)} (hd : (tabsOf gs).Nodup) {g : TabGroup ι}
    (hg : g ∈ gs) {t : ι} (ht : t ∈ g.tabs) : Shows gs t ↔ g.selected = some t := by
  constructor
  · intro h
    obtain ⟨n, hn, htn, hsel⟩ := h
    rw [eq_of_mem_tabs hd hg hn ht htn]
    exact hsel
  · intro hsel
    exact ⟨g, hg, ht, hsel⟩

/-- **Closing another tab** leaves a shown tab shown. -/
theorem Shows.close {before after : List (TabGroup ι)} {g : TabGroup ι} {s : ι}
    (h : Shows (before ++ g :: after) s) {t : ι} (hne : s ≠ t) :
    Shows (before ++ g.remains t ++ after) s := by
  obtain ⟨n, hn, hs, hsel⟩ := h
  have hcase : n ∈ before ∨ n = g ∨ n ∈ after := by simpa using hn
  rcases hcase with hn | hn | hn
  · exact ⟨n, by simp [hn], hs, hsel⟩
  · rw [hn] at hs hsel
    have hrest : s ∈ g.tabs.erase t := (List.mem_erase_of_ne hne).mpr hs
    have hkept : g.remains t = [g.close t] := if_neg (List.ne_nil_of_mem hrest)
    refine ⟨g.close t, by simp [hkept], hrest, ?_⟩
    show (if g.selected = some t then (g.tabs.erase t).head? else g.selected) = some s
    rw [if_neg (by rw [hsel]; simpa using hne), hsel]
  · exact ⟨n, by simp [hn], hs, hsel⟩

/-! ## §6. The tabs of one kind. -/

section Residents

variable {p : ι → Bool} {gs hs : List (TabGroup ι)}

omit [DecidableEq ι]

/-- The tabs in `p` group by group, without the groups that have none. -/
def residents (p : ι → Bool) (gs : List (TabGroup ι)) : List (List ι) :=
  (gs.map fun g => g.tabs.filter p).filter (· ≠ [])

@[simp] theorem residents_nil : residents p [] = [] := rfl

@[simp] theorem residents_append : residents p (gs ++ hs) = residents p gs ++ residents p hs := by
  simp [residents]

theorem residents_cons (g : TabGroup ι) (gs : List (TabGroup ι)) :
    residents p (g :: gs) = residents p [g] ++ residents p gs := by
  rw [← residents_append, List.singleton_append]

theorem residents_eq_nil_iff : residents p gs = [] ↔ ∀ t ∈ tabsOf gs, p t = false := by
  simp only [residents, List.filter_eq_nil_iff, List.mem_map, tabsOf, List.mem_flatMap]
  constructor
  · rintro h t ⟨g, hg, ht⟩
    have hempty := h _ ⟨g, hg, rfl⟩
    simp only [decide_eq_true_eq, not_not, List.filter_eq_nil_iff] at hempty
    simpa using hempty t ht
  · rintro h _ ⟨g, hg, rfl⟩
    simp only [decide_eq_true_eq, not_not, List.filter_eq_nil_iff]
    intro t ht
    simp [h t ⟨g, hg, ht⟩]

/-- Without the group boundaries: the tabs in `p`, in their order. -/
theorem flatten_residents (p : ι → Bool) (gs : List (TabGroup ι)) :
    (residents p gs).flatten = (tabsOf gs).filter p := by
  induction gs with
  | nil => rfl
  | cons g gs ih =>
      rw [residents_cons, List.flatten_append, ih, tabsOf_cons, List.filter_append]
      congr 1
      by_cases h : g.tabs.filter p = [] <;> simp [residents, h]

end Residents

end Jmux.Lib
