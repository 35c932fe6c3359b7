/-
  Jmux.Lib.Places — where paths lead, and the files below a directory.

  A place is given by the names that lead to it from the root.  A path is followed
  from a place component by component; `..` goes back to the place before, so that
  symbolic links are not looked at.

  Main results:
    * `follow_stays`        — a path that goes back no further than it has come leads to
                               the same place below any directory.
    * `Apart.append`        — below places that are apart everything is apart.
    * `below_removeBelow`, `below_moveBelow` — removing and moving a directory keep
                               the files below every place apart from it.
-/
import Jmux.Lib.PathComponents

namespace Jmux.Lib.Path

/-! ## §1. Following a path. -/

/-- The names from the root to a file or a directory. -/
abbrev Place := List (List Char)

/-- One component further. -/
def enter (place : Place) (part : List Char) : Place :=
  if part = ['/'] then []
  else if part = ['.'] then place
  else if part = ['.', '.'] then place.dropLast
  else place ++ [part]

/-- Where `dir.join(path)` leads, by the components of the path. -/
def follow (dir : Place) (parts : List (List Char)) : Place := parts.foldl enter dir

/-- A name that leads one step down. -/
structure Plain (name : List Char) : Prop extends Segment name where
  notDotDot : name ≠ ['.', '.']

instance (name : List Char) : Decidable (Plain name) :=
  decidable_of_iff (name ≠ [] ∧ name ≠ ['.'] ∧ '/' ∉ name ∧ name ≠ ['.', '.'])
    ⟨fun h => ⟨⟨h.1, h.2.1, h.2.2.1⟩, h.2.2.2⟩,
      fun h => ⟨h.nonempty, h.notDot, h.noSlash, h.notDotDot⟩⟩

theorem enter_plain {name : List Char} (h : Plain name) (place : Place) :
    enter place name = place ++ [name] := by
  have hroot : name ≠ ['/'] := fun heq => h.noSlash (heq ▸ List.mem_singleton_self '/')
  unfold enter
  rw [if_neg hroot, if_neg h.notDot, if_neg h.notDotDot]

/-- From `depth` names below some directory the path goes never above that directory. -/
def staysBelow : Nat → List (List Char) → Bool
  | _, [] => true
  | depth, part :: rest =>
      if part = ['/'] then false
      else if part = ['.'] then staysBelow depth rest
      else if part = ['.', '.'] then depth ≠ 0 && staysBelow (depth - 1) rest
      else staysBelow (depth + 1) rest

/-- **Such a path leads to the same place below any directory.** -/
theorem follow_stays {depth : Nat} {parts : List (List Char)} {dir : Place} (hlen : dir.length = depth)
    (h : staysBelow depth parts = true) (base : Place) :
    follow (base ++ dir) parts = base ++ follow dir parts := by
  induction depth, parts using staysBelow.induct generalizing dir with
  | case1 depth => rfl
  | case2 depth rest =>
      unfold staysBelow at h
      rw [if_pos rfl] at h
      cases h
  | case3 depth rest hroot ih =>
      unfold staysBelow at h
      rw [if_neg hroot, if_pos rfl] at h
      have hhere : ∀ place, enter place ['.'] = place := fun _ => rfl
      show follow (enter (base ++ dir) ['.']) rest = base ++ follow (enter dir ['.']) rest
      rw [hhere, hhere, ih hlen h]
  | case4 depth rest hroot hdot ih =>
      unfold staysBelow at h
      rw [if_neg hroot, if_neg hdot, if_pos rfl, Bool.and_eq_true] at h
      have hup : ∀ place, enter place ['.', '.'] = place.dropLast := fun _ => rfl
      have hpos : depth ≠ 0 := of_decide_eq_true h.1
      have hne : dir ≠ [] := by
        intro hnil
        rw [hnil] at hlen
        exact hpos hlen.symm
      have hshort : dir.dropLast.length = depth - 1 := by rw [List.length_dropLast, hlen]
      show follow (enter (base ++ dir) ['.', '.']) rest = base ++ follow (enter dir ['.', '.']) rest
      rw [hup, hup, List.dropLast_append_of_ne_nil hne, ih hshort h.2]
  | case5 depth part rest hroot hdot hdots ih =>
      unfold staysBelow at h
      rw [if_neg hroot, if_neg hdot, if_neg hdots] at h
      have hdown : ∀ place, enter place part = place ++ [part] := by
        intro place
        unfold enter
        rw [if_neg hroot, if_neg hdot, if_neg hdots]
      have hlong : (dir ++ [part]).length = depth + 1 := by
        rw [List.length_append, List.length_singleton, hlen]
      show follow (enter (base ++ dir) part) rest = base ++ follow (enter dir part) rest
      rw [hdown, hdown, List.append_assoc, ih hlong h]

theorem staysBelow_of_append {depth : Nat} {parts more : List (List Char)}
    (h : staysBelow depth (parts ++ more) = true) : staysBelow depth parts = true := by
  induction depth, parts using staysBelow.induct with
  | case1 depth => rfl
  | case2 depth rest =>
      rw [List.cons_append] at h
      unfold staysBelow at h
      rw [if_pos rfl] at h
      cases h
  | case3 depth rest hroot ih =>
      rw [List.cons_append] at h
      unfold staysBelow at h ⊢
      rw [if_neg hroot, if_pos rfl] at h ⊢
      exact ih h
  | case4 depth rest hroot hdot ih =>
      rw [List.cons_append] at h
      unfold staysBelow at h ⊢
      rw [if_neg hroot, if_neg hdot, if_pos rfl, Bool.and_eq_true] at h ⊢
      exact ⟨h.1, ih h.2⟩
  | case5 depth part rest hroot hdot hdots ih =>
      rw [List.cons_append] at h
      unfold staysBelow at h ⊢
      rw [if_neg hroot, if_neg hdot, if_neg hdots] at h ⊢
      exact ih h

/-- A text without a slash is one component. -/
theorem components_noSlash {name : List Char} (hne : name ≠ []) (h : '/' ∉ name) :
    components name = [name] := by
  have hhead : name.head? ≠ some '/' := fun heq => h (List.mem_of_head? heq)
  unfold components
  rw [splitOn_noSlash h]
  show (if name.head? = some '/' then [['/']] else if name = [] then [] else [name]) ++ [] = _
  rw [if_neg hhead, if_neg hne, List.append_nil]

/-- A plain name as a path. -/
theorem follow_name {name : List Char} (h : Plain name) (dir : Place) :
    follow dir (components name) = dir ++ [name] := by
  rw [components_noSlash h.nonempty h.noSlash]
  exact enter_plain h dir

/-! ## §2. Places that are neither equal nor one in the other. -/

variable {α κ : Type*}

/-- Neither is the other or lies below it. -/
def Apart (p q : List α) : Prop := ¬ p <+: q ∧ ¬ q <+: p

instance [DecidableEq α] (p q : List α) : Decidable (Apart p q) :=
  inferInstanceAs (Decidable (_ ∧ _))

theorem Apart.symm {p q : List α} (h : Apart p q) : Apart q p := ⟨h.2, h.1⟩

/-- Nothing lies below both. -/
theorem Apart.not_below {p q place : List α} (h : Apart p q) (hp : p <+: place) : ¬ q <+: place := by
  intro hq
  rcases List.prefix_or_prefix_of_prefix hp hq with hpq | hqp
  · exact h.1 hpq
  · exact h.2 hqp

/-- **Below places that are apart everything is apart.** -/
theorem Apart.append {p q : List α} (h : Apart p q) (more rest : List α) :
    Apart (p ++ more) (q ++ rest) := by
  constructor
  · intro hpre
    have hp : p <+: q ++ rest := (List.prefix_append p more).trans hpre
    exact h.not_below hp (List.prefix_append q rest)
  · intro hpre
    have hq : q <+: p ++ more := (List.prefix_append q rest).trans hpre
    exact h.not_below (List.prefix_append p more) hq

/-- Two names in one directory. -/
theorem apart_of_ne {a b : α} (h : a ≠ b) (dir : List α) : Apart (dir ++ [a]) (dir ++ [b]) := by
  have hone : ∀ {x y : α}, dir ++ [x] <+: dir ++ [y] → x = y := by
    intro x y hpre
    have hxy := (List.prefix_append_right_inj dir).mp hpre
    exact (List.cons_prefix_cons.mp hxy).1
  exact ⟨fun hpre => h (hone hpre), fun hpre => h (hone hpre).symm⟩

/-! ## §3. The files of a disk. -/

/-- Files with their contents, each at a place. -/
abbrev Files (κ : Type*) := List (Place × κ)

namespace Files

/-- The files at a place or below it. -/
def below (files : Files κ) (dir : Place) : Files κ := files.filter fun file => dir <+: file.1

/-- `path.exists()`, of a place that is a file or has files below it. -/
def isThere (files : Files κ) (dir : Place) : Bool := files.any fun file => dir <+: file.1

/-- `fs::remove_dir_all`, which may stop at the first file that it cannot remove. -/
def removeBelow (files : Files κ) (dir : Place) (goes : Place → Bool) : Files κ :=
  files.filter fun file => ¬ (dir <+: file.1 ∧ goes file.1)

/-- `fs::rename` where it succeeds: what was at the new place is replaced. -/
def moveBelow (files : Files κ) (old new : Place) : Files κ :=
  (files.filter fun file => ¬ new <+: file.1).map fun file =>
    if old <+: file.1 then (new ++ file.1.drop old.length, file.2) else file

variable {files : Files κ} {dir old new other : Place}

theorem below_removeBelow (h : Apart dir other) (goes : Place → Bool) :
    (files.removeBelow dir goes).below other = files.below other := by
  unfold below removeBelow
  rw [List.filter_filter]
  refine List.filter_congr fun file _ => ?_
  by_cases hother : other <+: file.1
  · have hdir : ¬ dir <+: file.1 := h.symm.not_below hother
    simp [hother, hdir]
  · simp [hother]

/-- Moving keeps the files of a place that is apart from both ends. -/
theorem below_moveBelow (hold : Apart old other) (hnew : Apart new other) :
    (files.moveBelow old new).below other = files.below other := by
  induction files with
  | nil => rfl
  | cons file files ih =>
      have hstep : below (moveBelow [file] old new) other = below [file] other := by
        by_cases hother : other <+: file.1
        · -- a file of the other place is neither replaced nor moved
          have hn : ¬ new <+: file.1 := hnew.symm.not_below hother
          have ho : ¬ old <+: file.1 := hold.symm.not_below hother
          simp [moveBelow, below, hn, ho]
        · have hmoved : ¬ other <+: new ++ file.1.drop old.length :=
            hnew.not_below (List.prefix_append new _)
          by_cases hn : new <+: file.1
          · simp [moveBelow, below, hn, hother]
          · by_cases ho : old <+: file.1
            · simp [moveBelow, below, hn, ho, hother, hmoved]
            · simp [moveBelow, below, hn, ho, hother]
      have hcons : moveBelow (file :: files) old new = moveBelow [file] old new ++ moveBelow files old new := by
        unfold moveBelow
        rw [← List.singleton_append, List.filter_append, List.map_append]
      have hsplit : below (file :: files) other = below [file] other ++ below files other := by
        unfold below
        rw [← List.singleton_append, List.filter_append]
      rw [hcons, hsplit, ← ih, ← hstep]
      unfold below
      rw [List.filter_append]

end Files

end Jmux.Lib.Path
