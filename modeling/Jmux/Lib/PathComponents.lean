/-
  Jmux.Lib.PathComponents — paths component by component, and as text.

  A path lies below a directory when the directory's components are a prefix of
  its own.  Comparing the texts instead also accepts a sibling whose name begins
  with the directory's.

  Main results:
    * `components_absolute`  — the components of a path that is written plainly.
    * `below_absolute_iff`   — such paths lie below each other by their components.
    * `prefix_absolute_iff`  — the text of one is a prefix of the other's exactly if
                                the last component may be cut short.
    * `sibling_iff`          — where the two differ.
-/
import Mathlib.Data.List.Infix
import Jmux.Lib.Str

namespace Jmux.Lib.Path

/-! ## §1. Components. -/

/-- `Path::components`: the root is a component of its own, empty parts and dots are
left out, but for a dot at the beginning. -/
def components (path : List Char) : List (List Char) :=
  match path.splitOn '/' with
  | [] => []
  | first :: rest =>
      (if path.head? = some '/' then [['/']] else if first = [] then [] else [first])
        ++ rest.filter fun part => part ≠ [] ∧ part ≠ ['.']

/-- The path is the directory or lies below it. -/
def Below (dir path : List Char) : Prop := components dir <+: components path

instance (dir path : List Char) : Decidable (Below dir path) :=
  inferInstanceAs (Decidable (_ <+: _))

example : ¬ Below "/home/u/app".toList "/home/u/app2".toList := by decide

example : Below "/home/u/app/".toList "/home/u/app".toList := by decide

/-! ## §2. Absolute paths as the kernel writes them. -/

/-- A name. -/
structure Segment (name : List Char) : Prop where
  nonempty : name ≠ []
  notDot   : name ≠ ['.']
  noSlash  : '/' ∉ name

/-- The root, or the names with a slash before each. -/
def absolute (names : List (List Char)) : List Char :=
  if names = [] then ['/'] else names.flatMap ('/' :: ·)

theorem absolute_cons (name : List Char) (names : List (List Char)) :
    absolute (name :: names) = '/' :: (name ++ names.flatMap ('/' :: ·)) := rfl

/-- A text without a slash is one part. -/
theorem splitOn_noSlash {name : List Char} (h : '/' ∉ name) : name.splitOn '/' = [name] := by
  rw [List.splitOn_eq_splitOnP]
  refine List.splitOnP_eq_singleton fun c hc => ?_
  have hne : c ≠ '/' := fun heq => h (heq ▸ hc)
  simpa using hne

theorem splitOn_flatMap_slash {first : List Char} (hfirst : '/' ∉ first) {names : List (List Char)}
    (h : ∀ name ∈ names, '/' ∉ name) :
    (first ++ names.flatMap ('/' :: ·)).splitOn '/' = first :: names := by
  induction names generalizing first with
  | nil => rw [List.flatMap_nil, List.append_nil, splitOn_noSlash hfirst]
  | cons name names ih =>
      rw [List.flatMap_cons, List.cons_append, Str.splitOn_line hfirst,
        ih (h name List.mem_cons_self) fun n hn => h n (List.mem_cons_of_mem name hn)]

theorem components_absolute {names : List (List Char)} (h : ∀ name ∈ names, Segment name) :
    components (absolute names) = ['/'] :: names := by
  cases names with
  | nil => decide
  | cons name names =>
      have hsplit : (absolute (name :: names)).splitOn '/' = [] :: name :: names := by
        show ([] ++ (name :: names).flatMap ('/' :: ·)).splitOn '/' = _
        exact splitOn_flatMap_slash List.not_mem_nil fun n hn => (h n hn).noSlash
      have hfilter : (name :: names).filter (fun part => part ≠ [] ∧ part ≠ ['.']) = name :: names := by
        refine List.filter_eq_self.mpr fun n hn => ?_
        simpa using ⟨(h n hn).nonempty, (h n hn).notDot⟩
      unfold components
      rw [hsplit]
      dsimp only
      rw [hfilter, absolute_cons]
      rfl

variable {dirNames names : List (List Char)}

/-- **Component by component.** -/
theorem below_absolute_iff (hd : ∀ name ∈ dirNames, Segment name) (h : ∀ name ∈ names, Segment name) :
    Below (absolute dirNames) (absolute names) ↔ dirNames <+: names := by
  rw [Below, components_absolute hd, components_absolute h, List.cons_prefix_cons]
  exact and_iff_right rfl

/-! ## §3. As text. -/

/-- A name is cut off by a slash or by the end. -/
theorem prefix_name_iff {name other : List Char} (hname : '/' ∉ name) (hother : '/' ∉ other)
    {rest more : List (List Char)} (hrest : rest ≠ []) :
    name ++ rest.flatMap ('/' :: ·) <+: other ++ more.flatMap ('/' :: ·) ↔
      name = other ∧ rest.flatMap ('/' :: ·) <+: more.flatMap ('/' :: ·) := by
  constructor
  · intro h
    obtain ⟨t, ht⟩ := h
    cases rest with
    | nil => exact absurd rfl hrest
    | cons r rest =>
        have hname' : (name ++ '/' :: (r ++ rest.flatMap ('/' :: ·) ++ t)).splitOn '/' = name :: _ :=
          Str.splitOn_line hname _
        have hl : name ++ (r :: rest).flatMap ('/' :: ·) ++ t
            = name ++ '/' :: (r ++ rest.flatMap ('/' :: ·) ++ t) := by simp
        rw [← hl, ht] at hname'
        have heq : name = other := by
          cases more with
          | nil =>
              rw [List.flatMap_nil, List.append_nil, splitOn_noSlash hother] at hname'
              exact (List.cons.inj hname').1.symm
          | cons m more =>
              have hother' : (other ++ (m :: more).flatMap ('/' :: ·)).splitOn '/' = other :: _ :=
                Str.splitOn_line hother _
              exact (List.cons.inj (hname'.symm.trans hother')).1
        subst heq
        refine ⟨rfl, t, ?_⟩
        rw [List.append_assoc] at ht
        exact List.append_cancel_left ht
  · rintro ⟨rfl, h⟩
    exact (List.prefix_append_right_inj name).mpr h

/-- **As text**: all names but the last agree, and the last one may be cut short. -/
theorem prefix_flatMap_iff {front : List (List Char)} {last : List Char}
    (hfront : ∀ name ∈ front, '/' ∉ name) (hlast : '/' ∉ last) (h : ∀ name ∈ names, '/' ∉ name) :
    (front ++ [last]).flatMap ('/' :: ·) <+: names.flatMap ('/' :: ·) ↔
      ∃ name, last <+: name ∧ front ++ [name] <+: names := by
  induction front generalizing names with
  | nil =>
      cases names with
      | nil => simp
      | cons name names =>
          have hl : ([] ++ [last]).flatMap ('/' :: ·) = '/' :: last := by simp
          rw [hl, List.flatMap_cons, List.cons_append, List.cons_prefix_cons]
          constructor
          · rintro ⟨-, hpre⟩
            refine ⟨name, ?_, by simp⟩
            cases names with
            | nil => simpa using hpre
            | cons n names =>
                -- the last name ends before the next slash
                obtain ⟨t, ht⟩ := hpre
                rcases List.append_eq_append_iff.mp ht with ⟨mid, hmid, -⟩ | ⟨mid, hmid, hmore⟩
                · exact ⟨mid, hmid.symm⟩
                · cases mid with
                  | nil => exact ⟨[], by rw [hmid, List.append_nil, List.append_nil]⟩
                  | cons c mid =>
                      rw [List.flatMap_cons, List.cons_append, List.cons_append] at hmore
                      obtain ⟨rfl, -⟩ := List.cons.inj hmore
                      exact absurd (by rw [hmid]; simp) hlast
          · rintro ⟨name', hpre, hone⟩
            obtain ⟨rfl, -⟩ := List.cons_prefix_cons.mp hone
            exact ⟨rfl, hpre.trans (List.prefix_append _ _)⟩
  | cons first front ih =>
      cases names with
      | nil => simp
      | cons name names =>
          have hne : front ++ [last] ≠ [] := by simp
          have hl : (first :: front ++ [last]).flatMap ('/' :: ·)
              = '/' :: (first ++ (front ++ [last]).flatMap ('/' :: ·)) := by simp
          rw [hl, List.flatMap_cons, List.cons_append, List.cons_prefix_cons, and_iff_right rfl,
            prefix_name_iff (hfront first List.mem_cons_self) (h name List.mem_cons_self) hne,
            ih (fun n hn => hfront n (List.mem_cons_of_mem first hn))
              fun n hn => h n (List.mem_cons_of_mem name hn)]
          simp only [List.cons_append, List.cons_prefix_cons]
          constructor
          · rintro ⟨rfl, n, hpre, hn⟩
            exact ⟨n, hpre, rfl, hn⟩
          · rintro ⟨n, hpre, rfl, hn⟩
            exact ⟨rfl, n, hpre, hn⟩

/-- A directory that lies above as components is a prefix as text. -/
theorem prefix_of_below (hd : ∀ name ∈ dirNames, Segment name) (h : ∀ name ∈ names, Segment name)
    (hb : Below (absolute dirNames) (absolute names)) : absolute dirNames <+: absolute names := by
  obtain ⟨more, rfl⟩ := (below_absolute_iff hd h).mp hb
  cases dirNames with
  | nil =>
      cases more with
      | nil => exact List.prefix_refl _
      | cons name names => exact ⟨name ++ names.flatMap ('/' :: ·), rfl⟩
  | cons name dirNames =>
      refine ⟨more.flatMap ('/' :: ·), ?_⟩
      show (name :: dirNames).flatMap ('/' :: ·) ++ _ = (name :: dirNames ++ more).flatMap ('/' :: ·)
      rw [List.flatMap_append]

/-- **Where text and components differ**: the last name of the directory goes on to
another name. -/
theorem sibling_iff (hd : ∀ name ∈ dirNames, Segment name) (h : ∀ name ∈ names, Segment name) :
    (absolute dirNames <+: absolute names ∧ ¬ Below (absolute dirNames) (absolute names)) ↔
      ∃ front last name, dirNames = front ++ [last] ∧ last <+: name ∧ last ≠ name ∧
        front ++ [name] <+: names := by
  rw [below_absolute_iff hd h]
  rcases List.eq_nil_or_concat dirNames with rfl | ⟨front, last, rfl⟩
  · simp
  · rw [List.concat_eq_append] at hd ⊢
    have hfront : ∀ n ∈ front, '/' ∉ n := fun n hn => (hd n (by simp [hn])).noSlash
    have hlast : '/' ∉ last := (hd last (by simp)).noSlash
    have habs : absolute (front ++ [last]) = (front ++ [last]).flatMap ('/' :: ·) :=
      if_neg (by simp)
    constructor
    · rintro ⟨hpre, hnot⟩
      by_cases hnames : names = []
      · subst hnames
        rw [habs] at hpre
        have hlen := hpre.length_le
        have hpos := List.length_pos_iff.mpr (hd last (by simp)).nonempty
        simp [absolute] at hlen
        omega
      · rw [habs, absolute, if_neg hnames,
          prefix_flatMap_iff hfront hlast fun n hn => (h n hn).noSlash] at hpre
        obtain ⟨name, hl, hn⟩ := hpre
        exact ⟨front, last, name, rfl, hl, fun heq => hnot (heq ▸ hn), hn⟩
    · rintro ⟨front', last', name, heq, hl, hne, hn⟩
      obtain ⟨rfl, hsame⟩ := List.append_inj' heq rfl
      obtain rfl := List.head_eq_of_cons_eq hsame
      have hnames : names ≠ [] := by
        rintro rfl
        simp at hn
      constructor
      · rw [habs, absolute, if_neg hnames,
          prefix_flatMap_iff hfront hlast fun n hn => (h n hn).noSlash]
        exact ⟨name, hl, hn⟩
      · intro hpre
        have hlen : (front ++ [last]).length = (front ++ [name]).length := by simp
        have hboth := List.prefix_of_prefix_length_le hpre hn (Nat.le_of_eq hlen)
        have hsame := List.append_cancel_left (hboth.eq_of_length hlen)
        exact hne (List.head_eq_of_cons_eq hsame)

end Jmux.Lib.Path
