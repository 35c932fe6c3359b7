/-
  Jmux.Goal.OutputDir — validating an output directory twice.

  `validate_output_dir` (`goal/mod.rs`) cleans the setting when a graph is
  created; the graph stores the result and validates it again whenever the
  directory of one of its nodes is derived (`goal/graph.rs`).  The first pass trims
  the whole setting and then drops the `.` components, so that the white space
  behind a leading `./` or before a trailing `/` is trimmed by the second pass only.

  Main result:
    * `validate_stable_iff` — the second pass changes nothing exactly when the
                              kept components have no white space at the two ends.
-/
import Jmux.Goal.Graph
import Jmux.Lib.Lines

namespace Jmux.Goal

open Jmux.Lib

/-! ## §1. The components of a setting. -/

/-- What `Path::components` makes of the trimmed setting, without the `.` components. -/
def keptComponents (dir : String) : List (List Char) :=
  ((Str.trim dir).toList.splitOn '/').filter fun p => p ≠ [] ∧ p ≠ ['.']

/-- A directory inside the repository: a relative path without `..`. -/
def RepoRelative (rel : String) : Prop :=
  rel ≠ "" ∧ rel.toList.head? ≠ some '/' ∧ ['.', '.'] ∉ rel.toList.splitOn '/'

theorem validateOutputDir_eq_ok {dir rel : String} (h : validateOutputDir dir = .ok rel) :
    keptComponents dir ≠ [] ∧ (['.', '.'] ∉ keptComponents dir) ∧
      rel = String.ofList (['/'].intercalate (keptComponents dir)) := by
  unfold validateOutputDir at h
  dsimp only at h
  split at h
  · cases h
  split at h
  · cases h
  next hbad =>
    split at h
    · cases h
    next hkept =>
      refine ⟨hkept, fun hdots => hbad (.inr ?_), (Except.ok.inj h).symm⟩
      exact (List.mem_filter.mp hdots).1

/-- A component is not empty, is no dot, and has no slash in it. -/
theorem component_of_mem {dir : String} {p : List Char} (hp : p ∈ keptComponents dir) :
    p ≠ [] ∧ p ≠ ['.'] ∧ '/' ∉ p := by
  obtain ⟨hmem, hkept⟩ := List.mem_filter.mp hp
  have hboth : p ≠ [] ∧ p ≠ ['.'] := by simpa using hkept
  exact ⟨hboth.1, hboth.2, Lines.not_mem_of_mem_splitOn '/' hmem⟩

theorem splitOn_rel {dir : String} (hne : keptComponents dir ≠ []) :
    (['/'].intercalate (keptComponents dir)).splitOn '/' = keptComponents dir :=
  List.splitOn_intercalate '/' (fun _ hp => (component_of_mem hp).2.2) hne

/-- The joined components begin and end as the first and the last one do. -/
theorem head?_intercalate {sep p : List Char} (hp : p ≠ []) (rest : List (List Char)) :
    (sep.intercalate (p :: rest)).head? = p.head? := by
  cases rest with
  | nil => rw [List.intercalate_singleton]
  | cons q rest => rw [List.intercalate_cons_cons, List.append_assoc, List.head?_append_of_ne_nil _ hp]

theorem getLast?_intercalate {sep : List Char} {parts : List (List Char)}
    (hne : ∀ p ∈ parts, p ≠ []) {p : List Char} (hp : parts.getLast? = some p) :
    (sep.intercalate parts).getLast? = p.getLast? := by
  induction parts with
  | nil => simp at hp
  | cons q rest ih =>
      cases rest with
      | nil =>
          obtain rfl : q = p := by simpa using hp
          rw [List.intercalate_singleton]
      | cons r rest =>
          have hrest := ih (fun k hk => hne k (List.mem_cons_of_mem q hk)) (by simpa using hp)
          have hr := hne p (List.mem_of_getLast? hp)
          have hjoined : sep.intercalate (r :: rest) ≠ [] := by
            intro hnil
            rw [hnil] at hrest
            exact hr (List.getLast?_eq_none_iff.mp hrest.symm)
          rw [List.intercalate_cons_cons, List.getLast?_append_of_ne_nil _ hjoined, hrest]

/-! ## §2. The first pass. -/

theorem ne_nil_of_kept {dir : String} (hne : keptComponents dir ≠ []) :
    ['/'].intercalate (keptComponents dir) ≠ [] := by
  intro hnil
  have hsplit := splitOn_rel hne
  rw [hnil] at hsplit
  have hmem : [] ∈ keptComponents dir := by
    rw [← hsplit]
    simp
  exact (component_of_mem hmem).1 rfl

/-- What is accepted is a directory inside the repository. -/
theorem repoRelative_of_validate {dir rel : String} (h : validateOutputDir dir = .ok rel) :
    RepoRelative rel := by
  obtain ⟨hne, hdots, rfl⟩ := validateOutputDir_eq_ok h
  refine ⟨fun hempty => ?_, ?_, ?_⟩
  · have hnil := congrArg String.toList hempty
    rw [String.toList_ofList] at hnil
    exact ne_nil_of_kept hne hnil
  · rw [String.toList_ofList]
    cases hkept : keptComponents dir with
    | nil => exact absurd hkept hne
    | cons p rest =>
        have hmem : p ∈ keptComponents dir := by simp [hkept]
        have hp := component_of_mem hmem
        rw [head?_intercalate hp.1]
        exact fun hslash => hp.2.2 (List.mem_of_head? hslash)
  · rw [String.toList_ofList, splitOn_rel hne]
    exact hdots

/-! ## §3. The second pass. -/

/-- The text has no white space at its ends. -/
def BlankFree (text : List Char) : Prop :=
  (∀ c ∈ text.head?, Str.isWhitespace c = false) ∧ ∀ c ∈ text.getLast?, Str.isWhitespace c = false

/-- The kept components have no white space at the two ends. -/
def StableSetting (dir : String) : Prop :=
  (∀ p ∈ (keptComponents dir).head?, ∀ c ∈ p.head?, Str.isWhitespace c = false) ∧
    ∀ p ∈ (keptComponents dir).getLast?, ∀ c ∈ p.getLast?, Str.isWhitespace c = false

theorem blankFree_rel_iff {dir : String} (hne : keptComponents dir ≠ []) :
    BlankFree (['/'].intercalate (keptComponents dir)) ↔ StableSetting dir := by
  have hlast := List.getLast?_eq_some_getLast hne
  have hcomponent : ∀ p ∈ keptComponents dir, p ≠ [] := fun p hp => (component_of_mem hp).1
  unfold BlankFree StableSetting
  rw [getLast?_intercalate hcomponent hlast, hlast]
  generalize (keptComponents dir).getLast hne = last
  cases hkept : keptComponents dir with
  | nil => exact absurd hkept hne
  | cons p rest =>
      rw [head?_intercalate (hcomponent p (by simp [hkept]))]
      simp

theorem length_intercalate_cons (sep p : List Char) (rest : List (List Char)) :
    (sep.intercalate (p :: rest)).length
      = p.length + if rest = [] then 0 else sep.length + (sep.intercalate rest).length := by
  cases rest with
  | nil => simp
  | cons q rest =>
      rw [List.intercalate_cons_cons, if_neg (List.cons_ne_nil q rest)]
      simp only [List.length_append]
      omega

/-- Fewer components make a shorter path. -/
theorem length_intercalate_filter_le (sep : List Char) (keep : List Char → Bool)
    (parts : List (List Char)) :
    (sep.intercalate (parts.filter keep)).length ≤ (sep.intercalate parts).length := by
  induction parts with
  | nil => simp
  | cons p rest ih =>
      rw [length_intercalate_cons sep p rest]
      have hrest : rest = [] → rest.filter keep = [] := fun h => by rw [h, List.filter_nil]
      by_cases hp : keep p = true
      · rw [List.filter_cons_of_pos hp, length_intercalate_cons]
        by_cases hnil : rest = []
        · rw [if_pos (hrest hnil), if_pos hnil]
        · rw [if_neg hnil]
          split <;> omega
      · rw [List.filter_cons_of_neg hp]
        by_cases hnil : rest = []
        · simp [hrest hnil]
        · rw [if_neg hnil]
          omega

/-- A path that was cleaned is cleaned again only if nothing was to be trimmed. -/
theorem trim_of_validate_self {rel : String} (h : validateOutputDir rel = .ok rel) :
    Str.trim rel = rel := by
  obtain ⟨_, _, hrel⟩ := validateOutputDir_eq_ok h
  have htrim : (Str.trim rel).toList = Str.trimMatches Str.isWhitespace rel.toList :=
    String.toList_ofList
  have hjoined : rel.toList = ['/'].intercalate (keptComponents rel) := by
    conv_lhs => rw [hrel]
    exact String.toList_ofList
  have hlen : rel.toList.length ≤ (Str.trim rel).toList.length := by
    calc rel.toList.length = (['/'].intercalate (keptComponents rel)).length := by rw [← hjoined]
      _ ≤ (['/'].intercalate ((Str.trim rel).toList.splitOn '/')).length :=
          length_intercalate_filter_le _ _ _
      _ = (Str.trim rel).toList.length := by rw [List.intercalate_splitOn]
  have hsub : (Str.trimMatches Str.isWhitespace rel.toList).Sublist rel.toList :=
    ((List.rdropWhile_prefix _ _).sublist).trans (List.dropWhile_suffix _).sublist
  rw [htrim] at hlen
  have heq := hsub.eq_of_length_le hlen
  unfold Str.trim
  rw [heq, String.ofList_toList]

/-- The second pass returns what it is given if there is nothing to trim. -/
theorem validate_rel {dir rel : String} (h : validateOutputDir dir = .ok rel)
    (hblank : BlankFree rel.toList) : validateOutputDir rel = .ok rel := by
  obtain ⟨hne, hdots, rfl⟩ := validateOutputDir_eq_ok h
  have hrelative := repoRelative_of_validate h
  generalize hrel : String.ofList (['/'].intercalate (keptComponents dir)) = rel at *
  have htext : rel.toList = ['/'].intercalate (keptComponents dir) := by
    rw [← hrel, String.toList_ofList]
  have htrim : Str.trim rel = rel := by
    unfold Str.trim
    rw [Str.trimMatches_eq_self_iff.mpr hblank, String.ofList_toList]
  have hfilter : (keptComponents dir).filter (fun p => decide (p ≠ [] ∧ p ≠ ['.']))
      = keptComponents dir := List.filter_eq_self.mpr fun p hp => (List.mem_filter.mp hp).2
  have hfirst : ¬ ((keptComponents dir).head? = some [] ∨ ['.', '.'] ∈ keptComponents dir) := by
    rintro (hhead | hmem)
    · exact (component_of_mem (List.mem_of_head? hhead)).1 rfl
    · exact hdots hmem
  unfold validateOutputDir
  simp only [htrim, htext, splitOn_rel hne, hfilter, if_neg hrelative.1, if_neg hfirst, if_neg hne]
  rw [hrel]

/-- What is asked of the result: a directory inside the repository that the second
pass, and with it every graph that stores it, leaves as it is. -/
def StableResult (rel : String) : Prop :=
  RepoRelative rel ∧ validateOutputDir rel = .ok rel ∧
    ∀ spec : GraphSpec, spec.outputDir = rel → spec.outputDirRel = rel

/-- **The directory that is derived again is the one that was recorded exactly when
the kept components have no white space at the two ends.** -/
theorem validate_stable_iff {dir rel : String} (h : validateOutputDir dir = .ok rel) :
    StableResult rel ↔ StableSetting dir := by
  obtain ⟨hne, _, hrel⟩ := validateOutputDir_eq_ok h
  have htext : rel.toList = ['/'].intercalate (keptComponents dir) := by
    rw [hrel, String.toList_ofList]
  rw [← blankFree_rel_iff hne, ← htext]
  constructor
  · rintro ⟨_, hagain, _⟩
    have htrim := congrArg String.toList (trim_of_validate_self hagain)
    unfold Str.trim at htrim
    rw [String.toList_ofList] at htrim
    exact Str.trimMatches_eq_self_iff.mp htrim
  · intro hblank
    have hagain := validate_rel h hblank
    refine ⟨repoRelative_of_validate h, hagain, fun spec hspec => ?_⟩
    unfold GraphSpec.outputDirRel outputDirOrDefault
    rw [hspec, hagain]

/-- A plain setting is stable. -/
theorem validate_stable_roadmap :
    validateOutputDir "./docs/roadmap/" = .ok "docs/roadmap" ∧
      (StableResult "docs/roadmap" ↔ StableSetting "./docs/roadmap/") :=
  ⟨by decide, validate_stable_iff (by decide)⟩

/-- The space behind the dot is trimmed by the second pass only. -/
theorem validate_unstable :
    validateOutputDir "./ docs" = .ok " docs" ∧ validateOutputDir " docs" = .ok "docs" ∧
      ¬ StableResult " docs" := by
  refine ⟨by decide, by decide, ?_⟩
  rintro ⟨_, hagain, _⟩
  exact absurd hagain (by decide)

end Jmux.Goal
