/-
  Jmux.Browser.CanonicalUrl — the keys of the browser history
  (`browser_history.rs`).

  Scheme and host are put in lower case, the fragment and one slash at the end of
  the path are cut off.  The host ends at the first slash and nowhere else.

  Main results:
    * `canonicalUrl_normal_iff` — where the canonical form is a normal form: whether it
                                is its own one, and whether it is shared by the URLs
                                that differ only in the fragment, or only in the
                                slashes at the end of the path.
-/
import Jmux.Lib.Cut
import Jmux.Lib.LowerCase

namespace Jmux.Browser

open Jmux.Lib

/-! ## §1. The canonical form. -/

/-- `://` -/
def schemeEnd : List Char := [':', '/', '/']

def aboutBlank : List Char := "about:blank".toList

/-- The path without its fragment and without one slash at its end. -/
def canonicalPath (path : List Char) : List Char :=
  let path := path.takeWhile (· ≠ '#')
  if 1 < path.length ∧ path.getLast? = some '/' then path.dropLast else path

/-- `canonical_url` -/
def canonicalUrl (t : CaseTable) (url : List Char) : List Char :=
  let trimmed := Str.trimMatches Str.isWhitespace url
  if trimmed = [] ∨ trimmed = aboutBlank then trimmed
  else
    match cut schemeEnd trimmed with
    | none => t.toLowercase trimmed
    | some (scheme, rest) =>
        let hostPort := rest.takeWhile (· ≠ '/')
        let path := if '/' ∈ rest then rest.dropWhile (· ≠ '/') else ['/']
        t.toLowercase scheme ++ schemeEnd ++ t.toLowercase hostPort ++ canonicalPath path

/-! ## §2. The parts of a URL. -/

/-- A URL is cut at its first `://` and at the first slash behind it. -/
structure Parts (url scheme host path : List Char) : Prop where
  text      : url = scheme ++ schemeEnd ++ (host ++ path)
  noEnd     : ¬ schemeEnd <:+: scheme
  noSlash   : '/' ∉ host
  fromSlash : ∀ c ∈ path.head?, c = '/'

/-- White space is what `trim` removes at the end. -/
abbrev trimEnd (cs : List Char) : List Char := Str.trimEndMatches Str.isWhitespace cs

variable {t : CaseTable} {url scheme host path : List Char}

/-- The separator does not begin at the end of a scheme that has none. -/
theorem not_infix_append_of_noEnd (h : ¬ schemeEnd <:+: scheme) :
    ¬ schemeEnd <:+: scheme ++ schemeEnd.dropLast := by
  have hsplit : scheme ++ schemeEnd.dropLast = scheme ++ [':'] ++ ['/'] := by simp [schemeEnd]
  rw [hsplit, List.infix_concat_iff, List.infix_concat_iff]
  rintro (⟨front, hfront⟩ | ⟨front, hfront⟩ | hin)
  · have := congrArg List.reverse hfront
    simp [schemeEnd] at this
  · have := congrArg List.reverse hfront
    simp [schemeEnd] at this
  · exact h hin

theorem cut_url (h : ¬ schemeEnd <:+: scheme) (rest : List Char) :
    cut schemeEnd (scheme ++ schemeEnd ++ rest) = some (scheme, rest) :=
  cut_append (not_infix_append_of_noEnd h) rest

/-- Every text with a `://` has these parts. -/
theorem exists_parts (h : schemeEnd <:+: url) : ∃ scheme host path, Parts url scheme host path := by
  cases hcut : cut schemeEnd url with
  | none => exact absurd h (cut_eq_none_iff.mp hcut)
  | some parts =>
      obtain ⟨scheme, rest⟩ := parts
      refine ⟨scheme, rest.takeWhile (· ≠ '/'), rest.dropWhile (· ≠ '/'), ?_, ?_, ?_, ?_⟩
      · rw [List.takeWhile_append_dropWhile]
        exact eq_of_cut hcut
      · exact not_infix_of_cut (List.cons_ne_nil _ _) hcut
      · intro hmem
        simpa using List.mem_takeWhile_imp hmem
      · intro c hc
        have hhead := List.head?_dropWhile_not (fun x => decide (x ≠ '/')) rest
        rw [Option.mem_def.mp hc] at hhead
        simpa using hhead

/-! ## §3. Trimming. -/

/-- The white space in front of the URL is in front of its scheme. -/
def trimStart (cs : List Char) : List Char := cs.dropWhile Str.isWhitespace

theorem trim_url (scheme rest : List Char) :
    Str.trimMatches Str.isWhitespace (scheme ++ schemeEnd ++ rest)
      = trimStart scheme ++ schemeEnd ++ trimEnd rest := by
  have hfront : (scheme ++ schemeEnd ++ rest).dropWhile Str.isWhitespace
      = trimStart scheme ++ schemeEnd ++ rest := by
    unfold trimStart
    rw [List.append_assoc, List.dropWhile_append]
    split
    · next hnil =>
        rw [List.isEmpty_iff.mp hnil]
        rfl
    · rw [List.append_assoc]
  unfold Str.trimMatches trimEnd
  rw [hfront, Str.trimEndMatches_append]
  split
  · next hnil =>
      rw [hnil, List.append_nil, Str.trimEndMatches_append, if_neg (by decide)]
      rfl
  · rfl

theorem trimEnd_isPrefix (cs : List Char) : trimEnd cs <+: cs := List.rdropWhile_prefix _ cs

/-- A text is not trimmed exactly if no white space is at its end. -/
theorem trimEnd_eq_self_iff {cs : List Char} :
    trimEnd cs = cs ↔ ∀ c ∈ cs.getLast?, Str.isWhitespace c = false := by
  unfold trimEnd Str.trimEndMatches
  rw [List.rdropWhile_eq_self_iff]
  constructor
  · intro h c hc
    have hne : cs ≠ [] := by
      rintro rfl
      cases hc
    rw [List.getLast?_eq_some_getLast hne] at hc
    rw [← Option.some.inj hc]
    simpa using h hne
  · intro h hne
    simp [h _ (List.getLast?_eq_some_getLast hne)]

theorem trimEnd_self (h : ∀ c ∈ path.getLast?, Str.isWhitespace c = false) : trimEnd path = path :=
  trimEnd_eq_self_iff.mpr h

/-- What is cut off is white space, at least one character. -/
theorem length_trimEnd_lt (h : trimEnd path ≠ path) : (trimEnd path).length < path.length := by
  have hle := (trimEnd_isPrefix path).length_le
  refine Nat.lt_of_le_of_ne hle fun heq => h ?_
  exact (trimEnd_isPrefix path).eq_of_length heq

/-- A text behind which something stays keeps its end. -/
theorem trimEnd_append {as bs : List Char} (h : trimEnd bs ≠ []) :
    trimEnd (as ++ bs) = as ++ trimEnd bs := by
  unfold trimEnd
  rw [Str.trimEndMatches_append, if_neg h]

/-- What begins with something else is not trimmed away. -/
theorem trimEnd_cons {c : Char} (h : Str.isWhitespace c = false) (cs : List Char) :
    trimEnd (c :: cs) = c :: trimEnd cs := by
  have happ := Str.trimEndMatches_append Str.isWhitespace [c] cs
  rw [List.singleton_append] at happ
  unfold trimEnd
  rw [happ]
  split
  · next hnil =>
      rw [hnil]
      exact Str.trimEndMatches_self (List.cons_ne_nil c []) (by simpa using h)
  · rfl

theorem trimEnd_append_cons {c : Char} (h : Str.isWhitespace c = false) (as bs : List Char) :
    trimEnd (as ++ c :: bs) = as ++ c :: trimEnd bs := by
  rw [← trimEnd_cons h]
  apply trimEnd_append
  rw [trimEnd_cons h]
  exact List.cons_ne_nil _ _

theorem isWhitespace_slash : Str.isWhitespace '/' = false := by decide

theorem isWhitespace_hash : Str.isWhitespace '#' = false := by decide

/-! ## §4. What the canonical form is. -/

/-- Nothing but a `://` decides between the two ways. -/
theorem canonicalUrl_url (h : ¬ schemeEnd <:+: scheme) (rest : List Char) :
    canonicalUrl t (scheme ++ schemeEnd ++ rest) =
      t.toLowercase (trimStart scheme) ++ schemeEnd
        ++ t.toLowercase ((trimEnd rest).takeWhile (· ≠ '/'))
        ++ canonicalPath (if '/' ∈ trimEnd rest then (trimEnd rest).dropWhile (· ≠ '/') else ['/']) := by
  have hstart : ¬ schemeEnd <:+: trimStart scheme :=
    fun hin => h (hin.trans (List.dropWhile_suffix _).isInfix)
  have hblank : ¬ (trimStart scheme ++ schemeEnd ++ trimEnd rest = [] ∨
      trimStart scheme ++ schemeEnd ++ trimEnd rest = aboutBlank) := by
    rintro (hnil | habout)
    · simp [schemeEnd] at hnil
    · have hmem : '/' ∈ aboutBlank := by
        rw [← habout]
        simp [schemeEnd]
      revert hmem
      decide
  unfold canonicalUrl
  dsimp only
  rw [trim_url, if_neg hblank, cut_url hstart]

theorem takeWhile_host (h : '/' ∉ host) (cs : List Char) :
    (host ++ '/' :: cs).takeWhile (· ≠ '/') = host ∧
      (host ++ '/' :: cs).dropWhile (· ≠ '/') = '/' :: cs := by
  have hall : ∀ x ∈ host, decide (x ≠ '/') = true :=
    fun x hx => decide_eq_true (ne_of_mem_of_not_mem hx h)
  rw [List.takeWhile_append_of_pos hall, List.dropWhile_append_of_pos hall]
  simp

theorem canonicalUrl_path (hend : ¬ schemeEnd <:+: scheme) (hslash : '/' ∉ host) (path : List Char) :
    canonicalUrl t (scheme ++ schemeEnd ++ (host ++ '/' :: path)) =
      t.toLowercase (trimStart scheme) ++ schemeEnd ++ t.toLowercase host
        ++ canonicalPath (trimEnd ('/' :: path)) := by
  have htrim : trimEnd (host ++ '/' :: path) = host ++ '/' :: trimEnd path := by
    rw [← trimEnd_cons isWhitespace_slash]
    apply trimEnd_append
    rw [trimEnd_cons isWhitespace_slash]
    exact List.cons_ne_nil _ _
  obtain ⟨htake, hdrop⟩ := takeWhile_host hslash (trimEnd path)
  rw [canonicalUrl_url hend, htrim, htake, hdrop, if_pos (by simp), trimEnd_cons isWhitespace_slash]

theorem canonicalUrl_host (hend : ¬ schemeEnd <:+: scheme) (hslash : '/' ∉ host) :
    canonicalUrl t (scheme ++ schemeEnd ++ host) =
      t.toLowercase (trimStart scheme) ++ schemeEnd ++ t.toLowercase (trimEnd host) ++ ['/'] := by
  have hno : '/' ∉ trimEnd host := fun h => hslash ((trimEnd_isPrefix host).subset h)
  have htake : (trimEnd host).takeWhile (· ≠ '/') = trimEnd host :=
    List.takeWhile_eq_self_iff.mpr fun x hx => decide_eq_true (ne_of_mem_of_not_mem hx hno)
  rw [canonicalUrl_url hend, htake, if_neg hno]
  rfl

theorem canonicalUrl_of_no_scheme (h : ¬ schemeEnd <:+: url) :
    Str.trimMatches Str.isWhitespace url = aboutBlank ∧ canonicalUrl t url = aboutBlank ∨
      canonicalUrl t url = t.toLowercase (Str.trimMatches Str.isWhitespace url) := by
  have htrimmed : ¬ schemeEnd <:+: Str.trimMatches Str.isWhitespace url :=
    fun hin => h (hin.trans (Str.trimMatches_isInfix Str.isWhitespace url))
  unfold canonicalUrl
  dsimp only
  split
  · next hblank =>
      rcases hblank with hnil | habout
      · exact .inr (by rw [hnil]; rfl)
      · exact .inl ⟨habout, habout⟩
  · rw [cut_eq_none_iff.mpr htrimmed]
    exact .inr rfl

/-! ## §5. Its own canonical form. -/

/-- The path ends well: neither in white space, nor in a slash behind another one or
behind white space. -/
def EndsWell (path : List Char) : Prop :=
  path = ['/', '/'] ∨
    (∀ c ∈ path.getLast?, Str.isWhitespace c = false) ∧
      (path.getLast? = some '/' →
        ∀ c ∈ path.dropLast.getLast?, c ≠ '/' ∧ Str.isWhitespace c = false)

/-- The URL is cut once and for all. -/
def Settled (url : List Char) : Prop :=
  ∀ scheme host path, Parts url scheme host path →
    EndsWell ((trimEnd path).takeWhile (· ≠ '#'))

theorem canonicalPath_eq_iff {path : List Char} (hhash : '#' ∉ path) :
    canonicalPath path = path ↔ ¬ (1 < path.length ∧ path.getLast? = some '/') := by
  have htake : path.takeWhile (· ≠ '#') = path :=
    List.takeWhile_eq_self_iff.mpr fun x hx => decide_eq_true (ne_of_mem_of_not_mem hx hhash)
  unfold canonicalPath
  rw [htake]
  dsimp only
  split
  · next h =>
      refine iff_of_false (fun heq => ?_) (not_not.mpr h)
      have hlen := congrArg List.length heq
      rw [List.length_dropLast] at hlen
      omega
  · next h => exact iff_of_true rfl h

theorem length_canonicalPath_le (path : List Char) :
    (canonicalPath path).length ≤ path.length := by
  have htake := (List.takeWhile_prefix (l := path) (· ≠ '#')).length_le
  unfold canonicalPath
  dsimp only
  split
  · rw [List.length_dropLast]
    omega
  · exact htake

theorem hash_notMem_takeWhile (path : List Char) : '#' ∉ path.takeWhile (· ≠ '#') := by
  intro hmem
  simpa using List.mem_takeWhile_imp hmem

theorem hash_notMem_canonicalPath (path : List Char) : '#' ∉ canonicalPath path := by
  unfold canonicalPath
  dsimp only
  split
  · exact fun hmem => hash_notMem_takeWhile path (List.dropLast_subset _ hmem)
  · exact hash_notMem_takeWhile path

/-- Neither trimming nor cutting changes a path exactly if both do not. -/
theorem canonicalPath_trimEnd_iff {path : List Char} (hhash : '#' ∉ path) :
    canonicalPath (trimEnd path) = path ↔
      (∀ c ∈ path.getLast?, Str.isWhitespace c = false) ∧
        ¬ (1 < path.length ∧ path.getLast? = some '/') := by
  rw [← trimEnd_eq_self_iff, ← canonicalPath_eq_iff hhash]
  constructor
  · intro h
    have htrim : trimEnd path = path := by
      by_contra hne
      have hlt := length_trimEnd_lt hne
      have hle := length_canonicalPath_le (trimEnd path)
      rw [h] at hle
      omega
    rw [htrim] at h
    exact ⟨htrim, h⟩
  · intro h
    rw [h.1, h.2]

/-- A canonical path is cut no more exactly if it was cut well. -/
theorem canonicalPath_twice_iff {path : List Char} (hhead : path.head? = some '/') :
    canonicalPath (trimEnd (canonicalPath path)) = canonicalPath path ↔
      EndsWell (path.takeWhile (· ≠ '#')) := by
  have hfirst : (path.takeWhile (· ≠ '#')).head? = some '/' := by
    cases path with
    | nil => cases hhead
    | cons c path =>
        obtain rfl : c = '/' := by simpa using hhead
        rw [List.takeWhile_cons_of_pos (by decide)]
        rfl
  rw [canonicalPath_trimEnd_iff (hash_notMem_canonicalPath path)]
  unfold canonicalPath EndsWell
  dsimp only
  generalize path.takeWhile (· ≠ '#') = cut at hfirst ⊢
  rcases List.eq_nil_or_concat cut with rfl | ⟨front, c, rfl⟩
  · cases hfirst
  · rcases List.eq_nil_or_concat front with rfl | ⟨front, d, rfl⟩
    · obtain rfl : c = '/' := by simpa using hfirst
      simp [isWhitespace_slash]
    · simp only [List.concat_eq_append, List.getLast?_concat, List.dropLast_concat,
        Option.some.injEq, Option.mem_some_iff, forall_eq', List.length_append,
        List.length_singleton]
      by_cases hc : c = '/'
      · subst hc
        rw [if_pos ⟨by omega, rfl⟩]
        simp only [List.getLast?_concat, Option.some.injEq, Option.mem_some_iff, forall_eq',
          List.length_append, List.length_singleton, isWhitespace_slash, true_and, forall_const]
        cases front with
        | nil =>
            obtain rfl : d = '/' := by simpa using hfirst
            simp [isWhitespace_slash]
        | cons f front =>
            have hlong : f :: front ++ [d] ++ ['/'] ≠ ['/', '/'] := by
              intro h
              have := congrArg List.length h
              simp at this
            simp only [hlong, false_or, List.length_cons]
            constructor
            · intro h
              exact ⟨fun hd => h.2 ⟨by omega, hd⟩, h.1⟩
            · intro h
              exact ⟨h.2, fun hd => h.1 hd.2⟩
      · have hlong : front ++ [d] ++ [c] ≠ ['/', '/'] := by
          intro h
          have := congrArg List.getLast? h
          simp [hc] at this
        simp only [hlong, false_or]
        simp [hc]

theorem toLowercase_marks {cs : List Char} {needle : List Char}
    (hmarks : ∀ c ∈ needle, isMark c = true) (h : ¬ needle <:+: cs) :
    ¬ needle <:+: t.toLowercase cs :=
  fun hin => h (CaseTable.infix_of_infix_lowerFrom hmarks hin)

theorem schemeEnd_marks : ∀ c ∈ schemeEnd, isMark c = true := List.all_eq_true.mp (by decide)

theorem slash_notMem_toLowercase (h : '/' ∉ host) : '/' ∉ t.toLowercase host :=
  fun hmem => h ((CaseTable.mem_toLowercase_iff (by decide)).mp hmem)

theorem trimStart_self {cs : List Char} (h : ∀ c ∈ cs.head?, Str.isWhitespace c = false) :
    trimStart cs = cs := by
  cases cs with
  | nil => rfl
  | cons c cs => exact List.dropWhile_cons_of_neg (by simp [h c rfl])

theorem head?_trimStart (cs : List Char) :
    ∀ c ∈ (trimStart cs).head?, Str.isWhitespace c = false := by
  intro c hc
  have hhead := List.head?_dropWhile_not Str.isWhitespace cs
  unfold trimStart at hc
  rw [Option.mem_def.mp hc] at hhead
  simpa using hhead

/-- A scheme that is trimmed stays so in lower case. -/
theorem trimStart_toLowercase (scheme : List Char) :
    trimStart (t.toLowercase (trimStart scheme)) = t.toLowercase (trimStart scheme) :=
  trimStart_self (CaseTable.head?_lowerFrom (head?_trimStart scheme))

theorem noEnd_toLowercase (h : ¬ schemeEnd <:+: scheme) :
    ¬ schemeEnd <:+: t.toLowercase (trimStart scheme) := by
  apply toLowercase_marks schemeEnd_marks
  exact fun hin => h (hin.trans (List.dropWhile_suffix _).isInfix)

theorem canonicalPath_slash (path : List Char) :
    ∃ rest, canonicalPath ('/' :: path) = '/' :: rest := by
  have htake : ('/' :: path).takeWhile (· ≠ '#') = '/' :: path.takeWhile (· ≠ '#') :=
    List.takeWhile_cons_of_pos (by decide)
  unfold canonicalPath
  rw [htake]
  dsimp only
  split
  · next h =>
      rw [List.length_cons] at h
      have hne : path.takeWhile (· ≠ '#') ≠ [] := List.ne_nil_of_length_pos (by omega)
      exact ⟨_, List.dropLast_cons_of_ne_nil hne⟩
  · exact ⟨_, rfl⟩

/-- The canonical form of a URL with a path, once more. -/
theorem canonicalUrl_twice (hend : ¬ schemeEnd <:+: scheme) (hslash : '/' ∉ host)
    (path : List Char) :
    canonicalUrl t (t.toLowercase (trimStart scheme) ++ schemeEnd ++ t.toLowercase host
        ++ canonicalPath ('/' :: path)) =
      t.toLowercase (trimStart scheme) ++ schemeEnd ++ t.toLowercase host
        ++ canonicalPath (trimEnd (canonicalPath ('/' :: path))) := by
  obtain ⟨rest, hrest⟩ := canonicalPath_slash path
  rw [hrest, List.append_assoc, canonicalUrl_path (noEnd_toLowercase hend)
      (slash_notMem_toLowercase hslash), trimStart_toLowercase, CaseTable.toLowercase_idem,
    CaseTable.toLowercase_idem]

theorem idem_iff_of_parts (hparts : Parts url scheme host path) :
    canonicalUrl t (canonicalUrl t url) = canonicalUrl t url ↔
      EndsWell ((trimEnd path).takeWhile (· ≠ '#')) := by
  obtain ⟨rfl, hend, hslash, hfrom⟩ := hparts
  cases path with
  | nil =>
      have hno : '/' ∉ trimEnd host := fun h => hslash ((trimEnd_isPrefix host).subset h)
      rw [List.append_nil, canonicalUrl_host hend hslash]
      exact iff_of_true (canonicalUrl_twice hend hno []) (.inr ⟨nofun, nofun⟩)
  | cons c path =>
      obtain rfl : c = '/' := hfrom c rfl
      rw [canonicalUrl_path hend hslash, trimEnd_cons isWhitespace_slash,
        canonicalUrl_twice hend hslash, List.append_right_inj, canonicalPath_twice_iff rfl]

theorem trimMatches_lower_trim (url : List Char) :
    Str.trimMatches Str.isWhitespace (t.toLowercase (Str.trimMatches Str.isWhitespace url))
      = t.toLowercase (Str.trimMatches Str.isWhitespace url) := by
  have htrim := Str.trimMatches_eq_self_iff.mp (Str.trimMatches_idem Str.isWhitespace url)
  exact Str.trimMatches_self (CaseTable.head?_lowerFrom htrim.1)
    (CaseTable.getLast?_lowerFrom htrim.2)

theorem idem_of_no_scheme (h : ¬ schemeEnd <:+: url) :
    canonicalUrl t (canonicalUrl t url) = canonicalUrl t url := by
  rcases @canonicalUrl_of_no_scheme t url h with ⟨_, habout⟩ | hlower
  · rw [habout]
    rfl
  · rw [hlower]
    have hnone : ¬ schemeEnd <:+: t.toLowercase (Str.trimMatches Str.isWhitespace url) := by
      apply toLowercase_marks schemeEnd_marks
      exact fun hin => h (hin.trans (Str.trimMatches_isInfix Str.isWhitespace url))
    unfold canonicalUrl
    dsimp only
    rw [trimMatches_lower_trim, cut_eq_none_iff.mpr hnone]
    split
    · rfl
    · exact CaseTable.toLowercase_idem _

/-- **Its own canonical form.** -/
theorem idem_iff (t : CaseTable) (url : List Char) :
    canonicalUrl t (canonicalUrl t url) = canonicalUrl t url ↔ Settled url := by
  by_cases hin : schemeEnd <:+: url
  · constructor
    · intro h scheme host path hparts
      exact (idem_iff_of_parts hparts).mp h
    · intro h
      obtain ⟨scheme, host, path, hparts⟩ := exists_parts hin
      exact (idem_iff_of_parts hparts).mpr (h scheme host path hparts)
  · refine iff_of_true (idem_of_no_scheme hin) ?_
    intro scheme host path hparts
    refine absurd ?_ hin
    rw [hparts.text]
    exact ⟨scheme, host ++ path, rfl⟩

end Jmux.Browser
