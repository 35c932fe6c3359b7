/-
  Jmux.Browser.SamePage — which URLs of one page share an entry of the browser
  history (`browser_history.rs`).

  Main results:
    * `sameFragment_iff`        — the fragment does not matter exactly behind a path.
    * `sameSlashes_iff`         — how many slashes at the end of the path do not.
    * `canonicalUrl_normal_iff` — where the canonical form is a normal form.
-/
import Jmux.Browser.CanonicalUrl

namespace Jmux.Browser

open Jmux.Lib

variable {t : CaseTable} {url other scheme host path tail : List Char}

/-! ## §1. URLs that differ only in the fragment. -/

/-- The URL without its fragment. -/
def fragmentless (url : List Char) : List Char := url.takeWhile (· ≠ '#')

def SameButFragment (url other : List Char) : Prop := fragmentless url = fragmentless other

/-- Before the fragment stands a path, which does not end in white space. -/
def PathBeforeFragment (url : List Char) : Prop :=
  (∃ scheme host path, Parts (fragmentless url) scheme host path ∧ path ≠ []) ∧
    ∀ c ∈ (fragmentless url).getLast?, Str.isWhitespace c = false

theorem exists_fragment (url : List Char) :
    ∃ fragment, url = fragmentless url ++ fragment ∧ ∀ c ∈ fragment.head?, c = '#' := by
  refine ⟨url.dropWhile (· ≠ '#'), List.takeWhile_append_dropWhile.symm, ?_⟩
  intro c hc
  have hhead := List.head?_dropWhile_not (fun x => decide (x ≠ '#')) url
  rw [Option.mem_def.mp hc] at hhead
  simpa using hhead

theorem hash_notMem_fragmentless (url : List Char) : '#' ∉ fragmentless url :=
  hash_notMem_takeWhile url

theorem fragmentless_append (h : '#' ∉ url) (fragment : List Char)
    (hfragment : ∀ c ∈ fragment.head?, c = '#') : fragmentless (url ++ fragment) = url := by
  have hall : ∀ x ∈ url, decide (x ≠ '#') = true :=
    fun x hx => decide_eq_true (ne_of_mem_of_not_mem hx h)
  unfold fragmentless
  rw [List.takeWhile_append_of_pos hall]
  cases fragment with
  | nil => simp
  | cons c fragment =>
      obtain rfl : c = '#' := hfragment c rfl
      simp

/-- A path is taken up to the fragment. -/
theorem canonicalPath_append (hhash : '#' ∉ path) {fragment : List Char}
    (hfragment : ∀ c ∈ fragment.head?, c = '#') :
    canonicalPath (path ++ fragment) = canonicalPath path := by
  have htake := fragmentless_append hhash fragment hfragment
  have hself := fragmentless_append hhash [] (by simp)
  rw [List.append_nil] at hself
  unfold fragmentless at htake hself
  unfold canonicalPath
  rw [htake, hself]

/-- The end of a fragment is trimmed, and nothing before it. -/
theorem trimEnd_append_fragment {fragment : List Char}
    (hlast : fragment = [] → ∀ c ∈ path.getLast?, Str.isWhitespace c = false)
    (hfragment : ∀ c ∈ fragment.head?, c = '#') :
    ∃ fragment', trimEnd (path ++ fragment) = path ++ fragment' ∧
      ∀ c ∈ fragment'.head?, c = '#' := by
  cases fragment with
  | nil =>
      refine ⟨[], ?_, by simp⟩
      rw [List.append_nil, trimEnd_self (hlast rfl)]
  | cons c fragment =>
      obtain rfl : c = '#' := hfragment c rfl
      exact ⟨'#' :: trimEnd fragment, trimEnd_append_cons isWhitespace_hash path fragment, by simp⟩

/-- Behind a path the fragment is cut off. -/
theorem canonicalUrl_fragment (hend : ¬ schemeEnd <:+: scheme) (hslash : '/' ∉ host)
    (hhash : '#' ∉ path) (hlast : ∀ c ∈ ('/' :: path).getLast?, Str.isWhitespace c = false)
    {fragment : List Char} (hfragment : ∀ c ∈ fragment.head?, c = '#') :
    canonicalUrl t (scheme ++ schemeEnd ++ (host ++ '/' :: path) ++ fragment) =
      t.toLowercase (trimStart scheme) ++ schemeEnd ++ t.toLowercase host
        ++ canonicalPath ('/' :: path) := by
  have hmem : '#' ∉ '/' :: path := by simp [hhash]
  obtain ⟨fragment', htrim, hfragment'⟩ := trimEnd_append_fragment (fun _ => hlast) hfragment
  have hassoc : scheme ++ schemeEnd ++ (host ++ '/' :: path) ++ fragment
      = scheme ++ schemeEnd ++ (host ++ '/' :: (path ++ fragment)) := by simp
  rw [List.cons_append] at htrim
  rw [hassoc, canonicalUrl_path hend hslash, htrim, canonicalPath_append hmem hfragment']

/-- No `#` comes into a canonical form. -/
theorem hash_mem_of_canonicalUrl (h : '#' ∈ canonicalUrl t url) : '#' ∈ url := by
  have htrim : Str.trimMatches Str.isWhitespace url ⊆ url := fun c hc =>
    Str.mem_of_mem_trimMatches hc
  unfold canonicalUrl at h
  dsimp only at h
  split at h
  · exact htrim h
  · split at h
    · exact htrim ((CaseTable.mem_toLowercase_iff (by decide)).mp h)
    · next scheme rest hcut =>
        have heq := eq_of_cut hcut
        have hhost : ∀ c ∈ rest.takeWhile (· ≠ '/'), c ∈ rest :=
          fun c hc => (List.takeWhile_prefix _).subset hc
        apply htrim
        rw [heq]
        rcases List.mem_append.mp h with h | h
        · rcases List.mem_append.mp h with h | h
          · rcases List.mem_append.mp h with h | h
            · have := (CaseTable.mem_toLowercase_iff (by decide)).mp h
              simp [this]
            · exact absurd h (by decide)
          · have := (CaseTable.mem_toLowercase_iff (by decide)).mp h
            simp [hhost _ this]
        · exact absurd h (hash_notMem_canonicalPath _)

theorem mem_trimMatches {cs : List Char} {c : Char} (hc : Str.isWhitespace c = false) (h : c ∈ cs) :
    c ∈ Str.trimMatches Str.isWhitespace cs := by
  have hdrop : ∀ {l : List Char}, c ∈ l → c ∈ l.dropWhile Str.isWhitespace := by
    intro l hl
    rw [← List.takeWhile_append_dropWhile (p := Str.isWhitespace) (l := l)] at hl
    refine (List.mem_append.mp hl).resolve_left fun htake => ?_
    rw [List.mem_takeWhile_imp htake] at hc
    cases hc
  unfold Str.trimMatches Str.trimEndMatches List.rdropWhile
  rw [List.mem_reverse]
  exact hdrop (List.mem_reverse.mpr (hdrop h))

/-- Without a scheme the fragment stays. -/
theorem hash_mem_of_no_scheme (h : ¬ schemeEnd <:+: url) (hhash : '#' ∈ url) :
    '#' ∈ canonicalUrl t url := by
  have hmem := mem_trimMatches isWhitespace_hash hhash
  rcases @canonicalUrl_of_no_scheme t url h with ⟨habout, _⟩ | hlower
  · rw [habout] at hmem
    exact absurd hmem (by decide)
  · rw [hlower]
    exact (CaseTable.mem_toLowercase_iff (by decide)).mpr hmem

/-- Right behind the host it stays as well. -/
theorem hash_mem_of_host (hend : ¬ schemeEnd <:+: scheme) (hslash : '/' ∉ host) :
    '#' ∈ canonicalUrl t (scheme ++ schemeEnd ++ (host ++ ['#'])) := by
  have hno : '/' ∉ host ++ ['#'] := by simpa using hslash
  have htrim : trimEnd (host ++ ['#']) = host ++ ['#'] := trimEnd_self (by simp [isWhitespace_hash])
  rw [canonicalUrl_host hend hno, htrim]
  have hmem : '#' ∈ t.toLowercase (host ++ ['#']) :=
    (CaseTable.mem_toLowercase_iff (by decide)).mpr (by simp)
  simp [hmem]

/-- The URL with the empty fragment has another canonical form where no path is before
the fragment, or white space. -/
theorem pathBeforeFragment_of_empty (hhash : '#' ∉ url)
    (h : canonicalUrl t (url ++ ['#']) = canonicalUrl t url) :
    (∃ scheme host path, Parts url scheme host path ∧ path ≠ []) ∧
      ∀ c ∈ url.getLast?, Str.isWhitespace c = false := by
  have hno : '#' ∉ canonicalUrl t (url ++ ['#']) := by
    rw [h]
    exact fun hmem => hhash (hash_mem_of_canonicalUrl hmem)
  have hin : schemeEnd <:+: url := by
    by_contra hnone
    refine hno (hash_mem_of_no_scheme ?_ (by simp))
    rw [List.infix_concat_iff]
    rintro (⟨front, hfront⟩ | hin)
    · have := congrArg List.reverse hfront
      simp [schemeEnd] at this
    · exact hnone hin
  obtain ⟨scheme, host, path, hparts⟩ := exists_parts hin
  obtain ⟨rfl, hend, hslash, hfrom⟩ := hparts
  cases path with
  | nil =>
      rw [List.append_nil, List.append_assoc] at hno
      exact absurd (hash_mem_of_host hend hslash) hno
  | cons c path =>
      obtain rfl : c = '/' := hfrom c rfl
      refine ⟨⟨scheme, host, '/' :: path, ⟨rfl, hend, hslash, hfrom⟩, List.cons_ne_nil _ _⟩, ?_⟩
      have hlast : (scheme ++ schemeEnd ++ (host ++ '/' :: path)).getLast?
          = ('/' :: path).getLast? := by
        rw [List.getLast?_append_of_ne_nil _ (by simp), List.getLast?_append_of_ne_nil _ (by simp)]
      rw [hlast]
      have hmem : '#' ∉ '/' :: path :=
        fun hmem => hhash (List.mem_append_right _ (List.mem_append_right _ hmem))
      have hassoc : scheme ++ schemeEnd ++ (host ++ '/' :: path) ++ ['#']
          = scheme ++ schemeEnd ++ (host ++ '/' :: (path ++ ['#'])) := by simp
      have htrim : trimEnd ('/' :: (path ++ ['#'])) = '/' :: path ++ ['#'] := by
        show trimEnd ('/' :: path ++ ['#']) = _
        apply trimEnd_self
        rw [List.getLast?_concat]
        simp [isWhitespace_hash]
      rw [hassoc, canonicalUrl_path hend hslash, canonicalUrl_path hend hslash,
        List.append_right_inj, htrim, canonicalPath_append hmem (by simp)] at h
      by_contra hlastws
      -- white space at the end would stay in front of the fragment
      have hkeep : canonicalPath ('/' :: path) = '/' :: path := by
        rw [canonicalPath_eq_iff hmem]
        rintro ⟨_, hslashlast⟩
        refine hlastws fun c hc => ?_
        rw [hslashlast] at hc
        rw [← Option.some.inj hc]
        exact isWhitespace_slash
      have hlt := length_trimEnd_lt (mt trimEnd_eq_self_iff.mp hlastws)
      have hle := length_canonicalPath_le (trimEnd ('/' :: path))
      rw [← h, hkeep] at hle
      omega

/-- **The fragment does not matter** exactly behind a path. -/
theorem sameFragment_iff (t : CaseTable) (url : List Char) :
    (∀ other, SameButFragment url other → canonicalUrl t other = canonicalUrl t url) ↔
      PathBeforeFragment url := by
  obtain ⟨fragment, hurl, hfragment⟩ := exists_fragment url
  have hhash := hash_notMem_fragmentless url
  constructor
  · intro h
    have hbare : canonicalUrl t (fragmentless url) = canonicalUrl t url := by
      refine h _ ?_
      have hself := fragmentless_append hhash [] (by simp)
      rw [List.append_nil] at hself
      exact hself.symm
    have hempty : canonicalUrl t (fragmentless url ++ ['#']) = canonicalUrl t url :=
      h _ (fragmentless_append hhash ['#'] (by simp)).symm
    exact pathBeforeFragment_of_empty hhash (hempty.trans hbare.symm)
  · rintro ⟨⟨scheme, host, path, ⟨htext, hend, hslash, hfrom⟩, hne⟩, hlast⟩ other hsame
    obtain ⟨fragment', hother, hfragment'⟩ := exists_fragment other
    cases path with
    | nil => exact absurd rfl hne
    | cons c path =>
        obtain rfl : c = '/' := hfrom c rfl
        rw [htext] at hhash
        have hmem : '#' ∉ path := fun hmem => hhash (by simp [hmem])
        rw [htext, List.getLast?_append_of_ne_nil _ (by simp),
          List.getLast?_append_of_ne_nil _ (by simp)] at hlast
        rw [hother, hurl, ← hsame, htext, canonicalUrl_fragment hend hslash hmem hlast hfragment',
          canonicalUrl_fragment hend hslash hmem hlast hfragment]

/-! ## §2. URLs that differ only in the slashes at the end of the path. -/

/-- A URL with no slash at the end of its path; the rest begins with `?` or `#`. -/
structure BareParts (scheme host path tail : List Char) : Prop where
  noEnd     : ¬ schemeEnd <:+: scheme
  noSlash   : '/' ∉ host
  plain     : ∀ c ∈ scheme ++ (host ++ path), c ≠ '?' ∧ c ≠ '#'
  fromSlash : ∀ c ∈ path.head?, c = '/'
  bare      : ∀ c ∈ path.getLast?, c ≠ '/'
  rest      : ∀ c ∈ tail.head?, c = '?' ∨ c = '#'

/-- The URL with so many slashes at the end of its path. -/
def slashed (scheme host path tail : List Char) (n : Nat) : List Char :=
  scheme ++ schemeEnd ++ (host ++ (path ++ List.replicate n '/' ++ tail))

/-- How many slashes can be at the end. -/
def folds (path : List Char) : Nat := if path = [] then 2 else 1

/-- So many slashes make no difference: no query is behind them, there are only a few,
and where there may be none, the path ends without them, and not in white space. -/
def SlashesFold (host path tail : List Char) (n m : Nat) : Prop :=
  n = m ∨ tail.head? ≠ some '?' ∧ n ≤ folds path ∧ m ≤ folds path ∧
    (n = 0 ∨ m = 0 →
      if tail = [] then ∀ c ∈ (host ++ path).getLast?, Str.isWhitespace c = false else path ≠ [])

theorem slashFirst (hparts : BareParts scheme host path tail) {n : Nat} (h : path ≠ [] ∨ 0 < n) :
    ∃ rest, path ++ List.replicate n '/' = '/' :: rest := by
  cases path with
  | nil =>
      obtain ⟨k, rfl⟩ := Nat.exists_eq_succ_of_ne_zero (Nat.ne_of_gt (h.resolve_left (by simp)))
      exact ⟨_, List.replicate_succ⟩
  | cons c path =>
      obtain rfl : c = '/' := hparts.fromSlash c rfl
      exact ⟨_, rfl⟩

/-- With a path or a slash the host ends there. -/
theorem canonicalUrl_slashed (hparts : BareParts scheme host path tail) {n : Nat}
    (h : path ≠ [] ∨ 0 < n) :
    canonicalUrl t (slashed scheme host path tail n) =
      t.toLowercase (trimStart scheme) ++ schemeEnd ++ t.toLowercase host
        ++ canonicalPath (trimEnd (path ++ List.replicate n '/' ++ tail)) := by
  obtain ⟨rest, hrest⟩ := slashFirst hparts h
  unfold slashed
  rw [hrest, List.cons_append, canonicalUrl_path hparts.noEnd hparts.noSlash]

theorem hash_notMem_slashes (hparts : BareParts scheme host path tail) (n : Nat) :
    '#' ∉ path ++ List.replicate n '/' := by
  intro hmem
  rcases List.mem_append.mp hmem with hpath | hslash
  · exact (hparts.plain '#' (by simp [hpath])).2 rfl
  · exact absurd (List.eq_of_mem_replicate hslash) (by decide)

/-- How many slashes are kept. -/
def kept (path : List Char) (n : Nat) : Nat := if path = [] then max 1 (n - 1) else n - 1

theorem canonicalPath_slashes (hparts : BareParts scheme host path tail) {n : Nat}
    (h : path ≠ [] ∨ 0 < n) :
    canonicalPath (path ++ List.replicate n '/') = path ++ List.replicate (kept path n) '/' := by
  have hself := fragmentless_append (hash_notMem_slashes hparts n) [] (by simp)
  rw [List.append_nil] at hself
  unfold fragmentless at hself
  unfold canonicalPath
  rw [hself]
  dsimp only
  cases n with
  | zero =>
      have hpath : path ≠ [] := h.resolve_right (Nat.lt_irrefl 0)
      have hkept : kept path 0 = 0 := by simp [kept, hpath]
      rw [hkept, List.replicate_zero, List.append_nil, if_neg]
      rintro ⟨_, hlast⟩
      exact hparts.bare '/' hlast rfl
  | succ n =>
      have hsucc : path ++ List.replicate (n + 1) '/' = path ++ List.replicate n '/' ++ ['/'] := by
        rw [List.replicate_succ', List.append_assoc]
      rw [hsucc, List.getLast?_concat, List.dropLast_concat]
      split
      · next hlong =>
          have hkept : kept path (n + 1) = n := by
            unfold kept
            split
            · next hnil =>
                subst hnil
                simp at hlong
                omega
            · omega
          rw [hkept]
      · next hshort =>
          have hempty : path = [] ∧ n = 0 := by
            simp only [and_true, List.length_append, List.length_replicate, List.length_singleton,
              Nat.not_lt] at hshort
            exact ⟨List.length_eq_zero_iff.mp (by omega), by omega⟩
          rw [hempty.1, hempty.2]
          rfl

theorem kept_eq_iff {n m : Nat} (h : path ≠ [] ∨ 0 < n) (hlt : n < m) :
    kept path n = kept path m ↔ m ≤ folds path := by
  unfold kept folds
  split
  · next hnil =>
      have hpos := h.resolve_left (not_not.mpr hnil)
      omega
  · omega

theorem isWhitespace_question : Str.isWhitespace '?' = false := by decide

/-- With a query behind it no slash is cut off. -/
theorem canonicalPath_query {front : List Char} (hne : front ≠ []) (hhash : '#' ∉ front)
    (query : List Char) :
    canonicalPath (trimEnd (front ++ '?' :: query)) =
      front ++ if ('?' :: (trimEnd query).takeWhile (· ≠ '#')).getLast? = some '/' then
        ('?' :: (trimEnd query).takeWhile (· ≠ '#')).dropLast
      else '?' :: (trimEnd query).takeWhile (· ≠ '#') := by
  have hall : ∀ x ∈ front, decide (x ≠ '#') = true :=
    fun x hx => decide_eq_true (ne_of_mem_of_not_mem hx hhash)
  have htrim := trimEnd_append_cons isWhitespace_question front query
  have htake : (front ++ '?' :: trimEnd query).takeWhile (· ≠ '#')
      = front ++ '?' :: (trimEnd query).takeWhile (· ≠ '#') := by
    rw [List.takeWhile_append_of_pos hall, List.takeWhile_cons_of_pos (by decide)]
  have hlong : 1 < (front ++ '?' :: (trimEnd query).takeWhile (· ≠ '#')).length := by
    have hpos := List.length_pos_of_ne_nil hne
    rw [List.length_append, List.length_cons]
    omega
  unfold canonicalPath
  rw [htrim, htake]
  dsimp only
  rw [List.getLast?_append_of_ne_nil _ (List.cons_ne_nil _ _),
    List.dropLast_append_of_ne_nil (List.cons_ne_nil _ _)]
  simp only [hlong, true_and]
  split
  · rfl
  · rfl

/-- No white space is at the end of a path that ends in slashes. -/
theorem slashes_last (path : List Char) {n : Nat} (h : 0 < n) :
    ∀ c ∈ (path ++ List.replicate n '/').getLast?, Str.isWhitespace c = false := by
  obtain ⟨k, rfl⟩ := Nat.exists_eq_succ_of_ne_zero (Nat.ne_of_gt h)
  intro c hc
  rw [List.replicate_succ', ← List.append_assoc, List.getLast?_concat] at hc
  rw [← Option.some.inj hc]
  exact isWhitespace_slash

/-- Up to the fragment, where no white space is trimmed. -/
theorem canonicalPath_folded (hparts : BareParts scheme host path tail) {n : Nat}
    (h : path ≠ [] ∨ 0 < n) (hfragment : ∀ c ∈ tail.head?, c = '#')
    (hlast : tail = [] → ∀ c ∈ (path ++ List.replicate n '/').getLast?, Str.isWhitespace c = false) :
    canonicalPath (trimEnd (path ++ List.replicate n '/' ++ tail))
      = path ++ List.replicate (kept path n) '/' := by
  obtain ⟨tail', htrim, htail'⟩ := trimEnd_append_fragment hlast hfragment
  rw [htrim, canonicalPath_append (hash_notMem_slashes hparts n) htail',
    canonicalPath_slashes hparts h]

/-! ## §3. A query behind the path. -/

theorem slashed_query_ne (hparts : BareParts scheme host path ('?' :: tail)) {n m : Nat}
    (hn : path ≠ [] ∨ 0 < n) (hlt : n < m) :
    canonicalUrl t (slashed scheme host path ('?' :: tail) n)
      ≠ canonicalUrl t (slashed scheme host path ('?' :: tail) m) := by
  have hm : path ≠ [] ∨ 0 < m := .inr (by omega)
  have hne : ∀ {k : Nat}, path ≠ [] ∨ 0 < k → path ++ List.replicate k '/' ≠ [] := by
    intro k hk heq
    obtain ⟨rest, hrest⟩ := slashFirst hparts hk
    rw [heq] at hrest
    cases hrest
  intro heq
  rw [canonicalUrl_slashed hparts hn, canonicalUrl_slashed hparts hm, List.append_right_inj,
    canonicalPath_query (hne hn) (hash_notMem_slashes hparts n),
    canonicalPath_query (hne hm) (hash_notMem_slashes hparts m), List.append_left_inj,
    List.append_right_inj] at heq
  have hlen := congrArg List.length heq
  rw [List.length_replicate, List.length_replicate] at hlen
  omega

/-- Without a path and without a slash the query belongs to the host. -/
theorem host_query_ne (hend : ¬ schemeEnd <:+: scheme) (hslash : '/' ∉ host)
    (hquestion : '?' ∉ host) (query path : List Char) :
    canonicalUrl t (scheme ++ schemeEnd ++ (host ++ '?' :: query))
      ≠ t.toLowercase (trimStart scheme) ++ schemeEnd ++ t.toLowercase host
        ++ canonicalPath ('/' :: path) := by
  have hrest : ∀ cs : List Char, ∃ rest,
      canonicalPath (if '/' ∈ cs then cs.dropWhile (· ≠ '/') else ['/']) = '/' :: rest := by
    intro cs
    split
    · next hmem =>
        have hcut := List.takeWhile_append_dropWhile (p := fun x => decide (x ≠ '/')) (l := cs)
        cases hdrop : cs.dropWhile (· ≠ '/') with
        | nil =>
            rw [List.dropWhile_eq_nil_iff] at hdrop
            simpa using hdrop '/' hmem
        | cons c rest =>
            have hhead := List.head?_dropWhile_not (fun x => decide (x ≠ '/')) cs
            rw [hdrop] at hhead
            obtain rfl : c = '/' := by simpa using hhead
            exact canonicalPath_slash rest
    · exact canonicalPath_slash []
  have htrim := trimEnd_append_cons isWhitespace_question host query
  obtain ⟨rest, hrest⟩ := hrest (trimEnd (host ++ '?' :: query))
  obtain ⟨rest', hrest'⟩ := canonicalPath_slash path
  intro heq
  rw [canonicalUrl_url hend, hrest, hrest', List.append_assoc, List.append_assoc,
    List.append_assoc, List.append_assoc, List.append_right_inj, List.append_right_inj] at heq
  -- up to the first slash there is a question mark on the left only
  have hno : '/' ∉ t.toLowercase ((trimEnd (host ++ '?' :: query)).takeWhile (· ≠ '/')) := by
    apply slash_notMem_toLowercase
    intro hmem
    simpa using List.mem_takeWhile_imp hmem
  have hhosts := congrArg (List.takeWhile (· ≠ '/')) heq
  rw [(takeWhile_host hno rest).1, (takeWhile_host (slash_notMem_toLowercase hslash) rest').1]
    at hhosts
  have hall : ∀ x ∈ host, decide (x ≠ '/') = true :=
    fun x hx => decide_eq_true (ne_of_mem_of_not_mem hx hslash)
  rw [htrim, List.takeWhile_append_of_pos hall, List.takeWhile_cons_of_pos (by decide)] at hhosts
  have hmem : '?' ∈ t.toLowercase host := by
    rw [← hhosts]
    exact (CaseTable.mem_toLowercase_iff (by decide)).mpr (by simp)
  exact hquestion ((CaseTable.mem_toLowercase_iff (by decide)).mp hmem)

/-! ## §4. No query behind the path. -/

section NoQuery

variable {n m : Nat}

/-- Both URLs have a path. -/
theorem slashed_eq_iff_of_path (hparts : BareParts scheme host path tail)
    (hfragment : ∀ c ∈ tail.head?, c = '#') (hn : path ≠ [] ∨ 0 < n) (hlt : n < m) :
    canonicalUrl t (slashed scheme host path tail n)
        = canonicalUrl t (slashed scheme host path tail m) ↔
      m ≤ folds path ∧ (n = 0 → tail = [] → ∀ c ∈ path.getLast?, Str.isWhitespace c = false) := by
  have hm : path ≠ [] ∨ 0 < m := .inr (by omega)
  rw [canonicalUrl_slashed hparts hn, canonicalUrl_slashed hparts hm, List.append_right_inj,
    canonicalPath_folded hparts hm hfragment fun _ => slashes_last path (by omega)]
  by_cases hlast : n = 0 → tail = [] → ∀ c ∈ path.getLast?, Str.isWhitespace c = false
  · have hnlast : tail = [] →
        ∀ c ∈ (path ++ List.replicate n '/').getLast?, Str.isWhitespace c = false := by
      intro htail c hc
      by_cases hzero : n = 0
      · rw [hzero, List.replicate_zero, List.append_nil] at hc
        exact hlast hzero htail c hc
      · exact slashes_last path (Nat.pos_of_ne_zero hzero) c hc
    rw [canonicalPath_folded hparts hn hfragment hnlast, List.append_right_inj,
      ← kept_eq_iff hn hlt]
    constructor
    · intro h
      exact ⟨by simpa using congrArg List.length h, hlast⟩
    · intro h
      rw [h.1]
  · refine iff_of_false ?_ fun h => hlast h.2
    push Not at hlast
    obtain ⟨rfl, rfl, c, hc, hwhite⟩ := hlast
    -- the white space is trimmed on the left only
    intro heq
    have hshort : (trimEnd path).length < path.length := by
      apply length_trimEnd_lt
      rw [ne_eq, trimEnd_eq_self_iff]
      exact fun h => hwhite (h c hc)
    have hle := length_canonicalPath_le (trimEnd path)
    simp only [List.replicate_zero, List.append_nil] at heq
    rw [heq, List.length_append] at hle
    omega

/-- On the left the URL ends with its host. -/
theorem host_eq_iff (hparts : BareParts scheme host [] []) (hlt : 0 < m) :
    canonicalUrl t (slashed scheme host [] [] 0) = canonicalUrl t (slashed scheme host [] [] m) ↔
      m ≤ 2 ∧ ∀ c ∈ host.getLast?, Str.isWhitespace c = false := by
  have hleft : slashed scheme host [] [] 0 = scheme ++ schemeEnd ++ host := by simp [slashed]
  rw [canonicalUrl_slashed hparts (.inr hlt), hleft,
    canonicalUrl_host hparts.noEnd hparts.noSlash,
    canonicalPath_folded hparts (.inr hlt) (by simp) fun _ => slashes_last [] hlt,
    List.nil_append]
  by_cases hlast : ∀ c ∈ host.getLast?, Str.isWhitespace c = false
  · rw [trimEnd_self hlast, List.append_right_inj]
    have hkept : kept [] m = max 1 (m - 1) := rfl
    rw [hkept]
    constructor
    · intro h
      have hlen := congrArg List.length h
      rw [List.length_replicate, List.length_singleton] at hlen
      exact ⟨by omega, hlast⟩
    · intro h
      have hone : max 1 (m - 1) = 1 := by omega
      rw [hone]
      rfl
  · refine iff_of_false ?_ fun h => hlast h.2
    intro heq
    have hshort : (trimEnd host).length < host.length :=
      length_trimEnd_lt (mt trimEnd_eq_self_iff.mp hlast)
    obtain ⟨white, hwhite⟩ := trimEnd_isPrefix host
    have hne : white ≠ [] := by
      rintro rfl
      rw [List.append_nil] at hwhite
      rw [hwhite] at hshort
      omega
    have hlower := @CaseTable.length_lowerFrom_lt t [] [] (trimEnd host) white hne
    rw [hwhite] at hlower
    have hlen := congrArg List.length heq
    simp only [List.length_append, List.length_replicate, List.length_singleton] at hlen
    have hkept : 1 ≤ kept [] m := Nat.le_max_left 1 (m - 1)
    unfold CaseTable.toLowercase at hlen
    omega

/-- On the left the fragment belongs to the host. -/
theorem host_fragment_ne (hparts : BareParts scheme host [] ('#' :: tail)) (hlt : 0 < m) :
    canonicalUrl t (slashed scheme host [] ('#' :: tail) 0)
      ≠ canonicalUrl t (slashed scheme host [] ('#' :: tail) m) := by
  have hhash : ∀ c ∈ scheme ++ (host ++ []), c ≠ '#' := fun c hc => (hparts.plain c hc).2
  intro heq
  have hleft : '#' ∈ canonicalUrl t (slashed scheme host [] ('#' :: tail) 0) := by
    have hall : ∀ x ∈ host, decide (x ≠ '/') = true :=
      fun x hx => decide_eq_true (ne_of_mem_of_not_mem hx hparts.noSlash)
    have htrim := trimEnd_append_cons isWhitespace_hash host tail
    have htext : slashed scheme host [] ('#' :: tail) 0
        = scheme ++ schemeEnd ++ (host ++ '#' :: tail) := by simp [slashed]
    have hmem : '#' ∈ t.toLowercase ((trimEnd (host ++ '#' :: tail)).takeWhile (· ≠ '/')) := by
      rw [htrim, List.takeWhile_append_of_pos hall, List.takeWhile_cons_of_pos (by decide)]
      exact (CaseTable.mem_toLowercase_iff (by decide)).mpr (by simp)
    rw [htext, canonicalUrl_url hparts.noEnd]
    exact List.mem_append_left _ (List.mem_append_right _ hmem)
  rw [heq, canonicalUrl_slashed hparts (.inr hlt)] at hleft
  rcases List.mem_append.mp hleft with hleft | hpath
  · rcases List.mem_append.mp hleft with hleft | hhost
    · rcases List.mem_append.mp hleft with hscheme | hend
      · have hmem := (CaseTable.mem_toLowercase_iff (by decide)).mp hscheme
        exact hhash '#' (List.mem_append_left _ ((List.dropWhile_suffix _).subset hmem)) rfl
      · exact absurd hend (by decide)
    · have hmem := (CaseTable.mem_toLowercase_iff (by decide)).mp hhost
      exact hhash '#' (by simp [hmem]) rfl
  · exact hash_notMem_canonicalPath _ hpath

end NoQuery

/-! ## §5. The normal form. -/

/-- The fewer slashes on the left. -/
theorem slashed_eq_iff_of_lt (hparts : BareParts scheme host path tail) {n m : Nat} (hlt : n < m) :
    canonicalUrl t (slashed scheme host path tail n)
        = canonicalUrl t (slashed scheme host path tail m) ↔
      SlashesFold host path tail n m := by
  have hfold : SlashesFold host path tail n m ↔ tail.head? ≠ some '?' ∧ m ≤ folds path ∧
      (n = 0 → if tail = [] then ∀ c ∈ (host ++ path).getLast?, Str.isWhitespace c = false
        else path ≠ []) := by
    have hne : n ≠ m := by omega
    have hm : m ≠ 0 := by omega
    unfold SlashesFold
    simp only [hne, hm, false_or, or_false]
    constructor
    · intro h
      exact ⟨h.1, h.2.2⟩
    · intro h
      exact ⟨h.1, by omega, h.2⟩
  rw [hfold]
  by_cases hquestion : tail.head? = some '?'
  · obtain ⟨query, rfl⟩ := List.head?_eq_some_iff.mp hquestion
    refine iff_of_false ?_ fun h => h.1 hquestion
    by_cases hn : path ≠ [] ∨ 0 < n
    · exact slashed_query_ne hparts hn hlt
    · push Not at hn
      obtain ⟨rfl, hzero⟩ := hn
      obtain rfl : n = 0 := by omega
      obtain ⟨rest, hrest⟩ := slashFirst hparts (n := m) (.inr (by omega))
      have hno : '?' ∉ host := fun hmem => (hparts.plain '?' (by simp [hmem])).1 rfl
      rw [canonicalUrl_slashed hparts (n := m) (.inr (by omega)), hrest, List.cons_append,
        trimEnd_cons isWhitespace_slash]
      have htext : slashed scheme host [] ('?' :: query) 0
          = scheme ++ schemeEnd ++ (host ++ '?' :: query) := by simp [slashed]
      rw [htext]
      exact host_query_ne hparts.noEnd hparts.noSlash hno query _
  · have hfragment : ∀ c ∈ tail.head?, c = '#' := by
      intro c hc
      refine (hparts.rest c hc).resolve_left ?_
      rintro rfl
      exact hquestion hc
    by_cases hn : path ≠ [] ∨ 0 < n
    · rw [slashed_eq_iff_of_path hparts hfragment hn hlt]
      have hboth : ∀ hzero : n = 0, (host ++ path).getLast? = path.getLast? := by
        intro hzero
        have hpath : path ≠ [] := hn.resolve_right (by omega)
        exact List.getLast?_append_of_ne_nil _ hpath
      constructor
      · intro h
        refine ⟨hquestion, h.1, fun hzero => ?_⟩
        split
        · next htail =>
            rw [hboth hzero]
            exact h.2 hzero htail
        · exact hn.resolve_right (by omega)
      · intro h
        refine ⟨h.2.1, fun hzero htail => ?_⟩
        have hlast := h.2.2 hzero
        rw [if_pos htail, hboth hzero] at hlast
        exact hlast
    · push Not at hn
      obtain ⟨rfl, hzero⟩ := hn
      obtain rfl : n = 0 := by omega
      cases tail with
      | nil =>
          rw [host_eq_iff hparts hlt]
          simp [folds]
      | cons c tail =>
          obtain rfl : c = '#' := hfragment c rfl
          exact iff_of_false (host_fragment_ne hparts hlt) (by simp)

theorem slashesFold_comm {n m : Nat} :
    SlashesFold host path tail n m ↔ SlashesFold host path tail m n := by
  unfold SlashesFold
  rw [eq_comm, or_comm (a := n = 0), and_left_comm (a := n ≤ _)]

/-- **So many slashes do not matter.** -/
theorem sameSlashes_iff (hparts : BareParts scheme host path tail) (n m : Nat) :
    canonicalUrl t (slashed scheme host path tail n)
        = canonicalUrl t (slashed scheme host path tail m) ↔
      SlashesFold host path tail n m := by
  rcases Nat.lt_trichotomy n m with hlt | rfl | hgt
  · exact slashed_eq_iff_of_lt hparts hlt
  · exact iff_of_true rfl (.inl rfl)
  · rw [eq_comm, slashed_eq_iff_of_lt hparts hgt, slashesFold_comm]

end Jmux.Browser
