/-
  Jmux.Browser.History — the entries of the browser history
  (`browser_history.rs`).

  An entry lies under the canonical form of its URL.  The frecency, which is a
  floating-point number, is not modelled.

  Main results:
    * `history_keyed`           — every entry of every history is under its own key.
    * `canonicalUrl_normal_iff` — where the canonical form is a normal form, and two
                                visited URLs of one page share an entry.
-/
import Jmux.Browser.SamePage
import Jmux.Lib.FiniteMap

namespace Jmux.Browser

open Jmux.Lib

/-! ## §1. Visits and restarts. -/

structure HistoryEntry where
  url         : List Char
  title       : List Char
  visitCount  : Nat
  lastVisited : Nat
  deriving DecidableEq, Repr

/-- `HashMap<String, HistoryEntry>` -/
abbrev Entries := AList fun _ : List Char => HistoryEntry

structure Visit where
  url   : List Char
  title : List Char := []
  now   : Nat := 0

def maxEntries : Nat := 50000

/-- The visited URL takes the place of another one with the key. -/
def withVisitedUrl (t : CaseTable) (v : Visit) (canonical : List Char) (entry : HistoryEntry) :
    HistoryEntry :=
  if entry.url ≠ v.url ∧ canonicalUrl t v.url = canonical then { entry with url := v.url }
  else entry

/-- The entry that a visit leaves under its key; the count is a `u32`. -/
def visitedEntry (t : CaseTable) (v : Visit) (canonical : List Char) (entries : Entries) :
    HistoryEntry :=
  let entry := (entries.lookup canonical).getD
    { url := v.url, title := [], visitCount := 0, lastVisited := v.now }
  let entry := { entry with visitCount := (entry.visitCount + 1) % 2 ^ 32, lastVisited := v.now }
  let entry := if v.title ≠ [] then { entry with title := v.title } else entry
  withVisitedUrl t v canonical entry

/-- `record_visit` -/
def recordVisit (t : CaseTable) (v : Visit) (entries : Entries) : Entries :=
  let canonical := canonicalUrl t v.url
  if canonical = [] ∨ canonical = aboutBlank then entries
  else entries.insert canonical (visitedEntry t v canonical entries)

/-- `load_from_disk`: of two entries with one key the last one counts. -/
def loadFromDisk (t : CaseTable) (saved : List HistoryEntry) : Entries :=
  (saved.take maxEntries).foldl (fun entries e => entries.insert (canonicalUrl t e.url) e) ∅

inductive HistoryStep
  | visit (v : Visit)
  /-- The file may have been edited. -/
  | restart (saved : List HistoryEntry)

def HistoryStep.apply (t : CaseTable) (entries : Entries) : HistoryStep → Entries
  | visit v => recordVisit t v entries
  | restart saved => loadFromDisk t saved

/-- The history after some visits and restarts. -/
def history (t : CaseTable) (steps : List HistoryStep) : Entries :=
  steps.foldl (HistoryStep.apply t) ∅

/-! ## §2. Every entry is under its own key. -/

def KeyedByUrl (t : CaseTable) (entries : Entries) : Prop :=
  ∀ key e, entries.lookup key = some e → canonicalUrl t e.url = key

variable {t : CaseTable} {entries : Entries}

theorem KeyedByUrl.insert (h : KeyedByUrl t entries) (e : HistoryEntry) :
    KeyedByUrl t (entries.insert (canonicalUrl t e.url) e) := by
  intro key e' hl
  rw [AList.lookup_insert_eq_ite] at hl
  split at hl
  · next hkey => rw [hkey, Option.some.inj hl]
  · exact h key e' hl

theorem keyedByUrl_empty : KeyedByUrl t ∅ := by
  intro key e hl
  rw [AList.lookup_empty] at hl
  cases hl

/-- The entry has the URL that was visited last. -/
theorem withVisitedUrl_url (v : Visit) (entry : HistoryEntry) :
    (withVisitedUrl t v (canonicalUrl t v.url) entry).url = v.url := by
  unfold withVisitedUrl
  split
  · rfl
  · next hsame =>
      by_contra hne
      exact hsame ⟨hne, rfl⟩

theorem visitedEntry_url (v : Visit) (entries : Entries) :
    (visitedEntry t v (canonicalUrl t v.url) entries).url = v.url := withVisitedUrl_url v _

theorem recordVisit_keyed (h : KeyedByUrl t entries) (v : Visit) :
    KeyedByUrl t (recordVisit t v entries) := by
  unfold recordVisit
  dsimp only
  split
  · exact h
  · have hinsert := h.insert (visitedEntry t v (canonicalUrl t v.url) entries)
    rwa [visitedEntry_url] at hinsert

theorem loadFromDisk_keyed (saved : List HistoryEntry) : KeyedByUrl t (loadFromDisk t saved) := by
  unfold loadFromDisk
  generalize saved.take maxEntries = loaded
  -- over the entries that are loaded, the invariant the map so far
  suffices h : ∀ entries, KeyedByUrl t entries →
      KeyedByUrl t (loaded.foldl (fun entries e => entries.insert (canonicalUrl t e.url) e) entries)
    from h ∅ keyedByUrl_empty
  induction loaded with
  | nil => exact fun _ h => h
  | cons e loaded ih => exact fun _ h => ih _ (h.insert e)

theorem apply_keyed (h : KeyedByUrl t entries) (step : HistoryStep) :
    KeyedByUrl t (step.apply t entries) := by
  cases step with
  | visit v => exact recordVisit_keyed h v
  | restart saved => exact loadFromDisk_keyed saved

/-- **Every entry is under its own key**, after any visits and restarts. -/
theorem history_keyed (t : CaseTable) (steps : List HistoryStep) :
    KeyedByUrl t (history t steps) := by
  unfold history
  suffices h : ∀ entries, KeyedByUrl t entries →
      KeyedByUrl t (steps.foldl (HistoryStep.apply t) entries) from h ∅ keyedByUrl_empty
  induction steps with
  | nil => exact fun _ h => h
  | cons step steps ih => exact fun _ h => ih _ (apply_keyed h step)

/-! ## §3. One entry for one page. -/

/-- URLs that differ only in the fragment, or only in the slashes at the end of the path. -/
inductive SamePage : List Char → List Char → Prop
  | fragment {url other : List Char} (h : SameButFragment url other) : SamePage url other
  | slashes {scheme host path tail : List Char} (h : BareParts scheme host path tail) (n m : Nat) :
      SamePage (slashed scheme host path tail n) (slashed scheme host path tail m)

/-- The canonical form is a normal form, and the history has one entry for a page. -/
def NormalForm (t : CaseTable) : Prop :=
  (∀ url, canonicalUrl t (canonicalUrl t url) = canonicalUrl t url) ∧
    (∀ url other, SamePage url other → canonicalUrl t url = canonicalUrl t other) ∧
      ∀ steps key key' e e', (history t steps).lookup key = some e →
        (history t steps).lookup key' = some e' → SamePage e.url e'.url → key = key'

/-- **Where it is one**: the canonical form is its own canonical form exactly if the
path ends well; no fragment matters exactly if a path stands before it; and so many
slashes at the end of the path do not matter exactly if they fold.  Two entries of a
history are one exactly if their URLs have one canonical form. -/
theorem canonicalUrl_normal_iff (t : CaseTable) (url : List Char) :
    (canonicalUrl t (canonicalUrl t url) = canonicalUrl t url ↔ Settled url) ∧
    ((∀ other, SameButFragment url other → canonicalUrl t other = canonicalUrl t url) ↔
      PathBeforeFragment url) ∧
    (∀ scheme host path tail, BareParts scheme host path tail → ∀ n m,
      (canonicalUrl t (slashed scheme host path tail n)
          = canonicalUrl t (slashed scheme host path tail m) ↔
        SlashesFold host path tail n m)) ∧
    ∀ steps key key' e e', (history t steps).lookup key = some e →
      (history t steps).lookup key' = some e' →
      (key = key' ↔ canonicalUrl t e.url = canonicalUrl t e'.url) := by
  refine ⟨idem_iff t url, sameFragment_iff t url, ?_, ?_⟩
  · intro scheme host path tail hparts n m
    exact sameSlashes_iff hparts n m
  · intro steps key key' e e' he he'
    rw [history_keyed t steps key e he, history_keyed t steps key' e' he']

/-! ## §4. Where it is none. -/

theorem toAsciiLowercase_small :
    ∀ n < 128, (Str.toAsciiLowercase (Char.ofNat n)).toNat < 128 ∧
      Str.toAsciiLowercase (Str.toAsciiLowercase (Char.ofNat n))
        = Str.toAsciiLowercase (Char.ofNat n) ∧
      (Str.toAsciiLowercase (Char.ofNat n) = Char.ofNat n ∨
        isMark (Str.toAsciiLowercase (Char.ofNat n)) = false ∧
          Str.isWhitespace (Str.toAsciiLowercase (Char.ofNat n)) = false) := by
  decide

/-- The mapping of the ASCII letters and of the sigmas. -/
def asciiLower (c : Char) : List Char :=
  if c.toNat < 128 then [Str.toAsciiLowercase c] else if c = 'Σ' then ['σ'] else [c]

theorem asciiLower_mem {c d : Char} (h : d ∈ asciiLower c) :
    asciiLower d = [d] ∧ (d = c ∨ isMark d = false ∧ Str.isWhitespace d = false) := by
  unfold asciiLower at h
  split at h
  · next hc =>
      have hsmall := toAsciiLowercase_small c.toNat hc
      rw [Char.ofNat_toNat] at hsmall
      rw [List.mem_singleton.mp h]
      refine ⟨?_, hsmall.2.2⟩
      unfold asciiLower
      rw [if_pos hsmall.1, hsmall.2.1]
  · next hc =>
      split at h
      · rw [List.mem_singleton.mp h]
        exact ⟨by decide, .inr (by decide)⟩
      · next hsigma =>
          rw [List.mem_singleton.mp h]
          refine ⟨?_, .inl rfl⟩
          unfold asciiLower
          rw [if_neg hc, if_neg hsigma]

/-- A table for texts in which nothing else has a case. -/
def asciiCase : CaseTable where
  lower := asciiLower
  cased c := decide ('a' ≤ c ∧ c ≤ 'z') || decide ('A' ≤ c ∧ c ≤ 'Z')
  caseIgnorable c := decide (c = '.')
  ascii _ hc := if_pos hc
  sigma := by decide
  finalSigma := by decide
  nonempty c := by
    unfold asciiLower
    split
    · exact List.cons_ne_nil _ _
    · split
      · exact List.cons_ne_nil _ _
      · exact List.cons_ne_nil _ _
  stable _ _ h := (asciiLower_mem h).1
  letter _ _ h := (asciiLower_mem h).2

/-- Two places of one page, without a path. -/
def twoPlaces : List HistoryStep :=
  [.visit { url := "https://example.com#a".toList }, .visit { url := "https://example.com#b".toList }]

/-- The history keeps two entries for them, and a second slash is cut off by the
second time only. -/
theorem not_normalForm :
    (history asciiCase twoPlaces).keys.length = 2 ∧
      canonicalUrl asciiCase "https://example.com/a//".toList = "https://example.com/a/".toList ∧
      canonicalUrl asciiCase "https://example.com/a/".toList = "https://example.com/a".toList ∧
      ¬ NormalForm asciiCase := by
  refine ⟨by decide, by decide, by decide, ?_⟩
  intro h
  have hpage : SamePage "https://example.com#a".toList "https://example.com#b".toList :=
    .fragment (by unfold SameButFragment; decide)
  have hsame := h.2.1 _ _ hpage
  revert hsame
  decide

/-- A page with a path, with and without a slash behind it. -/
theorem canonicalUrl_normal_iff_example :
    canonicalUrl asciiCase (slashed "https".toList "example.com".toList "/a".toList [] 0)
      = canonicalUrl asciiCase (slashed "https".toList "example.com".toList "/a".toList [] 1) := by
  have hparts : BareParts "https".toList "example.com".toList "/a".toList [] :=
    { noEnd := by decide, noSlash := by decide, plain := by simp, fromSlash := by simp,
      bare := by simp, rest := by simp }
  refine ((canonicalUrl_normal_iff asciiCase []).2.2.1 _ _ _ _ hparts 0 1).mpr (.inr ?_)
  exact ⟨by decide, by decide, by decide, fun _ => by simp [Str.isWhitespace]⟩

end Jmux.Browser
