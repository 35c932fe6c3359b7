/-
  Jmux.Goal.IterationFile — the iteration reports an agent leaves behind.

  `iteration-<n>.md` in a run's output directory is the source of truth about
  iteration `n`.  The directory listing and the file text are inputs; what the
  program makes of them is below.

  Main results:
    * `nextIterationNumber_fresh_iff` — the directories in which the next number is new.
-/
import Jmux.Lib.Str

namespace Jmux.Goal

open Jmux.Lib

/-! ## §1. The next iteration number. -/

/-- The number in a file name `iteration-<n>.md`. -/
def iterationOfFileName (name : String) : Option Nat :=
  (Str.stripPrefix "iteration-".toList name.toList).bind fun rest =>
    (Str.stripSuffix ".md".toList rest).bind Str.parseU32

/-- One past the highest existing `iteration-<n>.md`.  `none` is the overflow of
`max + 1` at `u32::MAX`, which the release profile turns into a panic. -/
def nextIterationNumber (names : List String) : Option Nat :=
  let highest := (names.filterMap iterationOfFileName).foldl max 0
  if highest + 1 < 2 ^ 32 then some (highest + 1) else none

theorem foldl_max_le_iff (numbers : List Nat) (least bound : Nat) :
    numbers.foldl max least ≤ bound ↔ least ≤ bound ∧ ∀ n ∈ numbers, n ≤ bound := by
  induction numbers generalizing least with
  | nil => simp
  | cons n numbers ih =>
      rw [List.foldl_cons, ih, Nat.max_le, List.forall_mem_cons, and_assoc]

theorem iterationOfFileName_lt {name : String} {n : Nat} (h : iterationOfFileName name = some n) :
    n < 2 ^ 32 := by
  obtain ⟨rest, -, h⟩ := Option.bind_eq_some_iff.mp h
  obtain ⟨number, -, h⟩ := Option.bind_eq_some_iff.mp h
  exact Str.parseU32_lt h

/-- **The next number is fresh** exactly if no file has the last one that a `u32` holds. -/
theorem nextIterationNumber_fresh_iff (names : List String) :
    (∃ next, nextIterationNumber names = some next ∧
      ∀ name ∈ names, ∀ n, iterationOfFileName name = some n → n < next) ↔
    ∀ name ∈ names, iterationOfFileName name ≠ some (2 ^ 32 - 1) := by
  unfold nextIterationNumber
  dsimp only
  have hhighest := foldl_max_le_iff (names.filterMap iterationOfFileName) 0
  constructor
  · rintro ⟨next, hnext, hfresh⟩ name hname hlast
    have hlt := hfresh name hname (2 ^ 32 - 1) hlast
    split_ifs at hnext with hfits
    have heq := Option.some.inj hnext
    omega
  · intro hnone
    -- every number is below the last one, so the highest is
    have hbelow : ∀ n ∈ names.filterMap iterationOfFileName, n ≤ 2 ^ 32 - 2 := by
      intro n hn
      obtain ⟨name, hname, hnumber⟩ := List.mem_filterMap.mp hn
      have hlt := iterationOfFileName_lt hnumber
      have hne : n ≠ 2 ^ 32 - 1 := fun heq => hnone name hname (heq ▸ hnumber)
      omega
    have hle := (hhighest (2 ^ 32 - 2)).mpr ⟨Nat.zero_le _, hbelow⟩
    refine ⟨_, if_pos (by omega), ?_⟩
    intro name hname n hnumber
    have hmem : n ∈ names.filterMap iterationOfFileName :=
      List.mem_filterMap.mpr ⟨name, hname, hnumber⟩
    have hn := ((hhighest _).mp le_rfl).2 n hmem
    omega

/-- A file of that number is in the directory: the increment overflows. -/
theorem nextIterationNumber_overflows :
    ¬ ∀ names : List String, ∃ next, nextIterationNumber names = some next ∧
      ∀ name ∈ names, ∀ n, iterationOfFileName name = some n → n < next := by
  intro hall
  obtain ⟨next, hnext, -⟩ := hall ["iteration-4294967295.md"]
  have hnone : nextIterationNumber ["iteration-4294967295.md"] = none := by decide
  rw [hnone] at hnext
  cases hnext

/-! ## §2. The front matter. -/

/-- The lines after the opening `---`: the first `status:` line before the
closing `---`, in lower case. -/
def statusLine : List (List Char) → Option String
  | [] => none
  | line :: lines =>
      let t := Str.trimMatches Str.isWhitespace line
      -- the front matter is over
      if t = "---".toList then none
      else match Str.stripPrefix "status:".toList t with
        | some v =>
            some (String.ofList ((Str.trimMatches Str.isWhitespace v).map Str.toAsciiLowercase))
        | none => statusLine lines

/-- Parse `status:` out of an iteration file.  The outer `none` is a file that
cannot be read, the inner one a file without a front-matter status line. -/
def parseIterationFile (text : Option String) : Option (Option String) :=
  text.map fun text =>
    match Str.lines text with
    | [] => none
    | first :: rest =>
        if Str.trimMatches Str.isWhitespace first = "---".toList then statusLine rest else none

/-- The file that ends an iteration (`.flatten().is_none()` negated). -/
def finishedFile (text : Option String) : Bool := (parseIterationFile text).join.isSome

example : parseIterationFile (some "---\nstatus: Done\n---\nwork") = some (some "done") := by
  decide

end Jmux.Goal
