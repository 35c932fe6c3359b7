/-
  Jmux.Browser.Profiles — the browser profiles and their directories
  (`browser_profiles.rs`).

  A profile's name is also the name of its data and cache directories.  The list of
  profiles is in memory once `init` has read it, or once an operation has been called
  without it, and each change writes it to the configuration file.

  Main results:
    * `profile_dirs_apart`  — profiles with different names have directories that are
                               apart, but for the name `.`.
    * `fit_*`               — what each operation makes of a list of profiles.
    * `profiles_isolated`   — the same of runs.
-/
import Mathlib.Data.List.Nodup
import Jmux.Lib.CharIndex
import Jmux.Lib.Places
import Jmux.Lib.Transition

namespace Jmux.Browser

open Jmux.Lib
open Jmux.Lib.Path (Place Plain Apart Files components follow)

/-! ## §1. Profiles, directories and the state. -/

structure BrowserProfile where
  name      : List Char
  isDefault : Bool
  deriving DecidableEq, Repr

/-- `jmux/webkit-profiles` in a directory of the user. -/
def webkitProfiles (dir : Place) : Place := follow dir (components "jmux/webkit-profiles".toList)

/-- The directories of the user (`dirs`): the profiles have one place in both, or two of
which neither is in the other. -/
structure UserDirs where
  dataDir  : Place
  cacheDir : Place
  separate : dataDir = cacheDir ∨ Apart (webkitProfiles dataDir) (webkitProfiles cacheDir)

/-- `profiles_data_dir().join(name)` -/
def profileDataDir (dirs : UserDirs) (name : List Char) : Place :=
  follow (webkitProfiles dirs.dataDir) (components name)

/-- `profile_dirs` -/
def profileDirs (dirs : UserDirs) (name : List Char) : Place × Place :=
  (profileDataDir dirs name, follow (webkitProfiles dirs.cacheDir) (components name))

variable {κ : Type*}

/-- `STORE`, the profiles that the configuration file gives (none, where it cannot be read),
and the files of the disk. -/
structure State (κ : Type*) where
  store  : Option (List BrowserProfile) := none
  config : List BrowserProfile
  files  : Files κ
  /-- `init` has run in this process. -/
  hasRun : Bool := false

/-! ## §2. The operations. -/

def isValidProfileName (name : List Char) : Bool :=
  name ≠ [] && CharIndex.byteLen name ≤ 64 && '/' ∉ name && '\\' ∉ name
    && !Str.contains "..".toList name

def defaultProfile : BrowserProfile := ⟨"Default".toList, true⟩

/-- `get_or_insert_with(ProfileStore::default)` -/
def State.profiles (s : State κ) : List BrowserProfile := s.store.getD []

/-- Nothing is changed but that there is a list now. -/
def State.touched (s : State κ) : State κ := { s with store := some s.profiles }

/-- `save_store`, of the list that is now in memory. -/
def State.saved (s : State κ) (profiles : List BrowserProfile) : State κ :=
  { s with store := some profiles, config := profiles }

def init (s : State κ) : State κ :=
  let s := { s with hasRun := true }
  match s.store with
  | some _ => s
  | none => if s.config = [] then s.saved [defaultProfile] else { s with store := some s.config }

def create (name : List Char) (s : State κ) : Bool × State κ :=
  if !isValidProfileName name then (false, s)
  else if s.profiles.any (·.name = name) then (false, s.touched)
  else (true, s.saved (s.profiles ++ [⟨name, false⟩]))

/-- The first profile of the name gets the new one. -/
def renameFirst (oldName newName : List Char) : List BrowserProfile → List BrowserProfile
  | [] => []
  | p :: rest =>
      if p.name = oldName then { p with name := newName } :: rest
      else p :: renameFirst oldName newName rest

/-- `moves`: whether the operating system renames the directory. -/
def rename (dirs : UserDirs) (oldName newName : List Char) (moves : Bool) (s : State κ) :
    Bool × State κ :=
  if !isValidProfileName newName then (false, s)
  else if s.profiles.any (·.name = newName) then (false, s.touched)
  else if s.profiles.any (·.name = oldName) then
    let oldDir := profileDataDir dirs oldName
    let newDir := profileDataDir dirs newName
    let files := if s.files.isThere oldDir && moves then s.files.moveBelow oldDir newDir else s.files
    (true, { s with files }.saved (renameFirst oldName newName s.profiles))
  else (false, s.touched)

/-- `goes`: which files the operating system removes. -/
def delete (dirs : UserDirs) (name : List Char) (goes : Place → Bool) (s : State κ) :
    Bool × State κ :=
  if !isValidProfileName name then (false, s)
  else
    match s.profiles.find? (·.name = name) with
    | some p =>
        if p.isDefault then (false, s.touched)
        else
          let files := s.files.removeBelow (profileDataDir dirs name) goes
          (true, { s with files }.saved (s.profiles.eraseP (·.name = name)))
    | none => (false, s.touched)

def setDefault (name : List Char) (s : State κ) : Bool × State κ :=
  if s.profiles.any (·.name = name) then
    (true, s.saved (s.profiles.map fun p => { p with isDefault := p.name = name }))
  else (false, s.touched)

inductive Action (κ : Type*)
  | init
  | create (name : List Char)
  | rename (oldName newName : List Char) (moves : Bool)
  | delete (name : List Char) (goes : Place → Bool)
  | setDefault (name : List Char)
  /-- Pages are shown: files come and go. -/
  | browse (files : Files κ)
  /-- Another process begins; the configuration file may not be readable any more. -/
  | restart (readable : Bool)

variable (dirs : UserDirs)

def after (s : State κ) : Action κ → State κ
  | .init => init s
  | .create name => (create name s).2
  | .rename oldName newName moves => (rename dirs oldName newName moves s).2
  | .delete name goes => (delete dirs name goes s).2
  | .setDefault name => (setDefault name s).2
  | .browse files => { s with files }
  | .restart readable =>
      { s with store := none, hasRun := false, config := if readable then s.config else [] }

def step (s : State κ) (a : Action κ) : Option (State κ) := some (after dirs s a)

/-! ## §3. What is to hold. -/

/-- Both directories of the one are apart from both of the other. -/
def DirsApart (name other : List Char) : Prop :=
  ∀ d ∈ [(profileDirs dirs name).1, (profileDirs dirs name).2],
    ∀ e ∈ [(profileDirs dirs other).1, (profileDirs dirs other).2], Apart d e

instance (name other : List Char) : Decidable (DirsApart dirs name other) :=
  inferInstanceAs (Decidable (∀ d ∈ _, ∀ e ∈ _, _))

/-- Names are distinct, there is one default after `init`, and the directories are apart. -/
structure Isolated (s : State κ) : Prop where
  distinct   : (s.profiles.map (·.name)).Nodup
  oneDefault : s.hasRun → s.profiles.countP (·.isDefault) = 1
  apart      : s.profiles.Pairwise fun p q => DirsApart dirs p.name q.name

/-- The files of every other profile are the same after the step. -/
def OthersKept (name : List Char) (s s' : State κ) : Prop :=
  ∀ q ∈ s.profiles, q.name ≠ name →
    s'.files.below (profileDirs dirs q.name).1 = s.files.below (profileDirs dirs q.name).1 ∧
      s'.files.below (profileDirs dirs q.name).2 = s.files.below (profileDirs dirs q.name).2

/-- Deleting and renaming a profile leave the files of every other one as they are. -/
def Untouched (s : State κ) (a : Action κ) : Prop :=
  match a with
  | .rename oldName _ _ => OthersKept dirs oldName s (after dirs s a)
  | .delete name _ => OthersKept dirs name s (after dirs s a)
  | _ => True

/-- `init` comes before the operations, but for those that refuse an invalid name at once,
and no profile gets the name `.`. -/
def Meets (s : State κ) : Action κ → Prop
  | .create name => (isValidProfileName name → s.hasRun) ∧ name ≠ ['.']
  | .rename _ newName _ => (isValidProfileName newName → s.hasRun) ∧ newName ≠ ['.']
  | .delete name _ => isValidProfileName name → s.hasRun
  | .setDefault _ => s.hasRun
  | _ => True

instance (s : State κ) : ∀ a, Decidable (Meets s a)
  | .create _ => inferInstanceAs (Decidable (_ ∧ _))
  | .rename _ _ _ => inferInstanceAs (Decidable (_ ∧ _))
  | .delete _ _ => inferInstanceAs (Decidable (_ → _))
  | .setDefault _ => inferInstanceAs (Decidable (_ = true))
  | .init => inferInstanceAs (Decidable True)
  | .browse _ => inferInstanceAs (Decidable True)
  | .restart _ => inferInstanceAs (Decidable True)

/-- What a list of profiles is when none is called `.` and one is the default. -/
structure Fit (profiles : List BrowserProfile) : Prop where
  distinct   : (profiles.map (·.name)).Nodup
  valid      : ∀ p ∈ profiles, isValidProfileName p.name ∧ p.name ≠ ['.']
  oneDefault : profiles.countP (·.isDefault) = 1

/-- A process begins; the configuration file is not there, is empty or cannot be read, or
gives such a list. -/
structure Start (s : State κ) : Prop where
  fresh  : s.store = none ∧ s.hasRun = false
  config : s.config = [] ∨ Fit s.config

/-! ## §4. Names and directories. -/

theorem isValidProfileName_iff (name : List Char) :
    isValidProfileName name = true ↔ name ≠ [] ∧ CharIndex.byteLen name ≤ 64 ∧ '/' ∉ name ∧
      '\\' ∉ name ∧ Str.contains "..".toList name = false := by
  unfold isValidProfileName
  simp only [Bool.and_eq_true, decide_eq_true_eq, Bool.not_eq_true', and_assoc]

theorem plain_of_valid {name : List Char} (h : isValidProfileName name = true) (hdot : name ≠ ['.']) :
    Plain name := by
  obtain ⟨hne, -, hslash, -, hdots⟩ := (isValidProfileName_iff name).mp h
  refine ⟨⟨hne, hdot, hslash⟩, fun heq => ?_⟩
  rw [heq] at hdots
  exact absurd hdots (by decide)

variable {dirs} {name other : List Char}

theorem profileDirs_plain (h : Plain name) :
    profileDirs dirs name
      = (webkitProfiles dirs.dataDir ++ [name], webkitProfiles dirs.cacheDir ++ [name]) := by
  unfold profileDirs profileDataDir
  rw [Path.follow_name h, Path.follow_name h]

/-- **Different names, different directories.** -/
theorem profile_dirs_apart (h : Plain name) (hother : Plain other) (hne : name ≠ other) :
    DirsApart dirs name other := by
  have hsame : ∀ dir : Place, Apart (dir ++ [name]) (dir ++ [other]) := Path.apart_of_ne hne
  have hmixed : Apart (webkitProfiles dirs.dataDir ++ [name]) (webkitProfiles dirs.cacheDir ++ [other])
      ∧ Apart (webkitProfiles dirs.cacheDir ++ [name]) (webkitProfiles dirs.dataDir ++ [other]) := by
    rcases dirs.separate with heq | hapart
    · rw [heq]
      exact ⟨hsame _, hsame _⟩
    · exact ⟨hapart.append _ _, hapart.symm.append _ _⟩
  intro d hd e he
  rw [profileDirs_plain h] at hd
  rw [profileDirs_plain hother] at he
  simp only [List.mem_cons, List.not_mem_nil, or_false] at hd he
  rcases hd with rfl | rfl
  · rcases he with rfl | rfl
    · exact hsame _
    · exact hmixed.1
  · rcases he with rfl | rfl
    · exact hmixed.2
    · exact hsame _

/-! ## §5. Lists of profiles. -/

variable {profiles : List BrowserProfile}

theorem Fit.plain (h : Fit profiles) {p : BrowserProfile} (hp : p ∈ profiles) : Plain p.name :=
  plain_of_valid (h.valid p hp).1 (h.valid p hp).2

theorem any_name_iff (profiles : List BrowserProfile) (name : List Char) :
    profiles.any (·.name = name) = true ↔ name ∈ profiles.map (·.name) := by
  rw [List.any_eq_true, List.mem_map]
  simp

theorem fit_default : Fit [defaultProfile] where
  distinct   := List.nodup_singleton _
  valid      := by decide
  oneDefault := rfl

theorem fit_create (h : Fit profiles) (hvalid : isValidProfileName name = true) (hdot : name ≠ ['.'])
    (hnew : name ∉ profiles.map (·.name)) : Fit (profiles ++ [⟨name, false⟩]) where
  distinct := by
    rw [List.map_append, List.nodup_append]
    refine ⟨h.distinct, List.nodup_singleton _, ?_⟩
    intro a ha b hb heq
    rw [heq, List.mem_singleton.mp hb] at ha
    exact hnew ha
  valid := by
    intro p hp
    rcases List.mem_append.mp hp with hp | hp
    · exact h.valid p hp
    · rw [List.mem_singleton.mp hp]
      exact ⟨hvalid, hdot⟩
  oneDefault := by
    rw [List.countP_append, h.oneDefault]
    rfl

/-- A renamed list has the names of the old one, but for the first that is the old name. -/
theorem renameFirst_names (oldName newName : List Char) (profiles : List BrowserProfile) :
    (renameFirst oldName newName profiles).map (·.name) ⊆ newName :: profiles.map (·.name) := by
  induction profiles with
  | nil => exact List.nil_subset _
  | cons p rest ih =>
      unfold renameFirst
      intro n hn
      split at hn
      · rw [List.map_cons] at hn ⊢
        rcases List.mem_cons.mp hn with rfl | hn
        · exact List.mem_cons_self
        · exact List.mem_cons_of_mem _ (List.mem_cons_of_mem _ hn)
      · rw [List.map_cons] at hn ⊢
        rcases List.mem_cons.mp hn with rfl | hn
        · exact List.mem_cons_of_mem _ List.mem_cons_self
        · rcases List.mem_cons.mp (ih hn) with rfl | hn
          · exact List.mem_cons_self
          · exact List.mem_cons_of_mem _ (List.mem_cons_of_mem _ hn)

theorem renameFirst_defaults (oldName newName : List Char) (profiles : List BrowserProfile) :
    (renameFirst oldName newName profiles).countP (·.isDefault) = profiles.countP (·.isDefault) := by
  induction profiles with
  | nil => rfl
  | cons p rest ih =>
      unfold renameFirst
      split
      · rw [List.countP_cons, List.countP_cons]
      · rw [List.countP_cons, List.countP_cons, ih]

theorem renameFirst_nodup {oldName newName : List Char} (h : (profiles.map (·.name)).Nodup)
    (hnew : newName ∉ profiles.map (·.name)) :
    ((renameFirst oldName newName profiles).map (·.name)).Nodup := by
  induction profiles with
  | nil => exact List.nodup_nil
  | cons p rest ih =>
      rw [List.map_cons] at h hnew
      obtain ⟨hp, hrest⟩ := List.nodup_cons.mp h
      have hnewRest : newName ∉ rest.map (·.name) := fun hn => hnew (List.mem_cons_of_mem _ hn)
      unfold renameFirst
      split
      · rw [List.map_cons]
        exact List.nodup_cons.mpr ⟨hnewRest, hrest⟩
      · rw [List.map_cons]
        refine List.nodup_cons.mpr ⟨fun hmem => ?_, ih hrest hnewRest⟩
        rcases List.mem_cons.mp (renameFirst_names oldName newName rest hmem) with heq | hmem
        · exact hnew (heq ▸ List.mem_cons_self)
        · exact hp hmem

theorem fit_rename {oldName newName : List Char} (h : Fit profiles)
    (hvalid : isValidProfileName newName = true) (hdot : newName ≠ ['.'])
    (hnew : newName ∉ profiles.map (·.name)) : Fit (renameFirst oldName newName profiles) where
  distinct := renameFirst_nodup h.distinct hnew
  valid := by
    intro p hp
    have hname := renameFirst_names oldName newName profiles (List.mem_map_of_mem hp)
    rcases List.mem_cons.mp hname with heq | hmem
    · rw [heq]
      exact ⟨hvalid, hdot⟩
    · obtain ⟨q, hq, heq⟩ := List.mem_map.mp hmem
      rw [← heq]
      exact h.valid q hq
  oneDefault := by rw [renameFirst_defaults, h.oneDefault]

/-- The first profile that is found goes; it is not the default. -/
theorem fit_delete (h : Fit profiles) {p : BrowserProfile}
    (hfind : profiles.find? (·.name = name) = some p) (hp : p.isDefault = false) :
    Fit (profiles.eraseP (·.name = name)) where
  distinct := (List.eraseP_sublist.map _).nodup h.distinct
  valid := fun q hq => h.valid q (List.eraseP_sublist.subset hq)
  oneDefault := by
    obtain ⟨hname, before, behind, rfl, hbefore⟩ := List.find?_eq_some_iff_append.mp hfind
    have hleft : (p :: behind).eraseP (·.name = name) = behind := List.eraseP_cons_of_pos hname
    rw [List.eraseP_append_right _ (by simpa using hbefore), hleft]
    have hone := h.oneDefault
    rw [List.countP_append, List.countP_cons] at hone
    rw [List.countP_append]
    simpa [hp] using hone

/-- With distinct names a name that is there makes one profile the default. -/
theorem fit_setDefault (h : Fit profiles) (hname : name ∈ profiles.map (·.name)) :
    Fit (profiles.map fun p => { p with isDefault := p.name = name }) where
  distinct := by
    rw [List.map_map]
    exact h.distinct
  valid := by
    intro p hp
    obtain ⟨q, hq, rfl⟩ := List.mem_map.mp hp
    exact h.valid q hq
  oneDefault := by
    have hcount : (profiles.map (·.name)).count name = 1 := List.count_eq_one_of_mem h.distinct hname
    rw [List.countP_map, ← hcount, List.count_eq_countP, List.countP_map]
    refine List.countP_congr fun p _ => ?_
    simp

/-! ## §6. One step. -/

variable {s : State κ} {a : Action κ}

/-- What holds between the steps. -/
structure Kept (s : State κ) : Prop where
  store  : ∀ profiles ∈ s.store, Fit profiles
  config : s.config = [] ∨ Fit s.config
  hasRun : s.hasRun → s.store.isSome

theorem Kept.fit (h : Kept s) (hrun : s.hasRun = true) : Fit s.profiles := by
  obtain ⟨profiles, hstore⟩ := Option.isSome_iff_exists.mp (h.hasRun hrun)
  unfold State.profiles
  rw [hstore]
  exact h.store profiles hstore

theorem kept_saved (h : Fit profiles) (s : State κ) : Kept (s.saved profiles) where
  store := by
    intro _ heq
    rw [← Option.some.inj heq]
    exact h
  config := .inr h
  hasRun := fun _ => rfl

/-- Once there is a list an operation that changes nothing leaves the state as it is. -/
theorem touched_eq (h : Kept s) (hrun : s.hasRun = true) : s.touched = s := by
  obtain ⟨profiles, hstore⟩ := Option.isSome_iff_exists.mp (h.hasRun hrun)
  unfold State.touched State.profiles
  rw [hstore]
  show { s with store := some profiles } = s
  rw [← hstore]

theorem kept_touched (h : Kept s) (hrun : s.hasRun = true) : Kept s.touched := by
  rw [touched_eq h hrun]
  exact h

theorem kept_init (h : Kept s) : Kept (init s) := by
  unfold init
  dsimp only
  split
  · next profiles hstore =>
      exact ⟨h.store, h.config, fun _ => by rw [hstore]; rfl⟩
  · split
    · exact kept_saved fit_default _
    · next hconfig =>
        have hfit : Fit s.config := h.config.resolve_left hconfig
        refine ⟨fun profiles heq => ?_, h.config, fun _ => rfl⟩
        rw [← Option.some.inj heq]
        exact hfit

theorem kept_create (h : Kept s) (hmeets : Meets s (.create name)) : Kept (create name s).2 := by
  unfold create
  split
  · exact h
  · next hvalid =>
      have hvalid : isValidProfileName name = true := by simpa using hvalid
      have hrun := hmeets.1 hvalid
      split
      · exact kept_touched h hrun
      · next hnew =>
          rw [any_name_iff] at hnew
          exact kept_saved (fit_create (h.fit hrun) hvalid hmeets.2 hnew) s

theorem kept_rename (h : Kept s) {oldName newName : List Char} {moves : Bool}
    (hmeets : Meets s (.rename oldName newName moves)) :
    Kept (rename dirs oldName newName moves s).2 := by
  unfold rename
  split
  · exact h
  · next hvalid =>
      have hvalid : isValidProfileName newName = true := by simpa using hvalid
      have hrun := hmeets.1 hvalid
      split
      · exact kept_touched h hrun
      · next hnew =>
          rw [any_name_iff] at hnew
          split
          · exact kept_saved (fit_rename (h.fit hrun) hvalid hmeets.2 hnew) _
          · exact kept_touched h hrun

theorem kept_delete (h : Kept s) {goes : Place → Bool} (hmeets : Meets s (.delete name goes)) :
    Kept (delete dirs name goes s).2 := by
  unfold delete
  split
  · exact h
  · next hvalid =>
      have hrun := hmeets (by simpa using hvalid)
      split
      · next p hfind =>
          split
          · exact kept_touched h hrun
          · next hdefault =>
              exact kept_saved (fit_delete (h.fit hrun) hfind (by simpa using hdefault)) _
      · exact kept_touched h hrun

theorem kept_setDefault (h : Kept s) (hrun : s.hasRun = true) : Kept (setDefault name s).2 := by
  unfold setDefault
  split
  · next hname =>
      rw [any_name_iff] at hname
      exact kept_saved (fit_setDefault (h.fit hrun) hname) s
  · exact kept_touched h hrun

theorem kept_step (h : Kept s) (hmeets : Meets s a) : Kept (after dirs s a) := by
  cases a with
  | init => exact kept_init h
  | create name => exact kept_create h hmeets
  | rename oldName newName moves => exact kept_rename h hmeets
  | delete name goes => exact kept_delete h hmeets
  | setDefault name => exact kept_setDefault h hmeets
  | browse files => exact ⟨h.store, h.config, h.hasRun⟩
  | restart readable =>
      constructor
      · intro profiles hnone
        cases hnone
      · cases readable with
        | false => exact .inl rfl
        | true => exact h.config
      · intro hrun
        cases hrun

theorem isolated_of_kept (h : Kept s) : Isolated dirs s := by
  cases hstore : s.store with
  | none =>
      have hnil : s.profiles = [] := by
        unfold State.profiles
        rw [hstore]
        rfl
      refine ⟨?_, fun hrun => ?_, ?_⟩
      · rw [hnil]
        exact List.nodup_nil
      · -- `init` leaves a list
        have hsome := h.hasRun hrun
        rw [hstore] at hsome
        cases hsome
      · rw [hnil]
        exact List.Pairwise.nil
  | some profiles =>
      have hprofiles : s.profiles = profiles := by
        unfold State.profiles
        rw [hstore]
        rfl
      have hfit : Fit profiles := h.store profiles hstore
      rw [← hprofiles] at hfit
      refine ⟨hfit.distinct, fun _ => hfit.oneDefault, ?_⟩
      have hpairs : s.profiles.Pairwise fun p q => p.name ≠ q.name := List.pairwise_map.mp hfit.distinct
      exact hpairs.imp_of_mem fun hp hq hne => profile_dirs_apart (hfit.plain hp) (hfit.plain hq) hne

variable (dirs) in
/-- The data directory of one profile and both directories of another. -/
theorem dataDir_apart (h : Plain name) (hother : Plain other) (hne : other ≠ name) :
    Apart (profileDataDir dirs name) (profileDirs dirs other).1 ∧
      Apart (profileDataDir dirs name) (profileDirs dirs other).2 := by
  have hapart : DirsApart dirs name other := profile_dirs_apart h hother hne.symm
  have hdata := hapart _ List.mem_cons_self
  exact ⟨hdata _ List.mem_cons_self, hdata _ (List.mem_cons_of_mem _ List.mem_cons_self)⟩

theorem othersKept_of_files_eq {s' : State κ} (h : s'.files = s.files) : OthersKept dirs name s s' := by
  intro q _ _
  rw [h]
  exact ⟨rfl, rfl⟩

theorem rename_untouched (h : Kept s) {oldName newName : List Char} {moves : Bool}
    (hmeets : Meets s (.rename oldName newName moves)) :
    OthersKept dirs oldName s (rename dirs oldName newName moves s).2 := by
  unfold rename
  split
  · exact othersKept_of_files_eq rfl
  · next hvalid =>
      have hvalid : isValidProfileName newName = true := by simpa using hvalid
      have hfit := h.fit (hmeets.1 hvalid)
      split
      · exact othersKept_of_files_eq rfl
      · next hnew =>
          rw [any_name_iff] at hnew
          split
          · next hold =>
              obtain ⟨p, hp, rfl⟩ := List.mem_map.mp ((any_name_iff _ _).mp hold)
              dsimp only
              split
              · -- both ends of the move are apart from the other profile
                intro q hq hne
                have hfree : q.name ≠ newName := fun heq => hnew (heq ▸ List.mem_map_of_mem hq)
                have hends := dataDir_apart dirs (hfit.plain hp) (hfit.plain hq) hne
                have hends' := dataDir_apart dirs (plain_of_valid hvalid hmeets.2)
                  (hfit.plain hq) hfree
                exact ⟨Files.below_moveBelow hends.1 hends'.1, Files.below_moveBelow hends.2 hends'.2⟩
              · exact othersKept_of_files_eq rfl
          · exact othersKept_of_files_eq rfl

theorem delete_untouched (h : Kept s) {goes : Place → Bool} (hmeets : Meets s (.delete name goes)) :
    OthersKept dirs name s (delete dirs name goes s).2 := by
  unfold delete
  split
  · exact othersKept_of_files_eq rfl
  · next hvalid =>
      have hfit := h.fit (hmeets (by simpa using hvalid))
      split
      · next p hfind =>
          split
          · exact othersKept_of_files_eq rfl
          · intro q hq hne
            have hp := hfit.plain (List.mem_of_find?_eq_some hfind)
            have hname : p.name = name := by simpa using List.find?_some hfind
            rw [hname] at hp
            have hends := dataDir_apart dirs hp (hfit.plain hq) hne
            exact ⟨Files.below_removeBelow hends.1 goes, Files.below_removeBelow hends.2 goes⟩
      · exact othersKept_of_files_eq rfl

theorem untouched_of_kept (h : Kept s) (hmeets : Meets s a) : Untouched dirs s a := by
  cases a with
  | rename oldName newName moves => exact rename_untouched h hmeets
  | delete name goes => exact delete_untouched h hmeets
  | init => trivial
  | create name => trivial
  | setDefault name => trivial
  | browse files => trivial
  | restart readable => trivial

/-! ## §7. Runs. -/

theorem Start.kept (h : Start s) : Kept s where
  store := by
    intro profiles hstore
    rw [h.fresh.1] at hstore
    cases hstore
  config := h.config
  hasRun := by
    intro hrun
    rw [h.fresh.2] at hrun
    cases hrun

/-- **Profiles are isolated** in every run in which `init` comes before the operations and no
profile gets the name `.`: whatever the disk holds, whichever files and directories the
operating system moves and removes, and however often the process ends. -/
theorem profiles_isolated (dirs : UserDirs) {start : State κ} (hstart : Start start)
    {as : List (Action κ)} (hmeets : EveryStep (step dirs) Meets start as) :
    EveryState (step dirs) (Isolated dirs) start as ∧
      EveryStep (step dirs) (Untouched dirs) start as := by
  have hrun : ∀ s : State κ, Kept s → EveryStep (step dirs) Meets s as →
      EveryState (step dirs) (Isolated dirs) s as ∧ EveryStep (step dirs) (Untouched dirs) s as := by
    clear hstart hmeets
    induction as with
    | nil =>
        intro s hs _
        exact ⟨isolated_of_kept hs, trivial⟩
    | cons a as ih =>
        intro s hs h
        have hnext := ih (after dirs s a) (kept_step hs h.1) (h.2 _ rfl)
        refine ⟨⟨isolated_of_kept hs, fun m hm => ?_⟩, untouched_of_kept hs h.1, fun m hm => ?_⟩
        · rw [← Option.some.inj hm]
          exact hnext.1
        · rw [← Option.some.inj hm]
          exact hnext.2
  exact hrun start hstart.kept hmeets

/-- The usual directories of a user. -/
def homeDirs : UserDirs where
  dataDir  := ["home".toList, "u".toList, ".local".toList, "share".toList]
  cacheDir := ["home".toList, "u".toList, ".cache".toList]
  separate := .inr (by decide)

/-- The first start of the application. -/
def firstStart : State String := { config := [], files := [] }

/-- A file among the data of the profile `work`. -/
def workCookies : Files String :=
  [(profileDataDir homeDirs "work".toList ++ ["cookies".toList], "session")]

/-- A profile is made, used, renamed and, in another process, deleted. -/
theorem profiles_isolated_home :
    EveryState (step homeDirs) (Isolated homeDirs) firstStart
        [.init, .create "work".toList, .browse workCookies, .rename "work".toList "w".toList true,
          .restart true, .init, .delete "w".toList fun _ => true] ∧
      EveryStep (step homeDirs) (Untouched homeDirs) firstStart
        [.init, .create "work".toList, .browse workCookies, .rename "work".toList "w".toList true,
          .restart true, .init, .delete "w".toList fun _ => true] :=
  profiles_isolated homeDirs ⟨⟨rfl, rfl⟩, .inl rfl⟩ (by decide)

/-- The profile `.` has the directory of all profiles, so that deleting it deletes their data;
and a profile that is made before `init` leaves the application without a default. -/
theorem dot_and_early_profiles :
    ¬ EveryState (step homeDirs) (Isolated homeDirs) firstStart
        [.init, .create "work".toList, .create ".".toList] ∧
    ¬ EveryStep (step homeDirs) (Untouched homeDirs) firstStart
        [.init, .create "work".toList, .browse workCookies, .create ".".toList,
          .delete ".".toList fun _ => true] ∧
    ¬ EveryState (step homeDirs) (Isolated homeDirs) firstStart [.create "work".toList, .init] := by
  refine ⟨fun h => ?_, fun h => ?_, fun h => ?_⟩
  · have hlast := h.last rfl
    exact absurd hlast.apart (by decide)
  · have hdelete := (((((h.2 _ rfl).2 _ rfl).2 _ rfl).2 _ rfl).1 : Untouched homeDirs _ _)
    have hwork := hdelete ⟨"work".toList, false⟩ (by decide) (by decide)
    exact absurd hwork.1 (by decide)
  · have hlast := h.last rfl
    exact absurd (hlast.oneDefault rfl) (by decide)

end Jmux.Browser
