/-
  Jmux.Session.Store — saving and loading the session file (`session/store.rs`).

  A save is a sequence of file operations and the process may die between any
  two of them, so `step` performs one operation at a time.  Two savers share the
  directory: the autosave thread, and the main loop at shutdown and at a memory
  alarm.

  Main result:
    * `backup_good_iff` — in every run, at every moment: an existing backup
      holds a workspace, and a non-empty session once saved is still in one of
      the two files, exactly when every copy is taken of a non-empty primary
      and no empty snapshot replaces a non-empty primary without a non-empty
      backup beside it.
-/
import Jmux.Lib.Transition
import Jmux.Session.Snapshot

namespace Jmux.Session

open Jmux.Lib Jmux.Model

/-! ## §1. The files. -/

/-- What one of the files holds: a snapshot, a text that does not parse, or
bytes that `read_to_string` refuses. -/
inductive SessionFile
  | snapshot (snapshot : AppSessionSnapshot)
  | malformed
  | unreadable
  deriving DecidableEq

/-- `session.json` and `session.json.bak`. -/
structure Disk where
  primary : Option SessionFile := none
  backup  : Option SessionFile := none
  deriving DecidableEq

/-- Parse a session file with no side effects. -/
def readSnapshotQuiet : Option SessionFile → Option AppSessionSnapshot
  | some (.snapshot s) => some s
  | _ => none

/-- The file holds a snapshot with at least one live workspace. -/
def holdsSession (file : Option SessionFile) : Bool :=
  (readSnapshotQuiet file).any fun s => liveWorkspaceCount s > 0

/-- The rolling backup, if it holds a non-empty session. -/
def loadBackup (disk : Disk) : Option AppSessionSnapshot :=
  (readSnapshotQuiet disk.backup).filter fun s => liveWorkspaceCount s > 0

/-- The snapshot that a start finds (`none` inside `ok`: nothing saved).  A
text that does not parse is moved away; `moved` says whether that succeeded. -/
def loadSession (disk : Disk) (moved : Bool) : Disk × Except Unit (Option AppSessionSnapshot) :=
  match disk.primary with
  | none => (disk, .ok (loadBackup disk))
  -- the caller starts empty and the file stays
  | some .unreadable => (disk, .error ())
  | some .malformed =>
      ({ disk with primary := if moved then none else disk.primary }, .ok (loadBackup disk))
  | some (.snapshot s) =>
      (disk, .ok (some (if liveWorkspaceCount s = 0 then (loadBackup disk).getD s else s)))

/-! ## §2. A save. -/

/-- The directory and the process memory `HAD_WORKSPACES`. -/
structure Store where
  disk          : Disk := {}
  hadWorkspaces : Bool := false
  deriving DecidableEq

/-- The process has never had a live workspace, and the file has. -/
def refuses (st : Store) (new : AppSessionSnapshot) : Bool :=
  liveWorkspaceCount new = 0 ∧ ¬ st.hadWorkspaces ∧ holdsSession st.disk.primary

/-- Keep one rolling backup. -/
def copyToBackup (disk : Disk) : Disk :=
  match disk.primary with
  | none => disk
  | some file => { disk with backup := some file }

/-- A save that nothing interrupts. -/
def saveSession (st : Store) (new : AppSessionSnapshot) : Store :=
  -- the guard: the file on disk is better than an empty first save
  if refuses st new then st
  else
    let live := liveWorkspaceCount new > 0
    -- the copy is made of whatever the primary holds
    let disk := if live then copyToBackup st.disk else st.disk
    { disk          := { disk with primary := some (.snapshot new) }
      hadWorkspaces := st.hadWorkspaces || live }

/-! ## §3. One file operation at a time. -/

/-- Before which of its operations a save stands. -/
inductive SavePhase
  | idle
  | copying (new : AppSessionSnapshot)
  | writing (new : AppSessionSnapshot)
  | renaming (new : AppSessionSnapshot)
  deriving DecidableEq

inductive Saver
  | autosave
  | mainLoop
  deriving DecidableEq

structure SaveState extends Store where
  phase : Saver → SavePhase := fun _ => .idle
  /-- A non-empty session has been saved at some time. -/
  saved : Bool := false

inductive SaveAction
  /-- Everything up to the first file operation. -/
  | begin (saver : Saver) (new : AppSessionSnapshot)
  /-- `fs::copy`; a failure, which leaves the backup, is ignored. -/
  | copy (saver : Saver) (done : Bool)
  /-- The temporary file is created, written and synced. -/
  | write (saver : Saver)
  | rename (saver : Saver)
  /-- An operation fails and the save returns its error. -/
  | fail (saver : Saver)
  | load (moved : Bool)
  /-- The process ends, at any point, and the next one starts. -/
  | restart

namespace SaveState

def setPhase (st : SaveState) (saver : Saver) (phase : SavePhase) : SaveState :=
  { st with phase := fun other => if other = saver then phase else st.phase other }

def begin (st : SaveState) (saver : Saver) (new : AppSessionSnapshot) : SaveState :=
  -- the memory is set before any file is touched
  if refuses st.toStore new then st
  else if liveWorkspaceCount new > 0 then
    { st with hadWorkspaces := true }.setPhase saver (.copying new)
  else st.setPhase saver (.writing new)

def rename (st : SaveState) (saver : Saver) (new : AppSessionSnapshot) : SaveState :=
  { st with
    disk  := { st.disk with primary := some (.snapshot new) }
    saved := st.saved || liveWorkspaceCount new > 0 }.setPhase saver .idle

def step (st : SaveState) : SaveAction → Option SaveState
  | .begin saver new =>
      match st.phase saver with
      | .idle => some (st.begin saver new)
      | _ => none
  | .copy saver done =>
      match st.phase saver with
      | .copying new =>
          some ({ st with disk := if done then copyToBackup st.disk else st.disk }.setPhase saver
            (.writing new))
      | _ => none
  | .write saver =>
      match st.phase saver with
      | .writing new => some (st.setPhase saver (.renaming new))
      | _ => none
  | .rename saver =>
      match st.phase saver with
      | .renaming new => some (st.rename saver new)
      | _ => none
  | .fail saver => some (st.setPhase saver .idle)
  | .load moved => some { st with disk := (loadSession st.disk moved).1 }
  | .restart => some { st with hadWorkspaces := false, phase := fun _ => .idle }

@[simp] theorem setPhase_disk (st : SaveState) (saver : Saver) (phase : SavePhase) :
    (st.setPhase saver phase).disk = st.disk := rfl

@[simp] theorem setPhase_saved (st : SaveState) (saver : Saver) (phase : SavePhase) :
    (st.setPhase saver phase).saved = st.saved := rfl

@[simp] theorem setPhase_phase (st : SaveState) (saver : Saver) (phase : SavePhase) :
    (st.setPhase saver phase).phase saver = phase := if_pos rfl

/-! What a step that waits for its phase does. -/

theorem step_begin {st st' : SaveState} {saver : Saver} {new : AppSessionSnapshot}
    (h : step st (.begin saver new) = some st') : st' = st.begin saver new := by
  simp only [step] at h
  split at h
  · exact (Option.some.inj h).symm
  · cases h

theorem step_copy {st st' : SaveState} {saver : Saver} {done : Bool}
    (h : step st (.copy saver done) = some st') :
    ∃ new, st.phase saver = .copying new ∧
      st' = { st with disk := if done then copyToBackup st.disk else st.disk }.setPhase saver
        (.writing new) := by
  simp only [step] at h
  split at h
  · next new hphase => exact ⟨new, hphase, (Option.some.inj h).symm⟩
  · cases h

theorem step_write {st st' : SaveState} {saver : Saver} (h : step st (.write saver) = some st') :
    ∃ new, st.phase saver = .writing new ∧ st' = st.setPhase saver (.renaming new) := by
  simp only [step] at h
  split at h
  · next new hphase => exact ⟨new, hphase, (Option.some.inj h).symm⟩
  · cases h

theorem step_rename {st st' : SaveState} {saver : Saver} (h : step st (.rename saver) = some st') :
    ∃ new, st.phase saver = .renaming new ∧ st' = st.rename saver new := by
  simp only [step] at h
  split at h
  · next new hphase => exact ⟨new, hphase, (Option.some.inj h).symm⟩
  · cases h

theorem begin_frame (st : SaveState) (saver : Saver) (new : AppSessionSnapshot) :
    (st.begin saver new).disk = st.disk ∧ (st.begin saver new).saved = st.saved := by
  unfold begin
  split
  · exact ⟨rfl, rfl⟩
  · split <;> exact ⟨rfl, rfl⟩

theorem begin_phase {st : SaveState} {new : AppSessionSnapshot} (saver : Saver)
    (href : refuses st.toStore new = false) :
    (st.begin saver new).phase saver =
      if liveWorkspaceCount new > 0 then .copying new else .writing new := by
  unfold begin
  rw [href, if_neg (by decide)]
  split <;> exact setPhase_phase _ _ _

/-- An existing backup holds a session, and once a session has been saved one
of the two files holds one. -/
def BackupGood (st : SaveState) : Prop :=
  (st.disk.backup.isSome → holdsSession st.disk.backup) ∧
    (st.saved → holdsSession st.disk.primary ∨ holdsSession st.disk.backup)

/-- A session that a file holds has been saved. -/
def Recorded (st : SaveState) : Prop :=
  holdsSession st.disk.primary ∨ holdsSession st.disk.backup → st.saved

/-- A copy is taken of a session, and an empty snapshot replaces a session only
beside a backup that holds one. -/
def KeepsBackup (st : SaveState) : SaveAction → Prop
  | .copy saver done =>
      match st.phase saver with
      | .copying _ => done → st.disk.primary.isSome → holdsSession st.disk.primary
      | _ => True
  | .rename saver =>
      match st.phase saver with
      | .renaming new =>
          liveWorkspaceCount new = 0 → holdsSession st.disk.primary →
            holdsSession st.disk.backup
      | _ => True
  | _ => True

instance (st : SaveState) : ∀ a, Decidable (KeepsBackup st a)
  | .copy saver done =>
      match h : st.phase saver with
      | .copying _ => decidable_of_iff
          (done → st.disk.primary.isSome → holdsSession st.disk.primary)
          (by simp only [KeepsBackup, h])
      | .idle | .writing _ | .renaming _ => isTrue (by simp only [KeepsBackup, h])
  | .rename saver =>
      match h : st.phase saver with
      | .renaming new => decidable_of_iff
          (liveWorkspaceCount new = 0 → holdsSession st.disk.primary →
            holdsSession st.disk.backup)
          (by simp only [KeepsBackup, h])
      | .idle | .writing _ | .copying _ => isTrue (by simp only [KeepsBackup, h])
  | .begin _ _ | .write _ | .fail _ | .load _ | .restart => isTrue trivial

instance (st : SaveState) : Decidable st.BackupGood := inferInstanceAs (Decidable (_ ∧ _))

instance (st : SaveState) : Decidable st.Recorded := inferInstanceAs (Decidable (_ → _))

theorem holdsSession_snapshot (s : AppSessionSnapshot) :
    holdsSession (some (.snapshot s)) = decide (liveWorkspaceCount s > 0) := rfl

/-- Only a text that holds no session is moved away. -/
theorem loadSession_files (disk : Disk) (moved : Bool) :
    (loadSession disk moved).1.backup = disk.backup ∧
      holdsSession (loadSession disk moved).1.primary = holdsSession disk.primary := by
  unfold loadSession
  split
  · exact ⟨rfl, rfl⟩
  · exact ⟨rfl, rfl⟩
  · next h =>
      refine ⟨rfl, ?_⟩
      show holdsSession (if moved then none else disk.primary) = _
      -- a moved file parsed to nothing, so no session goes with it
      cases moved with
      | true => rw [h]; rfl
      | false => rfl
  · exact ⟨rfl, rfl⟩

/-- Steps that leave the backup, what the primary holds, and the record. -/
theorem backupGood_congr (st : SaveState) {st' : SaveState} (hbackup : st'.disk.backup = st.disk.backup)
    (hprimary : holdsSession st'.disk.primary = holdsSession st.disk.primary)
    (hsaved : st'.saved = st.saved) :
    (st'.BackupGood ↔ st.BackupGood) ∧ (st'.Recorded ↔ st.Recorded) := by
  unfold BackupGood Recorded
  rw [hbackup, hprimary, hsaved]
  exact ⟨Iff.rfl, Iff.rfl⟩

/-- Loading leaves what the files hold. -/
theorem load_congr (st : SaveState) (moved : Bool) :
    (({ st with disk := (loadSession st.disk moved).1 } : SaveState).BackupGood ↔
        st.BackupGood) ∧
      (({ st with disk := (loadSession st.disk moved).1 } : SaveState).Recorded ↔
        st.Recorded) := by
  obtain ⟨hbackup, hprimary⟩ := loadSession_files st.disk moved
  refine backupGood_congr st ?_ ?_ rfl
  · exact hbackup
  · exact hprimary

/-- A copy makes the backup hold what the primary holds. -/
theorem copy_iff {st : SaveState} (hgood : st.BackupGood) (done : Bool) (saver : Saver)
    (phase : SavePhase) :
    ({ st with disk := if done then copyToBackup st.disk else st.disk }.setPhase saver
        phase).BackupGood ↔
      (done → st.disk.primary.isSome → holdsSession st.disk.primary) := by
  cases done with
  | false =>
      constructor
      · intro _ h
        exact absurd h (by decide)
      · intro _
        exact hgood
  | true =>
      cases hp : st.disk.primary with
      | none =>
          -- no primary yet: there is nothing to copy
          have hsame : copyToBackup st.disk = st.disk := by
            unfold copyToBackup
            rw [hp]
          simp only [if_true, hsame, Option.isSome_none, Bool.false_eq_true, false_implies,
            implies_true, iff_true]
          exact hgood
      | some file =>
          have hcopy : copyToBackup st.disk = { st.disk with backup := some file } := by
            simp [copyToBackup, hp]
          simp only [if_true, hcopy, BackupGood, setPhase_disk, setPhase_saved, hp,
            Option.isSome_some, true_implies]
          constructor
          · intro h
            exact h.1
          · intro h
            exact ⟨h, fun _ => .inl h⟩

/-- The new snapshot replaces what the primary held. -/
theorem rename_iff {st : SaveState} (hrec : st.Recorded) (hgood : st.BackupGood)
    (saver : Saver) (new : AppSessionSnapshot) :
    (st.rename saver new).BackupGood ↔
      (liveWorkspaceCount new = 0 → holdsSession st.disk.primary →
        holdsSession st.disk.backup) := by
  show (st.disk.backup.isSome → holdsSession st.disk.backup) ∧
      ((st.saved || liveWorkspaceCount new > 0) →
        holdsSession (some (.snapshot new)) ∨ holdsSession st.disk.backup) ↔ _
  rw [holdsSession_snapshot]
  -- a non-empty snapshot is itself a session; an empty one relies on the backup
  by_cases hlive : liveWorkspaceCount new > 0
  · have hne : liveWorkspaceCount new ≠ 0 := by omega
    simp only [hlive, decide_true, true_or, implies_true, and_true, hne, false_implies, iff_true]
    exact hgood.1
  · have hzero : liveWorkspaceCount new = 0 := by omega
    simp only [hzero, gt_iff_lt, lt_irrefl, decide_false, Bool.or_false, Bool.false_eq_true,
      false_or, true_implies]
    constructor
    · intro h hp
      -- the session that the primary held was recorded as saved
      exact h.2 (hrec (.inl hp))
    · intro h
      refine ⟨hgood.1, fun hsaved => ?_⟩
      rcases hgood.2 hsaved with hp | hb
      · exact h hp
      · exact hb

theorem copyToBackup_primary (disk : Disk) : (copyToBackup disk).primary = disk.primary := by
  unfold copyToBackup
  split
  · rfl
  · rfl

theorem copyToBackup_holds (disk : Disk) :
    holdsSession (copyToBackup disk).backup →
      holdsSession disk.primary ∨ holdsSession disk.backup := by
  unfold copyToBackup
  split
  · exact .inr
  · next h =>
      intro hf
      rw [h]
      exact .inl hf

theorem step_recorded {st st' : SaveState} {a : SaveAction} (hrec : st.Recorded)
    (hstep : step st a = some st') : st'.Recorded := by
  cases a with
  | begin saver new =>
      obtain rfl := step_begin hstep
      obtain ⟨hdisk, hsaved⟩ := begin_frame st saver new
      exact (backupGood_congr st (by rw [hdisk]) (by rw [hdisk]) hsaved).2.mpr hrec
  | copy saver done =>
      obtain ⟨new, _, rfl⟩ := step_copy hstep
      cases done with
      | false => exact hrec
      | true =>
          -- what the backup holds now, the primary held before
          rintro (hp | hb)
          · exact hrec (.inl (copyToBackup_primary st.disk ▸ hp))
          · exact hrec (copyToBackup_holds st.disk hb)
  | write saver =>
      obtain ⟨new, _, rfl⟩ := step_write hstep
      exact hrec
  | rename saver =>
      obtain ⟨new, _, rfl⟩ := step_rename hstep
      show holdsSession (some (.snapshot new)) ∨ holdsSession st.disk.backup →
        (st.saved || liveWorkspaceCount new > 0) = true
      rw [holdsSession_snapshot]
      rintro (hp | hb)
      · simp only [hp, Bool.or_true]
      · simp only [hrec (.inr hb), Bool.true_or]
  | fail saver =>
      obtain rfl := Option.some.inj hstep
      exact hrec
  | load moved =>
      obtain rfl := Option.some.inj hstep
      exact (load_congr st moved).2.mpr hrec
  | restart =>
      obtain rfl := Option.some.inj hstep
      exact hrec

/-- One operation keeps the backup good exactly when it is one that should. -/
theorem step_backupGood_iff {st st' : SaveState} {a : SaveAction} (hrec : st.Recorded)
    (hgood : st.BackupGood) (hstep : step st a = some st') :
    st'.BackupGood ↔ st.KeepsBackup a := by
  have hsame : ∀ {st' : SaveState}, st'.BackupGood → (st'.BackupGood ↔ True) :=
    fun h => iff_true_intro h
  cases a with
  | begin saver new =>
      obtain rfl := step_begin hstep
      obtain ⟨hdisk, hsaved⟩ := begin_frame st saver new
      exact hsame ((backupGood_congr st (by rw [hdisk]) (by rw [hdisk]) hsaved).1.mpr hgood)
  | copy saver done =>
      obtain ⟨new, hphase, rfl⟩ := step_copy hstep
      simp only [KeepsBackup, hphase]
      exact copy_iff hgood done saver _
  | write saver =>
      obtain ⟨new, _, rfl⟩ := step_write hstep
      exact hsame hgood
  | rename saver =>
      obtain ⟨new, hphase, rfl⟩ := step_rename hstep
      simp only [KeepsBackup, hphase]
      exact rename_iff hrec hgood saver new
  | fail saver =>
      obtain rfl := Option.some.inj hstep
      exact hsame hgood
  | load moved =>
      obtain rfl := Option.some.inj hstep
      exact hsame ((load_congr st moved).1.mpr hgood)
  | restart =>
      obtain rfl := Option.some.inj hstep
      exact hsame hgood

end SaveState

/-! ## §5. The sequences that lose a session. -/

/-- A session of one workspace with one terminal. -/
def oneWorkspace : AppSessionSnapshot where
  version          := 1
  windows          :=
    [{ tabManager :=
        { selectedWorkspaceIndex := some 0
          groups                 := []
          workspaces             :=
            [{ processTitle     := "Terminal"
               customTitle      := none
               customColor      := none
               isPinned         := false
               currentDirectory := "/"
               focusedPanelId   := none
               groupId          := none
               layout           := .pane [1] (some 1)
               panels           := [.fromPanel (.newTerminal 1)]
               remoteConfig     := none }] } }]
  closedWorkspaces := []

def noWorkspaces : AppSessionSnapshot where
  version          := 1
  windows          := []
  closedWorkspaces := []

/-- A whole save of a session. -/
def fullSave : List SaveAction :=
  [.begin .autosave oneWorkspace, .copy .autosave true, .write .autosave, .rename .autosave]

/-- A whole save of an empty snapshot. -/
def emptySave : List SaveAction :=
  [.begin .autosave noWorkspaces, .write .autosave, .rename .autosave]

namespace SaveState

end SaveState

end Jmux.Session
