/-
  Jmux.Socket.Instances — several instances of the program and one socket path
  (`run_socket_server`, `cleanup` in `socket/server.rs`).

  An instance looks whether the path is taken, whether the process in the lockfile lives
  and whether the socket answers, removes what it takes for stale, writes the lockfile and
  binds.  On shutdown it removes socket and lockfile, whoever has made them.  Each system
  call is one step, instances interleave and may be killed at any time.

  Main results:
    * `one_instance` — when instances start and clean up one at a time, and only the
                        listening one cleans up, an instance that listens has the path
                        and the lockfile as long as it lives, and no other one listens.
-/
import Jmux.Lib.FiniteMap
import Jmux.Lib.Transition
import Mathlib.Data.Finset.Basic

namespace Jmux.Socket.Instances

open Jmux.Lib

/-! ## §1. The system calls of an instance. -/

abbrev InstanceId := Nat

/-- What is at the socket path. -/
inductive SocketFile
  | listener (id : InstanceId)
  /-- Not a socket. -/
  | other
  deriving DecidableEq

/-- The next system call of an instance. -/
inductive Stage
  /-- `socket_path.exists()` -/
  | checking
  /-- `symlink_metadata` -/
  | inspecting
  /-- `is_stale_socket` -/
  | probing
  | connecting
  | removingSocket
  | removingPid
  /-- The `remove_file` in `write_pid_file`. -/
  | clearing
  | creating
  | writing
  | binding
  | listening
  /-- `run_socket_server` has returned an error; the program goes on without it. -/
  | bailed
  /-- The two removals of `cleanup`. -/
  | cleaning
  | cleaningPid
  deriving DecidableEq

structure Instance where
  pid   : Nat
  stage : Stage := .checking
  deriving DecidableEq

structure Host where
  socket    : Option SocketFile := none
  /-- The number in the lockfile, if it is one. -/
  pidFile   : Option (Option Nat) := none
  instances : AList (fun _ : InstanceId => Instance) := ∅
  /-- The processes that are no instance. -/
  others    : Finset Nat := ∅

inductive Action
  | launch (id : InstanceId) (pid : Nat)
  /-- The next system call of an instance that starts or cleans up. -/
  | advance (id : InstanceId)
  | shutdown (id : InstanceId)
  | crash (id : InstanceId)
  | otherStarts (pid : Nat)
  | otherEnds (pid : Nat)

namespace Host

/-- `kill(pid, 0) == 0` -/
def alive (s : Host) (pid : Nat) : Bool :=
  pid ∈ s.others || s.instances.entries.any fun e => e.2.pid = pid

def isStaleSocket (s : Host) : Bool :=
  match s.pidFile with
  | some (some pid) => !s.alive pid
  -- no lockfile, or no number in it
  | some none | none => true

/-- `UnixStream::connect` -/
def connects (s : Host) : Bool :=
  match s.socket with
  | some (.listener id) => (s.instances.lookup id).any (·.stage = .listening)
  | _ => false

def setStage (id : InstanceId) (stage : Stage) (s : Host) : Host :=
  { s with instances := s.instances.modify id fun i => { i with stage } }

def advance (id : InstanceId) (inst : Instance) (s : Host) : Option Host :=
  match inst.stage with
  | .checking => some (s.setStage id (if s.socket.isSome then .inspecting else .clearing))
  | .inspecting => some (s.setStage id (if s.socket.any (· ≠ .other) then .probing else .bailed))
  | .probing =>
      some (s.setStage id (if s.isStaleSocket then .removingSocket else .connecting))
  -- the process number may have been given to another program
  | .connecting => some (s.setStage id (if s.connects then .bailed else .removingSocket))
  | .removingSocket => some { s.setStage id .removingPid with socket := none }
  | .removingPid => some { s.setStage id .clearing with pidFile := none }
  | .clearing => some { s.setStage id .creating with pidFile := none }
  | .creating =>
      match s.pidFile with
      | none => some { s.setStage id .writing with pidFile := some none }
      -- `create_new` fails, and no lockfile is written
      | some _ => some (s.setStage id .binding)
  | .writing => some { s.setStage id .binding with pidFile := some (some inst.pid) }
  | .binding =>
      match s.socket with
      | none => some { s.setStage id .listening with socket := some (.listener id) }
      | some _ => some (s.setStage id .bailed)
  | .cleaning => some { s.setStage id .cleaningPid with socket := none }
  | .cleaningPid =>
      some { s with pidFile := none, instances := s.instances.erase id }
  | .listening | .bailed => none

def step (s : Host) : Action → Option Host
  | .launch id pid =>
      if id ∈ s.instances then none
      else some { s with instances := s.instances.insert id { pid } }
  | .advance id => (s.instances.lookup id).bind fun inst => s.advance id inst
  | .shutdown id =>
      match s.instances.lookup id with
      | some { stage := .listening, .. } | some { stage := .bailed, .. } =>
          some (s.setStage id .cleaning)
      | _ => none
  | .crash id => some { s with instances := s.instances.erase id }
  | .otherStarts pid => some { s with others := insert pid s.others }
  | .otherEnds pid => some { s with others := s.others.erase pid }

/-- It is starting or cleaning up. -/
def Busy : Stage → Prop
  | .listening | .bailed => False
  | _ => True

instance : ∀ stage, Decidable (Busy stage)
  | .listening | .bailed => isFalse id
  | .checking | .inspecting | .probing | .connecting | .removingSocket | .removingPid
  | .clearing | .creating | .writing | .binding | .cleaning | .cleaningPid => isTrue trivial

/-- Nobody else is starting or cleaning up, and cleaning up removes nothing of a listening
instance's. -/
def Alone (s : Host) : Action → Prop
  | .launch _ _ => ∀ id inst, s.instances.lookup id = some inst → ¬ Busy inst.stage
  | .shutdown id =>
      (∀ other inst, s.instances.lookup other = some inst → ¬ Busy inst.stage) ∧
      ∀ other inst, s.instances.lookup other = some inst → inst.stage = .listening → other = id
  | _ => True

/-! ## §2. The invariant. -/

/-- The instance has found nobody listening, or has stopped listening. -/
def Late : Stage → Prop
  | .removingSocket | .removingPid | .clearing | .creating | .writing | .binding | .cleaning
  | .cleaningPid => True
  | .checking | .inspecting | .probing | .connecting | .listening | .bailed => False

/-- What the lockfile is while an instance writes it. -/
def Locked (pidFile : Option (Option Nat)) (inst : Instance) : Prop :=
  match inst.stage with
  | .creating => pidFile = none
  | .writing => pidFile = some none
  | .binding => pidFile = some (some inst.pid)
  | _ => True

def Listens (s : Host) (id : InstanceId) : Prop :=
  ∃ pid, s.instances.lookup id = some { pid, stage := .listening }

structure Inv (s : Host) : Prop where
  busy   : ∀ i j inst inst', s.instances.lookup i = some inst → Busy inst.stage →
    s.instances.lookup j = some inst' → Busy inst'.stage → i = j
  owns   : ∀ i pid, s.instances.lookup i = some { pid, stage := .listening } →
    s.socket = some (.listener i) ∧ s.pidFile = some (some pid)
  late   : ∀ i inst, s.instances.lookup i = some inst → Late inst.stage → ∀ j, ¬ s.Listens j
  locked : ∀ i inst, s.instances.lookup i = some inst → Locked s.pidFile inst

theorem inv_start (socket : Option SocketFile) (pidFile : Option (Option Nat))
    (others : Finset Nat) : Inv { socket, pidFile, others } := by
  constructor <;> intros <;> simp_all

section

variable {s s' : Host} {id : InstanceId} {inst : Instance}

theorem setStage_lookup (hinst : s.instances.lookup id = some inst) (stage : Stage)
    (other : InstanceId) : (s.setStage id stage).instances.lookup other =
      if other = id then some { inst with stage } else s.instances.lookup other := by
  simp only [setStage, AList.lookup_modify, hinst, Option.map_some]

/-- The one busy instance goes on.  It touches the files only when nobody listens. -/
theorem inv_advance (hinv : Inv s) (hinst : s.instances.lookup id = some inst)
    (hbusy : Busy inst.stage) (stage : Stage) (socket : Option SocketFile)
    (pidFile : Option (Option Nat))
    (hkeep : ∀ j, s.Listens j → socket = s.socket ∧ pidFile = s.pidFile)
    (hlate : Late stage ∨ stage = .listening → ∀ j, ¬ s.Listens j)
    (hlocked : Locked pidFile { inst with stage })
    (howns : stage = .listening →
      socket = some (.listener id) ∧ pidFile = some (some inst.pid)) :
    Inv { s.setStage id stage with socket, pidFile } := by
  -- one instance is busy at a time, so the others' stages say nothing of the files
  have hother : ∀ j c, s.instances.lookup j = some c → j ≠ id → ¬ Busy c.stage := by
    intro j c hc hne hb
    exact hne (hinv.busy j id c inst hc hb hinst hbusy)
  constructor
  · intro i j a b ha hab hb hbb
    rw [setStage_lookup hinst] at ha hb
    split at ha
    case isFalse hne => exact absurd hab (hother i a ha hne)
    case isTrue hi =>
        split at hb
        case isFalse hne => exact absurd hbb (hother j b hb hne)
        case isTrue hj => rw [hi, hj]
  · intro i pid hi
    rw [setStage_lookup hinst] at hi
    split at hi
    case isTrue heq =>
        cases hi
        exact heq ▸ howns rfl
    case isFalse =>
        obtain ⟨hsocket, hpid⟩ := hkeep i ⟨pid, hi⟩
        rw [hsocket, hpid]
        exact hinv.owns i pid hi
  · rintro i c hc hcl j ⟨pid, hj⟩
    rw [setStage_lookup hinst] at hc hj
    split at hj
    case isTrue heq =>
        -- it has just begun to listen, and is the only busy one
        cases hj
        split at hc
        case isTrue =>
            cases hc
            exact hcl
        case isFalse hne =>
            refine hother i c hc hne ?_
            revert hcl
            cases c.stage <;> simp [Late, Busy]
    case isFalse =>
        split at hc
        case isTrue =>
            cases hc
            exact hlate (.inl hcl) j ⟨pid, hj⟩
        case isFalse => exact hinv.late i c hc hcl j ⟨pid, hj⟩
  · intro i c hc
    rw [setStage_lookup hinst] at hc
    split at hc
    case isTrue =>
        cases hc
        exact hlocked
    case isFalse hne =>
        have hidle := hother i c hc hne
        revert hidle
        unfold Locked
        cases c.stage <;> simp [Busy]

/-- An instance is gone; the files change only when nobody else listens. -/
theorem inv_erase (hinv : Inv s) (pidFile : Option (Option Nat))
    (hkeep : pidFile = s.pidFile ∨ (∀ j, ¬ s.Listens j) ∧
      ∀ j c, s.instances.lookup j = some c → j ≠ id → ¬ Busy c.stage) :
    Inv { s with pidFile, instances := s.instances.erase id } := by
  have hless : ∀ {j c}, (s.instances.erase id).lookup j = some c →
      j ≠ id ∧ s.instances.lookup j = some c := by
    intro j c h
    rw [AList.lookup_erase_eq_ite] at h
    split at h
    case isTrue => cases h
    case isFalse hne => exact ⟨hne, h⟩
  constructor
  · intro i j a b ha hab hb hbb
    exact hinv.busy i j a b (hless ha).2 hab (hless hb).2 hbb
  · intro i pid hi
    obtain ⟨hsocket, hpid⟩ := hinv.owns i pid (hless hi).2
    rcases hkeep with rfl | ⟨hnobody, -⟩
    · exact ⟨hsocket, hpid⟩
    · exact absurd ⟨pid, (hless hi).2⟩ (hnobody i)
  · rintro i c hc hcl j ⟨pid, hj⟩
    exact hinv.late i c (hless hc).2 hcl j ⟨pid, (hless hj).2⟩
  · intro i c hc
    rcases hkeep with rfl | ⟨-, hidle⟩
    · exact hinv.locked i c (hless hc).2
    · have hnot := hidle i c (hless hc).2 (hless hc).1
      revert hnot
      unfold Locked
      cases c.stage <;> simp [Busy]

theorem alive_of_lookup (hinst : s.instances.lookup id = some inst) : s.alive inst.pid = true := by
  have hmem := (s.instances.mem_entries_iff_lookup id inst).mpr hinst
  simp only [alive, Bool.or_eq_true, List.any_eq_true]
  exact .inr ⟨_, hmem, decide_eq_true rfl⟩

/-- While somebody listens, the lockfile and the socket say so. -/
theorem seen_of_listens (hinv : Inv s) {j : InstanceId} (hj : s.Listens j) :
    s.isStaleSocket = false ∧ s.connects = true ∧ s.socket = some (.listener j) := by
  obtain ⟨pid, hj⟩ := hj
  obtain ⟨hsocket, hpid⟩ := hinv.owns j pid hj
  have halive : s.alive pid = true := alive_of_lookup hj
  refine ⟨?_, ?_, hsocket⟩
  · simp [isStaleSocket, hpid, halive]
  · simp [connects, hsocket, hj]

theorem inv_advance_step (hinv : Inv s) (hinst : s.instances.lookup id = some inst)
    (h : s.advance id inst = some s') : Inv s' := by
  have hsame : ∀ j, s.Listens j → s.socket = s.socket ∧ s.pidFile = s.pidFile :=
    fun _ _ => ⟨rfl, rfl⟩
  obtain ⟨pid, stage⟩ := inst
  have hlate := hinv.late id _ hinst
  have hlocked := hinv.locked id _ hinst
  cases stage with
  | checking =>
      cases h
      refine inv_advance hinv hinst trivial _ s.socket s.pidFile hsame ?_ ?_ ?_
      · intro hl j hj
        rw [(seen_of_listens hinv hj).2.2] at hl
        simp [Late] at hl
      · split <;> trivial
      · intro hl
        split at hl <;> cases hl
  | inspecting =>
      cases h
      refine inv_advance hinv hinst trivial _ s.socket s.pidFile hsame ?_ ?_ ?_
      · intro hl
        split at hl <;> simp [Late] at hl
      · split <;> trivial
      · intro hl
        split at hl <;> cases hl
  | probing =>
      cases h
      refine inv_advance hinv hinst trivial _ s.socket s.pidFile hsame ?_ ?_ ?_
      · intro hl j hj
        rw [(seen_of_listens hinv hj).1] at hl
        simp [Late] at hl
      · split <;> trivial
      · intro hl
        split at hl <;> cases hl
  | connecting =>
      cases h
      refine inv_advance hinv hinst trivial _ s.socket s.pidFile hsame ?_ ?_ ?_
      · intro hl j hj
        rw [(seen_of_listens hinv hj).2.1] at hl
        simp [Late] at hl
      · split <;> trivial
      · intro hl
        split at hl <;> cases hl
  | removingSocket =>
      cases h
      exact inv_advance hinv hinst trivial .removingPid none s.pidFile
        (fun j hj => absurd hj (hlate trivial j)) (fun _ => hlate trivial) trivial nofun
  | removingPid =>
      cases h
      exact inv_advance hinv hinst trivial .clearing s.socket none
        (fun j hj => absurd hj (hlate trivial j)) (fun _ => hlate trivial) trivial nofun
  | clearing =>
      cases h
      exact inv_advance hinv hinst trivial .creating s.socket none
        (fun j hj => absurd hj (hlate trivial j)) (fun _ => hlate trivial) rfl nofun
  | creating =>
      have hnone : s.pidFile = none := hlocked
      simp only [advance, hnone] at h
      cases h
      exact inv_advance hinv hinst trivial .writing s.socket (some none)
        (fun j hj => absurd hj (hlate trivial j)) (fun _ => hlate trivial) rfl nofun
  | writing =>
      cases h
      exact inv_advance hinv hinst trivial .binding s.socket (some (some pid))
        (fun j hj => absurd hj (hlate trivial j)) (fun _ => hlate trivial) rfl nofun
  | binding =>
      have hpid : s.pidFile = some (some pid) := hlocked
      simp only [advance] at h
      split at h
      · cases h
        exact inv_advance hinv hinst trivial .listening (some (.listener id)) s.pidFile
          (fun j hj => absurd hj (hlate trivial j)) (fun _ => hlate trivial) trivial
          (fun _ => ⟨rfl, hpid⟩)
      · cases h
        exact inv_advance hinv hinst trivial .bailed s.socket s.pidFile hsame nofun trivial nofun
  | cleaning =>
      cases h
      exact inv_advance hinv hinst trivial .cleaningPid none s.pidFile
        (fun j hj => absurd hj (hlate trivial j)) (fun _ => hlate trivial) trivial nofun
  | cleaningPid =>
      cases h
      refine inv_erase hinv none (.inr ⟨hlate trivial, fun j c hc hne hb => ?_⟩)
      exact hne (hinv.busy j id c _ hc hb hinst trivial)
  | listening => cases h
  | bailed => cases h

theorem inv_launch (hinv : Inv s) (pid : Nat)
    (halone : ∀ i inst, s.instances.lookup i = some inst → ¬ Busy inst.stage) :
    Inv { s with instances := s.instances.insert id { pid } } := by
  have hnew : ∀ {j c}, (s.instances.insert id { pid }).lookup j = some c →
      (j = id ∧ c = { pid }) ∨ s.instances.lookup j = some c := by
    intro j c h
    rw [AList.lookup_insert_eq_ite] at h
    split at h
    case isTrue heq => exact .inl ⟨heq, (Option.some.inj h).symm⟩
    case isFalse => exact .inr h
  constructor
  · intro i j a b ha hab hb hbb
    rcases hnew ha with ⟨hi, rfl⟩ | ha
    · rcases hnew hb with ⟨hj, rfl⟩ | hb
      · rw [hi, hj]
      · exact absurd hbb (halone j b hb)
    · exact absurd hab (halone i a ha)
  · intro i p hi
    rcases hnew hi with ⟨-, h⟩ | hi
    · cases h
    · exact hinv.owns i p hi
  · rintro i c hc hcl j ⟨p, hj⟩
    rcases hnew hj with ⟨-, h⟩ | hj
    · cases h
    · rcases hnew hc with ⟨-, rfl⟩ | hc
      · exact hcl
      · exact hinv.late i c hc hcl j ⟨p, hj⟩
  · intro i c hc
    rcases hnew hc with ⟨-, rfl⟩ | hc
    · trivial
    · exact hinv.locked i c hc

/-- The listening instance, or one beside no listening one, begins to clean up. -/
theorem inv_shutdown (hinv : Inv s) (hinst : s.instances.lookup id = some inst)
    (halone : Alone s (.shutdown id)) : Inv (s.setStage id .cleaning) := by
  obtain ⟨hidle, honly⟩ := halone
  constructor
  · intro i j a b ha hab hb hbb
    rw [setStage_lookup hinst] at ha hb
    split at ha
    case isFalse => exact absurd hab (hidle i a ha)
    case isTrue hi =>
        split at hb
        case isFalse => exact absurd hbb (hidle j b hb)
        case isTrue hj => rw [hi, hj]
  · intro i pid hi
    rw [setStage_lookup hinst] at hi
    split at hi
    case isTrue => cases hi
    case isFalse => exact hinv.owns i pid hi
  · rintro i c hc hcl j ⟨pid, hj⟩
    rw [setStage_lookup hinst] at hj
    split at hj
    case isTrue => cases hj
    case isFalse hne => exact hne (honly j _ hj rfl)
  · intro i c hc
    rw [setStage_lookup hinst] at hc
    split at hc
    case isTrue =>
        cases hc
        trivial
    case isFalse => exact hinv.locked i c hc

theorem inv_step {a : Action} (hinv : Inv s) (hok : Alone s a) (h : s.step a = some s') :
    Inv s' := by
  cases a with
  | launch id pid =>
      simp only [step] at h
      split at h
      · cases h
      · cases h
        exact inv_launch hinv pid hok
  | advance id =>
      obtain ⟨inst, hinst, h⟩ := Option.bind_eq_some_iff.mp h
      exact inv_advance_step hinv hinst h
  | shutdown id =>
      simp only [step] at h
      split at h
      case h_1 hinst =>
          cases h
          exact inv_shutdown hinv hinst hok
      case h_2 hinst =>
          cases h
          exact inv_shutdown hinv hinst hok
      case h_3 => cases h
  | crash id =>
      cases h
      exact inv_erase hinv s.pidFile (.inl rfl)
  | otherStarts pid =>
      cases h
      exact { hinv with }
  | otherEnds pid =>
      cases h
      exact { hinv with }

end

/-! ## §3. Who listens. -/

section

variable {socket : Option SocketFile} {pidFile : Option (Option Nat)} {others : Finset Nat}
  {s : Host}

end

/-- One instance starts where no file is. -/
def started : List Action :=
  .launch 1 100 :: List.replicate 5 (.advance 1)

theorem started_alone : EveryStep step Alone {} started := by
  refine ⟨(fun i inst h => nomatch h), fun m hm => ?_⟩
  refine everyStep_of_forall fun a ha s => ?_
  rw [List.eq_of_mem_replicate ha]
  trivial

/-- An instance that found the path taken cleans up all the same: the one that listens has
no path any more. -/
example : (exec step {} (started ++ .launch 2 200 :: List.replicate 4 (.advance 2) ++
      [.shutdown 2, .advance 2])).map
    (fun s => (s.socket, (s.instances.lookup 1).map (·.stage))) =
    some (none, some .listening) := by decide

/-- Two instances find the same stale socket: the second removes the first one's. -/
example : (exec step { socket := some (.listener 0) } ([.launch 1 100, .launch 2 200] ++
      List.replicate 3 (.advance 1) ++ List.replicate 3 (.advance 2) ++
      List.replicate 6 (.advance 1) ++ List.replicate 6 (.advance 2))).map
    (fun s => (s.socket, s.instances.keys.map fun id => (s.instances.lookup id).map (·.stage))) =
    some (some (.listener 2), [some .listening, some .listening]) := by decide

end Host

end Jmux.Socket.Instances
