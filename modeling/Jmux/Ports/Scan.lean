/-
  Jmux.Ports.Scan — which ports are shown at which panel (`scan_and_update` in
  `port_scanner.rs`).

  Three tables are joined: the listening sockets, the processes that have one of
  them open, and the directories of the panels.  The processes are filtered by
  their working directory first.

  Main results:
    * `scan_ports`             — what the passes come to: the text of the directory
                                  begins the working directory.
    * `ports_attributed_iff`   — when that is the same as lying below it.
-/
import Jmux.Lib.PathComponents
import Jmux.Ports.ProcTables
import Jmux.Socket.Telemetry
import Mathlib.Data.List.Destutter

namespace Jmux.Ports

open Jmux.Lib Jmux.Model Jmux.Socket

/-! ## §1. The passes. -/

/-- The directories of the panels. -/
def workspaceDirs (tm : TabManager) : List (Uuid × String) :=
  tm.workspaces.flatMap fun ws =>
    ws.panels.vals.filterMap fun panel => panel.directory.map fun dir => (panel.id, dir)

/-- What `map.entry(key).or_default().push(x)` has collected under a key. -/
def collected {κ β : Type} [DecidableEq κ] (pushes : List (κ × β)) (key : κ) : List β :=
  (pushes.filter (·.1 = key)).map (·.2)

/-- One entry of `/proc`. -/
def collectPid (fs : ProcFs) (dirs : List (Uuid × String)) (result : AList fun _ : Nat => String)
    (name : String) : AList fun _ : Nat => String :=
  match Str.parseU32 name.toList with
  | none => result
  | some pid =>
      match fs.cwdLink pid with
      | none => result
      | some cwd =>
          if dirs.any fun d => Str.startsWith cwd d.2 then result.insert pid cwd else result

/-- The processes whose working directory begins with one of the directories. -/
def collectCandidatePidCwds (fs : ProcFs) (dirs : List (Uuid × String)) :
    Option (AList fun _ : Nat => String) :=
  fs.names.map fun names => names.foldl (collectPid fs dirs) ∅

/-- The inodes of the sockets that a process has open. -/
def openSockets (fs : ProcFs) (pid : Nat) : List Nat :=
  ((fs.fdLinks pid).getD []).filterMap fun link => link.bind socketInode

def mapInodesToPids (fs : ProcFs) (listening : List (Nat × Nat))
    (pidCwds : AList fun _ : Nat => String) : List (Nat × Nat) :=
  pidCwds.keys.flatMap fun pid =>
    ((openSockets fs pid).filter (· ∈ listening.map (·.1))).map fun inode => (inode, pid)

/-- The loops that find the panels of a port. -/
def matchPorts (listening inodeToPids : List (Nat × Nat)) (pidCwds : AList fun _ : Nat => String)
    (dirs : List (Uuid × String)) : List (Uuid × Nat) :=
  listening.flatMap fun socket =>
    (collected inodeToPids socket.1).flatMap fun pid =>
      match pidCwds.lookup pid with
      | none => []
      | some cwd =>
          (dirs.filter fun d => Str.startsWith cwd d.2 || decide (cwd = d.2)).map fun d =>
            (d.1, socket.2)

/-- `sort_unstable` and `dedup`. -/
def sortDedup (ports : List Nat) : List Nat := (ports.mergeSort (· ≤ ·)).destutter (· ≠ ·)

/-- The ids of the panels, as they know them. -/
def panelIds (tm : TabManager) : List Uuid := tm.workspaces.flatMap (·.panels.vals.map (·.id))

/-- The panels get their new ports; whether one of them had others before. -/
def updatePorts (s : Telemetry) (ports : Uuid → List Nat) : Telemetry × Bool :=
  ({ s with panelPorts := fun id => if id ∈ panelIds s.tm then ports id else s.panelPorts id },
    (panelIds s.tm).any fun id => s.panelPorts id ≠ ports id)

/-- One scan; `none` if the processes cannot be listed. -/
def scanAndUpdate (fs : ProcFs) (s : Telemetry) : Option (Telemetry × Bool) :=
  let dirs := workspaceDirs s.tm
  if dirs = [] then some (s, false)
  else
    let listening := readListeningInodes fs
    if listening = [] then some (updatePorts s fun _ => [])
    else
      (collectCandidatePidCwds fs dirs).map fun pidCwds =>
        let ports := matchPorts listening (mapInodesToPids fs listening pidCwds) pidCwds dirs
        updatePorts s fun id => sortDedup (collected ports id)

/-! ## §2. The tables. -/

/-- A machine: its sockets and its processes. -/
structure Machine where
  /-- `none`: without the table. -/
  tcp   : Option SocketTable
  tcp6  : Option SocketTable
  /-- The names in `/proc`; those of processes are numbers. -/
  names : List String
  cwd   : Nat → Option String
  fds   : Nat → Option (List (Option FdTarget))

namespace Machine

/-- How it shows in `/proc`. -/
def procFs (m : Machine) : ProcFs where
  tcp     := m.tcp.map (·.text)
  tcp6    := m.tcp6.map (·.text)
  names   := some m.names
  cwdLink := m.cwd
  fdLinks pid := (m.fds pid).map fun links => links.map fun link => link.map (·.text)

def rows (m : Machine) : List SocketRow := [m.tcp, m.tcp6].flatMap fun t => (t.map (·.rows)).getD []

def pids (m : Machine) : List Nat := m.names.filterMap fun name => Str.parseU32 name.toList

/-- The process has the socket open. -/
def Owns (m : Machine) (pid inode : Nat) : Prop :=
  ∃ links, m.fds pid = some links ∧ ∃ h, some (FdTarget.socket inode h) ∈ links

/-- The process owns a socket that listens on the port. -/
def Listens (m : Machine) (pid port : Nat) : Prop :=
  pid ∈ m.pids ∧ ∃ row ∈ m.rows, row.state = tcpListen ∧ row.port = port ∧ m.Owns pid row.inode

/-- A process that listens on the port works in a directory that matches. -/
def ListensIn (m : Machine) (matching : String → Prop) (port : Nat) : Prop :=
  ∃ pid cwd, m.Listens pid port ∧ m.cwd pid = some cwd ∧ matching cwd

end Machine

/-- The directory, component by component. -/
def BelowDir (dir cwd : String) : Prop := Path.Below dir.toList cwd.toList

/-- The directory as text. -/
def BeginsWith (dir cwd : String) : Prop := dir.toList <+: cwd.toList

/-! ## §3. What each pass comes to. -/

theorem mem_destutter'_ne {a x : Nat} {l : List Nat} (h : x = a ∨ x ∈ l) :
    x ∈ l.destutter' (· ≠ ·) a := by
  induction l generalizing a with
  | nil =>
      rcases h with rfl | h
      · exact List.mem_singleton_self x
      · cases h
  | cons b l ih =>
      rw [List.destutter'_cons]
      split
      · rcases h with rfl | h
        · exact List.mem_cons_self
        · exact List.mem_cons_of_mem a (ih (List.mem_cons.mp h))
      next hne =>
        obtain rfl : a = b := not_not.mp hne
        refine ih ?_
        rcases h with h | h
        · exact .inl h
        · exact List.mem_cons.mp h

theorem mem_sortDedup (ports : List Nat) (p : Nat) : p ∈ sortDedup ports ↔ p ∈ ports := by
  have hsorted : p ∈ ports.mergeSort (· ≤ ·) ↔ p ∈ ports := List.mem_mergeSort
  rw [← hsorted, sortDedup]
  constructor
  · intro h
    exact (List.destutter_sublist _ _).subset h
  · cases ports.mergeSort (· ≤ ·) with
    | nil => exact id
    | cons a l =>
        intro h
        exact mem_destutter'_ne (List.mem_cons.mp h)

theorem mem_collected {κ β : Type} [DecidableEq κ] {pushes : List (κ × β)} {key : κ} {b : β} :
    b ∈ collected pushes key ↔ (key, b) ∈ pushes := by
  unfold collected
  rw [List.mem_map]
  constructor
  · rintro ⟨⟨k, b'⟩, h, rfl⟩
    obtain ⟨hmem, hk⟩ := List.mem_filter.mp h
    obtain rfl : k = key := by simpa using hk
    exact hmem
  · intro h
    exact ⟨(key, b), List.mem_filter.mpr ⟨h, by simp⟩, rfl⟩

/-- The working directory of a process that passes the first filter. -/
def candidateCwd (fs : ProcFs) (dirs : List (Uuid × String)) (pid : Nat) : Option String :=
  (fs.cwdLink pid).filter fun cwd => dirs.any fun d => Str.startsWith cwd d.2

theorem lookup_collectPid (fs : ProcFs) (dirs : List (Uuid × String))
    (result : AList fun _ : Nat => String) (name : String) (pid : Nat) :
    (collectPid fs dirs result name).lookup pid =
      if Str.parseU32 name.toList = some pid then
        (candidateCwd fs dirs pid).or (result.lookup pid)
      else result.lookup pid := by
  unfold collectPid candidateCwd
  cases Str.parseU32 name.toList with
  | none => simp
  | some pid' =>
      by_cases hpid : pid' = pid
      · subst hpid
        rw [if_pos rfl]
        dsimp only
        cases fs.cwdLink pid' with
        | none => rfl
        | some cwd =>
            dsimp only
            by_cases hany : (dirs.any fun d => Str.startsWith cwd d.2) = true
            · rw [if_pos hany, AList.lookup_insert, Option.filter_some, if_pos hany, Option.some_or]
            · rw [if_neg hany, Option.filter_some, if_neg hany, Option.none_or]
      · rw [if_neg (by simpa using hpid)]
        have hother : ∀ cwd, (result.insert pid' cwd).lookup pid = result.lookup pid := by
          intro cwd
          rw [AList.lookup_insert_eq_ite, if_neg (Ne.symm hpid)]
        dsimp only
        split
        · rfl
        · split
          · exact hother _
          · rfl

/-- **The first pass**: the processes that the filter lets through. -/
theorem lookup_foldl_collectPid (fs : ProcFs) (dirs : List (Uuid × String)) (names : List String)
    (result : AList fun _ : Nat => String) (pid : Nat) :
    (names.foldl (collectPid fs dirs) result).lookup pid =
      if pid ∈ names.filterMap (fun name => Str.parseU32 name.toList) then
        (candidateCwd fs dirs pid).or (result.lookup pid)
      else result.lookup pid := by
  induction names generalizing result with
  | nil => rfl
  | cons name names ih =>
      rw [List.foldl_cons, ih, lookup_collectPid]
      have hmem : pid ∈ (name :: names).filterMap (fun name => Str.parseU32 name.toList) ↔
          Str.parseU32 name.toList = some pid ∨
            pid ∈ names.filterMap (fun name => Str.parseU32 name.toList) := by
        simp only [List.mem_filterMap, List.mem_cons, exists_eq_or_imp]
      by_cases hrest : pid ∈ names.filterMap (fun name => Str.parseU32 name.toList)
      · rw [if_pos hrest, if_pos (hmem.mpr (.inr hrest))]
        split
        · cases candidateCwd fs dirs pid <;> rfl
        · rfl
      · rw [if_neg hrest]
        exact if_congr (hmem.trans (or_iff_left hrest)).symm rfl rfl

theorem mem_mapInodesToPids {fs : ProcFs} {listening : List (Nat × Nat)}
    {pidCwds : AList fun _ : Nat => String} {inode pid : Nat} :
    (inode, pid) ∈ mapInodesToPids fs listening pidCwds ↔
      pid ∈ pidCwds.keys ∧ inode ∈ openSockets fs pid ∧ inode ∈ listening.map (·.1) := by
  unfold mapInodesToPids
  rw [List.mem_flatMap]
  constructor
  · rintro ⟨pid', hpid, h⟩
    obtain ⟨inode', hinode, heq⟩ := List.mem_map.mp h
    obtain ⟨rfl, rfl⟩ := Prod.mk.inj heq
    obtain ⟨hopen, hlisten⟩ := List.mem_filter.mp hinode
    exact ⟨hpid, hopen, by simpa using hlisten⟩
  · rintro ⟨hpid, hopen, hlisten⟩
    exact ⟨pid, hpid, List.mem_map.mpr ⟨inode, List.mem_filter.mpr ⟨hopen, by simpa using hlisten⟩, rfl⟩⟩

theorem mem_matchPorts {listening inodeToPids : List (Nat × Nat)}
    {pidCwds : AList fun _ : Nat => String} {dirs : List (Uuid × String)} {id : Uuid} {port : Nat} :
    (id, port) ∈ matchPorts listening inodeToPids pidCwds dirs ↔
      ∃ inode, (inode, port) ∈ listening ∧ ∃ pid cwd, (inode, pid) ∈ inodeToPids ∧
        pidCwds.lookup pid = some cwd ∧ ∃ dir, (id, dir) ∈ dirs ∧ BeginsWith dir cwd := by
  have hbegins : ∀ dir cwd : String, (Str.startsWith cwd dir || decide (cwd = dir)) = true ↔
      BeginsWith dir cwd := by
    intro dir cwd
    rw [Bool.or_eq_true, Str.startsWith, List.isPrefixOf_iff_prefix, decide_eq_true_eq]
    constructor
    · rintro (h | rfl)
      · exact h
      · exact List.prefix_refl _
    · exact .inl
  unfold matchPorts
  rw [List.mem_flatMap]
  constructor
  · rintro ⟨⟨inode, port'⟩, hlisten, h⟩
    obtain ⟨pid, hpid, h⟩ := List.mem_flatMap.mp h
    cases hcwd : pidCwds.lookup pid with
    | none =>
        rw [hcwd] at h
        cases h
    | some cwd =>
        rw [hcwd] at h
        obtain ⟨⟨id', dir⟩, hdir, heq⟩ := List.mem_map.mp h
        obtain ⟨rfl, rfl⟩ := Prod.mk.inj heq
        obtain ⟨hmem, hmatch⟩ := List.mem_filter.mp hdir
        exact ⟨inode, hlisten, pid, cwd, mem_collected.mp hpid, hcwd, dir, hmem,
          (hbegins dir cwd).mp hmatch⟩
  · rintro ⟨inode, hlisten, pid, cwd, hpid, hcwd, dir, hdir, hmatch⟩
    refine ⟨(inode, port), hlisten, List.mem_flatMap.mpr ⟨pid, mem_collected.mpr hpid, ?_⟩⟩
    rw [hcwd]
    exact List.mem_map.mpr ⟨(id, dir), List.mem_filter.mpr ⟨hdir, (hbegins dir cwd).mpr hmatch⟩, rfl⟩

/-! ### On a machine. -/

theorem mem_readListeningInodes (m : Machine) {inode port : Nat} :
    (inode, port) ∈ readListeningInodes m.procFs ↔
      ∃ row ∈ m.rows, row.state = tcpListen ∧ row.inode = inode ∧ row.port = port := by
  have htable : ∀ t : Option SocketTable, readTable (t.map (·.text)) =
      (((t.map (·.rows)).getD []).filter (·.state = tcpListen)).map
        fun row => (row.inode, row.port) := by
    intro t
    cases t with
    | none => rfl
    | some table => exact readTable_text table
  have hboth : readListeningInodes m.procFs =
      (m.rows.filter (·.state = tcpListen)).map fun row => (row.inode, row.port) := by
    unfold readListeningInodes Machine.rows Machine.procFs
    simp only [List.flatMap_cons, List.flatMap_nil, List.append_nil, htable, List.filter_append,
      List.map_append]
  rw [hboth, List.mem_map]
  constructor
  · rintro ⟨row, hrow, heq⟩
    obtain ⟨rfl, rfl⟩ := Prod.mk.inj heq
    obtain ⟨hmem, hstate⟩ := List.mem_filter.mp hrow
    exact ⟨row, hmem, by simpa using hstate, rfl, rfl⟩
  · rintro ⟨row, hmem, hstate, rfl, rfl⟩
    exact ⟨row, List.mem_filter.mpr ⟨hmem, by simpa using hstate⟩, rfl⟩

theorem mem_openSockets (m : Machine) {pid inode : Nat} :
    inode ∈ openSockets m.procFs pid ↔ m.Owns pid inode := by
  have hlinks : m.procFs.fdLinks pid =
      (m.fds pid).map fun links => links.map fun link => link.map (·.text) := rfl
  unfold openSockets Machine.Owns
  rw [hlinks]
  cases m.fds pid with
  | none => simp
  | some links =>
      rw [Option.map_some, Option.getD_some, List.mem_filterMap]
      constructor
      · rintro ⟨text, htext, hinode⟩
        obtain ⟨target, htarget, rfl⟩ := List.mem_map.mp htext
        cases target with
        | none => cases hinode
        | some target =>
            rw [Option.map_some, Option.bind_some, socketInode_text] at hinode
            cases target with
            | other text h => cases hinode
            | socket inode' h =>
                obtain rfl := Option.some.inj hinode
                exact ⟨links, rfl, h, htarget⟩
      · rintro ⟨links', hlinks', h, hmem⟩
        obtain rfl := Option.some.inj hlinks'
        refine ⟨some (FdTarget.socket inode h).text, List.mem_map.mpr ⟨_, hmem, rfl⟩, ?_⟩
        rw [Option.bind_some, socketInode_text]

/-! ### On the panels. -/

theorem mem_vals_iff {panels : Panels} {panel : Panel} :
    panel ∈ panels.vals ↔ ∃ id, panels.lookup id = some panel := by
  unfold AList.vals
  rw [List.mem_map]
  constructor
  · rintro ⟨⟨id, panel'⟩, hmem, rfl⟩
    exact ⟨id, AList.mem_lookup_iff.mpr hmem⟩
  · rintro ⟨id, h⟩
    exact ⟨⟨id, panel⟩, AList.mem_lookup_iff.mp h, rfl⟩

/-- A panel of some workspace is the one with its id. -/
theorem panelOf_iff {tm : TabManager} (hd : DistinctIds tm) {id : Uuid} {panel : Panel} :
    panelOf tm id = some panel ↔ ∃ ws ∈ tm.workspaces, panel ∈ ws.panels.vals ∧ panel.id = id := by
  constructor
  · intro h
    obtain ⟨ws, hf, hl⟩ := Option.bind_eq_some_iff.mp h
    have hws : ws ∈ tm.workspaces := List.mem_of_find?_eq_some hf
    exact ⟨ws, hws, mem_vals_iff.mpr ⟨id, hl⟩, hd.keyed ws hws id panel hl⟩
  · rintro ⟨ws, hws, hpanel, rfl⟩
    obtain ⟨id, hl⟩ := mem_vals_iff.mp hpanel
    obtain rfl := hd.keyed ws hws id panel hl
    have hmem : panel.id ∈ ws.panels := AList.lookup_isSome.mp (by rw [hl]; rfl)
    rw [panelOf, findWorkspaceWithPanel_eq hd hws hmem]
    exact hl

theorem mem_workspaceDirs {tm : TabManager} (hd : DistinctIds tm) {id : Uuid} {dir : String} :
    (id, dir) ∈ workspaceDirs tm ↔ ∃ panel, panelOf tm id = some panel ∧ panel.directory = some dir := by
  unfold workspaceDirs
  simp only [List.mem_flatMap, List.mem_filterMap, panelOf_iff hd]
  constructor
  · rintro ⟨ws, hws, panel, hpanel, hdir⟩
    obtain ⟨dir', hdir', heq⟩ := Option.map_eq_some_iff.mp hdir
    obtain ⟨rfl, rfl⟩ := Prod.mk.inj heq
    exact ⟨panel, ⟨ws, hws, hpanel, rfl⟩, hdir'⟩
  · rintro ⟨panel, ⟨ws, hws, hpanel, rfl⟩, hdir⟩
    exact ⟨ws, hws, panel, hpanel, by rw [hdir]; rfl⟩

theorem mem_panelIds {tm : TabManager} (hd : DistinctIds tm) {id : Uuid} {panel : Panel}
    (h : panelOf tm id = some panel) : id ∈ panelIds tm := by
  obtain ⟨ws, hws, hpanel, hid⟩ := (panelOf_iff hd).mp h
  exact List.mem_flatMap.mpr ⟨ws, hws, List.mem_map.mpr ⟨panel, hpanel, hid⟩⟩

/-! ## §4. The scan. -/

variable {m : Machine} {s : Telemetry}

theorem candidateCwd_of_begins {dirs : List (Uuid × String)} {pid : Nat} {id : Uuid}
    {dir cwd : String} (hcwd : m.cwd pid = some cwd) (hdir : (id, dir) ∈ dirs)
    (h : BeginsWith dir cwd) : candidateCwd m.procFs dirs pid = some cwd := by
  have hany : (dirs.any fun d => Str.startsWith cwd d.2) = true :=
    List.any_eq_true.mpr ⟨(id, dir), hdir, List.isPrefixOf_iff_prefix.mpr h⟩
  exact Option.filter_eq_some_iff.mpr ⟨hcwd, hany⟩

/-- The join of the three tables. -/
theorem mem_joined {dirs : List (Uuid × String)} {pidCwds : AList fun _ : Nat => String}
    (h : collectCandidatePidCwds m.procFs dirs = some pidCwds) {id : Uuid} {port : Nat} :
    (id, port) ∈ matchPorts (readListeningInodes m.procFs)
        (mapInodesToPids m.procFs (readListeningInodes m.procFs) pidCwds) pidCwds dirs ↔
      ∃ dir, (id, dir) ∈ dirs ∧ m.ListensIn (BeginsWith dir) port := by
  have hlookup : ∀ pid cwd, pidCwds.lookup pid = some cwd ↔
      pid ∈ m.pids ∧ candidateCwd m.procFs dirs pid = some cwd := by
    intro pid cwd
    obtain rfl := Option.some.inj h
    have hpids : m.names.filterMap (fun name => Str.parseU32 name.toList) = m.pids := rfl
    rw [lookup_foldl_collectPid, AList.lookup_empty, Option.or_none, hpids]
    by_cases hpid : pid ∈ m.pids
    · rw [if_pos hpid, and_iff_right hpid]
    · rw [if_neg hpid]
      exact iff_of_false (by simp) fun hc => hpid hc.1
  rw [mem_matchPorts]
  constructor
  · rintro ⟨inode, hlisten, pid, cwd, hpid, hcwd, dir, hdir, hbegins⟩
    obtain ⟨row, hrow, hstate, rfl, rfl⟩ := (mem_readListeningInodes m).mp hlisten
    obtain ⟨-, hopen, -⟩ := mem_mapInodesToPids.mp hpid
    obtain ⟨hmem, hcand⟩ := (hlookup pid cwd).mp hcwd
    exact ⟨dir, hdir, pid, cwd, ⟨hmem, row, hrow, hstate, rfl, (mem_openSockets m).mp hopen⟩,
      (Option.filter_eq_some_iff.mp hcand).1, hbegins⟩
  · rintro ⟨dir, hdir, pid, cwd, ⟨hmem, row, hrow, hstate, rfl, howns⟩, hcwd, hbegins⟩
    have hlisten : (row.inode, row.port) ∈ readListeningInodes m.procFs :=
      (mem_readListeningInodes m).mpr ⟨row, hrow, hstate, rfl, rfl⟩
    have hl : pidCwds.lookup pid = some cwd :=
      (hlookup pid cwd).mpr ⟨hmem, candidateCwd_of_begins hcwd hdir hbegins⟩
    refine ⟨row.inode, hlisten, pid, cwd, mem_mapInodesToPids.mpr ⟨?_, ?_, ?_⟩, hl, dir, hdir, hbegins⟩
    · exact AList.mem_keys.mp (AList.lookup_isSome.mp (by rw [hl]; rfl))
    · exact (mem_openSockets m).mpr howns
    · exact List.mem_map_of_mem hlisten

/-- **What a scan comes to**: a port is shown at a panel exactly if a process that
listens on it works in a directory that begins with the text of the panel's. -/
theorem scan_ports (hd : DistinctIds s.tm) (m : Machine) :
    ∃ served, scanAndUpdate m.procFs s = some served ∧
      ∀ id panel dir, panelOf s.tm id = some panel → panel.directory = some dir →
        ∀ port, port ∈ served.1.panelPorts id ↔ m.ListensIn (BeginsWith dir) port := by
  unfold scanAndUpdate
  dsimp only
  by_cases hdirs : workspaceDirs s.tm = []
  · rw [if_pos hdirs]
    refine ⟨_, rfl, fun id panel dir hpanel hdir => ?_⟩
    have hmem := (mem_workspaceDirs hd).mpr ⟨panel, hpanel, hdir⟩
    rw [hdirs] at hmem
    cases hmem
  · rw [if_neg hdirs]
    by_cases hlisten : readListeningInodes m.procFs = []
    · rw [if_pos hlisten]
      refine ⟨_, rfl, fun id panel dir hpanel hdir port => ?_⟩
      refine iff_of_false ?_ ?_
      · show port ∉ (if id ∈ panelIds s.tm then [] else s.panelPorts id)
        rw [if_pos (mem_panelIds hd hpanel)]
        exact List.not_mem_nil
      · rintro ⟨pid, cwd, ⟨-, row, hrow, hstate, -, -⟩, -, -⟩
        have hmem := (mem_readListeningInodes m).mpr ⟨row, hrow, hstate, rfl, rfl⟩
        rw [hlisten] at hmem
        cases hmem
    · rw [if_neg hlisten]
      have hcollect : collectCandidatePidCwds m.procFs (workspaceDirs s.tm) = some _ := rfl
      refine ⟨_, rfl, fun id panel dir hpanel hdir port => ?_⟩
      have hports : ∀ ports : Uuid → List Nat, (updatePorts s ports).1.panelPorts id = ports id :=
        fun ports => if_pos (mem_panelIds hd hpanel)
      rw [hports, mem_sortDedup, mem_collected, mem_joined hcollect]
      constructor
      · rintro ⟨dir', hdir', h⟩
        obtain ⟨panel', hpanel', hd'⟩ := (mem_workspaceDirs hd).mp hdir'
        obtain rfl := Option.some.inj (hpanel.symm.trans hpanel')
        obtain rfl := Option.some.inj (hdir.symm.trans hd')
        exact h
      · intro h
        exact ⟨dir, (mem_workspaceDirs hd).mpr ⟨panel, hpanel, hdir⟩, h⟩

/-! ## §5. Text and components. -/

/-- Every port is shown at the panels above its processes and nowhere else. -/
def Attributed (m : Machine) (s s' : Telemetry) : Prop :=
  ∀ id panel dir, panelOf s.tm id = some panel → panel.directory = some dir →
    ∀ port, port ∈ s'.panelPorts id ↔ m.ListensIn (BelowDir dir) port

/-- Where the text of a panel's directory begins the working directory of a process that
listens and the process is not below it, or the other way round, another process that
listens on the same port makes up for it. -/
def DirsApart (m : Machine) (s : Telemetry) : Prop :=
  ∀ id panel dir, panelOf s.tm id = some panel → panel.directory = some dir →
    ∀ pid port cwd, m.Listens pid port → m.cwd pid = some cwd →
      (BeginsWith dir cwd → ¬ BelowDir dir cwd → m.ListensIn (BelowDir dir) port) ∧
        (BelowDir dir cwd → ¬ BeginsWith dir cwd → m.ListensIn (BeginsWith dir) port)

/-- **Ports are attributed correctly** exactly where no directory is taken for another by
its text. -/
theorem ports_attributed_iff (hd : DistinctIds s.tm) (m : Machine) :
    ∃ served, scanAndUpdate m.procFs s = some served ∧
      (Attributed m s served.1 ↔ DirsApart m s) := by
  obtain ⟨served, hserved, hports⟩ := scan_ports hd m
  refine ⟨served, hserved, ?_⟩
  constructor
  · intro h id panel dir hpanel hdir pid port cwd hlisten hcwd
    have hboth : m.ListensIn (BeginsWith dir) port ↔ m.ListensIn (BelowDir dir) port :=
      (hports id panel dir hpanel hdir port).symm.trans (h id panel dir hpanel hdir port)
    constructor
    · intro hbegins _
      exact hboth.mp ⟨pid, cwd, hlisten, hcwd, hbegins⟩
    · intro hbelow _
      exact hboth.mpr ⟨pid, cwd, hlisten, hcwd, hbelow⟩
  · intro h id panel dir hpanel hdir port
    rw [hports id panel dir hpanel hdir port]
    constructor
    · rintro ⟨pid, cwd, hlisten, hcwd, hbegins⟩
      by_cases hbelow : BelowDir dir cwd
      · exact ⟨pid, cwd, hlisten, hcwd, hbelow⟩
      · exact (h id panel dir hpanel hdir pid port cwd hlisten hcwd).1 hbegins hbelow
    · rintro ⟨pid, cwd, hlisten, hcwd, hbelow⟩
      by_cases hbegins : BeginsWith dir cwd
      · exact ⟨pid, cwd, hlisten, hcwd, hbegins⟩
      · exact (h id panel dir hpanel hdir pid port cwd hlisten hcwd).2 hbelow hbegins

/-- A directory with a plain absolute path is never missed: its text begins the working
directory of every process below it. -/
theorem beginsWith_of_belowDir {dirNames names : List (List Char)}
    (hdir : ∀ name ∈ dirNames, Path.Segment name) (hcwd : ∀ name ∈ names, Path.Segment name)
    (h : BelowDir (String.ofList (Path.absolute dirNames)) (String.ofList (Path.absolute names))) :
    BeginsWith (String.ofList (Path.absolute dirNames)) (String.ofList (Path.absolute names)) := by
  unfold BelowDir at h
  unfold BeginsWith
  rw [String.toList_ofList, String.toList_ofList] at h ⊢
  exact Path.prefix_of_below hdir hcwd h

/-- It is taken for that of a sibling whose name goes on from its own. -/
theorem beginsWith_not_belowDir_iff {dirNames names : List (List Char)}
    (hdir : ∀ name ∈ dirNames, Path.Segment name) (hcwd : ∀ name ∈ names, Path.Segment name) :
    (BeginsWith (String.ofList (Path.absolute dirNames)) (String.ofList (Path.absolute names)) ∧
      ¬ BelowDir (String.ofList (Path.absolute dirNames)) (String.ofList (Path.absolute names))) ↔
      ∃ front last name, dirNames = front ++ [last] ∧ last <+: name ∧ last ≠ name ∧
        front ++ [name] <+: names := by
  unfold BelowDir BeginsWith
  rw [String.toList_ofList, String.toList_ofList]
  exact Path.sibling_iff hdir hcwd

/-! ## §6. Two siblings. -/

def zeros : Word where
  chars    := "00000000:00000000".toList
  nonempty := by decide
  noBlank  := by simp [Str.isWhitespace]

/-- A socket that listens on port 3000. -/
def devServer : SocketRow where
  slot     := zeros
  address  := zeros
  port     := 3000
  remote   := zeros
  state    := tcpListen
  queues   := zeros
  timer    := zeros
  retries  := zeros
  uid      := zeros
  timeout  := zeros
  inode    := 5
  more     := []
  lead     := 3
  gap _    := 0
  trail    := 0
  port_lt  := by decide
  state_lt := by decide
  inode_lt := by decide
  listens  := by decide

/-- Process 7 listens in this directory. -/
def oneServer (cwd : String) : Machine where
  tcp      := some { header := [], rows := [devServer], oneLine := by simp [OneLine] }
  tcp6     := none
  names    := ["7", "self"]
  cwd pid  := if pid = 7 then some cwd else none
  fds pid  := if pid = 7 then some [some (.socket 5 (by decide))] else none

/-- Panel 1 in `/home/u/app`. -/
def appPanel : Telemetry where
  tm :=
    { workspaces    := [.withDirectory 10 1 "/home/u" "/home/u/app"]
      selectedIndex := some 0 }

theorem appPanel_distinct : DistinctIds appPanel.tm where
  workspaceIds := by decide
  panelIds     := by decide
  keyed ws hws := by
    obtain rfl := List.mem_singleton.mp hws
    exact (Workspace.new_wellFormed 10 1 "/home/u").keyed.modify 1 fun _ => rfl

theorem oneServer_listens (cwd : String) : (oneServer cwd).Listens 7 3000 := by
  have hpid : (7 : Nat) ∈ ["7", "self"].filterMap fun name => Str.parseU32 name.toList := by decide
  have hrow : devServer ∈ [devServer] := List.mem_cons_self
  exact ⟨hpid, devServer, hrow, rfl, rfl, _, rfl, by decide, List.mem_cons_self⟩

/-- The server of `/home/u/app2` is shown at the panel in `/home/u/app`. -/
theorem sibling_shown :
    ∃ served panel, scanAndUpdate (oneServer "/home/u/app2").procFs appPanel = some served ∧
      panelOf appPanel.tm 1 = some panel ∧ panel.directory = some "/home/u/app" ∧
      3000 ∈ served.1.panelPorts 1 ∧
      ¬ Path.Below "/home/u/app".toList "/home/u/app2".toList ∧
      ¬ Attributed (oneServer "/home/u/app2") appPanel served.1 := by
  obtain ⟨served, hserved, hports⟩ := scan_ports appPanel_distinct (oneServer "/home/u/app2")
  obtain ⟨panel, hpanel, hdir⟩ : ∃ panel, panelOf appPanel.tm 1 = some panel ∧
      panel.directory = some "/home/u/app" :=
    ⟨{ Panel.newTerminal 1 with directory := some "/home/u/app" }, by decide, rfl⟩
  have hshown : 3000 ∈ served.1.panelPorts 1 := (hports 1 panel _ hpanel hdir 3000).mpr
    ⟨7, "/home/u/app2", oneServer_listens _, rfl, by unfold BeginsWith; decide⟩
  refine ⟨served, panel, hserved, hpanel, hdir, hshown, by decide, fun h => ?_⟩
  obtain ⟨pid, cwd, -, hcwd, hbelow⟩ := (h 1 panel _ hpanel hdir 3000).mp hshown
  have hsome : (if pid = 7 then some "/home/u/app2" else none) = some cwd := hcwd
  split at hsome
  · obtain rfl := Option.some.inj hsome
    revert hbelow
    unfold BelowDir
    decide
  · cases hsome

/-- The server of a directory below. -/
theorem ports_attributed_iff_app :
    ∃ served, scanAndUpdate (oneServer "/home/u/app/web").procFs appPanel = some served ∧
      (Attributed (oneServer "/home/u/app/web") appPanel served.1 ↔
        DirsApart (oneServer "/home/u/app/web") appPanel) :=
  ports_attributed_iff appPanel_distinct (oneServer "/home/u/app/web")

end Jmux.Ports
