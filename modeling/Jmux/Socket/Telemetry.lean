/-
  Jmux.Socket.Telemetry — what shells report of their panels
  (`workspace.report_pwd`, `report_git`, `report_tty`, `report_ports` and
  `report_agent_session` in `socket/v2/workspace.rs`, and the V1 commands that
  become them).

  A shell keeps reporting the workspace in which it was started after its panel
  has moved to another one.

  Main results:
    * `serve_distinct`     — a move of a panel keeps the ids distinct.
    * `has_of_put`         — what is written to a panel or its workspace is there.
    * `has_of_putPanel`, `has_of_putWorkspace` — what is written elsewhere is not.
-/
import Jmux.Socket.WorkspaceAction
import Mathlib.Data.List.Flatten

namespace Jmux.Socket

open Jmux.Lib Jmux.Model

/-! ## §1. Ids stay distinct when panels move. -/

section

variable {tm tm' : TabManager}

theorem panelIdsOf_sublist {as bs : List Workspace} (h : as.Sublist bs) :
    (panelIdsOf as).Sublist (panelIdsOf bs) :=
  h.flatMap _

theorem DistinctIds.sublist (hd : DistinctIds tm)
    (h : tm'.workspaces.Sublist tm.workspaces) : DistinctIds tm' where
  workspaceIds := hd.workspaceIds.sublist (h.map _)
  panelIds     := hd.panelIds.sublist (panelIdsOf_sublist h)
  keyed ws hws := hd.keyed ws (h.subset hws)

theorem removeById_sublist (tm : TabManager) (now : Nat) (id : Uuid) :
    (((tm.removeById now id).map (·.2)).getD tm).workspaces.Sublist tm.workspaces := by
  cases hr : tm.removeById now id with
  | none => exact List.Sublist.refl _
  | some r =>
      obtain ⟨index, _, hremove⟩ := Option.bind_eq_some_iff.mp hr
      unfold TabManager.remove at hremove
      split at hremove
      · cases hremove
      · cases hremove
        exact List.eraseIdx_sublist _ _

theorem dropIfEmpty_sublist (tm : TabManager) (now : Nat) (wsId : Uuid) :
    (tm.dropIfEmpty now wsId).workspaces.Sublist tm.workspaces := by
  unfold TabManager.dropIfEmpty
  split
  · exact removeById_sublist tm now wsId
  · exact List.Sublist.refl _

/-- A workspace list around the one with an id, and what setting it makes of the list. -/
theorem exists_around_id {id : Uuid} {ws : Workspace} (h : tm.workspace id = some ws) :
    ∃ as bs, tm.workspaces = as ++ ws :: bs ∧
      ∀ ws', (tm.setWorkspace id ws').workspaces = as ++ ws' :: bs := by
  obtain ⟨hid, as, bs, hws, has⟩ := List.find?_eq_some_iff_append.mp h
  refine ⟨as, bs, hws, fun ws' => ?_⟩
  rw [TabManager.setWorkspace, hws]
  exact List.modifyFirst_append_cons (by simpa using has) hid

/-- The panel that leaves is in none of the workspaces any more. -/
theorem detachFrom_distinct (hd : DistinctIds tm) {wsId panelId : Uuid} {panel : Panel}
    (h : tm.detachFrom wsId panelId = some (panel, tm')) :
    DistinctIds tm' ∧ panel.id ∉ panelIdsOf tm'.workspaces := by
  obtain ⟨ws, hws, hdet⟩ := Option.bind_eq_some_iff.mp h
  obtain ⟨⟨detachedPanel, detached⟩, hdetached, heq⟩ := Option.map_eq_some_iff.mp hdet
  obtain ⟨rfl, rfl⟩ := Prod.mk.inj heq
  obtain ⟨as, bs, hlist, hset⟩ := exists_around_id hws
  have hk : Keyed ws.panels := hd.keyed ws (hlist ▸ by simp)
  have hmem : panelId ∈ ws.panels := by
    by_contra hn
    unfold Workspace.detachPanel at hdetached
    rw [AList.lookup_eq_none.mpr hn] at hdetached
    cases hdetached
  obtain ⟨panel', ws', hdet', hid, hwsid, hpanels⟩ := detachPanel_eq hk hmem
  obtain ⟨rfl, rfl⟩ := Prod.mk.inj (Option.some.inj (hdetached.symm.trans hdet'))
  have hperm : (panelIdsOf tm.workspaces).Perm (panelId :: panelIdsOf (as ++ detached :: bs)) := by
    have hleft : panelIdsOf [detached] = (ws.panels.erase panelId).keys := by
      rw [← hpanels]
      simp [panelIdsOf]
    have htake : (panelIdsOf (as ++ ws :: bs)).Perm (panelId :: panelIdsOf (as ++ [detached] ++ bs)) :=
      panelIdsOf_take hmem hleft
    rw [hlist]
    simpa using htake
  obtain ⟨hfresh, hnd⟩ := List.nodup_cons.mp (hperm.nodup_iff.mp hd.panelIds)
  refine ⟨⟨?_, ?_, ?_⟩, ?_⟩
  · have hids := hd.workspaceIds
    rw [hlist] at hids
    rw [hset]
    simpa [hwsid] using hids
  · rw [hset]
    exact hnd
  · intro x hx
    rw [hset] at hx
    rcases List.mem_append.mp hx with hx | hx
    · exact hd.keyed x (hlist ▸ List.mem_append_left _ hx)
    · rcases List.mem_cons.mp hx with rfl | hx
      · rw [hpanels]
        exact hk.erase panelId
      · exact hd.keyed x (hlist ▸ List.mem_append_right _ (List.mem_cons_of_mem _ hx))
  · rw [hset, hid]
    exact hfresh

/-- A panel that is in no workspace comes into one. -/
theorem insertPanel_distinct (hd : DistinctIds tm) {target : Uuid} {ws : Workspace}
    (hw : tm.workspace target = some ws) {panel : Panel}
    (hn : panel.id ∉ panelIdsOf tm.workspaces) (orientation : SplitOrientation) :
    DistinctIds (tm.setWorkspace target (ws.insertPanel panel orientation)) := by
  obtain ⟨as, bs, hlist, hset⟩ := exists_around_id hw
  refine ⟨?_, ?_, ?_⟩
  · have hid : ws.id = target := workspace_id hw
    have hid : (ws.insertPanel panel orientation).id = target := hid
    exact (setWorkspace_fewer hid).workspaceIds hd.workspaceIds
  · exact (arrive hw hn orientation).nodup_iff.mpr (List.nodup_cons.mpr ⟨hn, hd.panelIds⟩)
  · intro x hx
    rw [hset] at hx
    rcases List.mem_append.mp hx with hx | hx
    · exact hd.keyed x (hlist ▸ List.mem_append_left _ hx)
    · rcases List.mem_cons.mp hx with rfl | hx
      · exact (hd.keyed ws (hlist ▸ by simp)).insert panel
      · exact hd.keyed x (hlist ▸ List.mem_append_right _ (List.mem_cons_of_mem _ hx))

/-- **Every request that moves a panel keeps the ids distinct.** -/
theorem serve_distinct (hd : DistinctIds tm) (now : Nat) (request : MoveRequest) :
    DistinctIds (request.serve now tm).1 := by
  rcases serve_moves now tm request with h | ⟨panelId, target, -, h⟩
  · rw [h]
    exact hd
  · generalize (request.serve now tm).1 = served at h
    cases h with
    | stays => exact hd
    | leaves hdet =>
        exact (detachFrom_distinct hd hdet).1.sublist (dropIfEmpty_sublist _ _ _)
    | @comes wsId panel left ws hdet hw orientation =>
        obtain ⟨hd', hn⟩ := detachFrom_distinct hd hdet
        have hsub := dropIfEmpty_sublist left now wsId
        refine insertPanel_distinct (hd'.sublist hsub) hw (fun hmem => hn ?_) orientation
        exact (panelIdsOf_sublist hsub).subset hmem

/-- The only workspace that holds a panel is the one that is found. -/
theorem findWorkspaceWithPanel_eq (hd : DistinctIds tm) {ws : Workspace} {panelId : Uuid}
    (hws : ws ∈ tm.workspaces) (hp : panelId ∈ ws.panels) :
    tm.findWorkspaceWithPanel panelId = some ws := by
  obtain ⟨as, bs, hlist⟩ := List.append_of_mem hws
  have hnd := hd.panelIds
  rw [hlist, panelIdsOf_append, panelIdsOf_cons, List.nodup_append'] at hnd
  rw [TabManager.findWorkspaceWithPanel, hlist, List.find?_append]
  have hskip : as.find? (panelId ∈ ·.panels) = none := by
    refine List.find?_eq_none.mpr fun x hx => ?_
    intro hmem
    refine hnd.2.2 (List.mem_flatMap.mpr ⟨x, hx, AList.mem_keys.mp (by simpa using hmem)⟩) ?_
    exact List.mem_append_left _ (AList.mem_keys.mp hp)
  rw [hskip]
  simp [hp]

theorem mem_of_selected {ws : Workspace} (h : tm.selected = some ws) : ws ∈ tm.workspaces := by
  obtain ⟨i, _, hget⟩ := Option.bind_eq_some_iff.mp h
  exact List.mem_of_getElem? hget

end

/-! ## §2. What is kept of panels and workspaces. -/

/-- What a report says. -/
inductive Reported
  | directory (directory : String)
  /-- The branch and whether it is dirty, or no branch. -/
  | gitBranch (branch : Option (String × Bool))
  | tty (name : String)
  | ports (ports : List Nat)
  | agentSession (sessionId : String)
  deriving DecidableEq, Repr

/-- A workspace has a directory and a branch of its own. -/
def Reported.ofWorkspace : Reported → Bool
  | .directory _ | .gitBranch _ => true
  | .tty _ | .ports _ | .agentSession _ => false

/-- The tab manager, and the fields of panels and workspaces that it leaves out. -/
structure Telemetry where
  tm              : TabManager
  /-- `panel.git_branch`. -/
  panelBranch     : Uuid → Option (String × Bool) := fun _ => none
  /-- `panel.listening_ports`. -/
  panelPorts      : Uuid → List Nat := fun _ => []
  /-- `ws.git_branch`. -/
  workspaceBranch : Uuid → Option (String × Bool) := fun _ => none

/-- `find_workspace_with_panel_mut(id)?.panels.get_mut(&id)?` -/
def onPanel (tm : TabManager) (panelId : Uuid) (f : Panel → Panel) : TabManager :=
  { tm with workspaces := tm.workspaces.modifyFirst (panelId ∈ ·.panels) (editPanel · panelId f) }

/-- `workspace_mut(id)?` -/
def onWorkspaceMut (tm : TabManager) (id : Uuid) (f : Workspace → Workspace) : TabManager :=
  { tm with workspaces := tm.workspaces.modifyFirst (·.id = id) f }

namespace Telemetry

/-- The field of the panel becomes what the report says. -/
def putPanel (s : Telemetry) (panelId : Uuid) : Reported → Telemetry
  | .directory d =>
      { s with tm := onPanel s.tm panelId fun panel => { panel with directory := some d } }
  | .gitBranch b => { s with panelBranch := Function.update s.panelBranch panelId b }
  | .tty name => { s with tm := onPanel s.tm panelId fun panel => { panel with ttyName := some name } }
  | .ports ports => { s with panelPorts := Function.update s.panelPorts panelId ports }
  | .agentSession id =>
      { s with tm := onPanel s.tm panelId fun panel => { panel with agentSessionId := some id } }

/-- The field of the workspace, if it has that one. -/
def putWorkspace (s : Telemetry) (wsId : Uuid) : Reported → Telemetry
  | .directory d =>
      { s with tm := onWorkspaceMut s.tm wsId fun ws => { ws with currentDirectory := d } }
  | .gitBranch b => { s with workspaceBranch := Function.update s.workspaceBranch wsId b }
  | .tty _ | .ports _ | .agentSession _ => s

/-- What the handlers of reports do in the end. -/
def perform {F : Type} (s : Telemetry) : Operation F → Telemetry
  | .setDirectory wsId none d => s.putWorkspace wsId (.directory d)
  | .setDirectory wsId (some panelId) d =>
      -- the directory of the focused panel is that of the workspace
      if (s.tm.workspace wsId).any (·.focusedPanelId = some panelId) then
        (s.putPanel panelId (.directory d)).putWorkspace wsId (.directory d)
      else s.putPanel panelId (.directory d)
  | .setGitBranch wsId none b => s.putWorkspace wsId (.gitBranch b)
  | .setGitBranch wsId (some panelId) b =>
      (s.putPanel panelId (.gitBranch b)).putWorkspace wsId (.gitBranch b)
  | .setTty panelId name => s.putPanel panelId (.tty name)
  | .setPorts panelId ports => s.putPanel panelId (.ports ports)
  | _ => s

end Telemetry

/-! ## §3. Reports. -/

/-- The methods through which shells report. -/
inductive ReportKind
  | pwd | git | tty | ports | agentSession
  deriving DecidableEq, Repr

/-- What the handlers of reports use of the libraries. -/
structure ReportEnv (F : Type) extends V2Env F where
  /-- `Uuid::to_string` -/
  uuidText : Uuid → String

variable {F : Type}

/-- The agent whose sessions can be resumed. -/
def isClaude (params : Value F) : Bool :=
  Str.contains "claude".toList (Str.toLowercase ((strParam "agent" params).getD "").toList)

/-- The `session_id` of a report, as it is stored. -/
def sessionIdParam (env : ReportEnv F) (params : Value F) : Option String :=
  ((strParam "session_id" params).bind fun s => env.parseUuid (Str.trim s)).map env.uuidText

/-- The panel to write to and the session, if there is something to write. -/
def handleWorkspaceReportAgentSession (env : ReportEnv F) (tm : TabManager) (params : Value F) :
    Except Response (Option (Uuid × String)) := do
  let sessionId ← orElseReturn (invalidParams "Provide a UUID 'session_id'")
    (sessionIdParam env params)
  -- other agents are acknowledged and not stored
  if isClaude params then
    let target ← reportTarget tm (lenientPanel env.toV2Env params)
    pure (target.map fun panel => (panel, sessionId))
  else pure none

/-- The state and the answer after a handler. -/
def finish {α : Type} (s : Telemetry) (write : α → Telemetry) :
    Except Response α → Telemetry × Response
  | .error e => (s, e)
  | .ok a => (write a, okResponse)

/-- A report over the V2 protocol. -/
def serveReport (env : ReportEnv F) (s : Telemetry) (params : Value F) :
    ReportKind → Telemetry × Response
  | .pwd => finish s s.perform (handleWorkspaceReportPwd env.toV2Env s.tm params)
  | .git => finish s s.perform (handleWorkspaceReportGit env.toV2Env s.tm params)
  | .tty => finish s s.perform (handleWorkspaceReportTty env.toV2Env s.tm params)
  | .ports => finish s s.perform (handleWorkspaceReportPorts env.toV2Env s.tm params)
  | .agentSession =>
      finish s (fun write => write.elim s fun w => s.putPanel w.1 (.agentSession w.2))
        (handleWorkspaceReportAgentSession env s.tm params)

/-- The V1 commands that become these methods. -/
inductive ReportCommand
  | reportPwd | reportGitBranch | clearGitBranch | reportTty | reportPorts | reportAgentSession
  deriving DecidableEq, Repr

namespace ReportCommand

def command : ReportCommand → V1Command
  | reportPwd => .reportPwd
  | reportGitBranch => .reportGitBranch
  | clearGitBranch => .clearGitBranch
  | reportTty => .reportTty
  | reportPorts => .reportPorts
  | reportAgentSession => .reportAgentSession

def kind : ReportCommand → ReportKind
  | reportPwd => .pwd
  | reportGitBranch | clearGitBranch => .git
  | reportTty => .tty
  | reportPorts => .ports
  | reportAgentSession => .agentSession

end ReportCommand

/-- The parameters of the request that becomes of a line. -/
def Dispatched.params : Dispatched F → Value F
  | .request req => req.params
  | _ => .null

/-- A report, as it arrives: a V2 request, or a V1 line in parts. -/
inductive Report (F : Type)
  | v2 (kind : ReportKind) (params : Value F)
  | v1 (command : ReportCommand) (line : V1Line)

namespace Report

/-- The method that serves it. -/
def kind : Report F → ReportKind
  | v2 kind _ => kind
  | v1 command _ => command.kind

/-- The parameters that the method is given. -/
def params (env : ReportEnv F) : Report F → Value F
  | v2 _ params => params
  | v1 command line => (command.command.build env.toV1Env line).params

def serve (env : ReportEnv F) (s : Telemetry) (r : Report F) : Telemetry × Response :=
  serveReport env s (r.params env) r.kind

end Report

/-! ## §4. What a report carries. -/

/-- The branch of a report; an empty one is none. -/
def gitBranchOf (branch : String) (isDirty : Bool) : Option (String × Bool) :=
  if branch = "" then none else some (truncateStr branch maxBranchLen, isDirty)

/-- What the parameters say. -/
def saidByParams (env : ReportEnv F) (params : Value F) : ReportKind → Option Reported
  | .pwd => (strParam "directory" params).map fun d => .directory (truncateStr d maxDirectoryLen)
  | .git => (strParam "branch" params).map fun b =>
      .gitBranch (gitBranchOf b (((params.get "is_dirty").bind Value.asBool).getD false))
  | .tty => (strParam "tty" params).map fun t => .tty (truncateStr t 256)
  | .ports => ((params.get "ports").bind Value.asArray).map fun items =>
      .ports ((items.filterMap portOf).take 256)
  | .agentSession => (sessionIdParam env params).map .agentSession

/-- What a V1 line says. -/
def saidByLine (env : ReportEnv F) (line : V1Line) : ReportCommand → Option Reported
  | .reportPwd => some (.directory (truncateStr (line.arg 0 "") maxDirectoryLen))
  | .reportGitBranch => some (.gitBranch (gitBranchOf line.branch.1 line.branch.2))
  | .clearGitBranch => some (.gitBranch none)
  | .reportTty => some (.tty (truncateStr (line.arg 0 "") 256))
  | .reportPorts => some (.ports
      ((line.args.filterMap fun a => (Str.parseUsize a.toList).filter (· < 2 ^ 16)).take 256))
  | .reportAgentSession =>
      ((env.parseUuid (Str.trim (line.arg 1 ""))).map env.uuidText).map .agentSession

namespace Report

def said (env : ReportEnv F) : Report F → Option Reported
  | v2 kind params => saidByParams env params kind
  | v1 command line => saidByLine env line command

/-- The panel id that it carries, under one of the two names. -/
def carries (env : ReportEnv F) : Report F → Option Uuid
  | v2 _ params =>
      ((strParam "panel" params).bind env.parseUuid).or
        ((strParam "surface" params).bind env.parseUuid)
  | v1 _ line =>
      ((line.flags.get "panel").bind env.parseUuid).or
        ((line.flags.get "surface").bind env.parseUuid)

end Report

/-- The state with the value in the field of the panel, of its workspace or of both. -/
inductive Put (s : Telemetry) (panelId owner : Uuid) (v : Reported) : Telemetry → Prop
  | panel : Put s panelId owner v (s.putPanel panelId v)
  | workspace (h : v.ofWorkspace = true) : Put s panelId owner v (s.putWorkspace owner v)
  | both (h : v.ofWorkspace = true) :
      Put s panelId owner v ((s.putPanel panelId v).putWorkspace owner v)

/-- **The report follows the panel**: it is taken, and the field of the panel or of the
workspace that holds it is all that changes. -/
def Follows (s : Telemetry) (panelId : Uuid) (v : Reported) (served : Telemetry × Response) : Prop :=
  served.2.isError = false ∧
    ∃ ws, s.tm.findWorkspaceWithPanel panelId = some ws ∧ Put s panelId ws.id v served.1

/-- The workspace that the id names, or the selected one. -/
def namedOrSelected (tm : TabManager) (wsId : Option Uuid) : Option Workspace :=
  match wsId with
  | some id => tm.workspace id
  | none => tm.selected

/-- A handler that looks the panel up first gets to it. -/
def Targets (env : ReportEnv F) (tm : TabManager) (params : Value F) (panelId : Uuid) : Prop :=
  (lenientPanel env.toV2Env params).isSome = true ∨
    ∃ ws, tm.selected = some ws ∧ ws.focusedPanelId = some panelId ∧ panelId ∈ ws.panels

/-- What the handler of each method goes by leads to the panel or to its workspace. -/
def Routed (env : ReportEnv F) (tm : TabManager) (params : Value F) (panelId : Uuid) :
    ReportKind → Prop
  | .pwd => ∃ wsId, parseWorkspaceParam env.toV2Env params = .ok wsId ∧
      ((lenientPanel env.toV2Env params).isSome = true ∨
        ∃ ws, namedOrSelected tm wsId = some ws ∧ panelId ∈ ws.panels)
  -- `report_git` goes by the workspace that is named
  | .git => ∃ wsId, parseWorkspaceParam env.toV2Env params = .ok wsId ∧
      ∃ ws, namedOrSelected tm wsId = some ws ∧ panelId ∈ ws.panels ∧
        ∀ id, (strParam "surface" params).bind env.parseUuid = some id → id ∈ ws.panels →
          id = panelId
  | .tty | .ports => Targets env tm params panelId
  | .agentSession => isClaude params = true ∧ Targets env tm params panelId

namespace Report

/-- The request that becomes of a report says the same and leads to the panel. -/
def Routed (env : ReportEnv F) (tm : TabManager) (r : Report F) (panelId : Uuid) (v : Reported) :
    Prop :=
  saidByParams env (r.params env) r.kind = some v ∧
    Socket.Routed env tm (r.params env) panelId r.kind

end Report

/-- The panel with the id. -/
def panelOf (tm : TabManager) (panelId : Uuid) : Option Panel :=
  (tm.findWorkspaceWithPanel panelId).bind (·.panels.lookup panelId)

namespace Telemetry

/-- The field of the panel is already as reported. -/
def PanelHas (s : Telemetry) (panelId : Uuid) : Reported → Prop
  | .directory d => (panelOf s.tm panelId).bind (·.directory) = some d
  | .gitBranch b => s.panelBranch panelId = b
  | .tty name => (panelOf s.tm panelId).bind (·.ttyName) = some name
  | .ports ports => s.panelPorts panelId = ports
  | .agentSession id => (panelOf s.tm panelId).bind (·.agentSessionId) = some id

/-- The field of the workspace is. -/
def WorkspaceHas (s : Telemetry) (ws : Workspace) : Reported → Prop
  | .directory d => ws.currentDirectory = d
  | .gitBranch b => s.workspaceBranch ws.id = b
  | .tty _ | .ports _ | .agentSession _ => False

/-- One of the two is: the report is no news. -/
def Has (s : Telemetry) (panelId : Uuid) (v : Reported) : Prop :=
  s.PanelHas panelId v ∨
    ∃ ws, s.tm.findWorkspaceWithPanel panelId = some ws ∧ s.WorkspaceHas ws v

end Telemetry

/-- The panel, and one that a git report names beside it, have not got the value yet. -/
def Report.News (env : ReportEnv F) (s : Telemetry) (r : Report F) (panelId : Uuid) (v : Reported) :
    Prop :=
  ∀ id, id = panelId ∨ (strParam "surface" (r.params env)).bind env.parseUuid = some id →
    ¬ s.Has id v

/-! ## §5. What the writes do. -/

theorem editPanel_of_notMem {ws : Workspace} {panelId : Uuid} (h : panelId ∉ ws.panels)
    (f : Panel → Panel) : editPanel ws panelId f = ws := by
  have hmodify : ws.panels.modify panelId f = ws.panels := by
    rw [AList.modify, AList.lookup_eq_none.mpr h]
  rw [editPanel, hmodify]

theorem mem_editPanel (ws : Workspace) (panelId id : Uuid) (f : Panel → Panel) :
    id ∈ (editPanel ws panelId f).panels ↔ id ∈ ws.panels :=
  mem_modify_iff ws.panels panelId id f

section

variable {tm : TabManager}

/-- The panel is in one workspace, so that the others are left as they are. -/
theorem onPanel_workspaces (hd : DistinctIds tm) (panelId : Uuid) (f : Panel → Panel) :
    (onPanel tm panelId f).workspaces = tm.workspaces.map (editPanel · panelId f) := by
  have hsame : ∀ l : List Workspace, (∀ x ∈ l, panelId ∉ x.panels) →
      l.map (editPanel · panelId f) = l := by
    intro l hl
    exact (List.map_congr_left fun x hx => editPanel_of_notMem (hl x hx) f).trans (List.map_id l)
  show tm.workspaces.modifyFirst (panelId ∈ ·.panels) (editPanel · panelId f) = _
  rcases List.modifyFirst_split (panelId ∈ ·.panels) (editPanel · panelId f) tm.workspaces with
    ⟨hnone, h⟩ | ⟨as, ws, bs, hlist, has, hws, -, h⟩
  · rw [h, hsame]
    simpa using List.find?_eq_none.mp hnone
  · have hmem : panelId ∈ ws.panels := by simpa using hws
    have hnd := hd.panelIds
    rw [hlist, panelIdsOf_append, panelIdsOf_cons] at hnd
    have hbs : ∀ x ∈ bs, panelId ∉ x.panels := by
      intro x hx hp
      have hrest := List.nodup_append'.mp (List.nodup_append'.mp hnd).2.1
      exact hrest.2.2 (AList.mem_keys.mp hmem)
        (List.mem_flatMap.mpr ⟨x, hx, AList.mem_keys.mp hp⟩)
    rw [h, hlist, List.map_append, List.map_cons, hsame as (by simpa using has), hsame bs hbs]

theorem find_onPanel (hd : DistinctIds tm) (panelId id : Uuid) (f : Panel → Panel) :
    (onPanel tm id f).findWorkspaceWithPanel panelId =
      (tm.findWorkspaceWithPanel panelId).map (editPanel · id f) := by
  rw [TabManager.findWorkspaceWithPanel, onPanel_workspaces hd, List.find?_map]
  congr 2
  funext ws
  simp only [Function.comp_apply, mem_editPanel]

theorem panelOf_onPanel (hd : DistinctIds tm) (panelId id : Uuid) (f : Panel → Panel) :
    panelOf (onPanel tm id f) panelId =
      if panelId = id then (panelOf tm panelId).map f else panelOf tm panelId := by
  rw [panelOf, find_onPanel hd, panelOf]
  cases tm.findWorkspaceWithPanel panelId with
  | none => simp
  | some ws =>
      show (ws.panels.modify id f).lookup panelId = _
      rw [AList.lookup_modify]
      by_cases h : panelId = id
      · subst h
        rfl
      · rw [if_neg h, if_neg h]
        rfl

/-- An edit that leaves the panels. -/
theorem find_onWorkspaceMut (hids : (tm.workspaces.map (·.id)).Nodup) (panelId id : Uuid)
    {f : Workspace → Workspace} (hf : ∀ ws, (f ws).panels = ws.panels) :
    (onWorkspaceMut tm id f).findWorkspaceWithPanel panelId =
      (tm.findWorkspaceWithPanel panelId).map fun ws => if ws.id = id then f ws else ws := by
  have hlist : (onWorkspaceMut tm id f).workspaces =
      tm.workspaces.map fun ws => if ws.id = id then f ws else ws :=
    List.modifyFirst_key_eq_map hids id f
  rw [TabManager.findWorkspaceWithPanel, hlist, List.find?_map]
  congr 2
  funext ws
  rw [Function.comp_apply]
  split
  · rw [hf]
  · rfl

theorem panelOf_onWorkspaceMut (hids : (tm.workspaces.map (·.id)).Nodup) (panelId id : Uuid)
    {f : Workspace → Workspace} (hf : ∀ ws, (f ws).panels = ws.panels) :
    panelOf (onWorkspaceMut tm id f) panelId = panelOf tm panelId := by
  rw [panelOf, find_onWorkspaceMut hids panelId id hf, panelOf, Option.bind_map]
  congr 1
  funext ws
  rw [Function.comp_apply]
  split
  · rw [hf]
  · rfl

/-! ### The ids stay. -/

theorem onPanel_distinct (hd : DistinctIds tm) (panelId : Uuid) {f : Panel → Panel}
    (hf : ∀ panel, (f panel).id = panel.id) : DistinctIds (onPanel tm panelId f) := by
  have hlist := onPanel_workspaces hd panelId f
  refine ⟨?_, ?_, ?_⟩
  · rw [hlist, List.map_map]
    exact hd.workspaceIds
  · have hkeys : ∀ ws : Workspace, (editPanel ws panelId f).panels.keys.Perm ws.panels.keys := by
      intro ws
      refine (List.perm_ext_iff_of_nodup (AList.keys_nodup _) (AList.keys_nodup _)).mpr fun id => ?_
      rw [AList.mem_keys.symm, AList.mem_keys.symm, mem_editPanel]
    have hperm : (panelIdsOf (onPanel tm panelId f).workspaces).Perm (panelIdsOf tm.workspaces) := by
      rw [hlist, panelIdsOf, panelIdsOf, List.flatMap_map]
      exact List.Perm.flatMap_left _ fun ws _ => hkeys ws
    exact hperm.nodup_iff.mpr hd.panelIds
  · intro ws hws
    rw [hlist] at hws
    obtain ⟨old, hold, rfl⟩ := List.mem_map.mp hws
    exact (hd.keyed old hold).modify panelId hf

theorem onWorkspaceMut_distinct (hd : DistinctIds tm) (id : Uuid) {f : Workspace → Workspace}
    (hid : ∀ ws, (f ws).id = ws.id) (hf : ∀ ws, (f ws).panels = ws.panels) :
    DistinctIds (onWorkspaceMut tm id f) := by
  refine ⟨?_, ?_, ?_⟩
  · show ((tm.workspaces.modifyFirst _ f).map (·.id)).Nodup
    rw [List.map_modifyFirst _ _ _ hid]
    exact hd.workspaceIds
  · show ((tm.workspaces.modifyFirst _ f).flatMap (·.panels.keys)).Nodup
    rw [List.flatMap_def, List.map_modifyFirst _ _ _ fun ws => by rw [hf]]
    exact hd.panelIds
  · intro ws hws
    rcases List.mem_modifyFirst hws with hws | ⟨old, hold, -, rfl⟩
    · exact hd.keyed ws hws
    · rw [hf]
      exact hd.keyed old hold

end

namespace Telemetry

variable {s : Telemetry}

theorem putPanel_distinct (hd : DistinctIds s.tm) (panelId : Uuid) (v : Reported) :
    DistinctIds (s.putPanel panelId v).tm := by
  cases v with
  | directory d => exact onPanel_distinct hd panelId fun _ => rfl
  | gitBranch b => exact hd
  | tty name => exact onPanel_distinct hd panelId fun _ => rfl
  | ports ports => exact hd
  | agentSession id => exact onPanel_distinct hd panelId fun _ => rfl

theorem putWorkspace_distinct (hd : DistinctIds s.tm) (wsId : Uuid) (v : Reported) :
    DistinctIds (s.putWorkspace wsId v).tm := by
  cases v with
  | directory d => exact onWorkspaceMut_distinct hd wsId (fun _ => rfl) fun _ => rfl
  | gitBranch b => exact hd
  | tty name => exact hd
  | ports ports => exact hd
  | agentSession id => exact hd

theorem perform_distinct (hd : DistinctIds s.tm) (op : Operation F) :
    DistinctIds (s.perform op).tm := by
  unfold perform
  split
  · exact putWorkspace_distinct hd _ _
  · split
    · exact putWorkspace_distinct (putPanel_distinct hd _ _) _ _
    · exact putPanel_distinct hd _ _
  · exact putWorkspace_distinct hd _ _
  · exact putWorkspace_distinct (putPanel_distinct hd _ _) _ _
  · exact putPanel_distinct hd _ _
  · exact putPanel_distinct hd _ _
  · exact hd

/-! ### What was reported is there afterwards. -/

theorem panelHas_putPanel (hd : DistinctIds s.tm) {panelId : Uuid} {panel : Panel}
    (hp : panelOf s.tm panelId = some panel) (v : Reported) :
    (s.putPanel panelId v).PanelHas panelId v := by
  cases v with
  | directory d => simp [PanelHas, putPanel, panelOf_onPanel hd, hp]
  | gitBranch b => simp [PanelHas, putPanel]
  | tty name => simp [PanelHas, putPanel, panelOf_onPanel hd, hp]
  | ports ports => simp [PanelHas, putPanel]
  | agentSession id => simp [PanelHas, putPanel, panelOf_onPanel hd, hp]

theorem find_putWorkspace_directory (hd : DistinctIds s.tm) (panelId wsId : Uuid) (d : String) :
    (s.putWorkspace wsId (.directory d)).tm.findWorkspaceWithPanel panelId =
      (s.tm.findWorkspaceWithPanel panelId).map fun ws =>
        if ws.id = wsId then { ws with currentDirectory := d } else ws :=
  find_onWorkspaceMut hd.workspaceIds panelId wsId fun _ => rfl

theorem has_putWorkspace (hd : DistinctIds s.tm) {panelId : Uuid} {ws : Workspace}
    (hf : s.tm.findWorkspaceWithPanel panelId = some ws) {v : Reported}
    (h : v.ofWorkspace = true) :
    (s.putWorkspace ws.id v).Has panelId v := by
  cases v with
  | directory d =>
      refine .inr ⟨{ ws with currentDirectory := d }, ?_, rfl⟩
      rw [find_putWorkspace_directory hd, hf, Option.map_some, if_pos rfl]
  | gitBranch b => exact .inr ⟨ws, hf, by simp [WorkspaceHas, putWorkspace]⟩
  | tty name => cases h
  | ports ports => cases h
  | agentSession id => cases h

/-! ### What is written elsewhere does not matter. -/

theorem has_of_putPanel (hd : DistinctIds s.tm) {panelId id : Uuid} (hne : panelId ≠ id)
    {v w : Reported} (h : (s.putPanel id w).Has panelId v) : s.Has panelId v := by
  have hpanel : ∀ f : Panel → Panel, panelOf (onPanel s.tm id f) panelId = panelOf s.tm panelId := by
    intro f
    rw [panelOf_onPanel hd, if_neg hne]
  rcases h with h | ⟨ws, hf, h⟩
  · left
    cases w with
    | directory d => cases v <;> simpa [PanelHas, putPanel, hpanel] using h
    | gitBranch b => cases v <;> simpa [PanelHas, putPanel, hne] using h
    | tty name => cases v <;> simpa [PanelHas, putPanel, hpanel] using h
    | ports ports => cases v <;> simpa [PanelHas, putPanel, hne] using h
    | agentSession id => cases v <;> simpa [PanelHas, putPanel, hpanel] using h
  · -- no field of a workspace is written
    right
    have hedit : ∀ f : Panel → Panel, (onPanel s.tm id f).findWorkspaceWithPanel panelId = some ws →
        ∃ old, s.tm.findWorkspaceWithPanel panelId = some old ∧ old.id = ws.id ∧
          old.currentDirectory = ws.currentDirectory := by
      intro f hf
      rw [find_onPanel hd] at hf
      obtain ⟨old, hold, rfl⟩ := Option.map_eq_some_iff.mp hf
      exact ⟨old, hold, rfl, rfl⟩
    obtain ⟨old, hold, hid, hdir⟩ : ∃ old, s.tm.findWorkspaceWithPanel panelId = some old ∧
        old.id = ws.id ∧ old.currentDirectory = ws.currentDirectory := by
      cases w with
      | directory d => exact hedit _ hf
      | gitBranch b => exact ⟨ws, hf, rfl, rfl⟩
      | tty name => exact hedit _ hf
      | ports ports => exact ⟨ws, hf, rfl, rfl⟩
      | agentSession id => exact hedit _ hf
    have hbranch : (s.putPanel id w).workspaceBranch = s.workspaceBranch := by
      cases w <;> rfl
    refine ⟨old, hold, ?_⟩
    cases v with
    | directory d => exact hdir.trans h
    | gitBranch b =>
        show s.workspaceBranch old.id = b
        rw [hid, ← hbranch]
        exact h
    | tty name => exact h
    | ports ports => exact h
    | agentSession id => exact h

theorem has_of_putWorkspace (hd : DistinctIds s.tm) {panelId wsId : Uuid}
    (hne : ∀ ws, s.tm.findWorkspaceWithPanel panelId = some ws → ws.id ≠ wsId)
    {v w : Reported} (h : (s.putWorkspace wsId w).Has panelId v) : s.Has panelId v := by
  cases w with
  | directory d =>
      have hfind : (s.putWorkspace wsId (.directory d)).tm.findWorkspaceWithPanel panelId
          = s.tm.findWorkspaceWithPanel panelId := by
        rw [find_putWorkspace_directory hd]
        cases hf : s.tm.findWorkspaceWithPanel panelId with
        | none => rfl
        | some ws => rw [Option.map_some, if_neg (hne ws hf)]
      have hpanel : panelOf (s.putWorkspace wsId (.directory d)).tm panelId = panelOf s.tm panelId :=
        panelOf_onWorkspaceMut hd.workspaceIds panelId wsId fun _ => rfl
      rcases h with h | ⟨ws, hf, h⟩
      · left
        cases v with
        | directory d' =>
            unfold PanelHas at h
            rwa [hpanel] at h
        | gitBranch b => exact h
        | tty name =>
            unfold PanelHas at h
            rwa [hpanel] at h
        | ports ports => exact h
        | agentSession id =>
            unfold PanelHas at h
            rwa [hpanel] at h
      · right
        have hf : s.tm.findWorkspaceWithPanel panelId = some ws := hfind.symm.trans hf
        refine ⟨ws, hf, ?_⟩
        cases v <;> exact h
  | gitBranch b =>
      rcases h with h | ⟨ws, hf, h⟩
      · left
        cases v <;> exact h
      · right
        refine ⟨ws, hf, ?_⟩
        cases v with
        | gitBranch b' =>
            have hother : (s.putWorkspace wsId (.gitBranch b)).workspaceBranch ws.id
                = s.workspaceBranch ws.id := Function.update_of_ne (hne ws hf) _ _
            exact hother.symm.trans h
        | directory d => exact h
        | tty name => exact h
        | ports ports => exact h
        | agentSession id => exact h
  | tty name => exact h
  | ports ports => exact h
  | agentSession id => exact h

theorem has_of_put (hd : DistinctIds s.tm) {panelId : Uuid} {ws : Workspace}
    (hf : s.tm.findWorkspaceWithPanel panelId = some ws) {v : Reported} {s' : Telemetry}
    (h : Put s panelId ws.id v s') : s'.Has panelId v := by
  have hmem : panelId ∈ ws.panels := by simpa using List.find?_some hf
  obtain ⟨panel, hpanel⟩ := Option.isSome_iff_exists.mp (AList.lookup_isSome.mpr hmem)
  have hp : panelOf s.tm panelId = some panel := by
    rw [panelOf, hf]
    exact hpanel
  cases h with
  | panel => exact .inl (panelHas_putPanel hd hp v)
  | workspace h => exact has_putWorkspace hd hf h
  | both h =>
      obtain ⟨ws', hf', hid⟩ : ∃ ws', (s.putPanel panelId v).tm.findWorkspaceWithPanel panelId
          = some ws' ∧ ws'.id = ws.id := by
        cases v with
        | directory d =>
            refine ⟨editPanel ws panelId fun panel => { panel with directory := some d }, ?_, rfl⟩
            show (onPanel s.tm panelId _).findWorkspaceWithPanel panelId = _
            rw [find_onPanel hd, hf]
            rfl
        | gitBranch b => exact ⟨ws, hf, rfl⟩
        | tty name => cases h
        | ports ports => cases h
        | agentSession id => cases h
      rw [← hid]
      exact has_putWorkspace (putPanel_distinct hd panelId v) hf' h

end Telemetry

end Jmux.Socket
