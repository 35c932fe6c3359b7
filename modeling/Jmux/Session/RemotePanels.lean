/-
  Jmux.Session.RemotePanels — the panels of remote workspaces over moves, saves
  and restores.

  Whether a panel is remote is known by its workspace only; `remote` keeps the
  ids of the panels that were created in remote workspaces.

  Main results:
    * `step_contained`        — what one step keeps, where it lets no remote agent
                                 out of the remote workspaces.
    * `remote_agents_stay`    — no restore of a run of such steps runs the agent of a
                                 remote panel here.
-/
import Jmux.Session.RoundTrip
import Jmux.Socket.MovePanel

namespace Jmux.Session

open Jmux.Lib Jmux.Model Jmux.Socket

/-! ## §1. Steps. -/

structure RemoteState where
  tm     : TabManager
  /-- The saved session. -/
  file   : Option AppSessionSnapshot := none
  remote : List Uuid := []

inductive RemoteAction
  | paneBreak (now : Nat) (home : String) (draw : Uuid × Uuid) (panel : UuidParam)
      (seen : TabManager)
  /-- `pane.join`, `surface.move` and the callers of `move_panel_to_workspace`. -/
  | move (now : Nat) (request : MoveRequest)
  | save (order : HashOrder) (captured : Captured) (live : LiveProc)
  /-- The next start, with a fresh manager where nothing is restored. -/
  | restore (env : RestoreEnv) (draws : Draws) (fresh : Uuid × Uuid)

namespace RemoteState

def step (s : RemoteState) : RemoteAction → Option RemoteState
  | .paneBreak now home draw panel seen =>
      some { s with tm := (paneBreak now home draw panel seen s.tm).1 }
  | .move now request => some { s with tm := (request.serve now s.tm).1 }
  | .save order captured live =>
      some
        { s with
          file := some (enrichSnapshotWithLiveProc live (createSnapshot order captured s.tm)) }
  | .restore env draws fresh =>
      some
        { s with
          tm :=
            (s.file.bind (restoreSession env draws)).getD (.new fresh.1 fresh.2 env.home) }

/-! ## §2. Remote agents and where they are. -/

/-- A terminal for which an agent command is saved. -/
def Records (panel : Panel) : Prop :=
  panel.panelType = .terminal ∧
    (panel.agentSessionId.isSome = true ∨
      (detectAgentResumeCommand panel.title panel.command).isSome = true)

/-- A terminal that was created in a remote workspace, with an agent. -/
def RemoteAgent (s : RemoteState) (panel : Panel) : Prop :=
  panel.id ∈ s.remote ∧ Records panel

/-- The restore makes of a saved panel a terminal of a local workspace, and runs the
agent command that was saved for the panel. -/
def RunsLocally (env : RestoreEnv) (snapshot : AppSessionSnapshot) (tm : TabManager)
    (id : Uuid) : Prop :=
  ∃ w ∈ snapshot.windows, ∃ ws ∈ w.tabManager.workspaces, ∃ p ∈ ws.panels, p.id = id ∧
    ∃ ws' ∈ tm.workspaces,
      (∃ draw windowId, ws' = buildWorkspaceFromSnapshot env draw ws windowId) ∧
        ws'.remoteConfig = none ∧ restoredPanelType env p.panelType = some .terminal ∧
          ∃ p' ∈ ws'.panels.lookup id, p' = restoredPanel env ws.remoteConfig p .terminal ∧
            ∃ command, p.agentResumeCommand = some command ∧ p'.command = some command

/-- The panel that a request moves, and its target. -/
def wanted (tm : TabManager) : MoveRequest → Option (Uuid × Uuid)
  | .surfaceMove params seen =>
      match resolvePanelId seen params.panel, params.workspace with
      | .ok panelId, .given target => some (panelId, target)
      | _, _ => none
  | .paneJoin params =>
      match params.panel, tm.selectedId with
      | .given panelId, some target => some (panelId, target)
      | _, _ => none
  | .panelMoveToWorkspace params seen =>
      match resolvePanelId seen params.panel, params.workspace with
      | .ok panelId, .given target => some (panelId, target)
      | _, _ => none
  | .movePanelToWorkspace panelId target => some (panelId, target)

/-- The step lets no agent of a remote panel out of the remote workspaces. -/
def Contained (s : RemoteState) : RemoteAction → Prop
  | .paneBreak _ _ _ panel seen =>
      ∀ panelId, resolvePanelId seen panel = .ok panelId →
        ∀ source, s.tm.findWorkspaceWithPanel panelId = some source →
          1 < source.panels.keys.length → ∀ p ∈ source.panels.lookup panelId, ¬ s.RemoteAgent p
  | .move _ request =>
      ∀ panelId target, wanted s.tm request = some (panelId, target) →
        ∀ source ∈ s.tm.workspaces, ∀ p ∈ source.panels.lookup panelId, s.RemoteAgent p →
          ∀ ws ∈ s.tm.workspaces, ws.id = target → ws.remoteConfig ≠ none
  -- a remote process does not show in the local `/proc`
  | .save _ _ live =>
      ∀ ws ∈ s.tm.workspaces, ws.remoteConfig = none → ∀ id, ∀ p ∈ ws.panels.lookup id,
        p.id ∈ s.remote → p.panelType = .terminal → live.claudeSession p.id = none
  | .restore _ _ _ => True

/-! ## §3. Panels that stay where they are. -/

/-- A property of every panel and its workspace's connection. -/
def AllPanels (Q : Option RemoteConfig → Panel → Prop) (tm : TabManager) : Prop :=
  ∀ ws ∈ tm.workspaces, ∀ id p, ws.panels.lookup id = some p → Q ws.remoteConfig p

/-- Every workspace is one of before, with the same connection and no more panels. -/
def Thinned (tm tm' : TabManager) : Prop :=
  ∀ ws' ∈ tm'.workspaces, ∃ ws ∈ tm.workspaces, ws.id = ws'.id ∧
    ws.remoteConfig = ws'.remoteConfig ∧
      ∀ id p, ws'.panels.lookup id = some p → ws.panels.lookup id = some p

theorem Thinned.refl (tm : TabManager) : Thinned tm tm :=
  fun ws hws => ⟨ws, hws, rfl, rfl, fun _ _ h => h⟩

theorem Thinned.trans {tm tm' tm'' : TabManager} (h : Thinned tm tm') (h' : Thinned tm' tm'') :
    Thinned tm tm'' := by
  intro ws'' hws''
  obtain ⟨ws', hws', hid', hrc', hp'⟩ := h' ws'' hws''
  obtain ⟨ws, hws, hid, hrc, hp⟩ := h ws' hws'
  exact ⟨ws, hws, hid.trans hid', hrc.trans hrc', fun id p hl => hp id p (hp' id p hl)⟩

theorem Thinned.allPanels {Q : Option RemoteConfig → Panel → Prop} {tm tm' : TabManager}
    (h : Thinned tm tm') (hq : AllPanels Q tm) : AllPanels Q tm' := by
  intro ws' hws' id p hp
  obtain ⟨ws, hws, _, hrc, hsub⟩ := h ws' hws'
  rw [← hrc]
  exact hq ws hws id p (hsub id p hp)

theorem dropIfEmpty_thinned (tm : TabManager) (now : Nat) (wsId : Uuid) :
    Thinned tm (tm.dropIfEmpty now wsId) := by
  unfold TabManager.dropIfEmpty
  split
  · cases hr : tm.removeById now wsId with
    | none => exact Thinned.refl tm
    | some removed =>
        have hsub : ∀ ws ∈ removed.2.workspaces, ws ∈ tm.workspaces := by
          obtain ⟨i, _, hi⟩ := Option.bind_eq_some_iff.mp hr
          unfold TabManager.remove at hi
          split at hi
          · cases hi
          · obtain rfl := Option.some.inj hi
            exact fun ws hws => List.mem_of_mem_eraseIdx hws
        exact fun ws hws => ⟨ws, hsub ws hws, rfl, rfl, fun _ _ h => h⟩
  · exact Thinned.refl tm

/-- What a workspace loses when a panel leaves it. -/
theorem detachPanel_spec {ws ws' : Workspace} {panelId : Uuid} {panel : Panel}
    (h : ws.detachPanel panelId = some (panel, ws')) :
    ws.panels.lookup panelId = some panel ∧ ws'.id = ws.id ∧ ws'.remoteConfig = ws.remoteConfig ∧
      ∀ id p, ws'.panels.lookup id = some p → ws.panels.lookup id = some p := by
  unfold Workspace.detachPanel at h
  split at h
  · cases h
  · next hlookup =>
      obtain ⟨rfl, rfl⟩ := Prod.mk.inj (Option.some.inj h)
      refine ⟨hlookup, rfl, rfl, fun id p hp => ?_⟩
      have herase := AList.lookup_erase_eq_ite panelId id ws.panels
      rw [herase] at hp
      split at hp
      · cases hp
      · exact hp

theorem thinned_modifyFirst {tm : TabManager} {source source' : Workspace} {q : Workspace → Bool}
    {panelId : Uuid} {panel : Panel} (hs : tm.workspaces.find? q = some source)
    (h : source.detachPanel panelId = some (panel, source')) :
    Thinned tm { tm with workspaces := tm.workspaces.modifyFirst q fun _ => source' } := by
  intro ws' hws'
  obtain ⟨_, hid, hrc, hsub⟩ := detachPanel_spec h
  rcases List.mem_modifyFirst hws' with hws' | ⟨_, _, _, rfl⟩
  · exact ⟨ws', hws', rfl, rfl, fun _ _ hl => hl⟩
  · exact ⟨source, List.mem_of_find?_eq_some hs, hid.symm, hrc.symm, hsub⟩

theorem detachFrom_spec {tm tm' : TabManager} {wsId panelId : Uuid} {panel : Panel}
    (h : tm.detachFrom wsId panelId = some (panel, tm')) :
    Thinned tm tm' ∧ ∃ ws ∈ tm.workspaces, ws.panels.lookup panelId = some panel := by
  obtain ⟨ws, hws, hd⟩ := Option.bind_eq_some_iff.mp h
  obtain ⟨detached, hdetached, heq⟩ := Option.map_eq_some_iff.mp hd
  obtain ⟨rfl, rfl⟩ := Prod.mk.inj heq
  exact ⟨thinned_modifyFirst hws hdetached,
    ws, List.mem_of_find?_eq_some hws, (detachPanel_spec hdetached).1⟩

/-- A panel that comes into a workspace. -/
theorem insert_allPanels {Q : Option RemoteConfig → Panel → Prop} {tm : TabManager}
    {target : Uuid} {ws : Workspace} {panel : Panel} (hq : AllPanels Q tm)
    (hw : tm.workspace target = some ws) (hp : Q ws.remoteConfig panel)
    (orientation : SplitOrientation) :
    AllPanels Q (tm.setWorkspace target (ws.insertPanel panel orientation)) := by
  intro ws' hws' id p hl
  rcases List.mem_modifyFirst hws' with hws' | ⟨_, _, _, rfl⟩
  · exact hq ws' hws' id p hl
  · have hpanels : (ws.insertPanel panel orientation).panels = ws.panels.insert panel.id panel := rfl
    rw [hpanels, AList.lookup_insert_eq_ite] at hl
    show Q ws.remoteConfig p
    split at hl
    · obtain rfl := Option.some.inj hl
      exact hp
    · exact hq ws (List.mem_of_find?_eq_some hw) id p hl

/-! ## §4. The moves. -/

/-- The panel `panelId` may come into the workspace `target`. -/
def MayArrive (Q : Option RemoteConfig → Panel → Prop) (tm : TabManager)
    (panelId target : Uuid) : Prop :=
  ∀ source ∈ tm.workspaces, ∀ p, source.panels.lookup panelId = some p →
    ∀ ws ∈ tm.workspaces, ws.id = target → Q ws.remoteConfig p

/-- The tail of every move: out of one workspace, into another. -/
theorem moved_allPanels {Q : Option RemoteConfig → Panel → Prop} {tm tm' : TabManager}
    {wsId panelId target : Uuid} {panel : Panel} {ws : Workspace} {now : Nat}
    (hq : AllPanels Q tm) (hd : tm.detachFrom wsId panelId = some (panel, tm'))
    (hw : (tm'.dropIfEmpty now wsId).workspace target = some ws)
    (harrive : MayArrive Q tm panelId target) (orientation : SplitOrientation) :
    AllPanels Q
      ((tm'.dropIfEmpty now wsId).setWorkspace target (ws.insertPanel panel orientation)) := by
  obtain ⟨hthin, source, hsource, hp⟩ := detachFrom_spec hd
  have hall := hthin.trans (dropIfEmpty_thinned tm' now wsId)
  refine insert_allPanels (hall.allPanels hq) hw ?_ orientation
  obtain ⟨ws₀, hws₀, hid, hrc, _⟩ := hall ws (List.mem_of_find?_eq_some hw)
  have htarget : ws.id = target := by simpa using List.find?_some hw
  rw [← hrc]
  exact harrive source hsource panel hp ws₀ hws₀ (hid.trans htarget)

section Moves

variable {Q : Option RemoteConfig → Panel → Prop} {tm : TabManager}

theorem wanted_of_names {panelId target : Uuid} {request : MoveRequest}
    (h : request.Names tm panelId target) : wanted tm request = some (panelId, target) := by
  cases h with
  | surfaceMove hp ht => simp [wanted, hp, ht]
  | paneJoin hp ht => simp [wanted, hp, ht]
  | panelMoveToWorkspace hp ht => simp [wanted, hp, ht]
  | movePanelToWorkspace => rfl

theorem moves_allPanels (hq : AllPanels Q tm) {now : Nat} {panelId target : Uuid}
    {tm' : TabManager} (harrive : MayArrive Q tm panelId target)
    (h : Moves now tm panelId target tm') : AllPanels Q tm' := by
  cases h with
  | stays => exact hq
  | leaves hd =>
      exact ((detachFrom_spec hd).1.trans (dropIfEmpty_thinned _ now _)).allPanels hq
  | comes hd hw orientation => exact moved_allPanels hq hd hw harrive orientation

/-- **A move keeps a property of all panels** when the panel may arrive. -/
theorem serve_allPanels (hq : AllPanels Q tm) (now : Nat) (request : MoveRequest)
    (h : ∀ panelId target, wanted tm request = some (panelId, target) →
      MayArrive Q tm panelId target) :
    AllPanels Q (request.serve now tm).1 := by
  rcases serve_moves now tm request with hsame | ⟨panelId, target, hnames, hmoves⟩
  · rw [hsame]
    exact hq
  · exact moves_allPanels hq (h panelId target (wanted_of_names hnames)) hmoves

/-- `pane.break`: the panel goes into a workspace without a connection. -/
theorem paneBreak_allPanels (hq : AllPanels Q tm) (now : Nat) (home : String) (draw : Uuid × Uuid)
    (panel : UuidParam) (seen : TabManager)
    (h : ∀ panelId, resolvePanelId seen panel = .ok panelId →
      ∀ source, tm.findWorkspaceWithPanel panelId = some source → 1 < source.panels.keys.length →
        ∀ p, source.panels.lookup panelId = some p → Q none p) :
    AllPanels Q (paneBreak now home draw panel seen tm).1 := by
  unfold paneBreak
  split
  · exact hq
  next panelId hpanel =>
    split
    · exact hq
    next source hf =>
      split
      · exact hq
      next hmany =>
        split
        · exact hq
        next p source' hd =>
          have hthin := (thinned_modifyFirst hf hd).trans (dropIfEmpty_thinned _ now source.id)
          have hp : Q none p := h panelId hpanel source hf (by omega) p (detachPanel_spec hd).1
          intro ws' hws' id p' hl
          rcases List.mem_append.mp hws' with hws' | hws'
          · exact hthin.allPanels hq ws' hws' id p' hl
          · obtain rfl := List.mem_singleton.mp hws'
            -- the default panel is gone before the panel comes
            have hnone : ((Workspace.new draw.1 draw.2 home).panels.erase draw.2).lookup id = none := by
              rw [AList.lookup_erase_eq_ite]
              by_cases hid : id = draw.2
              · rw [if_pos hid]
              · rw [if_neg hid]
                exact AList.lookup_eq_none.mpr (by simpa [Workspace.new, AList.mem_keys] using hid)
            have hpanels := AList.lookup_insert_eq_ite panelId id p
              ((Workspace.new draw.1 draw.2 home).panels.erase draw.2)
            rw [hnone] at hpanels
            rw [show (brokenOut draw home source.currentDirectory panelId p).panels =
              ((Workspace.new draw.1 draw.2 home).panels.erase draw.2).insert panelId p from rfl,
              hpanels] at hl
            split at hl
            · obtain rfl := Option.some.inj hl
              exact hp
            · cases hl

end Moves

/-! ## §5. Saving and restoring. -/

/-- No remote agent outside of the remote workspaces. -/
def Inside (remote : List Uuid) (remoteConfig : Option RemoteConfig) (panel : Panel) : Prop :=
  remoteConfig = none → panel.id ∈ remote → ¬ Records panel

/-- The same of a saved panel: nothing in it resumes an agent. -/
structure SavedInside (p : SessionPanelSnapshot) : Prop where
  known    : ∃ panelType, panelType ≠ .agentMonitor ∧ p.panelType = panelTypeName panelType
  terminal :
    p.panelType = "terminal" →
      p.agentSessionId = none ∧ p.agentResumeCommand = none ∧
        detectAgentResumeCommand p.title p.command = none

def FileInside (remote : List Uuid) (snapshot : AppSessionSnapshot) : Prop :=
  ∀ w ∈ snapshot.windows, ∀ ws ∈ w.tabManager.workspaces, ws.remoteConfig = none →
    ∀ p ∈ ws.panels, p.id ∈ remote → SavedInside p

theorem panelTypeName_terminal {panelType : PanelType} :
    panelTypeName panelType = "terminal" ↔ panelType = .terminal := by
  cases panelType <;> simp [panelTypeName]

/-- Only a terminal is restored as a terminal. -/
theorem terminal_of_restored {env : RestoreEnv} {p : SessionPanelSnapshot} (h : SavedInside p)
    (hr : restoredPanelType env p.panelType = some .terminal) : p.panelType = "terminal" := by
  obtain ⟨panelType, hm, hname⟩ := h.known
  rw [hname] at hr ⊢
  by_cases hrestored : IsRestored env panelType
  · rw [restoredPanelType_of_restored env hrestored] at hr
    exact panelTypeName_terminal.mpr (Option.some.inj hr)
  · rw [restoredPanelType_none env hm hrestored] at hr
    cases hr

theorem savedPanel_title (captured : Captured) (live : LiveProc) (panel : Panel) :
    (savedPanel captured live panel).title = panel.title := by
  unfold savedPanel enrichPanel
  cases live.cwd (capturePanel captured panel).id <;> dsimp only <;> split <;> rfl

/-- A saved panel of which `/proc` shows no Claude. -/
theorem savedInside_of (captured : Captured) {live : LiveProc} {panel : Panel}
    (hm : panel.panelType ≠ .agentMonitor) (hr : ¬ Records panel)
    (hlive : panel.panelType = .terminal → live.claudeSession panel.id = none) :
    SavedInside (savedPanel captured live panel) := by
  obtain ⟨_, hsession, hresume⟩ := savedPanel_fields captured live panel
  obtain ⟨_, htype, _, hcommand, _⟩ := savedPanel_captured captured live panel
  refine ⟨⟨panel.panelType, hm, htype⟩, fun hterminal => ?_⟩
  have hpanel : panel.panelType = .terminal := panelTypeName_terminal.mp (htype ▸ hterminal)
  have hnone := not_or.mp fun h => hr ⟨hpanel, h⟩
  have hid : panel.agentSessionId = none := by simpa using hnone.1
  have hdetect : detectAgentResumeCommand panel.title panel.command = none := by
    simpa using hnone.2
  have hof : sessionOf live panel = none := by
    simp [sessionOf, hid, hlive hpanel]
  refine ⟨hsession.trans hof, ?_, ?_⟩
  · rw [hresume]
    simp [savedResume, hof, hdetect]
  · rw [savedPanel_title, hcommand]
    exact hdetect

/-- Every saved workspace is one of the manager's. -/
theorem mem_saved {order : HashOrder} {captured : Captured} {live : LiveProc} {tm : TabManager}
    {w : SessionWindowSnapshot}
    (hw : w ∈ (enrichSnapshotWithLiveProc live (createSnapshot order captured tm)).windows)
    {ws : SessionWorkspaceSnapshot} (hws : ws ∈ w.tabManager.workspaces) :
    ∃ ws₀ ∈ tm.workspaces, ws = savedWorkspace order captured live ws₀ := by
  simp only [enrichSnapshotWithLiveProc, createSnapshot, List.map_map] at hw
  obtain ⟨e, he, rfl⟩ := List.mem_map.mp hw
  have hws' : ws ∈ (e.2.map (makeWsSnapshot order captured)).map (enrichWorkspace live) := hws
  rw [List.map_map] at hws'
  obtain ⟨ws₀, hws₀, rfl⟩ := List.mem_map.mp hws'
  have hmem : ws₀ ∈ (windowMap tm).flatMap (·.2) := List.mem_flatMap.mpr ⟨e, he, hws₀⟩
  rw [windowMap_eq, Buckets.mem_gather windowOrder] at hmem
  exact ⟨ws₀, (List.mem_filter.mp hmem).1, rfl⟩

/-- **A save** holds no remote agent in a local workspace. -/
theorem save_inside {remote : List Uuid} {tm : TabManager} (h : AllPanels (Inside remote) tm)
    (order : HashOrder) (captured : Captured) {live : LiveProc}
    (hlive : ∀ ws ∈ tm.workspaces, ws.remoteConfig = none → ∀ id, ∀ p ∈ ws.panels.lookup id,
      p.id ∈ remote → p.panelType = .terminal → live.claudeSession p.id = none) :
    FileInside remote
      (enrichSnapshotWithLiveProc live (createSnapshot order captured tm)) := by
  intro w hw ws hws hlocal p hp hremote
  obtain ⟨ws₀, hws₀, rfl⟩ := mem_saved hw hws
  rw [savedWorkspace_panels] at hp
  obtain ⟨e, he, rfl⟩ := List.mem_map.mp hp
  obtain ⟨hiter, htype⟩ := List.mem_filter.mp he
  have hlookup := (order.mem_iter ws₀.panels e.1 e.2).mp hiter
  have hid : e.2.id ∈ remote := by
    rw [← (savedPanel_captured captured live e.2).1]
    exact hremote
  exact savedInside_of captured (of_decide_eq_true htype) (h ws₀ hws₀ e.1 e.2 hlookup hlocal hid)
    (hlive ws₀ hws₀ hlocal e.1 e.2 hlookup hid)

/-- A panel of a restored workspace is restored from one of the snapshot's. -/
theorem mem_restored_panels (env : RestoreEnv) (remoteConfig : Option RemoteConfig)
    (snapshots : List SessionPanelSnapshot) (panels : Panels) {id : Uuid} {p' : Panel}
    (h : (snapshots.foldl
        (fun panels p =>
          match restoredPanelType env p.panelType with
          | some panelType => panels.insert p.id (restoredPanel env remoteConfig p panelType)
          | none => panels) panels).lookup id = some p') :
    panels.lookup id = some p' ∨ ∃ p ∈ snapshots, ∃ panelType,
      restoredPanelType env p.panelType = some panelType ∧
        p' = restoredPanel env remoteConfig p panelType := by
  induction snapshots generalizing panels with
  | nil => exact .inl h
  | cons p rest ih =>
      rcases ih _ h with hold | ⟨q, hq, panelType, htype, heq⟩
      · dsimp only at hold
        cases htype : restoredPanelType env p.panelType with
        | none =>
            rw [htype] at hold
            exact .inl hold
        | some panelType =>
            rw [htype] at hold
            dsimp only at hold
            rw [AList.lookup_insert_eq_ite] at hold
            split at hold
            · exact .inr ⟨p, List.mem_cons_self, panelType, htype, (Option.some.inj hold).symm⟩
            · exact .inl hold
      · exact .inr ⟨q, List.mem_cons_of_mem p hq, panelType, htype, heq⟩

/-- The command of a restored local terminal without an agent is its own. -/
theorem restoredCommand_inside (env : RestoreEnv) {p : SessionPanelSnapshot}
    (hresume : p.agentResumeCommand = none) : restoredCommand env none p = p.command := by
  simp [restoredCommand, hresume]

/-- **A restore** of such a file brings no remote agent into a local workspace. -/
theorem restore_inside {remote : List Uuid} {snapshot : AppSessionSnapshot}
    (h : FileInside remote snapshot) (env : RestoreEnv) (draws : Draws) {tm : TabManager}
    (hr : restoreSession env draws snapshot = some tm) :
    AllPanels (Inside remote) tm := by
  intro ws' hws' id p' hl hlocal hid hrecords
  rw [(restoreSession_spec env draws hr).1] at hws'
  obtain ⟨e, he, hmem⟩ := List.mem_flatMap.mp hws'
  obtain ⟨f, hf, rfl⟩ := List.mem_map.mp hmem
  have hw : e.1 ∈ snapshot.windows :=
    (List.mem_filter.mp (List.fst_mem_of_mem_zipIdx he)).1
  have hws : f.1 ∈ e.1.tabManager.workspaces :=
    (List.mem_filter.mp (List.fst_mem_of_mem_zipIdx hf)).1
  have hconfig : f.1.remoteConfig = none := hlocal
  rcases mem_restored_panels env f.1.remoteConfig f.1.panels ∅ hl with hnone | hfrom
  · simp at hnone
  · obtain ⟨p, hp, panelType, htype, rfl⟩ := hfrom
    have hinside := h e.1 hw f.1 hws hconfig p hp hid
    obtain ⟨hterminal, hagent⟩ := hrecords
    have hterminal' : panelType = .terminal := hterminal
    subst hterminal'
    obtain ⟨hsession, hresume, hdetect⟩ :=
      hinside.terminal (terminal_of_restored hinside htype)
    rcases hagent with hagent | hagent
    · have hnone : (restoredPanel env f.1.remoteConfig p .terminal).agentSessionId = none := hsession
      rw [hnone] at hagent
      cases hagent
    · have hcommand : (restoredPanel env f.1.remoteConfig p .terminal).command = p.command := by
        show restoredCommand env f.1.remoteConfig p = p.command
        rw [hconfig, restoredCommand_inside env hresume]
      have htitle : (restoredPanel env f.1.remoteConfig p .terminal).title = p.title := rfl
      rw [hcommand, htitle, hdetect] at hagent
      cases hagent

/-! ## §6. Runs. -/

structure Inv (s : RemoteState) : Prop where
  tm   : AllPanels (Inside s.remote) s.tm
  file : ∀ snapshot, s.file = some snapshot → FileInside s.remote snapshot

/-- At the start nothing is saved, and the remote panels are in remote workspaces. -/
structure Start (s : RemoteState) : Prop where
  file   : s.file = none
  remote :
    ∀ ws ∈ s.tm.workspaces, ws.remoteConfig = none → ∀ id, ∀ p ∈ ws.panels.lookup id,
      p.id ∉ s.remote

theorem Start.inv {s : RemoteState} (h : s.Start) : s.Inv where
  tm ws hws id p hp hlocal hid := absurd hid (h.remote ws hws hlocal id p hp)
  file snapshot hfile := by
    rw [h.file] at hfile
    cases hfile

/-- A fresh manager has one shell. -/
theorem new_inside (remote : List Uuid) (id panelId : Uuid) (home : String) :
    AllPanels (Inside remote) (TabManager.new id panelId home) := by
  intro ws hws key p hp _ _ hrecords
  obtain rfl := List.mem_singleton.mp hws
  have hpanel : p = .newTerminal panelId := by
    have hlookup := AList.lookup_insert_eq_ite panelId key (Panel.newTerminal panelId) ∅
    have hp' : (AList.insert panelId (Panel.newTerminal panelId) ∅ : Panels).lookup key = some p := hp
    rw [hlookup] at hp'
    split at hp'
    · exact (Option.some.inj hp').symm
    · simp at hp'
  subst hpanel
  have hdetect : detectAgentResumeCommand none none = none := rfl
  rcases hrecords.2 with h | h
  · cases h
  · rw [show detectAgentResumeCommand (Panel.newTerminal panelId).title
      (Panel.newTerminal panelId).command = none from hdetect] at h
    cases h

/-- **One step** keeps the remote agents inside. -/
theorem step_contained {s s' : RemoteState} {a : RemoteAction} (hinv : s.Inv)
    (hok : s.Contained a) (hs : step s a = some s') : s'.Inv ∧ s'.remote = s.remote := by
  cases a with
  | paneBreak now home draw panel seen =>
      obtain rfl := Option.some.inj hs
      refine ⟨⟨?_, hinv.file⟩, rfl⟩
      refine paneBreak_allPanels hinv.tm now home draw panel seen ?_
      intro panelId hpanel source hf hmany p hp _ hid hrecords
      exact hok panelId hpanel source hf hmany p hp ⟨hid, hrecords⟩
  | move now request =>
      obtain rfl := Option.some.inj hs
      refine ⟨⟨?_, hinv.file⟩, rfl⟩
      refine serve_allPanels hinv.tm now request ?_
      intro panelId target hwanted source hsource p hp ws hws hid hlocal hremote hrecords
      exact hok panelId target hwanted source hsource p hp ⟨hremote, hrecords⟩ ws hws hid hlocal
  | save order captured live =>
      obtain rfl := Option.some.inj hs
      refine ⟨⟨hinv.tm, ?_⟩, rfl⟩
      intro snapshot hfile
      obtain rfl := Option.some.inj hfile
      exact save_inside hinv.tm order captured hok
  | restore env draws fresh =>
      obtain rfl := Option.some.inj hs
      refine ⟨⟨?_, hinv.file⟩, rfl⟩
      show AllPanels (Inside s.remote) _
      cases hr : s.file.bind (restoreSession env draws) with
      | none => exact new_inside s.remote fresh.1 fresh.2 env.home
      | some tm =>
          obtain ⟨snapshot, hfile, hrestored⟩ := Option.bind_eq_some_iff.mp hr
          exact restore_inside (hinv.file snapshot hfile) env draws hrestored

theorem run_contained {s s' : RemoteState} {as : List RemoteAction} (hinv : s.Inv)
    (hok : EveryStep step Contained s as) (hex : exec step s as = some s') :
    s'.Inv ∧ s'.remote = s.remote := by
  induction as generalizing s with
  | nil =>
      obtain rfl := Option.some.inj hex
      exact ⟨hinv, rfl⟩
  | cons a as ih =>
      obtain ⟨m, hm, hrest⟩ := exec_cons.mp hex
      obtain ⟨hinv', hremote⟩ := step_contained hinv hok.1 hm
      obtain ⟨hlast, hremote'⟩ := ih hinv' (hok.2 m hm) hrest
      exact ⟨hlast, hremote'.trans hremote⟩

/-- **Remote agents never run here after a restore**, in every run that moves none of
them out of the remote workspaces. -/
theorem remote_agents_stay {s₀ s s' : RemoteState} {as : List RemoteAction} (h0 : s₀.Start)
    (hok : EveryStep step Contained s₀ as) (hex : exec step s₀ as = some s)
    {env : RestoreEnv} {draws : Draws} {fresh : Uuid × Uuid}
    (_hr : step s (.restore env draws fresh) = some s') :
    ∀ snapshot, s.file = some snapshot → ∀ id ∈ s₀.remote,
      ¬ RunsLocally env snapshot s'.tm id := by
  intro snapshot hfile id hid hruns
  obtain ⟨hinv, hremote⟩ := run_contained h0.inv hok hex
  obtain ⟨w, hw, ws, hws, p, hp, hpid, ws', _, hbuilt, hlocal, htype, _, _, _, command, hresume, _⟩ :=
    hruns
  obtain ⟨draw, windowId, rfl⟩ := hbuilt
  have hinside : SavedInside p := by
    refine hinv.file snapshot hfile w hw ws hws hlocal p hp ?_
    rw [hremote, hpid]
    exact hid
  obtain ⟨_, hnone, _⟩ := hinside.terminal (terminal_of_restored hinside htype)
  rw [hnone] at hresume
  cases hresume

/-- A remote shell in which Claude has run. -/
def claudePanel : Panel := { Panel.newTerminal 11 with agentSessionId := some "s1" }

/-- Two workspaces on one host. -/
def sshStart : RemoteState where
  tm :=
    { workspaces :=
        [{ Workspace.new 1 11 "/" with
            remoteConfig := some { destination := "me@host" }
            layout       := .paneNode [11, 12] (some 11)
            panels       := (AList.singleton 11 claudePanel).insert 12 (.newTerminal 12) },
          { Workspace.new 2 13 "/" with remoteConfig := some { destination := "me@host" } }]
      selectedIndex := some 0 }
  remote := [11, 12, 13]

theorem sshStart_start : sshStart.Start where
  file   := rfl
  remote := by
    intro ws hws hlocal
    rcases List.mem_cons.mp hws with rfl | hws
    · cases hlocal
    · obtain rfl := List.mem_singleton.mp hws
      cases hlocal

/-- Claude's tab goes to the other workspace of the host. -/
theorem remote_agents_stay_moved :
    ∃ s s' snapshot, exec step sshStart
        [.move 0 (.movePanelToWorkspace 11 2), .save entryOrder {} {}] = some s ∧
      s.file = some snapshot ∧ step s (.restore sampleEnv sampleDraws (8, 9)) = some s' ∧
        ∀ id ∈ sshStart.remote, ¬ RunsLocally sampleEnv snapshot s'.tm id := by
  have hmove : sshStart.Contained (.move 0 (.movePanelToWorkspace 11 2)) := by
    intro panelId target _ source _ p _ _ ws hws _
    rcases List.mem_cons.mp hws with rfl | hws
    · simp
    · obtain rfl := List.mem_singleton.mp hws
      simp
  have hok : EveryStep step Contained sshStart
      [.move 0 (.movePanelToWorkspace 11 2), .save entryOrder {} {}] :=
    ⟨hmove, fun _ _ => ⟨fun _ _ _ _ _ _ _ _ => rfl, fun _ _ => trivial⟩⟩
  refine ⟨_, _, _, rfl, rfl, rfl, ?_⟩
  exact remote_agents_stay sshStart_start hok rfl rfl _ rfl

/-- `pane.break` makes a local workspace of Claude's tab, and the restore resumes the
session on this machine. -/
theorem remote_agent_runs_here :
    sshStart.Start ∧ 11 ∈ sshStart.remote ∧
      ∃ s s' snapshot, exec step sshStart
          [.paneBreak 0 "/" (21, 22) (.given 11) sshStart.tm, .save entryOrder {} {}] = some s ∧
        s.file = some snapshot ∧ step s (.restore sampleEnv sampleDraws (8, 9)) = some s' ∧
          RunsLocally sampleEnv snapshot s'.tm 11 := by
  refine ⟨sshStart_start, by decide, _, _, _, rfl, rfl, rfl, ?_⟩
  let broken : SessionWorkspaceSnapshot :=
    savedWorkspace entryOrder {} {} (brokenOut (21, 22) "/" "/" 11 claudePanel)
  refine ⟨_, List.Mem.head _, broken, List.Mem.tail _ (List.Mem.tail _ (List.Mem.head _)),
    savedPanel {} {} claudePanel, List.Mem.head _, rfl,
    buildWorkspaceFromSnapshot sampleEnv (2002, 3002) broken (some 1000),
    List.Mem.tail _ (List.Mem.tail _ (List.Mem.head _)), ⟨_, _, rfl⟩, rfl, by decide, _, rfl, rfl,
    "claude --resume s1", by decide, by decide⟩

end RemoteState

end Jmux.Session
