/-
  Jmux.Goal.Revise — to whom `revise_graph` types (`goal/graph.rs`).

  `create_graph` starts the planning agent in the terminal of a new workspace and
  puts the graph panel beside it; the user may open more panes there.
  `revise_graph` types its prompt into the first panel that the workspace's hash
  map gives, and asks whether a claude process runs in that one.

  Main results:
    * `orchestratorPanel_created` — `ensure_orchestrators_spawned` finds the
                                     planning agent's panel in every order.
    * `revision_reaches_iff`      — the prompt reaches the planning agent exactly
                                     when the map gives its panel first and it is a
                                     claude process.
    * `revision_reaches_always_iff` — in every order exactly when there is no
                                     other panel.
-/
import Jmux.Goal.Create
import Jmux.Model.AgentMonitor

namespace Jmux.Goal

open Jmux.Lib
open Jmux.Model
open Jmux.Session (AgentLaunch agentWorkspace orchestratorWorkspace)

/-! ## §1. `revise_graph`. -/

/-- A process in a panel; `claude` says whether `all_local_claude_cwds` counts it. -/
structure AgentProc where
  panel  : Uuid
  claude : Bool
  deriving DecidableEq

/-- Some agent runs in the panel. -/
def alive (procs : List AgentProc) (panel : Uuid) : Prop := ∃ p ∈ procs, p.panel = panel

/-- `all_local_claude_cwds().contains_key`. -/
def hasClaude (procs : List AgentProc) (panel : Uuid) : Bool :=
  procs.any fun p => p.panel == panel && p.claude

/-- What a request meets: the order in which the map of the workspace is walked, the
processes and the clock. -/
structure ReviseCall where
  name     : String
  note     : String
  order    : HashOrder
  procs    : List AgentProc
  epochNow : Nat := 0
  /-- There is a UI event channel. -/
  channel  : Bool := true

/-- `UiEvent::SendInput`. -/
structure SendInput where
  panelId : Uuid
  text    : String
  deriving DecidableEq

/-- `Path::join`. -/
def joinPath (base rel : String) : String :=
  if rel.toList.head? = some '/' ∨ base = "" then rel
  else if base.toList.getLast? = some '/' then base ++ rel
  else base ++ "/" ++ rel

def GraphSpec.proposalJson (spec : GraphSpec) : String :=
  joinPath (joinPath (joinPath spec.baseCwd spec.outputDirRel) spec.name) "proposal.json"

def revisionPrompt (note : String) (spec : GraphSpec) : String :=
  "Revision requested: " ++ note ++ "\nUpdate " ++ spec.proposalJson
    ++ " (and the .md rendering) accordingly — same JSON schema — then reply with a short "
    ++ "summary and stop."

/-- `ws.panels.keys().next()`. -/
def firstPanel (order : HashOrder) (ws : Workspace) : Option Uuid :=
  (order.iter ws.panels).head?.map (·.1)

/-- The panel that `revise_graph` picks. -/
def revisedPanel (order : HashOrder) (tm : TabManager) (spec : GraphSpec) : Option Uuid :=
  (spec.orchestratorWorkspace.bind tm.workspace).bind (firstPanel order)

/-- The answer, the registry, and what is typed. -/
def handleRevise (call : ReviseCall) (tm : TabManager) (graphs : GraphRegistry) :
    Except String Unit × GraphRegistry × Option SendInput :=
  match graphs.lookup call.name with
  | none => (.error ("unknown graph '" ++ call.name ++ "'"), graphs, none)
  | some spec =>
      let panel := revisedPanel call.order tm spec
      let env : ReviseEnv :=
        { panel, agentAlive := panel.any (hasClaude call.procs), epochNow := call.epochNow }
      match reviseGraph env spec, panel with
      | .ok spec', some panelId =>
          -- the spec is saved before anything is sent
          let graphs := graphs.insert call.name spec'
          if call.channel then
            (.ok (), graphs,
              some { panelId, text := revisionPrompt call.note spec ++ "\r" })
          else (.error "no UI event channel", graphs, none)
      | .ok _, none => (.ok (), graphs, none)
      | .error e, _ => (.error e, graphs, none)

/-! ## §2. The panel of the planning agent. -/

/-- Where `create_graph` starts the planning agent. -/
def agentPanel (launch : AgentLaunch) : Uuid := launch.draw.2

/-- The panel that `ensure_orchestrators_spawned` starts. -/
def orchestratorPanel (order : HashOrder) (ws : Workspace) : Option Uuid :=
  ((order.iter ws.panels).find? fun entry =>
    entry.2.panelType = .terminal ∧ entry.2.command.isSome).map (·.2.id)

/-- The planning agent's terminal. -/
def agentTerminal (launch : AgentLaunch) : Panel :=
  { Panel.newTerminal (agentPanel launch) with
    directory      := some launch.cwd
    command        := some launch.command
    agentSessionId := if launch.custom then none else some launch.sessionId }

/-- What `create_graph` puts into the workspace. -/
theorem lookup_created (launch : AgentLaunch) (graphPanelId : Uuid) (name : String)
    (groupId : Option Uuid) (id : Uuid) :
    (orchestratorWorkspace launch graphPanelId name groupId).panels.lookup id =
      if id = graphPanelId then some (.newGraph graphPanelId name)
      else if id = agentPanel launch then some (agentTerminal launch)
      else none := by
  show ((agentWorkspace launch groupId).panels.insert _ _).lookup id = _
  rw [AList.lookup_insert_eq_ite]
  show (if id = graphPanelId then _ else
    (((AList.singleton launch.draw.2 (Panel.newTerminal launch.draw.2)).modify _ _).modify
      _ _).lookup id) = _
  rw [AList.lookup_modify, AList.lookup_modify, AList.lookup_modify]
  split
  · rfl
  · show (if id = launch.draw.2 then _ else _) = if id = launch.draw.2 then _ else _
    split
    · have hfirst : (AList.singleton launch.draw.2 (Panel.newTerminal launch.draw.2) :
          Panels).lookup launch.draw.2 = some (Panel.newTerminal launch.draw.2) :=
        List.dlookup_cons_eq _ _ _
      rw [if_pos rfl, hfirst]
      rfl
    · next hother => exact List.dlookup_cons_ne _ _ hother

theorem orchestratorPanel_created (order : HashOrder) (launch : AgentLaunch)
    {graphPanelId : Uuid} (hne : graphPanelId ≠ agentPanel launch) (name : String)
    (groupId : Option Uuid) :
    orchestratorPanel order (orchestratorWorkspace launch graphPanelId name groupId) =
      some (agentPanel launch) := by
  unfold orchestratorPanel
  cases hfound : (order.iter
      (orchestratorWorkspace launch graphPanelId name groupId).panels).find? _ with
  | none =>
      have hagent : (orchestratorWorkspace launch graphPanelId name groupId).panels.lookup
          (agentPanel launch) = some (agentTerminal launch) := by
        rw [lookup_created, if_neg hne.symm, if_pos rfl]
      have hterminal : (agentTerminal launch).panelType = .terminal ∧
          (agentTerminal launch).command.isSome = true := ⟨rfl, rfl⟩
      have hno := List.find?_eq_none.mp hfound _ ((order.mem_iter _ _ _).mpr hagent)
      exact absurd (decide_eq_true hterminal) hno
  | some entry =>
      obtain ⟨id, panel⟩ := entry
      have hterminal := List.find?_some hfound
      have hlookup := (order.mem_iter _ _ _).mp (List.mem_of_find?_eq_some hfound)
      rw [lookup_created] at hlookup
      split at hlookup
      · obtain rfl := Option.some.inj hlookup
        simp [Panel.newGraph] at hterminal
      · split at hlookup
        · obtain rfl := Option.some.inj hlookup
          rfl
        · cases hlookup

/-! ## §3. Whom a revision reaches. -/

/-- The plan can be revised. -/
def UnderReview (spec : GraphSpec) : Prop := spec.status = .proposing ∨ spec.status = .proposed

/-- While the planning agent is alive the request succeeds and types to its panel, and
it never types to another one. -/
def Reaches (agent : Uuid) (call : ReviseCall) (tm : TabManager) (graphs : GraphRegistry) : Prop :=
  (alive call.procs agent → (handleRevise call tm graphs).1 = .ok () ∧
    ∃ sent, (handleRevise call tm graphs).2.2 = some sent ∧ sent.panelId = agent) ∧
  ∀ sent, (handleRevise call tm graphs).2.2 = some sent → sent.panelId = agent

/-- While the planning agent is alive there is a UI, the map gives its panel first and a
claude process runs there; a first panel with a claude process is never another one. -/
def Addressed (agent : Uuid) (call : ReviseCall) (ws : Workspace) : Prop :=
  (alive call.procs agent → call.channel = true ∧ firstPanel call.order ws = some agent ∧
    hasClaude call.procs agent = true) ∧
  ∀ panel, firstPanel call.order ws = some panel → hasClaude call.procs panel = true →
    call.channel = true → panel = agent

theorem handleRevise_of_review {call : ReviseCall} {tm : TabManager} {graphs : GraphRegistry}
    {spec : GraphSpec} {wsId : Uuid} {ws : Workspace} (hspec : graphs.lookup call.name = some spec)
    (hreview : UnderReview spec) (horch : spec.orchestratorWorkspace = some wsId)
    (hws : tm.workspace wsId = some ws) :
    ((handleRevise call tm graphs).1 = .ok () ↔ ∃ panel, firstPanel call.order ws = some panel ∧
        hasClaude call.procs panel = true ∧ call.channel = true) ∧
      ∀ panel, (∃ sent, (handleRevise call tm graphs).2.2 = some sent ∧ sent.panelId = panel) ↔
        firstPanel call.order ws = some panel ∧ hasClaude call.procs panel = true ∧
          call.channel = true := by
  have hpanel : revisedPanel call.order tm spec = firstPanel call.order ws := by
    unfold revisedPanel
    rw [horch, Option.bind_some, hws, Option.bind_some]
  have hstatus : ¬ (spec.status ≠ .proposing ∧ spec.status ≠ .proposed) := by
    rintro ⟨hproposing, hproposed⟩
    rcases hreview with h | h
    · exact hproposing h
    · exact hproposed h
  unfold handleRevise
  rw [hspec]
  dsimp only
  rw [hpanel]
  unfold reviseGraph
  rw [if_neg hstatus, horch]
  cases hfirst : firstPanel call.order ws with
  | none => simp
  | some panel =>
      cases hclaude : hasClaude call.procs panel with
      | false => simp [hclaude]
      | true =>
          cases hchannel : call.channel with
          | false => simp [hclaude]
          | true => simp [hclaude]

/-- **Whom a revision reaches**: with the plan under review and the workspace there, the
prompt reaches the planning agent and nobody else exactly when it is addressed. -/
theorem revision_reaches_iff {call : ReviseCall} {tm : TabManager} {graphs : GraphRegistry}
    {spec : GraphSpec} {wsId : Uuid} {ws : Workspace} (hspec : graphs.lookup call.name = some spec)
    (hreview : UnderReview spec) (horch : spec.orchestratorWorkspace = some wsId)
    (hws : tm.workspace wsId = some ws) (agent : Uuid) :
    Reaches agent call tm graphs ↔ Addressed agent call ws := by
  obtain ⟨hok, hsent⟩ := handleRevise_of_review hspec hreview horch hws
  constructor
  · rintro ⟨hreach, honly⟩
    refine ⟨fun halive => ?_, fun panel hfirst hclaude hchannel => ?_⟩
    · obtain ⟨hfirst, hclaude, hchannel⟩ := (hsent agent).mp (hreach halive).2
      exact ⟨hchannel, hfirst, hclaude⟩
    · obtain ⟨sent, hs, rfl⟩ := (hsent panel).mpr ⟨hfirst, hclaude, hchannel⟩
      exact honly sent hs
  · rintro ⟨hfirst, honly⟩
    refine ⟨fun halive => ?_, fun sent hs => ?_⟩
    · obtain ⟨hchannel, hfirst, hclaude⟩ := hfirst halive
      exact ⟨hok.mpr ⟨agent, hfirst, hclaude, hchannel⟩,
        (hsent agent).mpr ⟨hfirst, hclaude, hchannel⟩⟩
    · obtain ⟨hfirst, hclaude, hchannel⟩ := (hsent sent.panelId).mp ⟨sent, hs, rfl⟩
      exact honly sent.panelId hfirst hclaude hchannel

/-! ## §4. Every order of the map. -/

/-- The order that gives one panel before all others. -/
def frontOrder (front : Uuid) : HashOrder where
  iter panels :=
    panels.entries.filter (fun e => e.1 = front) ++
      panels.entries.filter (fun e => !decide (e.1 = front))
  perm _ := List.filter_append_perm _ _

theorem firstPanel_frontOrder {ws : Workspace} {id : Uuid} (hid : id ∈ ws.panels) :
    firstPanel (frontOrder id) ws = some id := by
  obtain ⟨panel, hpanel⟩ := Option.isSome_iff_exists.mp (AList.lookup_isSome.mpr hid)
  have hentry := (AList.mem_entries_iff_lookup ws.panels id panel).mpr hpanel
  have hmem : (⟨id, panel⟩ : Sigma fun _ : Uuid => Panel) ∈
      ws.panels.entries.filter (·.1 = id) := List.mem_filter.mpr ⟨hentry, by simp⟩
  show ((ws.panels.entries.filter (fun e => e.1 = id) ++ _).head?).map (·.1) = some id
  cases hfront : ws.panels.entries.filter (·.1 = id) with
  | nil =>
      rw [hfront] at hmem
      cases hmem
  | cons entry rest =>
      have hsame : entry ∈ ws.panels.entries.filter (·.1 = id) := by
        rw [hfront]
        exact List.mem_cons_self
      have hkey : entry.1 = id := by simpa using (List.mem_filter.mp hsame).2
      simp [hkey]

theorem mem_of_firstPanel {order : HashOrder} {ws : Workspace} {id : Uuid}
    (h : firstPanel order ws = some id) : id ∈ ws.panels := by
  obtain ⟨⟨key, panel⟩, hhead, rfl⟩ := Option.map_eq_some_iff.mp h
  exact AList.mem_of_lookup ((order.mem_iter _ _ _).mp (List.mem_of_head? hhead))

theorem firstPanel_exists (order : HashOrder) {ws : Workspace} {id : Uuid} (hid : id ∈ ws.panels) :
    ∃ first, firstPanel order ws = some first := by
  obtain ⟨panel, hpanel⟩ := Option.isSome_iff_exists.mp (AList.lookup_isSome.mpr hid)
  have hmem := (order.mem_iter ws.panels id panel).mpr hpanel
  unfold firstPanel
  cases hiter : order.iter ws.panels with
  | nil =>
      rw [hiter] at hmem
      cases hmem
  | cons entry rest => exact ⟨entry.1, rfl⟩

/-- **In every order** a living planning agent is reached exactly when its terminal is the
only panel of the workspace, and a claude process runs there. -/
theorem revision_reaches_always_iff {call : ReviseCall} {tm : TabManager} {graphs : GraphRegistry}
    {spec : GraphSpec} {wsId : Uuid} {ws : Workspace} (hspec : graphs.lookup call.name = some spec)
    (hreview : UnderReview spec) (horch : spec.orchestratorWorkspace = some wsId)
    (hws : tm.workspace wsId = some ws) (hchannel : call.channel = true) {agent : Uuid}
    (halive : alive call.procs agent) (hagent : agent ∈ ws.panels) :
    (∀ order, Reaches agent { call with order } tm graphs) ↔
      (∀ id ∈ ws.panels, id = agent) ∧ hasClaude call.procs agent = true := by
  have hiff : ∀ order, Reaches agent { call with order } tm graphs ↔
      Addressed agent { call with order } ws := fun order =>
    @revision_reaches_iff { call with order } tm graphs spec wsId ws hspec hreview horch hws agent
  constructor
  · intro h
    constructor
    · intro id hid
      have haddr := ((hiff (frontOrder id)).mp (h (frontOrder id))).1 halive
      exact Option.some.inj ((firstPanel_frontOrder hid).symm.trans haddr.2.1)
    · exact (((hiff call.order).mp (h call.order)).1 halive).2.2
  · rintro ⟨honly, hclaude⟩ order
    obtain ⟨first, hfirst⟩ := firstPanel_exists order hagent
    have hsame : first = agent := honly first (mem_of_firstPanel hfirst)
    refine (hiff order).mpr ⟨fun _ => ⟨hchannel, ?_, hclaude⟩, fun panel hpanel _ _ => ?_⟩
    · rw [← hsame]
      exact hfirst
    · exact honly panel (mem_of_firstPanel hpanel)

/-! ## §5. A workspace as `create_graph` leaves it, and one with a pane of the user. -/

def planner : AgentLaunch where
  draw      := (1, 2)
  cwd       := "/home/u/repo"
  title     := "graph: parser"
  command   := "claude"
  sessionId := "s"

/-- The agent in panel 2, the graph in panel 3. -/
def plannedWorkspace : Workspace := orchestratorWorkspace planner 3 "parser" none

/-- The user has opened a claude of his own in panel 4. -/
def sharedWorkspace : Workspace :=
  plannedWorkspace.insertPanel
    { Panel.newTerminal 4 with command := some "claude" } .vertical

def plannedTabs (ws : Workspace) : TabManager where
  workspaces    := [ws]
  selectedIndex := some 0

def plannedGraphs : GraphRegistry :=
  AList.singleton "parser"
    { name := "parser", baseCwd := "/home/u/repo", orchestratorWorkspace := some 1 }

def revision (front : Uuid) : ReviseCall where
  name  := "parser"
  note  := "smaller nodes"
  order := frontOrder front
  procs := [{ panel := 2, claude := true }, { panel := 4, claude := true }]

/-- The agent's panel comes first. -/
theorem revision_reaches_planner :
    Reaches 2 (revision 2) (plannedTabs plannedWorkspace) plannedGraphs := by
  refine (revision_reaches_iff rfl (.inl rfl) rfl rfl 2).mpr ?_
  exact ⟨fun _ => ⟨rfl, by decide, rfl⟩, fun panel hfirst _ _ => by
    exact Option.some.inj (hfirst.symm.trans (by decide))⟩

/-- The graph panel comes first: the request fails, and says that the agent is not
running.  The user's pane comes first: his agent gets the prompt. -/
theorem revision_misses_planner :
    alive (revision 3).procs 2 ∧
      ¬ Reaches 2 (revision 3) (plannedTabs plannedWorkspace) plannedGraphs ∧
      (handleRevise (revision 4) (plannedTabs sharedWorkspace) plannedGraphs).2.2.map (·.panelId) =
        some 4 ∧
      ¬ Reaches 2 (revision 4) (plannedTabs sharedWorkspace) plannedGraphs := by
  have halive : alive (revision 3).procs 2 := ⟨_, List.mem_cons_self, rfl⟩
  refine ⟨halive, ?_, by decide, ?_⟩
  · intro h
    obtain ⟨sent, hsent, _⟩ := (h.1 halive).2
    have hnone : (handleRevise (revision 3) (plannedTabs plannedWorkspace)
        plannedGraphs).2.2.isNone = true := by decide
    rw [hsent] at hnone
    cases hnone
  · intro h
    obtain ⟨sent, hsent, hpanel⟩ := (h.1 halive).2
    have hfour : (handleRevise (revision 4) (plannedTabs sharedWorkspace)
        plannedGraphs).2.2.map (·.panelId) = some 4 := by decide
    rw [hsent] at hfour
    have hsame : sent.panelId = 4 := Option.some.inj hfour
    rw [hpanel] at hsame
    cases hsame

end Jmux.Goal
