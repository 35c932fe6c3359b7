/-
  Jmux.Socket.V1Serve — a line of a listed call, up to the operation of its V2
  handler.

  What a call addresses is found by the handlers; calls of one kind are settled
  together.

  Main results:
    * `serve_of_readsAs` — a call reaches the arm of its command with its arguments.
    * `placeOf_spec`     — the handlers find the place that a call addresses.
    * `settled_query`, `settled_keyed` — the calls that name a workspace only.
-/
import Jmux.Socket.V1Call

namespace Jmux.Socket

open Jmux.Lib Jmux.Model

variable {F : Type}

/-! ## §1. From the line to the operation. -/

/-- The handler's answer to what a line became. -/
def answer (env : V2Env F) (tm : TabManager) :
    Dispatched F → Option (Except Response (Operation F))
  | .request req => handle env tm req
  | .answered .help => some (.ok .help)
  | .answered .auth => some (.ok .authenticated)
  | .answered _ => none
  | .unknown name =>
      some (.error (.error "unknown_v1_command" ("Unknown command: " ++ name)))

def serve (env : V2Env F) (tm : TabManager) (line : List Char) :
    Option (Except Response (Operation F)) :=
  answer env tm (dispatch env.toV1Env line)

/-- The arm of the dispatcher for a listed command. -/
def HelpCommand.v1 : HelpCommand → Option V1Command
  | close | reorder => none
  | ping => some .ping | capabilities => some .capabilities | identify => some .identify
  | tree => some .tree | auth => some .auth | help => some .help
  | listWindows => some .listWindows | currentWindow => some .currentWindow
  | newWindow => some .newWindow | focusWindow => some .focusWindow
  | closeWindow => some .closeWindow | list => some .listWorkspaces | new => some .newWorkspace
  | select => some .selectWorkspace | current => some .currentWorkspace
  | next => some .nextWorkspace | prev => some .previousWorkspace | last => some .lastWorkspace
  | latestUnread => some .latestUnread | rename => some .renameWorkspace
  | workspaceAction => some .workspaceAction
  | moveWorkspaceToWindow => some .moveWorkspaceToWindow
  | setStatus => some .setStatus | clearStatus => some .clearStatus
  | listStatus => some .listStatus | setProgress => some .setProgress
  | clearProgress => some .clearProgress | log => some .log | clearLog => some .clearLog
  | listLog => some .listLog | reportMeta => some .reportMeta
  | reportMetaBlock => some .reportMetaBlock | clearMeta => some .clearMeta
  | listMeta => some .listMeta | clearMetaBlock => some .clearMetaBlock
  | listMetaBlocks => some .listMetaBlocks | reportPwd => some .reportPwd
  | reportGitBranch => some .reportGitBranch | clearGitBranch => some .clearGitBranch
  | reportPr => some .reportPr | clearPr => some .clearPr | reportTty => some .reportTty
  | reportShellState => some .reportShellState | reportPorts => some .reportPorts
  | portsKick => some .portsKick | listSurfaces => some .listSurfaces
  | currentSurface => some .currentSurface | focusSurface => some .focusSurface
  | send => some .send | sendSurface => some .sendSurface | sendKey => some .sendKey
  | split => some .newSplit | closeSurface => some .closeSurface
  | readScreen => some .readScreen | clearHistory => some .clearHistory
  | listPanes => some .listPanes | focusDirection => some .focusDirection
  | swapPanes => some .swapPanes | resizePane => some .resizePane | breakPane => some .breakPane
  | equalize => some .equalize | notify => some .notify | notifySurface => some .notifySurface
  | notifyTarget => some .notifyTarget | listNotifications => some .listNotifications
  | clearNotifications => some .clearNotifications | openBrowser => some .openBrowser
  | navigate => some .navigate | browserBack => some .browserBack
  | browserForward => some .browserForward | browserReload => some .browserReload
  | settings => some .settings | markdown => some .openMarkdown

theorem ofName_name (c : HelpCommand) : V1Command.ofName c.name = c.v1 := by
  have hall : ∀ c ∈ HelpCommand.all, V1Command.ofName c.name = c.v1 := by decide +kernel
  exact hall c c.mem_all

/-- What the dispatcher finds in a line of a call. -/
structure Parsed (l : V1Line) (c : V1Call) : Prop where
  args  : l.args = c.args
  flags : ∀ key, l.flags.get key = c.options.get key

namespace Parsed

variable {l : V1Line} {c : V1Call} (h : Parsed l c)

include h

theorem workspaceId : l.workspaceId = c.options.tab := by
  unfold V1Line.workspaceId
  rw [h.flags, h.flags]
  exact Option.or_none

theorem panelId : l.panelId = c.options.panel := by
  unfold V1Line.panelId
  rw [h.flags, h.flags]
  exact Option.or_none

theorem arg (i : Nat) (missing : String) : l.arg i missing = (c.args[i]?).getD missing := by
  unfold V1Line.arg
  rw [h.args]

theorem inWorkspace : l.inWorkspace (F := F) = optional "workspace" c.options.tab := by
  unfold V1Line.inWorkspace
  rw [h.workspaceId]

theorem onPanel : l.onPanel (F := F) = optional "surface" c.options.panel := by
  unfold V1Line.onPanel
  rw [h.panelId]

theorem target : l.target (F := F)
    = optional "workspace" c.options.tab ++ optional "surface" c.options.panel := by
  unfold V1Line.target
  rw [h.inWorkspace, h.onPanel]

end Parsed

theorem serve_of_readsAs (env : V2Env F) (tm : TabManager) {line : List Char} {c : V1Call}
    (h : ReadsAs line c) {command : V1Command} (hv : c.command.v1 = some command) :
    ∃ l, Parsed l c ∧ serve env tm line = answer env tm (command.build env.toV1Env l) := by
  refine ⟨parseLine line, ⟨h.args, h.flags⟩, ?_⟩
  unfold serve
  rw [@dispatch_of_parseLine _ env.toV1Env _ command (by rw [h.command, ofName_name, hv])]

/-! ## §2. What is addressed is found. -/

theorem workspaceOf_spec {env : V2Env F} {tm : TabManager} {tab : Option String} {ws : Workspace}
    (h : workspaceOf env tm tab = some ws) :
    ∃ id, Parses env tab id ∧ ∀ message, workspaceOr tm id message = .ok ws := by
  cases tab with
  | none =>
      refine ⟨none, rfl, fun message => ?_⟩
      show orElseReturn _ tm.selected = _
      rw [show tm.selected = some ws from h]
      rfl
  | some t =>
      obtain ⟨id, hid, hws⟩ := Option.bind_eq_some_iff.mp h
      refine ⟨some id, ?_, fun message => ?_⟩
      · unfold Parses
        rw [Option.map_some, Option.map_some, hid]
      · show orElseReturn _ (tm.workspace id) = _
        rw [hws]
        rfl

theorem panel_spec {env : V2Env F} {tm : TabManager} {c : V1Call} {p : Uuid}
    (h : c.panel env tm = some p) :
    ∃ id, Parses env c.options.panel id ∧
      resolvePanelId tm (id.elim .absent .given) = .ok p ∧
      (c.options.panel ≠ none → id = some p) ∧ ∃ ws, tm.findWorkspaceWithPanel p = some ws := by
  unfold V1Call.panel at h
  obtain ⟨q, hq, h⟩ := Option.bind_eq_some_iff.mp h
  obtain ⟨ws, hws, h⟩ := Option.bind_eq_some_iff.mp h
  cases h
  cases hpanel : c.options.panel with
  | none =>
      rw [hpanel] at hq
      obtain ⟨s, hs, hfocus⟩ := Option.bind_eq_some_iff.mp
        (show tm.selected.bind (·.focusedPanelId) = some p from hq)
      refine ⟨none, rfl, ?_, fun hne => absurd rfl hne, ws, hws⟩
      show resolvePanelId tm .absent = _
      unfold resolvePanelId
      simp only [hs, hfocus]
  | some s =>
      rw [hpanel] at hq
      refine ⟨some p, ?_, rfl, fun _ => rfl, ws, hws⟩
      unfold Parses
      rw [Option.map_some, Option.map_some, show env.parseUuid s = some p from hq]

/-- What the handlers find of a place. -/
structure Located (env : V2Env F) (tm : TabManager) (tab panel : Option String) (ws : Workspace)
    (p wsId : Option Uuid) : Prop where
  tab       : Parses env tab wsId
  panel     : Parses env panel p
  workspace : p = none → ∀ message, workspaceOr tm wsId message = .ok ws
  owner     : ∀ q, p = some q → tm.findWorkspaceWithPanel q = some ws
  named     : ∀ q, p = some q → tm.workspace (wsId.getD ws.id) = some ws

theorem placeOf_spec {env : V2Env F} {tm : TabManager} {tab panel : Option String}
    {ws : Workspace} {p : Option Uuid} (h : placeOf env tm tab panel = some (ws, p)) :
    ∃ wsId, Located env tm tab panel ws p wsId := by
  cases panel with
  | none =>
      obtain ⟨ws', hws, heq⟩ := Option.map_eq_some_iff.mp h
      obtain ⟨rfl, rfl⟩ := Prod.mk.inj heq
      obtain ⟨wsId, htab, hor⟩ := workspaceOf_spec hws
      exact ⟨wsId, htab, rfl, fun _ => hor, fun q hq => (by cases hq), fun q hq => (by cases hq)⟩
  | some s =>
      obtain ⟨id, hid, h⟩ := Option.bind_eq_some_iff.mp h
      obtain ⟨owner, howner, h⟩ := Option.bind_eq_some_iff.mp h
      obtain ⟨wsId, hwsId, h⟩ := Option.bind_eq_some_iff.mp h
      split at h
      next hnamed =>
        obtain ⟨rfl, rfl⟩ := Prod.mk.inj (Option.some.inj h)
        have hpanel : Parses env (some s) (some id) := by
          unfold Parses
          rw [Option.map_some, Option.map_some, hid]
        cases tab with
        | none =>
            cases hwsId
            exact ⟨none, rfl, hpanel, fun h => (by cases h),
              fun q hq => Option.some.inj hq ▸ howner, fun q _ => hnamed⟩
        | some t =>
            have htab : Parses env (some t) (some wsId) := by
              unfold Parses
              rw [Option.map_some, Option.map_some, show env.parseUuid t = some wsId from hwsId]
            exact ⟨some wsId, htab, hpanel, fun h => (by cases h),
              fun q hq => Option.some.inj hq ▸ howner, fun q _ => hnamed⟩
      · cases h

/-! ## §3. Calls that agree and calls that differ. -/

/-- The operation comes out of the call exactly if the call is none of those that differ. -/
def Settled (env : V2Env F) (tm : TabManager) (c : V1Call) (op : Operation F) : Prop :=
  ∀ line, ReadsAs line c → (serve env tm line = some (.ok op) ↔ ¬ c.Differs env tm)

variable {env : V2Env F} {tm : TabManager} {c : V1Call} {command : V1Command} {op : Operation F}

theorem settled_of_answer (hv : c.command.v1 = some command)
    (h : ∀ l, Parsed l c →
      (answer env tm (command.build env.toV1Env l) = some (.ok op) ↔ ¬ c.Differs env tm)) :
    Settled env tm c op := by
  intro line hreads
  obtain ⟨l, hl, hserve⟩ := serve_of_readsAs env tm hreads hv
  rw [hserve]
  exact h l hl

theorem settled_of_agrees (hv : c.command.v1 = some command) (hsame : ¬ c.Differs env tm)
    (h : ∀ l, Parsed l c → answer env tm (command.build env.toV1Env l) = some (.ok op)) :
    Settled env tm c op :=
  settled_of_answer hv fun l hl => iff_of_true (h l hl) hsame

theorem settled_of_differs (hv : c.command.v1 = some command) (hdiffers : c.Differs env tm)
    (h : ∀ l, Parsed l c → answer env tm (command.build env.toV1Env l) ≠ some (.ok op)) :
    Settled env tm c op :=
  settled_of_answer hv fun l hl => iff_of_false (h l hl) (not_not_intro hdiffers)

section
variable {α : Type} {args : List String} {a : α}

theorem noArgs_some {names : Option α} (h : noArgs args names = some a) :
    args = [] ∧ names = some a := by
  cases args with
  | nil => exact ⟨rfl, h⟩
  | cons x xs => cases h

theorem oneArg_some {names : String → Option α} (h : oneArg args names = some a) :
    ∃ x, args = [x] ∧ names x = some a := by
  match args, h with
  | [x], h => exact ⟨x, rfl, h⟩

theorem optArg_some {names : Option String → Option α} (h : optArg args names = some a) :
    args = args[0]?.toList ∧ names args[0]? = some a := by
  match args, h with
  | [], h => exact ⟨rfl, h⟩
  | [x], h => exact ⟨rfl, h⟩

theorem twoArgs_some {names : String → String → Option α} (h : twoArgs args names = some a) :
    ∃ x y, args = [x, y] ∧ names x y = some a := by
  match args, h with
  | [x, y], h => exact ⟨x, y, rfl, h⟩

theorem oneOrTwo_some {names : String → Option String → Option α}
    (h : oneOrTwo args names = some a) :
    ∃ x, args = x :: args[1]?.toList ∧ names x args[1]? = some a := by
  match args, h with
  | [x], h => exact ⟨x, rfl, h⟩
  | [x, y], h => exact ⟨x, rfl, h⟩

end

theorem map_truncateStr_self {n : Nat} {o : Option String} (h : ∀ s ∈ o, Fits n s) :
    o.map (truncateStr · n) = o := by
  cases o with
  | none => rfl
  | some s => exact congrArg some (truncateStr_self (h s rfl))

/-- The handler takes the selected workspace, whichever the call names. -/
theorem selected_iff {ws : Workspace} {rest : Workspace → Except Response (Operation F)}
    {named : Uuid → Operation F} (hrest : ∀ s, rest s = .ok (named s.id))
    (hinj : ∀ {a b}, named a = named b → a = b) {error : Response} :
    (orElseReturn error tm.selected >>= rest) = .ok (named ws.id) ↔ some ws.id = tm.selectedId := by
  unfold TabManager.selectedId
  cases tm.selected with
  | none => exact iff_of_false (fun h => by cases h) (fun h => by cases h)
  | some s =>
      rw [orElseReturn_some, ok_bind, hrest, Option.map_some]
      constructor
      · intro h
        rw [hinj (Except.ok.inj h)]
      · intro h
        rw [Option.some.inj h]

/-! ## §4. Calls that address nothing, a workspace or a panel. -/

/-- The command has no parameters and its handler reads none. -/
theorem settled_plain {o : Operation F} (hv : c.command.v1 = some command)
    (hnames : c.intended env tm = noArgs c.args (some o)) (hsame : ¬ c.Differs env tm)
    (h : ∀ l, answer env tm (command.build env.toV1Env l) = some (.ok o))
    (hop : c.intended env tm = some op) : Settled env tm c op := by
  rw [hnames] at hop
  obtain ⟨_, ho⟩ := noArgs_some hop
  cases ho
  exact settled_of_agrees hv hsame fun l _ => h l

theorem onWorkspaceOr_eq {ws : Workspace} (hws : c.workspace env tm = some ws) {params : Value F}
    (hget : eitherParam "workspace" "workspace_id" params = c.options.tab.map .str)
    (message : String) (named : Uuid → Operation F) :
    onWorkspaceOr message env tm named params = .ok (named ws.id) := by
  obtain ⟨id, htab, hor⟩ := workspaceOf_spec hws
  unfold onWorkspaceOr
  rw [parseWorkspaceParam_eq htab hget, ok_bind, hor]
  rfl

/-- The command asks for a workspace only. -/
theorem settled_query {named : Uuid → Operation F} (message : String)
    (hv : c.command.v1 = some command)
    (hnames : c.intended env tm
      = noArgs c.args ((c.workspace env tm).map fun ws => named ws.id))
    (hsame : ¬ c.Differs env tm)
    (h : ∀ l, answer env tm (command.build env.toV1Env l)
      = some (onWorkspaceOr message env tm named (.obj l.inWorkspace)))
    (hop : c.intended env tm = some op) : Settled env tm c op := by
  rw [hnames] at hop
  obtain ⟨_, hmap⟩ := noArgs_some hop
  obtain ⟨ws, hws, rfl⟩ := Option.map_eq_some_iff.mp hmap
  refine settled_of_agrees hv hsame fun l hl => ?_
  rw [h, hl.inWorkspace, onWorkspaceOr_eq hws (by simp [eitherParam])]

/-- The command takes a key that may be missing. -/
theorem settled_keyed {named : Uuid → Option String → Operation F}
    (hv : c.command.v1 = some command)
    (hnames : c.intended env tm
      = optArg c.args fun key => (c.workspace env tm).map fun ws => named ws.id key)
    (hsame : ¬ c.Differs env tm)
    (h : ∀ l, answer env tm (command.build env.toV1Env l)
      = some (let p := .obj (optional "key" l.args[0]? ++ l.inWorkspace)
          onWorkspace env tm (named · (strParam "key" p)) p))
    (hop : c.intended env tm = some op) : Settled env tm c op := by
  rw [hnames] at hop
  obtain ⟨_, hmap⟩ := optArg_some hop
  obtain ⟨ws, hws, rfl⟩ := Option.map_eq_some_iff.mp hmap
  refine settled_of_agrees hv hsame fun l hl => ?_
  rw [h, hl.inWorkspace, hl.args]
  dsimp only
  unfold onWorkspace
  rw [onWorkspaceOr_eq hws (by simp [eitherParam])]
  have hkey : strParam "key" (.obj (optional (F := F) "key" c.args[0]?
      ++ optional "workspace" c.options.tab)) = c.args[0]? := by
    simp [strParam]
  rw [hkey]

theorem resolvePanelId_eq {p : Uuid} (hp : c.panel env tm = some p) {params : Value F}
    (hget : eitherParam "panel" "surface" params = c.options.panel.map .str) :
    resolvePanelId tm (panelParam env params) = .ok p := by
  obtain ⟨id, hparses, hresolve, _⟩ := panel_spec hp
  rw [panelParam_eq hparses hget, hresolve]

end Jmux.Socket
