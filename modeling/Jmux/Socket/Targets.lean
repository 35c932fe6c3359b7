/-
  Jmux.Socket.Targets — the panel that a request is about (`socket/v2/helpers.rs`,
  `pane.rs`, `surface.rs`, `tab.rs`).

  A handler looks for the panel under a few keys and takes the focused one instead.
  The rest of a handler is written over what this lookup gives.

  Main results:
    * `target_eq_ok`        — a lookup that does not fall back gives the panel that is named.
    * `target_of_fallsBack` — one that falls back gives the focused panel.
    * `panelOf_operation`   — the operation of a request is on the panel of its lookup.
    * `named_target_iff`    — the requests whose named panel is never replaced.
-/
import Jmux.Session.Snapshot
import Jmux.Socket.Pane
import Jmux.Socket.Surface
import Jmux.Socket.V1Agreement

namespace Jmux.Socket

open Jmux.Lib Jmux.Model

/-! ## §1. What a handler leaves behind. -/

/-- What the window is told about a panel. -/
inductive PanelEvent
  | sendInput (panel : Uuid) (text : String)
  | sendKey (panel : Uuid) (keyval keycode : Nat) (mods : Mods)
  | readText (panel : Uuid) (scrollback : Bool) (lines : Option Nat)
  | clearHistory (panel : Uuid)
  | refreshSurface (panel : Uuid)
  | triggerFlash (panel : Uuid)
  deriving DecidableEq

/-- An entry of the answer to `pane.surfaces`. -/
structure SurfaceEntry where
  id        : Uuid
  panelType : String
  title     : String
  focused   : Bool
  deriving DecidableEq

inductive Answer
  | response (r : Response)
  | text (text : String)
  | surfaces (entries : List SurfaceEntry)
  /-- `panel_id`, `direction` and `moved`. -/
  | dragged (panel : Uuid) (direction : String)
  deriving DecidableEq

def Answer.isError : Answer → Bool
  | response r => r.isError
  | _ => false

structure Served where
  tm     : TabManager
  events : List PanelEvent := []
  answer : Answer

/-- What a handler draws, and the window. -/
structure Surroundings (F : Type) where
  now          : Nat
  home         : String
  /-- The ids of a new workspace and of its default panel. -/
  newWorkspace : Uuid × Uuid
  newPanel     : Uuid
  /-- Whether a window takes events. -/
  listens      : Bool
  /-- What it replies to `ReadText`, if it does. -/
  reply        : Option (Option String)
  /-- A divider after `(position + delta).clamp(0.05, 0.95)`, for a panel on its first side. -/
  divider      : F → Rat → Bool → Rat

variable {F : Type}

def Served.of (r : TabManager × Response) : Served := { tm := r.1, answer := .response r.2 }

/-- `let Ok(..) = .. else { return .. }`, where nothing has been done so far. -/
def orReturn {α : Type} (tm : TabManager) (read : Except Response α) (rest : α → Served) :
    Served :=
  match read with
  | .ok a => rest a
  | .error resp => .of (tm, resp)

@[simp] theorem orReturn_ok {α : Type} (tm : TabManager) (a : α) (rest : α → Served) :
    orReturn tm (.ok a) rest = rest a := rfl

/-- `send_ui_event`; that no window takes the event goes unnoticed. -/
def notify (s : Surroundings F) (tm : TabManager) (event : PanelEvent) (answer : Answer) : Served :=
  { tm, events := if s.listens then [event] else [], answer }

/-- What is written through `find_workspace_with_panel_mut`. -/
def writeHolder (tm : TabManager) (panelId : Uuid) (ws : Workspace) : TabManager :=
  { tm with workspaces := tm.workspaces.modifyFirst (panelId ∈ ·.panels) fun _ => ws }

/-! ## §2. The handlers, over the panel that they look up. -/

def paneFocus (tm : TabManager) (target : Except Response Uuid) : Served :=
  orReturn tm target fun panelId =>
  orReturn tm (orElseReturn (notFound "Panel not found") (tm.findWorkspaceWithPanel panelId))
    fun ws =>
  let (ws, focused) := ws.focusPanel panelId
  .of (writeHolder tm panelId ws,
    if focused then .success [("focused", .bool true)] else notFound "Panel not found")

def paneClose (s : Surroundings F) (tm : TabManager) (target : Except Response Uuid) : Served :=
  orReturn tm target fun panelId =>
  let (tm, closed) := tm.closePanel s.now panelId
  .of (tm, if closed then .success [("closed", .bool true)] else notFound "Panel not found")

def paneResize (env : V2Env F) (s : Surroundings F) (params : Value F) (tm : TabManager)
    (target : Except Response Uuid) : Served :=
  orReturn tm (orElseReturn (invalidParams "Provide 'amount' (e.g. 0.05 or -0.05)")
    (f64Param env "amount" params)) fun amount =>
  orReturn tm (orElseReturn (notFound "No workspace selected")
    (tm.selectedIndex.bind fun i => tm.workspaces[i]?.map fun ws => (i, ws))) fun (i, ws) =>
  orReturn tm target fun panelId =>
  match ws.layout.resizePanel panelId (s.divider amount) with
  | some layout =>
      .of ({ tm with workspaces := tm.workspaces.set i { ws with layout } },
        .success [("resized", .bool true)])
  | none => .of (tm, notFound "Panel not in any split")

def paneSurfaces (tm : TabManager) (target : Except Response Uuid) : Served :=
  orReturn tm target fun panelId =>
  orReturn tm (orElseReturn (notFound "Panel not found in any workspace")
    (tm.findWorkspaceWithPanel panelId)) fun ws =>
  let entry (pid : Uuid) : SurfaceEntry :=
    let panel := ws.panels.lookup pid
    { id        := pid
      panelType := (panel.map (Session.panelTypeName ·.panelType)).getD "unknown"
      title     := (panel.map (·.displayTitle)).getD "?"
      focused   := decide (ws.focusedPanelId = some pid) }
  { tm
    answer := .surfaces (((ws.layout.findPaneWithPanelReadonly panelId).getD [panelId]).map entry) }

/-- `panel.toggle_zoom` and the surface action; they differ in what they answer. -/
def zoomPanel (tm : TabManager) (panelId : Uuid) (message : String)
    (fields : List (String × Field)) : Served :=
  orReturn tm (orElseReturn (notFound message) (tm.findWorkspaceWithPanel panelId)) fun ws =>
  let ws := (ws.toggleZoom panelId).1
  .of (writeHolder tm panelId ws, .success (("zoomed", .bool ws.zoomedPanelId.isSome) :: fields))

def panelToggleZoom (tm : TabManager) (target : Except Response Uuid) : Served :=
  orReturn tm target fun panelId =>
  zoomPanel tm panelId "Panel not found in any workspace" [("panel_id", .uuid panelId)]

/-- A UUID given as text. -/
def uuidParam (env : V2Env F) (v : Option (Value F)) : UuidParam :=
  match v.bind Value.asStr with
  | none => .absent
  | some s =>
      match env.parseUuid s with
      | some id => .given id
      | none => .malformed

/-- The key of the target workspace of `panel.move_to_workspace`. -/
def targetWorkspaceParam (params : Value F) : Option (Value F) :=
  ((params.get "workspace").or (params.get "target_workspace")).or
    (params.get "target_workspace_id")

def panelMoveToWorkspace (env : V2Env F) (s : Surroundings F) (params : Value F) (tm : TabManager)
    (target : Except Response Uuid) : Served :=
  orReturn tm target fun panelId =>
  .of (handlePanelMoveToWorkspace s.now
    { panel := .given panelId, workspace := uuidParam env (targetWorkspaceParam params) } tm tm)

def paneBreakOut (s : Surroundings F) (tm : TabManager) (target : Except Response Uuid) : Served :=
  orReturn tm target fun panelId =>
  .of (paneBreak s.now s.home s.newWorkspace (.given panelId) tm tm)

def surfaceSendInput (s : Surroundings F) (params : Value F) (tm : TabManager)
    (target : Except Response Uuid) : Served :=
  orReturn tm (orElseReturn (invalidParams "Provide 'input'") (strParam "input" params))
    fun input =>
  orReturn tm target fun panelId =>
  if s.listens then
    { tm
      events := [.sendInput panelId (truncateStr input maxSurfaceInputLen)]
      answer := .response (.success [("sent", .bool true), ("surface", .uuid panelId)]) }
  else .of (tm, .error "not_ready" "UI is not ready")

def surfaceSendKey (s : Surroundings F) (params : Value F) (tm : TabManager)
    (target : Except Response Uuid) : Served :=
  orReturn tm (orElseReturn (invalidParams "Provide 'key' (e.g. 'c', 'Return', 'Escape')")
    (strParam "key" params)) fun key =>
  orReturn tm (orElseReturn (invalidParams ("Unknown key name: '" ++ key ++ "'"))
    (resolveKeyName key)) fun (keyval, keycode) =>
  orReturn tm target fun panelId =>
  let mods := modsOf (((params.get "mods").bind Value.asArray).getD [])
  notify s tm (.sendKey panelId keyval keycode mods) (.response (.success [("sent", .bool true)]))

def surfaceReadText (s : Surroundings F) (params : Value F) (tm : TabManager)
    (target : Except Response Uuid) : Served :=
  orReturn tm target fun panelId =>
  let scrollback := ((params.get "scrollback").bind Value.asBool).getD false
  let lines := (params.get "lines").bind Value.asU64
  -- without a window the channel of the reply is closed
  notify s tm (.readText panelId scrollback lines) (match if s.listens then s.reply else none with
    | some (some text) => .text text
    | some none => .response (notFound "Surface not ready or not found")
    | none => .response (.error "internal" "GTK thread did not reply"))

inductive SurfaceAction
  | toggleZoom
  | clearScreen
  | refresh
  | flash
  deriving DecidableEq, Repr

def SurfaceAction.parse : String → Option SurfaceAction
  | "toggle_zoom" => some .toggleZoom
  | "clear_screen" => some .clearScreen
  | "refresh" => some .refresh
  | "flash" => some .flash
  | _ => none

def surfaceAction (s : Surroundings F) (params : Value F) (tm : TabManager)
    (target : Except Response Uuid) : Served :=
  orReturn tm target fun panelId =>
  orReturn tm (orElseReturn (invalidParams "Provide 'action'") (strParam "action" params))
    fun action =>
  orReturn tm (orElseReturn
    (invalidParams "Unknown action. Use: toggle_zoom, clear_screen, refresh, flash")
    (SurfaceAction.parse action)) fun action =>
  match action with
  | .toggleZoom => zoomPanel tm panelId "Panel not found" []
  | .clearScreen =>
      notify s tm (.clearHistory panelId) (.response (.success [("cleared", .bool true)]))
  | .refresh =>
      notify s tm (.refreshSurface panelId) (.response (.success [("refreshed", .bool true)]))
  | .flash => notify s tm (.triggerFlash panelId) (.response (.success [("flashed", .bool true)]))

def surfaceHealth (tm : TabManager) (target : Except Response Uuid) : Served :=
  orReturn tm target fun panelId =>
  let found := (tm.findWorkspaceWithPanel panelId).isSome
  .of (tm, .success [("panel_id", .uuid panelId), ("exists", .bool found),
    ("healthy", .bool found)])

def surfaceRefresh (s : Surroundings F) (tm : TabManager) (target : Except Response Uuid) :
    Served :=
  orReturn tm target fun panelId =>
  notify s tm (.refreshSurface panelId) (.response (.success [("refreshed", .bool true)]))

def surfaceClearHistory (s : Surroundings F) (tm : TabManager) (target : Except Response Uuid) :
    Served :=
  orReturn tm target fun panelId =>
  notify s tm (.clearHistory panelId) (.response (.success [("cleared", .bool true)]))

def surfaceMoveTo (env : V2Env F) (s : Surroundings F) (params : Value F) (tm : TabManager)
    (target : Except Response Uuid) : Served :=
  orReturn tm target fun panelId =>
  .of (surfaceMove s.now panelId
    { panel       := .given panelId
      workspace   := uuidParam env (eitherParam "workspace" "workspace_id" params)
      orientation := strParam "orientation" params } tm)

def surfaceReorder (params : Value F) (tm : TabManager) (target : Except Response Uuid) : Served :=
  orReturn tm target fun panelId =>
  orReturn tm (orElseReturn (invalidParams "Provide 'index' (integer)")
    ((params.get "index").bind Value.asU64)) fun index =>
  orReturn tm (orElseReturn (notFound "Panel not found in any workspace")
    (tm.findWorkspaceWithPanel panelId)) fun ws =>
  match ws.layout.reorderPanelInPane panelId index with
  | none => .of (tm, notFound "Panel not found in any pane")
  | some layout =>
      .of (writeHolder tm panelId { ws with layout },
        .success [("panel_id", .uuid panelId), ("index", .int index), ("reordered", .bool true)])

def surfaceDragToSplit (params : Value F) (tm : TabManager) (target : Except Response Uuid) :
    Served :=
  orReturn tm target fun panelId =>
  orReturn tm (orElseReturn (invalidParams "Provide 'direction': left, right, up, down")
    (strParam "direction" params)) fun name =>
  orReturn tm (orElseReturn (invalidParams "direction must be: left, right, up, down")
    (directionOf name)) fun direction =>
  orReturn tm (orElseReturn (notFound "Panel not found in any workspace")
    (tm.findWorkspaceWithPanel panelId)) fun ws =>
  if ws.panels.keys.length < 2 then
    .of (tm, invalidParams "Need at least 2 panels to drag to split")
  else
    let (ws, dragged) := ws.dragToSplit panelId direction
    { tm     := writeHolder tm panelId ws
      answer :=
        if dragged then .dragged panelId name
        else .response (notFound "Could not split panel") }

def tabActionOn (s : Surroundings F) (params : Value F) (tm : TabManager)
    (target : Except Response Uuid) : Served :=
  orReturn tm target fun panelId =>
  .of (handleTabAction s.now
    { panel  := .given panelId
      action := strParam "action" params
      title  := strParam "title" params }
    s.newPanel tm tm)

/-! ## §3. The lookups. -/

/-- The methods whose handlers look a panel up and act on it.  `surface.focus`,
`surface.close` and `surface.send_text` have the handlers of others. -/
inductive PanelMethod
  | paneFocus | paneClose | paneResize | paneBreak | paneSurfaces | panelMoveToWorkspace
  | panelToggleZoom | surfaceSendInput | surfaceSendKey | surfaceReadText | surfaceAction
  | surfaceHealth | surfaceRefresh | surfaceClearHistory | surfaceMove | surfaceReorder
  | surfaceDragToSplit | tabAction
  deriving DecidableEq, Repr

namespace PanelMethod

/-- The panel that the method acts on; `seen` is the tab manager under the lock of
`resolve_panel_id`, `tm` under the one of the handler. -/
def target (env : V2Env F) (params : Value F) (seen tm : TabManager) :
    PanelMethod → Except Response Uuid
  | .paneFocus => do
      let given ← paneParam env params
      orElseReturn (invalidParams "Provide 'panel' or 'id'") given
  | .paneClose => do
      let given ← paneParam env params
      resolvePanelId tm (match given with
        | some id => .given id
        | none => .absent)
  | .surfaceSendInput => do
      let explicit ← panelOrNull env (eitherParam "surface" "panel" params) "surface/panel"
        "Invalid surface/panel UUID format"
      inputTarget tm explicit
  | .paneResize =>
      (strParam "panel" params).elim
        (orElseReturn (notFound "No focused panel") (tm.selected.bind (·.focusedPanelId)))
        fun s => orElseReturn (invalidParams "Invalid panel UUID") (env.parseUuid s)
  -- `surface.send_key` and `surface.read_text` spell out what `resolve_panel_id` does
  | _ => resolvePanelId seen (panelParam env params)

/-- The handler, if that is its panel. -/
def actOn (env : V2Env F) (s : Surroundings F) (params : Value F) (tm : TabManager)
    (target : Except Response Uuid) : PanelMethod → Served
  | .paneFocus => Socket.paneFocus tm target
  | .paneClose => Socket.paneClose s tm target
  | .paneResize => Socket.paneResize env s params tm target
  | .paneBreak => paneBreakOut s tm target
  | .paneSurfaces => Socket.paneSurfaces tm target
  | .panelMoveToWorkspace => Socket.panelMoveToWorkspace env s params tm target
  | .panelToggleZoom => Socket.panelToggleZoom tm target
  | .surfaceSendInput => Socket.surfaceSendInput s params tm target
  | .surfaceSendKey => Socket.surfaceSendKey s params tm target
  | .surfaceReadText => Socket.surfaceReadText s params tm target
  | .surfaceAction => Socket.surfaceAction s params tm target
  | .surfaceHealth => Socket.surfaceHealth tm target
  | .surfaceRefresh => Socket.surfaceRefresh s tm target
  | .surfaceClearHistory => Socket.surfaceClearHistory s tm target
  | .surfaceMove => surfaceMoveTo env s params tm target
  | .surfaceReorder => Socket.surfaceReorder params tm target
  | .surfaceDragToSplit => Socket.surfaceDragToSplit params tm target
  | .tabAction => tabActionOn s params tm target

def serve (env : V2Env F) (s : Surroundings F) (params : Value F) (seen tm : TabManager)
    (m : PanelMethod) : Served :=
  m.actOn env s params tm (m.target env params seen tm)

/-- The keys of the panel, in the order in which the method looks at them. -/
def keys : PanelMethod → List String
  | .paneFocus | .paneClose => ["panel", "surface", "id"]
  | .surfaceSendInput => ["surface", "panel"]
  | .paneResize => ["panel"]
  | _ => ["panel", "surface"]

/-- One of the keys carries a value that is not `null`. -/
def Names (params : Value F) (m : PanelMethod) : Prop :=
  ∃ key ∈ m.keys, ∃ v, params.get key = some v ∧ v.isNull = false

/-- What the request names as the panel: the first of the keys that is not `null`. -/
def named (params : Value F) (m : PanelMethod) : Option (Value F) :=
  m.keys.findSome? fun key => (params.get key).filter (!·.isNull)

/-- What the method looks at: the first of the keys that is there. -/
def lookedUp (params : Value F) (m : PanelMethod) : Option (Value F) :=
  m.keys.findSome? fun key => params.get key

/-- The method takes what it looked up for no panel. -/
def FallsBack (params : Value F) : PanelMethod → Prop
  | .paneFocus => False
  | .paneClose => (PanelMethod.paneClose.lookedUp params).all (·.isNull) = true
  | .surfaceSendInput => (PanelMethod.surfaceSendInput.lookedUp params).all (·.isNull) = true
  | m => (m.lookedUp params).bind Value.asStr = none

end PanelMethod

/-- An error, and nothing else. -/
def Refused (tm : TabManager) (served : Served) : Prop :=
  served.tm = tm ∧ served.events = [] ∧ served.answer.isError = true

/-- The method acts on the panel that is named or refuses. -/
def ActsOnNamed (env : V2Env F) (s : Surroundings F) (params : Value F) (seen tm : TabManager)
    (m : PanelMethod) : Prop :=
  ∀ v, m.named params = some v →
    Refused tm (m.serve env s params seen tm) ∨
    ∃ text panelId, v = .str text ∧ env.parseUuid text = some panelId ∧
      m.serve env s params seen tm = m.actOn env s params tm (.ok panelId)

/-! ## §4. A lookup that does not fall back. -/

namespace PanelMethod

variable {env : V2Env F} {s : Surroundings F} {params : Value F} {seen tm : TabManager}

theorem named_isSome_iff (params : Value F) (m : PanelMethod) :
    (m.named params).isSome = true ↔ m.Names params := by
  unfold named Names
  rw [List.findSome?_isSome_iff]
  constructor
  · rintro ⟨key, hkey, h⟩
    obtain ⟨v, hv⟩ := Option.isSome_iff_exists.mp h
    obtain ⟨hget, hnull⟩ := Option.filter_eq_some_iff.mp hv
    exact ⟨key, hkey, v, hget, by simpa using hnull⟩
  · rintro ⟨key, hkey, v, hget, hnull⟩
    refine ⟨key, hkey, ?_⟩
    rw [hget, Option.filter_some, if_pos (by simpa using hnull)]
    rfl

/-- The first key that is there is the one that names, unless it is `null`. -/
theorem named_of_lookedUp {m : PanelMethod} {v : Value F} (h : m.lookedUp params = some v)
    (hnull : v.isNull = false) : m.named params = some v := by
  unfold lookedUp at h
  unfold named
  generalize m.keys = keys at h ⊢
  induction keys with
  | nil => cases h
  | cons key keys ih =>
      rw [List.findSome?_cons] at h ⊢
      cases hget : params.get key with
      | none =>
          rw [hget] at h
          exact ih h
      | some w =>
          rw [hget] at h
          obtain rfl := Option.some.inj h
          rw [Option.filter_some, if_pos (by simpa using hnull)]

theorem isError_of_panelOrNull {v : Option (Value F)} {subject format : String} {resp : Response}
    (h : panelOrNull env v subject format = .error resp) : resp.isError = true := by
  unfold panelOrNull at h
  split at h
  · cases h
  · cases h
  · split at h
    · cases h; rfl
    · split at h
      · cases h
      · cases h; rfl

theorem panelOrNull_eq_some {v : Option (Value F)} {subject format : String} {panelId : Uuid}
    (h : panelOrNull env v subject format = .ok (some panelId)) :
    ∃ text, v = some (.str text) ∧ env.parseUuid text = some panelId := by
  unfold panelOrNull at h
  split at h
  · cases h
  · cases h
  · next v _ =>
      cases v with
      | str text =>
          dsimp only [Value.asStr] at h
          cases hparse : env.parseUuid text with
          | none =>
              rw [hparse] at h
              cases h
          | some id =>
              rw [hparse] at h
              cases h
              exact ⟨text, rfl, hparse⟩
      | _ => cases h

theorem panelOrNull_eq_none {v : Option (Value F)} {subject format : String} :
    panelOrNull env v subject format = .ok none ↔ v.all (·.isNull) = true := by
  unfold panelOrNull
  cases v with
  | none => simp
  | some v =>
      cases v with
      | null => simp [Value.isNull]
      | str text => cases hparse : env.parseUuid text <;> simp [Value.isNull, Value.asStr, hparse]
      | _ => simp [Value.isNull, Value.asStr]

theorem panelParam_eq_absent :
    panelParam env params = .absent ↔
      (eitherParam "panel" "surface" params).bind Value.asStr = none := by
  unfold panelParam
  cases (eitherParam "panel" "surface" params).bind Value.asStr with
  | none => simp
  | some text => cases hparse : env.parseUuid text <;> simp [hparse]

theorem panelParam_eq_given {panelId : Uuid} (h : panelParam env params = .given panelId) :
    ∃ text, (eitherParam "panel" "surface" params).bind Value.asStr = some text ∧
      env.parseUuid text = some panelId := by
  unfold panelParam at h
  cases htext : (eitherParam "panel" "surface" params).bind Value.asStr with
  | none =>
      rw [htext] at h
      cases h
  | some text =>
      rw [htext] at h
      refine ⟨text, rfl, ?_⟩
      cases hparse : env.parseUuid text with
      | none =>
          dsimp only at h
          rw [hparse] at h
          cases h
      | some id =>
          dsimp only at h
          rw [hparse] at h
          exact congrArg some (UuidParam.given.inj h)

/-- What `resolve_panel_id` gives is named, or nothing is and it is the focused panel. -/
theorem resolvePanelId_eq_ok {u : UuidParam} {panelId : Uuid}
    (h : resolvePanelId seen u = .ok panelId) : u = .given panelId ∨ u = .absent := by
  cases u with
  | absent => exact .inr rfl
  | malformed => cases h
  | given id =>
      left
      exact congrArg UuidParam.given (Except.ok.inj h)

theorem isError_of_resolvePanelId {u : UuidParam} {resp : Response}
    (h : resolvePanelId seen u = .error resp) : resp.isError = true := by
  unfold resolvePanelId at h
  repeat' split at h
  all_goals cases h
  all_goals rfl

theorem findSome?_cons_or (key : String) (keys : List String) (params : Value F) :
    (key :: keys).findSome? (fun key => params.get key)
      = (params.get key).or (keys.findSome? fun key => params.get key) := by
  rw [List.findSome?_cons]
  cases params.get key with
  | none => rfl
  | some v => rfl

theorem lookedUp_pair {m : PanelMethod} {a b : String} (h : m.keys = [a, b]) (params : Value F) :
    m.lookedUp params = eitherParam a b params := by
  unfold lookedUp
  rw [h, findSome?_cons_or, findSome?_cons_or, List.findSome?_nil, Option.or_none]
  rfl

theorem lookedUp_triple {m : PanelMethod} {a b c : String} (h : m.keys = [a, b, c])
    (params : Value F) : m.lookedUp params = (eitherParam a b params).or (params.get c) := by
  unfold lookedUp eitherParam
  rw [h, findSome?_cons_or, findSome?_cons_or, findSome?_cons_or, List.findSome?_nil,
    Option.or_none, Option.or_assoc]

theorem lookedUp_single {m : PanelMethod} {a : String} (h : m.keys = [a]) (params : Value F) :
    m.lookedUp params = params.get a := by
  unfold lookedUp
  rw [h, findSome?_cons_or, List.findSome?_nil, Option.or_none]

theorem bind_asStr_eq_some {o : Option (Value F)} {text : String}
    (h : o.bind Value.asStr = some text) : o = some (.str text) := by
  obtain ⟨v, rfl, hv⟩ := Option.bind_eq_some_iff.mp h
  cases v with
  | str text' =>
      cases hv
      rfl
  | _ => cases hv

/-- A method that resolves the panel as the helper does. -/
theorem resolved {m : PanelMethod} (hkeys : m.keys = ["panel", "surface"]) {panelId : Uuid}
    (hfalls : (m.lookedUp params).bind Value.asStr ≠ none)
    (h : resolvePanelId seen (panelParam env params) = .ok panelId) :
    ∃ text, m.lookedUp params = some (.str text) ∧ env.parseUuid text = some panelId := by
  rw [lookedUp_pair hkeys] at hfalls ⊢
  cases resolvePanelId_eq_ok h with
  | inl hgiven =>
      obtain ⟨text, htext, hparse⟩ := panelParam_eq_given hgiven
      exact ⟨text, bind_asStr_eq_some htext, hparse⟩
  | inr habsent => exact absurd (panelParam_eq_absent.mp habsent) hfalls

/-- **A lookup that does not fall back** gives the panel that is named. -/
theorem target_eq_ok {m : PanelMethod} (hfalls : ¬ m.FallsBack params) {panelId : Uuid}
    (h : m.target env params seen tm = .ok panelId) :
    ∃ text, m.lookedUp params = some (.str text) ∧ env.parseUuid text = some panelId := by
  cases m with
  | paneFocus =>
      obtain ⟨given, hgiven, h⟩ := bind_eq_ok.mp h
      obtain rfl := orElseReturn_eq_ok.mp h
      obtain ⟨text, htext, hparse⟩ := panelOrNull_eq_some hgiven
      exact ⟨text, (lookedUp_triple rfl _).trans htext, hparse⟩
  | paneClose =>
      obtain ⟨given, hgiven, h⟩ := bind_eq_ok.mp h
      cases given with
      -- nothing but `null` is there: the method falls back
      | none =>
          refine absurd ?_ hfalls
          show (lookedUp params .paneClose).all _ = true
          rw [lookedUp_triple rfl]
          exact panelOrNull_eq_none.mp hgiven
      | some id =>
          obtain rfl := Except.ok.inj h
          obtain ⟨text, htext, hparse⟩ := panelOrNull_eq_some hgiven
          exact ⟨text, (lookedUp_triple rfl _).trans htext, hparse⟩
  | surfaceSendInput =>
      obtain ⟨explicit, hexplicit, h⟩ := bind_eq_ok.mp h
      cases explicit with
      | none =>
          refine absurd ?_ hfalls
          show (lookedUp params .surfaceSendInput).all _ = true
          rw [lookedUp_pair rfl]
          exact panelOrNull_eq_none.mp hexplicit
      | some id =>
          obtain ⟨text, htext, hparse⟩ := panelOrNull_eq_some hexplicit
          refine ⟨text, (lookedUp_pair rfl _).trans htext, hparse.trans ?_⟩
          unfold inputTarget at h
          dsimp only at h
          cases hws : tm.findWorkspaceWithPanel id with
          | none =>
              rw [hws] at h
              cases h
          | some ws =>
              rw [hws] at h
              exact congrArg some (Except.ok.inj h)
  | paneResize =>
      unfold target at h
      dsimp only at h
      cases htext : strParam "panel" params with
      | none =>
          refine absurd ?_ hfalls
          show (lookedUp params .paneResize).bind Value.asStr = none
          rw [lookedUp_single rfl]
          exact htext
      | some text =>
          rw [htext] at h
          exact ⟨text, (lookedUp_single rfl _).trans (bind_asStr_eq_some htext),
            orElseReturn_eq_ok.mp h⟩
  | _ => exact resolved rfl hfalls h

/-! ## §5. A lookup that fails. -/

theorem isError_of_target {m : PanelMethod} {resp : Response}
    (h : m.target env params seen tm = .error resp) : resp.isError = true := by
  cases m with
  | paneFocus =>
      cases bind_eq_error.mp h with
      | inl hgiven => exact isError_of_panelOrNull hgiven
      | inr hnone =>
          obtain ⟨given, -, hnone⟩ := hnone
          rw [orElseReturn_eq_error hnone]
          rfl
  | paneClose =>
      cases bind_eq_error.mp h with
      | inl hgiven => exact isError_of_panelOrNull hgiven
      | inr hresolve =>
          obtain ⟨given, -, hresolve⟩ := hresolve
          exact isError_of_resolvePanelId hresolve
  | surfaceSendInput =>
      cases bind_eq_error.mp h with
      | inl hexplicit => exact isError_of_panelOrNull hexplicit
      | inr htarget =>
          obtain ⟨explicit, -, htarget⟩ := htarget
          cases explicit with
          | some id =>
              unfold inputTarget at htarget
              dsimp only at htarget
              cases hws : tm.findWorkspaceWithPanel id with
              | none =>
                  rw [hws] at htarget
                  cases htarget
                  rfl
              | some ws =>
                  rw [hws] at htarget
                  cases htarget
          | none =>
              cases bind_eq_error.mp htarget with
              | inl hselected =>
                  rw [orElseReturn_eq_error hselected]
                  rfl
              | inr hfocused =>
                  obtain ⟨ws, -, hfocused⟩ := hfocused
                  rw [orElseReturn_eq_error hfocused]
                  rfl
  | paneResize =>
      unfold target at h
      dsimp only at h
      cases htext : strParam "panel" params with
      | none =>
          rw [htext] at h
          rw [orElseReturn_eq_error h]
          rfl
      | some text =>
          rw [htext] at h
          rw [orElseReturn_eq_error h]
          rfl
  | _ => exact isError_of_resolvePanelId h

theorem refused_of {tm : TabManager} {resp : Response} (h : resp.isError = true) :
    Refused tm (.of (tm, resp)) := ⟨rfl, rfl, h⟩

/-- A check that fails leaves everything as it was. -/
theorem refused_orReturn {α : Type} {tm : TabManager} {error : Response} {o : Option α}
    {rest : α → Served} (herror : error.isError = true) (hrest : ∀ a, Refused tm (rest a)) :
    Refused tm (orReturn tm (orElseReturn error o) rest) := by
  cases o with
  | none => exact refused_of herror
  | some a => exact hrest a

/-- **A lookup that fails** leaves everything as it was. -/
theorem actOn_error (env : V2Env F) (s : Surroundings F) (params : Value F) (tm : TabManager)
    {resp : Response} (h : resp.isError = true) (m : PanelMethod) :
    Refused tm (m.actOn env s params tm (.error resp)) := by
  cases m with
  | paneResize =>
      exact refused_orReturn rfl fun _ => refused_orReturn rfl fun _ => refused_of h
  | surfaceSendInput => exact refused_orReturn rfl fun _ => refused_of h
  | surfaceSendKey =>
      exact refused_orReturn rfl fun _ => refused_orReturn rfl fun _ => refused_of h
  | _ => exact refused_of h

theorem actsOnNamed_of_not_fallsBack (s : Surroundings F) {m : PanelMethod}
    (hfalls : ¬ m.FallsBack params) : ActsOnNamed env s params seen tm m := by
  intro v hnamed
  cases htarget : m.target env params seen tm with
  | error resp =>
      left
      unfold serve
      rw [htarget]
      exact actOn_error env s params tm (isError_of_target htarget) m
  | ok panelId =>
      right
      obtain ⟨text, hlooked, hparse⟩ := target_eq_ok hfalls htarget
      have hv : some v = some (.str text) := hnamed.symm.trans (named_of_lookedUp hlooked rfl)
      refine ⟨text, panelId, Option.some.inj hv, hparse, ?_⟩
      unfold serve
      rw [htarget]

/-! ## §6. A lookup that falls back. -/

/-- What the method reads besides the panel is there and makes sense. -/
def InOrder (env : V2Env F) (params : Value F) : PanelMethod → Prop
  | .paneResize => (f64Param env "amount" params).isSome = true
  | .panelMoveToWorkspace => ∃ id, uuidParam env (targetWorkspaceParam params) = .given id
  | .surfaceSendInput => (strParam "input" params).isSome = true
  | .surfaceSendKey => ((strParam "key" params).bind resolveKeyName).isSome = true
  | .surfaceAction => ((strParam "action" params).bind SurfaceAction.parse).isSome = true
  | .surfaceMove =>
      ∃ id, uuidParam env (eitherParam "workspace" "workspace_id" params) = .given id
  | .surfaceReorder => ((params.get "index").bind Value.asU64).isSome = true
  | .surfaceDragToSplit => ((strParam "direction" params).bind directionOf).isSome = true
  | .tabAction =>
      ∃ action, (strParam "action" params).bind TabAction.parse = some action ∧
        (action = .rename → (strParam "title" params).isSome = true)
  | _ => True

/-- **A lookup that falls back** gives the focused panel. -/
theorem target_of_fallsBack {m : PanelMethod} (hfalls : m.FallsBack params) {ws : Workspace}
    (hselected : tm.selected = some ws) {panelId : Uuid}
    (hfocused : ws.focusedPanelId = some panelId) :
    m.target env params tm tm = .ok panelId := by
  have hresolve : resolvePanelId tm .absent = .ok panelId := by
    unfold resolvePanelId
    rw [hselected]
    dsimp only
    rw [hfocused]
  have hhelper (m : PanelMethod) (hkeys : m.keys = ["panel", "surface"])
      (hnone : (m.lookedUp params).bind Value.asStr = none) :
      resolvePanelId tm (panelParam env params) = .ok panelId := by
    rw [lookedUp_pair hkeys] at hnone
    rw [panelParam_eq_absent.mpr hnone, hresolve]
  cases m with
  | paneFocus => exact hfalls.elim
  | paneClose =>
      have hnull : (lookedUp params .paneClose).all (·.isNull) = true := hfalls
      rw [lookedUp_triple rfl] at hnull
      refine bind_eq_ok.mpr ⟨none, panelOrNull_eq_none.mpr hnull, hresolve⟩
  | surfaceSendInput =>
      have hnull : (lookedUp params .surfaceSendInput).all (·.isNull) = true := hfalls
      rw [lookedUp_pair rfl] at hnull
      refine bind_eq_ok.mpr ⟨none, panelOrNull_eq_none.mpr hnull, ?_⟩
      show (do
        let ws ← orElseReturn _ tm.selected
        orElseReturn _ (ws.focusedPanelId.or ws.layout.allPanelIds.head?)) = _
      rw [hselected, orElseReturn_some, ok_bind, hfocused, Option.some_or, orElseReturn_some]
  | paneResize =>
      have hnone : (lookedUp params .paneResize).bind Value.asStr = none := hfalls
      rw [lookedUp_single rfl] at hnone
      show (strParam "panel" params).elim _ _ = _
      unfold strParam
      rw [hnone, Option.elim_none, hselected, Option.bind_some, hfocused, orElseReturn_some]
  | _ => exact hhelper _ rfl hfalls

/-- Two panels side by side, of which the first is focused. -/
def pairWorkspace (n : Nat) : Workspace where
  id               := n
  currentDirectory := ""
  focusedPanelId   := some (n + 1)
  layout           := (LayoutNode.singlePane (n + 1)).split .horizontal (n + 2)
  panels           := (AList.singleton (n + 1) (Panel.newTerminal (n + 1))).insert (n + 2)
    (.newTerminal (n + 2))

/-- The selected workspace, and one to move a panel to. -/
def stage (n other : Nat) : TabManager where
  workspaces    := [pairWorkspace n, .new other (n + 3) ""]
  selectedIndex := some 0

/-- A window that takes events and replies. -/
def onStage : Surroundings F where
  now          := 0
  home         := ""
  newWorkspace := (0, 0)
  newPanel     := 0
  listens      := true
  reply        := some (some "")
  divider _ position _ := position

theorem mem_singleton_iff {id panelId : Uuid} {panel : Panel} :
    id ∈ (AList.singleton panelId panel : Panels) ↔ id = panelId := by
  rw [AList.mem_keys, AList.keys_singleton, List.mem_singleton]

theorem mem_pair_iff {n id : Nat} :
    id ∈ (pairWorkspace n).panels ↔ id = n + 2 ∨ id = n + 1 := by
  unfold pairWorkspace
  rw [AList.mem_insert, mem_singleton_iff]

theorem lookup_pair (n : Nat) :
    (pairWorkspace n).panels.lookup (n + 1) = some (.newTerminal (n + 1)) := by
  show AList.lookup (n + 1) (AList.insert _ _ _) = _
  rw [AList.lookup_insert_ne (by omega)]
  exact List.dlookup_cons_eq ..

theorem find_pair (n other : Nat) :
    (stage n other).findWorkspaceWithPanel (n + 1) = some (pairWorkspace n) := by
  exact List.find?_cons_of_pos (decide_eq_true (mem_pair_iff.mpr (.inr rfl)))

theorem find_none {n other panelId : Nat} (h : panelId < n) :
    (stage n other).findWorkspaceWithPanel panelId = none := by
  unfold TabManager.findWorkspaceWithPanel stage
  rw [List.find?_eq_none]
  intro ws hws
  have hpair : panelId ∉ (pairWorkspace n).panels := by
    intro hmem
    cases mem_pair_iff.mp hmem <;> omega
  have hother : panelId ∉ (Workspace.new other (n + 3) "").panels := by
    intro hmem
    have heq : panelId = n + 3 := mem_singleton_iff.mp hmem
    omega
  simp only [List.mem_cons, List.not_mem_nil, or_false] at hws
  cases hws with
  | inl h => subst h; simpa using hpair
  | inr h => subst h; simpa using hother

theorem keys_pair (n : Nat) : (pairWorkspace n).panels.keys = [n + 2, n + 1] := by
  show (AList.insert _ _ _).keys = _
  rw [AList.keys_insert, AList.keys_singleton, List.erase_of_not_mem (by simp)]

theorem selected_on_stage (n other : Nat) :
    ((stage n other).selectedIndex.bind fun i =>
      (stage n other).workspaces[i]?.map fun ws => (i, ws)) = some (0, pairWorkspace n) := rfl

theorem workspace_stage (n other : Nat) : (stage n other).workspace n = some (pairWorkspace n) :=
  List.find?_cons_of_pos (decide_eq_true rfl)

theorem other_on_stage {n other : Nat} (hother : other < n) :
    (stage n other).workspace other = some (.new other (n + 3) "") := by
  have hne : ¬ decide ((pairWorkspace n).id = other) = true := by
    rw [decide_eq_true_iff]
    exact Nat.ne_of_gt hother
  show List.find? _ [pairWorkspace n, _] = _
  rw [List.find?_cons_of_neg (p := fun ws : Workspace => decide (ws.id = other)) hne]
  exact List.find?_cons_of_pos (decide_eq_true rfl)

theorem detach_pair (n : Nat) : ∃ r, (pairWorkspace n).detachPanel (n + 1) = some r := by
  unfold Workspace.detachPanel
  rw [lookup_pair]
  exact ⟨_, rfl⟩

/-- The panel leaves the workspace, which stays, and the other one can be found. -/
theorem detach_on_stage {n other : Nat} (hother : other < n) (now : Nat) :
    ∃ panel tm, (stage n other).detachFrom n (n + 1) = some (panel, tm) ∧
      (tm.dropIfEmpty now n).workspace other = some (.new other (n + 3) "") := by
  obtain ⟨⟨panel, ws⟩, hdetached⟩ := detach_pair n
  have hid : ws.id = n ∧ ws.isEmpty = false := by
    unfold Workspace.detachPanel at hdetached
    rw [lookup_pair] at hdetached
    cases hdetached
    refine ⟨rfl, ?_⟩
    show ((pairWorkspace n).panels.erase (n + 1)).keys.isEmpty = false
    rw [AList.keys_erase, keys_pair]
    simp
  have hset : (stage n other).setWorkspace n ws
      = { stage n other with workspaces := [ws, .new other (n + 3) ""] } := by
    unfold TabManager.setWorkspace
    congr 1
    exact if_pos (decide_eq_true rfl)
  refine ⟨panel, (stage n other).setWorkspace n ws, ?_, ?_⟩
  · unfold TabManager.detachFrom
    rw [workspace_stage, Option.bind_some, hdetached]
    rfl
  · rw [hset]
    have hkeep : ({ stage n other with workspaces := [ws, .new other (n + 3) ""] } :
        TabManager).workspace n = some ws := List.find?_cons_of_pos (decide_eq_true hid.1)
    unfold TabManager.dropIfEmpty
    rw [hkeep, Option.any_some, hid.2, if_neg (by simp)]
    show List.find? _ [ws, _] = _
    have hne : ¬ decide (ws.id = other) = true := by
      rw [hid.1, decide_eq_true_iff]
      exact Nat.ne_of_gt hother
    rw [List.find?_cons_of_neg (p := fun ws : Workspace => decide (ws.id = other)) hne]
    exact List.find?_cons_of_pos (decide_eq_true rfl)

theorem close_on_stage (n other : Nat) : ((stage n other).closePanel 0 (n + 1)).2 = true := by
  unfold TabManager.closePanel
  rw [find_pair]
  show ((pairWorkspace n).removePanel (n + 1)).2 = true
  unfold Workspace.removePanel
  rw [lookup_pair]

theorem break_on_stage (n other : Nat) :
    (Socket.paneBreak 0 "" (0, 0) (.given (n + 1)) (stage n other) (stage n other)).2.isError
      = false := by
  obtain ⟨⟨panel, ws⟩, hdetached⟩ := detach_pair n
  unfold Socket.paneBreak resolvePanelId
  dsimp only
  rw [find_pair]
  dsimp only
  rw [keys_pair, if_neg (by simp), hdetached]
  rfl

theorem moveToWorkspace_on_stage {n other : Nat} (hother : other < n) :
    (handlePanelMoveToWorkspace 0 ⟨.given (n + 1), .given other⟩ (stage n other)
      (stage n other)).2.isError = false := by
  obtain ⟨panel, tm, hdetach, harrive⟩ := detach_on_stage hother 0
  unfold handlePanelMoveToWorkspace resolvePanelId TabManager.movePanelToWorkspace
  dsimp only
  rw [other_on_stage hother, find_pair]
  dsimp only
  rw [show (pairWorkspace n).id = n from rfl, if_neg (Nat.ne_of_gt hother), hdetach]
  dsimp only
  rw [harrive]
  rfl

theorem surfaceMove_on_stage {n other : Nat} (hother : other < n) (orientation : Option String) :
    (Socket.surfaceMove 0 (n + 1) ⟨.given (n + 1), .given other, orientation⟩
      (stage n other)).2.isError = false := by
  obtain ⟨panel, tm, hdetach, harrive⟩ := detach_on_stage hother 0
  unfold Socket.surfaceMove
  dsimp only
  rw [find_pair]
  dsimp only
  rw [show (pairWorkspace n).id = n from rfl, if_neg (Nat.ne_of_gt hother), workspace_stage]
  dsimp only
  rw [hdetach]
  dsimp only
  rw [harrive]
  rfl

theorem drag_pair (n : Nat) (direction : Direction) :
    ((pairWorkspace n).dragToSplit (n + 1) direction).2 = true := by
  have htarget : (pairWorkspace n).dragTarget (n + 1) = some (n + 2) := by
    simp [Workspace.dragTarget, pairWorkspace, LayoutNode.split, LayoutNode.singlePane,
      LayoutNode.allPanelIds]
  unfold Workspace.dragToSplit
  rw [if_neg (not_not.mpr (mem_pair_iff.mpr (.inr rfl))), htarget]

theorem tabAction_pair {n : Nat} {action : TabAction} {title : Option String}
    (h : action = .rename → title.isSome = true) (newId : Uuid) :
    (Socket.tabAction (pairWorkspace n) (n + 1) title newId action).2.isError = false := by
  have hpane : (pairWorkspace n).layout.findPaneWithPanelReadonly (n + 1) = some [n + 1] := by
    simp [pairWorkspace, LayoutNode.split, LayoutNode.singlePane,
      LayoutNode.findPaneWithPanelReadonly]
  have hclose (select : Nat → List Uuid → List Uuid) :
      (closeInPane (pairWorkspace n) (n + 1) select).2.isError = false := by
    unfold closeInPane
    rw [hpane]
    rfl
  cases action with
  | rename =>
      obtain ⟨text, rfl⟩ := Option.isSome_iff_exists.mp (h rfl)
      rfl
  | closeLeft => exact hclose _
  | closeRight => exact hclose _
  | closeOthers => exact hclose _
  | _ => rfl

/-- The workspace that the request moves the panel to, if it does. -/
def otherWorkspace (env : V2Env F) (params : Value F) : PanelMethod → Nat
  | .panelMoveToWorkspace => idOf (uuidParam env (targetWorkspaceParam params))
  | .surfaceMove => idOf (uuidParam env (eitherParam "workspace" "workspace_id" params))
  | _ => 0
where
  idOf : UuidParam → Nat
    | .given id => id
    | _ => 0

/-- The focused panel of the stage is acted on. -/
theorem acts_on_stage {n other : Nat} (hother : other < n) {m : PanelMethod}
    (hm : m ≠ .paneFocus) (h : m.InOrder env params)
    (hgoal : other = m.otherWorkspace env params) :
    (m.actOn env onStage params (stage n other) (.ok (n + 1))).answer.isError = false := by
  have hfind := find_pair n other
  cases m with
  | paneFocus => exact absurd rfl hm
  | paneClose =>
      show (if ((stage n other).closePanel 0 (n + 1)).2 then _ else _ : Response).isError = false
      rw [if_pos (close_on_stage n other)]
      rfl
  | paneResize =>
      obtain ⟨amount, hamount⟩ := Option.isSome_iff_exists.mp h
      have hresize : ∃ layout, (pairWorkspace n).layout.resizePanel (n + 1)
          ((onStage (F := F)).divider amount) = some layout := by
        simp [pairWorkspace, LayoutNode.split, LayoutNode.singlePane, LayoutNode.resizePanel,
          LayoutNode.allPanelIds]
      obtain ⟨layout, hlayout⟩ := hresize
      simp only [actOn, Socket.paneResize, hamount, selected_on_stage, orReturn_ok,
        orElseReturn_some, hlayout]
      rfl
  | paneBreak =>
      exact break_on_stage n other
  | paneSurfaces =>
      simp only [actOn, Socket.paneSurfaces, orReturn_ok, hfind, orElseReturn_some]
      rfl
  | panelMoveToWorkspace =>
      obtain ⟨id, hid⟩ := h
      obtain rfl : other = id := hgoal.trans (congrArg otherWorkspace.idOf hid)
      show (handlePanelMoveToWorkspace 0 ⟨_, uuidParam env _⟩ _ _).2.isError = false
      rw [hid]
      exact moveToWorkspace_on_stage hother
  | panelToggleZoom =>
      simp only [actOn, Socket.panelToggleZoom, zoomPanel, orReturn_ok, hfind, orElseReturn_some]
      rfl
  | surfaceSendInput =>
      obtain ⟨input, hinput⟩ := Option.isSome_iff_exists.mp h
      simp only [actOn, Socket.surfaceSendInput, hinput]
      rfl
  | surfaceSendKey =>
      obtain ⟨code, hcode⟩ := Option.isSome_iff_exists.mp h
      obtain ⟨key, hkey, hcode⟩ := Option.bind_eq_some_iff.mp hcode
      simp only [actOn, Socket.surfaceSendKey, orReturn_ok, hkey, hcode, orElseReturn_some]
      rfl
  | surfaceReadText => rfl
  | surfaceAction =>
      obtain ⟨action, haction⟩ := Option.isSome_iff_exists.mp h
      obtain ⟨name, hname, haction⟩ := Option.bind_eq_some_iff.mp haction
      simp only [actOn, Socket.surfaceAction, orReturn_ok, hname, haction, orElseReturn_some]
      cases action with
      | toggleZoom =>
          simp only [zoomPanel, hfind, orElseReturn_some, orReturn_ok]
          rfl
      | _ => rfl
  | surfaceHealth => rfl
  | surfaceRefresh => rfl
  | surfaceClearHistory => rfl
  | surfaceMove =>
      obtain ⟨id, hid⟩ := h
      obtain rfl : other = id := hgoal.trans (congrArg otherWorkspace.idOf hid)
      show (Socket.surfaceMove 0 (n + 1) ⟨_, uuidParam env _, _⟩ _).2.isError = false
      rw [hid]
      exact surfaceMove_on_stage hother _
  | surfaceReorder =>
      obtain ⟨index, hindex⟩ := Option.isSome_iff_exists.mp h
      have hreorder : ∃ layout, (pairWorkspace n).layout.reorderPanelInPane (n + 1) index
          = some layout := by
        simp [pairWorkspace, LayoutNode.split, LayoutNode.singlePane,
          LayoutNode.reorderPanelInPane, LayoutNode.updatePaneWith]
      obtain ⟨layout, hlayout⟩ := hreorder
      simp only [actOn, Socket.surfaceReorder, orReturn_ok, hindex, hfind, orElseReturn_some,
        hlayout]
      rfl
  | surfaceDragToSplit =>
      obtain ⟨direction, hdirection⟩ := Option.isSome_iff_exists.mp h
      obtain ⟨name, hname, hdirection⟩ := Option.bind_eq_some_iff.mp hdirection
      have htwo : ¬ (pairWorkspace n).panels.keys.length < 2 := by
        rw [keys_pair]
        simp
      simp only [actOn, Socket.surfaceDragToSplit, orReturn_ok, hname, hdirection, hfind,
        orElseReturn_some, if_neg htwo, if_pos (drag_pair n direction)]
      rfl
  | tabAction =>
      obtain ⟨action, haction, htitle⟩ := h
      obtain ⟨name, hname, haction⟩ := Option.bind_eq_some_iff.mp haction
      show (handleTabAction 0 ⟨_, strParam "action" params, _⟩ 0 _ _).2.isError = false
      unfold handleTabAction resolvePanelId
      rw [hname]
      dsimp only
      rw [hfind]
      dsimp only
      rw [haction]
      exact tabAction_pair htitle 0

/-- The methods that look for the workspace of the panel, or for its split. -/
def LooksForHolder (params : Value F) : PanelMethod → Prop
  | .surfaceSendInput | .surfaceSendKey | .surfaceReadText | .surfaceHealth | .surfaceRefresh
  | .surfaceClearHistory => False
  | .surfaceAction => (strParam "action" params).bind SurfaceAction.parse = some .toggleZoom
  | _ => True

theorem isError_orReturn {α : Type} {tm : TabManager} {error : Response} {o : Option α}
    {rest : α → Served} (herror : error.isError = true)
    (hrest : ∀ a, (rest a).answer.isError = true) :
    (orReturn tm (orElseReturn error o) rest).answer.isError = true := by
  cases o with
  | none => exact herror
  | some a => exact hrest a

/-- Such a method refuses a panel that is not there. -/
theorem isError_of_missing (s : Surroundings F) {panelId : Uuid}
    (hfind : tm.findWorkspaceWithPanel panelId = none)
    (hsplit : ∀ ws divider, tm.selected = some ws →
      ws.layout.resizePanel panelId divider = none)
    {m : PanelMethod} (hlooks : m.LooksForHolder params) :
    (m.actOn env s params tm (.ok panelId)).answer.isError = true := by
  cases m with
  | paneFocus =>
      simp only [actOn, Socket.paneFocus, orReturn_ok, hfind]
      rfl
  | paneClose =>
      have hclosed : tm.closePanel s.now panelId = (tm, false) := by
        unfold TabManager.closePanel
        rw [hfind]
      simp only [actOn, Socket.paneClose, orReturn_ok, hclosed]
      rfl
  | paneResize =>
      simp only [actOn, Socket.paneResize, orReturn_ok]
      refine isError_orReturn rfl fun amount => ?_
      cases hselected : tm.selectedIndex.bind fun i => tm.workspaces[i]?.map fun ws => (i, ws) with
      | none => rfl
      | some found =>
          obtain ⟨i, hi, hfound⟩ := Option.bind_eq_some_iff.mp hselected
          obtain ⟨ws, hws, rfl⟩ := Option.map_eq_some_iff.mp hfound
          have hnone := hsplit ws (s.divider amount) (Option.bind_eq_some_iff.mpr ⟨i, hi, hws⟩)
          simp only [orElseReturn_some, orReturn_ok, hnone]
          rfl
  | paneBreak =>
      simp only [actOn, paneBreakOut, Socket.paneBreak, resolvePanelId, orReturn_ok, hfind]
      rfl
  | paneSurfaces =>
      simp only [actOn, Socket.paneSurfaces, orReturn_ok, hfind]
      rfl
  | panelMoveToWorkspace =>
      simp only [actOn, Socket.panelMoveToWorkspace, handlePanelMoveToWorkspace, resolvePanelId,
        orReturn_ok, TabManager.movePanelToWorkspace, hfind]
      cases uuidParam env (targetWorkspaceParam params) with
      | absent => rfl
      | malformed => rfl
      | given id =>
          dsimp only
          cases tm.workspace id with
          | none => rfl
          | some ws => rfl
  | panelToggleZoom =>
      simp only [actOn, Socket.panelToggleZoom, zoomPanel, orReturn_ok, hfind]
      rfl
  | surfaceAction =>
      obtain ⟨name, hname, haction⟩ := Option.bind_eq_some_iff.mp hlooks
      simp only [actOn, Socket.surfaceAction, orReturn_ok, hname, haction, orElseReturn_some,
        zoomPanel, hfind]
      rfl
  | surfaceMove =>
      simp only [actOn, surfaceMoveTo, Socket.surfaceMove, orReturn_ok, hfind]
      cases uuidParam env (eitherParam "workspace" "workspace_id" params) with
      | absent => rfl
      | malformed => rfl
      | given id => rfl
  | surfaceReorder =>
      simp only [actOn, Socket.surfaceReorder, orReturn_ok, hfind]
      exact isError_orReturn rfl fun _ => rfl
  | surfaceDragToSplit =>
      simp only [actOn, Socket.surfaceDragToSplit, orReturn_ok, hfind]
      exact isError_orReturn rfl fun _ => isError_orReturn rfl fun _ => rfl
  | tabAction =>
      simp only [actOn, tabActionOn, handleTabAction, resolvePanelId, orReturn_ok, hfind]
      cases strParam "action" params with
      | none => rfl
      | some action => rfl
  | surfaceSendInput => exact hlooks.elim
  | surfaceSendKey => exact hlooks.elim
  | surfaceReadText => exact hlooks.elim
  | surfaceHealth => exact hlooks.elim
  | surfaceRefresh => exact hlooks.elim
  | surfaceClearHistory => exact hlooks.elim

/-- The others tell the window of the panel, or name it in their answer. -/
theorem eq_of_actOn_eq {a b : Uuid} {m : PanelMethod} (hm : m.InOrder env params)
    (hlooks : ¬ m.LooksForHolder params)
    (h : m.actOn env onStage params tm (.ok a) = m.actOn env onStage params tm (.ok b)) :
    a = b := by
  cases m with
  | surfaceSendInput =>
      obtain ⟨input, hinput⟩ := Option.isSome_iff_exists.mp hm
      simp only [actOn, Socket.surfaceSendInput, hinput, orElseReturn_some, orReturn_ok] at h
      exact (PanelEvent.sendInput.inj (List.cons.inj (congrArg Served.events h)).1).1
  | surfaceSendKey =>
      obtain ⟨code, hcode⟩ := Option.isSome_iff_exists.mp hm
      obtain ⟨key, hkey, hcode⟩ := Option.bind_eq_some_iff.mp hcode
      simp only [actOn, Socket.surfaceSendKey, orReturn_ok, hkey, hcode, orElseReturn_some] at h
      exact (PanelEvent.sendKey.inj (List.cons.inj (congrArg Served.events h)).1).1
  | surfaceReadText =>
      exact (PanelEvent.readText.inj (List.cons.inj (congrArg Served.events h)).1).1
  | surfaceAction =>
      obtain ⟨action, haction⟩ := Option.isSome_iff_exists.mp hm
      obtain ⟨name, hname, haction'⟩ := Option.bind_eq_some_iff.mp haction
      simp only [actOn, Socket.surfaceAction, orReturn_ok, hname, haction', orElseReturn_some] at h
      cases action with
      | toggleZoom => exact absurd haction hlooks
      | clearScreen =>
          exact PanelEvent.clearHistory.inj (List.cons.inj (congrArg Served.events h)).1
      | refresh => exact PanelEvent.refreshSurface.inj (List.cons.inj (congrArg Served.events h)).1
      | flash => exact PanelEvent.triggerFlash.inj (List.cons.inj (congrArg Served.events h)).1
  | surfaceHealth =>
      have hfields := Response.success.inj (Answer.response.inj (congrArg Served.answer h))
      exact Field.uuid.inj (Prod.mk.inj (List.cons.inj hfields).1).2
  | surfaceRefresh =>
      exact PanelEvent.refreshSurface.inj (List.cons.inj (congrArg Served.events h)).1
  | surfaceClearHistory =>
      exact PanelEvent.clearHistory.inj (List.cons.inj (congrArg Served.events h)).1
  | _ => exact absurd trivial hlooks

/-- Acting on a panel that is not there leaves something else. -/
theorem differs_on_stage {n other panelId : Nat} (hother : other < n) (hid : panelId < n)
    {m : PanelMethod} (hm : m ≠ .paneFocus) (h : m.InOrder env params)
    (hgoal : other = m.otherWorkspace env params) :
    m.actOn env onStage params (stage n other) (.ok (n + 1)) ≠
      m.actOn env onStage params (stage n other) (.ok panelId) := by
  intro heq
  -- a method that looks for the panel does not find the other one
  by_cases hlooks : m.LooksForHolder params
  · have hacts := acts_on_stage hother hm h hgoal
    have hsplit (ws : Workspace) (divider : Rat → Bool → Rat)
        (hws : (stage n other).selected = some ws) :
        ws.layout.resizePanel panelId divider = none := by
      obtain rfl : pairWorkspace n = ws := Option.some.inj hws
      have h1 : panelId ≠ n + 1 := by omega
      have h2 : panelId ≠ n + 2 := by omega
      simp [pairWorkspace, LayoutNode.split, LayoutNode.singlePane, LayoutNode.resizePanel,
        LayoutNode.allPanelIds, h1, h2]
    rw [heq, isError_of_missing onStage (find_none hid) hsplit hlooks] at hacts
    cases hacts
  -- the other methods tell their panel
  · have hsame : n + 1 = panelId := eq_of_actOn_eq h hlooks heq
    omega

/-! ## §7. A request that is not in order. -/

theorem modifyFirst_found {tm : TabManager} {panelId : Uuid} {ws : Workspace}
    (h : tm.findWorkspaceWithPanel panelId = some ws) :
    tm.workspaces.modifyFirst (panelId ∈ ·.panels) (fun _ => ws) = tm.workspaces := by
  cases List.modifyFirst_split (fun w : Workspace => decide (panelId ∈ w.panels)) (fun _ => ws)
      tm.workspaces with
  | inl hnone => exact hnone.2
  | inr hsome =>
      obtain ⟨as, w, bs, hsplit, -, -, hfind, hedit⟩ := hsome
      obtain rfl : w = ws := Option.some.inj (hfind.symm.trans h)
      rw [hedit, hsplit]

theorem absent_or_malformed {u : UuidParam} (h : ¬ ∃ id, u = .given id) :
    u = .absent ∨ u = .malformed := by
  cases u with
  | absent => exact .inl rfl
  | malformed => exact .inr rfl
  | given id => exact absurd ⟨id, rfl⟩ h

/-- An action that is unknown or lacks its title. -/
theorem refused_tabAction (s : Surroundings F) {panelId : Uuid}
    (h : ¬ PanelMethod.tabAction.InOrder env params) :
    Refused tm (tabActionOn s params tm (.ok panelId)) := by
  unfold tabActionOn
  rw [orReturn_ok]
  cases hname : strParam "action" params with
  | none => exact refused_of rfl
  | some name =>
      cases hfind : tm.findWorkspaceWithPanel panelId with
      | none =>
          simp only [handleTabAction, resolvePanelId, hfind]
          exact refused_of rfl
      | some ws =>
          cases haction : TabAction.parse name with
          | none =>
              simp only [handleTabAction, resolvePanelId, hfind, haction]
              exact refused_of rfl
          | some action =>
              have hparse : (strParam "action" params).bind TabAction.parse = some action := by
                rw [hname]
                exact haction
              -- only a rename lacks something now
              have hrename : action = .rename ∧ strParam "title" params = none := by
                by_contra hcontra
                refine h ⟨action, hparse, fun hrename => ?_⟩
                rw [Option.isSome_iff_ne_none]
                exact fun hnone => hcontra ⟨hrename, hnone⟩
              obtain ⟨rfl, htitle⟩ := hrename
              simp only [handleTabAction, resolvePanelId, hfind, haction, htitle, Socket.tabAction,
                dropClosed, modifyFirst_found hfind]
              exact refused_of rfl

/-- Another parameter that is missing leaves everything as it was. -/
theorem refused_of_not_inOrder (s : Surroundings F) {panelId : Uuid} {m : PanelMethod}
    (h : ¬ m.InOrder env params) : Refused tm (m.actOn env s params tm (.ok panelId)) := by
  cases m with
  | paneResize =>
      have hnone := Option.not_isSome_iff_eq_none.mp h
      simp only [actOn, Socket.paneResize, hnone]
      exact refused_of rfl
  | panelMoveToWorkspace =>
      simp only [actOn, Socket.panelMoveToWorkspace, handlePanelMoveToWorkspace, resolvePanelId,
        orReturn_ok]
      cases absent_or_malformed h with
      | inl habsent => rw [habsent]; exact refused_of rfl
      | inr hmalformed => rw [hmalformed]; exact refused_of rfl
  | surfaceMove =>
      simp only [actOn, surfaceMoveTo, Socket.surfaceMove, orReturn_ok]
      cases absent_or_malformed h with
      | inl habsent => rw [habsent]; exact refused_of rfl
      | inr hmalformed => rw [hmalformed]; exact refused_of rfl
  | surfaceSendInput =>
      have hnone := Option.not_isSome_iff_eq_none.mp h
      simp only [actOn, Socket.surfaceSendInput, hnone]
      exact refused_of rfl
  | surfaceSendKey =>
      have hnone := Option.not_isSome_iff_eq_none.mp h
      simp only [actOn, Socket.surfaceSendKey]
      cases hkey : strParam "key" params with
      | none => exact refused_of rfl
      | some key =>
          rw [hkey] at hnone
          have hcode : resolveKeyName key = none := hnone
          simp only [orElseReturn_some, orReturn_ok, hcode]
          exact refused_of rfl
  | surfaceAction =>
      have hnone := Option.not_isSome_iff_eq_none.mp h
      simp only [actOn, Socket.surfaceAction, orReturn_ok]
      cases hname : strParam "action" params with
      | none => exact refused_of rfl
      | some name =>
          rw [hname] at hnone
          have haction : SurfaceAction.parse name = none := hnone
          simp only [orElseReturn_some, orReturn_ok, haction]
          exact refused_of rfl
  | surfaceReorder =>
      have hnone := Option.not_isSome_iff_eq_none.mp h
      simp only [actOn, Socket.surfaceReorder, orReturn_ok, hnone]
      exact refused_of rfl
  | surfaceDragToSplit =>
      have hnone := Option.not_isSome_iff_eq_none.mp h
      simp only [actOn, Socket.surfaceDragToSplit, orReturn_ok]
      cases hname : strParam "direction" params with
      | none => exact refused_of rfl
      | some name =>
          rw [hname] at hnone
          have hdirection : directionOf name = none := hnone
          simp only [orElseReturn_some, orReturn_ok, hdirection]
          exact refused_of rfl
  | tabAction => exact refused_tabAction s h
  | _ => exact absurd trivial h

theorem refused_serve (s : Surroundings F) {m : PanelMethod} (h : ¬ m.InOrder env params) :
    Refused tm (m.serve env s params seen tm) := by
  unfold serve
  cases htarget : m.target env params seen tm with
  | error resp => exact actOn_error env s params tm (isError_of_target htarget) m
  | ok panelId => exact refused_of_not_inOrder s h

/-! ## §8. The operations of these handlers. -/

/-- The panel that an operation is on. -/
def panelOf : Operation F → Option Uuid
  | .focusPanel _ panel | .closePanel panel | .resizePanel _ panel _ | .breakPanel panel
  | .sendInput panel _ | .sendKey panel _ _ _ | .readText panel _ _ | .clearHistory panel =>
      some panel
  | _ => none

/-- The methods that commands of the V1 help become. -/
def ofV2 : V2Method → Option PanelMethod
  | .surfaceFocus | .paneFocus => some .paneFocus
  | .surfaceClose => some .paneClose
  | .surfaceSendInput => some .surfaceSendInput
  | .surfaceSendKey => some .surfaceSendKey
  | .surfaceReadText => some .surfaceReadText
  | .surfaceClearHistory => some .surfaceClearHistory
  | .paneResize => some .paneResize
  | .paneBreak => some .paneBreak
  | _ => none

/-- The operation of a request is on the panel that the lookup gives. -/
theorem panelOf_operation {req : V2Request F} {m : PanelMethod} (hm : ofV2 req.method = some m)
    {op : Operation F} (h : handle env tm req = some (.ok op)) :
    ∃ panelId, m.target env req.params tm tm = .ok panelId ∧ panelOf op = some panelId := by
  obtain ⟨method, params⟩ := req
  have hfocus (h : handlePaneFocus env tm params = .ok op) :
      ∃ panelId, target env params tm tm .paneFocus = .ok panelId ∧ panelOf op = some panelId := by
    obtain ⟨given, hgiven, h⟩ := bind_eq_ok.mp h
    obtain ⟨panelId, hpanel, h⟩ := bind_eq_ok.mp h
    obtain ⟨ws, -, h⟩ := bind_eq_ok.mp h
    cases h
    exact ⟨panelId, bind_eq_ok.mpr ⟨given, hgiven, hpanel⟩, rfl⟩
  cases method with
  | surfaceFocus =>
      cases hm
      exact hfocus (Option.some.inj h)
  | paneFocus =>
      cases hm
      exact hfocus (Option.some.inj h)
  | surfaceClose =>
      cases hm
      obtain ⟨given, hgiven, h⟩ := bind_eq_ok.mp (Option.some.inj h)
      obtain ⟨panelId, hpanel, h⟩ := bind_eq_ok.mp h
      cases h
      exact ⟨panelId, bind_eq_ok.mpr ⟨given, hgiven, hpanel⟩, rfl⟩
  | surfaceSendInput =>
      cases hm
      obtain ⟨input, -, h⟩ := bind_eq_ok.mp (Option.some.inj h)
      obtain ⟨explicit, hexplicit, h⟩ := bind_eq_ok.mp h
      obtain ⟨panelId, hpanel, h⟩ := bind_eq_ok.mp h
      cases h
      exact ⟨panelId, bind_eq_ok.mpr ⟨explicit, hexplicit, hpanel⟩, rfl⟩
  | surfaceSendKey =>
      cases hm
      obtain ⟨key, -, h⟩ := bind_eq_ok.mp (Option.some.inj h)
      obtain ⟨code, -, h⟩ := bind_eq_ok.mp h
      obtain ⟨panelId, hpanel, h⟩ := bind_eq_ok.mp h
      cases h
      exact ⟨panelId, hpanel, rfl⟩
  | surfaceReadText =>
      cases hm
      obtain ⟨panelId, hpanel, h⟩ := bind_eq_ok.mp (Option.some.inj h)
      cases h
      exact ⟨panelId, hpanel, rfl⟩
  | surfaceClearHistory =>
      cases hm
      obtain ⟨panelId, hpanel, h⟩ := bind_eq_ok.mp (Option.some.inj h)
      cases h
      exact ⟨panelId, hpanel, rfl⟩
  | paneResize =>
      cases hm
      obtain ⟨amount, -, h⟩ := bind_eq_ok.mp (Option.some.inj h)
      obtain ⟨ws, hws, h⟩ := bind_eq_ok.mp h
      obtain ⟨panelId, hpanel, h⟩ := bind_eq_ok.mp h
      cases h
      refine ⟨panelId, ?_, rfl⟩
      unfold target
      rw [orElseReturn_eq_ok.mp hws, Option.bind_some]
      exact hpanel
  | paneBreak =>
      cases hm
      obtain ⟨panelId, hpanel, h⟩ := bind_eq_ok.mp (Option.some.inj h)
      obtain ⟨ws, -, h⟩ := bind_eq_ok.mp h
      cases h
      exact ⟨panelId, hpanel, rfl⟩
  | _ => cases hm

end PanelMethod

/-! ## §9. The requests whose panel is never replaced. -/

/-- The id that the value is the text of. -/
def idNamed (env : V2Env F) : Value F → Nat
  | .str text => (env.parseUuid text).getD 0
  | _ => 0

/-- **A named panel is not replaced**, whatever the state, if and only if the method looks at the
key that names it and can read it, or another parameter is missing. -/
theorem named_target_iff (env : V2Env F) (params : Value F) (m : PanelMethod) :
    (∀ s seen tm, ActsOnNamed env s params seen tm m) ↔
      (m.InOrder env params → m.Names params → ¬ m.FallsBack params) := by
  constructor
  · intro hall horder hnames hfalls
    obtain ⟨v, hv⟩ := Option.isSome_iff_exists.mp ((m.named_isSome_iff params).mpr hnames)
    have hfocus : m ≠ .paneFocus := by
      rintro rfl
      exact hfalls
    -- ids beyond those of the request
    obtain ⟨n, hother, hid⟩ : ∃ n, m.otherWorkspace env params < n ∧ idNamed env v < n :=
      ⟨m.otherWorkspace env params + idNamed env v + 1, by omega, by omega⟩
    let tm := PanelMethod.stage n (m.otherWorkspace env params)
    have hselected : tm.selected = some (PanelMethod.pairWorkspace n) := rfl
    have hserve : m.serve env PanelMethod.onStage params tm tm
        = m.actOn env PanelMethod.onStage params tm (.ok (n + 1)) := by
      unfold PanelMethod.serve
      rw [PanelMethod.target_of_fallsBack hfalls hselected rfl]
    cases hall PanelMethod.onStage tm tm v hv with
    | inl hrefused =>
        have herror := hrefused.2.2
        rw [hserve, PanelMethod.acts_on_stage hother hfocus horder rfl] at herror
        cases herror
    | inr hacts =>
        obtain ⟨text, panelId, rfl, hparse, heq⟩ := hacts
        have hpanel : panelId < n := by
          have hid : (env.parseUuid text).getD 0 < n := hid
          rw [hparse] at hid
          exact hid
        exact PanelMethod.differs_on_stage hother hpanel hfocus horder rfl (hserve.symm.trans heq)
  · intro h s seen tm v hv
    -- out of order, the request is refused whatever panel it gets
    by_cases horder : m.InOrder env params
    · have hnames : m.Names params := (m.named_isSome_iff params).mp (by rw [hv]; rfl)
      have hfalls : ¬ m.FallsBack params := h horder hnames
      exact PanelMethod.actsOnNamed_of_not_fallsBack s hfalls v hv
    · exact .inl (PanelMethod.refused_serve s horder)

/-- The panel 42 is named under `surface`, next to a `null`. -/
def nullAndNamed : Value Int :=
  .obj [("panel", .null), ("surface", .str "00000000-0000-0000-0000-00000000002a")]

/-- A panel that is no text. -/
def noTextNamed : Value Int := .obj [("panel", .int 42), ("amount", .int 1)]

/-- `pane.close` closes the focused panel 41 in place of the panel 42 that is named; and where
the panel is given as a number, `surface.clear_history` and `pane.resize` take the focused one. -/
theorem named_target_replaced :
    ¬ ActsOnNamed sampleV2Env PanelMethod.onStage nullAndNamed (PanelMethod.stage 40 0)
        (PanelMethod.stage 40 0) .paneClose ∧
      ¬ ActsOnNamed sampleV2Env PanelMethod.onStage noTextNamed (PanelMethod.stage 40 0)
        (PanelMethod.stage 40 0) .surfaceClearHistory ∧
      ¬ ActsOnNamed sampleV2Env PanelMethod.onStage noTextNamed (PanelMethod.stage 40 0)
        (PanelMethod.stage 40 0) .paneResize := by
  refine ⟨?_, ?_, ?_⟩
  · intro h
    cases h (.str "00000000-0000-0000-0000-00000000002a") rfl with
    | inl hrefused => exact absurd hrefused.2.2 (by decide)
    | inr hacts =>
        obtain ⟨text, panelId, htext, hparse, heq⟩ := hacts
        obtain rfl := Value.str.inj htext
        obtain rfl : 42 = panelId := Option.some.inj hparse
        have hleft := congrArg (fun served => served.tm.workspaces.map (·.panels.keys)) heq
        exact absurd hleft (by decide)
  · intro h
    cases h (.int 42) rfl with
    | inl hrefused => exact absurd hrefused.2.2 (by decide)
    | inr hacts =>
        obtain ⟨text, panelId, htext, -⟩ := hacts
        cases htext
  · intro h
    cases h (.int 42) rfl with
    | inl hrefused => exact absurd hrefused.2.2 (by decide)
    | inr hacts =>
        obtain ⟨text, panelId, htext, -⟩ := hacts
        cases htext

end Jmux.Socket
