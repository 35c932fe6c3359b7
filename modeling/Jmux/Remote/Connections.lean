/-
  Jmux.Remote.Connections — the SSH connections of the remote workspaces
  (`remote/session.rs`, `ui/window/event_handler.rs`, `app.rs`).

  The main loop starts a thread for each connect event.  The thread connects, puts its
  controller into the map of sessions and starts a monitor, which looks every ten seconds
  whether the map still has a session for its workspace and whether its own connection is
  alive.  Disconnecting and the cleanup after a closed workspace take the session out of
  the map and stop it.

  Every critical section is one step, and all of them interleave.  A controller that
  nobody holds any more is dropped, which nothing here can see.

  Main results:
    * `sessions_watched`    — in every run, each session in the map has its own monitor.
    * `no_rivals_iff`       — a run in which no monitor ever watches over the session of
                               another connection is one in which no connection is stored
                               while a monitor of its workspace is still running.
    * `session_leaves`      — in such a run a session goes when it is disconnected, when
                               its workspace is gone, or when its own connection is lost.
-/
import Jmux.Lib.Transition
import Jmux.Model.Workspace

namespace Jmux.Remote

open Jmux.Lib Jmux.Model

/-! ## §1. The controller of one connection. -/

inductive RemoteState
  | disconnected
  | connecting
  | connected (proxyPort : Nat) (daemonVersion : String)
  | error (message : String)
  deriving DecidableEq, Repr

/-- What the parts of `start` come to. -/
structure StartEnv where
  bootstrap : Except String String := .error ""
  /-- `RemoteRpcClient::new`. -/
  spawn     : Except String Unit := .ok ()
  /-- The version in the answer to `hello`. -/
  hello     : Except String String := .ok ""
  /-- The port of the proxy. -/
  proxy     : Except String Nat := .ok 0
  relay     : Bool := false

structure RemoteSessionController where
  config : RemoteConfig
  state  : RemoteState := .disconnected
  /-- The RPC client, with its `alive` flag. -/
  rpc    : Option Bool := none
  proxy  : Bool := false
  relay  : Bool := false
  deriving DecidableEq

namespace RemoteSessionController

/-- The daemon is installed unless the configuration names one. -/
def withDaemon (env : StartEnv) (c : RemoteSessionController) :
    Except String RemoteSessionController :=
  if c.config.remoteDaemonPath.isSome then .ok c
  else env.bootstrap.map fun path =>
    { c with config := { c.config with remoteDaemonPath := some path } }

def start (env : StartEnv) (c : RemoteSessionController) :
    Except String Unit × RemoteSessionController :=
  let c := { c with state := .connecting }
  match c.withDaemon env with
  | .error e => (.error e, { c with state := .error ("Bootstrap failed: " ++ e) })
  | .ok c =>
      match env.spawn with
      -- no state is set here: it stays `connecting`
      | .error e => (.error e, c)
      | .ok () =>
          match env.hello with
          | .error e => (.error e, { c with state := .error e })
          | .ok version =>
              match env.proxy with
              | .error e => (.error e, { c with state := .error e })
              | .ok port =>
                  (.ok (), { c with
                    state := .connected port version, rpc := some true, proxy := true
                    relay := env.relay })

def stop (c : RemoteSessionController) : RemoteSessionController :=
  { c with relay := false, proxy := false, rpc := none, state := .disconnected }

def isAlive (c : RemoteSessionController) : Bool := c.rpc.getD false

/-- The RPC client's reader thread has met the end of the stream. -/
def lose (c : RemoteSessionController) : RemoteSessionController :=
  { c with rpc := c.rpc.map fun _ => false }

end RemoteSessionController

/-! ## §2. The threads, the map and the main loop. -/

/-- A connection, by the number of its thread. -/
abbrev ConnId := Nat

inductive UiEvent
  | remoteConnect (workspaceId : Uuid)
  | remoteDisconnect (workspaceId : Uuid)
  | remoteStateChanged (workspaceId : Uuid) (state : RemoteState)
  deriving DecidableEq

/-- What a workspace has of this. -/
structure RemoteWorkspace where
  remoteConfig : Option RemoteConfig := none
  remoteState  : Option RemoteState := none

/-- Where a connecting thread is. -/
inductive Connecting
  | starting
  /-- `start` has returned `Ok`; the session is not in the map yet. -/
  | storing (newState : RemoteState)
  | announcing (newState : RemoteState)
  deriving DecidableEq

structure Thread where
  workspaceId : Uuid
  phase       : Connecting := .starting

/-- Where a health monitor is. -/
inductive Watching
  | sleeping
  /-- The map has a session for the workspace. -/
  | found
  /-- Its own connection is not alive. -/
  | lost
  /-- The workspace's session is out of the map; the error is not reported yet. -/
  | removed
  deriving DecidableEq

structure Monitor where
  workspaceId : Uuid
  phase       : Watching := .sleeping

/-- What the main loop has left to do of the event, or of the refresh. -/
inductive MainTask
  | idle
  | stopping (workspaceId : Uuid) (session : Option ConnId)
  | disconnected (workspaceId : Uuid)
  | cleaning (liveIds : List Uuid)
  | cleaned (stale : List ConnId)

structure Remotes where
  workspaces  : AList (fun _ : Uuid => RemoteWorkspace) := ∅
  events      : List UiEvent := []
  main        : MainTask := .idle
  nextConn    : ConnId := 0
  controllers : AList (fun _ : ConnId => RemoteSessionController) := ∅
  threads     : AList (fun _ : ConnId => Thread) := ∅
  /-- `SharedState::remote_sessions`. -/
  sessions    : AList (fun _ : Uuid => ConnId) := ∅
  monitors    : AList (fun _ : ConnId => Monitor) := ∅

inductive Action
  /-- The user, the command socket or the restored session asks for a connection. -/
  | connect (workspaceId : Uuid)
  | disconnect (workspaceId : Uuid)
  | openWorkspace (workspaceId : Uuid) (remoteConfig : Option RemoteConfig)
  | closeWorkspace (workspaceId : Uuid)
  /-- The main loop takes the next event. -/
  | handle (remoteSshEnabled : Bool)
  /-- The main loop starts `cleanup_stale_remote_sessions`. -/
  | refresh
  | proceed
  | startReturns (conn : ConnId) (env : StartEnv)
  | store (conn : ConnId)
  | announce (conn : ConnId)
  | look (conn : ConnId)
  | probe (conn : ConnId)
  | remove (conn : ConnId)
  | report (conn : ConnId)
  | connectionDies (conn : ConnId)

namespace Remotes

def send (e : UiEvent) (s : Remotes) : Remotes := { s with events := s.events ++ [e] }

/-- `workspace_mut` with the new state. -/
def setState (ws : Uuid) (state : RemoteState) (s : Remotes) : Remotes :=
  { s with workspaces := s.workspaces.modify ws fun w => { w with remoteState := some state } }

def setPhase (conn : ConnId) (phase : Watching) (s : Remotes) : Remotes :=
  { s with monitors := s.monitors.modify conn fun m => { m with phase } }

def stopSession (conn : ConnId) (s : Remotes) : Remotes :=
  { s with controllers := s.controllers.modify conn RemoteSessionController.stop }

def spawnConnection (ws : Uuid) (config : RemoteConfig) (s : Remotes) : Remotes :=
  { s with
    nextConn := s.nextConn + 1
    controllers := s.controllers.insert s.nextConn { config }
    threads := s.threads.insert s.nextConn { workspaceId := ws } }

def handleEvent (remoteSshEnabled : Bool) (s : Remotes) : UiEvent → Remotes
  | .remoteConnect ws =>
      if remoteSshEnabled then
        match (s.workspaces.lookup ws).bind (·.remoteConfig) with
        | some config => (s.setState ws .connecting).spawnConnection ws config
        | none => s
      -- connections are switched off: the request is only logged
      else s
  | .remoteDisconnect ws =>
      { s with sessions := s.sessions.erase ws, main := .stopping ws (s.sessions.lookup ws) }
  | .remoteStateChanged ws state => s.setState ws state

/-- The next critical section of what the main loop is in. -/
def proceed (s : Remotes) : Option Remotes :=
  match s.main with
  | .idle => none
  | .stopping ws none => some { s with main := .disconnected ws }
  | .stopping ws (some conn) => some { s.stopSession conn with main := .disconnected ws }
  | .disconnected ws => some { s.setState ws .disconnected with main := .idle }
  | .cleaning liveIds =>
      let staleKeys := s.sessions.keys.filter (· ∉ liveIds)
      some { s with
        -- by now a session may have come whose workspace is newer than the ids
        sessions := s.sessions.retain fun ws _ => ws ∈ liveIds
        main := .cleaned (staleKeys.filterMap s.sessions.lookup) }
  | .cleaned [] => some { s with main := .idle }
  | .cleaned (conn :: stale) => some { s.stopSession conn with main := .cleaned stale }

/-- The thread's `start` returns. -/
def startReturns (conn : ConnId) (env : StartEnv) (s : Remotes) : Option Remotes := do
  let thread ← s.threads.lookup conn
  let ctrl ← s.controllers.lookup conn
  if thread.phase = .starting then
    let (result, ctrl) := ctrl.start env
    let phase := if result.isOk then Connecting.storing ctrl.state else .announcing ctrl.state
    some { s with
      controllers := s.controllers.insert conn ctrl
      threads := s.threads.insert conn { thread with phase } }
  else none

/-- The session goes into the map and its monitor starts. -/
def store (conn : ConnId) (s : Remotes) : Option Remotes := do
  let thread ← s.threads.lookup conn
  match thread.phase with
  -- a session that is there is dropped, but its monitor goes on
  | .storing newState => some { s with
      sessions := s.sessions.insert thread.workspaceId conn
      monitors := s.monitors.insert conn { workspaceId := thread.workspaceId }
      threads := s.threads.insert conn { thread with phase := .announcing newState } }
  | _ => none

def announce (conn : ConnId) (s : Remotes) : Option Remotes := do
  let thread ← s.threads.lookup conn
  match thread.phase with
  | .announcing newState => some ({ s with threads := s.threads.erase conn }.send
      (.remoteStateChanged thread.workspaceId newState))
  | _ => none

/-- A monitor wakes up and looks whether the map has a session for its workspace. -/
def look (conn : ConnId) (s : Remotes) : Option Remotes := do
  let monitor ← s.monitors.lookup conn
  if monitor.phase = .sleeping then
    -- any session of the workspace will do
    if monitor.workspaceId ∈ s.sessions then some (s.setPhase conn .found)
    else some { s with monitors := s.monitors.erase conn }
  else none

def probe (conn : ConnId) (s : Remotes) : Option Remotes := do
  let monitor ← s.monitors.lookup conn
  let ctrl ← s.controllers.lookup conn
  if monitor.phase = .found then
    some (s.setPhase conn (if ctrl.isAlive then .sleeping else .lost))
  else none

/-- The monitor removes the session of its workspace, whichever that is. -/
def remove (conn : ConnId) (s : Remotes) : Option Remotes := do
  let monitor ← s.monitors.lookup conn
  if monitor.phase = .lost then
    some ({ s with sessions := s.sessions.erase monitor.workspaceId }.setPhase conn .removed)
  else none

def report (conn : ConnId) (s : Remotes) : Option Remotes := do
  let monitor ← s.monitors.lookup conn
  if monitor.phase = .removed then
    some ({ s with monitors := s.monitors.erase conn }.send (.remoteStateChanged
      monitor.workspaceId (.error "Connection lost — use Reconnect to retry")))
  else none

def step (s : Remotes) : Action → Option Remotes
  | .connect ws => some (s.send (.remoteConnect ws))
  | .disconnect ws => some (s.send (.remoteDisconnect ws))
  | .openWorkspace ws remoteConfig =>
      some { s with workspaces := s.workspaces.insert ws { remoteConfig } }
  | .closeWorkspace ws => some { s with workspaces := s.workspaces.erase ws }
  | .handle remoteSshEnabled =>
      match s.main, s.events with
      | .idle, e :: events => some ({ s with events }.handleEvent remoteSshEnabled e)
      | _, _ => none
  | .refresh =>
      match s.main with
      | .idle => some { s with main := .cleaning s.workspaces.keys }
      | _ => none
  | .proceed => s.proceed
  | .startReturns conn env => s.startReturns conn env
  | .store conn => s.store conn
  | .announce conn => s.announce conn
  | .look conn => s.look conn
  | .probe conn => s.probe conn
  | .remove conn => s.remove conn
  | .report conn => s.report conn
  | .connectionDies conn =>
      some { s with controllers := s.controllers.modify conn RemoteSessionController.lose }

/-! ## §3. What every step keeps. -/

/-- The monitor of the connection runs for the workspace, and may still remove its session. -/
def Watches (s : Remotes) (conn : ConnId) (ws : Uuid) : Prop :=
  ∃ phase, s.monitors.lookup conn = some ⟨ws, phase⟩ ∧ phase ≠ .removed

structure Inv (s : Remotes) : Prop where
  watched   : ∀ ws conn, s.sessions.lookup ws = some conn → s.Watches conn ws
  /-- A connection that is not stored yet has no monitor. -/
  unwatched : ∀ conn thread, s.threads.lookup conn = some thread →
    (∃ newState, thread.phase = .announcing newState) ∨ s.monitors.lookup conn = none
  threadOld : ∀ conn thread, s.threads.lookup conn = some thread → conn < s.nextConn
  watchOld  : ∀ conn monitor, s.monitors.lookup conn = some monitor → conn < s.nextConn
  /-- A monitor gives up only a connection that is not alive. -/
  lost      : ∀ conn ws ctrl, s.monitors.lookup conn = some ⟨ws, .lost⟩ →
    s.controllers.lookup conn = some ctrl → ctrl.isAlive = false

theorem inv_init : Inv {} := by
  constructor <;> intros <;> simp_all

/-- Only sessions may have gone, and no controller has come to life. -/
structure Quiet (s s' : Remotes) : Prop where
  sessions    : ∀ ws conn, s'.sessions.lookup ws = some conn → s.sessions.lookup ws = some conn
  threads     : s'.threads = s.threads
  monitors    : s'.monitors = s.monitors
  nextConn    : s'.nextConn = s.nextConn
  controllers : ∀ conn ctrl', s'.controllers.lookup conn = some ctrl' →
    ∃ ctrl, s.controllers.lookup conn = some ctrl ∧ (ctrl.isAlive = false → ctrl'.isAlive = false)

variable {s s' : Remotes}

theorem Inv.not_stored (hinv : Inv s) {conn : ConnId} {thread : Thread}
    (hthread : s.threads.lookup conn = some thread)
    (hphase : ∀ newState, thread.phase ≠ .announcing newState) : s.monitors.lookup conn = none :=
  (hinv.unwatched conn thread hthread).resolve_left fun ⟨newState, h⟩ => hphase newState h

theorem Inv.quiet (hinv : Inv s) (h : Quiet s s') : Inv s' := by
  obtain ⟨hsessions, hthreads, hmonitors, hnext, hcontrollers⟩ := h
  constructor
  · -- fewer sessions, and the same monitors
    intro ws conn hws
    have hwatched := hinv.watched ws conn (hsessions ws conn hws)
    unfold Watches at hwatched ⊢
    rwa [hmonitors]
  · rw [hthreads, hmonitors]
    exact hinv.unwatched
  · rw [hthreads, hnext]
    exact hinv.threadOld
  · rw [hmonitors, hnext]
    exact hinv.watchOld
  · intro conn ws ctrl' hmonitor hctrl'
    rw [hmonitors] at hmonitor
    obtain ⟨ctrl, hctrl, halive⟩ := hcontrollers conn ctrl' hctrl'
    exact halive (hinv.lost conn ws ctrl hmonitor hctrl)

theorem quiet_modify {f : RemoteSessionController → RemoteSessionController}
    (hf : ∀ ctrl, ctrl.isAlive = false → (f ctrl).isAlive = false) (conn : ConnId)
    (main : MainTask) : Quiet s { s with controllers := s.controllers.modify conn f, main } := by
  refine ⟨fun _ _ h => h, rfl, rfl, rfl, fun conn' ctrl' hctrl' => ?_⟩
  rw [AList.lookup_modify] at hctrl'
  split at hctrl'
  case isTrue heq =>
      obtain ⟨ctrl, hctrl, rfl⟩ := Option.map_eq_some_iff.mp hctrl'
      exact ⟨ctrl, heq ▸ hctrl, hf ctrl⟩
  case isFalse => exact ⟨ctrl', hctrl', id⟩

theorem stop_isAlive (ctrl : RemoteSessionController) : ctrl.stop.isAlive = false := rfl

theorem lose_isAlive (ctrl : RemoteSessionController) : ctrl.lose.isAlive = false := by
  unfold RemoteSessionController.lose RemoteSessionController.isAlive
  cases ctrl.rpc <;> rfl

theorem quiet_proceed (h : s.proceed = some s') : Quiet s s' := by
  unfold proceed at h
  split at h
  · cases h
  · cases h
    exact ⟨fun _ _ h => h, rfl, rfl, rfl, fun _ ctrl h => ⟨ctrl, h, id⟩⟩
  · cases h
    exact quiet_modify (fun ctrl _ => stop_isAlive ctrl) _ _
  · cases h
    exact ⟨fun _ _ h => h, rfl, rfl, rfl, fun _ ctrl h => ⟨ctrl, h, id⟩⟩
  · cases h
    refine ⟨fun ws conn hws => ?_, rfl, rfl, rfl, fun _ ctrl h => ⟨ctrl, h, id⟩⟩
    rw [AList.lookup_retain] at hws
    exact (Option.filter_eq_some_iff.mp hws).1
  · cases h
    exact ⟨fun _ _ h => h, rfl, rfl, rfl, fun _ ctrl h => ⟨ctrl, h, id⟩⟩
  · cases h
    exact quiet_modify (fun ctrl _ => stop_isAlive ctrl) _ _

theorem inv_spawn (hinv : Inv s) (ws : Uuid) (config : RemoteConfig) :
    Inv (s.spawnConnection ws config) := by
  have hfresh : s.monitors.lookup s.nextConn = none := by
    by_contra h
    obtain ⟨monitor, hmonitor⟩ := Option.ne_none_iff_exists'.mp h
    exact absurd (hinv.watchOld _ _ hmonitor) (Nat.lt_irrefl _)
  constructor
  · exact hinv.watched
  · intro conn thread hthread
    simp only [spawnConnection, AList.lookup_insert_eq_ite] at hthread
    split at hthread
    case isTrue heq => exact .inr (heq ▸ hfresh)
    case isFalse => exact hinv.unwatched conn thread hthread
  · intro conn thread hthread
    simp only [spawnConnection, AList.lookup_insert_eq_ite] at hthread
    split at hthread
    case isTrue heq => exact heq ▸ Nat.lt_succ_self _
    case isFalse => exact Nat.lt_succ_of_lt (hinv.threadOld conn thread hthread)
  · intro conn monitor hmonitor
    exact Nat.lt_succ_of_lt (hinv.watchOld conn monitor hmonitor)
  · intro conn ws' ctrl hmonitor hctrl
    simp only [spawnConnection, AList.lookup_insert_eq_ite] at hmonitor hctrl
    split at hctrl
    case isTrue heq =>
        rw [heq, hfresh] at hmonitor
        cases hmonitor
    case isFalse => exact hinv.lost conn ws' ctrl hmonitor hctrl

@[simp] theorem handleEvent_monitors (enabled : Bool) (e : UiEvent) :
    (s.handleEvent enabled e).monitors = s.monitors := by
  cases e with
  | remoteConnect ws =>
      cases enabled with
      | false => rfl
      | true => cases h : (s.workspaces.lookup ws).bind (·.remoteConfig) <;> simp only [handleEvent, h] <;> rfl
  | remoteDisconnect ws => rfl
  | remoteStateChanged ws state => rfl

/-- Of the events only a disconnect touches the sessions. -/
theorem handleEvent_sessions (enabled : Bool) (e : UiEvent) (ws : Uuid) :
    (s.handleEvent enabled e).sessions.lookup ws =
      if e = .remoteDisconnect ws then none else s.sessions.lookup ws := by
  cases e with
  | remoteConnect ws' =>
      rw [if_neg nofun]
      cases enabled with
      | false => rfl
      | true => cases h : (s.workspaces.lookup ws').bind (·.remoteConfig) <;> simp only [handleEvent, h] <;> rfl
  | remoteDisconnect ws' =>
      simp only [handleEvent, AList.lookup_erase_eq_ite, UiEvent.remoteDisconnect.injEq,
        eq_comm (a := ws)]
  | remoteStateChanged ws' state =>
      rw [if_neg nofun]
      rfl

theorem inv_handleEvent (hinv : Inv s) (enabled : Bool) (e : UiEvent) :
    Inv (s.handleEvent enabled e) := by
  have hquiet : ∀ workspaces : AList (fun _ : Uuid => RemoteWorkspace),
      Inv { s with workspaces } := fun _ =>
    hinv.quiet ⟨fun _ _ h => h, rfl, rfl, rfl, fun _ ctrl h => ⟨ctrl, h, id⟩⟩
  cases e with
  | remoteConnect ws =>
      unfold handleEvent
      cases enabled with
      | false => exact hinv
      | true =>
          cases hconfig : (s.workspaces.lookup ws).bind (·.remoteConfig) with
          | none =>
              simp only [hconfig]
              exact hinv
          | some config =>
              simp only [hconfig]
              exact inv_spawn (hquiet _) ws config
  | remoteDisconnect ws =>
      refine hinv.quiet ⟨fun ws' conn hws => ?_, rfl, rfl, rfl, fun _ ctrl h => ⟨ctrl, h, id⟩⟩
      simp only [handleEvent, AList.lookup_erase_eq_ite] at hws
      split at hws
      · cases hws
      · exact hws
  | remoteStateChanged ws state => exact hquiet _

theorem inv_startReturns {conn : ConnId} {env : StartEnv} (hinv : Inv s)
    (h : s.startReturns conn env = some s') : Inv s' := by
  obtain ⟨thread, hthread, h⟩ := Option.bind_eq_some_iff.mp h
  obtain ⟨ctrl, hctrl, h⟩ := Option.bind_eq_some_iff.mp h
  split at h
  case isFalse => cases h
  case isTrue hphase =>
      cases h
      have hno := hinv.not_stored hthread (by rw [hphase]; nofun)
      constructor
      · exact hinv.watched
      · intro conn' thread' hthread'
        rw [AList.lookup_insert_eq_ite] at hthread'
        split at hthread'
        case isTrue heq => exact .inr (heq ▸ hno)
        case isFalse => exact hinv.unwatched conn' thread' hthread'
      · intro conn' thread' hthread'
        rw [AList.lookup_insert_eq_ite] at hthread'
        split at hthread'
        case isTrue heq => exact heq ▸ hinv.threadOld conn thread hthread
        case isFalse => exact hinv.threadOld conn' thread' hthread'
      · exact hinv.watchOld
      · intro conn' ws ctrl' hmonitor hctrl'
        rw [AList.lookup_insert_eq_ite] at hctrl'
        split at hctrl'
        case isTrue heq =>
            -- `start` changes the controller, but nobody has probed it
            subst heq
            rw [hno] at hmonitor
            cases hmonitor
        case isFalse => exact hinv.lost conn' ws ctrl' hmonitor hctrl'

theorem inv_store {conn : ConnId} (hinv : Inv s) (h : s.store conn = some s') : Inv s' := by
  obtain ⟨thread, hthread, h⟩ := Option.bind_eq_some_iff.mp h
  split at h
  case h_2 => cases h
  case h_1 newState hphase =>
      cases h
      have hno := hinv.not_stored hthread (by rw [hphase]; nofun)
      constructor
      · intro ws conn' hws
        rw [AList.lookup_insert_eq_ite] at hws
        split at hws
        case isTrue heq =>
            cases hws
            exact ⟨.sleeping, by rw [AList.lookup_insert_eq_ite, if_pos rfl, heq], nofun⟩
        case isFalse =>
            obtain ⟨phase, hmonitor, hrunning⟩ := hinv.watched ws conn' hws
            -- the new monitor overwrites none: this connection has had none
            have hne : conn' ≠ conn := by
              rintro rfl
              rw [hno] at hmonitor
              cases hmonitor
            exact ⟨phase, by rwa [AList.lookup_insert_eq_ite, if_neg hne], hrunning⟩
      · intro conn' thread' hthread'
        rw [AList.lookup_insert_eq_ite] at hthread'
        split at hthread'
        case isTrue =>
            cases hthread'
            exact .inl ⟨newState, rfl⟩
        case isFalse hne =>
            rw [AList.lookup_insert_eq_ite, if_neg hne]
            exact hinv.unwatched conn' thread' hthread'
      · intro conn' thread' hthread'
        rw [AList.lookup_insert_eq_ite] at hthread'
        split at hthread'
        case isTrue heq => exact heq ▸ hinv.threadOld conn thread hthread
        case isFalse => exact hinv.threadOld conn' thread' hthread'
      · intro conn' monitor hmonitor
        rw [AList.lookup_insert_eq_ite] at hmonitor
        split at hmonitor
        case isTrue heq => exact heq ▸ hinv.threadOld conn thread hthread
        case isFalse => exact hinv.watchOld conn' monitor hmonitor
      · intro conn' ws ctrl hmonitor hctrl
        rw [AList.lookup_insert_eq_ite] at hmonitor
        split at hmonitor
        case isTrue => cases hmonitor
        case isFalse => exact hinv.lost conn' ws ctrl hmonitor hctrl

theorem inv_announce {conn : ConnId} (hinv : Inv s) (h : s.announce conn = some s') : Inv s' := by
  obtain ⟨thread, hthread, h⟩ := Option.bind_eq_some_iff.mp h
  split at h
  case h_2 => cases h
  case h_1 newState hphase =>
      cases h
      have hless : ∀ conn' thread', (s.threads.erase conn).lookup conn' = some thread' →
          s.threads.lookup conn' = some thread' := by
        intro conn' thread' h
        rw [AList.lookup_erase_eq_ite] at h
        split at h
        · cases h
        · exact h
      exact ⟨hinv.watched, fun conn' thread' h => hinv.unwatched conn' thread' (hless _ _ h),
        fun conn' thread' h => hinv.threadOld conn' thread' (hless _ _ h), hinv.watchOld,
        hinv.lost⟩

/-- A monitor comes to `lost` with its connection, to `removed` with its session. -/
theorem inv_setPhase {conn : ConnId} {phase : Watching} (hinv : Inv s)
    (hremoved : phase = .removed → ∀ ws, s.sessions.lookup ws ≠ some conn)
    (hlost : phase = .lost → ∀ ctrl, s.controllers.lookup conn = some ctrl → ctrl.isAlive = false) :
    Inv (s.setPhase conn phase) := by
  constructor
  · intro ws conn' hws
    obtain ⟨old, hmonitor, hrunning⟩ := hinv.watched ws conn' hws
    by_cases heq : conn' = conn
    · subst heq
      exact ⟨phase, by simp [setPhase, AList.lookup_modify, hmonitor],
        fun h => hremoved h ws hws⟩
    · exact ⟨old, by simpa [setPhase, AList.lookup_modify, heq] using hmonitor, hrunning⟩
  · intro conn' thread hthread
    rcases hinv.unwatched conn' thread hthread with h | h
    · exact .inl h
    · refine .inr ?_
      simp only [setPhase, AList.lookup_modify]
      split
      case isTrue heq => rw [← heq, h]; rfl
      case isFalse => exact h
  · exact hinv.threadOld
  · intro conn' monitor hmonitor
    simp only [setPhase, AList.lookup_modify] at hmonitor
    split at hmonitor
    case isTrue heq =>
        obtain ⟨old, hold, -⟩ := Option.map_eq_some_iff.mp hmonitor
        exact heq ▸ hinv.watchOld conn old hold
    case isFalse => exact hinv.watchOld conn' monitor hmonitor
  · intro conn' ws ctrl hmonitor hctrl
    simp only [setPhase, AList.lookup_modify] at hmonitor hctrl
    split at hmonitor
    case isTrue heq =>
        obtain ⟨old, -, hnew⟩ := Option.map_eq_some_iff.mp hmonitor
        cases hnew
        exact hlost rfl ctrl (heq ▸ hctrl)
    case isFalse => exact hinv.lost conn' ws ctrl hmonitor hctrl

/-- A monitor ends whose connection is not in the map. -/
theorem inv_eraseMonitor {conn : ConnId} (hinv : Inv s)
    (hfree : ∀ ws, s.sessions.lookup ws ≠ some conn) (events : List UiEvent) :
    Inv { s with monitors := s.monitors.erase conn, events } := by
  have hless : ∀ conn' monitor, (s.monitors.erase conn).lookup conn' = some monitor →
      s.monitors.lookup conn' = some monitor := by
    intro conn' monitor h
    rw [AList.lookup_erase_eq_ite] at h
    split at h
    · cases h
    · exact h
  constructor
  · intro ws conn' hws
    obtain ⟨phase, hmonitor, hrunning⟩ := hinv.watched ws conn' hws
    have hne : conn' ≠ conn := by
      rintro rfl
      exact hfree ws hws
    exact ⟨phase, by rwa [AList.lookup_erase_eq_ite, if_neg hne], hrunning⟩
  · intro conn' thread hthread
    rcases hinv.unwatched conn' thread hthread with h | h
    · exact .inl h
    · refine .inr ?_
      rw [AList.lookup_erase_eq_ite]
      split
      · rfl
      · exact h
  · exact hinv.threadOld
  · intro conn' monitor hmonitor
    exact hinv.watchOld conn' monitor (hless _ _ hmonitor)
  · intro conn' ws ctrl hmonitor hctrl
    exact hinv.lost conn' ws ctrl (hless _ _ hmonitor) hctrl

theorem inv_look {conn : ConnId} (hinv : Inv s) (h : s.look conn = some s') : Inv s' := by
  obtain ⟨monitor, hmonitor, h⟩ := Option.bind_eq_some_iff.mp h
  split at h
  case isFalse => cases h
  case isTrue =>
      split at h
      · cases h
        exact inv_setPhase hinv nofun nofun
      case isFalse hgone =>
          cases h
          -- a session of its own would be in the map under its workspace
          refine inv_eraseMonitor hinv (fun ws hws => hgone ?_) s.events
          obtain ⟨phase, hsame, -⟩ := hinv.watched ws conn hws
          obtain rfl := Option.some.inj (hmonitor.symm.trans hsame)
          exact AList.mem_of_lookup hws

theorem inv_probe {conn : ConnId} (hinv : Inv s) (h : s.probe conn = some s') : Inv s' := by
  obtain ⟨monitor, hmonitor, h⟩ := Option.bind_eq_some_iff.mp h
  obtain ⟨ctrl, hctrl, h⟩ := Option.bind_eq_some_iff.mp h
  split at h
  case isFalse => cases h
  case isTrue =>
      cases h
      refine inv_setPhase hinv (by split <;> exact nofun) fun hlost ctrl' hctrl' => ?_
      obtain rfl := Option.some.inj (hctrl.symm.trans hctrl')
      split at hlost
      · cases hlost
      case isFalse hdead => exact Bool.eq_false_iff.mpr hdead

theorem inv_remove {conn : ConnId} (hinv : Inv s) (h : s.remove conn = some s') : Inv s' := by
  obtain ⟨monitor, hmonitor, h⟩ := Option.bind_eq_some_iff.mp h
  split at h
  case isFalse => cases h
  case isTrue =>
      cases h
      have herased : ∀ ws c, (s.sessions.erase monitor.workspaceId).lookup ws = some c →
          ws ≠ monitor.workspaceId ∧ s.sessions.lookup ws = some c := by
        intro ws c hws
        rw [AList.lookup_erase_eq_ite] at hws
        split at hws
        case isTrue => cases hws
        case isFalse hne => exact ⟨hne, hws⟩
      have hinv' : Inv { s with sessions := s.sessions.erase monitor.workspaceId } :=
        hinv.quiet ⟨fun ws c hws => (herased ws c hws).2, rfl, rfl, rfl,
          fun _ ctrl h => ⟨ctrl, h, id⟩⟩
      refine inv_setPhase hinv' (fun _ ws hws => ?_) nofun
      -- a session of this connection would be watched, and so be this workspace's
      obtain ⟨hne, hws⟩ := herased ws conn hws
      obtain ⟨phase, hsame, -⟩ := hinv.watched ws conn hws
      obtain rfl := Option.some.inj (hmonitor.symm.trans hsame)
      exact hne rfl

theorem inv_report {conn : ConnId} (hinv : Inv s) (h : s.report conn = some s') : Inv s' := by
  obtain ⟨monitor, hmonitor, h⟩ := Option.bind_eq_some_iff.mp h
  split at h
  case isFalse => cases h
  case isTrue hphase =>
      cases h
      refine inv_eraseMonitor hinv (fun ws hws => ?_) _
      obtain ⟨phase, hsame, hrunning⟩ := hinv.watched ws conn hws
      obtain rfl := Option.some.inj (hmonitor.symm.trans hsame)
      exact hrunning hphase

/-- **Every step** keeps the invariant. -/
theorem inv_step (hinv : Inv s) {a : Action} (h : s.step a = some s') : Inv s' := by
  have hquiet : ∀ (workspaces : AList (fun _ : Uuid => RemoteWorkspace)) events main,
      Inv { s with workspaces, events, main } := fun _ _ _ =>
    hinv.quiet ⟨fun _ _ h => h, rfl, rfl, rfl, fun _ ctrl h => ⟨ctrl, h, id⟩⟩
  cases a with
  | connect ws => cases h; exact hquiet _ _ _
  | disconnect ws => cases h; exact hquiet _ _ _
  | openWorkspace ws config => cases h; exact hquiet _ _ _
  | closeWorkspace ws => cases h; exact hquiet _ _ _
  | handle enabled =>
      simp only [step] at h
      split at h
      · cases h
        exact inv_handleEvent (hquiet _ _ _) enabled _
      · cases h
  | refresh =>
      simp only [step] at h
      split at h
      · cases h
        exact hquiet _ _ _
      · cases h
  | proceed => exact hinv.quiet (quiet_proceed h)
  | startReturns conn env => exact inv_startReturns hinv h
  | store conn => exact inv_store hinv h
  | announce conn => exact inv_announce hinv h
  | look conn => exact inv_look hinv h
  | probe conn => exact inv_probe hinv h
  | remove conn => exact inv_remove hinv h
  | report conn => exact inv_report hinv h
  | connectionDies conn =>
      cases h
      exact hinv.quiet (quiet_modify (fun ctrl _ => lose_isAlive ctrl) conn s.main)

theorem inv_reachable (h : Reachable step {} s) : Inv s :=
  h.invariant Inv inv_init fun _ _ _ hinv _ hs => inv_step hinv hs

/-- **`sessions_watched`**: whatever the order of steps, a session in the map has its own
monitor, running for the same workspace, which has not taken the session out. -/
theorem sessions_watched (h : Reachable step {} s) {ws : Uuid} {conn : ConnId}
    (hws : s.sessions.lookup ws = some conn) : s.Watches conn ws :=
  (inv_reachable h).watched ws conn hws

/-- The workspace 7 is opened and its connection stored. -/
def connected : List Action :=
  [.openWorkspace 7 (some { destination := "host" }), .connect 7, .handle true,
    .startReturns 0 { bootstrap := .ok "jmuxd-remote", hello := .ok "1", proxy := .ok 4000 },
    .store 0]

theorem sessions_watched_connected :
    ((exec step {} connected).get (by decide)).Watches 0 7 :=
  sessions_watched (reachable_of_exec (Option.some_get _).symm) (by decide)

/-! ## §4. Monitors of connections that are gone. -/

/-- No monitor runs for a workspace whose session is another connection. -/
def NoRivals (s : Remotes) : Prop :=
  ∀ conn ws, s.Watches conn ws → ∀ other, s.sessions.lookup ws = some other → other = conn

/-- A connection is stored only when no monitor of its workspace runs any more. -/
def StoredAlone (s : Remotes) : Action → Prop
  | .store conn => ∀ thread, s.threads.lookup conn = some thread →
      ∀ other, ¬ s.Watches other thread.workspaceId
  | _ => True

/-- The step takes the session of the workspace out of the map. -/
def TakesOut (s : Remotes) (ws : Uuid) (a : Action) : Prop :=
  (∃ enabled events, a = .handle enabled ∧ s.events = .remoteDisconnect ws :: events) ∨
  (∃ liveIds, a = .proceed ∧ s.main = .cleaning liveIds ∧ ws ∉ liveIds) ∨
  ∃ conn, a = .remove conn ∧ s.monitors.lookup conn = some ⟨ws, .lost⟩

/-- **What a step does to the session of a workspace.** -/
theorem step_sessions {a : Action} (h : s.step a = some s') (ws : Uuid) :
    s'.sessions.lookup ws = s.sessions.lookup ws ∨
    (s'.sessions.lookup ws = none ∧ s.TakesOut ws a) ∨
    ∃ conn thread, a = .store conn ∧ s.threads.lookup conn = some thread ∧
      thread.workspaceId = ws := by
  cases a with
  | connect | disconnect | openWorkspace | closeWorkspace | connectionDies =>
      cases h
      exact .inl rfl
  | handle enabled =>
      simp only [step] at h
      split at h
      case h_2 => cases h
      case h_1 e events _ hevents =>
          cases h
          rw [handleEvent_sessions]
          split
          case isTrue heq => exact .inr (.inl ⟨rfl, .inl ⟨enabled, events, rfl, heq ▸ hevents⟩⟩)
          case isFalse => exact .inl rfl
  | refresh =>
      simp only [step] at h
      split at h <;> cases h
      exact .inl rfl
  | proceed =>
      simp only [step, proceed] at h
      split at h
      case h_5 liveIds hmain =>
          cases h
          by_cases hlive : ws ∈ liveIds
          · refine .inl ?_
            rw [AList.lookup_retain]
            cases s.sessions.lookup ws <;> simp [Option.filter, hlive]
          · refine .inr (.inl ⟨?_, .inr (.inl ⟨liveIds, rfl, hmain, hlive⟩)⟩)
            rw [AList.lookup_retain]
            cases s.sessions.lookup ws <;> simp [Option.filter, hlive]
      all_goals
        cases h
        try exact .inl rfl
  | startReturns conn env =>
      obtain ⟨thread, hthread, h⟩ := Option.bind_eq_some_iff.mp h
      obtain ⟨ctrl, hctrl, h⟩ := Option.bind_eq_some_iff.mp h
      split at h <;> cases h
      exact .inl rfl
  | store conn =>
      obtain ⟨thread, hthread, h⟩ := Option.bind_eq_some_iff.mp h
      split at h
      case h_2 => cases h
      case h_1 =>
          cases h
          rw [AList.lookup_insert_eq_ite]
          split
          case isTrue heq => exact .inr (.inr ⟨conn, thread, rfl, hthread, heq.symm⟩)
          case isFalse => exact .inl rfl
  | announce conn | report conn =>
      obtain ⟨party, hparty, h⟩ := Option.bind_eq_some_iff.mp h
      split at h <;> cases h
      exact .inl rfl
  | look conn =>
      obtain ⟨monitor, hmonitor, h⟩ := Option.bind_eq_some_iff.mp h
      split at h
      · split at h <;> cases h <;> exact .inl rfl
      · cases h
  | probe conn =>
      obtain ⟨monitor, hmonitor, h⟩ := Option.bind_eq_some_iff.mp h
      obtain ⟨ctrl, hctrl, h⟩ := Option.bind_eq_some_iff.mp h
      split at h <;> cases h
      exact .inl rfl
  | remove conn =>
      obtain ⟨⟨ws', phase⟩, hmonitor, h⟩ := Option.bind_eq_some_iff.mp h
      split at h
      case isFalse => cases h
      case isTrue hlost =>
          obtain rfl : phase = .lost := hlost
          cases h
          simp only [setPhase, AList.lookup_erase_eq_ite]
          split
          case isTrue heq => exact .inr (.inl ⟨rfl, .inr (.inr ⟨conn, rfl, heq ▸ hmonitor⟩)⟩)
          case isFalse => exact .inl rfl

/-- A monitor goes on, or ends. -/
theorem watches_setPhase {conn : ConnId} {phase : Watching}
    {sessions : AList (fun _ : Uuid => ConnId)} {old : Monitor}
    (hold : s.monitors.lookup conn = some old) (hrunning : old.phase ≠ .removed) (c : ConnId)
    (ws : Uuid) (hw : ({ s with sessions }.setPhase conn phase).Watches c ws) :
    s.Watches c ws := by
  obtain ⟨new, hnew, hne⟩ := hw
  simp only [setPhase, AList.lookup_modify] at hnew
  split at hnew
  case isTrue heq =>
      rw [hold] at hnew
      cases hnew
      exact ⟨old.phase, heq ▸ hold, hrunning⟩
  case isFalse => exact ⟨new, hnew, hne⟩

theorem watches_erase {conn : ConnId} {events : List UiEvent} (c : ConnId) (ws : Uuid)
    (hw : ({ s with monitors := s.monitors.erase conn, events } : Remotes).Watches c ws) :
    s.Watches c ws := by
  obtain ⟨new, hnew, hne⟩ := hw
  rw [AList.lookup_erase_eq_ite] at hnew
  split at hnew
  · cases hnew
  · exact ⟨new, hnew, hne⟩

/-- Only storing a connection begins a monitor. -/
theorem step_watches {a : Action} (h : s.step a = some s') (ha : ∀ conn, a ≠ .store conn)
    (conn : ConnId) (ws : Uuid) (hw : s'.Watches conn ws) : s.Watches conn ws := by
  cases a with
  | connect | disconnect | openWorkspace | closeWorkspace | connectionDies =>
      cases h
      exact hw
  | handle enabled =>
      simp only [step] at h
      split at h <;> cases h
      unfold Watches at hw ⊢
      rwa [handleEvent_monitors] at hw
  | refresh =>
      simp only [step] at h
      split at h <;> cases h
      exact hw
  | proceed =>
      unfold Watches at hw ⊢
      rwa [(quiet_proceed h).monitors] at hw
  | startReturns c env =>
      obtain ⟨thread, hthread, h⟩ := Option.bind_eq_some_iff.mp h
      obtain ⟨ctrl, hctrl, h⟩ := Option.bind_eq_some_iff.mp h
      split at h <;> cases h
      exact hw
  | store c => exact absurd rfl (ha c)
  | announce c =>
      obtain ⟨thread, hthread, h⟩ := Option.bind_eq_some_iff.mp h
      split at h <;> cases h
      exact hw
  | look c =>
      obtain ⟨monitor, hmonitor, h⟩ := Option.bind_eq_some_iff.mp h
      split at h
      case isFalse => cases h
      case isTrue hsleeping =>
          split at h <;> cases h
          · exact watches_setPhase hmonitor (by simp [hsleeping]) conn ws hw
          · exact watches_erase conn ws hw
  | probe c =>
      obtain ⟨monitor, hmonitor, h⟩ := Option.bind_eq_some_iff.mp h
      obtain ⟨ctrl, hctrl, h⟩ := Option.bind_eq_some_iff.mp h
      split at h
      case isFalse => cases h
      case isTrue hfound =>
          cases h
          exact watches_setPhase hmonitor (by simp [hfound]) conn ws hw
  | remove c =>
      obtain ⟨monitor, hmonitor, h⟩ := Option.bind_eq_some_iff.mp h
      split at h
      case isFalse => cases h
      case isTrue hlost =>
          cases h
          exact watches_setPhase hmonitor (by simp [hlost]) conn ws hw
  | report c =>
      obtain ⟨monitor, hmonitor, h⟩ := Option.bind_eq_some_iff.mp h
      split at h <;> cases h
      exact watches_erase conn ws hw

/-- A step leaves no rivals behind exactly when it does not store a connection beside
another's monitor. -/
theorem noRivals_step_iff (hinv : Inv s) (halone : NoRivals s) {a : Action}
    (h : s.step a = some s') : NoRivals s' ↔ StoredAlone s a := by
  by_cases hstore : ∃ conn, a = .store conn
  · obtain ⟨conn, rfl⟩ := hstore
    obtain ⟨thread, hthread, h⟩ := Option.bind_eq_some_iff.mp h
    split at h
    case h_2 => cases h
    case h_1 newState hphase =>
        cases h
        have hno := hinv.not_stored hthread (by rw [hphase]; nofun)
        have hold : ∀ {c ws}, s.Watches c ws → c ≠ conn := by
          rintro c ws ⟨phase, hmonitor, -⟩ rfl
          rw [hno] at hmonitor
          cases hmonitor
        constructor
        · -- an older monitor of the workspace would be a rival of the new session
          intro hrivals thread' hthread' other hother
          obtain rfl := Option.some.inj (hthread.symm.trans hthread')
          obtain ⟨phase, hmonitor, hrunning⟩ := hother
          have hne : other ≠ conn := hold ⟨phase, hmonitor, hrunning⟩
          refine hne (hrivals other thread.workspaceId ⟨phase, ?_, hrunning⟩ conn ?_).symm
          · rwa [AList.lookup_insert_eq_ite, if_neg hne]
          · rw [AList.lookup_insert_eq_ite, if_pos rfl]
        · rintro hok c ws ⟨phase, hmonitor, hrunning⟩ other hother
          rw [AList.lookup_insert_eq_ite] at hmonitor hother
          split at hmonitor
          case isTrue heq =>
              cases hmonitor
              rw [if_pos rfl] at hother
              rw [heq, Option.some.inj hother]
          case isFalse =>
              -- an older monitor is one of another workspace
              have hws : ws ≠ thread.workspaceId := by
                rintro rfl
                exact hok thread hthread c ⟨phase, hmonitor, hrunning⟩
              rw [if_neg hws] at hother
              exact halone c ws ⟨phase, hmonitor, hrunning⟩ other hother
  · refine iff_of_true (fun conn ws hw other hws => ?_) ?_
    · have hbefore := step_watches h (fun conn heq => hstore ⟨conn, heq⟩) conn ws hw
      obtain heq | ⟨hnone, -⟩ | ⟨c, thread, hc, -⟩ := step_sessions h ws
      · exact halone conn ws hbefore other (heq ▸ hws)
      · cases hnone.symm.trans hws
      · exact absurd ⟨c, hc⟩ hstore
    · cases a with
      | store conn => exact absurd ⟨conn, rfl⟩ hstore
      | _ => trivial

theorem noRivals_init : NoRivals {} := by
  rintro conn ws ⟨phase, hmonitor, -⟩
  cases hmonitor

/-- **`no_rivals_iff`**: no monitor ever watches over another connection's session in a
run exactly when each connection of the run is stored after the earlier monitors of its
workspace have ended. -/
theorem no_rivals_iff {as : List Action} (h : exec step {} as = some s) :
    EveryState step NoRivals {} as ↔ EveryStep step StoredAlone {} as :=
  everyState_iff_everyStep Inv (fun _ _ _ hinv hs => inv_step hinv hs)
    (fun _ _ _ hinv halone hs => noRivals_step_iff hinv halone hs) inv_init noRivals_init h

theorem no_rivals_iff_connected :
    EveryState step NoRivals {} connected ↔ EveryStep step StoredAlone {} connected :=
  no_rivals_iff (@Option.some_get _ (exec step {} connected) (by decide)).symm

/-- Reconnecting from the sidebar: the old monitor wakes up beside the new session, finds
its own connection stopped, and takes the new session, which is alive, out of the map. -/
example :
    (exec step {} (connected ++
      [.announce 0, .handle true, .disconnect 7, .connect 7, .handle true, .proceed, .proceed,
        .handle true,
        .startReturns 1 { bootstrap := .ok "jmuxd-remote", hello := .ok "1", proxy := .ok 4001 },
        .store 1, .look 0, .probe 0, .remove 0])).map
      (fun s => (s.sessions.lookup 7, (s.controllers.lookup 1).map (·.isAlive))) =
    some (none, some true) := by decide

/-- **`session_leaves`**: in a run that stores no connection beside another's monitor, the
session of a workspace goes when it is disconnected, when the workspace is gone, or when
the session's own connection is lost. -/
theorem session_leaves (hr : Reach step StoredAlone {} s) {a : Action} (hok : StoredAlone s a)
    (h : s.step a = some s') {ws : Uuid} {conn : ConnId}
    (hws : s.sessions.lookup ws = some conn) (hws' : s'.sessions.lookup ws ≠ some conn) :
    (∃ enabled events, a = .handle enabled ∧ s.events = .remoteDisconnect ws :: events) ∨
    (∃ liveIds, a = .proceed ∧ s.main = .cleaning liveIds ∧ ws ∉ liveIds) ∨
    (a = .remove conn ∧
      ∀ ctrl, s.controllers.lookup conn = some ctrl → ctrl.isAlive = false) := by
  have hgood : Inv s ∧ NoRivals s :=
    hr.invariant (fun s => Inv s ∧ NoRivals s) ⟨inv_init, noRivals_init⟩
      fun _ _ _ hg hok hs => ⟨inv_step hg.1 hs, (noRivals_step_iff hg.1 hg.2 hs).mpr hok⟩
  obtain ⟨hinv, halone⟩ := hgood
  obtain heq | ⟨-, hout⟩ | ⟨c, thread, rfl, hthread, rfl⟩ := step_sessions h ws
  · exact absurd (heq.trans hws) hws'
  · obtain hdisconnect | hgone | ⟨c, rfl, hmonitor⟩ := hout
    · exact .inl hdisconnect
    · exact .inr (.inl hgone)
    · -- the monitor that removes it is no rival, so it is the session's own
      obtain rfl := halone c ws ⟨.lost, hmonitor, nofun⟩ conn hws
      exact .inr (.inr ⟨rfl, fun ctrl => hinv.lost conn ws ctrl hmonitor⟩)
  · -- the session's own monitor was running
    exact absurd (hinv.watched _ conn hws) (hok thread hthread conn)

/-- The stored connection dies, and its monitor finds out. -/
def diedAfter : List Action := connected ++ [.connectionDies 0, .look 0, .probe 0]

theorem session_leaves_diedAfter : ∃ s s', exec step {} diedAfter = some s ∧
    s.step (.remove 0) = some s' ∧
    ((∃ enabled events, Action.remove 0 = .handle enabled ∧
        s.events = .remoteDisconnect 7 :: events) ∨
      (∃ liveIds, Action.remove 0 = .proceed ∧ s.main = .cleaning liveIds ∧ 7 ∉ liveIds) ∨
      (Action.remove 0 = .remove 0 ∧
        ∀ ctrl, s.controllers.lookup 0 = some ctrl → ctrl.isAlive = false)) := by
  obtain ⟨s', hs'⟩ : ∃ s', exec step {} (diedAfter ++ [.remove 0]) = some s' :=
    Option.isSome_iff_exists.mp (by decide)
  obtain ⟨s, hs, hremove⟩ := exec_append.mp hs'
  obtain ⟨m, hm, hlast⟩ := exec_cons.mp hremove
  cases hlast
  have hbefore : (exec step {} diedAfter).map (·.sessions.lookup 7) = some (some 0) := by decide
  have hafter : (exec step {} (diedAfter ++ [.remove 0])).map (·.sessions.lookup 7) =
      some none := by decide
  rw [hs] at hbefore
  rw [hs'] at hafter
  have halone : EveryStep step StoredAlone {} diedAfter := by
    refine ⟨trivial, fun m hm => ?_⟩
    cases hm
    refine ⟨trivial, fun m hm => ?_⟩
    cases hm
    refine ⟨trivial, fun m hm => ?_⟩
    cases hm
    refine ⟨trivial, fun m hm => ?_⟩
    cases hm
    refine ⟨?_, fun m hm => ?_⟩
    · rintro thread - other ⟨phase, hmonitor, -⟩
      cases hmonitor
    · cases hm
      show EveryStep step StoredAlone _ [.connectionDies 0, .look 0, .probe 0]
      refine everyStep_of_forall fun a ha s => ?_
      simp only [List.mem_cons, List.not_mem_nil, or_false] at ha
      rcases ha with rfl | rfl | rfl <;> trivial
  have hok : StoredAlone s (.remove 0) := trivial
  exact ⟨s, _, hs, hm, session_leaves (reach_of_exec hs halone) hok hm
    (Option.some.inj hbefore) (by simp [Option.some.inj hafter])⟩

end Remotes

end Jmux.Remote
