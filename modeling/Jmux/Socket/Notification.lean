/-
  Jmux.Socket.Notification — the entry points that raise, read and remove
  notifications, and the two counters they are kept in.

  The store counts the unread entries of a workspace, and the workspace has an
  unread count of its own for the sidebar.  Socket handlers
  (`socket/v2/notification.rs`, `workspace.rs`), the window's events
  (`ui/window/event_handler.rs`), the panels of the window and the goal driver
  each update the store, the count, or both.

  Main results:
    * `step_balanced`        — after a step the two agree exactly when the step
                                is `Balanced`.
    * `unread_counters_iff`  — in every run they agree throughout exactly when
                                every step is.
    * `unread_counters_differ` — runs in which they do not.
-/
import Jmux.Lib.Transition
import Jmux.Model.Notifications
import Jmux.Session.Snapshot
import Jmux.Socket.Request
import Mathlib.Logic.Function.Basic

namespace Jmux.Socket

open Jmux.Lib Jmux.Model

/-! ## §1. The state. -/

structure NotifyState where
  tm     : TabManager
  badges : Uuid → Badge := fun _ => {}
  store  : NotificationStore := {}

/-- What `Uuid::new_v4()` and the clock give. -/
structure NotifyDraw where
  id  : Uuid
  now : Nat

namespace NotifyState

def openIds (s : NotifyState) : List Uuid := s.tm.workspaces.map (·.id)

/-- The badge of a workspace that is there. -/
def editBadge (s : NotifyState) (workspaceId : Uuid) (f : Badge → Badge) : NotifyState :=
  if (s.tm.workspace workspaceId).isSome then
    { s with badges := Function.update s.badges workspaceId (f (s.badges workspaceId)) }
  else s

def editAttention (s : NotifyState) (workspaceId : Uuid) (f : Workspace → Option Uuid) :
    NotifyState :=
  { s with
    tm :=
      { s.tm with
        workspaces := s.tm.workspaces.modifyFirst (·.id = workspaceId) fun ws =>
          { ws with attentionPanelId := f ws } } }

/-- `Workspace::record_notification`. -/
def recordNotification (s : NotifyState) (workspaceId : Uuid) (now : Nat) (title body : String)
    (panelId : Option Uuid) : NotifyState :=
  (s.editBadge workspaceId (·.record now title body)).editAttention workspaceId fun ws =>
    panelId.filter (· ∈ ws.panels)

/-- `mark_workspace_read` of the socket handlers. -/
def markWorkspaceRead (s : NotifyState) (workspaceId : Uuid) : NotifyState :=
  { s with store := s.store.markWorkspaceRead workspaceId }.editBadge workspaceId
    (·.markNotificationsRead)

/-- `mark_workspace_read` of the window: the attention ring goes as well. -/
def seeWorkspace (s : NotifyState) (workspaceId : Uuid) : NotifyState :=
  (s.markWorkspaceRead workspaceId).editAttention workspaceId fun _ => none

/-! ## §2. Notifications come. -/

/-- The parameters of `notification.create`. -/
structure CreateRequest where
  title     : Option String := none
  body      : Option String := none
  workspace : UuidParam := .absent
  panel     : UuidParam := .absent
  /-- The panels that have a parent panel. -/
  nested    : Uuid → Bool := fun _ => false
  /-- `notifications.reorder_on_notification` -/
  reorder   : Bool := false

/-- The workspace that a request is about. -/
def CreateRequest.target (req : CreateRequest) (tm : TabManager) : Except Response Uuid :=
  match req.workspace, req.panel with
  | .malformed, _ => .error (.error "invalid_params" "Invalid workspace UUID")
  | _, .malformed => .error (.error "invalid_params" "Invalid surface/panel UUID format")
  | .given id, _ =>
      if (tm.workspace id).isSome then .ok id
      else .error (.error "not_found" "Workspace not found")
  | .absent, .given panelId =>
      match tm.findWorkspaceWithPanel panelId with
      | some ws => .ok ws.id
      | none => .error (.error "not_found" "No workspace selected")
  | .absent, .absent =>
      match tm.selectedId with
      | some id => .ok id
      | none => .error (.error "not_found" "No workspace selected")

/-- The panel of the request, if the workspace has it. -/
def CreateRequest.resolvedPanel (req : CreateRequest) (ws : Workspace) : Option Uuid :=
  match req.panel with
  | .given id => (some id).filter (· ∈ ws.panels)
  | _ => none

/-- The request is accepted, and not about a sub-agent's panel. -/
def CreateRequest.notifies (req : CreateRequest) (tm : TabManager) : Bool :=
  match req.target tm with
  | .error _ => false
  | .ok target => (tm.workspace target).any fun ws => !(req.resolvedPanel ws).any req.nested

/-- A notified workspace moves up to the first one that is not pinned. -/
def moveNotified (tm : TabManager) (workspaceId : Uuid) : TabManager :=
  match tm.workspaceIndex workspaceId with
  | none => tm
  | some index =>
      let firstUnpinned := (tm.workspaces.findIdx? fun ws => !ws.isPinned).getD 0
      if index > firstUnpinned then (tm.moveWorkspace index firstUnpinned).1 else tm

/-- `notification.create`. -/
def create (s : NotifyState) (req : CreateRequest) (draw : NotifyDraw) : NotifyState × Response :=
  let title := truncateStr (req.title.getD "jmux") 1024
  let body := truncateStr (req.body.getD "") 8192
  match req.target s.tm with
  | .error response => (s, response)
  | .ok target =>
      match s.tm.workspace target with
      | none => (s, .panicked)
      | some ws =>
          let panelId := req.resolvedPanel ws
          -- a sub-agent's shell does not notify
          if panelId.any req.nested then
            (s, .success ([("notified", .bool false), ("suppressed", .bool true),
              ("workspace", .uuid target)] ++ (panelId.map fun p => ("surface", .uuid p)).toList))
          else
            let isCodex := (panelId.bind ws.panels.lookup).any fun panel =>
              Session.detectAgentResumeCommand panel.title panel.command = some "codex"
            let recorded := s.recordNotification target draw.now title body panelId
            let stored :=
              { recorded with
                store := s.store.addWithRetain draw.id draw.now title body (some target) panelId
                  isCodex }
            ({ stored with tm := if req.reorder then moveNotified stored.tm target else stored.tm },
              .success ([("notified", .bool true), ("workspace", .uuid target)] ++
                (panelId.map fun p => ("surface", .uuid p)).toList))

/-- A terminal's own notification (`UiEvent::DesktopNotification`). -/
def desktopNotification (s : NotifyState) (panelId : Option Uuid) (title body : String)
    (draw : NotifyDraw) : NotifyState :=
  let workspaceId := (panelId.bind s.tm.findWorkspaceWithPanel).map (·.id)
  let stored := { s with store := s.store.add draw.id draw.now title body workspaceId panelId }
  match workspaceId with
  | some id => stored.recordNotification id draw.now title body panelId
  | none => stored

/-- `notify` of a goal run and `notify_graph_name`: the store alone. -/
def notify (s : NotifyState) (workspaceId : Option Uuid) (title body : String)
    (draw : NotifyDraw) : NotifyState :=
  { s with store := s.store.add draw.id draw.now title body workspaceId none }

/-! ## §3. Notifications are read and removed. -/

/-- `notification.open`: the workspace is selected and the one entry is read. -/
def openNotification (s : NotifyState) (id : Uuid) : NotifyState × Response :=
  match (s.store.find id).bind (·.sourceWorkspaceId) with
  | none => (s, .error "not_found" "Notification not found or has no source workspace")
  | some workspaceId =>
      match s.tm.workspaceIndex workspaceId with
      | none => (s, .error "not_found" "Source workspace no longer exists")
      | some index =>
          ({ s with tm := (s.tm.select index).1, store := s.store.markRead id },
            .success [("ok", .bool true), ("workspace_id", .uuid workspaceId)])

/-- A click on a row of the notifications panel. -/
def clickNotification (s : NotifyState) (id workspaceId : Uuid) : NotifyState :=
  { s with
    tm :=
      match s.tm.workspaceIndex workspaceId with
      | some index => (s.tm.select index).1
      | none => s.tm
    store := s.store.markRead id }

/-- `UiEvent::ToggleUnread`, on the selected workspace. -/
def toggleUnread (s : NotifyState) : NotifyState :=
  match s.tm.selectedId with
  | none => s
  | some id =>
      if s.store.unreadCountForWorkspace id > 0 then s.seeWorkspace id
      else
        { s with store := s.store.markLatestUnreadForWorkspace id }.editBadge id
          ({ · with unreadCount := 1 })

/-! ## §4. Workspaces are selected. -/

inductive Selecting
  | index (i : Nat)
  | id (workspaceId : Uuid)
  | next (wrap : Bool)
  | previous (wrap : Bool)
  | last
  | focusBack
  | focusForward
  | latestUnread

/-- The selection, and the workspace that is then marked as read. -/
def Selecting.apply (s : NotifyState) : Selecting → TabManager × Option Uuid
  | .index i =>
      match s.tm.select i with
      | (tm, true) => (tm, tm.selectedId)
      | (tm, false) => (tm, none)
  | .id workspaceId =>
      match s.tm.selectById workspaceId with
      | (tm, true) => (tm, tm.selectedId)
      | (tm, false) => (tm, none)
  | .next wrap => (s.tm.selectNext wrap, (s.tm.selectNext wrap).selectedId)
  | .previous wrap => (s.tm.selectPrevious wrap, (s.tm.selectPrevious wrap).selectedId)
  | .last => (s.tm.selectLast, s.tm.selectLast.selectedId)
  | .focusBack => s.tm.focusBack
  | .focusForward => s.tm.focusForward
  | .latestUnread => s.tm.selectLatestUnread s.badges

/-- `workspace.select`, `workspace.next` and the others. -/
def selectAndRead (s : NotifyState) (sel : Selecting) : NotifyState :=
  match sel.apply s with
  | (tm, some id) => { s with tm := tm }.markWorkspaceRead id
  | (tm, none) => { s with tm := tm }

/-- `select_workspace_by_index` of the window: a click on the selected workspace
reads nothing. -/
def selectByIndex (s : NotifyState) (i : Nat) : NotifyState :=
  let alreadySelected := s.tm.selectedIndex = some i
  match s.tm.select i with
  | (tm, false) => { s with tm := tm }
  | (tm, true) =>
      if alreadySelected then { s with tm := tm }
      else
        match s.tm.workspaces[i]? with
        | some ws => { s with tm := tm }.seeWorkspace ws.id
        | none => { s with tm := tm }

end NotifyState

/-! ## §5. Steps. -/

inductive NotifyAct
  | create (req : NotifyState.CreateRequest) (draw : NotifyDraw)
  | desktop (panelId : Option Uuid) (title body : String) (draw : NotifyDraw)
  | goal (workspaceId : Uuid) (title body : String) (draw : NotifyDraw)
  | graph (workspaceId : Option Uuid) (title body : String) (draw : NotifyDraw)
  | markRead (id : Uuid)
  | dismiss (id : Uuid) (force : Bool)
  | clear
  | openNotification (id : Uuid)
  | click (id workspaceId : Uuid)
  | selectAndRead (sel : NotifyState.Selecting)
  | selectByIndex (i : Nat)
  /-- The command palette, the search and the other panels only select. -/
  | select (sel : NotifyState.Selecting)
  /-- `workspace.action mark_read`, `UiEvent::DeferUnread`. -/
  | markWorkspaceRead (workspaceId : Uuid)
  /-- The sidebar's and the palette's "mark as read": the badge alone. -/
  | badgeRead (workspaceId : Uuid)
  | badgeUnread (workspaceId : Uuid)
  | toggleUnread

/-- The id of the notification that comes. -/
def NotifyAct.drawn : NotifyAct → Option Uuid
  | .create _ draw | .desktop _ _ _ draw | .goal _ _ _ draw | .graph _ _ _ draw => some draw.id
  | _ => none

namespace NotifyState

/-- The ids in use. -/
def ids (s : NotifyState) : List Uuid := s.store.notifications.map (·.id)

/-- One entry point runs. -/
def run (s : NotifyState) : NotifyAct → NotifyState
  | .create req draw => (s.create req draw).1
  | .desktop panelId title body draw => s.desktopNotification panelId title body draw
  | .goal workspaceId title body draw => s.notify (some workspaceId) title body draw
  | .graph workspaceId title body draw => s.notify workspaceId title body draw
  | .markRead id => { s with store := s.store.markRead id }
  | .dismiss id force => { s with store := (s.store.dismiss id force).1 }
  | .clear => { s with store := s.store.clear }
  | .openNotification id => (s.openNotification id).1
  | .click id workspaceId => s.clickNotification id workspaceId
  | .selectAndRead sel => s.selectAndRead sel
  | .selectByIndex i => s.selectByIndex i
  | .select sel => { s with tm := (sel.apply s).1 }
  | .markWorkspaceRead workspaceId => s.markWorkspaceRead workspaceId
  | .badgeRead workspaceId => s.editBadge workspaceId (·.markNotificationsRead)
  | .badgeUnread workspaceId => s.editBadge workspaceId (·.markUnread)
  | .toggleUnread => s.toggleUnread

/-- The id of a new notification is new. -/
def step (s : NotifyState) (a : NotifyAct) : Option NotifyState :=
  if a.drawn.any (· ∈ s.ids) then none else some (s.run a)

theorem step_eq {s s' : NotifyState} {a : NotifyAct} (hs : s.step a = some s') :
    s' = s.run a ∧ ∀ id, a.drawn = some id → id ∉ s.ids := by
  unfold step at hs
  split at hs
  · cases hs
  next hfresh =>
    refine ⟨(Option.some.inj hs).symm, fun id hid hmem => hfresh ?_⟩
    rw [hid]
    exact decide_eq_true hmem

/-! ## §6. The law, and the steps that keep it. -/

/-- The two counts of every open workspace agree. -/
def Agree (s : NotifyState) : Prop :=
  ∀ x ∈ s.openIds, (s.badges x).unreadCount = s.store.unreadCountForWorkspace x

/-- What keeps the counts of workspace `x` together.  An entry point that updates
both must push out no unread entry of `x`; one that updates the store alone must
leave its unread entries alone; one that updates the badge alone must find the
store there already. -/
def Keeps (s : NotifyState) (x : Uuid) : NotifyAct → Prop
  | .create req _ => req.notifies s.tm = true → s.store.evictedUnread x = 0
  | .desktop _ _ _ _ => s.store.evictedUnread x = 0
  | .goal workspaceId _ _ _ => s.store.evictedUnread x = if workspaceId = x then 1 else 0
  | .graph workspaceId _ _ _ => s.store.evictedUnread x = if workspaceId = some x then 1 else 0
  | .markRead id | .openNotification id | .click id _ =>
      ∀ n, s.store.find id = some n → n.sourceWorkspaceId = some x → n.isRead = true
  | .dismiss id force =>
      ∀ n ∈ s.store.notifications, n.id = id → (n.retainOnInterrupt && !force) = false →
        n.sourceWorkspaceId = some x → n.isRead = true
  | .clear => s.store.unreadCountForWorkspace x = 0
  | .badgeRead workspaceId => x = workspaceId → s.store.unreadCountForWorkspace x = 0
  | .badgeUnread workspaceId => x = workspaceId → s.store.unreadCountForWorkspace x ≠ 0
  | .toggleUnread =>
      s.tm.selectedId = some x → ∃ n ∈ s.store.notifications, n.sourceWorkspaceId = some x
  | _ => True

def Balanced (s : NotifyState) (a : NotifyAct) : Prop := ∀ x ∈ s.openIds, s.Keeps x a

/-! ## §7. What the parts of an entry point touch. -/

/-- What every step keeps: the store is never over its size, and no id is there
twice. -/
structure Good (s : NotifyState) : Prop where
  size : s.store.notifications.length ≤ maxNotifications
  ids  : s.store.DistinctIds

theorem workspace_isSome_iff (tm : TabManager) (x : Uuid) :
    (tm.workspace x).isSome = true ↔ x ∈ tm.workspaces.map (·.id) := by
  unfold TabManager.workspace
  rw [List.find?_isSome, List.mem_map]
  simp

theorem editBadge_tm (s : NotifyState) (w : Uuid) (f : Badge → Badge) :
    (s.editBadge w f).tm = s.tm := by
  unfold editBadge
  split <;> rfl

theorem editBadge_store (s : NotifyState) (w : Uuid) (f : Badge → Badge) :
    (s.editBadge w f).store = s.store := by
  unfold editBadge
  split <;> rfl

theorem editBadge_openIds (s : NotifyState) (w : Uuid) (f : Badge → Badge) :
    (s.editBadge w f).openIds = s.openIds := by
  unfold openIds
  rw [editBadge_tm]

theorem editBadge_badges (s : NotifyState) (w : Uuid) (f : Badge → Badge) {x : Uuid}
    (hx : x ∈ s.openIds) :
    (s.editBadge w f).badges x = if x = w then f (s.badges x) else s.badges x := by
  unfold editBadge
  by_cases hw : x = w
  · subst hw
    rw [if_pos ((workspace_isSome_iff s.tm x).mpr hx), if_pos rfl]
    exact Function.update_self _ _ _
  · rw [if_neg hw]
    split
    · exact Function.update_of_ne hw _ _
    · rfl

theorem openIds_of_workspaces {s s' : NotifyState} (h : s'.tm.workspaces = s.tm.workspaces) :
    s'.openIds = s.openIds := by
  unfold openIds
  rw [h]

theorem editAttention_openIds (s : NotifyState) (w : Uuid) (f : Workspace → Option Uuid) :
    (s.editAttention w f).openIds = s.openIds := by
  unfold openIds editAttention
  dsimp only
  rw [List.map_modifyFirst]
  exact fun _ => rfl

/-- The counts after both were updated for a notification of workspace `w`. -/
theorem record_point (s : NotifyState) (hg : s.Good) {x : Uuid} {w : Option Uuid} {n : Nat}
    {unread : Nat}
    (hcount : n = if w = some x then saturatingSucc (s.badges x).unreadCount
      else (s.badges x).unreadCount)
    (hstore : unread + s.store.evictedUnread x
      = s.store.unreadCountForWorkspace x + if w = some x then 1 else 0)
    (hx : (s.badges x).unreadCount = s.store.unreadCountForWorkspace x) :
    n = unread ↔ s.store.evictedUnread x = 0 := by
  -- the count is far from saturation
  have hle : s.store.unreadCountForWorkspace x ≤ 500 :=
    Nat.le_trans List.countP_le_length hg.size
  have hsucc : saturatingSucc (s.badges x).unreadCount = (s.badges x).unreadCount + 1 := by
    unfold saturatingSucc
    omega
  rw [hsucc] at hcount
  by_cases hw : w = some x
  · rw [if_pos hw] at hcount hstore
    omega
  · rw [if_neg hw] at hcount hstore
    omega

theorem moveNotified_mem (tm : TabManager) (w x : Uuid) :
    x ∈ (moveNotified tm w).workspaces.map (·.id) ↔ x ∈ tm.workspaces.map (·.id) := by
  have hperm : ∀ i j, (tm.moveWorkspace i j).1.workspaces.Perm tm.workspaces := by
    intro i j
    unfold TabManager.moveWorkspace
    cases hws : tm.workspaces[i]? with
    | none => exact .refl _
    | some ws =>
        obtain ⟨hi, hget⟩ := List.getElem?_eq_some_iff.mp hws
        dsimp only
        split
        · exact .refl _
        · have hj : j ≤ (tm.workspaces.eraseIdx i).length := by
            have hlen := List.length_eraseIdx_of_lt hi
            omega
          exact (List.perm_insertIdx ws _ hj).trans
            (hget ▸ List.getElem_cons_eraseIdx_perm hi)
  unfold moveNotified
  cases tm.workspaceIndex w with
  | none => exact Iff.rfl
  | some i =>
      dsimp only
      split
      · exact ((hperm i _).map _).mem_iff
      · exact Iff.rfl

/-! ## §8. Selecting. -/

theorem selectById_workspaces (tm : TabManager) (id : Uuid) :
    (tm.selectById id).1.workspaces = tm.workspaces := by
  unfold TabManager.selectById
  split <;> rfl

theorem focusBackFrom_workspaces (tm : TabManager) (pos : Nat) :
    (tm.focusBackFrom pos).1.workspaces = tm.workspaces := by
  induction pos with
  | zero => rfl
  | succ pos ih =>
      unfold TabManager.focusBackFrom
      cases tm.focusHistory[pos]? with
      | none => exact ih
      | some id =>
          have hsel := selectById_workspaces tm id
          dsimp only
          split
          next tm' h =>
            rw [h] at hsel
            exact hsel
          · exact ih

theorem focusForwardFrom_workspaces (tm : TabManager) (ahead pos : Nat) :
    (tm.focusForwardFrom ahead pos).1.workspaces = tm.workspaces := by
  induction ahead generalizing pos with
  | zero => rfl
  | succ ahead ih =>
      unfold TabManager.focusForwardFrom
      cases tm.focusHistory[pos + 1]? with
      | none => exact ih (pos + 1)
      | some id =>
          have hsel := selectById_workspaces tm id
          dsimp only
          split
          next tm' h =>
            rw [h] at hsel
            exact hsel
          · exact ih (pos + 1)

theorem select_workspaces (tm : TabManager) (i : Nat) :
    (tm.select i).1.workspaces = tm.workspaces := by
  unfold TabManager.select
  split <;> rfl

/-- Selecting changes no workspace. -/
theorem Selecting.apply_workspaces (s : NotifyState) (sel : Selecting) :
    (sel.apply s).1.workspaces = s.tm.workspaces := by
  cases sel with
  | index i =>
      have hsel := select_workspaces s.tm i
      unfold apply
      dsimp only
      split <;> (next tm h => rw [h] at hsel; exact hsel)
  | id w =>
      have hsel := selectById_workspaces s.tm w
      unfold apply
      dsimp only
      split <;> (next tm h => rw [h] at hsel; exact hsel)
  | next wrap =>
      show (s.tm.selectNext wrap).workspaces = _
      unfold TabManager.selectNext
      split
      · rfl
      · split
        · rfl
        · split
          · rfl
          · split <;> rfl
  | previous wrap =>
      show (s.tm.selectPrevious wrap).workspaces = _
      unfold TabManager.selectPrevious
      split
      · rfl
      · split
        · rfl
        · split <;> rfl
        · rfl
  | last =>
      show s.tm.selectLast.workspaces = _
      unfold TabManager.selectLast
      split <;> rfl
  | focusBack => exact focusBackFrom_workspaces s.tm s.tm.focusPos
  | focusForward => exact focusForwardFrom_workspaces s.tm _ s.tm.focusPos
  | latestUnread =>
      show (s.tm.selectLatestUnread s.badges).1.workspaces = _
      unfold TabManager.selectLatestUnread
      split <;> rfl

/-! ## §9. What one step does. -/

/-- The two counts of workspace `x` agree. -/
def AgreeAt (s : NotifyState) (x : Uuid) : Prop :=
  (s.badges x).unreadCount = s.store.unreadCountForWorkspace x

theorem recordNotification_openIds (s : NotifyState) (w : Uuid) (now : Nat)
    (title body : String) (panelId : Option Uuid) :
    (s.recordNotification w now title body panelId).openIds = s.openIds := by
  unfold recordNotification
  rw [editAttention_openIds, editBadge_openIds]

/-- What `notification.create` does: nothing, or one record and one new entry. -/
theorem create_cases (s : NotifyState) (req : CreateRequest) (draw : NotifyDraw) :
    (req.notifies s.tm = false ∧ (s.create req draw).1 = s) ∨
    (req.notifies s.tm = true ∧ ∃ target title body panelId retain,
      (∀ x, x ∈ (s.create req draw).1.openIds ↔ x ∈ s.openIds) ∧
      (s.create req draw).1.badges
        = (s.editBadge target (·.record draw.now title body)).badges ∧
      (s.create req draw).1.store
        = s.store.addWithRetain draw.id draw.now title body (some target) panelId retain) := by
  unfold CreateRequest.notifies create
  cases htarget : req.target s.tm with
  | error response => exact .inl ⟨rfl, rfl⟩
  | ok target =>
      cases hws : s.tm.workspace target with
      | none => exact .inl ⟨by simp [hws], by simp only [hws]⟩
      | some ws =>
          cases hnested : (req.resolvedPanel ws).any req.nested with
          | true =>
              refine .inl ⟨by simp [hws, hnested], ?_⟩
              simp only [hws, hnested, if_true]
          | false =>
              refine .inr ⟨by simp [hws, hnested], target,
                truncateStr (req.title.getD "jmux") 1024, truncateStr (req.body.getD "") 8192,
                req.resolvedPanel ws,
                ((req.resolvedPanel ws).bind ws.panels.lookup).any fun panel =>
                  Session.detectAgentResumeCommand panel.title panel.command = some "codex", ?_⟩
              simp only [hws, hnested, Bool.false_eq_true, if_false]
              refine ⟨fun x => ?_, rfl, trivial⟩
              -- the reordering moves workspaces, and changes none
              have hmem : ∀ tm' : TabManager, x ∈ (if req.reorder then moveNotified tm' target
                  else tm').workspaces.map (·.id) ↔ x ∈ tm'.workspaces.map (·.id) := by
                intro tm'
                split
                · exact moveNotified_mem tm' target x
                · exact Iff.rfl
              exact (hmem _).trans
                (recordNotification_openIds s target draw.now _ _ (req.resolvedPanel ws) ▸ Iff.rfl)

/-- A terminal's notification: one new entry, and one record when its workspace is
open. -/
theorem desktop_badges (s : NotifyState) (panelId : Option Uuid) (title body : String)
    (draw : NotifyDraw) {x : Uuid} (hx : x ∈ s.openIds) :
    ((s.desktopNotification panelId title body draw).badges x).unreadCount
      = if (panelId.bind s.tm.findWorkspaceWithPanel).map (·.id) = some x
        then saturatingSucc (s.badges x).unreadCount else (s.badges x).unreadCount := by
  unfold desktopNotification
  cases hw : (panelId.bind s.tm.findWorkspaceWithPanel).map (·.id) with
  | none => rfl
  | some w =>
      show ((editBadge _ w _).badges x).unreadCount = _
      have hpoint := editBadge_badges
        { s with store := s.store.add draw.id draw.now title body (some w) panelId } w
        (·.record draw.now title body) hx
      rw [hpoint]
      by_cases hxw : x = w
      · subst hxw
        rw [if_pos rfl, if_pos rfl]
        rfl
      · rw [if_neg hxw, if_neg fun h => hxw (Option.some.inj h).symm]

theorem desktop_openIds (s : NotifyState) (panelId : Option Uuid) (title body : String)
    (draw : NotifyDraw) :
    (s.desktopNotification panelId title body draw).openIds = s.openIds := by
  unfold desktopNotification
  cases (panelId.bind s.tm.findWorkspaceWithPanel).map (·.id) with
  | none => rfl
  | some w => exact recordNotification_openIds _ w _ _ _ _

theorem desktop_store (s : NotifyState) (panelId : Option Uuid) (title body : String)
    (draw : NotifyDraw) :
    (s.desktopNotification panelId title body draw).store
      = s.store.add draw.id draw.now title body
          ((panelId.bind s.tm.findWorkspaceWithPanel).map (·.id)) panelId := by
  unfold desktopNotification
  cases (panelId.bind s.tm.findWorkspaceWithPanel).map (·.id) with
  | none => rfl
  | some w => exact editBadge_store _ w _

/-- Reading a workspace takes both of its counts to zero, and no other. -/
theorem markWorkspaceRead_point (s : NotifyState) (w : Uuid) {x : Uuid} (hx : x ∈ s.openIds)
    (h : s.AgreeAt x) : (s.markWorkspaceRead w).AgreeAt x := by
  unfold AgreeAt markWorkspaceRead
  rw [editBadge_store, editBadge_badges { s with store := s.store.markWorkspaceRead w } w _ hx,
    NotificationStore.unread_markWorkspaceRead]
  split
  · rfl
  · exact h

theorem markWorkspaceRead_openIds (s : NotifyState) (w : Uuid) :
    (s.markWorkspaceRead w).openIds = s.openIds := by
  exact editBadge_openIds _ w _

theorem seeWorkspace_openIds (s : NotifyState) (w : Uuid) :
    (s.seeWorkspace w).openIds = s.openIds := by
  unfold seeWorkspace
  rw [editAttention_openIds, markWorkspaceRead_openIds]

/-- Selecting a workspace and reading it keeps the counts together. -/
theorem selectAndRead_point (s : NotifyState) (sel : Selecting) {x : Uuid}
    (hx : x ∈ s.openIds) (h : s.AgreeAt x) : (s.selectAndRead sel).AgreeAt x := by
  have hids : (sel.apply s).1.workspaces = s.tm.workspaces := Selecting.apply_workspaces s sel
  unfold selectAndRead
  split
  next tm w hsel =>
    rw [hsel] at hids
    have hopen : ({ s with tm := tm } : NotifyState).openIds = s.openIds :=
      openIds_of_workspaces hids
    exact markWorkspaceRead_point _ w (hopen ▸ hx) h
  · exact h

theorem selectAndRead_openIds (s : NotifyState) (sel : Selecting) :
    (s.selectAndRead sel).openIds = s.openIds := by
  have hids : (sel.apply s).1.workspaces = s.tm.workspaces := Selecting.apply_workspaces s sel
  unfold selectAndRead
  split
  next tm w hsel =>
    rw [hsel] at hids
    rw [markWorkspaceRead_openIds]
    exact openIds_of_workspaces hids
  next tm hsel =>
    rw [hsel] at hids
    exact openIds_of_workspaces hids

theorem selectByIndex_point (s : NotifyState) (i : Nat) {x : Uuid}
    (hx : x ∈ s.openIds) (h : s.AgreeAt x) : (s.selectByIndex i).AgreeAt x := by
  have hids := select_workspaces s.tm i
  unfold selectByIndex
  dsimp only
  split
  · exact h
  next tm hsel =>
    rw [hsel] at hids
    have hopen : ({ s with tm := tm } : NotifyState).openIds = s.openIds :=
      openIds_of_workspaces hids
    split
    · exact h
    · split
      next ws _ => exact markWorkspaceRead_point _ ws.id (hopen ▸ hx) h
      · exact h

theorem selectByIndex_openIds (s : NotifyState) (i : Nat) :
    (s.selectByIndex i).openIds = s.openIds := by
  have hids := select_workspaces s.tm i
  unfold selectByIndex
  dsimp only
  split
  next tm hsel =>
    rw [hsel] at hids
    exact openIds_of_workspaces hids
  next tm hsel =>
    rw [hsel] at hids
    split
    · exact openIds_of_workspaces hids
    · split
      · rw [seeWorkspace_openIds]
        exact openIds_of_workspaces hids
      · exact openIds_of_workspaces hids

/-! ## §10. Every step. -/

/-- The workspaces that are open stay open. -/
theorem run_openIds (s : NotifyState) (a : NotifyAct) (x : Uuid) :
    x ∈ (s.run a).openIds ↔ x ∈ s.openIds := by
  have hselect : ∀ i store, ({ s with tm := (s.tm.select i).1, store } : NotifyState).openIds
      = s.openIds := fun i _ => openIds_of_workspaces (select_workspaces s.tm i)
  cases a with
  | create req draw =>
      unfold run
      rcases create_cases s req draw with ⟨_, h⟩ | ⟨_, _, _, _, _, _, hopen, _, _⟩
      · dsimp only
        rw [h]
      · exact hopen x
  | desktop panelId title body draw => exact desktop_openIds s panelId title body draw ▸ Iff.rfl
  | goal w title body draw => exact Iff.rfl
  | graph w title body draw => exact Iff.rfl
  | markRead id => exact Iff.rfl
  | dismiss id force => exact Iff.rfl
  | clear => exact Iff.rfl
  | openNotification id =>
      unfold run openNotification
      dsimp only
      split
      · exact Iff.rfl
      · split
        · exact Iff.rfl
        · exact hselect _ _ ▸ Iff.rfl
  | click id w =>
      unfold run clickNotification
      dsimp only
      split
      · exact hselect _ _ ▸ Iff.rfl
      · exact Iff.rfl
  | selectAndRead sel => exact selectAndRead_openIds s sel ▸ Iff.rfl
  | selectByIndex i => exact selectByIndex_openIds s i ▸ Iff.rfl
  | select sel =>
      have hopen : (s.run (.select sel)).openIds = s.openIds :=
        openIds_of_workspaces (Selecting.apply_workspaces s sel)
      exact hopen ▸ Iff.rfl
  | markWorkspaceRead w => exact markWorkspaceRead_openIds s w ▸ Iff.rfl
  | badgeRead w => exact editBadge_openIds s w _ ▸ Iff.rfl
  | badgeUnread w => exact editBadge_openIds s w _ ▸ Iff.rfl
  | toggleUnread =>
      unfold run toggleUnread
      dsimp only
      split
      · exact Iff.rfl
      · split
        · exact seeWorkspace_openIds s _ ▸ Iff.rfl
        · rw [editBadge_openIds]
          exact Iff.rfl

/-- An operation that adds nothing keeps the store small and its ids distinct. -/
theorem good_of_sublist {s t : NotifyState} (h : t.ids.Sublist s.ids) (hg : s.Good) :
    t.Good where
  size := by
    have hlen := h.length_le
    unfold ids at hlen
    rw [List.length_map, List.length_map] at hlen
    exact Nat.le_trans hlen hg.size
  ids := hg.ids.sublist h

theorem good_of_add {s t : NotifyState} {id : Uuid} {now : Nat} {title body : String}
    {w panelId : Option Uuid} {retain : Bool}
    (h : t.store = s.store.addWithRetain id now title body w panelId retain)
    (hid : id ∉ s.ids) (hg : s.Good) : t.Good where
  size := h ▸ NotificationStore.length_addWithRetain _ _ _ _ _ _ _ _ hg.size
  ids := h ▸ NotificationStore.distinctIds_addWithRetain _ hg.ids hid _ _ _ _ _ _

theorem ids_markRead (store : NotificationStore) (id : Uuid) :
    (store.markRead id).notifications.map (·.id) = store.notifications.map (·.id) := by
  unfold NotificationStore.markRead
  dsimp only
  rw [List.map_modifyFirst]
  exact fun _ => rfl

theorem ids_markWorkspaceRead (store : NotificationStore) (w : Uuid) :
    (store.markWorkspaceRead w).notifications.map (·.id) = store.notifications.map (·.id) := by
  unfold NotificationStore.markWorkspaceRead
  dsimp only
  rw [List.map_map]
  refine List.map_congr_left fun n _ => ?_
  rw [Function.comp_apply]
  split <;> rfl

theorem ids_markLatest (store : NotificationStore) (w : Uuid) :
    (store.markLatestUnreadForWorkspace w).notifications.map (·.id)
      = store.notifications.map (·.id) := by
  unfold NotificationStore.markLatestUnreadForWorkspace
  split
  · unfold NotificationStore.markUnread
    dsimp only
    rw [List.map_modifyFirst]
    exact fun _ => rfl
  · rfl

theorem ids_readWorkspace (s : NotifyState) (w : Uuid) : (s.markWorkspaceRead w).ids = s.ids := by
  unfold markWorkspaceRead ids
  rw [editBadge_store]
  exact ids_markWorkspaceRead s.store w

/-- A step adds the entry that it drew, or adds nothing. -/
theorem run_good {s : NotifyState} (hg : s.Good) (a : NotifyAct)
    (hdrawn : ∀ id, a.drawn = some id → id ∉ s.ids) : (s.run a).Good := by
  have hsame : ∀ {s' : NotifyState}, s'.ids = s.ids → s'.Good := fun h =>
    good_of_sublist (h ▸ List.Sublist.refl _) hg
  cases a with
  | create req draw =>
      rcases create_cases s req draw with ⟨_, h⟩ | ⟨_, _, _, _, _, _, _, _, hstore⟩
      · unfold run
        dsimp only
        rw [h]
        exact hg
      · exact good_of_add hstore (hdrawn _ rfl) hg
  | desktop panelId title body draw =>
      exact good_of_add (desktop_store s panelId title body draw) (hdrawn _ rfl) hg
  | goal w title body draw =>
      exact good_of_add (t := s.notify (some w) title body draw) rfl (hdrawn _ rfl) hg
  | graph w title body draw =>
      exact good_of_add (t := s.notify w title body draw) rfl (hdrawn _ rfl) hg
  | markRead id => exact hsame (ids_markRead s.store id)
  | dismiss id force =>
      exact good_of_sublist (t := s.run (.dismiss id force)) (List.filter_sublist.map _) hg
  | clear => exact good_of_sublist (t := s.run .clear) (List.nil_sublist _) hg
  | openNotification id =>
      unfold run openNotification
      dsimp only
      split
      · exact hg
      · split
        · exact hg
        · exact hsame (ids_markRead s.store id)
  | click id w => exact hsame (ids_markRead s.store id)
  | selectAndRead sel =>
      unfold run selectAndRead
      dsimp only
      split
      · exact hsame (ids_readWorkspace _ _)
      · exact hsame rfl
  | selectByIndex i =>
      unfold run selectByIndex
      dsimp only
      split
      · exact hsame rfl
      · split
        · exact hsame rfl
        · split
          · exact hsame (ids_readWorkspace _ _)
          · exact hsame rfl
  | select sel => exact hsame rfl
  | markWorkspaceRead w => exact hsame (ids_readWorkspace s w)
  | badgeRead w => exact hsame (congrArg (·.notifications.map (·.id)) (editBadge_store s w _))
  | badgeUnread w => exact hsame (congrArg (·.notifications.map (·.id)) (editBadge_store s w _))
  | toggleUnread =>
      unfold run toggleUnread
      dsimp only
      split
      · exact hg
      · split
        · exact hsame (ids_readWorkspace s _)
        · refine hsame ?_
          unfold ids
          rw [editBadge_store]
          exact ids_markLatest s.store _

/-- A new entry with no record of it: the workspace's count stays behind. -/
theorem notify_point (s : NotifyState) (w : Option Uuid) (title body : String)
    (draw : NotifyDraw) {x : Uuid} (h : s.AgreeAt x) :
    (s.notify w title body draw).AgreeAt x
      ↔ s.store.evictedUnread x = if w = some x then 1 else 0 := by
  have hcount := s.store.unread_addWithRetain x draw.id draw.now title body w none false
  unfold AgreeAt at h
  show (s.badges x).unreadCount
    = (s.store.addWithRetain draw.id draw.now title body w none false).unreadCountForWorkspace x ↔ _
  rw [h]
  omega

/-- A store that counts `x` as before agrees with the badge as before. -/
theorem store_point {s : NotifyState} {x : Uuid} (h : s.AgreeAt x) (tm : TabManager)
    (store : NotificationStore) :
    ({ s with tm, store } : NotifyState).AgreeAt x
      ↔ store.unreadCountForWorkspace x = s.store.unreadCountForWorkspace x := by
  unfold AgreeAt at h
  show (s.badges x).unreadCount = store.unreadCountForWorkspace x ↔ _
  rw [h]
  exact eq_comm

theorem badge_point {s : NotifyState} {x : Uuid} (hx : x ∈ s.openIds) (h : s.AgreeAt x)
    (w : Uuid) (f : Badge → Badge) :
    (s.editBadge w f).AgreeAt x
      ↔ (x = w → (f (s.badges x)).unreadCount = s.store.unreadCountForWorkspace x) := by
  unfold AgreeAt
  rw [editBadge_store, editBadge_badges s w f hx]
  by_cases hw : x = w
  · rw [if_pos hw]
    exact ⟨fun heq _ => heq, fun heq => heq hw⟩
  · rw [if_neg hw]
    exact iff_of_true h fun habs => absurd habs hw

/-- The entry that `notification.open` and a click read. -/
theorem markRead_point {s : NotifyState} {x : Uuid} (h : s.AgreeAt x) (tm : TabManager)
    (id : Uuid) :
    ({ s with tm, store := s.store.markRead id } : NotifyState).AgreeAt x ↔
      ∀ n, s.store.find id = some n → n.sourceWorkspaceId = some x → n.isRead = true :=
  (store_point h tm _).trans (s.store.unread_markRead_iff x id)

/-- What cannot be opened is not of an open workspace. -/
theorem open_point {s : NotifyState} {x : Uuid} (hx : x ∈ s.openIds) (h : s.AgreeAt x)
    (id : Uuid) :
    (s.openNotification id).1.AgreeAt x ↔
      ∀ n, s.store.find id = some n → n.sourceWorkspaceId = some x → n.isRead = true := by
  unfold openNotification
  cases hsource : (s.store.find id).bind (·.sourceWorkspaceId) with
  | none =>
      refine iff_of_true h fun n hn hws => ?_
      rw [hn] at hsource
      exact absurd (hsource.symm.trans hws) (by simp)
  | some w =>
      dsimp only
      cases hindex : s.tm.workspaceIndex w with
      | none =>
          refine iff_of_true h fun n hn hws => ?_
          rw [hn] at hsource
          obtain rfl : w = x := Option.some.inj (hsource.symm.trans hws)
          -- an open workspace has an index
          obtain ⟨ws, hmem, hid⟩ := List.mem_map.mp hx
          have hnone := List.findIdx?_eq_none_iff.mp hindex ws hmem
          simp [hid] at hnone
      | some i => exact markRead_point h _ id

/-- Toggling reads the workspace, or makes its latest entry unread. -/
theorem toggle_point {s : NotifyState} (hg : s.Good) {x : Uuid} (hx : x ∈ s.openIds)
    (h : s.AgreeAt x) :
    s.toggleUnread.AgreeAt x ↔
      (s.tm.selectedId = some x → ∃ n ∈ s.store.notifications, n.sourceWorkspaceId = some x) := by
  unfold toggleUnread
  cases hsel : s.tm.selectedId with
  | none => exact iff_of_true h fun habs => (by cases habs)
  | some w =>
      dsimp only
      by_cases hread : s.store.unreadCountForWorkspace w > 0
      · rw [if_pos hread]
        refine iff_of_true (markWorkspaceRead_point s w hx h) fun hw => ?_
        obtain rfl := Option.some.inj hw
        -- an unread entry of the workspace is an entry of it
        obtain ⟨n, hn, hunread⟩ := List.countP_pos_iff.mp hread
        refine ⟨n, hn, ?_⟩
        unfold Notification.unreadIn at hunread
        simpa using (Bool.and_eq_true_iff.mp hunread).2
      · rw [if_neg hread]
        have hzero : s.store.unreadCountForWorkspace w = 0 := by omega
        have hlatest := s.store.unread_markLatest x hg.ids hzero
        unfold AgreeAt at h ⊢
        rw [editBadge_store,
          editBadge_badges { s with store := s.store.markLatestUnreadForWorkspace w } w _ hx]
        show Badge.unreadCount _ = (s.store.markLatestUnreadForWorkspace w).unreadCountForWorkspace x ↔ _
        rw [hlatest]
        by_cases hw : x = w
        · subst hw
          rw [if_pos rfl]
          by_cases hany : ∃ n ∈ s.store.notifications, n.sourceWorkspaceId = some x
          · rw [if_pos ⟨rfl, hany⟩]
            exact iff_of_true rfl fun _ => hany
          · rw [if_neg fun hboth => hany hboth.2, hzero]
            exact iff_of_false Nat.one_ne_zero fun himp => hany (himp rfl)
        · rw [if_neg hw, if_neg fun hboth => hw hboth.1]
          exact iff_of_true h fun habs => absurd (Option.some.inj habs).symm hw

/-- **What a step does to the two counts of one open workspace.** -/
theorem run_point {s : NotifyState} (hg : s.Good) {x : Uuid} (hx : x ∈ s.openIds)
    (h : s.AgreeAt x) (a : NotifyAct) : (s.run a).AgreeAt x ↔ s.Keeps x a := by
  cases a with
  | create req draw =>
      unfold run Keeps AgreeAt
      dsimp only
      rcases create_cases s req draw with ⟨hno, hsame⟩ |
        ⟨hyes, target, title, body, panelId, retain, _, hbadges, hstore⟩
      · rw [hsame, hno]
        exact iff_of_true h (by simp)
      · rw [hyes, hbadges, hstore, editBadge_badges s target _ hx]
        have hcount := s.store.unread_addWithRetain x draw.id draw.now title body (some target)
          panelId retain
        refine (record_point s hg ?_ hcount h).trans (by simp)
        by_cases hw : x = target
        · rw [if_pos hw, if_pos (congrArg some hw.symm)]
          rfl
        · rw [if_neg hw, if_neg fun habs => hw (Option.some.inj habs).symm]
  | desktop panelId title body draw =>
      unfold run Keeps AgreeAt
      dsimp only
      rw [desktop_store, desktop_badges s panelId title body draw hx]
      exact record_point s hg rfl (s.store.unread_addWithRetain x _ _ _ _ _ _ _) h
  | goal w title body draw =>
      refine (notify_point s (some w) title body draw h).trans ?_
      simp only [Keeps, Option.some.injEq]
  | graph w title body draw => exact notify_point s w title body draw h
  | markRead id => exact markRead_point h s.tm id
  | dismiss id force => exact (store_point h s.tm _).trans (s.store.unread_dismiss_iff x id force)
  | clear => exact (store_point h s.tm _).trans eq_comm
  | openNotification id => exact open_point hx h id
  | click id w => exact markRead_point h _ id
  | selectAndRead sel => exact iff_of_true (selectAndRead_point s sel hx h) trivial
  | selectByIndex i => exact iff_of_true (selectByIndex_point s i hx h) trivial
  | select sel => exact iff_of_true h trivial
  | markWorkspaceRead w => exact iff_of_true (markWorkspaceRead_point s w hx h) trivial
  | badgeRead w =>
      refine (badge_point hx h w _).trans (imp_congr_right fun _ => ?_)
      exact eq_comm
  | badgeUnread w =>
      refine (badge_point hx h w _).trans (imp_congr_right fun _ => ?_)
      unfold AgreeAt at h
      show max (s.badges x).unreadCount 1 = _ ↔ _
      rw [h]
      omega
  | toggleUnread => exact toggle_point hg hx h

/-- **A step keeps the counts together exactly when it is balanced.** -/
theorem step_balanced {s s' : NotifyState} {a : NotifyAct} (hg : s.Good) (h : s.Agree)
    (hs : s.step a = some s') : s'.Agree ↔ s.Balanced a := by
  obtain ⟨rfl, _⟩ := step_eq hs
  unfold Agree Balanced
  constructor
  · intro hall x hx
    exact (run_point hg hx (h x hx) a).mp (hall x ((run_openIds s a x).mpr hx))
  · intro hall x hx
    have hopen := (run_openIds s a x).mp hx
    exact (run_point hg hopen (h x hopen) a).mpr (hall x hopen)

theorem step_good {s s' : NotifyState} {a : NotifyAct} (hg : s.Good)
    (hs : s.step a = some s') : s'.Good := by
  obtain ⟨rfl, hdrawn⟩ := step_eq hs
  exact run_good hg a hdrawn

/-! ## §11. Runs. -/

/-- The application starts with an empty store, and nothing is unread. -/
def start (tm : TabManager) : NotifyState := { tm }

theorem start_good (tm : TabManager) : (start tm).Good := ⟨Nat.zero_le _, List.nodup_nil⟩

theorem start_agree (tm : TabManager) : (start tm).Agree := fun _ _ => rfl

/-- **The two counts agree throughout a run exactly when every step of it is
balanced.** -/
theorem unread_counters_iff (tm : TabManager) {as : List NotifyAct} {s' : NotifyState}
    (hex : exec step (start tm) as = some s') :
    EveryState step Agree (start tm) as ↔ EveryStep step Balanced (start tm) as :=
  everyState_iff_everyStep Good (fun _ _ _ hg hs => step_good hg hs)
    (fun _ _ _ hg h hs => step_balanced hg h hs) (start_good tm) (start_agree tm) hex

/-- Workspace 1 with panel 11, and workspace 2 with panel 22. -/
def twoWorkspaces : TabManager where
  workspaces    := [Workspace.new 1 11 "/home", Workspace.new 2 22 "/home"]
  selectedIndex := some 0

/-- The terminal of workspace 2 notifies, and the user goes there. -/
def seen : List NotifyAct :=
  [.desktop (some 22) "Build" "done" { id := 100, now := 1 }, .selectByIndex 1]

def ranFrom (as : List NotifyAct) : NotifyState :=
  (exec step (start twoWorkspaces) as).getD (start twoWorkspaces)

theorem unread_counters_iff_seen :
    EveryState step Agree (start twoWorkspaces) seen
      ↔ EveryStep step Balanced (start twoWorkspaces) seen :=
  have hex : exec step (start twoWorkspaces) seen = some (ranFrom seen) := rfl
  unread_counters_iff twoWorkspaces hex

/-- A goal run notifies for workspace 2: the store has the entry, the badge does
not. -/
def goalNotified : List NotifyAct :=
  [.goal 2 "Goal node 'a'" "finished" { id := 100, now := 1 }]

/-- The store is cleared, and the badge stays. -/
def cleared : List NotifyAct :=
  [.create { title := some "Build", workspace := .given 2 } { id := 100, now := 1 }, .clear]

/-- The user opens the notification: its entry is read, and the badge stays. -/
def opened : List NotifyAct :=
  [.create { title := some "Build", workspace := .given 2 } { id := 100, now := 1 },
    .openNotification 100]

/-- "Mark as read" in the sidebar: the entry stays unread. -/
def badgeCleared : List NotifyAct :=
  [.create { title := some "Build", workspace := .given 2 } { id := 100, now := 1 },
    .badgeRead 2]

/-- Each of these runs ends with two different counts for workspace 2. -/
theorem unread_counters_differ :
    (∃ s' ∈ exec step (start twoWorkspaces) goalNotified, ¬ s'.Agree) ∧
      (∃ s' ∈ exec step (start twoWorkspaces) cleared, ¬ s'.Agree) ∧
      (∃ s' ∈ exec step (start twoWorkspaces) opened, ¬ s'.Agree) ∧
      (∃ s' ∈ exec step (start twoWorkspaces) badgeCleared, ¬ s'.Agree) := by
  unfold Agree
  decide

end NotifyState

end Jmux.Socket
