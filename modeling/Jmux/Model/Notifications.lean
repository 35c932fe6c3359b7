/-
  Jmux.Model.Notifications — the notification store (`notifications.rs`), the
  unread badge of a workspace (`model/workspace.rs`) and the selection
  (`model/tab_manager.rs`).

  The badge is what a workspace keeps about its notifications; it stands beside
  the workspace here, under its id.

  Main results:
    * `unread_addWithRetain` — a new entry counts, and the entries that are
                                dropped for it count no more.
    * `unread_markRead_iff`, `unread_dismiss_iff`, `unread_markLatest` — when the
                                other operations change a workspace's count.
-/
import Jmux.Lib.FirstMatch
import Jmux.Lib.Str
import Jmux.Model.TabManager

namespace Jmux.Model

open Jmux.Lib

/-! ## §1. The store. -/

/-- A notification from a terminal or agent; times are epoch seconds. -/
structure Notification where
  id                : Uuid
  title             : String
  body              : String
  sourceWorkspaceId : Option Uuid
  sourcePanelId     : Option Uuid
  timestamp         : Nat
  isRead            : Bool := false
  /-- Only a forced dismiss removes it. -/
  retainOnInterrupt : Bool := false
  deriving DecidableEq, Repr

structure NotificationStore where
  notifications : List Notification := []
  deriving DecidableEq, Repr

def maxNotifications : Nat := 500

/-- An unread entry of the workspace. -/
def Notification.unreadIn (workspaceId : Uuid) (n : Notification) : Bool :=
  !n.isRead && n.sourceWorkspaceId = some workspaceId

namespace NotificationStore

def unreadCountForWorkspace (store : NotificationStore) (workspaceId : Uuid) : Nat :=
  store.notifications.countP (·.unreadIn workspaceId)

/-- The oldest quarter goes when the store is full. -/
def dropCount (store : NotificationStore) : Nat :=
  if store.notifications.length ≥ maxNotifications then store.notifications.length / 4 else 0

/-- `id` and `now` are what `Uuid::new_v4()` and the clock give. -/
def addWithRetain (store : NotificationStore) (id : Uuid) (now : Nat) (title body : String)
    (workspaceId panelId : Option Uuid) (retainOnInterrupt : Bool) : NotificationStore where
  notifications :=
    store.notifications.drop store.dropCount ++
      [{ id
         title             := truncateStr title 1024
         body              := truncateStr body 8192
         sourceWorkspaceId := workspaceId
         sourcePanelId     := panelId
         timestamp         := now
         retainOnInterrupt }]

def add (store : NotificationStore) (id : Uuid) (now : Nat) (title body : String)
    (workspaceId panelId : Option Uuid) : NotificationStore :=
  store.addWithRetain id now title body workspaceId panelId false

def find (store : NotificationStore) (id : Uuid) : Option Notification :=
  store.notifications.find? (·.id = id)

def markRead (store : NotificationStore) (id : Uuid) : NotificationStore where
  notifications := store.notifications.modifyFirst (·.id = id) ({ · with isRead := true })

def markUnread (store : NotificationStore) (id : Uuid) : NotificationStore where
  notifications := store.notifications.modifyFirst (·.id = id) ({ · with isRead := false })

def markWorkspaceRead (store : NotificationStore) (workspaceId : Uuid) : NotificationStore where
  notifications := store.notifications.map fun n =>
    if n.sourceWorkspaceId = some workspaceId then { n with isRead := true } else n

/-- A protected entry stays unless the dismiss is forced; with whether one went. -/
def dismiss (store : NotificationStore) (id : Uuid) (force : Bool) : NotificationStore × Bool :=
  let kept := store.notifications.filter fun n => n.id ≠ id || (n.retainOnInterrupt && !force)
  (⟨kept⟩, decide (kept.length < store.notifications.length))

/-- The most recent notification of the workspace becomes unread. -/
def markLatestUnreadForWorkspace (store : NotificationStore) (workspaceId : Uuid) :
    NotificationStore :=
  match store.notifications.reverse.find? (·.sourceWorkspaceId = some workspaceId) with
  | some n => store.markUnread n.id
  | none => store

def clear (_store : NotificationStore) : NotificationStore := ⟨[]⟩

/-! ## §2. What the operations do to a count. -/

/-- The unread entries of the workspace that the next new entry pushes out. -/
def evictedUnread (store : NotificationStore) (workspaceId : Uuid) : Nat :=
  (store.notifications.take store.dropCount).countP (·.unreadIn workspaceId)

/-- The ids in the store are distinct. -/
def DistinctIds (store : NotificationStore) : Prop := (store.notifications.map (·.id)).Nodup

variable (store : NotificationStore) (x : Uuid)

/-- **A new entry counts for its workspace, the dropped ones count no more.** -/
theorem unread_addWithRetain (id : Uuid) (now : Nat) (title body : String)
    (workspaceId panelId : Option Uuid) (retain : Bool) :
    (store.addWithRetain id now title body workspaceId panelId retain).unreadCountForWorkspace x
        + store.evictedUnread x
      = store.unreadCountForWorkspace x + if workspaceId = some x then 1 else 0 := by
  have hsplit : store.unreadCountForWorkspace x
      = store.evictedUnread x
        + (store.notifications.drop store.dropCount).countP (·.unreadIn x) := by
    unfold unreadCountForWorkspace evictedUnread
    rw [← List.countP_append, List.take_append_drop]
  unfold addWithRetain
  rw [hsplit]
  show (_ ++ _ : List Notification).countP (·.unreadIn x) + _ = _
  rw [List.countP_append, List.countP_singleton]
  simp only [Notification.unreadIn, Bool.not_false, Bool.true_and, decide_eq_true_eq]
  omega

theorem length_addWithRetain (id : Uuid) (now : Nat) (title body : String)
    (workspaceId panelId : Option Uuid) (retain : Bool)
    (h : store.notifications.length ≤ maxNotifications) :
    (store.addWithRetain id now title body workspaceId panelId retain).notifications.length
      ≤ maxNotifications := by
  unfold addWithRetain dropCount maxNotifications at *
  simp only [List.length_append, List.length_drop, List.length_singleton]
  split <;> omega

theorem distinctIds_addWithRetain (h : store.DistinctIds) {id : Uuid}
    (hid : id ∉ store.notifications.map (·.id)) (now : Nat) (title body : String)
    (workspaceId panelId : Option Uuid) (retain : Bool) :
    (store.addWithRetain id now title body workspaceId panelId retain).DistinctIds := by
  unfold DistinctIds addWithRetain at *
  rw [List.map_append, List.map_drop]
  refine List.Nodup.append (h.sublist (List.drop_sublist _ _)) (List.nodup_singleton _) ?_
  intro j hj hj'
  obtain rfl := List.mem_singleton.mp hj'
  exact hid ((List.drop_sublist _ _).subset hj)

/-- The count after an edit of the first entry with an id. -/
theorem countP_modifyFirst_find (p q : Notification → Bool) (f : Notification → Notification)
    (l : List Notification) :
    (l.find? p = none ∧ (l.modifyFirst p f).countP q = l.countP q) ∨
    ∃ n, l.find? p = some n ∧
      (l.modifyFirst p f).countP q + (if q n then 1 else 0)
        = l.countP q + if q (f n) then 1 else 0 := by
  rcases List.modifyFirst_split p f l with ⟨hnone, h⟩ | ⟨xs, y, zs, rfl, _, _, hfind, h⟩
  · exact .inl ⟨hnone, by rw [h]⟩
  · refine .inr ⟨y, hfind, ?_⟩
    rw [h, List.countP_append, List.countP_append, List.countP_cons, List.countP_cons]
    omega

/-- Marking an entry as read changes a count if the entry was unread and counted. -/
theorem unread_markRead_iff (id : Uuid) :
    (store.markRead id).unreadCountForWorkspace x = store.unreadCountForWorkspace x ↔
      ∀ n, store.find id = some n → n.sourceWorkspaceId = some x → n.isRead = true := by
  unfold unreadCountForWorkspace markRead find
  dsimp only
  rcases countP_modifyFirst_find (·.id = id) (·.unreadIn x) ({ · with isRead := true })
    store.notifications with ⟨hnone, h⟩ | ⟨n, hfind, h⟩
  · rw [h, hnone]
    simp
  · have hafter : Notification.unreadIn x { n with isRead := true } = false := rfl
    rw [hafter] at h
    constructor
    · intro heq m hm hws
      obtain rfl : n = m := Option.some.inj (hfind.symm.trans hm)
      cases hread : n.isRead with
      | true => rfl
      | false =>
          -- an unread entry of the workspace would have counted
          have hcount : n.unreadIn x = true := by simp [Notification.unreadIn, hread, hws]
          rw [hcount] at h
          simp only [if_true, Bool.false_eq_true, if_false] at h
          omega
    · intro hall
      have hcount : n.unreadIn x = false := by
        unfold Notification.unreadIn
        by_cases hws : n.sourceWorkspaceId = some x
        · simp [hall n hfind hws]
        · simp [hws]
      rw [hcount] at h
      simpa using h

theorem unread_markWorkspaceRead (workspaceId : Uuid) :
    (store.markWorkspaceRead workspaceId).unreadCountForWorkspace x
      = if x = workspaceId then 0 else store.unreadCountForWorkspace x := by
  unfold markWorkspaceRead unreadCountForWorkspace
  rw [List.countP_map]
  by_cases hx : x = workspaceId
  · rw [if_pos hx, List.countP_eq_zero]
    intro n _
    simp only [Function.comp_apply, Notification.unreadIn]
    by_cases hws : n.sourceWorkspaceId = some workspaceId
    · simp [hws]
    · simp [hws, hx]
  · rw [if_neg hx]
    refine List.countP_congr fun n _ => ?_
    simp only [Function.comp_apply, Notification.unreadIn]
    by_cases hws : n.sourceWorkspaceId = some workspaceId
    · have hne : workspaceId ≠ x := fun h => hx h.symm
      simp [hws, hne]
    · simp [hws]

/-- A filter keeps a count exactly when nothing that counts goes. -/
theorem countP_filter_eq_iff (p q : Notification → Bool) (l : List Notification) :
    (l.filter p).countP q = l.countP q ↔ ∀ n ∈ l, p n = false → q n = false := by
  induction l with
  | nil => simp
  | cons n l ih =>
      have hle : (l.filter p).countP q ≤ l.countP q := List.filter_sublist.countP_le
      cases hp : p n with
      | true =>
          rw [List.filter_cons_of_pos hp, List.countP_cons, List.countP_cons, Nat.add_right_cancel_iff,
            ih]
          simp [hp]
      | false =>
          rw [List.filter_cons_of_neg (by simp [hp]), List.countP_cons]
          cases hq : q n with
          | true =>
              refine iff_of_false ?_ ?_
              · simp only [if_true]
                omega
              · intro h
                have hno := h n List.mem_cons_self hp
                rw [hq] at hno
                cases hno
          | false =>
              simp only [Bool.false_eq_true, if_false, Nat.add_zero]
              rw [ih]
              simp [hq]

/-- A dismiss changes a count if it removes an unread entry that counted. -/
theorem unread_dismiss_iff (id : Uuid) (force : Bool) :
    (store.dismiss id force).1.unreadCountForWorkspace x = store.unreadCountForWorkspace x ↔
      ∀ n ∈ store.notifications, n.id = id → (n.retainOnInterrupt && !force) = false →
        n.sourceWorkspaceId = some x → n.isRead = true := by
  unfold dismiss unreadCountForWorkspace
  rw [countP_filter_eq_iff]
  refine forall_congr' fun n => imp_congr_right fun _ => ?_
  constructor
  · intro h hid hforce hws
    have hkept : (decide (n.id ≠ id) || n.retainOnInterrupt && !force) = false := by
      simp [hid, hforce]
    simpa [Notification.unreadIn, hws] using h hkept
  · intro h hgone
    obtain ⟨hid, hforce⟩ := Bool.or_eq_false_iff.mp hgone
    have hid : n.id = id := by simpa using hid
    unfold Notification.unreadIn
    by_cases hws : n.sourceWorkspaceId = some x
    · simp [h hid hforce hws]
    · simp [hws]

/-- With everything of the workspace read, its latest entry alone becomes unread. -/
theorem unread_markLatest (hids : store.DistinctIds) {workspaceId : Uuid}
    (hread : store.unreadCountForWorkspace workspaceId = 0) :
    (store.markLatestUnreadForWorkspace workspaceId).unreadCountForWorkspace x
      = if x = workspaceId ∧ ∃ n ∈ store.notifications, n.sourceWorkspaceId = some workspaceId
        then 1 else store.unreadCountForWorkspace x := by
  unfold markLatestUnreadForWorkspace
  cases hfind : store.notifications.reverse.find? (·.sourceWorkspaceId = some workspaceId) with
  | none =>
      have hno : ¬ ∃ n ∈ store.notifications, n.sourceWorkspaceId = some workspaceId := by
        rintro ⟨n, hn, hws⟩
        have habs := List.find?_eq_none.mp hfind n (List.mem_reverse.mpr hn)
        simp [hws] at habs
      rw [if_neg fun h => hno h.2]
  | some n =>
      have hn : n ∈ store.notifications := List.mem_reverse.mp (List.mem_of_find?_eq_some hfind)
      have hws : n.sourceWorkspaceId = some workspaceId := by simpa using List.find?_some hfind
      -- the entry that is found is the one with its id
      have hself : store.notifications.find? (·.id = n.id) = some n :=
        (List.find?_key_eq_some hids).mpr ⟨hn, rfl⟩
      have hnot : n.unreadIn workspaceId = false := by
        have hall := List.countP_eq_zero.mp hread n hn
        simpa using hall
      unfold markUnread unreadCountForWorkspace
      dsimp only
      rcases countP_modifyFirst_find (·.id = n.id) (·.unreadIn x) ({ · with isRead := false })
        store.notifications with ⟨hnone, _⟩ | ⟨m, hm, h⟩
      · rw [hself] at hnone
        cases hnone
      · obtain rfl : n = m := Option.some.inj (hself.symm.trans hm)
        by_cases hx : x = workspaceId
        · subst hx
          have hafter : Notification.unreadIn x { n with isRead := false } = true := by
            simp [Notification.unreadIn, hws]
          rw [hnot, hafter] at h
          rw [if_pos ⟨rfl, n, hn, hws⟩]
          unfold unreadCountForWorkspace at hread
          simp only [Bool.false_eq_true, if_false, if_true] at h
          omega
        · have hother : ∀ b, Notification.unreadIn x { n with isRead := b } = false := by
            intro b
            have hne : workspaceId ≠ x := fun h => hx h.symm
            simp [Notification.unreadIn, hws, hne]
          have hbefore : n.unreadIn x = false := hother n.isRead
          rw [hbefore, hother] at h
          rw [if_neg fun h => hx h.1]
          simpa using h

end NotificationStore

/-! ## §3. The badge of a workspace. -/

/-- What a workspace keeps about its notifications. -/
structure Badge where
  unreadCount          : Nat := 0
  latestNotification   : Option String := none
  latestNotificationAt : Option Nat := none
  deriving DecidableEq, Repr

def truncateForSidebar (text : List Char) (maxChars : Nat) : List Char :=
  if text.length > maxChars then text.take maxChars ++ "...".toList else text

def notificationSummary (title body : String) : String :=
  let title := Str.trim title
  let body := Str.trim body
  let summary :=
    if title ≠ "" ∧ body ≠ "" then if body = title then title else title ++ ": " ++ body
    else if title ≠ "" then title
    else if body ≠ "" then body
    else "Notification"
  -- `split_whitespace`, and one blank between the words
  let words := (summary.toList.splitOnP Str.isWhitespace).filter (· ≠ [])
  String.ofList (truncateForSidebar ([' '].intercalate words) 120)

/-- `u32::saturating_add(1)`. -/
def saturatingSucc (n : Nat) : Nat := min (n + 1) (2 ^ 32 - 1)

/-- The badge's part of `record_notification`. -/
def Badge.record (badge : Badge) (now : Nat) (title body : String) : Badge where
  unreadCount          := saturatingSucc badge.unreadCount
  latestNotification   := some (notificationSummary title body)
  latestNotificationAt := some now

def Badge.markNotificationsRead (badge : Badge) : Badge := { badge with unreadCount := 0 }

/-- A workspace marked as unread by hand shows at least one. -/
def Badge.markUnread (badge : Badge) : Badge :=
  { badge with unreadCount := max badge.unreadCount 1 }

namespace TabManager

/-- Index of the workspace with the newest unread notification; of equal times
the last one counts. -/
def latestUnreadIndex (tm : TabManager) (badges : Uuid → Badge) : Option Nat :=
  let unread := (positions (fun ws => 0 < (badges ws.id).unreadCount) tm.workspaces 0)
  let time := fun i =>
    ((tm.workspaces[i]?).bind fun ws => (badges ws.id).latestNotificationAt).getD 0
  unread.foldl
    (fun best i =>
      match best with
      | none => some i
      | some j => if time j ≤ time i then some i else some j)
    none

def selectLatestUnread (tm : TabManager) (badges : Uuid → Badge) : TabManager × Option Uuid :=
  match tm.latestUnreadIndex badges with
  | none => (tm, none)
  | some index =>
      ({ tm with selectedIndex := some index }, (tm.workspaces[index]?).map (·.id))

end TabManager

end Jmux.Model
