/-
  Jmux.Remote.Sessions — the sessions of the remote daemon
  (`daemon/remote/cmd/jmuxd-remote/main.go`), and the daemon as a whole.

  A session is as large as its smallest attachment.  The number of columns or
  rows in a request is the integer that the decoder makes of it.  The order in
  which `range` goes over a map is any (`AttachmentOrder`), at each request
  another one.

  Main results:
    * `handleRequest_lookup` — what a request can do to a session.
    * `Sized`                — the invariant of a session, kept by every request.
    * `opensFresh_iff`       — when a session without an id of its own is a new one.
-/
import Mathlib.Order.Bounds.Basic
import Jmux.Remote.Agreement

namespace Jmux.Remote

open Jmux.Lib

/-! ## §1. Sessions. -/

structure SessionAttachment where
  cols      : Int
  rows      : Int
  /-- In nanoseconds. -/
  updatedAt : Int
  deriving DecidableEq, Repr

abbrev Attachments := AList fun _ : String => SessionAttachment

structure SessionState where
  attachments   : Attachments := ∅
  effectiveCols : Int := 0
  effectiveRows : Int := 0
  lastKnownCols : Int := 0
  lastKnownRows : Int := 0

/-- An order in which `range` yields the attachments. -/
structure AttachmentOrder where
  iter : Attachments → List SessionAttachment
  perm : ∀ m, (iter m).Perm (m.entries.map (·.2))

theorem AttachmentOrder.mem_iter (order : AttachmentOrder) (attachments : Attachments)
    (a : SessionAttachment) :
    a ∈ order.iter attachments ↔ ∃ id, attachments.lookup id = some a := by
  rw [(order.perm attachments).mem_iff, List.mem_map]
  constructor
  · intro h
    obtain ⟨e, he, ha⟩ := h
    exact ⟨e.1, (AList.mem_lookup_iff.mpr) (by rw [← ha]; exact he)⟩
  · intro h
    obtain ⟨id, hid⟩ := h
    exact ⟨⟨id, a⟩, AList.mem_lookup_iff.mp hid, rfl⟩

/-- One side of the loop in `recomputeSessionSize`, where `0` is no minimum yet. -/
def smaller (least next : Int) : Int :=
  if least = 0 ∨ next < least then next else least

def recomputeSessionSize (order : AttachmentOrder) (session : SessionState) : SessionState :=
  if session.attachments.entries = [] then
    { session with
      effectiveCols := session.lastKnownCols
      effectiveRows := session.lastKnownRows }
  else
    let attachments := order.iter session.attachments
    let minCols := attachments.foldl (fun least a => smaller least a.cols) 0
    let minRows := attachments.foldl (fun least a => smaller least a.rows) 0
    { session with
      effectiveCols := minCols
      effectiveRows := minRows
      lastKnownCols := minCols
      lastKnownRows := minRows }

/-- What the session handlers meet: the clock and how it is written, an order
for `range`, `strconv.Quote` and the daemon's version. -/
structure SessionEnv where
  now         : Int
  rfc3339Nano : Int → String
  order       : AttachmentOrder
  quote       : String → String
  version     : String

def sessionSnapshot (env : SessionEnv) (sessionID : String) (session : SessionState) :
    List (String × Json) :=
  let attachmentIDs := session.attachments.keys.mergeSort fun a b => a ≤ b
  let attachments := attachmentIDs.filterMap fun attachmentID =>
    (session.attachments.lookup attachmentID).map fun attachment =>
      Json.obj
        [("attachment_id", .str attachmentID), ("cols", .num attachment.cols),
          ("rows", .num attachment.rows),
          ("updated_at", .str (env.rfc3339Nano attachment.updatedAt))]
  [("session_id", .str sessionID), ("attachments", .arr attachments),
    ("effective_cols", .num session.effectiveCols),
    ("effective_rows", .num session.effectiveRows),
    ("last_known_cols", .num session.lastKnownCols),
    ("last_known_rows", .num session.lastKnownRows)]

/-- The half of `rpcServer` that has the sessions. -/
structure SessionServer where
  nextSessionID : UInt64 := 1
  sessions      : AList fun _ : String => SessionState := ∅

/-! ## §2. The handlers. -/

/-- A parameter that has to be there and not be empty. -/
def requiredParam (req : IncomingRequest) (method key : String) : Except RpcResponse String :=
  match (getStringParam req.params key).filter (· ≠ "") with
  | some value => .ok value
  | none => .error (req.fail "invalid_params" s!"{method} requires {key}")

/-- A parameter that has to be a positive number. -/
def positiveParam (req : IncomingRequest) (method key : String) : Except RpcResponse Int :=
  match (getIntParam req.params key).filter fun value => 0 < value with
  | some value => .ok value
  | none => .error (req.fail "invalid_params" s!"{method} requires {key} > 0")

structure SessionAttachmentParams where
  sessionID    : String
  attachmentID : String
  cols         : Int
  rows         : Int

def parseSessionAttachmentParams (req : IncomingRequest) (method : String) :
    Except RpcResponse SessionAttachmentParams := do
  let sessionID ← requiredParam req method "session_id"
  let attachmentID ← requiredParam req method "attachment_id"
  let cols ← positiveParam req method "cols"
  let rows ← positiveParam req method "rows"
  return { sessionID, attachmentID, cols, rows }

namespace SessionServer

/-- A session with other attachments, and the answer that shows it. -/
def reattach (env : SessionEnv) (server : SessionServer) (req : IncomingRequest)
    (sessionID : String) (session : SessionState) (attachments : Attachments) :
    RpcResponse × SessionServer :=
  let session := recomputeSessionSize env.order { session with attachments }
  (req.succeed (sessionSnapshot env sessionID session),
    { server with sessions := server.sessions.insert sessionID session })

/-- The id of a session to open: without one in the request, a generated one. -/
def openID (server : SessionServer) (req : IncomingRequest) : String × UInt64 :=
  let sessionID := (getStringParam req.params "session_id").getD ""
  if sessionID = "" then (s!"sess-{server.nextSessionID}", server.nextSessionID + 1)
  else (sessionID, server.nextSessionID)

def handleSessionOpen (env : SessionEnv) (server : SessionServer) (req : IncomingRequest) :
    RpcResponse × SessionServer :=
  let (sessionID, nextSessionID) := server.openID req
  match server.sessions.lookup sessionID with
  | some session =>
      (req.succeed (sessionSnapshot env sessionID session), { server with nextSessionID })
  | none =>
      (req.succeed (sessionSnapshot env sessionID {}),
        { nextSessionID, sessions := server.sessions.insert sessionID {} })

def handleSessionClose (server : SessionServer) (req : IncomingRequest) :
    RpcResponse × SessionServer :=
  match requiredParam req "session.close" "session_id" with
  | .error badResp => (badResp, server)
  | .ok sessionID =>
      match server.sessions.lookup sessionID with
      | none => (req.fail "not_found" "session not found", server)
      | some _ =>
          (req.succeed [("session_id", .str sessionID), ("closed", .bool true)],
            { server with sessions := server.sessions.erase sessionID })

def handleSessionAttach (env : SessionEnv) (server : SessionServer) (req : IncomingRequest) :
    RpcResponse × SessionServer :=
  match parseSessionAttachmentParams req "session.attach" with
  | .error badResp => (badResp, server)
  | .ok params =>
      match server.sessions.lookup params.sessionID with
      | none => (req.fail "not_found" "session not found", server)
      | some session =>
          server.reattach env req params.sessionID session
            (session.attachments.insert params.attachmentID
              { cols := params.cols, rows := params.rows, updatedAt := env.now })

def handleSessionResize (env : SessionEnv) (server : SessionServer) (req : IncomingRequest) :
    RpcResponse × SessionServer :=
  match parseSessionAttachmentParams req "session.resize" with
  | .error badResp => (badResp, server)
  | .ok params =>
      match server.sessions.lookup params.sessionID with
      | none => (req.fail "not_found" "session not found", server)
      | some session =>
          match session.attachments.lookup params.attachmentID with
          | none => (req.fail "not_found" "attachment not found", server)
          | some _ =>
              server.reattach env req params.sessionID session
                (session.attachments.insert params.attachmentID
                  { cols := params.cols, rows := params.rows, updatedAt := env.now })

def handleSessionDetach (env : SessionEnv) (server : SessionServer) (req : IncomingRequest) :
    RpcResponse × SessionServer :=
  match requiredParam req "session.detach" "session_id" with
  | .error badResp => (badResp, server)
  | .ok sessionID =>
      match requiredParam req "session.detach" "attachment_id" with
      | .error badResp => (badResp, server)
      | .ok attachmentID =>
          match server.sessions.lookup sessionID with
          | none => (req.fail "not_found" "session not found", server)
          | some session =>
              match session.attachments.lookup attachmentID with
              | none => (req.fail "not_found" "attachment not found", server)
              | some _ =>
                  server.reattach env req sessionID session
                    (session.attachments.erase attachmentID)

def handleSessionStatus (env : SessionEnv) (server : SessionServer) (req : IncomingRequest) :
    RpcResponse :=
  match requiredParam req "session.status" "session_id" with
  | .error badResp => badResp
  | .ok sessionID =>
      match server.sessions.lookup sessionID with
      | none => req.fail "not_found" "session not found"
      | some session => req.succeed (sessionSnapshot env sessionID session)

def capabilities : List String :=
  ["session.basic", "session.resize.min", "proxy.http_connect", "proxy.socks5",
    "proxy.stream", "proxy.stream.push"]

/-- The methods outside the proxy. -/
def handleRequest (env : SessionEnv) (server : SessionServer) (req : IncomingRequest) :
    RpcResponse × SessionServer :=
  if req.method = "hello" then
    (req.succeed
      [("name", .str "jmuxd-remote"), ("version", .str env.version),
        ("capabilities", .arr (capabilities.map Json.str))], server)
  else if req.method = "ping" then (req.succeed [("pong", .bool true)], server)
  else if req.method = "session.open" then server.handleSessionOpen env req
  else if req.method = "session.close" then server.handleSessionClose req
  else if req.method = "session.attach" then server.handleSessionAttach env req
  else if req.method = "session.resize" then server.handleSessionResize env req
  else if req.method = "session.detach" then server.handleSessionDetach env req
  else if req.method = "session.status" then (server.handleSessionStatus env req, server)
  else (req.fail "method_not_found" s!"unknown method {env.quote req.method}", server)

end SessionServer

/-! ## §3. The daemon. -/

/-- `rpcServer`. -/
structure Daemon where
  proxy    : RpcServer := {}
  sessions : SessionServer := {}

structure DaemonEnv where
  opening    : OpenEnv
  writeError : Option String := none
  session    : SessionEnv

inductive DaemonAction
  | request (env : DaemonEnv) (req : IncomingRequest)
  | pump (streamID : String) (data : Bytes) (readErr : Option ReadError)

namespace Daemon

/-- The answer to a method of the proxy comes from the proxy, any other from the
other half. -/
def handleRequest (b64 : Base64) (env : DaemonEnv) (daemon : Daemon) (req : IncomingRequest) :
    RpcResponse × Daemon :=
  let (answer, sessions) := daemon.sessions.handleRequest env.session req
  let (resp, proxy) :=
    daemon.proxy.handleRequest b64
      { opening := env.opening, writeError := env.writeError, other := fun _ => answer } req
  (resp, { proxy, sessions })

def next (b64 : Base64) (daemon : Daemon) : DaemonAction → Daemon
  | .request env req => (daemon.handleRequest b64 env req).2
  | .pump streamID data readErr =>
      { daemon with proxy := (daemon.proxy.pump b64 streamID data readErr).2 }

def session (daemon : Daemon) (id : String) : Option SessionState :=
  daemon.sessions.sessions.lookup id

/-- The daemon after a run. -/
def run (b64 : Base64) (as : List DaemonAction) : Daemon := as.foldl (next b64) {}

end Daemon

/-! ## §4. What a request can do to a session. -/

/-- A session before and after a request. -/
inductive SessionStep : Option SessionState → Option SessionState → Prop
  | kept (before : Option SessionState) : SessionStep before before
  | opened : SessionStep none (some {})
  | closed (before : Option SessionState) : SessionStep before none
  | reattached {session : SessionState} {attachments : Attachments} (order : AttachmentOrder) :
      (∀ id a, attachments.lookup id = some a →
        session.attachments.lookup id = some a ∨ (0 < a.cols ∧ 0 < a.rows)) →
      SessionStep (some session)
        (some (recomputeSessionSize order { session with attachments }))

theorem positiveParam_pos {req : IncomingRequest} {method key : String} {value : Int}
    (h : positiveParam req method key = .ok value) : 0 < value := by
  unfold positiveParam at h
  split at h
  · next n hn =>
      have hpos := (Option.filter_eq_some_iff.mp hn).2
      rw [← Except.ok.inj h]
      simpa using hpos
  · cases h

theorem exists_of_bind_ok {ε α β : Type} {x : Except ε α} {f : α → Except ε β} {b : β}
    (h : x >>= f = .ok b) : ∃ a, x = .ok a ∧ f a = .ok b := by
  cases x with
  | error _ => cases h
  | ok a => exact ⟨a, rfl, h⟩

theorem parseSessionAttachmentParams_pos {req : IncomingRequest} {method : String}
    {params : SessionAttachmentParams} (h : parseSessionAttachmentParams req method = .ok params) :
    0 < params.cols ∧ 0 < params.rows := by
  unfold parseSessionAttachmentParams at h
  obtain ⟨_, _, h⟩ := exists_of_bind_ok h
  obtain ⟨_, _, h⟩ := exists_of_bind_ok h
  obtain ⟨_, hcols, h⟩ := exists_of_bind_ok h
  obtain ⟨_, hrows, h⟩ := exists_of_bind_ok h
  rw [← Except.ok.inj h]
  exact ⟨positiveParam_pos hcols, positiveParam_pos hrows⟩

namespace SessionServer

variable {env : SessionEnv} {server : SessionServer} {req : IncomingRequest}

theorem reattach_lookup {sessionID : String} {session : SessionState} {attachments : Attachments}
    (hsession : server.sessions.lookup sessionID = some session)
    (hpos : ∀ id a, attachments.lookup id = some a →
      session.attachments.lookup id = some a ∨ (0 < a.cols ∧ 0 < a.rows)) (id : String) :
    SessionStep (server.sessions.lookup id)
      ((server.reattach env req sessionID session attachments).2.sessions.lookup id) := by
  show SessionStep _ ((server.sessions.insert sessionID _).lookup id)
  rw [AList.lookup_insert_eq_ite]
  by_cases hid : id = sessionID
  · rw [if_pos hid, hid, hsession]
    exact .reattached env.order hpos
  · rw [if_neg hid]
    exact .kept _

/-- One attachment more, or another size of one. -/
theorem insert_pos {attachments : Attachments} {attachmentID : String} {a : SessionAttachment}
    (ha : 0 < a.cols ∧ 0 < a.rows) (id : String) (b : SessionAttachment)
    (h : (attachments.insert attachmentID a).lookup id = some b) :
    attachments.lookup id = some b ∨ (0 < b.cols ∧ 0 < b.rows) := by
  rw [AList.lookup_insert_eq_ite] at h
  by_cases hid : id = attachmentID
  · rw [if_pos hid] at h
    rw [← Option.some.inj h]
    exact .inr ha
  · rw [if_neg hid] at h
    exact .inl h

theorem handleSessionOpen_lookup (id : String) :
    SessionStep (server.sessions.lookup id)
      ((server.handleSessionOpen env req).2.sessions.lookup id) := by
  unfold handleSessionOpen
  dsimp only
  split
  · exact .kept _
  · next hnone =>
      rw [AList.lookup_insert_eq_ite]
      by_cases hid : id = (server.openID req).1
      · rw [if_pos hid, hid, hnone]
        exact .opened
      · rw [if_neg hid]
        exact .kept _

theorem handleSessionClose_lookup (id : String) :
    SessionStep (server.sessions.lookup id)
      ((server.handleSessionClose req).2.sessions.lookup id) := by
  unfold handleSessionClose
  split
  · exact .kept _
  · next sessionID _ =>
      split
      · exact .kept _
      · show SessionStep _ ((server.sessions.erase sessionID).lookup id)
        rw [AList.lookup_erase_eq_ite]
        by_cases hid : id = sessionID
        · rw [if_pos hid]
          exact .closed _
        · rw [if_neg hid]
          exact .kept _

theorem handleSessionAttach_lookup (id : String) :
    SessionStep (server.sessions.lookup id)
      ((server.handleSessionAttach env req).2.sessions.lookup id) := by
  unfold handleSessionAttach
  split
  · exact .kept _
  · next params hparams =>
      split
      · exact .kept _
      · next session hsession =>
          exact reattach_lookup hsession
            (insert_pos (parseSessionAttachmentParams_pos hparams)) id

theorem handleSessionResize_lookup (id : String) :
    SessionStep (server.sessions.lookup id)
      ((server.handleSessionResize env req).2.sessions.lookup id) := by
  unfold handleSessionResize
  split
  · exact .kept _
  · next params hparams =>
      split
      · exact .kept _
      · next session hsession =>
          split
          · exact .kept _
          · exact reattach_lookup hsession
              (insert_pos (parseSessionAttachmentParams_pos hparams)) id

theorem handleSessionDetach_lookup (id : String) :
    SessionStep (server.sessions.lookup id)
      ((server.handleSessionDetach env req).2.sessions.lookup id) := by
  unfold handleSessionDetach
  split
  · exact .kept _
  · split
    · exact .kept _
    · next attachmentID _ =>
        split
        · exact .kept _
        · next session hsession =>
            split
            · exact .kept _
            · refine reattach_lookup hsession ?_ id
              intro key a ha
              rw [AList.lookup_erase_eq_ite] at ha
              by_cases hkey : key = attachmentID
              · rw [if_pos hkey] at ha
                cases ha
              · rw [if_neg hkey] at ha
                exact .inl ha

theorem handleRequest_lookup (id : String) :
    SessionStep (server.sessions.lookup id)
      ((server.handleRequest env req).2.sessions.lookup id) := by
  unfold handleRequest
  split
  · exact .kept _
  split
  · exact .kept _
  split
  · exact handleSessionOpen_lookup id
  split
  · exact handleSessionClose_lookup id
  split
  · exact handleSessionAttach_lookup id
  split
  · exact handleSessionResize_lookup id
  split
  · exact handleSessionDetach_lookup id
  split
  · exact .kept _
  · exact .kept _

end SessionServer

theorem Daemon.next_session (b64 : Base64) (daemon : Daemon) (a : DaemonAction) (id : String) :
    SessionStep (daemon.session id) ((daemon.next b64 a).session id) := by
  cases a with
  | request env req => exact SessionServer.handleRequest_lookup id
  | pump streamID data readErr => exact .kept _

/-! ## §5. The effective size. -/

theorem foldl_smaller_of_pos {xs : List Int} (hpos : ∀ x ∈ xs, 0 < x) {least : Int}
    (hleast : 0 < least) : IsLeast {x | x = least ∨ x ∈ xs} (xs.foldl smaller least) := by
  induction xs generalizing least with
  | nil => simp [IsLeast, lowerBounds]
  | cons x xs ih =>
      have hx : 0 < x := hpos x List.mem_cons_self
      have hxs : ∀ y ∈ xs, 0 < y := fun y hy => hpos y (List.mem_cons_of_mem x hy)
      rw [List.foldl_cons]
      by_cases hlt : x < least
      · rw [show smaller least x = x from if_pos (.inr hlt)]
        obtain ⟨hmem, hlower⟩ := ih hxs hx
        constructor
        · rcases hmem with hmem | hmem
          · exact .inr (by rw [hmem]; exact List.mem_cons_self)
          · exact .inr (List.mem_cons_of_mem x hmem)
        · intro y hy
          rcases hy with hy | hy
          · have := hlower (.inl rfl)
            omega
          · exact hlower (List.mem_cons.mp hy)
      · rw [show smaller least x = least from if_neg (by omega)]
        obtain ⟨hmem, hlower⟩ := ih hxs hleast
        constructor
        · rcases hmem with hmem | hmem
          · exact .inl hmem
          · exact .inr (List.mem_cons_of_mem x hmem)
        · intro y hy
          rcases hy with hy | hy
          · exact hlower (.inl hy)
          · rcases List.mem_cons.mp hy with hy | hy
            · have := hlower (.inl rfl)
              omega
            · exact hlower (.inr hy)

/-- The loop gives the least of positive numbers. -/
theorem foldl_smaller {xs : List Int} (hpos : ∀ x ∈ xs, 0 < x) (hne : xs ≠ []) :
    IsLeast {x | x ∈ xs} (xs.foldl smaller 0) := by
  cases xs with
  | nil => exact absurd rfl hne
  | cons x xs =>
      have hleast := @foldl_smaller_of_pos xs (fun y hy => hpos y (List.mem_cons_of_mem x hy)) x
        (hpos x List.mem_cons_self)
      rw [List.foldl_cons, show smaller 0 x = x by simp [smaller]]
      simpa only [List.mem_cons] using hleast

/-- The sizes that the attachments have on one side. -/
def Attachments.sides (attachments : Attachments) (side : SessionAttachment → Int) : Set Int :=
  {n | ∃ id a, attachments.lookup id = some a ∧ side a = n}

/-- Whatever the order, the loop finds the smallest attachment. -/
theorem foldl_iter_isLeast (order : AttachmentOrder) {attachments : Attachments}
    (side : SessionAttachment → Int)
    (hpos : ∀ id a, attachments.lookup id = some a → 0 < side a)
    (hne : attachments.entries ≠ []) :
    IsLeast (attachments.sides side)
      ((order.iter attachments).foldl (fun least a => smaller least (side a)) 0) := by
  have hsides : attachments.sides side = {n | n ∈ (order.iter attachments).map side} := by
    ext n
    show (∃ id a, _ ∧ _) ↔ n ∈ (order.iter attachments).map side
    rw [List.mem_map]
    constructor
    · intro h
      obtain ⟨id, a, ha, hn⟩ := h
      exact ⟨a, (order.mem_iter attachments a).mpr ⟨id, ha⟩, hn⟩
    · intro h
      obtain ⟨a, ha, hn⟩ := h
      obtain ⟨id, hid⟩ := (order.mem_iter attachments a).mp ha
      exact ⟨id, a, hid, hn⟩
  have hmap : (order.iter attachments).foldl (fun least a => smaller least (side a)) 0 =
      ((order.iter attachments).map side).foldl smaller 0 := by
    rw [List.foldl_map]
  rw [hsides, hmap]
  apply foldl_smaller
  · intro n hn
    obtain ⟨a, ha, hside⟩ := List.mem_map.mp hn
    obtain ⟨id, hid⟩ := (order.mem_iter attachments a).mp ha
    rw [← hside]
    exact hpos id a hid
  · intro hnil
    have hlen := (order.perm attachments).length_eq
    rw [List.map_eq_nil_iff.mp hnil, List.length_map] at hlen
    exact hne (List.length_eq_zero_iff.mp hlen.symm)

/-- The invariant of a session. -/
structure Sized (session : SessionState) : Prop where
  pos       : ∀ id a, session.attachments.lookup id = some a → 0 < a.cols ∧ 0 < a.rows
  knownCols : session.lastKnownCols = session.effectiveCols
  knownRows : session.lastKnownRows = session.effectiveRows
  least     : session.attachments.entries ≠ [] →
    IsLeast (session.attachments.sides (·.cols)) session.effectiveCols ∧
      IsLeast (session.attachments.sides (·.rows)) session.effectiveRows

theorem sized_new : Sized {} where
  pos       := fun _ _ h => nomatch h
  knownCols := rfl
  knownRows := rfl
  least     := fun h => absurd rfl h

/-- Without attachments the size stays what it was. -/
theorem recomputeSessionSize_empty (order : AttachmentOrder) {session : SessionState}
    (h : Sized session) {attachments : Attachments} (hempty : attachments.entries = []) :
    recomputeSessionSize order { session with attachments } = { session with attachments } := by
  unfold recomputeSessionSize
  rw [if_pos hempty]
  dsimp only
  rw [h.knownCols, h.knownRows]

theorem Sized.recompute (order : AttachmentOrder) {session : SessionState} (h : Sized session)
    {attachments : Attachments}
    (hpos : ∀ id a, attachments.lookup id = some a → 0 < a.cols ∧ 0 < a.rows) :
    Sized (recomputeSessionSize order { session with attachments }) := by
  by_cases hempty : attachments.entries = []
  · rw [recomputeSessionSize_empty order h hempty]
    exact ⟨hpos, h.knownCols, h.knownRows, fun hne => absurd hempty hne⟩
  · unfold recomputeSessionSize
    rw [if_neg hempty]
    refine ⟨hpos, rfl, rfl, fun _ => ⟨?_, ?_⟩⟩
    · exact foldl_iter_isLeast order (·.cols) (fun id a ha => (hpos id a ha).1) hempty
    · exact foldl_iter_isLeast order (·.rows) (fun id a ha => (hpos id a ha).2) hempty

/-- What a request keeps of a session. -/
theorem SessionStep.sized {before after : Option SessionState} (hstep : SessionStep before after)
    (h : ∀ session, before = some session → Sized session) :
    ∀ session, after = some session → Sized session := by
  intro session hsession
  cases hstep with
  | kept _ => exact h session hsession
  | opened =>
      rw [← Option.some.inj hsession]
      exact sized_new
  | closed _ => cases hsession
  | @reattached old attachments order hpos =>
      have hold := h old rfl
      rw [← Option.some.inj hsession]
      refine hold.recompute order fun id a ha => ?_
      rcases hpos id a ha with hkept | hnew
      · exact hold.pos id a hkept
      · exact hnew

namespace Daemon

theorem run_concat (b64 : Base64) (as : List DaemonAction) (a : DaemonAction) :
    run b64 (as ++ [a]) = (run b64 as).next b64 a :=
  List.foldl_concat _ _ _ _

theorem run_sized (b64 : Base64) (as : List DaemonAction) (id : String) :
    ∀ session, (run b64 as).session id = some session → Sized session := by
  induction as using List.reverseRecOn with
  | nil =>
      intro session hsession
      cases hsession
  | append_singleton as a ih =>
      rw [run_concat]
      exact ((run b64 as).next_session b64 a id).sized ih

/-- The last size of a session that had `size` before. -/
def lastSizeNow (size : Int × Int) : Option SessionState → Int × Int
  | some session =>
      if session.attachments.entries = [] then size
      else (session.effectiveCols, session.effectiveRows)
  | none => (0, 0)

/-- The effective size that a session had when it last had an attachment since
it was opened, `0` by `0` if it had none. -/
def lastSize (b64 : Base64) (id : String) (as : List DaemonAction) : Int × Int :=
  (as.foldl (fun (daemon, size) a =>
    (daemon.next b64 a, lastSizeNow size ((daemon.next b64 a).session id)))
    (({} : Daemon), ((0, 0) : Int × Int))).2

theorem lastSize_concat (b64 : Base64) (id : String) (as : List DaemonAction)
    (a : DaemonAction) :
    lastSize b64 id (as ++ [a]) =
      lastSizeNow (lastSize b64 id as) ((run b64 (as ++ [a])).session id) := by
  have hrun : ∀ as : List DaemonAction, (as.foldl (fun (daemon, size) a =>
      (daemon.next b64 a, lastSizeNow size ((daemon.next b64 a).session id)))
      (({} : Daemon), ((0, 0) : Int × Int))).1 = run b64 as := by
    intro as
    induction as using List.reverseRecOn with
    | nil => rfl
    | append_singleton as a ih =>
        rw [List.foldl_concat, run_concat, ← ih]
  unfold lastSize
  rw [List.foldl_concat, run_concat, ← hrun as]

/-- The size that is shown of a session. -/
def shownSize : Option SessionState → Int × Int
  | some session => (session.effectiveCols, session.effectiveRows)
  | none => (0, 0)

/-- One more request: the size follows the attachments, and stays without them. -/
theorem lastSizeNow_shown {before after : Option SessionState} (hstep : SessionStep before after)
    (h : ∀ session, before = some session → Sized session) :
    lastSizeNow (shownSize before) after = shownSize after := by
  cases hstep with
  | kept _ =>
      cases before with
      | none => rfl
      | some session =>
          show (if session.attachments.entries = [] then _ else _) = _
          exact ite_self _
  | opened => rfl
  | closed _ => rfl
  | @reattached old attachments order hpos =>
      by_cases hempty : attachments.entries = []
      · rw [recomputeSessionSize_empty order (h old rfl) hempty]
        exact if_pos hempty
      · have hsame : (recomputeSessionSize order { old with attachments }).attachments =
            attachments := by
          unfold recomputeSessionSize
          rw [if_neg hempty]
        exact if_neg (by rw [hsame]; exact hempty)

theorem lastSize_eq (b64 : Base64) (id : String) (as : List DaemonAction) :
    lastSize b64 id as = shownSize ((run b64 as).session id) := by
  induction as using List.reverseRecOn with
  | nil => rfl
  | append_singleton as a ih =>
      rw [lastSize_concat, ih, run_concat]
      exact lastSizeNow_shown ((run b64 as).next_session b64 a id) (run_sized b64 as id)

/-- **The effective size.**  After every run, an open session is as large as its
smallest attachment on either side, and without attachments as it last was. -/
theorem effective_size_exact (b64 : Base64) (as : List DaemonAction) (id : String) :
    ∀ session, (run b64 as).session id = some session →
      (session.attachments.entries ≠ [] →
        IsLeast (session.attachments.sides (·.cols)) session.effectiveCols ∧
          IsLeast (session.attachments.sides (·.rows)) session.effectiveRows) ∧
      (session.attachments.entries = [] →
        (session.effectiveCols, session.effectiveRows) = lastSize b64 id as) := by
  intro session hsession
  refine ⟨(run_sized b64 as id session hsession).least, fun _ => ?_⟩
  rw [lastSize_eq, hsession]
  rfl

/-- A quiet network, and attachments in the order of the map. -/
def quietEnv : DaemonEnv where
  opening :=
    { lookupHost   := fun _ => .error "no such host"
      lookupIPAddr := fun _ => .error "no such host"
      accepts      := fun _ _ => false
      dialError    := "dial failed"
      quote        := fun s => s }
  session :=
    { now         := 0
      rfc3339Nano := fun _ => ""
      order       := ⟨fun m => m.entries.map (·.2), fun _ => .refl _⟩
      quote       := fun s => s
      version     := "dev" }

def sessionRequest (method : String) (params : List (String × Json)) : DaemonAction :=
  .request quietEnv { id := none, method := s!"session.{method}", params := .obj params }

/-- Two attachments, of which the second one leaves. -/
def attachTwice : List DaemonAction :=
  [sessionRequest "open" [("session_id", .str "a")],
    sessionRequest "attach"
      [("session_id", .str "a"), ("attachment_id", .str "x"), ("cols", .num 120), ("rows", .num 40)],
    sessionRequest "attach"
      [("session_id", .str "a"), ("attachment_id", .str "y"), ("cols", .num 90), ("rows", .num 30)],
    sessionRequest "detach" [("session_id", .str "a"), ("attachment_id", .str "y")]]

theorem effective_size_exact_attached :
    ∃ session, (run Link.emptyBase64 attachTwice).session "a" = some session ∧
      session.effectiveCols = 120 ∧
      IsLeast (session.attachments.sides (·.cols)) session.effectiveCols := by
  refine ⟨_, rfl, rfl, ?_⟩
  exact ((effective_size_exact Link.emptyBase64 attachTwice "a" _ rfl).1 (by decide)).1

/-! ## §6. Opening a session without an id. -/

def step (b64 : Base64) (daemon : Daemon) (a : DaemonAction) : Option Daemon :=
  some (daemon.next b64 a)

/-- A `session.open` that gives no id, or the empty one. -/
def OpensWithoutId (req : IncomingRequest) : Prop :=
  req.method = "session.open" ∧ (getStringParam req.params "session_id").getD "" = ""

/-- The id that would be generated next. -/
def generatedID (daemon : Daemon) : String := s!"sess-{daemon.sessions.nextSessionID}"

/-- The answer shows a session that was not open, and no other session changes. -/
def OpensFresh (b64 : Base64) (daemon : Daemon) : DaemonAction → Prop
  | .request env req => OpensWithoutId req →
      ∃ id, daemon.session id = none ∧
        (daemon.handleRequest b64 env req).1 = req.succeed (sessionSnapshot env.session id {}) ∧
        (daemon.handleRequest b64 env req).2.session id = some {} ∧
        ∀ other, other ≠ id →
          (daemon.handleRequest b64 env req).2.session other = daemon.session other
  | .pump _ _ _ => True

/-- No session has the id that is to be generated. -/
def GeneratedUnused (daemon : Daemon) : DaemonAction → Prop
  | .request _ req => OpensWithoutId req → daemon.session daemon.generatedID = none
  | .pump _ _ _ => True

theorem handleRequest_open (b64 : Base64) (env : DaemonEnv) (daemon : Daemon)
    {req : IncomingRequest} (hmethod : req.method = "session.open") :
    daemon.handleRequest b64 env req =
      ((daemon.sessions.handleSessionOpen env.session req).1,
        { daemon with sessions := (daemon.sessions.handleSessionOpen env.session req).2 }) := by
  have hsessions : daemon.sessions.handleRequest env.session req =
      daemon.sessions.handleSessionOpen env.session req := by
    simp [SessionServer.handleRequest, hmethod]
  unfold handleRequest
  rw [hsessions]
  simp [RpcServer.handleRequest, hmethod]

/-- A request without an id opens the generated one, if that is not there. -/
theorem opensFresh_iff (b64 : Base64) (daemon : Daemon) (a : DaemonAction) :
    daemon.OpensFresh b64 a ↔ daemon.GeneratedUnused a := by
  cases a with
  | pump _ _ _ => exact Iff.rfl
  | request env req =>
      apply forall_congr'
      intro hopens
      have hid : daemon.sessions.openID req =
          (daemon.generatedID, daemon.sessions.nextSessionID + 1) := if_pos hopens.2
      rw [handleRequest_open b64 env daemon hopens.1]
      unfold SessionServer.handleSessionOpen
      rw [hid]
      cases hused : daemon.session daemon.generatedID with
      | none =>
          have hlookup : daemon.sessions.sessions.lookup daemon.generatedID = none := hused
          refine iff_of_true ⟨daemon.generatedID, hused, ?_, ?_, ?_⟩ rfl
          · dsimp only
            rw [hlookup]
          · dsimp only
            rw [hlookup]
            exact AList.lookup_insert _
          · intro other hother
            dsimp only
            rw [hlookup]
            exact AList.lookup_insert_ne hother
      | some session =>
          have hlookup : daemon.sessions.sessions.lookup daemon.generatedID = some session := hused
          apply iff_of_false _ (by simp)
          intro h
          obtain ⟨id, hnone, _, hsome, _⟩ := h
          dsimp only at hsome
          rw [hlookup] at hsome
          exact Option.some_ne_none _ (hsome.symm.trans hnone)

/-- **Opening without an id** is fresh throughout a run exactly when no session ever
has the id that is generated for it. -/
theorem opens_fresh_iff (b64 : Base64) (as : List DaemonAction) :
    EveryStep (step b64) (OpensFresh b64) {} as ↔ EveryStep (step b64) GeneratedUnused {} as :=
  everyStep_congr (fun _ => True) (fun _ _ _ _ _ => trivial)
    (fun daemon a _ => opensFresh_iff b64 daemon a) trivial

/-- The id that a client chose is generated again. -/
theorem not_opens_fresh :
    ¬ EveryStep (step Link.emptyBase64) (OpensFresh Link.emptyBase64) {}
      [sessionRequest "open" [("session_id", .str "sess-1")], sessionRequest "open" []] := by
  intro h
  have hunused := (opensFresh_iff Link.emptyBase64 _ _).mp (h.2 _ rfl).1
  have hopens := hunused ⟨rfl, rfl⟩
  revert hopens
  decide

end Daemon

end Jmux.Remote
