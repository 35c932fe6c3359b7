/-
  Jmux.Remote.Agreement — the client and the daemon on one connection.

  Requests and answers cross two lines in order.  Each half is the one of its
  own source file; what the client reads is the JSON of what the daemon wrote.

  Main results:
    * `halves_agree_iff` — in every run, the two halves agree on every line the
      client reads exactly when none of these lines returns a stream id.
    * `event_unrouted`   — the reader drops every event that a pump can write.
-/
import Jmux.Lib.Transition
import Jmux.Remote.Daemon

namespace Jmux.Remote

open Jmux.Lib RpcClient

/-! ## §1. The connection. -/

/-- A line of the daemon. -/
inductive DaemonLine
  | response (resp : RpcResponse)
  | event (ev : RpcEvent)

def DaemonLine.toJson : DaemonLine → Json
  | .response resp => resp.toJson
  | .event ev => ev.toJson

structure Link where
  client   : RpcClient := {}
  server   : RpcServer := {}
  toDaemon : List RpcRequest := []
  toClient : List DaemonLine := []

inductive LinkAction
  | proxyOpen (host : String) (port : Nat)
  | proxyWrite (streamId : Nat) (data : Bytes)
  | proxyClose (streamId : Nat)
  | proxySubscribe (streamId : Nat)
  /-- A call gives up waiting. -/
  | timeout (id : Nat)
  /-- The daemon serves the next request. -/
  | handle (env : RpcServer.HandleEnv)
  /-- The pump of a subscribed stream reads its connection. -/
  | pump (streamID : String) (data : Bytes) (readErr : Option ReadError)
  /-- The client's reader thread takes the next line. -/
  | read

/-- What the daemon parses from the line of a request. -/
def RpcRequest.incoming (req : RpcRequest) : IncomingRequest where
  id     := some (.num req.id)
  method := req.method
  params := req.params

/-- The call that waits for the answer goes on; nobody waits for another one. -/
def RpcClient.receive (b64 : Base64) (client : RpcClient) (msg : Json) : RpcClient :=
  match route b64 msg with
  | .response id result =>
      match client.pending.lookup id with
      -- the answer is handed to the call that waits for it
      | some call => { client with pending := client.pending.erase id }.finish call result
      | none => client
  | .push streamId event => client.deliver streamId event
  | .nowhere => client

namespace Link

/-- A call of the client with the line it writes. -/
def send (s : Link) (call : RpcClient × RpcRequest) : Link :=
  { s with client := call.1, toDaemon := s.toDaemon ++ [call.2] }

def step (b64 : Base64) (s : Link) : LinkAction → Option Link
  | .proxyOpen host port => some (s.send (s.client.proxyOpen host port))
  | .proxyWrite streamId data => some (s.send (s.client.proxyWrite b64 streamId data))
  | .proxyClose streamId => some (s.send (s.client.proxyClose streamId))
  | .proxySubscribe streamId => some (s.send (s.client.proxySubscribe streamId))
  | .timeout id => some { s with client := s.client.timeout id }
  | .handle env =>
      match s.toDaemon with
      | req :: rest =>
          -- requests are served in the order they were written
          let (resp, server) := s.server.handleRequest b64 env req.incoming
          some { s with
            server, toDaemon := rest
            toClient := s.toClient ++ [.response resp] }
      | [] => none
  | .pump streamID data readErr =>
      if (s.server.streams.lookup streamID).any (·.readerStarted) then
        let (events, server) := s.server.pump b64 streamID data readErr
        some { s with server, toClient := s.toClient ++ events.map .event }
      else none
  | .read =>
      match s.toClient with
      | line :: rest =>
          some { s with client := s.client.receive b64 line.toJson, toClient := rest }
      | [] => none

end Link

/-! ## §2. Agreement. -/

/-- The stream id that an answer returns. -/
def RpcResponse.streamID (resp : RpcResponse) : Option String :=
  if resp.ok then resp.result.bind (getStringParam · "stream_id") else none

/-- What `proxy_open` returns when this line is its answer. -/
def openOutcome (b64 : Base64) (msg : Json) : Except String Nat :=
  match route b64 msg with
  | .response _ (.ok result) => openResult result
  | .response _ (.error err) => .error s!"RPC error: {err.code}: {err.message}"
  | _ => .error "RPC call timed out"

/-- The three requests that name a stream name this one. -/
structure Names (b64 : Base64) (streamId : Nat) (streamID : String) : Prop where
  write     : ∀ (client : RpcClient) (data : Bytes),
    getStringParam (client.proxyWrite b64 streamId data).2.params "stream_id" = some streamID
  close     : ∀ client : RpcClient,
    getStringParam (client.proxyClose streamId).2.params "stream_id" = some streamID
  subscribe : ∀ client : RpcClient,
    getStringParam (client.proxySubscribe streamId).2.params "stream_id" = some streamID

/-- The event of the client that stands for an event of the daemon. -/
inductive Matches (b64 : Base64) (ev : RpcEvent) : StreamEvent → Prop
  | data (bytes : Bytes) : ev.event = "proxy.stream.data" →
      ev.dataBase64 = b64.encode bytes → Matches b64 ev (.data bytes)
  | eof (final : Option Bytes) : ev.event = "proxy.stream.eof" → final.getD [] = [] →
      Matches b64 ev (.eof final)
  | error : ev.event = "proxy.stream.error" → Matches b64 ev (.error ev.error)

namespace Link

/-- A returned stream id is decoded to an id that names the stream, and an event
is added to what its subscriber has received. -/
def AgreesOn (b64 : Base64) (client : RpcClient) : DaemonLine → Prop
  | .response resp =>
      ∀ streamID, resp.streamID = some streamID →
        ∃ streamId, openOutcome b64 resp.toJson = .ok streamId ∧ Names b64 streamId streamID
  | .event ev =>
      ∃ streamId received e, client.streamSubs.lookup streamId = some received ∧
        (client.receive b64 ev.toJson).streamSubs.lookup streamId = some (received ++ [e]) ∧
        Matches b64 ev e ∧ Names b64 streamId ev.streamID

/-- The two halves agree on the line that is read, if one is. -/
def Agrees (b64 : Base64) (s : Link) : LinkAction → Prop
  | .read => ∀ line, s.toClient.head? = some line → AgreesOn b64 s.client line
  | _ => True

/-- The line that is read, if one is, returns no stream id. -/
def ReturnsNoStream (s : Link) : LinkAction → Prop
  | .read => ∀ resp, s.toClient.head? = some (.response resp) → resp.streamID = none
  | _ => True

instance (s : Link) : ∀ a, Decidable (ReturnsNoStream s a)
  | .read =>
      match h : s.toClient.head? with
      | some (.response resp) =>
          decidable_of_iff (resp.streamID = none) (by simp [ReturnsNoStream, h])
      | some (.event _) | none => isTrue (by simp [ReturnsNoStream, h])
  | .proxyOpen _ _ | .proxyWrite _ _ | .proxyClose _ | .proxySubscribe _ | .timeout _
  | .handle _ | .pump _ _ _ => isTrue trivial

/-- The client's requests carry numbers, so no stream is ever subscribed. -/
structure Unsubscribed (s : Link) : Prop where
  requests : ∀ req ∈ s.toDaemon, getStringParam req.params "stream_id" = none
  streams  : ∀ streamID state, s.server.streams.lookup streamID = some state →
    state.readerStarted = false
  lines    : ∀ ev, .event ev ∉ s.toClient

end Link

/-! ## §3. What crosses the lines. -/

theorem RpcResponse.get_ok (resp : RpcResponse) : resp.toJson.get "ok" = some (.bool resp.ok) := by
  obtain ⟨id, ok, result, error⟩ := resp
  cases id <;> cases result <;> cases error <;> rfl

theorem RpcResponse.get_result (resp : RpcResponse) : resp.toJson.get "result" = resp.result := by
  obtain ⟨id, ok, result, error⟩ := resp
  cases id <;> cases result <;> cases error <;> rfl

/-- The keys that an event of the daemon can have. -/
theorem RpcEvent.get_eq_none (ev : RpcEvent) {key : String}
    (h : key ∉ ["event", "stream_id", "data_base64", "error"]) : ev.toJson.get key = none := by
  -- a field left out cannot be the one looked for
  have homit : ∀ {name value : String} {field : String × Json},
      field ∈ omitEmpty name value → field.1 = name := by
    intro name value field hmem
    unfold omitEmpty at hmem
    split at hmem
    · cases hmem
    · rw [List.mem_singleton.mp hmem]
  unfold RpcEvent.toJson Json.get
  rw [Option.map_eq_none_iff, List.find?_eq_none]
  intro field hmem
  simp only [List.mem_reverse, List.mem_append, List.mem_singleton] at hmem
  simp only [List.mem_cons, List.not_mem_nil, or_false, not_or] at h
  obtain ⟨hevent, hstream, hdata, herror⟩ := h
  rw [decide_eq_true_eq]
  rcases hmem with ((rfl | hfield) | hfield) | hfield
  · exact Ne.symm hevent
  · exact (homit hfield).trans_ne (Ne.symm hstream)
  · exact (homit hfield).trans_ne (Ne.symm hdata)
  · exact (homit hfield).trans_ne (Ne.symm herror)

/-- **An event of the daemon has neither the id of an answer nor the method of a
push message**, so the reader drops it. -/
theorem event_unrouted (b64 : Base64) (ev : RpcEvent) : route b64 ev.toJson = .nowhere := by
  have hid : ev.toJson.get "id" = none := ev.get_eq_none (by decide)
  have hmethod : ev.toJson.get "method" = none := ev.get_eq_none (by decide)
  unfold route
  rw [hid, hmethod]
  rfl

/-- A stream id of the daemon is a string, and the client takes a number. -/
theorem openOutcome_error {b64 : Base64} {resp : RpcResponse} {streamID : String}
    (h : resp.streamID = some streamID) (streamId : Nat) :
    openOutcome b64 resp.toJson ≠ .ok streamId := by
  obtain ⟨hok, hresult⟩ := Option.ite_none_right_eq_some.mp h
  obtain ⟨result, hres, hparam⟩ := Option.bind_eq_some_iff.mp hresult
  obtain ⟨value, hvalue, hstr⟩ := Option.bind_eq_some_iff.mp hparam
  -- the client sees the answer as a success
  have hcall : callResult resp.toJson = .ok result := by
    unfold callResult
    rw [resp.get_ok, resp.get_result, hok, hres]
    rfl
  -- `as_u64` of a string
  have hopen : openResult result = .error "proxy.open: missing stream_id in response" := by
    unfold openResult
    rw [hvalue]
    cases value with
    | str text => rfl
    | null | bool _ | num _ | arr _ | obj _ => cases hstr
  unfold openOutcome route
  rw [hcall]
  cases (resp.toJson.get "id").bind (·.asU64) with
  | some id =>
      show openResult result ≠ .ok streamId
      rw [hopen]
      exact fun herror => nomatch herror
  | none =>
      -- not even an answer
      intro herror
      dsimp only at herror
      split at herror
      · next hroute =>
          split at hroute
          · split at hroute <;> cases hroute
          · cases hroute
      · cases herror
      · cases herror

/-! ## §4. No stream is subscribed. -/

/-- A request of the client names no stream to the daemon. -/
theorem request_names_nothing (b64 : Base64) (client : RpcClient) :
    (∀ host port, getStringParam (client.proxyOpen host port).2.params "stream_id" = none) ∧
    (∀ streamId data,
      getStringParam (client.proxyWrite b64 streamId data).2.params "stream_id" = none) ∧
    (∀ streamId, getStringParam (client.proxyClose streamId).2.params "stream_id" = none) ∧
    (∀ streamId, getStringParam (client.proxySubscribe streamId).2.params "stream_id" = none) :=
  ⟨fun _ _ => rfl, fun _ _ => rfl, fun _ => rfl, fun _ => rfl⟩

/-- `proxy.open` adds a stream at most, and that has no pump. -/
theorem RpcServer.handleProxyOpen_server (env : OpenEnv) (server : RpcServer)
    (req : IncomingRequest) :
    (server.handleProxyOpen env req).2.1 = server ∨
      ∃ streamID conn, (server.handleProxyOpen env req).2.1.streams =
        server.streams.insert streamID { conn, readerStarted := false } := by
  unfold RpcServer.handleProxyOpen
  split
  · split
    · exact .inl rfl
    · split
      · exact .inl rfl
      · split
        · exact .inl rfl
        · dsimp only
          split
          · exact .inl rfl
          · split
            · exact .inl rfl
            · exact .inr ⟨_, _, rfl⟩
  · exact .inl rfl

/-- A request without a stream id starts no pump. -/
theorem RpcServer.handleRequest_starts_nothing (b64 : Base64) (env : HandleEnv)
    {server : RpcServer} (req : IncomingRequest)
    (hreq : getStringParam req.params "stream_id" = none)
    (h : ∀ streamID state, server.streams.lookup streamID = some state →
      state.readerStarted = false) :
    ∀ streamID state, (server.handleRequest b64 env req).2.streams.lookup streamID = some state →
      state.readerStarted = false := by
  -- `getStringParam` fails before the streams are touched
  have hclose : (server.handleProxyClose req).2 = server := by
    unfold handleProxyClose
    rw [hreq]
    rfl
  have hsubscribe : (server.handleProxyStreamSubscribe req).2 = server := by
    unfold handleProxyStreamSubscribe
    rw [hreq]
    rfl
  unfold handleRequest
  split
  · exact h
  split
  · intro streamID state hstate
    -- a stream that was just opened has no pump
    rcases server.handleProxyOpen_server env.opening req with hsame | ⟨opened, conn, hopened⟩
    · exact h streamID state (hsame ▸ hstate)
    · replace hstate := hopened ▸ hstate
      rw [AList.lookup_insert_eq_ite] at hstate
      split at hstate
      · obtain rfl := Option.some.inj hstate
        rfl
      · exact h streamID state hstate
  split
  · rw [hclose]
    exact h
  split
  · exact h
  split
  · rw [hsubscribe]
    exact h
  · exact h

namespace Link

theorem unsubscribed_start : Unsubscribed {} where
  requests := fun _ hreq => nomatch hreq
  streams  := fun _ _ hstate => nomatch hstate
  lines    := fun _ hline => nomatch hline

theorem Unsubscribed.send {s : Link} (h : s.Unsubscribed) {call : RpcClient × RpcRequest}
    (hcall : getStringParam call.2.params "stream_id" = none) : (s.send call).Unsubscribed where
  requests := by
    intro req hreq
    rcases List.mem_append.mp hreq with hold | hnew
    · exact h.requests req hold
    · rw [List.mem_singleton.mp hnew]
      exact hcall
  streams := h.streams
  lines   := h.lines

/-- Without a subscribed stream no step makes one. -/
theorem step_unsubscribed {b64 : Base64} {s s' : Link} {a : LinkAction} (h : s.Unsubscribed)
    (hstep : step b64 s a = some s') : s'.Unsubscribed := by
  obtain ⟨hopen, hwrite, hclose, hsubscribe⟩ := request_names_nothing b64 s.client
  cases a with
  | proxyOpen host port =>
      obtain rfl := Option.some.inj hstep
      exact h.send (hopen host port)
  | proxyWrite streamId data =>
      obtain rfl := Option.some.inj hstep
      exact h.send (hwrite streamId data)
  | proxyClose streamId =>
      obtain rfl := Option.some.inj hstep
      exact h.send (hclose streamId)
  | proxySubscribe streamId =>
      obtain rfl := Option.some.inj hstep
      exact h.send (hsubscribe streamId)
  | timeout id =>
      obtain rfl := Option.some.inj hstep
      exact ⟨h.requests, h.streams, h.lines⟩
  | handle env =>
      simp only [step] at hstep
      split at hstep
      · next req rest hwire =>
          obtain rfl := Option.some.inj hstep
          refine ⟨fun req' hreq => ?_, ?_, fun ev hline => ?_⟩
          · exact h.requests req' (hwire ▸ List.mem_cons_of_mem req hreq)
          · have hreq := h.requests req (hwire ▸ List.mem_cons_self)
            exact RpcServer.handleRequest_starts_nothing b64 env req.incoming hreq h.streams
          · rcases List.mem_append.mp hline with hold | hnew
            · exact h.lines ev hold
            · cases List.mem_singleton.mp hnew
      · cases hstep
  | pump streamID data readErr =>
      -- no stream has a pump
      obtain ⟨hstarted, _⟩ := Option.ite_none_right_eq_some.mp hstep
      obtain ⟨state, hstate, hrun⟩ := (Option.any_eq_true _ _).mp hstarted
      rw [h.streams streamID state hstate] at hrun
      cases hrun
  | read =>
      simp only [step] at hstep
      split at hstep
      · next line rest hwire =>
          obtain rfl := Option.some.inj hstep
          exact ⟨h.requests, h.streams, fun ev hline =>
            h.lines ev (hwire ▸ List.mem_cons_of_mem line hline)⟩
      · cases hstep

/-- Where nothing is subscribed, the halves agree on an answer exactly if it
returns no stream id. -/
theorem agrees_iff {b64 : Base64} {s : Link} (h : s.Unsubscribed) (a : LinkAction) :
    s.Agrees b64 a ↔ s.ReturnsNoStream a := by
  cases a with
  | read =>
      constructor
      · intro hagrees resp hhead
        cases hid : resp.streamID with
        | none => rfl
        | some streamID =>
            obtain ⟨streamId, hopen, _⟩ := hagrees (.response resp) hhead streamID hid
            -- the id would have to be a number and a string
            exact absurd hopen (openOutcome_error hid streamId)
      · intro hnone line hhead
        cases line with
        | response resp =>
            intro streamID hid
            rw [hnone resp hhead] at hid
            cases hid
        -- no pump runs, so no event is on the line
        | event ev => exact absurd (List.mem_of_mem_head? hhead) (h.lines ev)
  | proxyOpen _ _ | proxyWrite _ _ | proxyClose _ | proxySubscribe _ | timeout _
  | handle _ | pump _ _ _ => exact Iff.rfl

/-- **The two halves agree** on all that the client reads in exactly the runs in
which it reads no answer with a stream id. -/
theorem halves_agree_iff (b64 : Base64) (as : List LinkAction) :
    EveryStep (step b64) (Agrees b64) {} as ↔ EveryStep (step b64) ReturnsNoStream {} as :=
  everyStep_congr Unsubscribed (fun _ _ _ h hstep => step_unsubscribed h hstep)
    (fun _ a h => agrees_iff h a) unsubscribed_start

/-- An engine that knows the empty text only. -/
def emptyBase64 : Base64 where
  encode := fun _ => ""
  decode := fun text => if text = "" then some [] else none

/-- The dialed address answers. -/
def listening : RpcServer.HandleEnv where
  opening :=
    { lookupHost   := fun _ => .error "no such host"
      lookupIPAddr := fun _ => .error "no such host"
      accepts      := fun _ _ => true
      dialError    := "dial failed"
      quote        := fun s => s }
  other := fun req => req.fail "method_not_found" "unknown method"

/-- The answer to the first stream opened. -/
def openedAnswer : RpcResponse where
  id     := some (.num 1)
  ok     := true
  result := some (.obj [("stream_id", .str "s-1")])

/-- The daemon opens `s-1`, and `proxy_open` finds no stream id in its answer. -/
theorem opened_stream_refused :
    (exec (step emptyBase64) {} [.proxyOpen "203.0.113.5" 80, .handle listening]).map
      (·.toClient) = some [.response openedAnswer] ∧
    openedAnswer.streamID = some "s-1" ∧
    openOutcome emptyBase64 openedAnswer.toJson =
      .error "proxy.open: missing stream_id in response" ∧
    ¬ EveryStep (step emptyBase64) (Agrees emptyBase64) {}
        [.proxyOpen "203.0.113.5" 80, .handle listening, .read] := by
  refine ⟨rfl, rfl, rfl, fun hevery => ?_⟩
  have hread := ((hevery.2 _ rfl).2 _ rfl).1
  obtain ⟨streamId, hopen, _⟩ := hread (.response openedAnswer) rfl "s-1" rfl
  exact openOutcome_error rfl streamId hopen

end Link

end Jmux.Remote
