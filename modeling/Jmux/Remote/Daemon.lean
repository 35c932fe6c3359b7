/-
  Jmux.Remote.Daemon — the proxy half of the remote daemon
  (`daemon/remote/cmd/jmuxd-remote/main.go`).

  A handler gives its response and the server it leaves behind.  What the
  resolver and the network do in a request is an input (`OpenEnv`, the outcome
  of a write, what a read of the connection returns).  The sessions, which share
  nothing with the streams, are not modelled here.
-/
import Jmux.Remote.Address
import Jmux.Remote.RpcClient

namespace Jmux.Remote

open Jmux.Lib

/-! ## §1. Frames. -/

structure IncomingRequest where
  id     : Option Json
  method : String
  params : Json

structure RpcResponse where
  id     : Option Json
  ok     : Bool
  result : Option Json := none
  error  : Option RpcError := none

structure RpcEvent where
  event      : String
  streamID   : String := ""
  dataBase64 : String := ""
  error      : String := ""
  deriving DecidableEq, Repr

/-- A field that `omitempty` leaves out when it is the empty string. -/
def omitEmpty (key value : String) : List (String × Json) :=
  if value = "" then [] else [(key, .str value)]

def RpcResponse.toJson (resp : RpcResponse) : Json :=
  .obj
    ((resp.id.map fun id => ("id", id)).toList ++ [("ok", .bool resp.ok)]
      ++ (resp.result.map fun result => ("result", result)).toList
      ++ (resp.error.map fun err =>
          ("error", .obj [("code", .str err.code), ("message", .str err.message)])).toList)

def RpcEvent.toJson (event : RpcEvent) : Json :=
  .obj
    ([("event", .str event.event)] ++ omitEmpty "stream_id" event.streamID
      ++ omitEmpty "data_base64" event.dataBase64 ++ omitEmpty "error" event.error)

def getStringParam (params : Json) (key : String) : Option String :=
  (params.get key).bind (·.asStr)

def getIntParam (params : Json) (key : String) : Option Int :=
  match params.get key with
  | some (.num n) => some n
  | _ => none

def IncomingRequest.fail (req : IncomingRequest) (code message : String) : RpcResponse where
  id    := req.id
  ok    := false
  error := some { code, message }

def IncomingRequest.succeed (req : IncomingRequest) (fields : List (String × Json)) :
    RpcResponse where
  id     := req.id
  ok     := true
  result := some (.obj fields)

/-! ## §2. The server. -/

structure StreamState where
  /-- The address and port that the connection goes to. -/
  conn          : IP × Nat
  readerStarted : Bool := false
  deriving DecidableEq, Repr

structure RpcServer where
  nextStreamID : Nat := 1
  streams      : AList fun _ : String => StreamState := ∅

def maxConcurrentStreams : Nat := 64

/-- What `proxy.open` meets: the operator's opt-in, the resolver at the check and
again at the dial, and the network. -/
structure OpenEnv where
  /-- `JMUXD_PROXY_ALLOW_PRIVATE` is `1`. -/
  allowPrivate : Bool := false
  lookupHost   : String → Except String (List String)
  lookupIPAddr : String → Except String (List Addr)
  /-- Whether the address answers in time. -/
  accepts      : Addr → Nat → Bool
  /-- The text of a dial that failed. -/
  dialError    : String
  /-- `strconv.Quote`. -/
  quote        : String → String

/-- `net.LookupHost`: a literal is its own answer. -/
def netLookupHost (env : OpenEnv) (host : String) : Except String (List String) :=
  if (parseAddr host).isSome then .ok [host] else env.lookupHost host

/-- The addresses that a dial tries; the empty host is the local system. -/
def dialAddrs (env : OpenEnv) (host : String) : Except String (List Addr) :=
  if host = "" then .ok [{ ip := .v4 0, zone := "" }]
  else
    match parseAddr host with
    | some addr => .ok [addr]
    | none => env.lookupIPAddr host

/-- `net.DialTimeout`: the address that the connection goes to. -/
def netDial (env : OpenEnv) (host : String) (port : Nat) : Except String IP :=
  match dialHost host port with
  | none => .error env.dialError
  | some target =>
      match dialAddrs env target with
      | .error _ => .error env.dialError
      | .ok addrs =>
          match addrs.find? (env.accepts · port) with
          | none => .error env.dialError
          | some addr => .ok addr.ip.reached

/-- The first address of the check that the denylist blocks. -/
def blockedAnswer (addrs : List String) : Option String :=
  addrs.find? fun addr => (parseIP addr).any isBlockedAddr

namespace RpcServer

/-- The response, the server, and the address that was connected to. -/
def handleProxyOpen (env : OpenEnv) (server : RpcServer) (req : IncomingRequest) :
    RpcResponse × RpcServer × Option IP :=
  match getStringParam req.params "host", getIntParam req.params "port" with
  | some host, port =>
      if host = "" then (req.fail "invalid_params" "proxy.open requires host", server, none)
      else
        match port.filter fun port => 0 < port ∧ port ≤ 65535 with
        | none =>
            (req.fail "invalid_params" "proxy.open requires port in range 1-65535", server, none)
        | some port =>
            -- the limit is looked at before the dial, which the lock does not cover
            if server.streams.entries.length ≥ maxConcurrentStreams then
              (req.fail "too_many_streams"
                s!"concurrent stream limit ({maxConcurrentStreams}) reached", server, none)
            else
              -- the check resolves the name, and the dial resolves it again
              let refused : Option RpcResponse :=
                if env.allowPrivate then none
                else
                  match netLookupHost env host with
                  | .error err =>
                      some (req.fail "resolve_failed"
                        s!"cannot resolve host {env.quote host}: {err}")
                  | .ok addrs =>
                      (blockedAnswer addrs).map fun addr =>
                        req.fail "blocked"
                          s!"proxy.open: destination {env.quote host} resolves to a blocked address ({addr}); set JMUXD_PROXY_ALLOW_PRIVATE=1 to allow"
              match refused with
              | some resp => (resp, server, none)
              | none =>
                  match netDial env host port.toNat with
                  | .error err => (req.fail "open_failed" err, server, none)
                  | .ok ip =>
                      -- the id of a stream is a string
                      let streamID := s!"s-{server.nextStreamID}"
                      (req.succeed [("stream_id", .str streamID)],
                        { nextStreamID := server.nextStreamID + 1
                          streams      :=
                            server.streams.insert streamID { conn := (ip, port.toNat) } },
                        some ip)
  | none, _ => (req.fail "invalid_params" "proxy.open requires host", server, none)

/-- Closing a stream that is not there succeeds too. -/
def handleProxyClose (server : RpcServer) (req : IncomingRequest) : RpcResponse × RpcServer :=
  match (getStringParam req.params "stream_id").filter (· ≠ "") with
  | none => (req.fail "invalid_params" "proxy.close requires stream_id", server)
  | some streamID =>
      (req.succeed [("closed", .bool true)],
        { server with streams := server.streams.erase streamID })

/-- `writeError` is what goes wrong on the connection, if anything does. -/
def handleProxyWrite (b64 : Base64) (server : RpcServer) (req : IncomingRequest)
    (writeError : Option String) : RpcResponse :=
  match (getStringParam req.params "stream_id").filter (· ≠ "") with
  | none => req.fail "invalid_params" "proxy.write requires stream_id"
  | some streamID =>
      match getStringParam req.params "data_base64" with
      | none => req.fail "invalid_params" "proxy.write requires data_base64"
      | some dataBase64 =>
          match b64.decode dataBase64 with
          | none => req.fail "invalid_params" "data_base64 must be valid base64"
          | some payload =>
              -- looked up by the text, as it was given out
              match server.streams.lookup streamID with
              | none => req.fail "not_found" "stream not found"
              | some _ =>
                  match writeError with
                  | some err => req.fail "stream_error" err
                  | none => req.succeed [("written", .num payload.length)]

/-- The first subscription starts the stream's pump. -/
def handleProxyStreamSubscribe (server : RpcServer) (req : IncomingRequest) :
    RpcResponse × RpcServer :=
  match (getStringParam req.params "stream_id").filter (· ≠ "") with
  | none => (req.fail "invalid_params" "proxy.stream.subscribe requires stream_id", server)
  | some streamID =>
      match server.streams.lookup streamID with
      | none => (req.fail "not_found" "stream not found", server)
      | some state =>
          (req.succeed
              [("subscribed", .bool true), ("already_subscribed", .bool state.readerStarted)],
            { server with
              streams := server.streams.insert streamID { state with readerStarted := true } })

/-- What the environment does while a request is handled; the answer to a
method outside the proxy, which leaves the streams, is an input. -/
structure HandleEnv where
  opening    : OpenEnv
  writeError : Option String := none
  other      : IncomingRequest → RpcResponse

def handleRequest (b64 : Base64) (env : HandleEnv) (server : RpcServer) (req : IncomingRequest) :
    RpcResponse × RpcServer :=
  if req.method = "" then (req.fail "invalid_request" "method is required", server)
  else if req.method = "proxy.open" then
    let (resp, server, _) := server.handleProxyOpen env.opening req
    (resp, server)
  else if req.method = "proxy.close" then server.handleProxyClose req
  else if req.method = "proxy.write" then
    (server.handleProxyWrite b64 req env.writeError, server)
  else if req.method = "proxy.stream.subscribe" then server.handleProxyStreamSubscribe req
  else (env.other req, server)

end RpcServer

/-! ## §3. The pump. -/

inductive ReadError
  | eof
  | timeout
  | closed
  | other (message : String)
  deriving DecidableEq, Repr

/-- One read of the connection: the events that the pump writes, and whether it
goes on.  Data may come together with an error. -/
def pumpRead (b64 : Base64) (streamID : String) (data : Bytes) (readErr : Option ReadError) :
    List RpcEvent × Bool :=
  let dataEvents :=
    if data = [] then []
    else [{ event := "proxy.stream.data", streamID, dataBase64 := b64.encode data }]
  let errorEvent (message : String) : RpcEvent :=
    { event := "proxy.stream.error", streamID, error := message }
  match readErr with
  | none =>
      -- `n == 0` without an error
      if data = [] then ([errorEvent "read made no progress"], false) else (dataEvents, true)
  | some .eof => (dataEvents ++ [{ event := "proxy.stream.eof", streamID }], false)
  | some .timeout => (dataEvents ++ [errorEvent "stream idle timeout"], false)
  -- the daemon closed the connection itself
  | some .closed => (dataEvents, false)
  | some (.other message) => (dataEvents ++ [errorEvent message], false)

/-- The server after a read by a stream's pump. -/
def RpcServer.pump (b64 : Base64) (server : RpcServer) (streamID : String) (data : Bytes)
    (readErr : Option ReadError) : List RpcEvent × RpcServer :=
  let (events, goesOn) := pumpRead b64 streamID data readErr
  (events, if goesOn then server else { server with streams := server.streams.erase streamID })

end Jmux.Remote
