/-
  Jmux.Remote.RpcClient — the client half of the remote protocol (`remote/rpc.rs`).

  A request line and an incoming line are JSON values.  The Base64 engine is a
  parameter.  Every call times out after ten seconds; the answer to a call that
  timed out finds nothing pending.
-/
import Jmux.Lib.FiniteMap
import Jmux.Lib.Json

namespace Jmux.Remote

open Jmux.Lib

abbrev Bytes := List UInt8

/-- The standard Base64 alphabet with padding, as both programs use it. -/
structure Base64 where
  encode : Bytes → String
  decode : String → Option Bytes

/-- Events pushed by the remote daemon for proxy streams. -/
inductive StreamEvent
  | data (bytes : Bytes)
  | eof (final : Option Bytes)
  | error (message : String)
  deriving DecidableEq, Repr

structure RpcError where
  code    : String
  message : String
  deriving DecidableEq, Repr

/-- What a caller waits for. -/
inductive PendingCall
  | proxyOpen
  | proxyWrite
  | proxyClose (streamId : Nat)
  | proxySubscribe (streamId : Nat)
  deriving DecidableEq, Repr

structure RpcClient where
  nextId     : Nat := 1
  pending    : AList fun _ : Nat => PendingCall := ∅
  /-- The channel of each subscribed stream, with what was sent into it. -/
  streamSubs : AList fun _ : Nat => List StreamEvent := ∅
  deriving DecidableEq

/-! ## §1. Requests. -/

/-- One line of `serde_json::json!({"id", "method", "params"})`. -/
structure RpcRequest where
  id     : Nat
  method : String
  params : Json

def RpcRequest.toJson (req : RpcRequest) : Json :=
  .obj [("id", .num req.id), ("method", .str req.method), ("params", req.params)]

/-- The call is registered before its line is written. -/
def RpcClient.call (client : RpcClient) (pending : PendingCall) (method : String)
    (params : Json) : RpcClient × RpcRequest :=
  ({ client with
      nextId  := client.nextId + 1
      pending := client.pending.insert client.nextId pending },
    { id := client.nextId, method, params })

namespace RpcClient

def proxyOpen (client : RpcClient) (host : String) (port : Nat) : RpcClient × RpcRequest :=
  client.call .proxyOpen "proxy.open" (.obj [("host", .str host), ("port", .num port)])

def proxyWrite (b64 : Base64) (client : RpcClient) (streamId : Nat) (data : Bytes) :
    RpcClient × RpcRequest :=
  client.call .proxyWrite "proxy.write"
    (.obj [("stream_id", .num streamId), ("data_base64", .str (b64.encode data))])

def proxyClose (client : RpcClient) (streamId : Nat) : RpcClient × RpcRequest :=
  client.call (.proxyClose streamId) "proxy.close" (.obj [("stream_id", .num streamId)])

def proxySubscribe (client : RpcClient) (streamId : Nat) : RpcClient × RpcRequest :=
  client.call (.proxySubscribe streamId) "proxy.stream.subscribe"
    (.obj [("stream_id", .num streamId)])

/-! ## §2. The reader thread. -/

/-- The outcome of a call, read from its response. -/
def callResult (msg : Json) : Except RpcError Json :=
  if ((msg.get "ok").bind (·.asBool)).getD false then .ok ((msg.get "result").getD .null)
  else
    let err := (msg.get "error").getD .null
    .error
      { code    := ((err.get "code").bind (·.asStr)).getD "unknown"
        message := ((err.get "message").bind (·.asStr)).getD "unknown error" }

/-- The event of a push message and its stream; `none` where the reader goes on
to the next line. -/
def pushEvent (b64 : Base64) (params : Json) : Option (Nat × StreamEvent) :=
  -- `unwrap_or(0)`: a push without a number is for stream 0
  let streamId := ((params.get "stream_id").bind (·.asU64)).getD 0
  let eventType := ((params.get "event").bind (·.asStr)).getD ""
  let data := ((params.get "data_base64").bind (·.asStr)).bind b64.decode
  if eventType = "proxy.stream.data" then some (streamId, .data (data.getD []))
  else if eventType = "proxy.stream.eof" then some (streamId, .eof data)
  else if eventType = "proxy.stream.error" then
    some (streamId, .error (((params.get "message").bind (·.asStr)).getD "stream error"))
  else none

/-- Where the reader takes a message: to the call with its id, or to a stream's
subscriber, or nowhere. -/
inductive Routed
  | response (id : Nat) (result : Except RpcError Json)
  | push (streamId : Nat) (event : StreamEvent)
  | nowhere

def route (b64 : Base64) (msg : Json) : Routed :=
  match (msg.get "id").bind (·.asU64) with
  -- a message with an id is an answer, whatever else it holds
  | some id => .response id (callResult msg)
  | none =>
      if (msg.get "method").bind (·.asStr) = some "proxy.stream.push" then
        match (msg.get "params").bind (pushEvent b64) with
        | some (streamId, event) => .push streamId event
        | none => .nowhere
      else .nowhere

/-- An event without a subscriber is dropped. -/
def deliver (client : RpcClient) (streamId : Nat) (event : StreamEvent) : RpcClient :=
  { client with streamSubs := client.streamSubs.modify streamId (· ++ [event]) }

/-- The id in the answer to `proxy.open`. -/
def openResult (result : Json) : Except String Nat :=
  match (result.get "stream_id").bind (·.asU64) with
  | some streamId => .ok streamId
  | none => .error "proxy.open: missing stream_id in response"

/-- What the caller does once its answer has arrived. -/
def finish (client : RpcClient) (call : PendingCall) (result : Except RpcError Json) : RpcClient :=
  match call, result with
  -- only an accepted subscription registers its channel
  | .proxySubscribe streamId, .ok _ =>
      { client with streamSubs := client.streamSubs.insert streamId [] }
  | .proxyClose streamId, _ => { client with streamSubs := client.streamSubs.erase streamId }
  | _, _ => client

/-- `recv_timeout` gives up: the call is no longer pending. -/
def timeout (client : RpcClient) (id : Nat) : RpcClient :=
  { client with pending := client.pending.erase id }

end RpcClient

end Jmux.Remote
