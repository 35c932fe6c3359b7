/-
  Jmux.Remote.Proxy — the connections of the proxy tunnel (`remote/proxy.rs`).

  A handler reads a SOCKS5 or an HTTP CONNECT request from the local client, opens a
  stream at the remote daemon and relays between the two.  It is a function of what
  its reads and calls answer.  A read gives what has arrived, at most the buffer's
  size; that limit is not used here, any read may give any number of bytes.
-/
import Jmux.Lib.Fill
import Jmux.Lib.Hex
import Jmux.Lib.Str
import Jmux.Remote.RpcClient

namespace Jmux.Remote

open Jmux.Lib

/-! ## §1. Texts. -/

def replacementChar : Char := '\ufffd'

def isContinuationByte (b : UInt8) : Bool := decide (0x80 ≤ b) && decide (b ≤ 0xbf)

/-- How many bytes a character has that begins so; a byte that begins none has one. -/
def utf8Width (first : UInt8) : Nat :=
  if 0xc2 ≤ first ∧ first ≤ 0xdf then 2
  else if 0xe0 ≤ first ∧ first ≤ 0xef then 3
  else if 0xf0 ≤ first ∧ first ≤ 0xf4 then 4
  else 1

/-- What may follow the first byte. -/
def isSecondByte (first b : UInt8) : Bool :=
  if first = 0xe0 then decide (0xa0 ≤ b) && decide (b ≤ 0xbf)
  else if first = 0xed then decide (0x80 ≤ b) && decide (b ≤ 0x9f)
  else if first = 0xf0 then decide (0x90 ≤ b) && decide (b ≤ 0xbf)
  else if first = 0xf4 then decide (0x80 ≤ b) && decide (b ≤ 0x8f)
  else isContinuationByte b

/-- The bytes after the first one that go on with the same character. -/
def utf8Tail (first : UInt8) (rest : Bytes) : Bytes :=
  match rest.take (utf8Width first - 1) with
  | b :: more => if isSecondByte first b then b :: more.takeWhile isContinuationByte else []
  | [] => []

/-- The character with these continuation bytes. -/
def utf8Char (first : UInt8) (tail : Bytes) : Char :=
  Char.ofNat (tail.foldl (fun n b => 64 * n + b.toNat % 64)
    (first.toNat % 2 ^ (7 - utf8Width first)))

def utf8LossyFrom : Nat → Bytes → List Char
  | fuel + 1, first :: rest =>
      if first < 0x80 then Char.ofNat first.toNat :: utf8LossyFrom fuel rest
      else
        let tail := utf8Tail first rest
        -- a beginning that does not go on becomes one replacement character
        (if tail ≠ [] ∧ tail.length + 1 = utf8Width first then utf8Char first tail
          else replacementChar) :: utf8LossyFrom fuel (rest.drop tail.length)
  | _, _ => []

/-- `String::from_utf8_lossy`. -/
def utf8Lossy (bytes : Bytes) : List Char := utf8LossyFrom bytes.length bytes

example : utf8Lossy [0x61, 0xc3, 0xa9, 0xe2, 0x82, 0x62, 0xff] = ['a', 'é', '\ufffd', 'b', '\ufffd'] := by
  decide

def ipv4Text (octets : Bytes) : String :=
  ".".intercalate (octets.map fun b => toString b.toNat)

/-- The 16-bit groups of an address. -/
def segments : Bytes → List Nat
  | hi :: lo :: rest => (256 * hi.toNat + lo.toNat) :: segments rest
  | _ => []

/-- The longest run of zeros, the first of its length: where it starts and its length. -/
def zeroRun : Nat → Nat × Nat → Nat × Nat → List Nat → Nat × Nat
  | _, longest, _, [] => longest
  | i, longest, current, segment :: rest =>
      if segment = 0 then
        let current := if current.2 = 0 then (i, 1) else (current.1, current.2 + 1)
        zeroRun (i + 1) (if longest.2 < current.2 then current else longest) current rest
      else zeroRun (i + 1) longest (0, 0) rest

def hexSegment (n : Nat) : String :=
  String.ofList ((Nat.toDigits 16 n))

def segmentsText (group : List Nat) : String := ":".intercalate (group.map hexSegment)

/-- `Ipv6Addr` as text. -/
def ipv6Text (octets : Bytes) : String :=
  let groups := segments octets
  if groups.take 6 = [0, 0, 0, 0, 0, 0xffff] then "::ffff:" ++ ipv4Text (octets.drop 12)
  else
    let (start, len) := zeroRun 0 (0, 0) (0, 0) groups
    if 1 < len then
      segmentsText (groups.take start) ++ "::" ++ segmentsText (groups.drop (start + len))
    else segmentsText groups

example : ipv6Text [0x20, 1, 0xd, 0xb8, 0, 0, 0, 0, 0, 0, 0, 0, 0, 0, 0, 1] = "2001:db8::1" := by
  decide

/-- `str::parse::<u16>`. -/
def parseU16 (cs : List Char) : Option Nat := (Str.parseU32 cs).filter (· < 2 ^ 16)

/-! ## §2. Runs. -/

structure IoError where
  wouldBlock : Bool := false
  message    : String

abbrev LocalRead := Fill.ReadResult UInt8 IoError

inductive TryRecv
  | event (event : StreamEvent)
  | empty
  | disconnected

/-- One turn of the relay: what the calls answer that it makes. -/
structure Turn where
  written   : Except String Unit := .ok ()
  event     : TryRecv := .empty
  delivered : Except String Unit := .ok ()

/-- What the local client and the daemon answer, other than what is read. -/
structure Peers where
  authWritten    : Except String Unit := .ok ()
  opened         : Except String Nat
  subscribed     : Except String Unit := .ok ()
  replied        : Except String Unit := .ok ()
  payloadWritten : Except String Unit := .ok ()
  turn           : Nat → Turn := fun _ => {}

/-- The calls of a handler, with what decides about the stream. -/
inductive RpcCall
  | open (host : String) (port : Nat) (answer : Except String Nat)
  | subscribe (streamId : Nat)
  | write (streamId : Nat) (data : Bytes)
  | close (streamId : Nat)

/-- A connection: the reads to come, what was written to the local client, and the
calls made. -/
structure ProxyConn where
  reads  : List LocalRead
  sent   : List Bytes := []
  calls  : List RpcCall := []
  client : RpcClient := {}

/-- How a handler ends before its last step: with an error, or with a panic. -/
inductive ProxyEnd
  | error (message : String)
  | panicked
  deriving DecidableEq

/-- A step of a handler; `none` is a step that does not end within its fuel. -/
def ProxyRun (α : Type) := ProxyConn → Option (Except ProxyEnd α × ProxyConn)

namespace ProxyRun

def done {α : Type} (a : α) : ProxyRun α := fun c => some (.ok a, c)

def andThen {α β : Type} (x : ProxyRun α) (f : α → ProxyRun β) : ProxyRun β := fun c =>
  match x c with
  | some (.ok a, c') => f a c'
  | some (.error e, c') => some (.error e, c')
  | none => none

instance : Monad ProxyRun where
  pure := done
  bind := andThen

def fail {α : Type} (message : String) : ProxyRun α := fun c => some (.error (.error message), c)

/-- An index out of range. -/
def outOfRange {α : Type} : ProxyRun α := fun c => some (.error .panicked, c)

/-- `map_err(..)?` -/
def attempt {α : Type} (context : String) : Except String α → ProxyRun α
  | .ok a => done a
  | .error e => fail (context ++ e)

def write (bytes : Bytes) : ProxyRun Unit := fun c =>
  some (.ok (), { c with sent := c.sent ++ [bytes] })

def call (rpc : RpcCall) : ProxyRun Unit := fun c =>
  some (.ok (), { c with calls := c.calls ++ [rpc] })

def update (f : RpcClient → RpcClient) : ProxyRun Unit := fun c =>
  some (.ok (), { c with client := f c.client })

/-- A read of the relay; `none` is the end of the stream. -/
def readLocal : ProxyRun (Option LocalRead) := fun c =>
  match c.reads with
  | r :: rest => some (.ok (some r), { c with reads := rest })
  | [] => some (.ok none, c)

def byteAt (buf : Bytes) (i : Nat) : ProxyRun UInt8 :=
  match buf[i]? with
  | some b => done b
  | none => outOfRange

def slice (buf : Bytes) (start stop : Nat) : ProxyRun Bytes :=
  if stop ≤ buf.length then done ((buf.take stop).drop start) else outOfRange

/-- What a loop of reads comes to.  Where an empty read does not end the loop there
is no message for it. -/
def filled (closed : Option String) (refused : String) (c : ProxyConn) :
    Option (Fill.Filled UInt8 IoError) → Option (Except ProxyEnd Bytes × ProxyConn)
  | some (.full buf rest) => some (.ok buf, { c with reads := rest })
  | some .refused => some (.error (.error refused), c)
  | some (.failed e) => some (.error (.error ("read: " ++ e.message)), c)
  | some .closed => some (.error (.error (closed.getD "")), c)
  | none => none

/-- The loops of the handlers: read until there is enough. -/
def readUntil (closed : Option String) (enough : Bytes → Bool) (fuel : Nat) (buf : Bytes)
    (refuse : Bytes → Bool := fun _ => false) (refused : String := "") : ProxyRun Bytes := fun c =>
  filled closed refused c (Fill.fill enough refuse closed.isSome fuel buf c.reads)

end ProxyRun

open ProxyRun

/-! ## §3. Requests. -/

structure ProxyRequest where
  host    : String
  port    : Nat
  /-- What arrived behind the request. -/
  payload : Bytes

def portOf (bytes : Bytes) : Nat := bytes.foldl (fun n b => 256 * n + b.toNat) 0

/-- The reads of an address do not look for the end of the stream. -/
def readAddress (fuel n : Nat) (buf : Bytes) : ProxyRun Bytes :=
  readUntil none (Fill.atLeast n) fuel buf

def socks5Ipv4 (fuel : Nat) (connectBuf : Bytes) : ProxyRun ProxyRequest := do
  let buf ← readAddress fuel 10 connectBuf
  let octets ← slice buf 4 8
  let port ← slice buf 8 10
  return { host := ipv4Text octets, port := portOf port, payload := buf.drop 10 }

def socks5Domain (fuel : Nat) (connectBuf : Bytes) : ProxyRun ProxyRequest := do
  -- the length is read before more is waited for
  let domainLen ← byteAt connectBuf 4
  let needed := 5 + domainLen.toNat + 2
  let buf ← readAddress fuel needed connectBuf
  let name ← slice buf 5 (5 + domainLen.toNat)
  let port ← slice buf (5 + domainLen.toNat) needed
  return { host := String.ofList (utf8Lossy name), port := portOf port, payload := buf.drop needed }

def socks5Ipv6 (fuel : Nat) (connectBuf : Bytes) : ProxyRun ProxyRequest := do
  let buf ← readAddress fuel 22 connectBuf
  let octets ← slice buf 4 20
  let port ← slice buf 20 22
  return { host := ipv6Text octets, port := portOf port, payload := buf.drop 22 }

def socks5Reply (code : UInt8) : Bytes := [0x05, code, 0x00, 0x01, 0, 0, 0, 0, 0, 0]

def hexByte (b : UInt8) : String := "0x" ++ String.ofList (Hex.encodeByte b)

/-- The greeting, to what arrived behind it. -/
def socks5Greeting (fuel : Nat) (p : Peers) (initial : Bytes) (nmethods : UInt8) :
    ProxyRun Bytes := do
  let greetingLen := 2 + nmethods.toNat
  let greeting ← readUntil (some "Connection closed during greeting") (Fill.atLeast greetingLen)
    fuel initial
  write [0x05, 0x00]
  attempt "write auth: " p.authWritten
  return greeting.drop greetingLen

def socks5Address (fuel : Nat) (connectBuf : Bytes) (atyp : UInt8) : ProxyRun ProxyRequest :=
  if atyp = 0x01 then socks5Ipv4 fuel connectBuf
  else if atyp = 0x03 then socks5Domain fuel connectBuf
  else if atyp = 0x04 then socks5Ipv6 fuel connectBuf
  else do
    write (socks5Reply 0x08)
    fail ("Unsupported SOCKS5 address type: " ++ hexByte atyp)

/-- The CONNECT request. -/
def socks5Connect (fuel : Nat) (pipelined : Bytes) : ProxyRun ProxyRequest := do
  let connectBuf ← readUntil (some "Connection closed during CONNECT") (Fill.atLeast 4) fuel pipelined
  let version ← byteAt connectBuf 0
  let command ← byteAt connectBuf 1
  if version ≠ 0x05 ∨ command ≠ 0x01 then
    write (socks5Reply 0x07)
    fail ("Unsupported SOCKS5 command: " ++ hexByte command)
  else
    let atyp ← byteAt connectBuf 3
    socks5Address fuel connectBuf atyp

/-- `handle_socks5`, to the request. -/
def socks5Request (fuel : Nat) (p : Peers) (initial : Bytes) : ProxyRun ProxyRequest :=
  match initial with
  | version :: nmethods :: _ =>
      if version ≠ 0x05 then fail "Invalid SOCKS5 greeting"
      else do
        let pipelined ← socks5Greeting fuel p initial nmethods
        socks5Connect fuel pipelined
  | _ => fail "Invalid SOCKS5 greeting"

/-- Where the header ends: after the first blank line. -/
def headerEnd : Bytes → Option Nat
  | [] => none
  | b :: rest =>
      if [0x0d, 0x0a, 0x0d, 0x0a].isPrefixOf (b :: rest) then some 4
      else (headerEnd rest).map (· + 1)

/-- Host and port of the first line. -/
def httpTarget (buf : Bytes) : Except String (String × Nat) :=
  let firstLine := utf8Lossy (buf.takeWhile (· ≠ 0x0d))
  match Str.splitWhitespace firstLine with
  | method :: target :: _ =>
      if method ≠ "CONNECT".toList then
        .error ("Invalid HTTP CONNECT: " ++ String.ofList firstLine)
      else if ':' ∈ target then
        match parseU16 (target.rtakeWhile (· ≠ ':')) with
        | some port => .ok (String.ofList (target.rdropWhile (· ≠ ':')).dropLast, port)
        | none => .error ("Invalid port in CONNECT target: " ++ String.ofList target)
      else .ok (String.ofList target, 80)
  | _ => .error ("Invalid HTTP CONNECT: " ++ String.ofList firstLine)

def maxHttpHeader : Nat := 65536

/-- The header of `handle_http_connect`, to the request. -/
def httpRequest (fuel : Nat) (initial : Bytes) : ProxyRun ProxyRequest := do
  let buf ← readUntil (some "Connection closed during HTTP CONNECT")
    (fun buf => (headerEnd buf).isSome) fuel initial
    (fun buf => decide (maxHttpHeader < buf.length)) "HTTP CONNECT headers too large"
  match headerEnd buf with
  | some n =>
      let (host, port) ← attempt "" (httpTarget buf)
      return { host, port, payload := buf.drop n }
  | none => fail "Malformed HTTP CONNECT header"

/-! ## §4. The relay. -/

/-- `proxy_close`: whatever the daemon answers, the subscription goes. -/
def closeStream (streamId : Nat) : ProxyRun Unit := do
  call (.close streamId)
  update fun client => client.finish (.proxyClose streamId) (.ok .null)

/-- From the local client to the daemon; the answer says whether the relay goes on. -/
def localTurn (p : Peers) (streamId k : Nat) : ProxyRun Bool := do
  match ← readLocal with
  | none =>
      closeStream streamId
      return false
  | some (.data chunk) =>
      call (.write streamId chunk.items)
      match (p.turn k).written with
      | .ok () => return true
      | .error _ => return false
  | some (.err e) =>
      if e.wouldBlock then return true
      else
        closeStream streamId
        fail ("Local read error: " ++ e.message)

/-- From the daemon to the local client. -/
def remoteTurn (p : Peers) (streamId k : Nat) : ProxyRun Bool :=
  match (p.turn k).event with
  | .event (.data data) => do
      write data
      match (p.turn k).delivered with
      | .ok () => return true
      | .error _ =>
          closeStream streamId
          return false
  | .event (.eof final) => do
      match final with
      | some data => write data
      | none => pure ()
      return false
  | .event (.error _) => do
      closeStream streamId
      return false
  | .empty => return true
  | .disconnected => return false

/-- `relay_streams`, from its turn `k` on. -/
def relayStreams (p : Peers) (streamId : Nat) : Nat → Nat → ProxyRun Unit
  | 0, _ => fun _ => none
  | fuel + 1, k => do
      if ← localTurn p streamId k then
        if ← remoteTurn p streamId k then relayStreams p streamId fuel (k + 1)

/-! ## §5. The handlers. -/

/-- `proxy_subscribe`: the channel is registered when the daemon accepts. -/
def subscribeStream (p : Peers) (streamId : Nat) : ProxyRun Unit := do
  call (.subscribe streamId)
  attempt "proxy.subscribe: " p.subscribed
  update fun client => client.finish (.proxySubscribe streamId) (.ok .null)

/-- What both handlers do with a request. -/
def tunnel (fuel : Nat) (p : Peers) (reply : Bytes) (replyContext : String) (req : ProxyRequest) :
    ProxyRun Unit := do
  call (.open req.host req.port p.opened)
  let streamId ← attempt ("proxy.open(" ++ req.host ++ ":" ++ toString req.port ++ "): ") p.opened
  subscribeStream p streamId
  write reply
  attempt replyContext p.replied
  if req.payload ≠ [] then
    call (.write streamId req.payload)
    attempt "proxy.write pipelined: " p.payloadWritten
  relayStreams p streamId fuel 0

def handleSocks5 (fuel : Nat) (p : Peers) (initial : Bytes) : ProxyRun Unit := do
  let req ← socks5Request fuel p initial
  tunnel fuel p (socks5Reply 0x00) "write reply: " req

def httpReply : Bytes := "HTTP/1.1 200 Connection Established\r\n\r\n".toUTF8.toList

def handleHttpConnect (fuel : Nat) (p : Peers) (initial : Bytes) : ProxyRun Unit := do
  let req ← httpRequest fuel initial
  tunnel fuel p httpReply "write HTTP reply: " req

def connectPrefix : Bytes := [0x43, 0x4f, 0x4e, 0x4e, 0x45, 0x43, 0x54, 0x20]

/-- Handle a single proxy client connection. -/
def handleProxyConnection (fuel : Nat) (p : Peers) : ProxyRun Unit := do
  match ← readLocal with
  | none => fail "empty connection"
  | some (.err e) => fail ("read: " ++ e.message)
  | some (.data chunk) =>
      match chunk.items with
      | first :: _ =>
          if first = 0x05 then handleSocks5 fuel p chunk.items
          else if connectPrefix.isPrefixOf chunk.items then handleHttpConnect fuel p chunk.items
          else fail ("Unknown proxy protocol: first byte " ++ hexByte first)
      | [] => fail "empty connection"

end Jmux.Remote
