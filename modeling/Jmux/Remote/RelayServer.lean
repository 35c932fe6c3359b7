/-
  Jmux.Remote.RelayServer — the connections of the CLI relay
  (`RelayServer::start`, `handle_relay_connection` of `remote/relay.rs`).

  A connection is challenged, reads one line and checks it, reads a second line
  and passes it on to the local socket.  What the peers send, and when, is
  arbitrary.

  Main results:
    * `relay_handshake`  — in every interleaving of connections, a command is
                            forwarded only for a connection whose first line had
                            the MAC of that connection's nonce.
-/
import Jmux.Lib.Transition
import Jmux.Remote.RelayAuth
import Mathlib.Algebra.GroupWithZero.Nat

namespace Jmux.Remote

open Jmux.Lib

/-! ## §1. Lines of a connection. -/

/-- What a read of a line finds in the bytes that are there.  `none` stands for a
byte that is not UTF-8. -/
inductive Taken
  | line (text : List Char) (rest : List (Option Char))
  | garbled
  | short (text : List Char)

def Taken.cons (c : Char) : Taken → Taken
  | .line text rest => .line (c :: text) rest
  | .garbled => .garbled
  | .short text => .short (c :: text)

/-- `take(window).read_line`: up to a newline, or the whole window. -/
def takeLine (window : Nat) : List (Option Char) → Taken
  | [] => if window = 0 then .line [] [] else .short []
  | none :: rest => if window = 0 then .line [] (none :: rest) else .garbled
  | some c :: rest =>
      if window = 0 then .line [] (some c :: rest)
      else if window < c.utf8Size then .garbled
      else if c = '\n' then .line ['\n'] rest
      else (takeLine (window - c.utf8Size) rest).cons c

def byteSize (text : List Char) : Nat := (text.map Char.utf8Size).sum

/-- A line that fills the window without a newline is too long. -/
def limitLine (limit : Nat) (text : List Char) : Except String String :=
  if text.getLast? ≠ some '\n' ∧ byteSize text ≥ limit then
    .error ("line exceeds " ++ toString limit ++ " bytes")
  else .ok (String.ofList text)

/-- `read_limited_line`; `none` while it waits for more. -/
def readLimitedLine (limit : Nat) (input : List (Option Char)) (hungUp : Bool) :
    Option (Except String String × List (Option Char)) :=
  match takeLine (limit + 1) input with
  | .garbled => some (.error "read error: stream did not contain valid UTF-8", [])
  | .line text rest => some (limitLine limit text, rest)
  | .short text => if hungUp then some (limitLine limit text, []) else none

/-! ## §2. The relay server. -/

inductive RelayConnPhase
  | awaitAuth
  | awaitCommand
  /-- With the command that was forwarded, or the error. -/
  | ended (result : Except String String)

structure RelayConn where
  nonce    : String
  phase    : RelayConnPhase := .awaitAuth
  /-- What the peer has sent and the relay has not read. -/
  input    : List (Option Char) := []
  hungUp   : Bool := false
  /-- The lines that the relay has written. -/
  sent     : List String
  /-- The line that passed the check. -/
  authLine : Option String := none

structure Relay where
  relayId   : String
  authToken : String
  conns     : List RelayConn := []
  /-- What the local socket got, and for which connection. -/
  forwarded : List (Nat × String) := []

def maxRelayConnections : Nat := 8

inductive RelayAct
  /-- `elsewhere`: the connections of the other relays of the process. -/
  | accept (draw : UuidBytes) (elsewhere : Nat)
  | deliver (i : Nat) (bytes : List (Option Char))
  | hangUp (i : Nat)
  /-- One read of a line, and what follows it; `socketUp`: the local socket takes
  the command. -/
  | read (i : Nat) (socketUp : Bool)
  /-- A read times out, or a write fails. -/
  | broken (i : Nat) (message : String)

namespace RelayConn

/-- Step 1: the challenge is sent. -/
def opened (codec : Codec) (relayId : String) (draw : UuidBytes) : RelayConn where
  nonce := draw.toText
  sent  := [codec.write (challengeJson relayId draw.toText) ++ "\n"]

def ends (c : RelayConn) (message : String) : RelayConn :=
  { c with phase := .ended (.error message) }

/-- The first line is read and checked. -/
def onAuthLine (hmac : Bytes → Bytes → Bytes) (codec : Codec) (relayId authToken : String)
    (c : RelayConn) : Option RelayConn :=
  match readLimitedLine (32 * 1024) c.input c.hungUp with
  | none => none
  | some (.error message, _) => some (c.ends message)
  | some (.ok line, rest) =>
      match authenticate hmac codec relayId authToken c.nonce line with
      | .error message => some (c.ends message)
      | .ok () =>
          some
            { c with
              phase    := .awaitCommand
              input    := rest
              sent     := c.sent ++ ["\x7b\"ok\":true\x7d\n"]
              authLine := some line }

/-- The command is read; with what goes to the local socket. -/
def onCommandLine (c : RelayConn) (socketUp : Bool) : Option (RelayConn × Option String) :=
  match readLimitedLine (1024 * 1024) c.input c.hungUp with
  | none => none
  | some (.error message, _) => some (c.ends message, none)
  | some (.ok line, rest) =>
      if Str.trim line = "" then some (c.ends "Empty command", none)
      else if socketUp then
        some ({ c with phase := .ended (.ok (Str.trim line)), input := rest }, some (Str.trim line))
      else some (c.ends "Connect to socket", none)

end RelayConn

namespace Relay

def start (relayId authToken : String) : Relay := { relayId, authToken }

/-- Connections whose handler is running. -/
def running (s : Relay) : Nat :=
  s.conns.countP fun c => match c.phase with
    | .ended _ => false
    | _ => true

def step (hmac : Bytes → Bytes → Bytes) (codec : Codec) (s : Relay) : RelayAct → Option Relay
  | .accept draw elsewhere =>
      if s.running + elsewhere ≥ maxRelayConnections then some s
      else some { s with conns := s.conns ++ [RelayConn.opened codec s.relayId draw] }
  | .deliver i bytes => do
      let c ← s.conns[i]?
      if c.hungUp then none
      else some { s with conns := s.conns.set i { c with input := c.input ++ bytes } }
  | .hangUp i => do
      let c ← s.conns[i]?
      some { s with conns := s.conns.set i { c with hungUp := true } }
  | .read i socketUp => do
      let c ← s.conns[i]?
      match c.phase with
      | .awaitAuth => do
          let c' ← c.onAuthLine hmac codec s.relayId s.authToken
          some { s with conns := s.conns.set i c' }
      | .awaitCommand => do
          let (c', command) ← c.onCommandLine socketUp
          some
            { s with
              conns     := s.conns.set i c'
              forwarded := s.forwarded ++ (command.map fun text => (i, text)).toList }
      | .ended _ => none
  | .broken i message => do
      let c ← s.conns[i]?
      match c.phase with
      | .ended _ => none
      | _ => some { s with conns := s.conns.set i (c.ends message) }

end Relay

/-! ## §3. Every interleaving. -/

namespace RelayConn

/-- A line that passes has been read on this connection. -/
def Authenticated (hmac : Bytes → Bytes → Bytes) (codec : Codec) (relayId authToken : String)
    (c : RelayConn) : Prop :=
  ∃ line, c.authLine = some line ∧ Accepts hmac codec relayId authToken c.nonce line

/-- What holds of every connection. -/
structure Ok (hmac : Bytes → Bytes → Bytes) (codec : Codec) (relayId authToken : String)
    (c : RelayConn) : Prop where
  nonce  : c.nonce ≠ ""
  sent   : ∃ more, c.sent = (codec.write (challengeJson relayId c.nonce) ++ "\n") :: more
  /-- Before the check no line has passed. -/
  fresh  : c.phase = .awaitAuth → c.authLine = none
  passed : c.phase = .awaitCommand → c.Authenticated hmac codec relayId authToken

variable {hmac : Bytes → Bytes → Bytes} {codec : Codec} {relayId authToken : String}
  {c c' : RelayConn}

theorem opened_ok (draw : UuidBytes) :
    (opened codec relayId draw).Ok hmac codec relayId authToken where
  nonce  := toText_ne_empty draw
  sent   := ⟨[], rfl⟩
  fresh  := fun _ => rfl
  passed := fun h => (by cases h)

theorem ends_ok (h : c.Ok hmac codec relayId authToken) (message : String) :
    (c.ends message).Ok hmac codec relayId authToken where
  nonce  := h.nonce
  sent   := h.sent
  fresh  := fun hphase => (by cases hphase)
  passed := fun hphase => (by cases hphase)

/-- **The first read**: the connection goes on only with a line that passes. -/
theorem onAuthLine_ok (h : c.Ok hmac codec relayId authToken)
    (hread : c.onAuthLine hmac codec relayId authToken = some c') :
    c'.Ok hmac codec relayId authToken := by
  unfold onAuthLine at hread
  split at hread
  · cases hread
  · obtain rfl := Option.some.inj hread
    exact ends_ok h _
  next line rest hline =>
    split at hread
    · obtain rfl := Option.some.inj hread
      exact ends_ok h _
    next hpass =>
      obtain rfl := Option.some.inj hread
      obtain ⟨more, hmore⟩ := h.sent
      refine ⟨h.nonce, ⟨more ++ ["\x7b\"ok\":true\x7d\n"], ?_⟩, fun hphase => ?_, fun _ => ?_⟩
      · show c.sent ++ _ = _
        rw [hmore]
        rfl
      · cases hphase
      · exact ⟨line, rfl, (authenticate_iff _ _ _ _ _ _).mp hpass⟩

/-- The second read leaves the nonce and the line that passed. -/
theorem onCommandLine_same {socketUp : Bool} {command : Option String}
    (hread : c.onCommandLine socketUp = some (c', command)) :
    c'.nonce = c.nonce ∧ c'.authLine = c.authLine ∧ c'.sent = c.sent ∧
      ∃ result, c'.phase = .ended result := by
  unfold onCommandLine at hread
  split at hread
  · cases hread
  · obtain ⟨rfl, _⟩ := Prod.mk.inj (Option.some.inj hread)
    exact ⟨rfl, rfl, rfl, _, rfl⟩
  · split at hread
    · obtain ⟨rfl, _⟩ := Prod.mk.inj (Option.some.inj hread)
      exact ⟨rfl, rfl, rfl, _, rfl⟩
    · split at hread
      · obtain ⟨rfl, _⟩ := Prod.mk.inj (Option.some.inj hread)
        exact ⟨rfl, rfl, rfl, _, rfl⟩
      · obtain ⟨rfl, _⟩ := Prod.mk.inj (Option.some.inj hread)
        exact ⟨rfl, rfl, rfl, _, rfl⟩

/-- What the peer of a connection has been written. -/
def output (c : RelayConn) : List Char := c.sent.flatMap (·.toList)

theorem Ok.output (h : c.Ok hmac codec relayId authToken) :
    ∃ more, c.output = (codec.write (challengeJson relayId c.nonce)).toList ++ '\n' :: more := by
  obtain ⟨more, hmore⟩ := h.sent
  refine ⟨more.flatMap (·.toList), ?_⟩
  unfold RelayConn.output
  rw [hmore, List.flatMap_cons, String.toList_append, List.append_assoc]
  rfl

/-- A connection that differs in its input and its phase only. -/
theorem authenticated_congr (hnonce : c'.nonce = c.nonce) (hline : c'.authLine = c.authLine) :
    c'.Authenticated hmac codec relayId authToken ↔ c.Authenticated hmac codec relayId authToken := by
  unfold Authenticated
  rw [hnonce, hline]

end RelayConn

namespace Relay

variable {hmac : Bytes → Bytes → Bytes} {codec : Codec} {relayId authToken : String}
  {s s' : Relay}

/-- What holds of the relay in every state of a run. -/
structure Inv (hmac : Bytes → Bytes → Bytes) (codec : Codec) (relayId authToken : String)
    (s : Relay) : Prop where
  id        : s.relayId = relayId
  token     : s.authToken = authToken
  conns     : ∀ c ∈ s.conns, c.Ok hmac codec relayId authToken
  /-- Nothing is forwarded without a line that passes. -/
  forwarded : ∀ f ∈ s.forwarded, ∃ c, s.conns[f.1]? = some c ∧
    c.Authenticated hmac codec relayId authToken

/-- One connection changes, and keeps the line that passed on it. -/
theorem inv_set (hi : s.Inv hmac codec relayId authToken) {i : Nat} {c c' : RelayConn}
    (hc : s.conns[i]? = some c) (hok : c'.Ok hmac codec relayId authToken)
    (hkeeps : c.Authenticated hmac codec relayId authToken →
      c'.Authenticated hmac codec relayId authToken) :
    ({ s with conns := s.conns.set i c' } : Relay).Inv hmac codec relayId authToken where
  id        := hi.id
  token     := hi.token
  conns     := by
    intro d hd
    rcases List.mem_or_eq_of_mem_set hd with hd | rfl
    · exact hi.conns d hd
    · exact hok
  forwarded := by
    intro f hf
    obtain ⟨d, hd, hauth⟩ := hi.forwarded f hf
    have hlt : i < s.conns.length := (List.getElem?_eq_some_iff.mp hc).1
    by_cases hfi : f.1 = i
    · have hcd : c = d := Option.some.inj (hc.symm.trans (hfi ▸ hd))
      refine ⟨c', ?_, hkeeps (hcd ▸ hauth)⟩
      show (s.conns.set i c')[f.1]? = some c'
      rw [hfi, List.getElem?_set_self hlt]
    · refine ⟨d, ?_, hauth⟩
      show (s.conns.set i c')[f.1]? = some d
      rw [List.getElem?_set_ne (fun h => hfi h.symm)]
      exact hd

/-- **One step of any connection keeps the invariant.** -/
theorem inv_step (hi : s.Inv hmac codec relayId authToken) {a : RelayAct}
    (hs : step hmac codec s a = some s') : s'.Inv hmac codec relayId authToken := by
  cases a with
  | accept draw elsewhere =>
      unfold step at hs
      dsimp only at hs
      split at hs
      · obtain rfl := Option.some.inj hs
        exact hi
      · obtain rfl := Option.some.inj hs
        refine ⟨hi.id, hi.token, fun c hc => ?_, fun f hf => ?_⟩
        · rcases List.mem_append.mp hc with hc | hc
          · exact hi.conns c hc
          · obtain rfl := List.mem_singleton.mp hc
            rw [hi.id]
            exact RelayConn.opened_ok draw
        · obtain ⟨c, hc, hauth⟩ := hi.forwarded f hf
          have hlt : f.1 < s.conns.length := (List.getElem?_eq_some_iff.mp hc).1
          refine ⟨c, ?_, hauth⟩
          show (s.conns ++ _)[f.1]? = some c
          rw [List.getElem?_append_left hlt]
          exact hc
  | deliver i bytes =>
      unfold step at hs
      obtain ⟨c, hc, hs⟩ := Option.bind_eq_some_iff.mp hs
      have hcok := hi.conns c (List.mem_of_getElem? hc)
      split at hs
      · cases hs
      · obtain rfl := Option.some.inj hs
        exact inv_set hi hc ⟨hcok.nonce, hcok.sent, hcok.fresh, hcok.passed⟩ id
  | hangUp i =>
      unfold step at hs
      obtain ⟨c, hc, hs⟩ := Option.bind_eq_some_iff.mp hs
      have hcok := hi.conns c (List.mem_of_getElem? hc)
      obtain rfl := Option.some.inj hs
      exact inv_set hi hc ⟨hcok.nonce, hcok.sent, hcok.fresh, hcok.passed⟩ id
  | read i socketUp =>
      unfold step at hs
      obtain ⟨c, hc, hs⟩ := Option.bind_eq_some_iff.mp hs
      have hcok := hi.conns c (List.mem_of_getElem? hc)
      split at hs
      next hphase =>
        obtain ⟨c', hread, hs⟩ := Option.bind_eq_some_iff.mp hs
        obtain rfl := Option.some.inj hs
        rw [hi.id, hi.token] at hread
        refine inv_set hi hc (RelayConn.onAuthLine_ok hcok hread) ?_
        -- nothing has passed before the first read
        rintro ⟨line, hline, _⟩
        rw [hcok.fresh hphase] at hline
        cases hline
      next hphase =>
        obtain ⟨⟨c', command⟩, hread, hs⟩ := Option.bind_eq_some_iff.mp hs
        obtain rfl := Option.some.inj hs
        obtain ⟨hnonce, hline, hsent, result, hended⟩ := RelayConn.onCommandLine_same hread
        have hauth : c'.Authenticated hmac codec relayId authToken :=
          (RelayConn.authenticated_congr hnonce hline).mpr (hcok.passed hphase)
        have hok' : c'.Ok hmac codec relayId authToken := by
          refine ⟨hnonce ▸ hcok.nonce, ?_, fun h => ?_, fun _ => hauth⟩
          · rw [hsent, hnonce]
            exact hcok.sent
          · rw [hended] at h
            cases h
        have hset := inv_set hi hc hok' fun _ => hauth
        refine ⟨hset.id, hset.token, hset.conns, fun f hf => ?_⟩
        rcases List.mem_append.mp hf with hf | hf
        · exact hset.forwarded f hf
        · -- the command that has just been forwarded
          obtain ⟨text, _, rfl⟩ := Option.map_eq_some_iff.mp (Option.mem_toList.mp hf)
          refine ⟨c', ?_, hauth⟩
          show (s.conns.set i c')[i]? = some c'
          exact List.getElem?_set_self (List.getElem?_eq_some_iff.mp hc).1
      · cases hs
  | broken i message =>
      unfold step at hs
      obtain ⟨c, hc, hs⟩ := Option.bind_eq_some_iff.mp hs
      have hcok := hi.conns c (List.mem_of_getElem? hc)
      split at hs
      · cases hs
      · obtain rfl := Option.some.inj hs
        exact inv_set hi hc (RelayConn.ends_ok hcok message) id

theorem inv_reachable (hr : Reachable (step hmac codec) (start relayId authToken) s) :
    s.Inv hmac codec relayId authToken :=
  hr.invariant (Inv hmac codec relayId authToken)
    ⟨rfl, rfl, fun _ h => (by cases h), fun _ h => (by cases h)⟩
    fun _ _ _ hi _ hs => inv_step hi hs

/-- **The two sides agree, and only a line with the right MAC opens the way.**  On
every connection of every run an honest client computes what the relay expects,
and with a token of `RelayServer::start` it does compute it; and whatever was
forwarded came on a connection on which a line with the MAC for its own nonce
had been read. -/
theorem relay_handshake (hmac : Bytes → Bytes → Bytes) (codec : Codec)
    (relayId authToken : String) {s : Relay}
    (hr : Reachable (step hmac codec) (start relayId authToken) s) :
    (∀ c ∈ s.conns, codec.CarriesChallenge relayId c.nonce →
      (∀ mac, clientMac hmac codec ⟨relayId, authToken⟩ c.output = .ok mac →
        expectedMac hmac relayId authToken c.nonce = some mac) ∧
      ∀ token, authToken = Hex.encode token →
        ∃ mac, clientMac hmac codec ⟨relayId, authToken⟩ c.output = .ok mac) ∧
    ∀ f ∈ s.forwarded, ∃ c, s.conns[f.1]? = some c ∧
      ∃ line, c.authLine = some line ∧
        Accepts hmac codec relayId authToken c.nonce line := by
  have hi := inv_reachable hr
  refine ⟨fun c hc hcarries => ?_, hi.forwarded⟩
  obtain ⟨more, hout⟩ := (hi.conns c hc).output
  rw [hout]
  refine ⟨fun mac hmac' => client_mac_expected hmac hcarries hmac', ?_⟩
  rintro token rfl
  exact ⟨_, client_answers hmac hcarries (hi.conns c hc).nonce token more⟩

/-- Sixteen bytes from `n` on. -/
def sampleDraw (n : Nat) : UuidBytes where
  bytes := (List.range 16).map fun k => UInt8.ofNat (n + k)
  size  := by rw [List.length_map, List.length_range]

def sampleRelayId : String := "00010203-0405-0607-0809-0a0b0c0d0e0f"

def sampleToken : String := Hex.encode (sampleDraw 16).bytes

/-- HMAC-SHA256 of the token and the message for the sample nonce. -/
def sampleHmac (_key _message : Bytes) : Bytes :=
  [232, 176, 231, 221, 9, 192, 87, 27, 60, 161, 210, 181, 65, 47, 29, 151, 163, 233, 247, 224, 27,
    149, 238, 252, 167, 167, 35, 114, 220, 116, 173, 178]

def sampleChallenge : String :=
  "\x7b\"nonce\":\"20212223-2425-2627-2829-2a2b2c2d2e2f\",\"protocol\":\"jmux-relay-auth\","
    ++ "\"relay_id\":\"00010203-0405-0607-0809-0a0b0c0d0e0f\",\"version\":1\x7d"

def sampleAnswer : String :=
  "\x7b\"mac\":\"e8b0e7dd09c0571b3ca1d2b5412f1d97a3e9f7e01b95eefca7a72372dc74adb2\","
    ++ "\"relay_id\":\"00010203-0405-0607-0809-0a0b0c0d0e0f\"\x7d"

/-- The texts of the sample session. -/
def sampleCodec : Codec where
  write     := fun _ => sampleChallenge
  parse     := fun text =>
    if text = sampleAnswer then
      some (.obj [("mac", .str (Hex.encode (sampleHmac [] []))), ("relay_id", .str sampleRelayId)])
    else none
  unmarshal := fun line =>
    if line = sampleChallenge ++ "\n" then
      some
        { protocol := "jmux-relay-auth"
          version  := 1
          relayID  := sampleRelayId
          nonce    := (sampleDraw 32).toText }
    else none
  marshal   := fun _ => sampleAnswer

/-- A client connects, answers and sends `ping`. -/
def sampleSession : List RelayAct :=
  [.accept (sampleDraw 32) 0, .deliver 0 ((sampleAnswer ++ "\n").toList.map some), .read 0 true,
    .deliver 0 ("ping\n".toList.map some), .read 0 true]

def sampleRelay : Relay :=
  (exec (step sampleHmac sampleCodec) (start sampleRelayId sampleToken) sampleSession).getD
    (start sampleRelayId sampleToken)

theorem sampleCodec_carries :
    sampleCodec.CarriesChallenge sampleRelayId (sampleDraw 32).toText where
  line      := by decide +kernel
  challenge := by
    simp only [sampleCodec, if_true]

theorem relay_handshake_ping :
    sampleRelay.forwarded = [(0, "ping")] ∧
    (∀ c ∈ sampleRelay.conns, c.nonce = (sampleDraw 32).toText →
      ∃ mac, clientMac sampleHmac sampleCodec ⟨sampleRelayId, sampleToken⟩ c.output = .ok mac ∧
        expectedMac sampleHmac sampleRelayId sampleToken c.nonce = some mac) ∧
    ∀ f ∈ sampleRelay.forwarded, ∃ c, sampleRelay.conns[f.1]? = some c ∧
      ∃ line, c.authLine = some line ∧
        Accepts sampleHmac sampleCodec sampleRelayId sampleToken c.nonce line := by
  have hran : (exec (step sampleHmac sampleCodec) (start sampleRelayId sampleToken)
      sampleSession).map (·.forwarded) = some [(0, "ping")] := by decide +kernel
  obtain ⟨s, hs, hforwarded⟩ := Option.map_eq_some_iff.mp hran
  have hsample : sampleRelay = s := by
    unfold sampleRelay
    rw [hs, Option.getD_some]
  rw [hsample]
  obtain ⟨hclient, hrelay⟩ := relay_handshake sampleHmac sampleCodec sampleRelayId sampleToken
    (reachable_of_exec hs)
  refine ⟨hforwarded, fun c hc hnonce => ?_, hrelay⟩
  obtain ⟨hexpected, hanswers⟩ := hclient c hc (hnonce ▸ sampleCodec_carries)
  obtain ⟨mac, hmac⟩ := hanswers _ rfl
  exact ⟨mac, hmac, hexpected mac hmac⟩

end Relay

/-! ## §4. What an honest client sends. -/

/-- The answer is one short line, and the relay reads its fields in it. -/
structure Codec.CarriesAnswer (codec : Codec) (relayId : String) (mac : Bytes) : Prop where
  line   : '\n' ∉ (codec.marshal [("mac", Hex.encode mac), ("relay_id", relayId)]).toList
  size   : byteSize (codec.marshal [("mac", Hex.encode mac), ("relay_id", relayId)]).toList
    < 32 * 1024
  fields : codec.parse (Str.trim
      (codec.marshal [("mac", Hex.encode mac), ("relay_id", relayId)] ++ "\n"))
    = some (.obj [("mac", .str (Hex.encode mac)), ("relay_id", .str relayId)])

end Jmux.Remote
