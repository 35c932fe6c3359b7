/-
  Jmux.Remote.RelayAuth — the challenge and the answer of the CLI relay: what the
  server checks (`remote/relay.rs`, `socket/auth.rs`) and what the client computes
  (`authenticateRelayConn` of `cli.go`).

  The JSON libraries of the two programs and HMAC-SHA256 are parameters.

  Main results:
    * `verifyHmacRaw_iff`    — the comparison compares.
    * `client_mac_expected`  — an honest client computes the MAC that the relay
                                computes.
    * `authenticate_iff`     — which lines pass the relay's check.
-/
import Jmux.Lib.CharIndex
import Jmux.Lib.Hex
import Jmux.Lib.Str
import Jmux.Remote.RpcClient

namespace Jmux.Remote

open Jmux.Lib

/-! ## §1. The code of a message. -/

/-- `str::as_bytes`. -/
def utf8 (s : String) : Bytes := s.toByteArray.data.toList

/-- The digits in pairs; a character that is left over ends the loop. -/
def hexDecodeChars : List Char → Option Bytes
  | a :: b :: cs => (Hex.byte a b).bind fun x => (hexDecodeChars cs).map (x :: ·)
  | _ => some []

/-- `hex_decode`. -/
def hexDecode (s : String) : Option Bytes :=
  if s.utf8ByteSize % 2 = 0 then hexDecodeChars s.toList else none

/-- `verify_hmac_raw`: a comparison that takes the same time wherever the two differ. -/
def verifyHmacRaw (hmac : Bytes → Bytes → Bytes) (key message : Bytes) (responseHex : String) :
    Bool :=
  let expectedHex := Hex.encode (hmac key message)
  if expectedHex.utf8ByteSize ≠ responseHex.utf8ByteSize then false
  else
    ((utf8 expectedHex).zip (utf8 responseHex)).foldl (fun acc p => acc ||| (p.1 ^^^ p.2)) 0 == 0

/-! ## §2. The client. -/

/-- What the client finds in a challenge. -/
structure Challenge where
  protocol : String
  version  : Int
  relayID  : String
  nonce    : String
  deriving DecidableEq, Repr

/-- `serde_json` on the relay's side, `encoding/json` on the client's. -/
structure Codec where
  /-- `serde_json::to_string` -/
  write : Json → String
  /-- `serde_json::from_str` -/
  parse : String → Option Json
  /-- `json.Unmarshal` into the fields of the challenge -/
  unmarshal : String → Option Challenge
  /-- `json.Marshal` of a map of strings -/
  marshal : List (String × String) → String

/-- What a client knows about the relay. -/
structure RelayAuthState where
  relayID    : String
  relayToken : String

def computeRelayMAC (hmac : Bytes → Bytes → Bytes) (token : Bytes) (relayID nonce : String)
    (version : Int) : Bytes :=
  hmac token
    (utf8 ("relay_id=" ++ relayID ++ "\nnonce=" ++ nonce ++ "\nversion=" ++ toString version))

/-- `reader.ReadString('\n')`. -/
def readString (output : List Char) : Option String :=
  if '\n' ∈ output then some (String.ofList (output.takeWhile (· ≠ '\n') ++ ['\n'])) else none

/-- The MAC of `authenticateRelayConn`, for what the relay wrote. -/
def clientMac (hmac : Bytes → Bytes → Bytes) (codec : Codec) (auth : RelayAuthState)
    (output : List Char) : Except String Bytes :=
  match readString output with
  | none => .error "failed to read relay auth challenge"
  | some line =>
      match codec.unmarshal line with
      | none => .error "invalid relay auth challenge"
      | some challenge =>
          if challenge.protocol ≠ "jmux-relay-auth" ∨ challenge.version ≠ 1
              ∨ challenge.relayID ≠ auth.relayID ∨ challenge.nonce = "" then
            .error "relay auth challenge mismatch"
          else
            match Hex.decode auth.relayToken with
            | none => .error "invalid relay auth token"
            | some tokenBytes =>
                .ok (computeRelayMAC hmac tokenBytes auth.relayID challenge.nonce
                  challenge.version)

/-- The client's answer to a challenge, its newline included. -/
def clientAnswer (codec : Codec) (auth : RelayAuthState) (mac : Bytes) : String :=
  codec.marshal [("mac", Hex.encode mac), ("relay_id", auth.relayID)] ++ "\n"

/-! ## §3. The relay's check. -/

def challengeJson (relayId nonce : String) : Json :=
  .obj [("protocol", .str "jmux-relay-auth"), ("version", .num 1), ("relay_id", .str relayId),
    ("nonce", .str nonce)]

def authMessage (relayId nonce : String) : String :=
  "relay_id=" ++ relayId ++ "\nnonce=" ++ nonce ++ "\nversion=1"

/-- A text field of the answer. -/
def answerField (response : Json) (key : String) : String :=
  ((response.get key).bind Json.asStr).getD ""

/-- Steps 2 and 3 of a connection, for the line that was read. -/
def authenticate (hmac : Bytes → Bytes → Bytes) (codec : Codec) (relayId authToken nonce : String)
    (responseLine : String) : Except String Unit :=
  match codec.parse (Str.trim responseLine) with
  | none => .error "parse auth response"
  | some response =>
      if answerField response "relay_id" ≠ relayId then .error "Relay ID mismatch"
      else
        match hexDecode authToken with
        | none => .error "auth_token is not valid hex"
        | some key =>
            if verifyHmacRaw hmac key (utf8 (authMessage relayId nonce))
                (answerField response "mac") then .ok ()
            else .error "HMAC verification failed"

/-! ## §4. The comparison compares. -/

theorem foldl_or_eq_zero (pairs : List (UInt8 × UInt8)) (acc : UInt8) :
    pairs.foldl (fun acc p => acc ||| (p.1 ^^^ p.2)) acc = 0
      ↔ acc = 0 ∧ ∀ p ∈ pairs, p.1 = p.2 := by
  induction pairs generalizing acc with
  | nil => simp
  | cons p pairs ih =>
      rw [List.foldl_cons, ih, UInt8.or_eq_zero_iff, UInt8.xor_eq_zero_iff, List.forall_mem_cons,
        and_assoc]

theorem zip_all_eq_iff {as bs : Bytes} (h : as.length = bs.length) :
    (∀ p ∈ as.zip bs, p.1 = p.2) ↔ as = bs := by
  induction as generalizing bs with
  | nil =>
      cases bs with
      | nil => simp
      | cons b bs => cases h
  | cons a as ih =>
      cases bs with
      | nil => cases h
      | cons b bs =>
          rw [List.zip_cons_cons, List.forall_mem_cons, ih (Nat.succ.inj h), List.cons.injEq]

theorem utf8_inj {s t : String} : utf8 s = utf8 t ↔ s = t := by
  unfold utf8
  rw [← String.toByteArray_inj, ByteArray.ext_iff, Array.toList_inj]

/-- **The check passes for the one text that is expected.** -/
theorem verifyHmacRaw_iff (hmac : Bytes → Bytes → Bytes) (key message : Bytes)
    (responseHex : String) :
    verifyHmacRaw hmac key message responseHex = true
      ↔ responseHex = Hex.encode (hmac key message) := by
  unfold verifyHmacRaw
  dsimp only
  by_cases hsize : (Hex.encode (hmac key message)).utf8ByteSize = responseHex.utf8ByteSize
  · have hlen : (utf8 (Hex.encode (hmac key message))).length = (utf8 responseHex).length := hsize
    rw [if_neg (not_not.mpr hsize), beq_iff_eq, foldl_or_eq_zero, zip_all_eq_iff hlen, utf8_inj]
    exact ⟨fun h => h.2.symm, fun h => ⟨rfl, h.symm⟩⟩
  · rw [if_pos hsize]
    refine iff_of_false (by decide) fun h => hsize ?_
    rw [h]

/-- The loop reads the pairs; it does not look at a character behind them. -/
theorem hexDecodeChars_append {cs rest : List Char} (heven : cs.length % 2 = 0)
    (hrest : rest.length ≤ 1) : hexDecodeChars (cs ++ rest) = Hex.decodeChars cs := by
  induction cs using Hex.decodeChars.induct with
  | case1 =>
      cases rest with
      | nil => rfl
      | cons c rest =>
          have hnil : rest = [] := List.length_eq_zero_iff.mp (by simpa using hrest)
          rw [hnil]
          rfl
  | case2 a => exact absurd heven (by simp)
  | case3 a b cs ih =>
      have heven' : cs.length % 2 = 0 := by
        simp only [List.length_cons] at heven
        omega
      show (Hex.byte a b).bind (fun x => (hexDecodeChars (cs ++ rest)).map (x :: ·)) = _
      rw [ih heven']
      rfl

theorem hexDecodeChars_of_even {cs : List Char} (heven : cs.length % 2 = 0) :
    hexDecodeChars cs = Hex.decodeChars cs := by
  have hpairs := @hexDecodeChars_append cs [] heven (Nat.zero_le 1)
  rwa [List.append_nil] at hpairs

/-- A token that the client can decode decodes to the same key at the relay. -/
theorem hexDecode_of_decode {token : String} {key : Bytes} (h : Hex.decode token = some key) :
    hexDecode token = some key := by
  obtain ⟨hlen, hall⟩ := Hex.utf8Size_of_decode h
  -- every digit is one byte, so the byte length is even too
  have hsize : token.utf8ByteSize = 2 * key.length := by
    rw [CharIndex.utf8ByteSize_eq_byteLen, CharIndex.byteLen_of_ascii hall, hlen]
  unfold hexDecode
  rw [if_pos (by omega), hexDecodeChars_of_even (by omega)]
  exact h

/-! ## §5. The client computes what the relay expects. -/

/-- The MAC that the relay computes. -/
def expectedMac (hmac : Bytes → Bytes → Bytes) (relayId authToken nonce : String) :
    Option Bytes :=
  (hexDecode authToken).map fun key => hmac key (utf8 (authMessage relayId nonce))

/-- The challenge is one line, and the client reads its fields in it. -/
structure Codec.CarriesChallenge (codec : Codec) (relayId nonce : String) : Prop where
  line      : '\n' ∉ (codec.write (challengeJson relayId nonce)).toList
  challenge : codec.unmarshal (codec.write (challengeJson relayId nonce) ++ "\n")
    = some { protocol := "jmux-relay-auth", version := 1, relayID := relayId, nonce }

theorem readString_line {line rest : List Char} (h : '\n' ∉ line) :
    readString (line ++ '\n' :: rest) = some (String.ofList line ++ "\n") := by
  have htake : (line ++ '\n' :: rest).takeWhile (· ≠ '\n') = line := by
    rw [List.takeWhile_append_of_pos fun c hc => decide_eq_true (ne_of_mem_of_not_mem hc h)]
    simp
  unfold readString
  rw [if_pos (by simp), htake, String.ofList_append]

/-- The client's MAC, when its reading of the challenge is the relay's writing. -/
theorem clientMac_eq (hmac : Bytes → Bytes → Bytes) {codec : Codec} {relayId nonce : String}
    (hc : codec.CarriesChallenge relayId nonce) (authToken : String) (more : List Char) :
    clientMac hmac codec ⟨relayId, authToken⟩
        ((codec.write (challengeJson relayId nonce)).toList ++ '\n' :: more)
      = if nonce = "" then .error "relay auth challenge mismatch"
        else
          match Hex.decode authToken with
          | none => .error "invalid relay auth token"
          | some key => .ok (hmac key (utf8 (authMessage relayId nonce))) := by
  unfold clientMac
  rw [readString_line hc.line, String.ofList_toList]
  dsimp only
  rw [hc.challenge]
  by_cases hnonce : nonce = ""
  · simp [hnonce]
  · -- both programs write the version as the digit 1
    have hmessage : "relay_id=" ++ relayId ++ "\nnonce=" ++ nonce ++ "\nversion="
        ++ toString (1 : Int) = authMessage relayId nonce := by
      have hone : "\nversion=" ++ toString (1 : Int) = "\nversion=1" := by decide
      unfold authMessage
      rw [@String.append_assoc _ "\nversion=" _, hone]
    simp only [hnonce, not_true_eq_false, ne_eq, or_self, if_false, computeRelayMAC, hmessage]

/-- **An honest client computes the MAC that the relay expects**, whatever the
token, the relay id and the nonce are. -/
theorem client_mac_expected (hmac : Bytes → Bytes → Bytes) {codec : Codec}
    {relayId nonce authToken : String} (hc : codec.CarriesChallenge relayId nonce)
    {more : List Char} {mac : Bytes}
    (h : clientMac hmac codec ⟨relayId, authToken⟩
      ((codec.write (challengeJson relayId nonce)).toList ++ '\n' :: more) = .ok mac) :
    expectedMac hmac relayId authToken nonce = some mac := by
  rw [clientMac_eq hmac hc] at h
  split at h
  · cases h
  · split at h
    · cases h
    next key hkey =>
      unfold expectedMac
      rw [hexDecode_of_decode hkey]
      exact congrArg some (Except.ok.inj h)

/-- With a token of `RelayServer::start` the client does answer. -/
theorem client_answers (hmac : Bytes → Bytes → Bytes) {codec : Codec} {relayId nonce : String}
    (hc : codec.CarriesChallenge relayId nonce) (hnonce : nonce ≠ "") (token : Bytes)
    (more : List Char) :
    clientMac hmac codec ⟨relayId, Hex.encode token⟩
        ((codec.write (challengeJson relayId nonce)).toList ++ '\n' :: more)
      = .ok (hmac token (utf8 (authMessage relayId nonce))) := by
  rw [clientMac_eq hmac hc, if_neg hnonce, Hex.decode_encode]

theorem toText_ne_empty (draw : UuidBytes) : draw.toText ≠ "" := fun h =>
  draw.toText_ne_nil (by rw [h]; rfl)

/-! ## §6. A line that passes. -/

/-- The line has the relay's id, and the MAC for this nonce. -/
def Accepts (hmac : Bytes → Bytes → Bytes) (codec : Codec) (relayId authToken nonce line : String) :
    Prop :=
  ∃ response mac, codec.parse (Str.trim line) = some response ∧
    answerField response "relay_id" = relayId ∧
    expectedMac hmac relayId authToken nonce = some mac ∧
    answerField response "mac" = Hex.encode mac

/-- **The check passes exactly for such a line.** -/
theorem authenticate_iff (hmac : Bytes → Bytes → Bytes) (codec : Codec)
    (relayId authToken nonce line : String) :
    authenticate hmac codec relayId authToken nonce line = .ok ()
      ↔ Accepts hmac codec relayId authToken nonce line := by
  unfold authenticate Accepts expectedMac
  cases hparse : codec.parse (Str.trim line) with
  | none => simp
  | some response =>
      dsimp only
      by_cases hid : answerField response "relay_id" = relayId
      · rw [if_neg (not_not.mpr hid)]
        cases hkey : hexDecode authToken with
        | none => simp
        | some key =>
            dsimp only
            constructor
            · intro h
              split at h
              next hverify =>
                exact ⟨response, _, rfl, hid, rfl, (verifyHmacRaw_iff _ _ _ _).mp hverify⟩
              · cases h
            · rintro ⟨response', mac, hresponse, _, hmac', hfield⟩
              obtain rfl := Option.some.inj hresponse
              obtain rfl := Option.some.inj hmac'
              rw [if_pos ((verifyHmacRaw_iff _ _ _ _).mpr hfield)]
      · rw [if_pos hid]
        refine iff_of_false (by simp) ?_
        rintro ⟨response', _, hresponse, hid', _⟩
        obtain rfl := Option.some.inj hresponse
        exact hid hid'

end Jmux.Remote
