/-
  Jmux.Remote.ProxyFragments — a request of the proxy and the reads it arrives in.

  The protocol is recognised by the first read, the length of a domain name is taken
  as soon as four bytes of the request are there, and a header is refused when it is
  too long between two reads; for the rest the reads do not matter.

  Main results:
    * `relay_forwards`     — a relay that nothing disturbs hands on what arrives.
    * `request_intake`     — what a connection makes of the reads of a request.
    * `request_served_iff` — the reads in which a request is served.
    * `domain_panics_late` — a read that ends right before a domain name.
-/
import Jmux.Remote.ProxyStreams

namespace Jmux.Remote

open Jmux.Lib ProxyRun

/-! ## §1. Requests. -/

inductive ProxyAddress
  | ipv4 (a b c d : UInt8)
  | domain (name : Bytes) (short : name.length < 256)
  | ipv6 (octets : Bytes) (length : octets.length = 16)

/-- The type of the address and the address. -/
def ProxyAddress.bytes : ProxyAddress → Bytes
  | ipv4 a b c d => [0x01, a, b, c, d]
  | domain name _ => 0x03 :: UInt8.ofNat name.length :: name
  | ipv6 octets _ => 0x04 :: octets

def ProxyAddress.host : ProxyAddress → String
  | ipv4 a b c d => ipv4Text [a, b, c, d]
  | domain name _ => domainText name
  | ipv6 octets _ => ipv6Text octets

def ProxyAddress.isDomain : ProxyAddress → Bool
  | domain _ _ => true
  | _ => false

/-- A request to connect; the header of an HTTP request ends with its first blank
line and names a host and a port. -/
inductive ConnectRequest
  | socks5 (methods : Bytes) (short : methods.length < 256) (address : ProxyAddress) (hi lo : UInt8)
  | http (head : Bytes) (host : String) (port : Nat) (method : connectPrefix <+: head)
      (whole : headerEnd head = some head.length) (target : httpTarget head = .ok (host, port))

namespace ConnectRequest

/-- The greeting of a SOCKS5 client. -/
def greeting (methods : Bytes) : Bytes := 0x05 :: UInt8.ofNat methods.length :: methods

/-- What the client sends before its payload. -/
def bytes : ConnectRequest → Bytes
  | socks5 methods _ address hi lo =>
      greeting methods ++ (0x05 :: 0x01 :: 0x00 :: address.bytes ++ [hi, lo])
  | http head _ _ _ _ _ => head

def host : ConnectRequest → String
  | socks5 _ _ address _ _ => address.host
  | http _ host _ _ _ _ => host

def port : ConnectRequest → Nat
  | socks5 _ _ _ hi lo => portOf [hi, lo]
  | http _ _ port _ _ _ => port

end ConnectRequest

/-! ## §2. Reads. -/

abbrev ReadChunk := Fill.Chunk UInt8

/-- The reads that give these bytes, one after the other. -/
def readsOf (chunks : List ReadChunk) : List LocalRead := chunks.map .data

theorem received_readsOf (chunks : List ReadChunk) :
    Fill.received (readsOf chunks) = chunks.flatMap (·.items) := by
  induction chunks with
  | nil => rfl
  | cons chunk rest ih =>
      show chunk.items ++ Fill.received (readsOf rest) = _
      rw [ih]
      rfl

theorem firstError_readsOf (chunks : List ReadChunk) : Fill.firstError (readsOf chunks) = none := by
  induction chunks with
  | nil => rfl
  | cons chunk rest ih => exact ih

/-- A read ends after `n` bytes of the stream. -/
def endsAt (chunks : List ReadChunk) (n : Nat) : Bool := Fill.boundary n 0 (readsOf chunks)

/-- The reads in which the handler takes the request up. -/
def ConnectRequest.CleanCuts (chunks : List ReadChunk) : ConnectRequest → Prop
  | .socks5 methods _ address _ _ =>
      -- the first read has the version and the number of methods
      endsAt chunks 1 = false ∧
      -- none ends right before a domain name
      (address.isDomain = true → endsAt chunks (2 + methods.length + 4) = false)
  | .http head _ _ _ _ _ =>
      -- the first read has the method
      (∀ n, 0 < n → n < connectPrefix.length → endsAt chunks n = false) ∧
      -- none ends late in the header
      ∀ n, maxHttpHeader < n → n < head.length → endsAt chunks n = false

/-! ## §3. What is handed on. -/

/-- The hosts and ports that streams were opened to. -/
def openings (calls : List RpcCall) : List (String × Nat) :=
  calls.filterMap fun
    | .open host port _ => some (host, port)
    | _ => none

/-- What was written to the stream. -/
def forwarded (streamId : Nat) (calls : List RpcCall) : Bytes :=
  calls.flatMap fun
    | .write id data => if id = streamId then data else []
    | _ => []

/-- Every call succeeds, and the remote side keeps its stream open. -/
structure Peers.Willing (p : Peers) (streamId : Nat) : Prop where
  auth       : p.authWritten = .ok ()
  opened     : p.opened = .ok streamId
  subscribed : p.subscribed = .ok ()
  replied    : p.replied = .ok ()
  payload    : p.payloadWritten = .ok ()
  written    : ∀ k, (p.turn k).written = .ok ()
  event      : ∀ k, (p.turn k).event = .empty ∨
    ∃ data, (p.turn k).event = .event (.data data) ∧ (p.turn k).delivered = .ok ()

/-- The stream goes where the request says, and the payload goes into it. -/
def Served (p : Peers) (streamId : Nat) (chunks : List ReadChunk) (req : ConnectRequest)
    (payload : Bytes) : Prop :=
  ∃ fuel r c', handleProxyConnection fuel p { reads := readsOf chunks } = some (r, c') ∧
    r ≠ .error .panicked ∧ openings c'.calls = [(req.host, req.port)] ∧
    forwarded streamId c'.calls = payload

theorem openings_append (calls calls' : List RpcCall) :
    openings (calls ++ calls') = openings calls ++ openings calls' := List.filterMap_append

theorem forwarded_append (streamId : Nat) (calls calls' : List RpcCall) :
    forwarded streamId (calls ++ calls') = forwarded streamId calls ++ forwarded streamId calls' :=
  List.flatMap_append

theorem forwarded_write (streamId : Nat) (data : Bytes) :
    forwarded streamId [.write streamId data] = data := by
  simp [forwarded]

section Willing

variable {p : Peers} {streamId : Nat}

theorem localTurn_willing (hp : p.Willing streamId) (k : Nat) {c : ProxyConn} {chunk : ReadChunk}
    {rest : List LocalRead} (h : c.reads = .data chunk :: rest) :
    localTurn p streamId k c = some (.ok true,
      { c with reads := rest, calls := c.calls ++ [.write streamId chunk.items] }) := by
  rw [localTurn_data streamId k h, hp.written]
  rfl

theorem remoteTurn_willing (hp : p.Willing streamId) (k : Nat) (c : ProxyConn) :
    ∃ sent, remoteTurn p streamId k c = some (.ok true, { c with sent := sent }) := by
  rw [remoteTurn_eq]
  rcases hp.event k with hempty | ⟨data, hdata, hdelivered⟩
  · rw [hempty]
    exact ⟨c.sent, rfl⟩
  · rw [hdata, hdelivered]
    exact ⟨c.sent ++ [data], rfl⟩

/-- A relay that nothing disturbs hands on what arrives, and closes the stream. -/
theorem relay_forwards (hp : p.Willing streamId) {reads : List LocalRead}
    (hok : Fill.firstError reads = none) (k : Nat) (c : ProxyConn) (hreads : c.reads = reads) :
    ∃ c', Leads (fun fuel => relayStreams p streamId fuel k) c (some (.ok (), c')) ∧
      openings c'.calls = openings c.calls ∧
      forwarded streamId c'.calls = forwarded streamId c.calls ++ Fill.received reads := by
  induction reads generalizing k c with
  | nil =>
      refine ⟨c.closed streamId, leads_of_ended (relay_local_ended
        (localTurn_eof streamId k hreads) (.inl rfl)), ?_, ?_⟩
      · show openings (c.calls ++ _) = _
        rw [openings_append]
        exact List.append_nil _
      · show forwarded streamId (c.calls ++ _) = _
        rw [forwarded_append]
        rfl
  | cons read rest ih =>
      cases read with
      | err e => exact absurd hok (by simp [Fill.firstError])
      | data chunk =>
          have hlocal := localTurn_willing hp k hreads
          obtain ⟨sent, hremote⟩ := remoteTurn_willing hp k
            { c with reads := rest, calls := c.calls ++ [.write streamId chunk.items] }
          obtain ⟨c', hleads, hopenings, hforwarded⟩ := ih hok (k + 1)
            { c with reads := rest, sent, calls := c.calls ++ [.write streamId chunk.items] } rfl
          refine ⟨c', leads_of_next hlocal hremote ?_ hleads, ?_, ?_⟩
          · rw [hreads]
            exact Nat.lt_succ_self _
          · rw [hopenings, openings_append]
            exact List.append_nil _
          · rw [hforwarded, forwarded_append, forwarded_write, List.append_assoc]
            rfl

theorem openings_opened (c : ProxyConn) (req : ProxyRequest) (reply : Bytes) :
    openings (c.opened req streamId reply).calls = openings c.calls ++ [(req.host, req.port)] := by
  unfold ProxyConn.opened
  rw [openings_append]
  rfl

theorem forwarded_opened (c : ProxyConn) (req : ProxyRequest) (reply : Bytes) :
    forwarded streamId (c.opened req streamId reply).calls = forwarded streamId c.calls := by
  unfold ProxyConn.opened
  rw [forwarded_append]
  exact List.append_nil _

/-- The payload behind the request goes first. -/
theorem tunnel_serves (hp : p.Willing streamId) {c : ProxyConn}
    (hok : Fill.firstError c.reads = none) (reply : Bytes) (context : String) (req : ProxyRequest) :
    ∃ c', Leads (fun fuel => tunnel fuel p reply context req) c (some (.ok (), c')) ∧
      openings c'.calls = openings c.calls ++ [(req.host, req.port)] ∧
      forwarded streamId c'.calls =
        forwarded streamId c.calls ++ (req.payload ++ Fill.received c.reads) := by
  by_cases hpayload : req.payload = []
  · obtain ⟨c', hleads, hopenings, hforwarded⟩ := relay_forwards hp hok 0
      (c.opened req streamId reply) rfl
    refine ⟨c', hleads.congr (fun fuel => tunnel_relay fuel reply context c hp.opened hp.subscribed
      hp.replied hpayload) (le_refl _), ?_, ?_⟩
    · rw [hopenings, openings_opened]
    · rw [hforwarded, forwarded_opened, hpayload]
      rfl
  · obtain ⟨c', hleads, hopenings, hforwarded⟩ := relay_forwards hp hok 0
      ((c.opened req streamId reply).called (.write streamId req.payload)) rfl
    refine ⟨c', hleads.congr (fun fuel => tunnel_payload fuel reply context c hp.opened
      hp.subscribed hp.replied hpayload hp.payload) (le_refl _), ?_, ?_⟩
    · rw [hopenings]
      show openings ((c.opened req streamId reply).calls ++ _) = _
      rw [openings_append, openings_opened]
      exact List.append_nil _
    · rw [hforwarded]
      show forwarded streamId ((c.opened req streamId reply).calls ++ _) ++ _ = _
      rw [forwarded_append, forwarded_opened, forwarded_write, List.append_assoc]

end Willing

/-! ## §4. Connections. -/

section Served

variable {p : Peers} {streamId : Nat} {chunks : List ReadChunk} {req : ConnectRequest}
  {payload : Bytes}

/-- What a connection leads to decides whether the request is served. -/
theorem served_iff_of_leads {r : Except ProxyEnd Unit} {c' : ProxyConn}
    (h : Leads (fun fuel => handleProxyConnection fuel p) { reads := readsOf chunks }
      (some (r, c'))) :
    Served p streamId chunks req payload ↔ r ≠ .error .panicked ∧
      openings c'.calls = [(req.host, req.port)] ∧ forwarded streamId c'.calls = payload := by
  constructor
  · rintro ⟨fuel, r', c'', hrun, hserved⟩
    obtain ⟨rfl, rfl⟩ := Prod.mk.inj (h.eq_of_run hrun)
    exact hserved
  · intro hserved
    exact ⟨_, r, c', h.2 _ (Nat.lt_succ_self _), hserved⟩

theorem endsAt_cons (first : ReadChunk) (rest : List ReadChunk) {n : Nat} (hn : 0 < n) :
    endsAt (first :: rest) n = Fill.boundary n first.items.length (readsOf rest) := by
  show (decide (0 = n) || Fill.boundary n (0 + first.items.length) (readsOf rest)) = _
  rw [decide_eq_false (by omega), Bool.false_or, Nat.zero_add]

/-- A connection whose first byte is that of SOCKS5. -/
theorem connection_socks5 {first : ReadChunk} {tail : Bytes} (rest : List ReadChunk)
    (h : first.items = 0x05 :: tail) (fuel : Nat) :
    handleProxyConnection fuel p { reads := readsOf (first :: rest) } =
      handleSocks5 fuel p (0x05 :: tail) { reads := readsOf rest } := by
  obtain ⟨items, hne⟩ := first
  obtain rfl : items = 0x05 :: tail := h
  rfl

theorem connection_http {first : ReadChunk} {tail : Bytes} (rest : List ReadChunk)
    (h : first.items = 0x43 :: tail) (fuel : Nat) :
    handleProxyConnection fuel p { reads := readsOf (first :: rest) } =
      if connectPrefix.isPrefixOf (0x43 :: tail) then
        handleHttpConnect fuel p (0x43 :: tail) { reads := readsOf rest }
      else some (.error (.error ("Unknown proxy protocol: first byte " ++ hexByte 0x43)),
        { reads := readsOf rest }) := by
  obtain ⟨items, hne⟩ := first
  obtain rfl : items = 0x43 :: tail := h
  show (if (0x43 : UInt8) = 0x05 then handleSocks5 fuel p (0x43 :: tail)
    else if connectPrefix.isPrefixOf (0x43 :: tail) then handleHttpConnect fuel p (0x43 :: tail)
    else fail ("Unknown proxy protocol: first byte " ++ hexByte 0x43)) { reads := readsOf rest } = _
  rw [if_neg (by decide)]
  split <;> rfl

end Served

/-- What a connection makes of the reads of a request: it reads the request and goes on
with a tunnel, or it ends before any call. -/
inductive Intake (p : Peers) (chunks : List ReadChunk) (req : ConnectRequest) (payload : Bytes) : Prop
  | taken (protocol : ProxyProtocol) (r : ProxyRequest) (c' : ProxyConn)
      (clean : req.CleanCuts chunks)
      (fits : Fits r { reads := readsOf chunks.tail } c' { host := req.host, port := req.port, payload })
      (leads : ∀ {answer}, Leads (fun fuel => tunnel fuel p protocol.reply protocol.replyContext r)
        c' answer → Leads (fun fuel => handleProxyConnection fuel p) { reads := readsOf chunks } answer)
  | refused (e : ProxyEnd) (c' : ProxyConn) (cut : ¬ req.CleanCuts chunks) (calls : c'.calls = [])
      (leads : Leads (fun fuel => handleProxyConnection fuel p) { reads := readsOf chunks }
        (some (.error e, c')))

theorem served_iff_of_intake (hp : p.Willing streamId) (h : Intake p chunks req payload) :
    Served p streamId chunks req payload ↔ req.CleanCuts chunks := by
  cases h with
  | taken protocol r c' clean fits leads =>
      obtain ⟨c'', htunnel, hopenings, hforwarded⟩ := tunnel_serves hp
        (fits.error.trans (firstError_readsOf chunks.tail)) protocol.reply protocol.replyContext r
      rw [served_iff_of_leads (leads htunnel)]
      refine iff_of_true ⟨by simp, ?_, ?_⟩ clean
      · rw [hopenings, fits.calls, fits.host, fits.port]
        rfl
      · rw [hforwarded, fits.calls, fits.payload]
        rfl
  | refused e c' cut calls leads =>
      rw [served_iff_of_leads leads]
      refine iff_of_false (fun h => ?_) cut
      rw [calls] at h
      exact absurd h.2.1 (by simp [openings])

/-! ## §5. A SOCKS5 request. -/

section Socks5

theorem toNat_length {name : Bytes} (h : name.length < 256) :
    (UInt8.ofNat name.length).toNat = name.length :=
  UInt8.toNat_ofNat_of_lt h

/-- An address behind its header, with the port and the payload behind it. -/
theorem addressRequest_eq (host : Bytes → String) (front : Bytes) {address : Bytes} {start len : Nat}
    (hfront : front.length = start) (haddress : address.length = len) (hi lo : UInt8)
    (payload : Bytes) :
    addressRequest host start len (front ++ (address ++ ([hi, lo] ++ payload))) =
      { host := host address, port := portOf [hi, lo], payload } := by
  have hboth : (front ++ address).length = start + len := by
    rw [List.length_append, hfront, haddress]
  have hport : (front ++ address ++ [hi, lo]).length = start + len + 2 := by
    rw [List.length_append, hboth]
    rfl
  have hbytes : front ++ (address ++ ([hi, lo] ++ payload)) =
      front ++ address ++ [hi, lo] ++ payload := by simp
  unfold addressRequest
  rw [hbytes, List.take_left' hport, List.drop_left' hport, List.drop_left' hboth,
    List.append_assoc (front ++ address), List.take_left' hboth, List.drop_left' hfront]

/-- The stream behind the greeting holds the request. -/
theorem requestOf_eq (address : ProxyAddress) (hi lo : UInt8) (payload : Bytes) :
    requestOf (0x05 :: 0x01 :: 0x00 :: address.bytes ++ [hi, lo] ++ payload) =
      { host := address.host, port := portOf [hi, lo], payload } := by
  cases address with
  | ipv4 a b c d => rfl
  | domain name short =>
      have hbytes : (0x05 :: 0x01 :: 0x00 :: (ProxyAddress.domain name short).bytes ++ [hi, lo] ++
          payload : Bytes) = [0x05, 0x01, 0x00, 0x03, UInt8.ofNat name.length] ++
            (name ++ ([hi, lo] ++ payload)) := by simp [ProxyAddress.bytes]
      rw [hbytes]
      show addressRequest domainText 5 (UInt8.ofNat name.length).toNat _ = _
      exact addressRequest_eq domainText [0x05, 0x01, 0x00, 0x03, UInt8.ofNat name.length] rfl (toNat_length short).symm hi lo payload
  | ipv6 octets length =>
      have hbytes : (0x05 :: 0x01 :: 0x00 :: (ProxyAddress.ipv6 octets length).bytes ++ [hi, lo] ++
          payload : Bytes) = [0x05, 0x01, 0x00, 0x04] ++
            (octets ++ ([hi, lo] ++ payload)) := by simp [ProxyAddress.bytes]
      rw [hbytes]
      show addressRequest ipv6Text 4 16 _ = _
      exact addressRequest_eq ipv6Text [0x05, 0x01, 0x00, 0x04] rfl length hi lo payload

variable {p : Peers} {streamId : Nat} {chunks : List ReadChunk} {payload : Bytes}

/-- The handshake of a whole request gets to its address, which is not cut short. -/
theorem request_reaches (hauth : p.authWritten = .ok ()) {methods : Bytes}
    (short : methods.length < 256) (address : ProxyAddress) (hi lo : UInt8) {initial : Bytes}
    {reads : List LocalRead} (hinitial : 2 ≤ initial.length)
    (hbytes : initial ++ Fill.received reads =
      (ConnectRequest.socks5 methods short address hi lo).bytes ++ payload) :
    (initial ++ Fill.received reads).drop (2 + methods.length) =
      0x05 :: 0x01 :: 0x00 :: address.bytes ++ [hi, lo] ++ payload ∧
    ∃ atyp rest, ReachesAddress p initial reads (2 + methods.length) atyp rest ∧
      isAddressType atyp = true ∧ (atyp = 0x03 ↔ address.isDomain = true) ∧
      ¬ StuckInAddress p initial reads := by
  have hgreeting : (ConnectRequest.greeting methods).length = 2 + methods.length := by
    simp only [ConnectRequest.greeting, List.length_cons]
    omega
  have hdrop : (initial ++ Fill.received reads).drop (2 + methods.length) =
      0x05 :: 0x01 :: 0x00 :: address.bytes ++ [hi, lo] ++ payload := by
    rw [hbytes]
    show (ConnectRequest.greeting methods ++ _ ++ payload).drop _ = _
    rw [List.append_assoc, List.drop_left' hgreeting]
  have hstart : ∃ tail, initial = 0x05 :: UInt8.ofNat methods.length :: tail := by
    rcases initial with _ | ⟨a, _ | ⟨b, tail⟩⟩
    · exact absurd hinitial (by simp)
    · exact absurd hinitial (by simp)
    · have hcons := List.cons.inj hbytes
      have hcons' := List.cons.inj hcons.2
      exact ⟨tail, by rw [hcons.1, hcons'.1]⟩
  obtain ⟨tail, rfl⟩ := hstart
  refine ⟨hdrop, ?_⟩
  have hreach : ∀ {atyp body}, address.bytes = atyp :: body →
      ReachesAddress p (0x05 :: UInt8.ofNat methods.length :: tail) reads (2 + methods.length) atyp
        (body ++ [hi, lo] ++ payload) := by
    intro atyp body h
    rw [h] at hdrop
    exact ⟨_, tail, 0x00, rfl, by rw [toNat_length short], hauth, hdrop⟩
  cases address with
  | ipv4 a b c d =>
      refine ⟨0x01, _, hreach rfl, rfl, iff_of_false (by decide) Bool.false_ne_true, ?_⟩
      rintro ⟨-, s, atyp, rest, h, hshort⟩
      obtain ⟨-, rfl, rfl⟩ := (@hreach 0x01 [a, b, c, d] rfl).unique h
      simp at hshort
      omega
  | domain name short' =>
      refine ⟨0x03, _, hreach rfl, rfl, iff_of_true rfl rfl, ?_⟩
      rintro ⟨-, s, atyp, rest, h, hshort⟩
      obtain ⟨-, rfl, rfl⟩ := (@hreach 0x03 (UInt8.ofNat name.length :: name) rfl).unique h
      rcases hshort with ⟨h, -⟩ | ⟨h, -⟩ | ⟨-, -, len, more, hmore, hlt⟩
      · exact absurd h (by decide)
      · exact absurd h (by decide)
      · obtain ⟨rfl, rfl⟩ := List.cons.inj hmore
        have hfull : (name ++ [hi, lo] ++ payload).length = name.length + 2 + payload.length := by
          simp only [List.length_append, List.length_cons, List.length_nil]
        have hlt' : (name ++ [hi, lo] ++ payload).length < name.length + 2 := by
          rw [toNat_length short'] at hlt
          exact hlt
        rw [hfull] at hlt'
        omega
  | ipv6 octets length =>
      refine ⟨0x04, _, hreach rfl, rfl, iff_of_false (by decide) Bool.false_ne_true, ?_⟩
      rintro ⟨-, s, atyp, rest, h, hshort⟩
      obtain ⟨-, rfl, rfl⟩ := (@hreach 0x04 octets rfl).unique h
      simp [length] at hshort
      omega

theorem socks5_intake (hauth : p.authWritten = .ok ()) {methods : Bytes}
    (short : methods.length < 256) (address : ProxyAddress) (hi lo : UInt8)
    (hbytes : chunks.flatMap (·.items) =
      (ConnectRequest.socks5 methods short address hi lo).bytes ++ payload) :
    Intake p chunks (.socks5 methods short address hi lo) payload := by
  cases chunks with
  | nil => exact absurd hbytes (by simp [ConnectRequest.bytes, ConnectRequest.greeting])
  | cons first rest =>
  have hfirst : ∃ tail, first.items = 0x05 :: tail := by
    cases hitems : first.items with
    | nil => exact absurd hitems first.nonempty
    | cons a tail =>
        rw [List.flatMap_cons, hitems] at hbytes
        exact ⟨tail, by rw [(List.cons.inj hbytes).1]⟩
  obtain ⟨tail, hitems⟩ := hfirst
  have hstream : (0x05 :: tail) ++ Fill.received (readsOf rest) =
      (ConnectRequest.socks5 methods short address hi lo).bytes ++ payload := by
    rw [received_readsOf, ← hitems]
    exact hbytes
  have hcongr : ∀ {r}, Leads (fun fuel => handleSocks5 fuel p (0x05 :: tail)) { reads := readsOf rest }
      r → Leads (fun fuel => handleProxyConnection fuel p) { reads := readsOf (first :: rest) } r :=
    fun h => h.congr (connection_socks5 rest hitems) (Nat.le_succ _)
  have hone : endsAt (first :: rest) 1 = decide (tail = []) := by
    rw [endsAt_cons first rest Nat.one_pos, Fill.boundary_of_le 1 _ _ first.length_pos, hitems]
    cases tail <;> simp
  have hclean : (ConnectRequest.socks5 methods short address hi lo).CleanCuts (first :: rest) ↔
      tail ≠ [] ∧
        (address.isDomain = true → endsAt (first :: rest) (2 + methods.length + 4) = false) := by
    show endsAt (first :: rest) 1 = false ∧ _ ↔ _
    rw [hone, decide_eq_false_iff_not]
  by_cases htail : tail = []
  · -- the greeting is not taken for one
    subst htail
    have hleads : Leads (fun fuel => handleSocks5 fuel p [0x05]) { reads := readsOf rest }
        (some (.error (.error "Invalid SOCKS5 greeting"), { reads := readsOf rest })) :=
      leads_of_eq fun _ => rfl
    exact .refused _ _ (fun h => (hclean.mp h).1 rfl) rfl (hcongr hleads)
  · have hlength : 2 ≤ (0x05 :: tail).length := by
      have := List.length_pos_of_ne_nil htail
      rw [List.length_cons]
      omega
    obtain ⟨hdrop, atyp, bytes, hreach, htype, hdomain, hnot⟩ :=
      request_reaches hauth short address hi lo hlength hstream
    have hends : endsAt (first :: rest) (2 + methods.length + 4) =
        Fill.boundary (2 + methods.length + 4) (0x05 :: tail).length (readsOf rest) := by
      rw [endsAt_cons first rest (by omega), hitems]
    rw [hends] at hclean
    cases socks5_handshake p (0x05 :: tail) { reads := readsOf rest } with
    | request req c' start atyp' bytes' leads reach fits whole goesOn =>
        obtain ⟨rfl, rfl, rfl⟩ := hreach.unique reach
        rw [hdrop, requestOf_eq] at fits
        refine .taken .socks5 req c' (hclean.mpr ⟨htail, fun h => ?_⟩) fits fun htunnel =>
          hcongr (leads.bind fits.fewer htunnel)
        rw [Bool.eq_false_iff]
        exact fun hcut => whole ⟨_, _, (hdomain.mpr h) ▸ hreach, hcut⟩
    | error message c' leads failed whole goesOn =>
        exact absurd (firstError_readsOf rest) (failed _ _ _ hreach htype)
    | panicked c' leads cut goesOn =>
        have hcalls := quiet_socks5 _ p (0x05 :: tail) _ _ _ (leads.2 _ (Nat.lt_succ_self _))
        refine .refused .panicked c' (fun h => ?_) hcalls (hcongr leads.bind_error)
        obtain ⟨start, bytes', hreach', hboundary⟩ := cut
        obtain ⟨rfl, rfl, -⟩ := hreach.unique hreach'
        rw [(hclean.mp h).2 (hdomain.mp rfl)] at hboundary
        exact absurd hboundary (by decide)
    | stuck leads whole spins => exact absurd spins hnot

end Socks5

/-! ## §6. An HTTP request. -/

theorem headerEnd_range {buf : Bytes} {n : Nat} (h : headerEnd buf = some n) :
    4 ≤ n ∧ n ≤ buf.length := by
  induction buf generalizing n with
  | nil => exact absurd h (by simp [headerEnd])
  | cons b rest ih =>
      rw [headerEnd] at h
      split at h
      · rename_i hprefix
        have hlength := (List.isPrefixOf_iff_prefix.mp hprefix).length_le
        rw [← Option.some.inj h]
        exact ⟨le_refl 4, hlength⟩
      · obtain ⟨m, hm, rfl⟩ := Option.map_eq_some_iff.mp h
        have hrange := ih hm
        rw [List.length_cons]
        omega

/-- The end of a header stays where it is when more arrives. -/
theorem headerEnd_append {buf : Bytes} {n : Nat} (h : headerEnd buf = some n) (more : Bytes) :
    headerEnd (buf ++ more) = some n := by
  induction buf generalizing n with
  | nil => exact absurd h (by simp [headerEnd])
  | cons b rest ih =>
      have hlong := (headerEnd_range h).1.trans (headerEnd_range h).2
      have hsame : [0x0d, 0x0a, 0x0d, 0x0a].isPrefixOf (b :: rest ++ more) =
          [0x0d, 0x0a, 0x0d, 0x0a].isPrefixOf (b :: rest) := by
        rcases rest with _ | ⟨c, _ | ⟨d, _ | ⟨e, rest⟩⟩⟩
        · exact absurd hlong (by simp)
        · exact absurd hlong (by simp)
        · exact absurd hlong (by simp)
        · simp [List.isPrefixOf]
      rw [headerEnd] at h
      rw [List.cons_append, headerEnd, ← List.cons_append, hsame]
      split at h
      · rename_i hprefix
        rw [if_pos hprefix]
        exact h
      · rename_i hprefix
        obtain ⟨m, hm, rfl⟩ := Option.map_eq_some_iff.mp h
        rw [if_neg hprefix, ih hm]
        rfl

/-- A beginning of the stream has the whole header exactly when it is long enough. -/
theorem headerEnd_isSome {head payload b : Bytes} (h : headerEnd head = some head.length)
    (hb : b <+: head ++ payload) : (headerEnd b).isSome = Fill.atLeast head.length b := by
  unfold Fill.atLeast
  rcases List.prefix_or_prefix_of_prefix hb (List.prefix_append head payload) with
    ⟨more, rfl⟩ | ⟨more, rfl⟩
  · cases hend : headerEnd b with
    | some n =>
        have hsame := headerEnd_append hend more
        rw [h] at hsame
        have hrange := (headerEnd_range hend).2
        rw [← Option.some.inj hsame] at hrange
        exact (decide_eq_true hrange).symm
    | none =>
        refine (decide_eq_false fun hlong => ?_).symm
        have hmore : more = [] := by
          rw [List.length_append] at hlong
          exact List.eq_nil_of_length_eq_zero (by omega)
        rw [hmore, List.append_nil, hend] at h
        exact absurd h (by simp)
  · rw [headerEnd_append h more, List.length_append]
    exact (decide_eq_true (Nat.le_add_right _ _)).symm

theorem mem_of_headerEnd {buf : Bytes} {n : Nat} (h : headerEnd buf = some n) : 0x0d ∈ buf := by
  induction buf generalizing n with
  | nil => exact absurd h (by simp [headerEnd])
  | cons b rest ih =>
      rw [headerEnd] at h
      split at h
      · rename_i hprefix
        exact (List.isPrefixOf_iff_prefix.mp hprefix).subset List.mem_cons_self
      · obtain ⟨m, hm, -⟩ := Option.map_eq_some_iff.mp h
        exact List.mem_cons_of_mem b (ih hm)

/-- The first line stands in the header. -/
theorem httpTarget_append {head : Bytes} (h : headerEnd head = some head.length) (more : Bytes) :
    httpTarget (head ++ more) = httpTarget head := by
  have hline : (head ++ more).takeWhile (· ≠ 0x0d) = head.takeWhile (· ≠ 0x0d) := by
    rw [List.takeWhile_append, if_neg]
    intro hlength
    have hall := (List.takeWhile_prefix (l := head) (· ≠ 0x0d)).eq_of_length hlength
    rw [← hall] at h
    have hmem := List.mem_takeWhile_imp (mem_of_headerEnd h)
    exact absurd hmem (by decide)
  unfold httpTarget
  rw [hline]

section Http

variable {p : Peers} {streamId : Nat} {chunks : List ReadChunk} {payload head initial : Bytes}
  {host : String} {port : Nat}

/-- The header is read to its end exactly when no read before ends too late. -/
theorem httpRequest_leads (whole : headerEnd head = some head.length)
    (target : httpTarget head = .ok (host, port)) (c : ProxyConn)
    (hstream : initial ++ Fill.received c.reads = head ++ payload) :
    (∃ req c', Leads (fun fuel => httpRequest fuel initial) c (some (.ok req, c')) ∧
      Fits req c c' { host, port, payload } ∧
      ∀ n, maxHttpHeader < n → n < head.length → Fill.boundary n initial.length c.reads = false) ∨
    ((∃ message, Leads (fun fuel => httpRequest fuel initial) c (some (.error (.error message), c))) ∧
      ∃ n, maxHttpHeader < n ∧ n < head.length ∧ Fill.boundary n initial.length c.reads = true) := by
  have hcongr : Fill.settle (fun buf => (headerEnd buf).isSome)
      (fun buf => decide (maxHttpHeader < buf.length)) initial c.reads =
      Fill.settle (Fill.atLeast head.length) (fun buf => decide (maxHttpHeader < buf.length))
        initial c.reads :=
    Fill.settle_congr _ _ fun b hb => headerEnd_isSome whole (hstream ▸ hb)
  have hlength : head.length ≤ initial.length + (Fill.received c.reads).length := by
    rw [← List.length_append, hstream, List.length_append]
    omega
  have hfull := @Fill.settle_full_iff _ _ head.length (fun n => decide (maxHttpHeader < n)) initial
    c.reads
  by_cases hends : ∀ m < head.length, Fill.boundary m initial.length c.reads = true →
      decide (maxHttpHeader < m) = false
  · left
    obtain ⟨b, rest, hsettle⟩ := hfull.mpr ⟨hlength, hends⟩
    have hsettled := Fill.settle_full _ hsettle
    have hprefix : head <+: b := by
      have hb : b <+: head ++ payload := by
        rw [← hstream, ← hsettled.stream]
        exact List.prefix_append _ _
      exact List.prefix_of_prefix_length_le (List.prefix_append head payload) hb hsettled.reached
    obtain ⟨more, rfl⟩ := hprefix
    have hpayload : more ++ Fill.received rest = payload := by
      have hsame := hsettled.stream.trans hstream
      rw [List.append_assoc] at hsame
      exact List.append_cancel_left hsame
    have hread := @readUntil_full (some "Connection closed during HTTP CONNECT") _ _
      "HTTP CONNECT headers too large" _ c _ _ (hcongr.trans hsettle)
    refine ⟨{ host, port, payload := more }, { c with reads := rest },
      hread.bind hsettled.fewer (leads_of_eq fun fuel => ?_),
      ⟨rfl, rfl, hpayload, rfl, hsettled.error, hsettled.fewer⟩, fun n hlow hhigh => ?_⟩
    · simp only [headerEnd_append whole, httpTarget_append whole, target]
      rw [bind_ok (attempt_ok "" (host, port))]
      show some (Except.ok _, _) = _
      rw [List.drop_left]
    · rw [Bool.eq_false_iff]
      intro hend
      exact absurd (hends n hhigh hend) (by simpa using hlow)
  · right
    have hnot : ¬ ∃ b rest, Fill.settle (fun buf => (headerEnd buf).isSome)
        (fun buf => decide (maxHttpHeader < buf.length)) initial c.reads = some (.full b rest) := by
      rw [hcongr]
      exact fun h => hends (hfull.mp h).2
    have hstops := @readUntil_stops (some "Connection closed during HTTP CONNECT") _ _
      "HTTP CONNECT headers too large" _ c hnot (.inl (Option.some_ne_none _))
    obtain ⟨message, hread⟩ := hstops
    refine ⟨⟨message, hread.bind_error⟩, ?_⟩
    simp only [not_forall] at hends
    obtain ⟨n, hhigh, hend, hlow⟩ := hends
    exact ⟨n, by simpa using hlow, hhigh, hend⟩

theorem http_intake (p : Peers) (method : connectPrefix <+: head)
    (whole : headerEnd head = some head.length) (target : httpTarget head = .ok (host, port))
    (hbytes : chunks.flatMap (·.items) =
      (ConnectRequest.http head host port method whole target).bytes ++ payload) :
    Intake p chunks (.http head host port method whole target) payload := by
  replace hbytes : chunks.flatMap (·.items) = head ++ payload := hbytes
  cases chunks with
  | nil =>
      have hempty := (List.append_eq_nil_iff.mp hbytes.symm).1
      rw [hempty] at whole
      exact absurd whole (by simp [headerEnd])
  | cons first rest =>
  have hstream : first.items ++ Fill.received (readsOf rest) = head ++ payload := by
    rw [received_readsOf]
    exact hbytes
  have hconnect : connectPrefix <+: first.items ++ Fill.received (readsOf rest) := by
    rw [hstream]
    exact method.trans (List.prefix_append head payload)
  have hfirst : ∃ tail, first.items = 0x43 :: tail := by
    obtain ⟨more, hmore⟩ := hconnect
    cases hitems : first.items with
    | nil => exact absurd hitems first.nonempty
    | cons a tail =>
        rw [hitems] at hmore
        exact ⟨tail, by rw [(List.cons.inj hmore).1]⟩
  obtain ⟨tail, hitems⟩ := hfirst
  have hends : ∀ n, 0 < n → endsAt (first :: rest) n =
      Fill.boundary n (0x43 :: tail).length (readsOf rest) := fun n hn => by
    rw [endsAt_cons first rest hn, hitems]
  rw [hitems] at hstream hconnect
  have hclean : (ConnectRequest.http head host port method whole target).CleanCuts (first :: rest) ↔
      (∀ n, 0 < n → n < connectPrefix.length → endsAt (first :: rest) n = false) ∧
        ∀ n, maxHttpHeader < n → n < head.length → endsAt (first :: rest) n = false := Iff.rfl
  by_cases hmethod : connectPrefix <+: 0x43 :: tail
  · have hlong := hmethod.length_le
    have hshort : ∀ n, 0 < n → n < connectPrefix.length → endsAt (first :: rest) n = false := by
      intro n hn hlt
      rw [hends n hn, Fill.boundary_of_le _ _ _ (by omega)]
      exact decide_eq_false (by omega)
    have hcongr : ∀ {r}, Leads (fun fuel => handleHttpConnect fuel p (0x43 :: tail))
        { reads := readsOf rest } r →
        Leads (fun fuel => handleProxyConnection fuel p) { reads := readsOf (first :: rest) } r :=
      fun h => h.congr (fun fuel => (connection_http rest hitems fuel).trans
        (if_pos (List.isPrefixOf_iff_prefix.mpr hmethod))) (Nat.le_succ _)
    rcases httpRequest_leads whole target { reads := readsOf rest } hstream with
      ⟨req, c', hleads, fits, hlate⟩ | ⟨⟨message, hleads⟩, n, hlow, hhigh, hend⟩
    · refine .taken .http req c' (hclean.mpr ⟨hshort, fun n hlow hhigh => ?_⟩) fits fun htunnel =>
        hcongr (hleads.bind fits.fewer htunnel)
      rw [hends n (Nat.zero_lt_of_lt hlow)]
      exact hlate n hlow hhigh
    · refine .refused (.error message) { reads := readsOf rest } (fun h => ?_) rfl
        (hcongr hleads.bind_error)
      have hfalse := (hclean.mp h).2 n hlow hhigh
      rw [hends n (Nat.zero_lt_of_lt hlow), hend] at hfalse
      exact absurd hfalse (by decide)
  · -- the first read is shorter than the method
    have hshort : (0x43 :: tail).length < connectPrefix.length := by
      by_contra h
      exact hmethod (List.prefix_of_prefix_length_le hconnect (List.prefix_append _ _) (by omega))
    have hleads : Leads (fun fuel => handleProxyConnection fuel p) { reads := readsOf (first :: rest) }
        (some (.error (.error ("Unknown proxy protocol: first byte " ++ hexByte 0x43)),
          { reads := readsOf rest })) :=
      leads_of_eq fun fuel => (connection_http rest hitems fuel).trans
        (if_neg fun h => hmethod (List.isPrefixOf_iff_prefix.mp h))
    refine .refused _ { reads := readsOf rest } (fun h => ?_) rfl hleads
    have hfalse := (hclean.mp h).1 (0x43 :: tail).length (Nat.succ_pos _) hshort
    rw [hends (0x43 :: tail).length (Nat.succ_pos _), Fill.boundary_of_le _ _ _ (le_refl _)] at hfalse
    exact absurd hfalse (by simp)

end Http

/-! ## §7. Both. -/

theorem request_intake {p : Peers} (hauth : p.authWritten = .ok ()) (req : ConnectRequest)
    (payload : Bytes) (chunks : List ReadChunk)
    (hbytes : chunks.flatMap (·.items) = req.bytes ++ payload) : Intake p chunks req payload := by
  cases req with
  | socks5 methods short address hi lo => exact socks5_intake hauth short address hi lo hbytes
  | http head host port method whole target => exact http_intake p method whole target hbytes

/-- A request is served, its payload with it, exactly when the reads do not cut it in
the wrong places. -/
theorem request_served_iff {p : Peers} {streamId : Nat} (hp : p.Willing streamId)
    (req : ConnectRequest) (payload : Bytes) (chunks : List ReadChunk)
    (hbytes : chunks.flatMap (·.items) = req.bytes ++ payload) :
    Served p streamId chunks req payload ↔ req.CleanCuts chunks :=
  served_iff_of_intake hp (request_intake hp.auth req payload chunks hbytes)

/-- The client waits for the answer to its greeting; its request is read in one go, or
its first four bytes are read first. -/
def domainRequest : ConnectRequest :=
  .socks5 [0x00] (by decide) (.domain [0x61] (by decide)) 0x00 0x50

def wholeReads : List ReadChunk :=
  [⟨[0x05, 0x01, 0x00], by decide⟩, ⟨[0x05, 0x01, 0x00, 0x03, 0x01, 0x61, 0x00, 0x50], by decide⟩]

def splitReads : List ReadChunk :=
  [⟨[0x05, 0x01, 0x00], by decide⟩, ⟨[0x05, 0x01, 0x00, 0x03], by decide⟩,
    ⟨[0x01, 0x61, 0x00, 0x50], by decide⟩]

theorem willing_one : Peers.Willing { opened := .ok 1 } 1 :=
  ⟨rfl, rfl, rfl, rfl, rfl, fun _ => rfl, fun _ => .inl rfl⟩

/-- The request is served when its bytes arrive in the turns of the protocol. -/
theorem domain_served : Peers.Willing { opened := .ok 1 } 1 ∧
    wholeReads.flatMap (·.items) = domainRequest.bytes ++ [] ∧
    (Served { opened := .ok 1 } 1 wholeReads domainRequest [] ↔ domainRequest.CleanCuts wholeReads) :=
  ⟨willing_one, by decide, request_served_iff willing_one domainRequest [] wholeReads (by decide)⟩

/-- A read that ends right before a domain name. -/
theorem domain_panics_late : ¬ ∀ (p : Peers) (streamId : Nat) (req : ConnectRequest)
    (payload : Bytes) (chunks : List ReadChunk), p.Willing streamId →
    chunks.flatMap (·.items) = req.bytes ++ payload → Served p streamId chunks req payload := by
  intro h
  have hserved := h { opened := .ok 1 } 1 domainRequest [] splitReads willing_one (by decide)
  have hclean := (served_iff_of_intake willing_one
    (request_intake willing_one.auth domainRequest [] splitReads (by decide))).mp hserved
  exact absurd (hclean.2 rfl) (by decide)

end Jmux.Remote
