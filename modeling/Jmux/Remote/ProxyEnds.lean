/-
  Jmux.Remote.ProxyEnds — whether `handle_socks5` comes to an end.

  The loops that read the greeting and the four bytes of the request look for the end
  of the stream, the three loops that read an address do not; and the length of a
  domain name is taken out of the buffer before it is known to be there.

  Main results:
    * `socks5_handshake`   — what the handshake leads to, on every stream.
    * `socks5_returns_iff` — the streams on which the handler does not end, and those
                             on which it panics.
    * `socks5_spins`       — a client that leaves within its address.
-/
import Jmux.Remote.ProxyRun

namespace Jmux.Remote

open Jmux.Lib ProxyRun

variable {α β : Type}

/-! ## §1. The loops of the handshake. -/

section Loops

variable {closed : Option String} {enough refuse : Bytes → Bool} {refused : String} {buf : Bytes}
  {c : ProxyConn}

theorem readUntil_leads (closed : Option String) (enough refuse : Bytes → Bool) (refused : String)
    (buf : Bytes) (c : ProxyConn) :
    Leads (fun fuel => readUntil closed enough fuel buf refuse refused) c
      (filled closed refused c (Fill.outcome enough refuse closed.isSome buf c.reads)) := by
  constructor
  · intro fuel
    rcases Fill.fill_none_or enough refuse closed.isSome fuel buf c.reads with hnone | hsome
    · left
      show filled closed refused c (Fill.fill _ _ _ _ _ _) = none
      rw [hnone]
      rfl
    · right
      show filled closed refused c (Fill.fill _ _ _ _ _ _) = _
      rw [hsome]
  · intro fuel hfuel
    show filled closed refused c (Fill.fill _ _ _ _ _ _) = _
    rw [Fill.fill_outcome enough refuse closed.isSome hfuel]

theorem readUntil_full {b : Bytes} {rest : List LocalRead}
    (h : Fill.settle enough refuse buf c.reads = some (.full b rest)) :
    Leads (fun fuel => readUntil closed enough fuel buf refuse refused) c
      (some (.ok b, { c with reads := rest })) := by
  have hleads := readUntil_leads closed enough refuse refused buf c
  unfold Fill.outcome at hleads
  rw [h] at hleads
  exact hleads

/-- Without a message for it the end of the stream is not seen. -/
theorem readUntil_spins (h : Fill.settle enough refuse buf c.reads = none) :
    Leads (fun fuel => readUntil none enough fuel buf refuse refused) c none := by
  have hleads := readUntil_leads none enough refuse refused buf c
  unfold Fill.outcome at hleads
  rw [h] at hleads
  exact hleads

/-- Otherwise the loop stops with an error. -/
theorem readUntil_stops
    (h : ¬ ∃ b rest, Fill.settle enough refuse buf c.reads = some (.full b rest))
    (hclosed : closed ≠ none ∨ Fill.settle enough refuse buf c.reads ≠ none) :
    ∃ message, Leads (fun fuel => readUntil closed enough fuel buf refuse refused) c
      (some (.error (.error message), c)) := by
  have hleads := readUntil_leads closed enough refuse refused buf c
  unfold Fill.outcome at hleads
  cases hsettle : Fill.settle enough refuse buf c.reads with
  | none =>
      rw [hsettle] at hleads hclosed
      cases closed with
      | none => exact absurd hclosed (by simp)
      | some message => exact ⟨_, hleads⟩
  | some r =>
      rw [hsettle] at hleads
      cases r with
      | full b rest => exact absurd ⟨b, rest, hsettle⟩ h
      | refused => exact ⟨_, hleads⟩
      | failed e => exact ⟨_, hleads⟩
      | closed => exact ⟨_, hleads⟩

end Loops

/-! ## §2. The address. -/

/-- So many bytes do not arrive before the stream ends. -/
def EndsBefore (n : Nat) (buf : Bytes) (reads : List LocalRead) : Prop :=
  Fill.firstError reads = none ∧ buf.length + (Fill.received reads).length < n

/-- The request in a whole stream whose address starts at `start`. -/
def addressRequest (host : Bytes → String) (start len : Nat) (bytes : Bytes) : ProxyRequest where
  host    := host ((bytes.take (start + len)).drop start)
  port    := portOf ((bytes.take (start + len + 2)).drop (start + len))
  payload := bytes.drop (start + len + 2)

/-- The request that was read, with what is still to come, is this one; nothing but
reads and the answers to the client happened. -/
structure Fits (req : ProxyRequest) (c c' : ProxyConn) (whole : ProxyRequest) : Prop where
  host    : req.host = whole.host
  port    : req.port = whole.port
  payload : req.payload ++ Fill.received c'.reads = whole.payload
  calls   : c'.calls = c.calls
  error   : Fill.firstError c'.reads = Fill.firstError c.reads
  fewer   : c'.reads.length ≤ c.reads.length

/-- What the read of an address leads to, and when it does not end. -/
inductive AddressEnd (x : Nat → ProxyRun ProxyRequest) (c : ProxyConn) (whole : ProxyRequest)
    (spins : Prop) : Prop
  | done (req : ProxyRequest) (c' : ProxyConn) (leads : Leads x c (some (.ok req, c')))
      (fits : Fits req c c' whole) (goesOn : ¬ spins)
  | error (message : String) (c' : ProxyConn)
      (leads : Leads x c (some (.error (.error message), c'))) (failed : Fill.firstError c.reads ≠ none)
      (goesOn : ¬ spins)
  | stuck (leads : Leads x c none) (spins : spins)

/-- A part of the stream that is in the buffer. -/
theorem addressRequest_fits {b rest : Bytes} (host : Bytes → String) {start len : Nat}
    (h : start + len + 2 ≤ b.length) :
    (addressRequest host start len b).host = (addressRequest host start len (b ++ rest)).host ∧
    (addressRequest host start len b).port = (addressRequest host start len (b ++ rest)).port ∧
    (addressRequest host start len b).payload ++ rest =
      (addressRequest host start len (b ++ rest)).payload := by
  unfold addressRequest
  refine ⟨?_, ?_, ?_⟩
  · show host _ = host _
    rw [List.take_append_of_le_length (by omega)]
  · show portOf _ = portOf _
    rw [List.take_append_of_le_length h]
  · exact (List.drop_append_of_le_length h).symm

/-- Behind the loop an address is taken out of the buffer. -/
theorem addressEnd_of_read (host : Bytes → String) (start len : Nat) (buf : Bytes) (c : ProxyConn)
    {x : Nat → ProxyRun ProxyRequest} {take : Bytes → ProxyRun ProxyRequest}
    (hx : ∀ fuel, x fuel c = (readAddress fuel (start + len + 2) buf >>= take) c)
    (htake : ∀ b c', start + len + 2 ≤ b.length →
      take b c' = some (.ok (addressRequest host start len b), c')) :
    AddressEnd x c (addressRequest host start len (buf ++ Fill.received c.reads))
      (EndsBefore (start + len + 2) buf c.reads) := by
  by_cases hfull : ∃ b rest, Fill.settle (Fill.atLeast (start + len + 2)) (fun _ => false) buf c.reads
      = some (.full b rest)
  · obtain ⟨b, rest, hsettle⟩ := hfull
    have hsettled := Fill.settle_full _ hsettle
    have hread : Leads (fun fuel => readAddress fuel (start + len + 2) buf) c
        (some (.ok b, { c with reads := rest })) := readUntil_full hsettle
    have hleads := hread.bind hsettled.fewer (leads_of_eq fun _ => htake b _ hsettled.reached)
    obtain ⟨hhost, hport, hpayload⟩ :=
      @addressRequest_fits b (Fill.received rest) host start len hsettled.reached
    rw [hsettled.stream] at hhost hport hpayload
    refine .done _ { c with reads := rest } (hleads.congr hx (le_refl _))
      ⟨hhost, hport, hpayload, rfl, hsettled.error, hsettled.fewer⟩ fun hspins => ?_
    have hlength := hsettled.length_received
    have hreached := hsettled.reached
    have := hspins.2
    omega
  · by_cases hnone : Fill.settle (Fill.atLeast (start + len + 2)) (fun _ => false) buf c.reads = none
    · have hread : Leads (fun fuel => readAddress fuel (start + len + 2) buf) c none :=
        readUntil_spins hnone
      exact .stuck (hread.bind_none.congr hx (le_refl _)) (Fill.settle_none_iff.mp hnone)
    · have hread : ∃ message, Leads (fun fuel => readAddress fuel (start + len + 2) buf) c
          (some (.error (.error message), c)) := readUntil_stops hfull (.inr hnone)
      obtain ⟨message, hread⟩ := hread
      refine .error message c (hread.bind_error.congr hx (le_refl _)) (fun herror => ?_)
        fun hspins => hnone (Fill.settle_none_iff.mpr hspins)
      by_cases hn : start + len + 2 ≤ buf.length + (Fill.received c.reads).length
      · exact hfull ((Fill.settle_full_iff fun _ => false).mpr ⟨hn, fun _ _ _ => rfl⟩)
      · exact hnone (Fill.settle_none_iff.mpr ⟨herror, by omega⟩)

theorem ipv4_end (buf : Bytes) (c : ProxyConn) :
    AddressEnd (fun fuel => socks5Ipv4 fuel buf) c
      (addressRequest ipv4Text 4 4 (buf ++ Fill.received c.reads)) (EndsBefore 10 buf c.reads) := by
  refine addressEnd_of_read ipv4Text 4 4 buf c (fun _ => rfl) fun b c' hb => ?_
  rw [bind_ok (slice_run (by omega)), bind_ok (slice_run hb)]
  rfl

theorem ipv6_end (buf : Bytes) (c : ProxyConn) :
    AddressEnd (fun fuel => socks5Ipv6 fuel buf) c
      (addressRequest ipv6Text 4 16 (buf ++ Fill.received c.reads)) (EndsBefore 22 buf c.reads) := by
  refine addressEnd_of_read ipv6Text 4 16 buf c (fun _ => rfl) fun b c' hb => ?_
  rw [bind_ok (slice_run (by omega)), bind_ok (slice_run hb)]
  rfl

/-- A domain name as text. -/
def domainText (name : Bytes) : String := String.ofList (utf8Lossy name)

/-- With its length there, a domain name is read like the other addresses. -/
theorem domain_end {buf : Bytes} {len : UInt8} (hlen : buf[4]? = some len) (c : ProxyConn) :
    AddressEnd (fun fuel => socks5Domain fuel buf) c
      (addressRequest domainText 5 len.toNat (buf ++ Fill.received c.reads))
      (EndsBefore (5 + len.toNat + 2) buf c.reads) := by
  refine addressEnd_of_read domainText 5 len.toNat buf c (fun _ => bind_ok (byteAt_run hlen))
    fun b c' hb => ?_
  rw [bind_ok (slice_run (by omega)), bind_ok (slice_run hb)]
  rfl

theorem domain_panics {buf : Bytes} (hlen : buf.length ≤ 4) (c : ProxyConn) (fuel : Nat) :
    socks5Domain fuel buf c = some (.error .panicked, c) :=
  ProxyRun.bind_error (byteAt_outOfRange hlen)

/-! ## §3. The handshake. -/

/-- The handshake gets to the address: what arrives is a greeting and a CONNECT request
with this type of address, and `rest` behind its four bytes; the request begins at
`start`. -/
def ReachesAddress (p : Peers) (initial : Bytes) (reads : List LocalRead) (start : Nat)
    (atyp : UInt8) (rest : Bytes) : Prop :=
  ∃ nmethods tail rsv, initial = 0x05 :: nmethods :: tail ∧ start = 2 + nmethods.toNat ∧
    p.authWritten = .ok () ∧
    (initial ++ Fill.received reads).drop start = 0x05 :: 0x01 :: rsv :: atyp :: rest

/-- A read ends right behind the four bytes before a domain name. -/
def CutBeforeDomain (p : Peers) (initial : Bytes) (reads : List LocalRead) : Prop :=
  ∃ start rest, ReachesAddress p initial reads start 0x03 rest ∧
    Fill.boundary (start + 4) initial.length reads = true

/-- The stream ends within the address, and nothing fails before. -/
def StuckInAddress (p : Peers) (initial : Bytes) (reads : List LocalRead) : Prop :=
  Fill.firstError reads = none ∧ ∃ start atyp rest, ReachesAddress p initial reads start atyp rest ∧
    (atyp = 0x01 ∧ rest.length < 6 ∨
      atyp = 0x04 ∧ rest.length < 18 ∨
      atyp = 0x03 ∧ Fill.boundary (start + 4) initial.length reads = false ∧
        ∃ len name, rest = len :: name ∧ name.length < len.toNat + 2)

/-- The request in a whole stream. -/
def requestOf (bytes : Bytes) : ProxyRequest :=
  let atyp := bytes.getD 3 0
  if atyp = 0x01 then addressRequest ipv4Text 4 4 bytes
  else if atyp = 0x03 then addressRequest domainText 5 (bytes.getD 4 0).toNat bytes
  else addressRequest ipv6Text 4 16 bytes

def isAddressType (atyp : UInt8) : Bool := atyp = 0x01 || atyp = 0x03 || atyp = 0x04

/-- What the request of a connection leads to. -/
inductive HandshakeEnd (p : Peers) (initial : Bytes) (c : ProxyConn) : Prop
  | request (req : ProxyRequest) (c' : ProxyConn) (start : Nat) (atyp : UInt8) (rest : Bytes)
      (leads : Leads (fun fuel => socks5Request fuel p initial) c (some (.ok req, c')))
      (reach : ReachesAddress p initial c.reads start atyp rest)
      (fits : Fits req c c' (requestOf ((initial ++ Fill.received c.reads).drop start)))
      (whole : ¬ CutBeforeDomain p initial c.reads) (goesOn : ¬ StuckInAddress p initial c.reads)
  | error (message : String) (c' : ProxyConn)
      (leads : Leads (fun fuel => socks5Request fuel p initial) c
        (some (.error (.error message), c')))
      (failed : ∀ start atyp rest, ReachesAddress p initial c.reads start atyp rest →
        isAddressType atyp = true → Fill.firstError c.reads ≠ none)
      (whole : ¬ CutBeforeDomain p initial c.reads) (goesOn : ¬ StuckInAddress p initial c.reads)
  | panicked (c' : ProxyConn)
      (leads : Leads (fun fuel => socks5Request fuel p initial) c (some (.error .panicked, c')))
      (cut : CutBeforeDomain p initial c.reads) (goesOn : ¬ StuckInAddress p initial c.reads)
  | stuck (leads : Leads (fun fuel => socks5Request fuel p initial) c none)
      (whole : ¬ CutBeforeDomain p initial c.reads) (spins : StuckInAddress p initial c.reads)

theorem ReachesAddress.unique {p : Peers} {initial : Bytes} {reads : List LocalRead}
    {start start' : Nat} {atyp atyp' : UInt8} {rest rest' : Bytes}
    (h : ReachesAddress p initial reads start atyp rest)
    (h' : ReachesAddress p initial reads start' atyp' rest') :
    start = start' ∧ atyp = atyp' ∧ rest = rest' := by
  obtain ⟨nmethods, tail, rsv, hinitial, rfl, -, hrest⟩ := h
  obtain ⟨nmethods', tail', rsv', hinitial', rfl, -, hrest'⟩ := h'
  rw [hinitial] at hinitial'
  obtain ⟨-, hcons⟩ := List.cons.inj hinitial'
  obtain ⟨rfl, rfl⟩ := List.cons.inj hcons
  rw [hrest] at hrest'
  simp only [List.cons.injEq] at hrest'
  exact ⟨rfl, hrest'.2.2.2.1, hrest'.2.2.2.2⟩

theorem not_cut_of {p : Peers} {initial : Bytes} {reads : List LocalRead}
    (h : ∀ start atyp rest, ¬ ReachesAddress p initial reads start atyp rest) :
    ¬ CutBeforeDomain p initial reads ∧ ¬ StuckInAddress p initial reads := by
  constructor
  · rintro ⟨start, rest, hreach, -⟩
    exact h _ _ _ hreach
  · rintro ⟨-, start, atyp, rest, hreach, -⟩
    exact h _ _ _ hreach

/-- What arrives behind the greeting. -/
theorem received_behind {start : Nat} {initial greeting : Bytes} {reads rest : List LocalRead}
    (h : Fill.Settled start initial reads greeting rest) :
    greeting.drop start ++ Fill.received rest = (initial ++ Fill.received reads).drop start := by
  rw [← h.stream, List.drop_append_of_le_length h.reached]

theorem greeting_leads {p : Peers} {initial greeting : Bytes} {nmethods : UInt8} {c : ProxyConn}
    {rest : List LocalRead} (hauth : p.authWritten = .ok ())
    (h : Fill.settle (Fill.atLeast (2 + nmethods.toNat)) (fun _ => false) initial c.reads
      = some (.full greeting rest)) :
    Leads (fun fuel => socks5Greeting fuel p initial nmethods) c
      (some (.ok (greeting.drop (2 + nmethods.toNat)),
        { c with reads := rest, sent := c.sent ++ [[0x05, 0x00]] })) := by
  have hsettled := Fill.settle_full _ h
  refine (readUntil_full h).bind hsettled.fewer (leads_of_eq fun fuel => ?_)
  simp only [bind_run, write_run, hauth, attempt_ok]
  rfl

/-- Without the greeting or the answer to it the handshake stops. -/
theorem greeting_stops {p : Peers} {initial : Bytes} {nmethods : UInt8} {c : ProxyConn}
    (h : p.authWritten ≠ .ok () ∨ ¬ ∃ greeting rest,
      Fill.settle (Fill.atLeast (2 + nmethods.toNat)) (fun _ => false) initial c.reads
        = some (.full greeting rest)) :
    ∃ message c', Leads (fun fuel => socks5Greeting fuel p initial nmethods) c
      (some (.error (.error message), c')) := by
  by_cases hfull : ∃ greeting rest,
      Fill.settle (Fill.atLeast (2 + nmethods.toNat)) (fun _ => false) initial c.reads
        = some (.full greeting rest)
  · obtain ⟨greeting, rest, hsettle⟩ := hfull
    have hauth := h.resolve_right fun hnot => hnot ⟨greeting, rest, hsettle⟩
    have hsettled := Fill.settle_full _ hsettle
    cases hwritten : p.authWritten with
    | ok _ => exact absurd hwritten hauth
    | error e =>
        refine ⟨"write auth: " ++ e, { c with reads := rest, sent := c.sent ++ [[0x05, 0x00]] },
          (readUntil_full hsettle).bind hsettled.fewer (leads_of_eq fun fuel => ?_)⟩
        simp only [bind_run, write_run, hwritten, attempt_error]
  · have hread : ∃ message, Leads (fun fuel => readUntil (some "Connection closed during greeting")
        (Fill.atLeast (2 + nmethods.toNat)) fuel initial) c (some (.error (.error message), c)) :=
      readUntil_stops hfull (.inl (Option.some_ne_none _))
    obtain ⟨message, hread⟩ := hread
    exact ⟨message, c, hread.bind_error⟩

theorem handshake_error {p : Peers} {initial : Bytes} {c : ProxyConn}
    (hreach : ∀ start atyp rest, ¬ ReachesAddress p initial c.reads start atyp rest)
    (h : ∃ message c', Leads (fun fuel => socks5Request fuel p initial) c
      (some (.error (.error message), c'))) : HandshakeEnd p initial c := by
  obtain ⟨message, c', hleads⟩ := h
  exact .error message c' hleads (fun start atyp rest h => absurd h (hreach start atyp rest))
    (not_cut_of hreach).1 (not_cut_of hreach).2

/-- What the address leads to is what the handshake leads to. -/
theorem address_handshake {p : Peers} {initial rest : Bytes} {c c' : ProxyConn} {start : Nat}
    {atyp : UInt8} {x : Nat → ProxyRun ProxyRequest} {whole : ProxyRequest} {spins : Prop}
    (h : AddressEnd x c' whole spins)
    (hrequest : ∀ {r}, Leads x c' r → Leads (fun fuel => socks5Request fuel p initial) c r)
    (hreach : ReachesAddress p initial c.reads start atyp rest)
    (hread : c'.calls = c.calls ∧ Fill.firstError c'.reads = Fill.firstError c.reads ∧
      c'.reads.length ≤ c.reads.length)
    (hwhole : whole = requestOf ((initial ++ Fill.received c.reads).drop start))
    (hcut : ¬ CutBeforeDomain p initial c.reads)
    (hspins : StuckInAddress p initial c.reads ↔ spins) : HandshakeEnd p initial c := by
  obtain ⟨hcalls, herror, hreads⟩ := hread
  subst hwhole
  cases h with
  | done req c'' leads fits goesOn =>
      exact .request req c'' start atyp rest (hrequest leads) hreach
        ⟨fits.host, fits.port, fits.payload, fits.calls.trans hcalls, fits.error.trans herror,
          fits.fewer.trans hreads⟩ hcut (hspins.not.mpr goesOn)
  | error message c'' leads failed goesOn =>
      rw [herror] at failed
      exact .error message c'' (hrequest leads) (fun _ _ _ _ _ => failed) hcut
        (hspins.not.mpr goesOn)
  | stuck leads spins => exact .stuck (hrequest leads) hcut (hspins.mpr spins)

section Address

variable {p : Peers} {initial : Bytes} {reads rest : List LocalRead} {start : Nat} {atyp : UInt8}
  {more : Bytes}

/-- The stream ends within an address of a fixed length. -/
theorem stuck_iff_of_fixed {n : Nat} {b : Bytes}
    (hreach : ReachesAddress p initial reads start atyp (more ++ Fill.received rest))
    (herror : Fill.firstError rest = Fill.firstError reads) (hb : b.length = more.length + 4)
    (hatyp : (atyp = 0x01 ∧ n = 6) ∨ (atyp = 0x04 ∧ n = 18)) :
    StuckInAddress p initial reads ↔ EndsBefore (n + 4) b rest := by
  unfold EndsBefore
  rw [herror, hb]
  constructor
  · rintro ⟨hok, s, atyp', bytes, hreach', hshort⟩
    obtain ⟨-, rfl, rfl⟩ := hreach.unique hreach'
    refine ⟨hok, ?_⟩
    rw [List.length_append] at hshort
    rcases hatyp with ⟨rfl, rfl⟩ | ⟨rfl, rfl⟩
    · rcases hshort with ⟨-, hlt⟩ | ⟨h, -⟩ | ⟨h, -⟩
      · omega
      · exact absurd h (by decide)
      · exact absurd h (by decide)
    · rcases hshort with ⟨h, -⟩ | ⟨-, hlt⟩ | ⟨h, -⟩
      · exact absurd h (by decide)
      · omega
      · exact absurd h (by decide)
  · rintro ⟨hok, hlt⟩
    refine ⟨hok, start, atyp, _, hreach, ?_⟩
    rw [List.length_append]
    rcases hatyp with ⟨rfl, rfl⟩ | ⟨rfl, rfl⟩
    · exact .inl ⟨rfl, by omega⟩
    · exact .inr (.inl ⟨rfl, by omega⟩)

theorem not_cut_of_atyp (hreach : ReachesAddress p initial reads start atyp more)
    (hatyp : atyp ≠ 0x03) : ¬ CutBeforeDomain p initial reads := by
  rintro ⟨s, bytes, hreach', -⟩
  exact hatyp (hreach.unique hreach').2.1

end Address

/-- The address of a request whose first four bytes are there. -/
theorem reached_handshake {p : Peers} {initial b more : Bytes} {c c' : ProxyConn} {start : Nat}
    {version command rsv atyp : UInt8} (hb : b = version :: command :: rsv :: atyp :: more)
    (hrequest : ∀ {r}, Leads (fun fuel => socks5Address fuel b atyp) c' r →
      Leads (fun fuel => socks5Request fuel p initial) c r)
    (hread : c'.calls = c.calls ∧ Fill.firstError c'.reads = Fill.firstError c.reads ∧
      c'.reads.length ≤ c.reads.length)
    (hstream : b ++ Fill.received c'.reads = (initial ++ Fill.received c.reads).drop start)
    (hboundary : Fill.boundary (start + 4) initial.length c.reads = true ↔ more = [])
    (hreach : ReachesAddress p initial c.reads start atyp (more ++ Fill.received c'.reads)) :
    HandshakeEnd p initial c := by
  have herror := hread.2.1
  have hlength : b.length = more.length + 4 := by rw [hb]; rfl
  have hatyp : ((initial ++ Fill.received c.reads).drop start).getD 3 0 = atyp := by
    rw [← hstream, hb]
    rfl
  by_cases h1 : atyp = 0x01
  · subst h1
    refine address_handshake (ipv4_end b c') (fun h => hrequest h) hreach hread ?_
      (not_cut_of_atyp hreach (by decide))
      (stuck_iff_of_fixed hreach herror hlength (.inl ⟨rfl, rfl⟩))
    rw [requestOf, hatyp, ← hstream]
    rfl
  by_cases h3 : atyp = 0x03
  · subst h3
    cases more with
    | nil =>
        refine .panicked c' (hrequest (leads_of_eq fun fuel => ?_))
          ⟨start, _, hreach, hboundary.mpr rfl⟩ ?_
        · exact domain_panics (by rw [hlength]; rfl) c' fuel
        · rintro ⟨-, s, atyp', bytes, hreach', ⟨h, -⟩ | ⟨h, -⟩ | ⟨-, hno, -⟩⟩
          · rw [← (hreach.unique hreach').2.1] at h
            exact absurd h (by decide)
          · rw [← (hreach.unique hreach').2.1] at h
            exact absurd h (by decide)
          · rw [← (hreach.unique hreach').1, hboundary.mpr rfl] at hno
            exact absurd hno (by decide)
    | cons len more =>
        have hno : Fill.boundary (start + 4) initial.length c.reads = false := by
          rw [Bool.eq_false_iff]
          exact fun h => absurd (hboundary.mp h) (List.cons_ne_nil _ _)
        have hlen : b[4]? = some len := by
          rw [hb]
          rfl
        refine address_handshake (domain_end hlen c') (fun h => hrequest h) hreach hread ?_ ?_ ?_
        · rw [requestOf, hatyp, ← hstream, hb]
          rfl
        · rintro ⟨s, bytes, hreach', hyes⟩
          rw [← (hreach.unique hreach').1, hno] at hyes
          exact absurd hyes (by decide)
        · unfold EndsBefore
          rw [herror, hlength, List.length_cons]
          constructor
          · rintro ⟨hok, s, atyp', bytes, hreach', ⟨h, -⟩ | ⟨h, -⟩ | ⟨-, -, len', name, hbytes, hlt⟩⟩
            · rw [← (hreach.unique hreach').2.1] at h
              exact absurd h (by decide)
            · rw [← (hreach.unique hreach').2.1] at h
              exact absurd h (by decide)
            · rw [← (hreach.unique hreach').2.2] at hbytes
              obtain ⟨rfl, rfl⟩ := List.cons.inj hbytes
              rw [List.append_eq, List.length_append] at hlt
              exact ⟨hok, by omega⟩
          · rintro ⟨hok, hlt⟩
            refine ⟨hok, start, 0x03, _, hreach, .inr (.inr ⟨rfl, hno, len, _, rfl, ?_⟩)⟩
            rw [List.append_eq, List.length_append]
            omega
  by_cases h4 : atyp = 0x04
  · subst h4
    refine address_handshake (ipv6_end b c') (fun h => hrequest h) hreach hread ?_
      (not_cut_of_atyp hreach (by decide))
      (stuck_iff_of_fixed hreach herror hlength (.inr ⟨rfl, rfl⟩))
    rw [requestOf, hatyp, ← hstream]
    rfl
  · have hleads : Leads (fun fuel => socks5Address fuel b atyp) c'
        (some (.error (.error ("Unsupported SOCKS5 address type: " ++ hexByte atyp)),
          { c' with sent := c'.sent ++ [socks5Reply 0x08] })) := leads_of_eq fun fuel => by
      rw [socks5Address, if_neg h1, if_neg h3, if_neg h4]
      rfl
    refine .error _ _ (hrequest hleads) (fun s atyp' bytes hreach' htype => ?_)
      (not_cut_of_atyp hreach h3) ?_
    · rw [← (hreach.unique hreach').2.1] at htype
      simp [isAddressType, h1, h3, h4] at htype
    · rintro ⟨-, s, atyp', bytes, hreach', ⟨h, -⟩ | ⟨h, -⟩ | ⟨h, -⟩⟩
      · exact h1 ((hreach.unique hreach').2.1.trans h)
      · exact h4 ((hreach.unique hreach').2.1.trans h)
      · exact h3 ((hreach.unique hreach').2.1.trans h)

/-- The request behind the greeting. -/
theorem connect_handshake {p : Peers} {initial pipelined : Bytes} {c c' : ProxyConn} {start : Nat}
    (hrequest : ∀ {r}, Leads (fun fuel => socks5Connect fuel pipelined) c' r →
      Leads (fun fuel => socks5Request fuel p initial) c r)
    (hread' : c'.calls = c.calls ∧ Fill.firstError c'.reads = Fill.firstError c.reads ∧
      c'.reads.length ≤ c.reads.length)
    (hbehind : pipelined ++ Fill.received c'.reads = (initial ++ Fill.received c.reads).drop start)
    (hboundary : Fill.boundary (start + 4) initial.length c.reads =
      Fill.boundary 4 pipelined.length c'.reads)
    (hstart : ∃ nmethods tail, initial = 0x05 :: nmethods :: tail ∧ start = 2 + nmethods.toNat)
    (hauth : p.authWritten = .ok ()) : HandshakeEnd p initial c := by
  obtain ⟨nmethods, tail, hinitial, hnum⟩ := hstart
  have hreach : ∀ {s atyp rest}, ReachesAddress p initial c.reads s atyp rest →
      ∃ rsv, pipelined ++ Fill.received c'.reads = 0x05 :: 0x01 :: rsv :: atyp :: rest := by
    rintro s atyp rest ⟨nmethods', tail', rsv, hinitial', rfl, -, hrest⟩
    rw [hinitial] at hinitial'
    obtain ⟨-, hcons⟩ := List.cons.inj hinitial'
    obtain ⟨rfl, -⟩ := List.cons.inj hcons
    exact ⟨rsv, by rw [hbehind, hnum, hrest]⟩
  by_cases hfull : ∃ b rest, Fill.settle (Fill.atLeast 4) (fun _ => false) pipelined c'.reads
      = some (.full b rest)
  · obtain ⟨b, rest, hsettle⟩ := hfull
    have hsettled := Fill.settle_full _ hsettle
    have hreached := hsettled.reached
    have hstream := hsettled.stream
    have hread : Leads (fun fuel => readUntil (some "Connection closed during CONNECT")
        (Fill.atLeast 4) fuel pipelined) c' (some (.ok b, { c' with reads := rest })) :=
      readUntil_full hsettle
    rcases b with _ | ⟨version, _ | ⟨command, _ | ⟨rsv, _ | ⟨atyp, more⟩⟩⟩⟩
    · exact absurd hreached (by simp)
    · exact absurd hreached (by simp)
    · exact absurd hreached (by simp)
    · exact absurd hreached (by simp)
    by_cases hcommand : version ≠ 0x05 ∨ command ≠ 0x01
    · refine handshake_error (fun s atyp' bytes h => ?_) ⟨_, _, hrequest (hread.bind hsettled.fewer
        (leads_of_eq fun fuel => by
          rw [bind_ok (byteAt_run rfl), bind_ok (byteAt_run rfl), if_pos hcommand]
          rfl))⟩
      obtain ⟨rsv', hbytes⟩ := hreach h
      rw [← hstream] at hbytes
      simp only [List.cons_append, List.cons.injEq] at hbytes
      exact hcommand.elim (fun h => h hbytes.1) fun h => h hbytes.2.1
    · have hversion : version = 0x05 := by
        by_contra h
        exact hcommand (.inl h)
      have hconnect : command = 0x01 := by
        by_contra h
        exact hcommand (.inr h)
      subst hversion hconnect
      have hb : (0x05 :: 0x01 :: rsv :: atyp :: more : Bytes) = 0x05 :: 0x01 :: rsv :: atyp :: more :=
        rfl
      have hends : Fill.boundary (start + 4) initial.length c.reads = true ↔ more = [] := by
        rw [hboundary, ← hsettled.length_eq_iff]
        simp
      have hnow : ReachesAddress p initial c.reads start atyp (more ++ Fill.received rest) :=
        ⟨nmethods, tail, rsv, hinitial, hnum, hauth, by rw [← hbehind, ← hstream]; rfl⟩
      refine reached_handshake hb (fun {r} h => hrequest (hread.bind hsettled.fewer
        (h.congr (fun fuel => ?_) (le_refl _)))) ⟨hread'.1, hsettled.error.trans hread'.2.1,
          hsettled.fewer.trans hread'.2.2⟩ (hstream.trans hbehind) hends hnow
      rw [bind_ok (byteAt_run rfl), bind_ok (byteAt_run rfl), if_neg hcommand,
        bind_ok (byteAt_run rfl)]
  · have hread : ∃ message, Leads (fun fuel => readUntil (some "Connection closed during CONNECT")
        (Fill.atLeast 4) fuel pipelined) c' (some (.error (.error message), c')) :=
      readUntil_stops hfull (.inl (Option.some_ne_none _))
    obtain ⟨message, hread⟩ := hread
    refine handshake_error (fun s atyp rest h => ?_) ⟨message, c', hrequest hread.bind_error⟩
    obtain ⟨rsv, hbytes⟩ := hreach h
    refine hfull ((Fill.settle_full_iff fun _ => false).mpr ⟨?_, fun _ _ _ => rfl⟩)
    rw [← List.length_append, hbytes]
    simp

theorem socks5_handshake (p : Peers) (initial : Bytes) (c : ProxyConn) :
    HandshakeEnd p initial c := by
  rcases initial with _ | ⟨version, _ | ⟨nmethods, tail⟩⟩
  · exact handshake_error (fun s atyp rest h => by obtain ⟨_, _, _, h, -⟩ := h; exact nomatch h)
      ⟨_, c, leads_of_eq fun _ => rfl⟩
  · exact handshake_error (fun s atyp rest h => by obtain ⟨_, _, _, h, -⟩ := h; exact nomatch h)
      ⟨_, c, leads_of_eq fun _ => rfl⟩
  · by_cases hversion : version = 0x05
    · subst hversion
      have hrequest : ∀ {r}, Leads (fun fuel => socks5Greeting fuel p (0x05 :: nmethods :: tail) nmethods
          >>= socks5Connect fuel) c r →
          Leads (fun fuel => socks5Request fuel p (0x05 :: nmethods :: tail)) c r := fun h => h
      by_cases hgreet : p.authWritten = .ok () ∧ ∃ greeting rest,
          Fill.settle (Fill.atLeast (2 + nmethods.toNat)) (fun _ => false) (0x05 :: nmethods :: tail)
            c.reads = some (.full greeting rest)
      · obtain ⟨hauth, greeting, rest, hsettle⟩ := hgreet
        have hsettled := Fill.settle_full _ hsettle
        have hreached := hsettled.reached
        refine connect_handshake (fun h => hrequest ((greeting_leads hauth hsettle).bind
          hsettled.fewer h)) ⟨rfl, hsettled.error, hsettled.fewer⟩ (received_behind hsettled) ?_
          ⟨nmethods, tail, rfl, rfl⟩ hauth
        rw [hsettled.ends _ (Nat.le_add_right _ 4), List.length_drop,
          ← Fill.boundary_sub rest hreached (Nat.le_add_right _ 4), Nat.add_sub_cancel_left]
      · have hstops : ∃ message c', Leads (fun fuel => socks5Greeting fuel p
            (0x05 :: nmethods :: tail) nmethods) c (some (.error (.error message), c')) :=
          greeting_stops (not_and_or.mp hgreet)
        obtain ⟨message, c', hleads⟩ := hstops
        refine handshake_error (fun s atyp bytes h => hgreet ?_) ⟨message, c', hrequest hleads.bind_error⟩
        obtain ⟨nmethods', tail', rsv, hinitial, rfl, hauth, hbytes⟩ := h
        obtain ⟨-, hcons⟩ := List.cons.inj hinitial
        obtain ⟨rfl, -⟩ := List.cons.inj hcons
        refine ⟨hauth, (Fill.settle_full_iff fun _ => false).mpr ⟨?_, fun _ _ _ => rfl⟩⟩
        have hlength := congrArg List.length hbytes
        rw [List.length_drop, List.length_append] at hlength
        simp only [List.length_cons] at hlength ⊢
        omega
    · refine handshake_error (fun s atyp rest h => ?_) ⟨"Invalid SOCKS5 greeting", c,
        leads_of_eq fun _ => ?_⟩
      · obtain ⟨_, _, _, h, -⟩ := h
        exact hversion (List.cons.inj h).1
      · rw [socks5Request, if_pos hversion]
        rfl

/-- The handshake ends unless the stream ends within the address; and the handler
returns unless, besides, a read ends right before a domain name. -/
theorem socks5_returns_iff (p : Peers) (initial : Bytes) (c : ProxyConn) :
    (Terminates (fun fuel => handleSocks5 fuel p initial) c ↔ ¬ StuckInAddress p initial c.reads) ∧
    (Returns (fun fuel => handleSocks5 fuel p initial) c ↔
      ¬ StuckInAddress p initial c.reads ∧ ¬ CutBeforeDomain p initial c.reads) := by
  cases socks5_handshake p initial c with
  | request req c' start atyp rest leads reach fits whole goesOn =>
      obtain ⟨r, htunnel, hr⟩ := tunnel_leads p (socks5Reply 0x00) "write reply: " req c'
      have hleads : Leads (fun fuel => handleSocks5 fuel p initial) c (some r) :=
        leads.bind fits.fewer htunnel
      rw [hleads.terminates_iff, hleads.returns_iff]
      exact ⟨iff_of_true (Option.some_ne_none r) goesOn, iff_of_true hr ⟨goesOn, whole⟩⟩
  | error message c' leads failed whole goesOn =>
      have hleads : Leads (fun fuel => handleSocks5 fuel p initial) c
          (some (.error (.error message), c')) := leads.bind_error
      rw [hleads.terminates_iff, hleads.returns_iff]
      exact ⟨iff_of_true (Option.some_ne_none _) goesOn, iff_of_true (by simp) ⟨goesOn, whole⟩⟩
  | panicked c' leads cut goesOn =>
      have hleads : Leads (fun fuel => handleSocks5 fuel p initial) c
          (some (.error .panicked, c')) := leads.bind_error
      rw [hleads.terminates_iff, hleads.returns_iff]
      exact ⟨iff_of_true (Option.some_ne_none _) goesOn, iff_of_false (by simp) fun h => h.2 cut⟩
  | stuck leads whole spins =>
      have hleads : Leads (fun fuel => handleSocks5 fuel p initial) c none := leads.bind_none
      rw [hleads.terminates_iff]
      exact ⟨iff_of_false (by simp) fun h => h spins,
        iff_of_false hleads.not_returns fun h => h.1 spins⟩

/-- Its greeting has been answered; then comes the beginning of a request. -/
def leavesEarly : ProxyConn :=
  { reads := [.data ⟨[0x05, 0x01, 0x00, 0x01, 0x7f], by decide⟩] }

/-- A client that leaves after one of the four bytes of its address. -/
theorem socks5_spins : ¬ ∀ (p : Peers) (initial : Bytes) (c : ProxyConn),
    Fill.firstError c.reads = none → Returns (fun fuel => handleSocks5 fuel p initial) c := by
  intro h
  have hreturns := h { opened := .ok 1 } [0x05, 0x01, 0x00] leavesEarly rfl
  have hstuck : StuckInAddress { opened := .ok 1 } [0x05, 0x01, 0x00] leavesEarly.reads :=
    ⟨rfl, 3, 0x01, [0x7f], ⟨0x01, [0x00], 0x00, rfl, rfl, rfl, rfl⟩, .inl ⟨rfl, by decide⟩⟩
  cases socks5_handshake { opened := .ok 1 } [0x05, 0x01, 0x00] leavesEarly with
  | request req c' start atyp rest leads reach fits whole goesOn => exact goesOn hstuck
  | error message c' leads failed whole goesOn => exact goesOn hstuck
  | panicked c' leads cut goesOn => exact goesOn hstuck
  | stuck leads whole spins =>
      have hleads : Leads (fun fuel => handleSocks5 fuel { opened := .ok 1 } [0x05, 0x01, 0x00])
          leavesEarly none := leads.bind_none
      exact hleads.not_returns hreturns

end Jmux.Remote
