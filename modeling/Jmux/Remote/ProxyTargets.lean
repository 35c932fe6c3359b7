/-
  Jmux.Remote.ProxyTargets — where a proxy request goes, over each of the two protocols.

  A SOCKS5 request has an address in bytes, an HTTP request has it as text before the
  last colon of its target.  The daemon joins host and port and dials; it puts brackets
  around a host with a colon, and the HTTP handler has left those of the request on it.

  Main results:
    * `Connection.opens_iff`  — the stream that a request opens.
    * `HttpFor.target`        — what the first line of a header names.
    * `dialed_ipv4`           — the text of an IPv4 address is dialled as this address.
    * `bracketed_not_dialed`  — a host in brackets is not dialled at all.
    * `same_destination_iff`  — where both protocols reach the same destination.
-/
import Mathlib.Data.Bool.AllAny
import Jmux.Lib.Numeral
import Jmux.Remote.Address
import Jmux.Remote.LossyText
import Jmux.Remote.ProxyFragments

namespace Jmux.Remote

open Jmux.Lib ProxyRun

/-! ## §1. Destinations. -/

/-- Neither a blank nor a delimiter of hosts and ports. -/
def isHostChar (c : Char) : Bool := !Str.isWhitespace c && c != ':' && c != '[' && c != ']'

inductive Destination
  | ipv4 (a b c d : UInt8)
  | domain (name : List Char) (nonempty : name ≠ []) (chars : ∀ c ∈ name, isHostChar c = true)
      (short : (encode name).length < 256)
  | ipv6 (octets : Bytes) (length : octets.length = 16)

namespace Destination

def isIpv6 : Destination → Bool
  | ipv6 _ _ => true
  | _ => false

/-- The address of a SOCKS5 request. -/
def address : Destination → ProxyAddress
  | ipv4 a b c d => .ipv4 a b c d
  | domain name _ _ short => .domain (encode name) short
  | ipv6 octets length => .ipv6 octets length

/-- The text is the address, or the name, of the destination. -/
def Names (text : String) : Destination → Prop
  | ipv4 a b c d =>
      parseAddr text = some
        { ip := .v4 (.ofNat 32 (ofBytes [a.toNat, b.toNat, c.toNat, d.toNat])), zone := "" }
  | domain name _ _ _ => text.toList = name
  | ipv6 octets _ =>
      parseAddr text = some { ip := .v6 (.ofNat 128 (ofBytes (octets.map (·.toNat)))), zone := "" }

/-- A dial of this host goes to the destination. -/
def DialedBy (host : String) (port : Nat) (d : Destination) : Prop :=
  ∃ dialed, dialHost host port = some dialed ∧ d.Names dialed

end Destination

/-! ## §2. The texts. -/

def octetText (b : UInt8) : List Char := (toString b.toNat).toList

theorem ipv4Text_toList (a b c d : UInt8) :
    (ipv4Text [a, b, c, d]).toList =
      octetText a ++ '.' :: (octetText b ++ '.' :: (octetText c ++ '.' :: octetText d)) := by
  have hjoined : ipv4Text [a, b, c, d] = toString a.toNat ++ "." ++ toString b.toNat ++ "." ++
      toString c.toNat ++ "." ++ toString d.toNat := rfl
  rw [hjoined]
  simp only [String.toList_append, List.append_assoc]
  rfl

theorem isHostChar_of_small {c : Char} (h : c.toNat < 128)
    (hall : (Str.isAsciiAlphanumeric c || c == '.') = true) : isHostChar c = true := by
  have hsmall : ∀ n < 128, (Str.isAsciiAlphanumeric (Char.ofNat n) || Char.ofNat n == '.') = true →
      isHostChar (Char.ofNat n) = true := by decide
  have hone := hsmall c.toNat h
  rw [Char.ofNat_toNat] at hone
  exact hone hall

theorem isHostChar_alphanumeric {c : Char} (h : Str.isAsciiAlphanumeric c = true) :
    isHostChar c = true :=
  isHostChar_of_small (Str.toNat_of_isAsciiAlphanumeric h) (by rw [h]; rfl)

theorem isHostChar_digit {c : Char} (h : c.isDigit = true) : isHostChar c = true := by
  apply isHostChar_alphanumeric
  unfold Str.isAsciiAlphanumeric
  simp only [Char.isDigit, Bool.and_eq_true, decide_eq_true_eq] at h
  have hlow : '0' ≤ c := h.1
  have hhigh : c ≤ '9' := h.2
  simp [hlow, hhigh]

theorem isHostChar_hex {c : Char} (h : (hexVal c).isSome = true) : isHostChar c = true := by
  apply isHostChar_alphanumeric
  unfold Str.isAsciiAlphanumeric
  unfold hexVal at h
  split_ifs at h with hdigit hlower hupper
  · simp [hdigit.1, hdigit.2]
  · have hz : c ≤ 'z' := hlower.2.trans (by decide)
    simp [hlower.1, hz]
  · have hz : c ≤ 'Z' := hupper.2.trans (by decide)
    simp [hupper.1, hz]
  · cases h

theorem isHostChar_ipv4Text {a b c d : UInt8} {ch : Char} (h : ch ∈ (ipv4Text [a, b, c, d]).toList) :
    isHostChar ch = true := by
  have hoctet : ∀ x : UInt8, ch ∈ octetText x → isHostChar ch = true := fun x hx =>
    isHostChar_digit (isDigit_of_mem_toString hx)
  have hdot : ch = '.' → isHostChar ch = true := by
    intro heq
    rw [heq]
    decide
  rw [ipv4Text_toList] at h
  simp only [List.mem_append, List.mem_cons] at h
  rcases h with h | h | h | h | h | h | h
  · exact hoctet a h
  · exact hdot h
  · exact hoctet b h
  · exact hdot h
  · exact hoctet c h
  · exact hdot h
  · exact hoctet d h

/-- The part behind the last colon, and what it leaves. -/
theorem rtakeWhile_last (as : List Char) {bs : List Char} (h : ':' ∉ bs) :
    (as ++ ':' :: bs).rtakeWhile (· ≠ ':') = bs := by
  have hkept : ∀ c ∈ bs.reverse, decide (c ≠ ':') = true := by
    intro c hc
    have hne : c ≠ ':' := fun heq => h (heq ▸ List.mem_reverse.mp hc)
    simpa using hne
  unfold List.rtakeWhile
  rw [List.reverse_append, List.reverse_cons, List.append_assoc, List.takeWhile_append_of_pos hkept]
  simp

theorem rdropWhile_last (as : List Char) {bs : List Char} (h : ':' ∉ bs) :
    (as ++ ':' :: bs).rdropWhile (· ≠ ':') = as ++ [':'] := by
  have hboth : (as ++ ':' :: bs).rdropWhile (· ≠ ':') ++ (as ++ ':' :: bs).rtakeWhile (· ≠ ':') =
      as ++ ':' :: bs := List.rdropWhile_append_rtakeWhile
  rw [rtakeWhile_last as h] at hboth
  have hsplit : as ++ ':' :: bs = (as ++ [':']) ++ bs := by simp
  exact List.append_cancel_right (hboth.trans hsplit)

/-! ## §3. Requests. -/

/-- A SOCKS5 client asks for the destination. -/
structure SocksFor (d : Destination) (port : Nat) where
  methods : Bytes
  short   : methods.length < 256
  hi      : UInt8
  lo      : UInt8
  value   : portOf [hi, lo] = port

def SocksFor.request {d : Destination} {port : Nat} (r : SocksFor d port) : ConnectRequest :=
  .socks5 r.methods r.short d.address r.hi r.lo

/-- What stands for a destination before the colon and the port: an IPv6 address in any
of its spellings, in brackets. -/
inductive Authority : Destination → List Char → Prop
  | ipv4 (a b c d : UInt8) : Authority (.ipv4 a b c d) (ipv4Text [a, b, c, d]).toList
  | domain (name : List Char) (nonempty : name ≠ []) (chars : ∀ c ∈ name, isHostChar c = true)
      (short : (encode name).length < 256) : Authority (.domain name nonempty chars short) name
  | ipv6 (octets : Bytes) (length : octets.length = 16) (literal : List Char)
      (digits : ∀ c ∈ literal, (hexVal c).isSome ∨ c = ':' ∨ c = '.')
      (names : (Destination.ipv6 octets length).Names (String.ofList literal)) :
      Authority (.ipv6 octets length) ('[' :: (literal ++ [']']))

/-- The first line of an HTTP request. -/
def connectLine (authority portText version : List Char) : List Char :=
  "CONNECT ".toList ++ authority ++ ':' :: portText ++ ' ' :: version

/-- An HTTP client asks for the destination; the header ends with its first blank line. -/
structure HttpFor (d : Destination) (port : Nat) where
  authority : List Char
  spelled   : Authority d authority
  portText  : List Char
  digits    : ∀ c ∈ portText, Str.isWhitespace c = false ∧ c ≠ ':'
  value     : parseU16 portText = some port
  version   : List Char
  oneLine   : '\r' ∉ version
  headers   : Bytes
  whole     : headerEnd (encode (connectLine authority portText version) ++ 0x0d :: headers) =
    some (encode (connectLine authority portText version) ++ 0x0d :: headers).length

namespace HttpFor

variable {d : Destination} {port : Nat} (r : HttpFor d port)

def line : List Char := connectLine r.authority r.portText r.version

def head : Bytes := encode r.line ++ 0x0d :: r.headers

theorem method : connectPrefix <+: r.head := by
  show connectPrefix <+: encode ("CONNECT ".toList ++ _ ++ _ ++ _) ++ _
  rw [encode_append, encode_append, encode_append]
  simp only [List.append_assoc]
  exact List.prefix_append (encode "CONNECT ".toList) _

theorem authority_chars {c : Char} (h : c ∈ r.authority) : Str.isWhitespace c = false := by
  have hhost : isHostChar c = true → Str.isWhitespace c = false := by
    intro hc
    simp only [isHostChar, Bool.and_eq_true, Bool.not_eq_true'] at hc
    exact hc.1.1.1
  have spelled := r.spelled
  generalize r.authority = authority at h spelled
  cases spelled with
  | ipv4 a b c d => exact hhost (isHostChar_ipv4Text h)
  | domain name nonempty chars short => exact hhost (chars c h)
  | ipv6 octets length literal digits names =>
      simp only [List.mem_cons, List.mem_append, List.not_mem_nil, or_false] at h
      rcases h with h | h | h
      · exact h ▸ by decide
      · rcases digits c h with hhex | hcolon | hdot
        · exact hhost (isHostChar_hex hhex)
        · exact hcolon ▸ by decide
        · exact hdot ▸ by decide
      · exact h ▸ by decide

/-- The target of the request is one word. -/
theorem target_chars : ∀ c ∈ r.authority ++ ':' :: r.portText, Str.isWhitespace c = false := by
  intro c hc
  rcases List.mem_append.mp hc with hauthority | hport
  · exact r.authority_chars hauthority
  · rcases List.mem_cons.mp hport with hcolon | hdigit
    · exact hcolon ▸ by decide
    · exact (r.digits c hdigit).1

theorem notMem_line : (0x0d : UInt8) ∉ encode r.line := by
  intro hmem
  obtain ⟨c, hc, hbyte⟩ := List.mem_flatMap.mp hmem
  have hreturn : c = '\r' := eq_of_mem_encodeChar (d := '\r') (by decide) hbyte
  have hblank : Str.isWhitespace c = true := hreturn ▸ by decide
  have hparts : r.line =
      "CONNECT ".toList ++ ((r.authority ++ ':' :: r.portText) ++ ' ' :: r.version) := by
    unfold line connectLine
    simp
  rw [hparts, List.mem_append, List.mem_append, List.mem_cons] at hc
  rcases hc with hmethod | htarget | hspace | hversion
  · rw [hreturn] at hmethod
    exact absurd hmethod (by decide)
  · rw [r.target_chars c htarget] at hblank
    cases hblank
  · exact absurd (hreturn.symm.trans hspace) (by decide)
  · exact r.oneLine (hreturn ▸ hversion)

/-- **The header** names the authority and the port. -/
theorem target : httpTarget r.head = .ok (String.ofList r.authority, port) := by
  have hline : r.head.takeWhile (· ≠ 0x0d) = encode r.line := by
    unfold head
    have hkept : ∀ b ∈ encode r.line, decide (b ≠ 0x0d) = true := by
      intro b hb
      have hne : b ≠ 0x0d := fun heq => r.notMem_line (heq ▸ hb)
      simpa using hne
    rw [List.takeWhile_append_of_pos hkept]
    exact List.append_nil _
  have hwords : Str.splitWhitespace r.line =
      "CONNECT".toList :: (r.authority ++ ':' :: r.portText) :: Str.splitWhitespace r.version := by
    have hsplit : r.line =
        "CONNECT".toList ++ ' ' :: ((r.authority ++ ':' :: r.portText) ++ ' ' :: r.version) := by
      unfold line connectLine
      simp
    have hmethod : Str.splitWhitespace "CONNECT".toList = ["CONNECT".toList] := by decide
    rw [hsplit, Str.splitWhitespace_append (by decide), Str.splitWhitespace_append (by decide), hmethod,
      Str.splitWhitespace_word (by simp) r.target_chars]
    rfl
  have hcolon : ':' ∉ r.portText := fun hc => (r.digits ':' hc).2 rfl
  have hport := rtakeWhile_last r.authority hcolon
  have hhost := rdropWhile_last r.authority hcolon
  unfold httpTarget
  rw [hline, utf8Lossy_encode]
  dsimp only
  rw [hwords]
  dsimp only
  rw [if_neg (by simp), if_pos (by simp), hport, hhost, r.value, List.dropLast_concat]

def request : ConnectRequest :=
  .http r.head (String.ofList r.authority) port r.method r.whole r.target

end HttpFor

/-! ## §4. The stream that is opened. -/

theorem Fate.continues {p : Peers} {streamId k : Nat} {reads : List LocalRead} {c c' : ProxyConn}
    (h : Fate p streamId k reads c c') : ∃ more, Continues c c' more := by
  rcases h with ⟨-, more, hmore, -⟩ | ⟨-, more, hmore, -, -⟩
  · exact ⟨more, hmore⟩
  · exact ⟨more, hmore⟩

theorem openings_continues {c c' : ProxyConn} {more : List RpcCall} (h : Continues c c' more) :
    openings c'.calls = openings c.calls := by
  have hnone : openings more = [] := by
    refine List.filterMap_eq_nil_iff.mpr fun rpc hrpc => ?_
    have hopen := h.2 rpc hrpc
    cases rpc with
    | «open» host port answer => cases hopen
    | subscribe streamId => rfl
    | write streamId data => rfl
    | close streamId => rfl
  rw [h.1, openings_append, hnone, List.append_nil]

/-- **A tunnel** opens one stream, whatever the daemon answers. -/
theorem tunnel_openings {p : Peers} {fuel : Nat} {reply : Bytes} {context : String}
    {req : ProxyRequest} {c c' : ProxyConn} {r : Except ProxyEnd Unit}
    (h : tunnel fuel p reply context req c = some (r, c')) :
    openings c'.calls = openings c.calls ++ [(req.host, req.port)] := by
  have hcalled : ∀ (c₁ : ProxyConn) (rpc : RpcCall),
      openings (c₁.called rpc).calls = openings c₁.calls ++ openings [rpc] :=
    fun c₁ rpc => openings_append c₁.calls [rpc]
  cases hopened : p.opened with
  | error e =>
      rw [tunnel_not_opened fuel reply context c hopened] at h
      obtain ⟨-, rfl⟩ := Prod.mk.inj (Option.some.inj h)
      exact hcalled c _
  | ok streamId =>
  cases hsub : p.subscribed with
  | error e =>
      rw [tunnel_not_subscribed fuel reply context c hopened hsub] at h
      obtain ⟨-, rfl⟩ := Prod.mk.inj (Option.some.inj h)
      rw [hcalled, hcalled]
      exact List.append_nil _
  | ok _ =>
  have hstart := @openings_opened streamId c req reply
  cases hreply : p.replied with
  | error e =>
      rw [tunnel_not_replied fuel reply context c hopened hsub hreply] at h
      obtain ⟨-, rfl⟩ := Prod.mk.inj (Option.some.inj h)
      exact hstart
  | ok _ =>
  by_cases hpayload : req.payload = []
  · rw [tunnel_relay fuel reply context c hopened hsub hreply hpayload] at h
    obtain ⟨more, hmore⟩ := (relay_fate h).continues
    exact (openings_continues hmore).trans hstart
  · have hwrite : openings ((c.opened req streamId reply).called (.write streamId req.payload)).calls
        = openings c.calls ++ [(req.host, req.port)] := by
      rw [hcalled, hstart]
      exact List.append_nil _
    cases hwritten : p.payloadWritten with
    | error e =>
        rw [tunnel_not_written fuel reply context c hopened hsub hreply hpayload hwritten] at h
        obtain ⟨-, rfl⟩ := Prod.mk.inj (Option.some.inj h)
        exact hwrite
    | ok _ =>
        rw [tunnel_payload fuel reply context c hopened hsub hreply hpayload hwritten] at h
        obtain ⟨more, hmore⟩ := (relay_fate h).continues
        exact (openings_continues hmore).trans hwrite

/-- A connection on which a request arrives, with what comes behind it. -/
structure Connection (req : ConnectRequest) where
  peers   : Peers
  chunks  : List ReadChunk
  payload : Bytes
  bytes   : chunks.flatMap (·.items) = req.bytes ++ payload

/-- `proxy_open` is called for this host and port, once. -/
def Connection.Opens {req : ConnectRequest} (conn : Connection req) (host : String) (port : Nat) :
    Prop :=
  ∃ fuel r c', handleProxyConnection fuel conn.peers { reads := readsOf conn.chunks } =
    some (r, c') ∧ openings c'.calls = [(host, port)]

/-- **The stream that a request opens**, if the reads leave it whole. -/
theorem Connection.opens_iff {req : ConnectRequest} (conn : Connection req)
    (hintake : Intake conn.peers conn.chunks req conn.payload) (host : String) (port : Nat) :
    conn.Opens host port ↔ req.CleanCuts conn.chunks ∧ host = req.host ∧ port = req.port := by
  cases hintake with
  | taken protocol r c₁ clean fits leads =>
      obtain ⟨⟨answer, c₂⟩, htunnel, -⟩ :=
        tunnel_leads conn.peers protocol.reply protocol.replyContext r c₁
      have hrun := htunnel.2 _ (Nat.lt_succ_self _)
      have hopenings := tunnel_openings hrun
      rw [fits.calls, fits.host, fits.port] at hopenings
      have hconn := leads htunnel
      constructor
      · rintro ⟨fuel, r', c', hrun', htarget⟩
        obtain ⟨-, rfl⟩ := Prod.mk.inj (hconn.eq_of_run hrun')
        rw [hopenings] at htarget
        cases htarget
        exact ⟨clean, rfl, rfl⟩
      · rintro ⟨-, rfl, rfl⟩
        exact ⟨_, answer, c₂, hconn.2 _ (Nat.lt_succ_self _), hopenings⟩
  | refused e c₁ cut calls leads =>
      refine iff_of_false ?_ fun h => cut h.1
      rintro ⟨fuel, r', c', hrun', htarget⟩
      obtain ⟨-, rfl⟩ := Prod.mk.inj (leads.eq_of_run hrun')
      rw [calls] at htarget
      cases htarget

/-! ## §5. The text of an IPv4 address. -/

theorem parse_digit {d val digLen : Nat} (hd : d < 10) (hfits : val * 10 + d ≤ 255)
    (hlead : ¬ (digLen = 1 ∧ val = 0)) (cs : List Char) (fields : List Nat) :
    parseIPv4Fields (Nat.digitChar d :: cs) val digLen fields =
      parseIPv4Fields cs (val * 10 + d) (digLen + 1) fields := by
  have hdigit : ∀ d < 10, '0' ≤ Nat.digitChar d ∧ Nat.digitChar d ≤ '9' ∧
      (Nat.digitChar d).toNat - '0'.toNat = d := by decide
  obtain ⟨hlow, hhigh, hvalue⟩ := hdigit d hd
  rw [parseIPv4Fields, if_pos ⟨hlow, hhigh⟩, hvalue]
  dsimp only
  rw [if_neg]
  rintro (hzero | hlarge)
  · exact hlead hzero
  · omega

theorem parse_dot {val digLen : Nat} {cs : List Char} {fields : List Nat} (hlen : digLen ≠ 0)
    (hcs : cs ≠ []) (hfields : fields.length ≠ 3) :
    parseIPv4Fields ('.' :: cs) val digLen fields = parseIPv4Fields cs 0 0 (fields ++ [val]) := by
  rw [parseIPv4Fields, if_neg (by decide), if_pos rfl, if_neg]
  rintro (h | h | h)
  · exact hlen h
  · exact hcs h
  · exact hfields h

/-- One, two or three digits, the first of which is no zero unless it is the only one. -/
theorem octetText_digits : ∀ n < 256, (toString n).toList =
    if n < 10 then [Nat.digitChar n]
    else if n < 100 then [Nat.digitChar (n / 10), Nat.digitChar (n % 10)]
    else [Nat.digitChar (n / 100), Nat.digitChar (n / 10 % 10), Nat.digitChar (n % 10)] := by
  decide +kernel

/-- A field is read to its end, whatever follows. -/
theorem parse_octet (b : UInt8) (cs : List Char) (fields : List Nat) :
    ∃ digLen, digLen ≠ 0 ∧ parseIPv4Fields (octetText b ++ cs) 0 0 fields =
      parseIPv4Fields cs b.toNat digLen fields := by
  have hlt := b.toNat_lt
  have htext := octetText_digits b.toNat hlt
  unfold octetText
  rw [htext]
  generalize b.toNat = n at hlt
  by_cases hone : n < 10
  · rw [if_pos hone]
    refine ⟨1, by omega, ?_⟩
    show parseIPv4Fields (Nat.digitChar n :: cs) 0 0 fields = _
    rw [parse_digit hone (by omega) (by omega), Nat.zero_mul, Nat.zero_add]
  · rw [if_neg hone]
    by_cases htwo : n < 100
    · rw [if_pos htwo]
      refine ⟨2, by omega, ?_⟩
      show parseIPv4Fields (Nat.digitChar (n / 10) :: Nat.digitChar (n % 10) :: cs) 0 0 fields = _
      rw [parse_digit (by omega) (by omega) (by omega), parse_digit (by omega) (by omega) (by omega)]
      have hvalue : (0 * 10 + n / 10) * 10 + n % 10 = n := by omega
      rw [hvalue]
    · rw [if_neg htwo]
      refine ⟨3, by omega, ?_⟩
      show parseIPv4Fields (Nat.digitChar (n / 100) :: Nat.digitChar (n / 10 % 10) ::
        Nat.digitChar (n % 10) :: cs) 0 0 fields = _
      rw [parse_digit (by omega) (by omega) (by omega), parse_digit (by omega) (by omega) (by omega),
        parse_digit (by omega) (by omega) (by omega)]
      have hvalue : ((0 * 10 + n / 100) * 10 + n / 10 % 10) * 10 + n % 10 = n := by omega
      rw [hvalue]

theorem parseIPv4Fields_text (a b c d : UInt8) :
    parseIPv4Fields (ipv4Text [a, b, c, d]).toList 0 0 [] =
      some [a.toNat, b.toNat, c.toNat, d.toNat] := by
  have hne : ∀ x : UInt8, ∀ cs, octetText x ++ cs ≠ [] := by
    intro x cs hnil
    exact toString_ne_nil x.toNat (List.append_eq_nil_iff.mp hnil).1
  rw [ipv4Text_toList]
  obtain ⟨la, hla, ha⟩ := parse_octet a ('.' :: (octetText b ++ '.' :: (octetText c ++ '.' ::
    octetText d))) []
  obtain ⟨lb, hlb, hb⟩ := parse_octet b ('.' :: (octetText c ++ '.' :: octetText d)) [a.toNat]
  obtain ⟨lc, hlc, hc⟩ := parse_octet c ('.' :: octetText d) [a.toNat, b.toNat]
  obtain ⟨ld, hld, hd⟩ := parse_octet d [] [a.toNat, b.toNat, c.toNat]
  rw [ha, parse_dot hla (hne b _) (by simp), List.nil_append, hb, parse_dot hlb (hne c _) (by simp)]
  show parseIPv4Fields _ 0 0 [a.toNat, b.toNat] = _
  rw [hc, parse_dot hlc ?_ (by simp)]
  · show parseIPv4Fields _ 0 0 [a.toNat, b.toNat, c.toNat] = _
    rw [List.append_nil] at hd
    rw [hd]
    rfl
  · intro hnil
    exact toString_ne_nil d.toNat hnil

/-- **An IPv4 address** is read from its text. -/
theorem parseAddr_ipv4Text (a b c d : UInt8) :
    parseAddr (ipv4Text [a, b, c, d]) = some
      { ip := .v4 (.ofNat 32 (ofBytes [a.toNat, b.toNat, c.toNat, d.toNat])), zone := "" } := by
  have hfind : (ipv4Text [a, b, c, d]).toList.find? (fun c => c = '.' ∨ c = ':' ∨ c = '%') =
      some '.' := by
    have hdigits : (octetText a).find? (fun c => c = '.' ∨ c = ':' ∨ c = '%') = none := by
      rw [List.find?_eq_none]
      intro c hc hdelimiter
      have hdigit := isDigit_of_mem_toString hc
      rcases of_decide_eq_true hdelimiter with rfl | rfl | rfl <;> cases hdigit
    rw [ipv4Text_toList, List.find?_append, hdigits]
    rfl
  unfold parseAddr
  rw [hfind]
  show parseIPv4 (ipv4Text [a, b, c, d]).toList = _
  unfold parseIPv4
  rw [parseIPv4Fields_text]
  rfl

/-! ## §6. What the daemon dials. -/

theorem cutLastColon_last (as : List Char) {bs : List Char} (h : ':' ∉ bs) :
    cutLastColon (as ++ ':' :: bs) = some (as, bs) := by
  have hback : ((as ++ ':' :: bs).reverse.takeWhile (· ≠ ':')).reverse = bs := rtakeWhile_last as h
  have hfront : ((as ++ ':' :: bs).reverse.dropWhile (· ≠ ':')).reverse = as ++ [':'] :=
    rdropWhile_last as h
  have hreversed : (as ++ ':' :: bs).reverse.dropWhile (· ≠ ':') = ':' :: as.reverse := by
    rw [← List.reverse_reverse ((as ++ ':' :: bs).reverse.dropWhile (· ≠ ':')), hfront]
    simp
  unfold cutLastColon
  rw [hreversed, hback]
  simp

theorem portText_chars {port : Nat} {c : Char} (h : c ∈ (toString port).toList) :
    isHostChar c = true := isHostChar_digit (isDigit_of_mem_toString h)

theorem isHostChar_delimiters :
    isHostChar ':' = false ∧ isHostChar '[' = false ∧ isHostChar ']' = false := by decide

/-- A host without delimiters is dialled as it is. -/
theorem dialHost_plain {host : String} (h : ∀ c ∈ host.toList, isHostChar c = true) (port : Nat) :
    dialHost host port = some host := by
  obtain ⟨hcolon, hopen, hclose⟩ := isHostChar_delimiters
  have hnone : ∀ (cs : List Char) (c : Char), (∀ d ∈ cs, isHostChar d = true) →
      isHostChar c = false → c ∉ cs := by
    intro cs c hcs hc hmem
    rw [hcs c hmem] at hc
    cases hc
  have hport : ∀ c ∈ (toString port).toList, isHostChar c = true := fun c hc => portText_chars hc
  have hjoin : joinHostPort host.toList (toString port).toList =
      host.toList ++ ':' :: (toString port).toList := by
    unfold joinHostPort
    rw [if_neg (hnone _ _ h hcolon), List.append_assoc]
    rfl
  have hsplit : splitHost (host.toList ++ ':' :: (toString port).toList) = some host.toList := by
    unfold splitHost
    rw [cutLastColon_last host.toList (hnone _ _ hport hcolon), Option.bind_some]
    have hno : ¬ (':' ∈ host.toList ∨ '[' ∈ host.toList ∨ ']' ∈ host.toList ∨
        '[' ∈ (toString port).toList ∨ ']' ∈ (toString port).toList) := by
      rintro (hin | hin | hin | hin | hin)
      · exact hnone _ _ h hcolon hin
      · exact hnone _ _ h hopen hin
      · exact hnone _ _ h hclose hin
      · exact hnone _ _ hport hopen hin
      · exact hnone _ _ hport hclose hin
    have hfirst := hnone _ _ h hopen
    generalize host.toList = cs at hno hfirst
    dsimp only
    split
    · exact absurd List.mem_cons_self hfirst
    · rw [if_neg hno]
  unfold dialHost
  rw [hjoin, hsplit]
  exact congrArg some (String.ofList_toList)

/-- **A host in brackets** gets another pair of them, and no dial takes that. -/
theorem bracketed_not_dialed {literal : List Char} (h : ':' ∈ literal) (port : Nat) :
    dialHost (String.ofList ('[' :: (literal ++ [']']))) port = none := by
  have hport : ':' ∉ (toString port).toList := by
    intro hc
    have hchar := portText_chars hc
    rw [isHostChar_delimiters.1] at hchar
    cases hchar
  have hjoin : joinHostPort ('[' :: (literal ++ [']'])) (toString port).toList =
      '[' :: '[' :: (literal ++ [']', ']']) ++ ':' :: (toString port).toList := by
    unfold joinHostPort
    rw [if_pos (List.mem_cons_of_mem _ (List.mem_append_left _ h))]
    simp
  have hsplit : splitHost ('[' :: '[' :: (literal ++ [']', ']']) ++ ':' :: (toString port).toList) =
      none := by
    unfold splitHost
    rw [cutLastColon_last _ hport, Option.bind_some]
    -- the inner bracket opens a second time
    exact if_neg fun hall => hall.2.2.1 List.mem_cons_self
  unfold dialHost
  rw [String.toList_ofList, hjoin, hsplit]
  rfl

/-! ## §7. Both protocols. -/

theorem hexSegment_chars (n : Nat) : ∀ c ∈ (hexSegment n).toList, c ≠ '[' := by
  have hdigit : ∀ d < 16, Nat.digitChar d ≠ '[' := by decide
  unfold hexSegment
  rw [String.toList_ofList]
  induction n using Nat.strong_induction_on with
  | _ n ih =>
      rw [Nat.toDigits_eq_if (by decide)]
      split
      · next hlt =>
          intro c hc
          rw [List.mem_singleton.mp hc]
          exact hdigit n hlt
      · next hge =>
          intro c hc
          rcases List.mem_append.mp hc with hfront | hlast
          · exact ih (n / 16) (by omega) c hfront
          · rw [List.mem_singleton.mp hlast]
            exact hdigit (n % 16) (by omega)

theorem segmentsText_chars (group : List Nat) : ∀ c ∈ (segmentsText group).toList, c ≠ '[' := by
  have hcolon : ∀ c ∈ ":".toList, c ≠ '[' := List.all_iff_forall_prop.mp (by decide)
  unfold segmentsText
  rw [String.toList_intercalate, Str.forall_mem_intercalate_iff hcolon]
  intro part hpart
  obtain ⟨segment, hsegment, rfl⟩ := List.mem_map.mp hpart
  obtain ⟨n, -, rfl⟩ := List.mem_map.mp hsegment
  exact hexSegment_chars n

theorem ipv4Text_noBracket (octets : Bytes) : ∀ c ∈ (ipv4Text octets).toList, c ≠ '[' := by
  have hdot : ∀ c ∈ ".".toList, c ≠ '[' := List.all_iff_forall_prop.mp (by decide)
  unfold ipv4Text
  rw [String.toList_intercalate, Str.forall_mem_intercalate_iff hdot]
  intro part hpart
  obtain ⟨segment, hsegment, rfl⟩ := List.mem_map.mp hpart
  obtain ⟨b, -, rfl⟩ := List.mem_map.mp hsegment
  intro c hc heq
  have hdigit := isDigit_of_mem_toString hc
  rw [heq] at hdigit
  cases hdigit

/-- The text of an IPv6 address has no brackets. -/
theorem ipv6Text_noBracket (octets : Bytes) : ∀ c ∈ (ipv6Text octets).toList, c ≠ '[' := by
  have hmapped : ∀ c ∈ "::ffff:".toList, c ≠ '[' := List.all_iff_forall_prop.mp (by decide)
  have hzeros : ∀ c ∈ "::".toList, c ≠ '[' := List.all_iff_forall_prop.mp (by decide)
  unfold ipv6Text
  dsimp only
  split
  · rw [String.toList_append, List.forall_mem_append]
    exact ⟨hmapped, ipv4Text_noBracket _⟩
  · split
    · rw [String.toList_append, String.toList_append, List.forall_mem_append, List.forall_mem_append]
      exact ⟨⟨segmentsText_chars _, hzeros⟩, segmentsText_chars _⟩
    · exact segmentsText_chars _

/-- The two requests have a stream opened to the same host and port, and the host is
dialled as the destination. -/
def SameDestination {d : Destination} {port : Nat} {socks : SocksFor d port} {http : HttpFor d port}
    (conn : Connection socks.request) (conn' : Connection http.request) : Prop :=
  ∃ host, conn.Opens host port ∧ conn'.Opens host port ∧ d.DialedBy host port

section Both

variable {d : Destination} {port : Nat} {socks : SocksFor d port} {http : HttpFor d port}

theorem socks_opens_iff (conn : Connection socks.request)
    (hauth : conn.peers.authWritten = .ok ()) (host : String) :
    conn.Opens host port ↔ socks.request.CleanCuts conn.chunks ∧ host = d.address.host := by
  rw [conn.opens_iff (request_intake hauth socks.request conn.payload conn.chunks conn.bytes)]
  have hport : port = socks.request.port := socks.value.symm
  constructor
  · rintro ⟨clean, hhost, -⟩
    exact ⟨clean, hhost⟩
  · rintro ⟨clean, hhost⟩
    exact ⟨clean, hhost, hport⟩

theorem http_opens_iff (conn : Connection http.request) (host : String) :
    conn.Opens host port ↔
      http.request.CleanCuts conn.chunks ∧ host = String.ofList http.authority := by
  rw [conn.opens_iff (http_intake conn.peers http.method http.whole http.target conn.bytes)]
  constructor
  · rintro ⟨clean, hhost, -⟩
    exact ⟨clean, hhost⟩
  · rintro ⟨clean, hhost⟩
    exact ⟨clean, hhost, rfl⟩

/-- Host and authority are the same text, and it is dialled as the destination, but for
an IPv6 address. -/
theorem host_eq_authority_iff {authority : List Char} (h : Authority d authority) (port : Nat) :
    d.address.host = String.ofList authority ∧ d.DialedBy d.address.host port ↔
      d.isIpv6 = false := by
  cases h with
  | ipv4 a b c e =>
      refine iff_of_true ⟨String.ofList_toList.symm, ipv4Text [a, b, c, e], ?_, ?_⟩ rfl
      · exact dialHost_plain (fun ch hch => isHostChar_ipv4Text hch) port
      · exact parseAddr_ipv4Text a b c e
  | domain _ nonempty chars short =>
      have hname : domainText (encode authority) = String.ofList authority := by
        unfold domainText
        rw [utf8Lossy_encode]
      refine iff_of_true ⟨hname, String.ofList authority, ?_, ?_⟩ rfl
      · show dialHost (domainText (encode authority)) port = _
        rw [hname]
        refine dialHost_plain (fun c hc => chars c ?_) port
        rwa [String.toList_ofList] at hc
      · exact String.toList_ofList
  | ipv6 octets length literal digits names =>
      refine iff_of_false ?_ Bool.true_eq_false_eq_False
      rintro ⟨heq, -⟩
      have hchars := congrArg String.toList heq
      rw [String.toList_ofList] at hchars
      have hbracket : '[' ∈ (ipv6Text octets).toList := by
        show '[' ∈ (Destination.ipv6 octets length).address.host.toList
        rw [hchars]
        exact List.mem_cons_self
      exact ipv6Text_noBracket octets '[' hbracket rfl

/-- **Both protocols reach the same destination** exactly if it is no IPv6 address and the
reads leave the requests whole. -/
theorem same_destination_iff (conn : Connection socks.request) (conn' : Connection http.request)
    (hauth : conn.peers.authWritten = .ok ()) :
    SameDestination conn conn' ↔ d.isIpv6 = false ∧
      socks.request.CleanCuts conn.chunks ∧ http.request.CleanCuts conn'.chunks := by
  rw [← host_eq_authority_iff http.spelled port]
  constructor
  · rintro ⟨host, hopens, hopens', hdialed⟩
    obtain ⟨clean, rfl⟩ := (socks_opens_iff conn hauth host).mp hopens
    obtain ⟨clean', heq⟩ := (http_opens_iff conn' _).mp hopens'
    exact ⟨⟨heq, hdialed⟩, clean, clean'⟩
  · rintro ⟨⟨heq, hdialed⟩, clean, clean'⟩
    exact ⟨d.address.host, (socks_opens_iff conn hauth _).mpr ⟨clean, rfl⟩,
      (http_opens_iff conn' _).mpr ⟨clean', heq⟩, hdialed⟩

end Both

/-! ## §8. A request that arrives in one read. -/

theorem endsAt_one {chunk : ReadChunk} {n : Nat} (hlow : 0 < n) (hhigh : n < chunk.items.length) :
    endsAt [chunk] n = false := by
  rw [endsAt_cons chunk [] hlow]
  exact decide_eq_false (by omega)

namespace ConnectRequest

theorem bytes_ne_nil (req : ConnectRequest) : req.bytes ≠ [] := by
  cases req with
  | socks5 methods short address hi lo => exact List.cons_ne_nil _ _
  | http head host port method whole target =>
      intro hnil
      have hhead : head = [] := hnil
      rw [hhead] at whole
      cases whole

theorem one_bytes (req : ConnectRequest) :
    [(⟨req.bytes, req.bytes_ne_nil⟩ : ReadChunk)].flatMap (·.items) = req.bytes ++ [] :=
  List.flatMap_singleton _ _ |>.trans (List.append_nil _).symm

/-- The daemon opens the stream, and nothing comes behind the request. -/
def inOneRead (req : ConnectRequest) : Connection req where
  peers   := { opened := .ok 1 }
  chunks  := [⟨req.bytes, req.bytes_ne_nil⟩]
  payload := []
  bytes   := req.one_bytes

/-- A request in one read is left whole. -/
theorem clean_inOneRead (req : ConnectRequest) : req.CleanCuts req.inOneRead.chunks := by
  cases req with
  | socks5 methods short address hi lo =>
      have hlen : (socks5 methods short address hi lo).bytes.length =
          2 + methods.length + 3 + address.bytes.length + 2 := by
        simp only [bytes, greeting, List.length_append, List.length_cons, List.length_nil]
        omega
      refine ⟨endsAt_one Nat.one_pos ?_, fun hdomain => endsAt_one (by omega) ?_⟩
      · show 1 < (socks5 methods short address hi lo).bytes.length
        omega
      · show _ < (socks5 methods short address hi lo).bytes.length
        omega
  | http head host port method whole target =>
      refine ⟨fun n hlow hhigh => endsAt_one hlow ?_, fun n hlow hhigh =>
        endsAt_one (Nat.zero_lt_of_lt hlow) hhigh⟩
      exact hhigh.trans_le method.length_le

end ConnectRequest

/-! ## §9. A name, and the address of the loopback. -/

theorem nameA_ne : ['a'] ≠ [] := by decide

theorem nameA_chars : ∀ c ∈ ['a'], isHostChar c = true := List.all_eq_true.mp (by decide)

theorem nameA_short : (encode ['a']).length < 256 := by decide

def nameA : Destination := .domain ['a'] nameA_ne nameA_chars nameA_short

theorem loopback_length : (List.replicate 15 0 ++ [1] : Bytes).length = 16 := by decide

def loopback6 : Destination := .ipv6 (List.replicate 15 0 ++ [1]) loopback_length

theorem loopback6_digits : ∀ c ∈ "::1".toList, (hexVal c).isSome ∨ c = ':' ∨ c = '.' :=
  List.all_iff_forall_prop.mp (by decide)

theorem loopback6_names : loopback6.Names (String.ofList "::1".toList) := by
  show parseAddr _ = some _
  decide +kernel

theorem oneMethod_short : ([0x00] : Bytes).length < 256 := by decide

theorem portOf_80 : portOf [0x00, 0x50] = 80 := by decide

def socksFor (d : Destination) : SocksFor d 80 where
  methods := [0x00]
  short   := oneMethod_short
  hi      := 0x00
  lo      := 0x50
  value   := portOf_80

theorem digits_80 : ∀ c ∈ "80".toList, Str.isWhitespace c = false ∧ c ≠ ':' :=
  List.all_iff_forall_prop.mp (by decide)

theorem parseU16_80 : parseU16 "80".toList = some 80 := by decide

theorem version_oneLine : '\r' ∉ "HTTP/1.1".toList := by decide

/-- The blank line comes at once. -/
def httpFor {d : Destination} {authority : List Char} (spelled : Authority d authority)
    (whole : headerEnd (encode (connectLine authority "80".toList "HTTP/1.1".toList) ++
      0x0d :: [0x0a, 0x0d, 0x0a]) = some (encode (connectLine authority "80".toList
        "HTTP/1.1".toList) ++ 0x0d :: [0x0a, 0x0d, 0x0a]).length) : HttpFor d 80 where
  authority := authority
  spelled   := spelled
  portText  := "80".toList
  digits    := digits_80
  value     := parseU16_80
  version   := "HTTP/1.1".toList
  oneLine   := version_oneLine
  headers   := [0x0a, 0x0d, 0x0a]
  whole     := whole

theorem nameA_spelled : Authority nameA ['a'] := .domain ['a'] nameA_ne nameA_chars nameA_short

theorem nameA_whole : headerEnd (encode (connectLine ['a'] "80".toList "HTTP/1.1".toList) ++
    0x0d :: [0x0a, 0x0d, 0x0a]) = some (encode (connectLine ['a'] "80".toList
      "HTTP/1.1".toList) ++ 0x0d :: [0x0a, 0x0d, 0x0a]).length := by decide

/-- Both protocols reach a host by its name. -/
theorem same_destination_iff_name :
    SameDestination (socksFor nameA).request.inOneRead
      (httpFor nameA_spelled nameA_whole).request.inOneRead :=
  (same_destination_iff _ _ rfl).mpr
    ⟨rfl, ConnectRequest.clean_inOneRead _, ConnectRequest.clean_inOneRead _⟩

theorem loopback6_spelled : Authority loopback6 ('[' :: ("::1".toList ++ [']'])) :=
  .ipv6 _ loopback_length "::1".toList loopback6_digits loopback6_names

theorem loopback6_whole : headerEnd (encode (connectLine ('[' :: ("::1".toList ++ [']']))
    "80".toList "HTTP/1.1".toList) ++ 0x0d :: [0x0a, 0x0d, 0x0a]) =
      some (encode (connectLine ('[' :: ("::1".toList ++ [']'])) "80".toList
        "HTTP/1.1".toList) ++ 0x0d :: [0x0a, 0x0d, 0x0a]).length := by decide

/-- An IPv6 address keeps its brackets in one of the protocols. -/
theorem different_destinations :
    ¬ ∀ (d : Destination) (port : Nat) (socks : SocksFor d port) (http : HttpFor d port),
      SameDestination socks.request.inOneRead http.request.inOneRead := by
  intro hall
  have hsame := hall loopback6 80 (socksFor loopback6) (httpFor loopback6_spelled loopback6_whole)
  obtain ⟨host, hopens, hopens', -⟩ := hsame
  obtain ⟨-, hsocks⟩ := (socks_opens_iff _ rfl host).mp hopens
  obtain ⟨-, hhttp⟩ := (http_opens_iff _ host).mp hopens'
  have htexts : ipv6Text (List.replicate 15 0 ++ [1]) = "[::1]" := hsocks.symm.trans hhttp
  exact absurd htexts (by decide)

end Jmux.Remote
