/-
  Jmux.Remote.Address — IP addresses as the daemon's network library reads them
  (Go's `net/netip` and `net`), and the daemon's list of blocked networks.

  A literal is IPv4, or IPv6 with or without a zone.  An IPv4-mapped IPv6
  address stands for the IPv4 address wherever networks are compared (`to4`).
-/
import Mathlib.Data.List.Basic

namespace Jmux.Remote

inductive IP
  | v4 (addr : BitVec 32)
  | v6 (addr : BitVec 128)
  deriving DecidableEq, Repr

/-- `netip.Addr`; no zone is the empty one. -/
structure Addr where
  ip   : IP
  zone : String
  deriving DecidableEq, Repr

/-! ## §1. Literals (`netip.ParseAddr`). -/

def ofBytes (bytes : List Nat) : Nat := bytes.foldl (fun acc b => acc * 256 + b) 0

/-- The rest of the fields; `val` and `digLen` belong to the field being read,
`fields` are the finished ones. -/
def parseIPv4Fields : List Char → Nat → Nat → List Nat → Option (List Nat)
  | [], val, _, fields => if fields.length < 3 then none else some (fields ++ [val])
  | c :: cs, val, digLen, fields =>
      if '0' ≤ c ∧ c ≤ '9' then
        let next := val * 10 + (c.toNat - '0'.toNat)
        -- no leading zero, and a field fits a byte
        if (digLen = 1 ∧ val = 0) ∨ next > 255 then none
        else parseIPv4Fields cs next (digLen + 1) fields
      else if c = '.' then
        if digLen = 0 ∨ cs = [] ∨ fields.length = 3 then none
        else parseIPv4Fields cs 0 0 (fields ++ [val])
      else none

def parseIPv4 (s : List Char) : Option Addr :=
  (parseIPv4Fields s 0 0 []).map fun fields =>
    { ip := .v4 (.ofNat 32 (ofBytes fields)), zone := "" }

def hexVal (c : Char) : Option Nat :=
  if '0' ≤ c ∧ c ≤ '9' then some (c.toNat - '0'.toNat)
  else if 'a' ≤ c ∧ c ≤ 'f' then some (c.toNat - 'a'.toNat + 10)
  else if 'A' ≤ c ∧ c ≤ 'F' then some (c.toNat - 'A'.toNat + 10)
  else none

/-- What the loop over the colon-separated fields has read. -/
structure IPv6Fields where
  bytes    : List Nat
  /-- The number of bytes before `::`. -/
  ellipsis : Option Nat

/-- At most eight fields, a final IPv4 address among them; nothing may be left over. -/
def parseIPv6Fields : Nat → List Char → IPv6Fields → Option IPv6Fields
  | 0, s, acc => if s = [] then some acc else none
  | fuel + 1, s, acc =>
      let digits := s.takeWhile fun c => (hexVal c).isSome
      let rest := s.dropWhile fun c => (hexVal c).isSome
      let group := digits.foldl (fun n c => n * 16 + (hexVal c).getD 0) 0
      if digits = [] ∨ digits.length > 4 then none
      else
        match rest with
        | '.' :: _ =>
            -- the IPv4 tail must fill the last four bytes
            if (acc.ellipsis = none ∧ acc.bytes.length ≠ 12) ∨ acc.bytes.length + 4 > 16 then none
            else
              (parseIPv4Fields s 0 0 []).map fun fields =>
                { acc with bytes := acc.bytes ++ fields }
        | rest =>
            let acc := { acc with bytes := acc.bytes ++ [group / 256, group % 256] }
            match rest with
            | [] => some acc
            | ':' :: ':' :: rest =>
                -- a second `::`
                if acc.ellipsis.isSome then none
                else
                  let acc := { acc with ellipsis := some acc.bytes.length }
                  if rest = [] then some acc else parseIPv6Fields fuel rest acc
            | ':' :: rest => if rest = [] then none else parseIPv6Fields fuel rest acc
            | _ => none

/-- The `::` stands for at least one field of zeros. -/
def IPv6Fields.expand (acc : IPv6Fields) : Option (List Nat) :=
  if acc.bytes.length < 16 then
    acc.ellipsis.map fun e =>
      acc.bytes.take e ++ List.replicate (16 - acc.bytes.length) 0 ++ acc.bytes.drop e
  else if acc.ellipsis.isSome then none
  else some acc.bytes

def parseIPv6 (s : List Char) : Option Addr :=
  let body := s.takeWhile (· ≠ '%')
  let zone := s.dropWhile (· ≠ '%')
  -- a zone must not be empty
  if zone = ['%'] then none
  else
    let fields : Option IPv6Fields :=
      match body with
      | ':' :: ':' :: rest =>
          if rest = [] then some { bytes := [], ellipsis := some 0 }
          else parseIPv6Fields 8 rest { bytes := [], ellipsis := some 0 }
      | body => parseIPv6Fields 8 body { bytes := [], ellipsis := none }
    (fields.bind IPv6Fields.expand).map fun bytes =>
      { ip := .v6 (.ofNat 128 (ofBytes bytes)), zone := String.ofList zone.tail }

/-- The first `.`, `:` or `%` decides what the text is read as. -/
def parseAddr (s : String) : Option Addr :=
  match s.toList.find? fun c => c = '.' ∨ c = ':' ∨ c = '%' with
  | some '.' => parseIPv4 s.toList
  | some ':' => parseIPv6 s.toList
  | _ => none

/-- `net.ParseIP` knows no zones. -/
def parseIP (s : String) : Option IP :=
  ((parseAddr s).filter (·.zone = "")).map (·.ip)

example : parseAddr "10.0.0.1" = some { ip := .v4 0x0a000001, zone := "" } := by decide +kernel

example : parseAddr "fe80::1%eth0" =
    some { ip := .v6 (0xfe80#128 <<< 112 ||| 1), zone := "eth0" } := by decide +kernel

example : parseAddr "::ffff:127.0.0.1" = some { ip := .v6 0xffff7f000001, zone := "" } := by
  decide +kernel

/-! ## §2. Networks. -/

/-- An IPv4-mapped address is the IPv4 address (`IP.To4`). -/
def IP.to4 : IP → IP
  | .v4 addr => .v4 addr
  | .v6 addr => if addr >>> 32 = 0xffff then .v4 (addr.truncate 32) else .v6 addr

structure IPNet where
  ip        : IP
  prefixLen : Nat
  deriving DecidableEq, Repr

/-- The addresses agree under the mask (`IPNet.Contains`). -/
def IPNet.contains (net : IPNet) (ip : IP) : Bool :=
  match net.ip, ip.to4 with
  | .v4 a, .v4 b => a >>> (32 - net.prefixLen) = b >>> (32 - net.prefixLen)
  | .v6 a, .v6 b => a >>> (128 - net.prefixLen) = b >>> (128 - net.prefixLen)
  | _, _ => false

/-- Loopback, link-local, private and unique-local networks. -/
def blockedCIDRs : List IPNet :=
  [ { ip := .v4 0x7f000000, prefixLen := 8 },          -- 127.0.0.0/8
    { ip := .v6 1, prefixLen := 128 },                 -- ::1/128
    { ip := .v4 0xa9fe0000, prefixLen := 16 },         -- 169.254.0.0/16
    { ip := .v6 (0xfe80#128 <<< 112), prefixLen := 10 }, -- fe80::/10
    { ip := .v4 0x0a000000, prefixLen := 8 },          -- 10.0.0.0/8
    { ip := .v4 0xac100000, prefixLen := 12 },         -- 172.16.0.0/12
    { ip := .v4 0xc0a80000, prefixLen := 16 },         -- 192.168.0.0/16
    { ip := .v6 (0xfc00#128 <<< 112), prefixLen := 7 } ] -- fc00::/7

def isBlockedAddr (ip : IP) : Bool := blockedCIDRs.any (·.contains ip)

def loopback : IP := .v4 0x7f000001

/-- Dialing an unspecified address reaches the local system. -/
def IP.reached (ip : IP) : IP :=
  match ip.to4 with
  | .v4 addr => if addr = 0 then loopback else .v4 addr
  | .v6 addr => if addr = 0 then .v6 1 else .v6 addr

theorem isBlockedAddr_loopback : isBlockedAddr loopback = true := by decide

/-! ## §3. Host and port. -/

/-- `net.JoinHostPort` -/
def joinHostPort (host port : List Char) : List Char :=
  if ':' ∈ host then '[' :: host ++ [']', ':'] ++ port else host ++ [':'] ++ port

/-- The part before the last colon and the part behind it. -/
def cutLastColon (s : List Char) : Option (List Char × List Char) :=
  (s.reverse.dropWhile (· ≠ ':')).tail?.map fun before =>
    (before.reverse, (s.reverse.takeWhile (· ≠ ':')).reverse)

/-- The host of `net.SplitHostPort`; `none` is its error. -/
def splitHost (hostport : List Char) : Option (List Char) :=
  (cutLastColon hostport).bind fun (before, port) =>
    match before with
    | '[' :: inner =>
        -- the first `]` stands right before the last colon
        if inner.getLast? = some ']' ∧ ']' ∉ inner.dropLast ∧ '[' ∉ inner ∧
            '[' ∉ port ∧ ']' ∉ port then
          some inner.dropLast
        else none
    | host =>
        if ':' ∈ host ∨ '[' ∈ host ∨ ']' ∈ host ∨ '[' ∈ port ∨ ']' ∈ port then none
        else some host

/-- The host that a dial of `host` and `port` goes to. -/
def dialHost (host : String) (port : Nat) : Option String :=
  (splitHost (joinHostPort host.toList (toString port).toList)).map String.ofList

example : dialHost "[127.0.0.1]" 80 = some "127.0.0.1" := by decide +kernel

end Jmux.Remote
