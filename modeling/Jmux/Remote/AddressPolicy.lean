/-
  Jmux.Remote.AddressPolicy — where `proxy.open` can be made to connect.

  Without the operator's opt-in the handler resolves the host and refuses a
  blocked answer, and then dials the host, which resolves it again.

  Main result:
    * `policy_holds_iff` — no resolver and no network can make a request reach a
      blocked address exactly when its host is a blocked literal without a zone,
      which the check refuses, or is dialed as a literal that reaches no blocked
      address, or is no host to dial at all.
-/
import Jmux.Remote.Daemon

namespace Jmux.Remote

open Jmux.Lib

/-! ## §1. What a request opens. -/

/-- The host and the port of a request that gets to the check. -/
def openTarget (server : RpcServer) (req : IncomingRequest) : Option (String × Nat) :=
  match getStringParam req.params "host" with
  | none => none
  | some host =>
      if host = "" then none
      else
        match (getIntParam req.params "port").filter fun port => 0 < port ∧ port ≤ 65535 with
        | none => none
        | some port =>
            if server.streams.entries.length ≥ maxConcurrentStreams then none
            else some (host, port.toNat)

/-- The check lets the host through. -/
def passesCheck (env : OpenEnv) (host : String) : Bool :=
  env.allowPrivate ||
    match netLookupHost env host with
    | .error _ => false
    | .ok addrs => (blockedAnswer addrs).isNone

/-- The address that a request is connected to: the check, then the dial. -/
theorem handleProxyOpen_connected (env : OpenEnv) (server : RpcServer) (req : IncomingRequest) :
    (server.handleProxyOpen env req).2.2 =
      (openTarget server req).bind fun target =>
        if passesCheck env target.1 then (netDial env target.1 target.2).toOption else none := by
  unfold RpcServer.handleProxyOpen openTarget
  cases getStringParam req.params "host" with
  | none => rfl
  | some host =>
      dsimp only
      split
      · rfl
      · cases (getIntParam req.params "port").filter fun port => 0 < port ∧ port ≤ 65535 with
        | none => rfl
        | some port =>
            dsimp only
            split
            · rfl
            · dsimp only [Option.bind_some]
              unfold passesCheck
              -- the opt-in skips the check
              cases env.allowPrivate with
              | true =>
                  simp only [if_true, Bool.true_or]
                  cases netDial env host port.toNat <;> rfl
              | false =>
                  simp only [Bool.false_eq_true, if_false, Bool.false_or]
                  cases netLookupHost env host with
                  | error err => rfl
                  | ok addrs =>
                      cases hblocked : blockedAnswer addrs with
                      | some addr =>
                          simp only [hblocked, Option.map_some, Option.isNone_some,
                            Bool.false_eq_true, if_false]
                      | none =>
                          simp only [hblocked, Option.map_none, Option.isNone_none, if_true]
                          cases netDial env host port.toNat <;> rfl

/-! ## §2. The policy. -/

/-- Whatever the resolver and the network do, no blocked address is reached. -/
def PolicyHolds (server : RpcServer) (req : IncomingRequest) : Prop :=
  ∀ env : OpenEnv, env.allowPrivate = false →
    ∀ ip, (server.handleProxyOpen env req).2.2 = some ip → isBlockedAddr ip = false

/-- The check refuses the literal, or the dial goes to a literal that reaches no
blocked address, or nowhere. -/
def SafeHost (host : String) (port : Nat) : Prop :=
  (parseIP host).any isBlockedAddr ∨
    ∀ target, dialHost host port = some target →
      ∃ addr, parseAddr target = some addr ∧ isBlockedAddr addr.ip.reached = false

/-- The resolver answers the check with nothing to block and the dial with the
loopback address, and everything accepts. -/
def rebinding : OpenEnv where
  lookupHost   := fun _ => .ok []
  lookupIPAddr := fun _ => .ok [{ ip := loopback, zone := "" }]
  accepts      := fun _ _ => true
  dialError    := ""
  quote        := fun s => s

theorem parseAddr_of_parseIP {host : String} (h : (parseIP host).any isBlockedAddr) :
    (parseAddr host).isSome := by
  unfold parseIP at h
  cases hp : parseAddr host with
  | some addr => rfl
  | none =>
      rw [hp] at h
      cases h

theorem parseAddr_empty : parseAddr "" = none := rfl

theorem blockedAnswer_single (host : String) :
    blockedAnswer [host] = if (parseIP host).any isBlockedAddr then some host else none := by
  unfold blockedAnswer
  rw [List.find?_cons]
  split
  · next h => rw [if_pos h]
  · next h => rw [if_neg (by rw [h]; decide)]; rfl

/-- The check refuses a blocked literal without a zone. -/
theorem literal_refused {env : OpenEnv} (hpriv : env.allowPrivate = false) {host : String}
    (h : (parseIP host).any isBlockedAddr) : passesCheck env host = false := by
  -- a literal is its own answer, so the check sees it
  have hlookup : netLookupHost env host = .ok [host] := if_pos (parseAddr_of_parseIP h)
  unfold passesCheck
  rw [hpriv, hlookup]
  show (false || (blockedAnswer [host]).isNone) = false
  rw [blockedAnswer_single, if_pos h]
  rfl

/-- Any other host passes the check of some resolver. -/
theorem rebinding_passes {host : String} (h : ¬ (parseIP host).any isBlockedAddr) :
    passesCheck rebinding host = true := by
  unfold passesCheck netLookupHost
  -- a literal with a zone passes since `ParseIP` does not know it, a name since
  -- the resolver answers nothing
  by_cases hlit : (parseAddr host).isSome
  · rw [if_pos hlit]
    show (false || (blockedAnswer [host]).isNone) = true
    rw [blockedAnswer_single, if_neg h]
    rfl
  · rw [if_neg hlit]
    rfl

/-- A literal is dialed as it stands. -/
theorem netDial_literal {env : OpenEnv} {host target : String} {port : Nat} {addr : Addr} {ip : IP}
    (hhost : dialHost host port = some target) (haddr : parseAddr target = some addr)
    (hdial : (netDial env host port).toOption = some ip) : ip = addr.ip.reached := by
  -- the empty host would be dialed as the local system
  have hne : target ≠ "" := by
    rintro rfl
    rw [parseAddr_empty] at haddr
    cases haddr
  have hlist : dialAddrs env target = .ok [addr] := by
    unfold dialAddrs
    rw [if_neg hne, haddr]
  unfold netDial at hdial
  rw [hhost] at hdial
  dsimp only at hdial
  rw [hlist] at hdial
  dsimp only at hdial
  split at hdial
  · cases hdial
  · next found hfound =>
      obtain rfl := List.mem_singleton.mp (List.mem_of_find?_eq_some hfound)
      exact (Option.some.inj hdial).symm

/-- The dial of the rebinding resolver: a literal, or else the loopback address. -/
theorem rebinding_dial {host target : String} {port : Nat}
    (hhost : dialHost host port = some target) :
    (netDial rebinding host port).toOption =
      some (((parseAddr target).map (·.ip.reached)).getD loopback) := by
  unfold netDial dialAddrs
  rw [hhost]
  dsimp only
  by_cases hempty : target = ""
  · rw [if_pos hempty, hempty, parseAddr_empty]
    rfl
  · rw [if_neg hempty]
    cases parseAddr target with
    | some addr => rfl
    | none => rfl

/-- **The address policy** holds of exactly the requests that do not get to the
check, and those whose host is safe. -/
theorem policy_holds_iff (server : RpcServer) (req : IncomingRequest) :
    PolicyHolds server req ↔
      ∀ target, openTarget server req = some target → SafeHost target.1 target.2 := by
  unfold PolicyHolds
  simp only [handleProxyOpen_connected]
  constructor
  · rintro hpolicy ⟨host, port⟩ htarget
    by_cases hlit : (parseIP host).any isBlockedAddr
    · exact .inl hlit
    · refine .inr fun target hdial => ?_
      -- the rebinding resolver must not reach a blocked address either
      have hreach : isBlockedAddr (((parseAddr target).map (·.ip.reached)).getD loopback) = false := by
        apply hpolicy rebinding rfl
        rw [htarget, Option.bind_some, if_pos (rebinding_passes hlit)]
        exact rebinding_dial hdial
      cases haddr : parseAddr target with
      | some addr =>
          rw [haddr] at hreach
          exact ⟨addr, rfl, hreach⟩
      | none =>
          rw [haddr] at hreach
          -- a name: the second answer is the loopback address
          exact absurd (isBlockedAddr_loopback.symm.trans hreach) (by decide)
  · intro hsafe env hpriv ip hip
    obtain ⟨⟨host, port⟩, htarget, hcon⟩ := Option.bind_eq_some_iff.mp hip
    obtain ⟨hpass, hdial⟩ := Option.ite_none_right_eq_some.mp hcon
    rcases hsafe _ htarget with hlit | hliteral
    -- refused by the check
    · rw [literal_refused hpriv hlit] at hpass
      cases hpass
    · cases hhost : dialHost host port with
      | none =>
          unfold netDial at hdial
          rw [hhost] at hdial
          cases hdial
      | some target =>
          obtain ⟨addr, haddr, hfree⟩ := hliteral target hhost
          -- no resolver is asked
          rw [netDial_literal hhost haddr hdial]
          exact hfree

/-! ## §3. Ways around the check. -/

def openRequest (host : String) (port : Nat) : IncomingRequest where
  id     := some (.num 1)
  method := "proxy.open"
  params := .obj [("host", .str host), ("port", .num port)]

/-- A name that is answered differently the second time, a link-local literal
with a zone, and the unspecified address. -/
theorem policy_bypassed :
    ((({} : RpcServer).handleProxyOpen rebinding (openRequest "rebind.example" 80)).2.2 =
      some loopback ∧ isBlockedAddr loopback) ∧
    ((({} : RpcServer).handleProxyOpen rebinding (openRequest "fe80::1%eth0" 80)).2.2 =
      some (.v6 (0xfe80#128 <<< 112 ||| 1)) ∧ isBlockedAddr (.v6 (0xfe80#128 <<< 112 ||| 1))) ∧
    (({} : RpcServer).handleProxyOpen rebinding (openRequest "0.0.0.0" 80)).2.2 =
      some loopback := by
  decide +kernel

end Jmux.Remote
