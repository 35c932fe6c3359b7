/-
  Jmux.Remote.ProxyRun — the runs of the proxy handlers, step by step.

  A handler runs with fuel.  What it leads to is the answer that it gives with enough
  of it, and it never gives another one; the parts of a run can so be looked at one
  after the other.

  Main results:
    * `Leads.bind`, `Leads.bind_error`, `Leads.bind_none` — the rules for sequences.
    * `relay_leads`, `tunnel_leads` — once there is a request, the handler returns.
-/
import Jmux.Remote.Proxy

namespace Jmux.Remote

open Jmux.Lib ProxyRun

variable {α β : Type}

/-! ## §1. Steps. -/

namespace ProxyRun

variable {x : ProxyRun α} {f : α → ProxyRun β} {c c' : ProxyConn}

theorem bind_ok {a : α} (h : x c = some (.ok a, c')) : (x >>= f) c = f a c' := by
  show andThen x f c = _
  rw [andThen, h]

theorem bind_error {e : ProxyEnd} (h : x c = some (.error e, c')) :
    (x >>= f) c = some (.error e, c') := by
  show andThen x f c = _
  rw [andThen, h]

theorem bind_none (h : x c = none) : (x >>= f) c = none := by
  show andThen x f c = _
  rw [andThen, h]

theorem bind_run : (x >>= f) c =
    match x c with
    | some (.ok a, c') => f a c'
    | some (.error e, c') => some (.error e, c')
    | none => none := rfl

@[simp] theorem pure_run (a : α) : (pure a : ProxyRun α) c = some (.ok a, c) := rfl

@[simp] theorem fail_run (message : String) :
    (fail message : ProxyRun α) c = some (.error (.error message), c) := rfl

@[simp] theorem attempt_ok (context : String) (a : α) :
    attempt context (.ok a) c = some (.ok a, c) := rfl

@[simp] theorem attempt_error (context e : String) :
    (attempt context (.error e) : ProxyRun α) c = some (.error (.error (context ++ e)), c) := rfl

@[simp] theorem write_run (bytes : Bytes) :
    write bytes c = some (.ok (), { c with sent := c.sent ++ [bytes] }) := rfl

@[simp] theorem call_run (rpc : RpcCall) :
    call rpc c = some (.ok (), { c with calls := c.calls ++ [rpc] }) := rfl

@[simp] theorem update_run (g : RpcClient → RpcClient) :
    update g c = some (.ok (), { c with client := g c.client }) := rfl

@[simp] theorem closeStream_run (streamId : Nat) :
    closeStream streamId c = some (.ok (), { c with
      calls := c.calls ++ [.close streamId]
      client := c.client.finish (.proxyClose streamId) (.ok .null) }) := rfl

theorem byteAt_run {buf : Bytes} {i : Nat} {b : UInt8} (h : buf[i]? = some b) :
    byteAt buf i c = some (.ok b, c) := by
  rw [byteAt, h]
  rfl

theorem byteAt_outOfRange {buf : Bytes} {i : Nat} (h : buf.length ≤ i) :
    byteAt buf i c = some (.error .panicked, c) := by
  rw [byteAt, List.getElem?_eq_none h]
  rfl

theorem slice_run {buf : Bytes} {start stop : Nat} (h : stop ≤ buf.length) :
    slice buf start stop c = some (.ok ((buf.take stop).drop start), c) := by
  rw [slice, if_pos h]
  rfl

end ProxyRun

/-! ## §2. What a run leads to. -/

/-- With any fuel the run gives this answer or none, and with fuel for all its reads it
gives this one; the answer `none` is a run without end. -/
def Leads (x : Nat → ProxyRun α) (c : ProxyConn) (r : Option (Except ProxyEnd α × ProxyConn)) :
    Prop :=
  (∀ fuel, x fuel c = none ∨ x fuel c = r) ∧ ∀ fuel, c.reads.length < fuel → x fuel c = r

/-- The run comes to an end. -/
def Terminates (x : Nat → ProxyRun α) (c : ProxyConn) : Prop := ∃ fuel, x fuel c ≠ none

/-- It ends with a result, not with a panic. -/
def Returns (x : Nat → ProxyRun α) (c : ProxyConn) : Prop :=
  ∃ fuel r c', x fuel c = some (r, c') ∧ r ≠ .error .panicked

section Leads

variable {x : Nat → ProxyRun α} {f : Nat → α → ProxyRun β} {c c' : ProxyConn}
  {r : Option (Except ProxyEnd β × ProxyConn)}

theorem Leads.bind {a : α} (hx : Leads x c (some (.ok a, c')))
    (hreads : c'.reads.length ≤ c.reads.length) (hf : Leads (fun fuel => f fuel a) c' r) :
    Leads (fun fuel => x fuel >>= f fuel) c r := by
  constructor
  · intro fuel
    rcases hx.1 fuel with hnone | hsome
    · exact .inl (ProxyRun.bind_none hnone)
    · show (x fuel >>= f fuel) c = none ∨ (x fuel >>= f fuel) c = r
      rw [bind_ok hsome]
      exact hf.1 fuel
  · intro fuel hfuel
    show (x fuel >>= f fuel) c = r
    rw [bind_ok (hx.2 fuel hfuel)]
    exact hf.2 fuel (lt_of_le_of_lt hreads hfuel)

theorem Leads.bind_error {e : ProxyEnd} (hx : Leads x c (some (.error e, c'))) :
    Leads (fun fuel => x fuel >>= f fuel) c (some (.error e, c')) := by
  constructor
  · intro fuel
    rcases hx.1 fuel with hnone | hsome
    · exact .inl (ProxyRun.bind_none hnone)
    · exact .inr (ProxyRun.bind_error hsome)
  · intro fuel hfuel
    exact ProxyRun.bind_error (hx.2 fuel hfuel)

theorem Leads.bind_none (hx : Leads x c none) : Leads (fun fuel => x fuel >>= f fuel) c none := by
  have hall : ∀ fuel, (x fuel >>= f fuel) c = none := fun fuel => by
    rcases hx.1 fuel with hnone | hsome
    · exact ProxyRun.bind_none hnone
    · exact ProxyRun.bind_none hsome
  exact ⟨fun fuel => .inl (hall fuel), fun fuel _ => hall fuel⟩

theorem Leads.terminates_iff {r : Option (Except ProxyEnd α × ProxyConn)} (h : Leads x c r) :
    Terminates x c ↔ r ≠ none := by
  constructor
  · rintro ⟨fuel, hne⟩ rfl
    rcases h.1 fuel with hnone | hnone <;> exact hne hnone
  · intro hne
    refine ⟨c.reads.length + 1, ?_⟩
    rw [h.2 _ (Nat.lt_succ_self _)]
    exact hne

/-- It never gives another answer. -/
theorem Leads.eq_of_run {r r' : Except ProxyEnd α × ProxyConn} {fuel : Nat} (h : Leads x c (some r))
    (hrun : x fuel c = some r') : r' = r := by
  rcases h.1 fuel with hnone | hsome
  · rw [hnone] at hrun
    exact absurd hrun (by simp)
  · rw [hrun] at hsome
    exact Option.some.inj hsome

theorem Leads.returns_iff {r : Except ProxyEnd α × ProxyConn} (h : Leads x c (some r)) :
    Returns x c ↔ r.1 ≠ .error .panicked := by
  constructor
  · rintro ⟨fuel, r', c', hrun, hne⟩
    rw [← h.eq_of_run hrun]
    exact hne
  · intro hne
    exact ⟨c.reads.length + 1, r.1, r.2, h.2 _ (Nat.lt_succ_self _), hne⟩

theorem Leads.not_returns (h : Leads x c none) : ¬ Returns x c := by
  rintro ⟨fuel, r, c', hrun, -⟩
  rcases h.1 fuel with hnone | hnone <;> rw [hnone] at hrun <;> exact absurd hrun (by simp)

end Leads

/-! ## §3. The relay. -/

/-- After `proxy_close`. -/
def ProxyConn.closed (c : ProxyConn) (streamId : Nat) : ProxyConn :=
  { c with
    calls  := c.calls ++ [.close streamId]
    client := c.client.finish (.proxyClose streamId) (.ok .null) }

section Turns

variable {p : Peers} {c : ProxyConn} {rest : List LocalRead} (streamId k : Nat)

theorem localTurn_eof (h : c.reads = []) :
    localTurn p streamId k c = some (.ok false, c.closed streamId) := by
  obtain ⟨reads, sent, calls, client⟩ := c
  subst h
  rfl

theorem localTurn_data {chunk : Fill.Chunk UInt8} (h : c.reads = .data chunk :: rest) :
    localTurn p streamId k c = some (.ok (p.turn k).written.isOk,
      { c with reads := rest, calls := c.calls ++ [.write streamId chunk.items] }) := by
  obtain ⟨reads, sent, calls, client⟩ := c
  subst h
  unfold localTurn
  cases hwritten : (p.turn k).written <;> simp [bind_run, readLocal] <;> rfl

theorem localTurn_wouldBlock {e : IoError} (h : c.reads = .err e :: rest)
    (hblock : e.wouldBlock = true) :
    localTurn p streamId k c = some (.ok true, { c with reads := rest }) := by
  obtain ⟨reads, sent, calls, client⟩ := c
  subst h
  simp [localTurn, bind_run, readLocal, hblock]

theorem localTurn_err {e : IoError} (h : c.reads = .err e :: rest)
    (hblock : e.wouldBlock = false) :
    localTurn p streamId k c = some (.error (.error ("Local read error: " ++ e.message)),
      { c with reads := rest }.closed streamId) := by
  obtain ⟨reads, sent, calls, client⟩ := c
  subst h
  simp [localTurn, bind_run, readLocal, hblock, ProxyConn.closed]

variable (p c) in
theorem remoteTurn_eq :
    remoteTurn p streamId k c =
      match (p.turn k).event with
      | .event (.data data) =>
          if (p.turn k).delivered.isOk then some (.ok true, { c with sent := c.sent ++ [data] })
          else some (.ok false, { c with sent := c.sent ++ [data] }.closed streamId)
      | .event (.eof final) => some (.ok false, { c with sent := c.sent ++ final.toList })
      | .event (.error _) => some (.ok false, c.closed streamId)
      | .empty => some (.ok true, c)
      | .disconnected => some (.ok false, c) := by
  unfold remoteTurn
  rcases (p.turn k).event with (data | (_ | final) | _) | _ | _
  · cases hdelivered : (p.turn k).delivered
    · simp [bind_run]
      rfl
    · simp [bind_run]
      rfl
  · simp
  · rfl
  · rfl
  · rfl
  · rfl

end Turns

/-- The relay has come to its end, without a panic. -/
def Ended (r : Except ProxyEnd Bool × ProxyConn) : Prop :=
  r.1 = .ok false ∨ ∃ message, r.1 = .error (.error message)

theorem localTurn_run (p : Peers) (streamId k : Nat) (c : ProxyConn) :
    ∃ r, localTurn p streamId k c = some r ∧ (Ended r ∨
      (r.1 = .ok true ∧ r.2.reads.length < c.reads.length)) := by
  cases hreads : c.reads with
  | nil => exact ⟨_, localTurn_eof streamId k hreads, .inl (.inl rfl)⟩
  | cons read rest =>
      cases read with
      | data chunk =>
          refine ⟨_, localTurn_data streamId k hreads, ?_⟩
          cases hok : (p.turn k).written.isOk with
          | true => exact .inr ⟨rfl, Nat.lt_succ_self _⟩
          | false => exact .inl (.inl rfl)
      | err e =>
          cases hblock : e.wouldBlock with
          | true =>
              exact ⟨_, localTurn_wouldBlock streamId k hreads hblock, .inr ⟨rfl, Nat.lt_succ_self _⟩⟩
          | false => exact ⟨_, localTurn_err streamId k hreads hblock, .inl (.inr ⟨_, rfl⟩)⟩

theorem remoteTurn_run (p : Peers) (streamId k : Nat) (c : ProxyConn) :
    ∃ r, remoteTurn p streamId k c = some r ∧ r.2.reads = c.reads ∧
      (Ended r ∨ r.1 = .ok true) := by
  rw [remoteTurn_eq]
  rcases (p.turn k).event with (data | final | _) | _ | _
  · cases hok : (p.turn k).delivered.isOk with
    | true => exact ⟨_, rfl, rfl, .inr rfl⟩
    | false => exact ⟨_, rfl, rfl, .inl (.inl rfl)⟩
  · exact ⟨_, rfl, rfl, .inl (.inl rfl)⟩
  · exact ⟨_, rfl, rfl, .inl (.inl rfl)⟩
  · exact ⟨_, rfl, rfl, .inr rfl⟩
  · exact ⟨_, rfl, rfl, .inl (.inl rfl)⟩

section Relay

variable {p : Peers} {streamId k : Nat} {c : ProxyConn}

/-- After a turn that ends the relay nothing more is done. -/
theorem bind_ended {turn : ProxyRun Bool} {r : Except ProxyEnd Bool × ProxyConn}
    (h : turn c = some r) (hr : Ended r) (more : ProxyRun Unit) :
    (turn >>= fun next => if next = true then more else pure ()) c =
      some (r.1.map fun _ => (), r.2) := by
  obtain ⟨answer, c'⟩ := r
  rcases hr with hfalse | ⟨message, herror⟩
  · obtain rfl : answer = .ok false := hfalse
    rw [bind_ok h]
    rfl
  · obtain rfl : answer = .error (.error message) := herror
    rw [ProxyRun.bind_error h]
    rfl

theorem relay_local_ended {r : Except ProxyEnd Bool × ProxyConn}
    (h : localTurn p streamId k c = some r) (hr : Ended r) (fuel : Nat) :
    relayStreams p streamId (fuel + 1) k c = some (r.1.map fun _ => (), r.2) := by
  rw [relayStreams]
  exact bind_ended h hr _

theorem relay_remote_ended {c' : ProxyConn} {r : Except ProxyEnd Bool × ProxyConn}
    (hlocal : localTurn p streamId k c = some (.ok true, c'))
    (h : remoteTurn p streamId k c' = some r) (hr : Ended r) (fuel : Nat) :
    relayStreams p streamId (fuel + 1) k c = some (r.1.map fun _ => (), r.2) := by
  rw [relayStreams, bind_ok hlocal]
  exact bind_ended h hr _

theorem relay_next {c' c'' : ProxyConn} (hlocal : localTurn p streamId k c = some (.ok true, c'))
    (hremote : remoteTurn p streamId k c' = some (.ok true, c'')) (fuel : Nat) :
    relayStreams p streamId (fuel + 1) k c = relayStreams p streamId fuel (k + 1) c'' := by
  rw [relayStreams, bind_ok hlocal]
  exact bind_ok hremote

/-- Whatever the first turn ends with is what the relay ends with. -/
theorem leads_of_ended {r : Except ProxyEnd Unit × ProxyConn}
    (h : ∀ fuel, relayStreams p streamId (fuel + 1) k c = some r) :
    Leads (fun fuel => relayStreams p streamId fuel k) c (some r) := by
  constructor
  · intro fuel
    cases fuel with
    | zero => exact .inl rfl
    | succ fuel => exact .inr (h fuel)
  · intro fuel hfuel
    obtain ⟨fuel, rfl⟩ := Nat.exists_eq_succ_of_ne_zero (Nat.ne_of_gt (Nat.zero_lt_of_lt hfuel))
    exact h fuel

theorem leads_of_next {c' c'' : ProxyConn} {r : Except ProxyEnd Unit × ProxyConn}
    (hlocal : localTurn p streamId k c = some (.ok true, c'))
    (hremote : remoteTurn p streamId k c' = some (.ok true, c''))
    (hreads : c''.reads.length < c.reads.length)
    (h : Leads (fun fuel => relayStreams p streamId fuel (k + 1)) c'' (some r)) :
    Leads (fun fuel => relayStreams p streamId fuel k) c (some r) := by
  constructor
  · intro fuel
    cases fuel with
    | zero => exact .inl rfl
    | succ fuel =>
        show relayStreams p streamId (fuel + 1) k c = none ∨ relayStreams p streamId (fuel + 1) k c = _
        rw [relay_next hlocal hremote]
        exact h.1 fuel
  · intro fuel hfuel
    obtain ⟨fuel, rfl⟩ := Nat.exists_eq_succ_of_ne_zero (Nat.ne_of_gt (Nat.zero_lt_of_lt hfuel))
    show relayStreams p streamId (fuel + 1) k c = _
    rw [relay_next hlocal hremote]
    exact h.2 fuel (by omega)

end Relay

theorem Ended.not_panicked {r : Except ProxyEnd Bool × ProxyConn} (h : Ended r) :
    (r.1.map fun _ => ()) ≠ .error .panicked := by
  obtain ⟨answer, c⟩ := r
  rcases h with hfalse | ⟨message, herror⟩
  · obtain rfl : answer = .ok false := hfalse
    exact fun h => nomatch h
  · obtain rfl : answer = .error (.error message) := herror
    exact fun h => nomatch h

/-- The relay returns: every turn takes one of the reads. -/
theorem relay_leads (p : Peers) (streamId k : Nat) (c : ProxyConn) :
    ∃ r, Leads (fun fuel => relayStreams p streamId fuel k) c (some r) ∧
      r.1 ≠ .error .panicked := by
  induction hn : c.reads.length using Nat.strong_induction_on generalizing c k with
  | _ n ih =>
  subst hn
  obtain ⟨⟨answer, c'⟩, hlocal, hended | ⟨htrue, hreads⟩⟩ := localTurn_run p streamId k c
  · exact ⟨_, leads_of_ended (relay_local_ended hlocal hended), hended.not_panicked⟩
  · obtain rfl : answer = .ok true := htrue
    obtain ⟨⟨answer, c''⟩, hremote, hsame, hended | htrue⟩ := remoteTurn_run p streamId k c'
    · exact ⟨_, leads_of_ended (relay_remote_ended hlocal hremote hended), hended.not_panicked⟩
    · obtain rfl : answer = .ok true := htrue
      have hless : c''.reads.length < c.reads.length := by
        rw [show c''.reads = c'.reads from hsame]
        exact hreads
      obtain ⟨r, hleads, hr⟩ := ih _ hless (k + 1) c'' rfl
      exact ⟨r, leads_of_next hlocal hremote hless hleads, hr⟩

/-! ## §4. The stream. -/

/-- After a call. -/
def ProxyConn.called (c : ProxyConn) (rpc : RpcCall) : ProxyConn :=
  { c with calls := c.calls ++ [rpc] }

/-- After `proxy_open`, `proxy_subscribe` and the reply. -/
def ProxyConn.opened (c : ProxyConn) (req : ProxyRequest) (streamId : Nat) (reply : Bytes) :
    ProxyConn :=
  { c with
    calls  := c.calls ++ [.open req.host req.port (.ok streamId), .subscribe streamId]
    client := c.client.finish (.proxySubscribe streamId) (.ok .null)
    sent   := c.sent ++ [reply] }

section Tunnel

variable {p : Peers} {req : ProxyRequest} {streamId : Nat} (fuel : Nat) (reply : Bytes)
  (context : String) (c : ProxyConn)

theorem tunnel_not_opened {e : String} (h : p.opened = .error e) :
    tunnel fuel p reply context req c =
      some (.error (.error ("proxy.open(" ++ req.host ++ ":" ++ toString req.port ++ "): " ++ e)),
        c.called (.open req.host req.port (.error e))) := by
  simp only [tunnel, bind_run, call_run, h, attempt_error]
  rfl

theorem tunnel_not_subscribed {e : String} (h : p.opened = .ok streamId)
    (hsub : p.subscribed = .error e) :
    tunnel fuel p reply context req c = some (.error (.error ("proxy.subscribe: " ++ e)),
      (c.called (.open req.host req.port (.ok streamId))).called (.subscribe streamId)) := by
  simp only [tunnel, bind_run, call_run, h, attempt_ok, subscribeStream, hsub, attempt_error]
  rfl

theorem tunnel_not_replied {e : String} (h : p.opened = .ok streamId)
    (hsub : p.subscribed = .ok ()) (hreply : p.replied = .error e) :
    tunnel fuel p reply context req c =
      some (.error (.error (context ++ e)), c.opened req streamId reply) := by
  simp only [tunnel, bind_run, call_run, h, attempt_ok, subscribeStream, hsub, update_run,
    write_run, hreply, attempt_error, List.append_assoc]
  rfl

theorem tunnel_relay (h : p.opened = .ok streamId) (hsub : p.subscribed = .ok ())
    (hreply : p.replied = .ok ()) (hpayload : req.payload = []) :
    tunnel fuel p reply context req c =
      relayStreams p streamId fuel 0 (c.opened req streamId reply) := by
  simp only [tunnel, bind_run, call_run, h, attempt_ok, subscribeStream, hsub, update_run,
    write_run, hreply, hpayload, List.append_assoc, ne_eq, not_true_eq_false, if_false]
  rfl

theorem tunnel_not_written {e : String} (h : p.opened = .ok streamId)
    (hsub : p.subscribed = .ok ()) (hreply : p.replied = .ok ()) (hpayload : req.payload ≠ [])
    (hwritten : p.payloadWritten = .error e) :
    tunnel fuel p reply context req c = some (.error (.error ("proxy.write pipelined: " ++ e)),
      (c.opened req streamId reply).called (.write streamId req.payload)) := by
  simp only [tunnel, bind_run, call_run, h, attempt_ok, subscribeStream, hsub, update_run,
    write_run, hreply, hpayload, hwritten, attempt_error, List.append_assoc, ne_eq,
    not_false_eq_true, if_true, ProxyConn.opened, ProxyConn.called, List.cons_append,
    List.nil_append]

theorem tunnel_payload (h : p.opened = .ok streamId) (hsub : p.subscribed = .ok ())
    (hreply : p.replied = .ok ()) (hpayload : req.payload ≠ [])
    (hwritten : p.payloadWritten = .ok ()) :
    tunnel fuel p reply context req c = relayStreams p streamId fuel 0
      ((c.opened req streamId reply).called (.write streamId req.payload)) := by
  simp only [tunnel, bind_run, call_run, h, attempt_ok, subscribeStream, hsub, update_run,
    write_run, hreply, hpayload, hwritten, List.append_assoc, ne_eq, not_false_eq_true, if_true,
    ProxyConn.opened, ProxyConn.called, List.cons_append, List.nil_append]

end Tunnel

theorem leads_of_eq {x : Nat → ProxyRun α} {c : ProxyConn}
    {r : Option (Except ProxyEnd α × ProxyConn)} (h : ∀ fuel, x fuel c = r) : Leads x c r :=
  ⟨fun fuel => .inr (h fuel), fun fuel _ => h fuel⟩

theorem Leads.congr {x y : Nat → ProxyRun α} {c c' : ProxyConn}
    {r : Option (Except ProxyEnd α × ProxyConn)} (h : Leads y c' r)
    (hxy : ∀ fuel, x fuel c = y fuel c') (hreads : c'.reads.length ≤ c.reads.length) :
    Leads x c r := by
  constructor
  · intro fuel
    rw [hxy]
    exact h.1 fuel
  · intro fuel hfuel
    rw [hxy]
    exact h.2 fuel (lt_of_le_of_lt hreads hfuel)

/-- With a request the handler returns. -/
theorem tunnel_leads (p : Peers) (reply : Bytes) (context : String) (req : ProxyRequest)
    (c : ProxyConn) :
    ∃ r, Leads (fun fuel => tunnel fuel p reply context req) c (some r) ∧
      r.1 ≠ .error .panicked := by
  cases hopened : p.opened with
  | error e => exact ⟨_, leads_of_eq fun fuel => tunnel_not_opened fuel reply context c hopened, by simp⟩
  | ok streamId =>
  cases hsub : p.subscribed with
  | error e =>
      exact ⟨_, leads_of_eq fun fuel => tunnel_not_subscribed fuel reply context c hopened hsub,
        by simp⟩
  | ok _ =>
  cases hreply : p.replied with
  | error e =>
      exact ⟨_, leads_of_eq fun fuel =>
        tunnel_not_replied fuel reply context c hopened hsub hreply, by simp⟩
  | ok _ =>
  by_cases hpayload : req.payload = []
  · obtain ⟨r, hleads, hr⟩ := relay_leads p streamId 0 (c.opened req streamId reply)
    exact ⟨r, hleads.congr (fun fuel =>
      tunnel_relay fuel reply context c hopened hsub hreply hpayload) (le_refl _), hr⟩
  · cases hwritten : p.payloadWritten with
    | error e =>
        exact ⟨_, leads_of_eq fun fuel =>
          tunnel_not_written fuel reply context c hopened hsub hreply hpayload hwritten, by simp⟩
    | ok _ =>
        obtain ⟨r, hleads, hr⟩ := relay_leads p streamId 0
          ((c.opened req streamId reply).called (.write streamId req.payload))
        exact ⟨r, hleads.congr (fun fuel =>
          tunnel_payload fuel reply context c hopened hsub hreply hpayload hwritten) (le_refl _), hr⟩

end Jmux.Remote
