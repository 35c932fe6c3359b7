/-
  Jmux.Remote.ProxyStreams — what becomes of a stream that the proxy has opened.

  `proxy_close` tells the daemon and drops the subscription.  The relay calls it when
  the local client leaves or cannot be read or written, and when the stream fails; it
  does not when `proxy_write` fails, when the remote side has ended its stream and when
  the events are disconnected, and neither do the steps before it.

  Main results:
    * `relay_fate`           — which turns of the relay end it without `proxy_close`.
    * `tunnel_released_iff`  — the same from `proxy_open` on.
    * `stream_released_iff`  — both handlers, on every run.
    * `stream_leaks`         — a subscription that the daemon refuses.
-/
import Jmux.Remote.ProxyEnds

namespace Jmux.Remote

open Jmux.Lib ProxyRun

/-! ## §1. Streams. -/

def RpcCall.isOpen : RpcCall → Bool
  | .open .. => true
  | _ => false

/-- After every `proxy_open` that gave a stream there is a `proxy_close` for it, and the
stream has no subscription. -/
def Released (c : ProxyConn) : Prop :=
  ∀ before host port streamId after,
    c.calls = before ++ .open host port (.ok streamId) :: after →
    .close streamId ∈ after ∧ streamId ∉ c.client.streamSubs

section Fates

variable {streamId : Nat} {c c' c'' : ProxyConn}

/-- No stream is opened in between. -/
def Continues (c c' : ProxyConn) (more : List RpcCall) : Prop :=
  c'.calls = c.calls ++ more ∧ ∀ rpc ∈ more, rpc.isOpen = false

/-- The handler forgets the stream. -/
def Abandoned (streamId : Nat) (c c' : ProxyConn) : Prop :=
  ∃ more, Continues c c' more ∧ .close streamId ∉ more

def GivenBack (streamId : Nat) (c c' : ProxyConn) : Prop :=
  ∃ more, Continues c c' more ∧ .close streamId ∈ more ∧ streamId ∉ c'.client.streamSubs

theorem Continues.trans {more more' : List RpcCall} (h : Continues c c' more)
    (h' : Continues c' c'' more') : Continues c c'' (more ++ more') := by
  refine ⟨?_, fun rpc hrpc => ?_⟩
  · rw [h'.1, h.1, List.append_assoc]
  · rcases List.mem_append.mp hrpc with hmem | hmem
    · exact h.2 rpc hmem
    · exact h'.2 rpc hmem

theorem Abandoned.after {more : List RpcCall} (h : Continues c c' more)
    (hclose : .close streamId ∉ more) (h' : Abandoned streamId c' c'') :
    Abandoned streamId c c'' := by
  obtain ⟨more', hmore', hclose'⟩ := h'
  refine ⟨more ++ more', h.trans hmore', fun hmem => ?_⟩
  rcases List.mem_append.mp hmem with hmem | hmem
  · exact hclose hmem
  · exact hclose' hmem

theorem GivenBack.after {more : List RpcCall} (h : Continues c c' more)
    (h' : GivenBack streamId c' c'') : GivenBack streamId c c'' := by
  obtain ⟨more', hmore', hclose, hsubs⟩ := h'
  exact ⟨more ++ more', h.trans hmore', List.mem_append_right more hclose, hsubs⟩

theorem continues_refl (c : ProxyConn) : Continues c c [] := ⟨(List.append_nil _).symm, by simp⟩

theorem closed_givenBack (streamId : Nat) (h : c'.calls = c.calls) :
    GivenBack streamId c (c'.closed streamId) := by
  refine ⟨[.close streamId], ⟨?_, by simp [RpcCall.isOpen]⟩, by simp, ?_⟩
  · show c'.calls ++ _ = _
    rw [h]
  · show streamId ∉ (c'.client.streamSubs.erase streamId)
    rw [AList.mem_erase]
    exact fun hmem => hmem.1 rfl

theorem abandoned_refl (streamId : Nat) (h : c'.calls = c.calls) : Abandoned streamId c c' :=
  ⟨[], ⟨by rw [h, List.append_nil], by simp⟩, by simp⟩

end Fates

/-! ## §2. The relay. -/

/-- The local half of turn `k` does not end the relay. -/
def LocalGoesOn (p : Peers) (k : Nat) : LocalRead → Prop
  | .data _ => (p.turn k).written = .ok ()
  | .err e => e.wouldBlock = true

def RemoteGoesOn (p : Peers) (k : Nat) : Prop :=
  (p.turn k).event = .empty ∨
    ∃ data, (p.turn k).event = .event (.data data) ∧ (p.turn k).delivered = .ok ()

/-- With these reads the relay comes, from turn `k` on, to a failed `proxy_write`, to the
end of the remote stream or to disconnected events. -/
inductive Leaves (p : Peers) : Nat → List LocalRead → Prop
  | notWritten {k chunk rest e} (failed : (p.turn k).written = .error e) :
      Leaves p k (.data chunk :: rest)
  | eof {k read rest final} (goesOn : LocalGoesOn p k read)
      (ended : (p.turn k).event = .event (.eof final)) : Leaves p k (read :: rest)
  | disconnected {k read rest} (goesOn : LocalGoesOn p k read)
      (gone : (p.turn k).event = .disconnected) : Leaves p k (read :: rest)
  | next {k read rest} (goesOn : LocalGoesOn p k read) (remote : RemoteGoesOn p k)
      (later : Leaves p (k + 1) rest) : Leaves p k (read :: rest)

section Leaves

variable {p : Peers} {k : Nat} {read : LocalRead} {rest : List LocalRead}

theorem not_leaves_nil : ¬ Leaves p k [] := fun h => nomatch h

/-- A local half that goes on leaves it to the remote half. -/
theorem leaves_cons_iff (goesOn : LocalGoesOn p k read) :
    Leaves p k (read :: rest) ↔ (∃ final, (p.turn k).event = .event (.eof final)) ∨
      (p.turn k).event = .disconnected ∨ (RemoteGoesOn p k ∧ Leaves p (k + 1) rest) := by
  constructor
  · intro h
    cases h with
    | notWritten failed =>
        have hok : (p.turn k).written = .ok () := goesOn
        rw [hok] at failed
        exact nomatch failed
    | eof _ ended => exact .inl ⟨_, ended⟩
    | disconnected _ gone => exact .inr (.inl gone)
    | next _ remote later => exact .inr (.inr ⟨remote, later⟩)
  · rintro (⟨final, ended⟩ | gone | ⟨remote, later⟩)
    · exact .eof goesOn ended
    · exact .disconnected goesOn gone
    · exact .next goesOn remote later

theorem not_leaves_err {e : IoError} (hblock : e.wouldBlock = false) :
    ¬ Leaves p k (.err e :: rest) := by
  intro h
  have hstop : ¬ LocalGoesOn p k (.err e) := by simp [LocalGoesOn, hblock]
  cases h with
  | eof goesOn _ => exact hstop goesOn
  | disconnected goesOn _ => exact hstop goesOn
  | next goesOn _ _ => exact hstop goesOn

end Leaves

section Relay

variable {p : Peers} {streamId k : Nat} {c c' : ProxyConn} {r : Except ProxyEnd Unit}

/-- The stream is abandoned exactly in these turns. -/
def Fate (p : Peers) (streamId k : Nat) (reads : List LocalRead) (c c' : ProxyConn) : Prop :=
  (Leaves p k reads ∧ Abandoned streamId c c') ∨ (¬ Leaves p k reads ∧ GivenBack streamId c c')

theorem Fate.after {reads : List LocalRead} {c'' : ProxyConn} {more : List RpcCall}
    (h : Continues c c' more) (hclose : .close streamId ∉ more)
    (h' : Fate p streamId k reads c' c'') : Fate p streamId k reads c c'' := by
  rcases h' with ⟨hleaves, habandoned⟩ | ⟨hkeeps, hback⟩
  · exact .inl ⟨hleaves, habandoned.after h hclose⟩
  · exact .inr ⟨hkeeps, hback.after h⟩

/-- The remote half of a turn, and what follows it. -/
theorem remote_fate {read : LocalRead} {rest : List LocalRead} {c₁ : ProxyConn} {fuel : Nat}
    (goesOn : LocalGoesOn p k read) (hlocal : localTurn p streamId k c = some (.ok true, c₁))
    (hreads : c₁.reads = rest)
    (later : ∀ c₂, c₂.reads = rest → relayStreams p streamId fuel (k + 1) c₂ = some (r, c') →
      Fate p streamId (k + 1) rest c₂ c')
    (h : relayStreams p streamId (fuel + 1) k c = some (r, c')) :
    Fate p streamId k (read :: rest) c₁ c' := by
  have hremote := remoteTurn_eq p c₁ streamId k
  have hends : ∀ c₂, remoteTurn p streamId k c₁ = some (.ok false, c₂) → c' = c₂ := by
    intro c₂ hturn
    rw [relay_remote_ended hlocal hturn (.inl rfl)] at h
    exact (Prod.mk.inj (Option.some.inj h)).2.symm
  have hnext : ∀ c₂, c₂.reads = rest → c₂.calls = c₁.calls → RemoteGoesOn p k →
      remoteTurn p streamId k c₁ = some (.ok true, c₂) →
      Fate p streamId k (read :: rest) c₁ c' := by
    intro c₂ hsame hcalls remote hturn
    rw [relay_next hlocal hturn] at h
    have hstep : Continues c₁ c₂ [] := ⟨by rw [hcalls, List.append_nil], by simp⟩
    have hfate := (later c₂ hsame h).after hstep (by simp)
    have hiff : Leaves p k (read :: rest) ↔ Leaves p (k + 1) rest := by
      rw [leaves_cons_iff goesOn]
      constructor
      · rintro (⟨final, ended⟩ | gone | ⟨-, later⟩)
        · rcases remote with hempty | ⟨data, hdata, -⟩
          · rw [hempty] at ended
            exact nomatch ended
          · rw [hdata] at ended
            exact nomatch ended
        · rcases remote with hempty | ⟨data, hdata, -⟩
          · rw [hempty] at gone
            exact nomatch gone
          · rw [hdata] at gone
            exact nomatch gone
        · exact later
      · exact fun later => .inr (.inr ⟨remote, later⟩)
    unfold Fate
    rw [hiff]
    exact hfate
  have hstop : (¬ ∃ final, (p.turn k).event = .event (.eof final)) →
      (p.turn k).event ≠ .disconnected → ¬ RemoteGoesOn p k → ¬ Leaves p k (read :: rest) := by
    intro heof hgone hremote hleaves
    rcases (leaves_cons_iff goesOn).mp hleaves with ended | gone | ⟨remote, -⟩
    · exact heof ended
    · exact hgone gone
    · exact hremote remote
  rcases hevent : (p.turn k).event with (data | final | message) | _ | _
  · rw [hevent] at hremote
    cases hdelivered : (p.turn k).delivered with
    | ok _ =>
        simp only [hdelivered, Except.isOk, Except.toBool, if_true] at hremote
        exact hnext { c₁ with sent := c₁.sent ++ [data] } hreads rfl
          (.inr ⟨data, hevent, hdelivered⟩) hremote
    | error e =>
        simp only [hdelivered, Except.isOk, Except.toBool, Bool.false_eq_true, if_false] at hremote
        rw [hends _ hremote]
        refine .inr ⟨hstop ?_ ?_ ?_, closed_givenBack streamId rfl⟩
        · simp [hevent]
        · simp [hevent]
        · simp [RemoteGoesOn, hevent, hdelivered]
  · rw [hevent] at hremote
    rw [hends _ hremote]
    exact .inl ⟨.eof goesOn hevent, abandoned_refl streamId rfl⟩
  · rw [hevent] at hremote
    rw [hends _ hremote]
    refine .inr ⟨hstop ?_ ?_ ?_, closed_givenBack streamId rfl⟩
    · simp [hevent]
    · simp [hevent]
    · simp [RemoteGoesOn, hevent]
  · rw [hevent] at hremote
    exact hnext _ hreads rfl (.inl hevent) hremote
  · rw [hevent] at hremote
    rw [hends _ hremote]
    exact .inl ⟨.disconnected goesOn hevent, abandoned_refl streamId rfl⟩

/-- What the relay does with its stream. -/
theorem relay_fate {fuel : Nat} (h : relayStreams p streamId fuel k c = some (r, c')) :
    Fate p streamId k c.reads c c' := by
  induction fuel generalizing k c with
  | zero => exact nomatch h
  | succ fuel ih =>
      have later : ∀ rest c₂, c₂.reads = rest →
          relayStreams p streamId fuel (k + 1) c₂ = some (r, c') →
          Fate p streamId (k + 1) rest c₂ c' := by
        intro rest c₂ hsame hrun
        rw [← hsame]
        exact ih hrun
      have hends : ∀ {answer : Except ProxyEnd Bool} {c₂ : ProxyConn}, Ended (answer, c₂) →
          localTurn p streamId k c = some (answer, c₂) → c' = c₂ := by
        intro answer c₂ hended hturn
        rw [relay_local_ended hturn hended] at h
        exact (Prod.mk.inj (Option.some.inj h)).2.symm
      cases hreads : c.reads with
      | nil =>
          rw [hends (.inl rfl) (localTurn_eof streamId k hreads)]
          exact .inr ⟨not_leaves_nil, closed_givenBack streamId rfl⟩
      | cons read rest =>
          cases read with
          | data chunk =>
              have hlocal := @localTurn_data p c rest streamId k chunk hreads
              have hstep : Continues c { c with
                  reads := rest, calls := c.calls ++ [.write streamId chunk.items] }
                  [.write streamId chunk.items] := ⟨rfl, by simp [RpcCall.isOpen]⟩
              cases hwritten : (p.turn k).written with
              | error e =>
                  rw [hwritten] at hlocal
                  rw [hends (.inl rfl) hlocal]
                  exact .inl ⟨.notWritten hwritten, _, hstep, by simp⟩
              | ok _ =>
                  rw [hwritten] at hlocal
                  exact (@remote_fate _ _ _ _ _ _ (.data chunk) _ _ _ hwritten hlocal rfl (later rest) h).after
                    hstep (by simp)
          | err e =>
              cases hblock : e.wouldBlock with
              | false =>
                  rw [hends (.inr ⟨_, rfl⟩) (localTurn_err streamId k hreads hblock)]
                  exact .inr ⟨not_leaves_err hblock, closed_givenBack streamId rfl⟩
              | true =>
                  have hlocal := @localTurn_wouldBlock p c rest streamId k e hreads hblock
                  exact (@remote_fate _ _ _ _ _ _ (.err e) _ _ _ hblock hlocal rfl (later rest) h).after
                    (continues_refl _) (by simp)

end Relay

/-! ## §3. From `proxy_open` on. -/

/-- Nothing after `proxy_open` goes wrong in a way that the handler does not clean up. -/
structure KeepsHold (p : Peers) (payload : Bytes) (reads : List LocalRead) : Prop where
  subscribed : p.subscribed = .ok ()
  replied    : p.replied = .ok ()
  written    : payload ≠ [] → p.payloadWritten = .ok ()
  relay      : ¬ Leaves p 0 reads

section Tunnel

variable {p : Peers} {streamId : Nat} {req : ProxyRequest} {c c' : ProxyConn}

theorem opened_once {host host' : String} {port port' : Nat} {answer answer' : Except String Nat}
    {before after more : List RpcCall} (hmore : ∀ rpc ∈ more, rpc.isOpen = false)
    (h : .open host port answer :: more = before ++ .open host' port' answer' :: after) :
    answer = answer' ∧ more = after := by
  cases before with
  | nil =>
      obtain ⟨hopen, htail⟩ := List.cons.inj h
      exact ⟨(RpcCall.open.inj hopen).2.2, htail⟩
  | cons rpc before =>
      obtain ⟨-, htail⟩ := List.cons.inj h
      have hmem : RpcCall.open host' port' answer' ∈ more := by
        rw [htail]
        simp
      exact absurd (hmore _ hmem) (by simp [RpcCall.isOpen])

/-- The calls of a handler begin with its `proxy_open`. -/
theorem released_iff_of_open {host : String} {port : Nat} {more : List RpcCall}
    (hnew : c.calls = []) (h : Continues (c.called (.open host port (.ok streamId))) c' more) :
    Released c' ↔ .close streamId ∈ more ∧ streamId ∉ c'.client.streamSubs := by
  have hcalls : c'.calls = .open host port (.ok streamId) :: more := by
    rw [h.1]
    show (c.calls ++ _) ++ _ = _
    rw [hnew]
    rfl
  constructor
  · intro hreleased
    exact hreleased [] host port streamId more hcalls
  · rintro hclosed before host' port' streamId' after hsplit
    obtain ⟨hanswer, rfl⟩ := opened_once h.2 (hcalls.symm.trans hsplit)
    obtain rfl := Except.ok.inj hanswer
    exact hclosed

theorem Abandoned.not_released {host : String} {port : Nat} (hnew : c.calls = [])
    (h : Abandoned streamId (c.called (.open host port (.ok streamId))) c') : ¬ Released c' := by
  obtain ⟨more, hmore, hclose⟩ := h
  rw [released_iff_of_open hnew hmore]
  exact fun hclosed => hclose hclosed.1

theorem GivenBack.released {host : String} {port : Nat} (hnew : c.calls = [])
    (h : GivenBack streamId (c.called (.open host port (.ok streamId))) c') : Released c' := by
  obtain ⟨more, hmore, hclosed⟩ := h
  exact (released_iff_of_open hnew hmore).mpr hclosed

theorem opened_continues (c : ProxyConn) (reply : Bytes) :
    Continues (c.called (.open req.host req.port (.ok streamId))) (c.opened req streamId reply)
      [.subscribe streamId] := by
  refine ⟨?_, by simp [RpcCall.isOpen]⟩
  show c.calls ++ [_, _] = (c.calls ++ [_]) ++ [_]
  rw [List.append_assoc]
  rfl

theorem Fate.released_iff {k : Nat} {reads : List LocalRead} {host : String} {port : Nat}
    (hnew : c.calls = [])
    (h : Fate p streamId k reads (c.called (.open host port (.ok streamId))) c') :
    Released c' ↔ ¬ Leaves p k reads := by
  rcases h with ⟨hleaves, habandoned⟩ | ⟨hkeeps, hback⟩
  · exact iff_of_false (habandoned.not_released hnew) fun hkeeps => hkeeps hleaves
  · exact iff_of_true (hback.released hnew) hkeeps

/-- A run from `proxy_open` on gives its stream back exactly when it keeps hold of it. -/
theorem tunnel_released_iff {fuel : Nat} {reply : Bytes} {context : String}
    {r : Except ProxyEnd Unit} (hnew : c.calls = [])
    (h : tunnel fuel p reply context req c = some (r, c')) :
    Released c' ↔ ∀ streamId, p.opened = .ok streamId → KeepsHold p req.payload c.reads := by
  cases hopened : p.opened with
  | error e =>
      rw [tunnel_not_opened fuel reply context c hopened] at h
      obtain ⟨-, rfl⟩ := Prod.mk.inj (Option.some.inj h)
      refine iff_of_true ?_ fun streamId hok => nomatch hok
      intro before host port streamId after hsplit
      have hcalls : [RpcCall.open req.host req.port (.error e)] =
          before ++ .open host port (.ok streamId) :: after := by
        rw [← hsplit]
        show _ = c.calls ++ _
        rw [hnew]
        rfl
      exact nomatch (opened_once (by simp) hcalls).1
  | ok streamId =>
  have hcondition : (∀ id, (Except.ok streamId : Except String Nat) = .ok id →
      KeepsHold p req.payload c.reads) ↔ KeepsHold p req.payload c.reads :=
    ⟨fun hall => hall streamId rfl, fun hkeeps _ _ => hkeeps⟩
  rw [hcondition]
  cases hsub : p.subscribed with
  | error e =>
      rw [tunnel_not_subscribed fuel reply context c hopened hsub] at h
      obtain ⟨-, rfl⟩ := Prod.mk.inj (Option.some.inj h)
      refine iff_of_false (Abandoned.not_released hnew
        ⟨[.subscribe streamId], ⟨rfl, by simp [RpcCall.isOpen]⟩, by simp⟩) fun hkeeps => ?_
      exact nomatch hsub.symm.trans hkeeps.subscribed
  | ok _ =>
  have hstart := @opened_continues streamId req c reply
  cases hreply : p.replied with
  | error e =>
      rw [tunnel_not_replied fuel reply context c hopened hsub hreply] at h
      obtain ⟨-, rfl⟩ := Prod.mk.inj (Option.some.inj h)
      refine iff_of_false (Abandoned.not_released hnew ⟨_, hstart, by simp⟩) fun hkeeps => ?_
      exact nomatch hreply.symm.trans hkeeps.replied
  | ok _ =>
  by_cases hpayload : req.payload = []
  · rw [tunnel_relay fuel reply context c hopened hsub hreply hpayload] at h
    rw [((relay_fate h).after hstart (by simp)).released_iff hnew]
    exact ⟨fun hrelay => ⟨hsub, hreply, fun hne => absurd hpayload hne, hrelay⟩,
      fun hkeeps => hkeeps.relay⟩
  · cases hwritten : p.payloadWritten with
    | error e =>
        rw [tunnel_not_written fuel reply context c hopened hsub hreply hpayload hwritten] at h
        obtain ⟨-, rfl⟩ := Prod.mk.inj (Option.some.inj h)
        have hwrite : Continues (c.opened req streamId reply)
            ((c.opened req streamId reply).called (.write streamId req.payload))
            [.write streamId req.payload] := ⟨rfl, by simp [RpcCall.isOpen]⟩
        refine iff_of_false (Abandoned.not_released hnew ⟨_, hstart.trans hwrite, by simp⟩)
          fun hkeeps => ?_
        exact nomatch hwritten.symm.trans (hkeeps.written hpayload)
    | ok _ =>
        rw [tunnel_payload fuel reply context c hopened hsub hreply hpayload hwritten] at h
        have hwrite : Continues (c.opened req streamId reply)
            ((c.opened req streamId reply).called (.write streamId req.payload))
            [.write streamId req.payload] := ⟨rfl, by simp [RpcCall.isOpen]⟩
        rw [((relay_fate h).after (hstart.trans hwrite) (by simp)).released_iff hnew]
        exact ⟨fun hrelay => ⟨hsub, hreply, fun _ => hwritten, hrelay⟩, fun hkeeps => hkeeps.relay⟩

end Tunnel

/-! ## §4. The handlers. -/

/-- A step that makes no calls. -/
def Quiet {α : Type} (x : ProxyRun α) : Prop :=
  ∀ c r c', x c = some (r, c') → c'.calls = c.calls

section Quiet

variable {α β : Type} {x : ProxyRun α} {f : α → ProxyRun β}

theorem Quiet.bind (hx : Quiet x) (hf : ∀ a, Quiet (f a)) : Quiet (x >>= f) := by
  intro c r c' h
  rw [bind_run] at h
  cases hrun : x c with
  | none =>
      rw [hrun] at h
      exact nomatch h
  | some step =>
      obtain ⟨answer, c₁⟩ := step
      rw [hrun] at h
      have hfirst := hx c answer c₁ hrun
      cases answer with
      | error e =>
          obtain ⟨-, rfl⟩ := Prod.mk.inj (Option.some.inj h)
          exact hfirst
      | ok a =>
          rw [hf a c₁ r c' h]
          exact hfirst

theorem quiet_pure (a : α) : Quiet (pure a : ProxyRun α) := by
  intro c r c' h
  obtain ⟨-, rfl⟩ := Prod.mk.inj (Option.some.inj h)
  rfl

theorem quiet_fail (message : String) : Quiet (fail message : ProxyRun α) := by
  intro c r c' h
  obtain ⟨-, rfl⟩ := Prod.mk.inj (Option.some.inj h)
  rfl

theorem quiet_write (bytes : Bytes) : Quiet (write bytes) := by
  intro c r c' h
  obtain ⟨-, rfl⟩ := Prod.mk.inj (Option.some.inj h)
  rfl

theorem quiet_outOfRange : Quiet (outOfRange : ProxyRun α) := by
  intro c r c' h
  obtain ⟨-, rfl⟩ := Prod.mk.inj (Option.some.inj h)
  rfl

theorem quiet_attempt (context : String) (answer : Except String α) :
    Quiet (attempt context answer) := by
  cases answer with
  | ok a => exact quiet_pure a
  | error e => exact quiet_fail _

theorem quiet_byteAt (buf : Bytes) (i : Nat) : Quiet (byteAt buf i) := by
  unfold byteAt
  cases buf[i]? with
  | some b => exact quiet_pure b
  | none => exact quiet_outOfRange

theorem quiet_slice (buf : Bytes) (start stop : Nat) : Quiet (slice buf start stop) := by
  unfold slice
  by_cases h : stop ≤ buf.length
  · rw [if_pos h]
    exact quiet_pure _
  · rw [if_neg h]
    exact quiet_outOfRange

theorem quiet_readUntil (closed : Option String) (enough refuse : Bytes → Bool) (refused : String)
    (fuel : Nat) (buf : Bytes) : Quiet (readUntil closed enough fuel buf refuse refused) := by
  intro c r c' h
  unfold readUntil at h
  generalize Fill.fill enough refuse closed.isSome fuel buf c.reads = filling at h
  rcases filling with _ | (⟨b, rest⟩ | _ | e | _)
  · exact nomatch h
  · obtain ⟨-, rfl⟩ := Prod.mk.inj (Option.some.inj h)
    rfl
  · obtain ⟨-, rfl⟩ := Prod.mk.inj (Option.some.inj h)
    rfl
  · obtain ⟨-, rfl⟩ := Prod.mk.inj (Option.some.inj h)
    rfl
  · obtain ⟨-, rfl⟩ := Prod.mk.inj (Option.some.inj h)
    rfl

end Quiet

theorem quiet_slices (buf : Bytes) (m n k : Nat) (result : Bytes → Bytes → ProxyRequest) :
    Quiet (slice buf m n >>= fun address => slice buf n k >>= fun port => pure (result address port)) :=
  Quiet.bind (quiet_slice _ _ _) fun _ => Quiet.bind (quiet_slice _ _ _) fun _ => quiet_pure _

theorem quiet_address (fuel : Nat) (buf : Bytes) (atyp : UInt8) :
    Quiet (socks5Address fuel buf atyp) := by
  unfold socks5Address
  split_ifs
  · exact Quiet.bind (quiet_readUntil _ _ _ _ _ _) fun b => quiet_slices b 4 8 10 _
  · refine Quiet.bind (quiet_byteAt _ _) fun len => ?_
    exact Quiet.bind (quiet_readUntil _ _ _ _ _ _) fun b =>
      quiet_slices b 5 (5 + len.toNat) (5 + len.toNat + 2) _
  · exact Quiet.bind (quiet_readUntil _ _ _ _ _ _) fun b => quiet_slices b 4 20 22 _
  · exact Quiet.bind (quiet_write _) fun _ => quiet_fail _

theorem quiet_connect (fuel : Nat) (pipelined : Bytes) : Quiet (socks5Connect fuel pipelined) := by
  refine Quiet.bind (quiet_readUntil _ _ _ _ _ _) fun buf =>
    Quiet.bind (quiet_byteAt _ _) fun version => Quiet.bind (quiet_byteAt _ _) fun command => ?_
  split_ifs
  · exact Quiet.bind (quiet_write _) fun _ => quiet_fail _
  · exact Quiet.bind (quiet_byteAt _ _) fun atyp => quiet_address fuel buf atyp

theorem quiet_socks5 (fuel : Nat) (p : Peers) (initial : Bytes) :
    Quiet (socks5Request fuel p initial) := by
  rcases initial with _ | ⟨version, _ | ⟨nmethods, tail⟩⟩
  · exact quiet_fail _
  · exact quiet_fail _
  · show Quiet (if version ≠ 0x05 then fail "Invalid SOCKS5 greeting"
      else socks5Greeting fuel p (version :: nmethods :: tail) nmethods >>= socks5Connect fuel)
    split_ifs
    · exact quiet_fail _
    · refine Quiet.bind ?_ fun pipelined => quiet_connect fuel pipelined
      exact Quiet.bind (quiet_readUntil _ _ _ _ _ _) fun _ => Quiet.bind (quiet_write _) fun _ =>
        Quiet.bind (quiet_attempt _ _) fun _ => quiet_pure _

theorem quiet_http (fuel : Nat) (initial : Bytes) : Quiet (httpRequest fuel initial) := by
  refine Quiet.bind (quiet_readUntil _ _ _ _ _ _) fun buf => ?_
  cases headerEnd buf with
  | none => exact quiet_fail _
  | some n => exact Quiet.bind (quiet_attempt _ _) fun target => quiet_pure _

/-- The two handlers. -/
inductive ProxyProtocol
  | socks5
  | http
  deriving DecidableEq

namespace ProxyProtocol

/-- The part of a handler that reads the request. -/
def request (fuel : Nat) (p : Peers) (initial : Bytes) : ProxyProtocol → ProxyRun ProxyRequest
  | socks5 => socks5Request fuel p initial
  | http => httpRequest fuel initial

def handle (fuel : Nat) (p : Peers) (initial : Bytes) : ProxyProtocol → ProxyRun Unit
  | socks5 => handleSocks5 fuel p initial
  | http => handleHttpConnect fuel p initial

def reply : ProxyProtocol → Bytes
  | socks5 => socks5Reply 0x00
  | http => httpReply

def replyContext : ProxyProtocol → String
  | socks5 => "write reply: "
  | http => "write HTTP reply: "

theorem handle_eq (protocol : ProxyProtocol) (fuel : Nat) (p : Peers) (initial : Bytes) :
    protocol.handle fuel p initial = (protocol.request fuel p initial >>= fun req =>
      tunnel fuel p protocol.reply protocol.replyContext req) := by
  cases protocol <;> rfl

theorem request_quiet (protocol : ProxyProtocol) (fuel : Nat) (p : Peers) (initial : Bytes) :
    Quiet (protocol.request fuel p initial) := by
  cases protocol with
  | socks5 => exact quiet_socks5 fuel p initial
  | http => exact quiet_http fuel initial

end ProxyProtocol

/-- The header is read to an end, whatever arrives. -/
theorem http_decided (initial : Bytes) (c : ProxyConn) :
    ∃ answer c', Leads (fun fuel => httpRequest fuel initial) c (some (answer, c')) ∧
      c'.reads.length ≤ c.reads.length := by
  by_cases hfull : ∃ b rest, Fill.settle (fun buf => (headerEnd buf).isSome)
      (fun buf => decide (maxHttpHeader < buf.length)) initial c.reads = some (.full b rest)
  · obtain ⟨b, rest, hsettle⟩ := hfull
    have hread := @readUntil_full (some "Connection closed during HTTP CONNECT") _ _
      "HTTP CONNECT headers too large" _ c _ _ hsettle
    have hfewer : rest.length ≤ c.reads.length := Fill.settle_fewer _ _ hsettle
    cases hend : headerEnd b with
    | none => exact ⟨_, _, hread.bind hfewer (leads_of_eq fun fuel => by rw [hend]; rfl), hfewer⟩
    | some n =>
        cases htarget : httpTarget b with
        | error e =>
            exact ⟨_, _, hread.bind hfewer (leads_of_eq fun fuel => by rw [hend, htarget]; rfl), hfewer⟩
        | ok target =>
            exact ⟨_, _, hread.bind hfewer (leads_of_eq fun fuel => by rw [hend, htarget]; rfl), hfewer⟩
  · have hstops := @readUntil_stops (some "Connection closed during HTTP CONNECT") _ _
      "HTTP CONNECT headers too large" _ c hfull (.inl (Option.some_ne_none _))
    obtain ⟨message, hread⟩ := hstops
    exact ⟨_, _, hread.bind_error, le_refl _⟩

/-- A request that was read with some fuel is read with enough of it. -/
theorem ProxyProtocol.request_leads {protocol : ProxyProtocol} {fuel : Nat} {p : Peers}
    {initial : Bytes} {c c' : ProxyConn} {req : ProxyRequest}
    (h : protocol.request fuel p initial c = some (.ok req, c')) :
    Leads (fun fuel => protocol.request fuel p initial) c (some (.ok req, c')) ∧
      c'.reads.length ≤ c.reads.length := by
  cases protocol with
  | http =>
      obtain ⟨answer, c₁, hleads, hfewer⟩ := http_decided initial c
      obtain ⟨rfl, rfl⟩ := Prod.mk.inj (hleads.eq_of_run h)
      exact ⟨hleads, hfewer⟩
  | socks5 =>
      cases socks5_handshake p initial c with
      | request req' c₁ start atyp rest leads reach fits whole goesOn =>
          obtain ⟨hreq, rfl⟩ := Prod.mk.inj (leads.eq_of_run h)
          obtain rfl := Except.ok.inj hreq
          exact ⟨leads, fits.fewer⟩
      | error message c₁ leads failed whole goesOn =>
          exact nomatch (Prod.mk.inj (leads.eq_of_run h)).1
      | panicked c₁ leads cut goesOn => exact nomatch (Prod.mk.inj (leads.eq_of_run h)).1
      | stuck leads whole spins =>
          rcases leads.1 fuel with hnone | hnone
          · exact nomatch hnone.symm.trans h
          · exact nomatch hnone.symm.trans h

section Handlers

variable {protocol : ProxyProtocol} {fuel : Nat} {p : Peers} {initial : Bytes}
  {reads : List LocalRead} {client : RpcClient}

theorem released_of_empty {c : ProxyConn} (h : c.calls = []) : Released c := by
  intro before host port streamId after hsplit
  rw [h] at hsplit
  exact absurd hsplit.symm (by simp)

/-- A run that ends gives back what it opened, if it keeps hold of it. -/
theorem handle_released {r : Except ProxyEnd Unit} {c' : ProxyConn}
    (hkeeps : ∀ req c₁ streamId,
      protocol.request fuel p initial { reads, client } = some (.ok req, c₁) →
      p.opened = .ok streamId → KeepsHold p req.payload c₁.reads)
    (h : protocol.handle fuel p initial { reads, client } = some (r, c')) : Released c' := by
  rw [ProxyProtocol.handle_eq, bind_run] at h
  cases hrequest : protocol.request fuel p initial { reads, client } with
  | none =>
      rw [hrequest] at h
      exact nomatch h
  | some step =>
      obtain ⟨answer, c₁⟩ := step
      have hquiet : c₁.calls = [] := protocol.request_quiet fuel p initial _ _ _ hrequest
      rw [hrequest] at h
      cases answer with
      | error e =>
          obtain ⟨-, rfl⟩ := Prod.mk.inj (Option.some.inj h)
          exact released_of_empty hquiet
      | ok req =>
          rw [tunnel_released_iff hquiet h]
          exact fun streamId hopened => hkeeps req c₁ streamId hrequest hopened

/-- With a request there is a run, and it decides. -/
theorem keepsHold_of_released {req : ProxyRequest} {c₁ : ProxyConn} {streamId : Nat}
    (hreleased : ∀ fuel r c', protocol.handle fuel p initial { reads, client } = some (r, c') →
      Released c')
    (hrequest : protocol.request fuel p initial { reads, client } = some (.ok req, c₁))
    (hopened : p.opened = .ok streamId) : KeepsHold p req.payload c₁.reads := by
  have hquiet : c₁.calls = [] := protocol.request_quiet fuel p initial _ _ _ hrequest
  obtain ⟨hleads, hfewer⟩ := ProxyProtocol.request_leads hrequest
  obtain ⟨⟨r, c'⟩, htunnel, -⟩ := tunnel_leads p protocol.reply protocol.replyContext req c₁
  have hbig := hleads.2 _ (Nat.lt_succ_self _)
  have htail := htunnel.2 _ (lt_of_le_of_lt hfewer (Nat.lt_succ_self _))
  have hrun : protocol.handle (reads.length + 1) p initial { reads, client } = some (r, c') := by
    rw [ProxyProtocol.handle_eq]
    exact (bind_ok hbig).trans htail
  exact (tunnel_released_iff hquiet htail).mp (hreleased _ r c' hrun) streamId hopened

end Handlers

/-- Every run of a handler gives its stream back exactly when nothing goes wrong, from
`proxy_open` on, that it does not clean up. -/
theorem stream_released_iff (protocol : ProxyProtocol) (p : Peers) (initial : Bytes)
    (reads : List LocalRead) (client : RpcClient) :
    (∀ fuel r c', protocol.handle fuel p initial { reads, client } = some (r, c') → Released c') ↔
    ∀ fuel req c₁ streamId,
      protocol.request fuel p initial { reads, client } = some (.ok req, c₁) →
      p.opened = .ok streamId → KeepsHold p req.payload c₁.reads :=
  ⟨fun hreleased _ _ _ _ hrequest hopened => keepsHold_of_released hreleased hrequest hopened,
    fun hkeeps fuel _ _ h => handle_released (hkeeps fuel) h⟩

/-- The daemon accepts the stream, and then refuses its subscription. -/
def refusedSubscription : Peers := { opened := .ok 1, subscribed := .error "too many streams" }

def connectHead : Bytes := connectPrefix ++ [0x61, 0x0d, 0x0a, 0x0d, 0x0a]

theorem connectHead_request (c : ProxyConn) :
    httpRequest 1 connectHead c = some (.ok { host := "a", port := 80, payload := [] }, c) := by
  have hend : headerEnd connectHead = some 13 := by decide
  have htarget : httpTarget connectHead = .ok ("a", 80) := by decide
  have hread : readUntil (some "Connection closed during HTTP CONNECT")
      (fun buf => (headerEnd buf).isSome) 1 connectHead
      (fun buf => decide (maxHttpHeader < buf.length)) "HTTP CONNECT headers too large" c =
      some (.ok connectHead, c) := by
    unfold readUntil
    rw [Fill.fill_enough]
    · rfl
    · rw [hend]
      rfl
  unfold httpRequest
  rw [bind_ok hread]
  simp only [hend, htarget]
  rfl

/-- The stream stays open at the daemon. -/
theorem stream_leaks : ¬ ∀ (protocol : ProxyProtocol) (p : Peers) (initial : Bytes)
    (reads : List LocalRead) (client : RpcClient) (fuel : Nat) (r : Except ProxyEnd Unit)
    (c' : ProxyConn), protocol.handle fuel p initial { reads, client } = some (r, c') →
    Released c' := by
  intro h
  have hkeeps := @keepsHold_of_released .http 1 refusedSubscription connectHead [] {} _ _ 1
    (h .http refusedSubscription connectHead [] {}) (connectHead_request _) rfl
  exact nomatch hkeeps.subscribed

end Jmux.Remote
