/-
  Jmux.Remote.Relay — the loop that relays a local TCP stream over a remote
  proxy stream (`relay_streams` of `remote/proxy.rs`).

  One round of the loop reads the local socket and then takes at most one event
  of the remote.  The two directions share the loop: whatever ends the one ends
  the other.

  Main results:
    * `delivered_in_full_iff` — in every interleaving, the bytes that the remote
      sent are written or still queued for the loop, in order and once, exactly
      when the loop never stops with bytes queued, no local write fails, and
      nothing is sent after the loop has stopped.
    * `drains` — a loop that goes on writes what is queued.
-/
import Jmux.Lib.Fifo
import Jmux.Lib.Transition
import Jmux.Remote.Subscription

namespace Jmux.Remote

open Jmux.Lib

/-! ## §1. The loop. -/

inductive RelayPhase
  /-- About to read the local socket. -/
  | reading
  /-- About to take an event of the remote. -/
  | receiving
  /-- `proxy_close` is on its way. -/
  | closing
  | returned
  deriving DecidableEq, Repr

structure RelayState where
  phase   : RelayPhase := .reading
  /-- Events of the stream that the loop has not taken. -/
  events  : List StreamEvent := []
  /-- What the local socket got. -/
  written : Bytes := []
  /-- What the remote's events carried. -/
  sent    : Bytes := []
  /-- The remote sent its end. -/
  ended   : Bool := false
  /-- The daemon has closed the stream. -/
  dropped : Bool := false
  deriving DecidableEq, Repr

inductive RelayAction
  | localEof
  /-- Bytes from the local side; `proxy_write` succeeds or fails. -/
  | localData (accepted : Bool)
  | localWouldBlock
  | localError
  /-- `try_recv`; `some n`: the local write fails after `n` bytes. -/
  | receive (failed : Option Nat)
  /-- `try_recv` finds the channel empty and its sender gone. -/
  | disconnected
  /-- `proxy_close` returns. -/
  | closed
  | remoteData (bytes : Bytes)
  | remoteEof (final : Option Bytes)
  | remoteError (message : String)
  deriving DecidableEq, Repr

/-- The bytes that an event carries to the local socket. -/
def StreamEvent.bytes : StreamEvent → Bytes
  | .data bytes => bytes
  | .eof final => final.getD []
  | .error _ => []

/-- What `write_all` wrote. -/
def wrote (bytes : Bytes) (failed : Option Nat) : Bytes := bytes.take (failed.getD bytes.length)

namespace RelayState

def isRelaying (s : RelayState) : Bool := s.phase = .reading ∨ s.phase = .receiving

/-- One event taken by the loop. -/
def takeEvent (s : RelayState) (failed : Option Nat) : StreamEvent → RelayState
  | .data bytes =>
      { s with
        written := s.written ++ wrote bytes failed
        phase   := if failed.isSome then .closing else .reading }
  -- the result of the last write is ignored, and the write side is shut down
  | .eof final =>
      { s with written := s.written ++ wrote (final.getD []) failed, phase := .returned }
  | .error _ => { s with phase := .closing }

/-- The remote sends an event, to a loop that may be gone. -/
def sendEvent (s : RelayState) (e : StreamEvent) : RelayState :=
  { s with
    events := if s.isRelaying then s.events ++ [e] else s.events
    sent   := s.sent ++ e.bytes
    ended  := !e.isData }

def step (s : RelayState) : RelayAction → Option RelayState
  -- the loop is left for `proxy_close`, whatever is queued
  | .localEof => if s.phase = .reading then some { s with phase := .closing } else none
  -- a failing `proxy_write` leaves the stream open on the daemon
  | .localData accepted =>
      if s.phase = .reading then
        some { s with phase := if accepted then .receiving else .returned }
      else none
  | .localWouldBlock => if s.phase = .reading then some { s with phase := .receiving } else none
  | .localError => if s.phase = .reading then some { s with phase := .closing } else none
  | .receive failed =>
      if s.phase = .receiving then
        match s.events with
        | e :: rest =>
            -- a write fails before its last byte
            if ∀ n ∈ failed, n < e.bytes.length then
              some ({ s with events := rest }.takeEvent failed e)
            else none
        -- `TryRecvError::Empty`
        | [] => if failed = none then some { s with phase := .reading } else none
      else none
  | .disconnected =>
      if s.phase = .receiving ∧ s.events = [] then some { s with phase := .returned } else none
  | .closed =>
      if s.phase = .closing then some { s with phase := .returned, dropped := true } else none
  | .remoteData bytes =>
      -- the pump sends no empty data
      if ¬ s.ended ∧ ¬ s.dropped ∧ bytes ≠ [] then some (s.sendEvent (.data bytes)) else none
  -- an end is sent once
  | .remoteEof final =>
      if ¬ s.ended ∧ ¬ s.dropped then some (s.sendEvent (.eof final)) else none
  | .remoteError message =>
      if ¬ s.ended ∧ ¬ s.dropped then some (s.sendEvent (.error message)) else none

/-! ## §2. Delivery in full. -/

/-- The bytes that the loop will still write. -/
def queued (s : RelayState) : Bytes := if s.isRelaying then s.events.flatMap (·.bytes) else []

/-- What was sent is written or will be, in order and once. -/
def Delivered (s : RelayState) : Prop := Conserved s.sent s.queued s.written

/-- Nothing of the remote is queued or comes when the loop stops. -/
def StopsDrained (s : RelayState) : RelayAction → Prop
  | .localEof | .localError | .localData false => s.queued = []
  | .receive (some _) => False
  | .remoteData _ => s.isRelaying
  | .remoteEof final => s.isRelaying ∨ final.getD [] = []
  | _ => True

/-- Only the last event can be the remote's end. -/
structure EndsLast (s : RelayState) : Prop where
  before : ∀ e ∈ s.events.dropLast, e.isData
  open_data : s.ended = false → ∀ e ∈ s.events, e.isData

instance (s : RelayState) : Decidable s.Delivered := inferInstanceAs (Decidable (Conserved _ _ _))

instance (s : RelayState) : ∀ a, Decidable (StopsDrained s a)
  | .localEof | .localError | .localData false => inferInstanceAs (Decidable (s.queued = []))
  | .receive (some _) => isFalse fun h => h
  | .remoteData _ => inferInstanceAs (Decidable (s.isRelaying = true))
  | .remoteEof final => inferInstanceAs (Decidable (s.isRelaying = true ∨ final.getD [] = []))
  | .localData true | .localWouldBlock | .receive none | .disconnected | .closed
  | .remoteError _ => isTrue trivial

theorem queued_of_relaying {s : RelayState} (h : s.isRelaying = true) :
    s.queued = s.events.flatMap (·.bytes) := if_pos h

theorem queued_of_stopped {s : RelayState} (h : s.isRelaying = false) : s.queued = [] := by
  unfold queued
  rw [h, if_neg Bool.false_ne_true]

theorem wrote_none (bytes : Bytes) : wrote bytes none = bytes := List.take_length

/-- Ends are last, so nothing stands behind one. -/
theorem EndsLast.rest_nil {s : RelayState} (h : s.EndsLast) {e : StreamEvent}
    {rest : List StreamEvent} (hev : s.events = e :: rest) (he : e.isData = false) :
    rest = [] := by
  cases rest with
  | nil => rfl
  | cons e' rest =>
      have hdata := h.before e (by rw [hev]; simp)
      rw [he] at hdata
      cases hdata

theorem EndsLast.tail {s : RelayState} (h : s.EndsLast) {e : StreamEvent}
    {rest : List StreamEvent} (hev : s.events = e :: rest) (failed : Option Nat) :
    ({ s with events := rest }.takeEvent failed e).EndsLast := by
  have hrest : ({ s with events := rest } : RelayState).EndsLast := by
    refine ⟨fun x hx => h.before x ?_, fun hend x hx => h.open_data hend x ?_⟩
    · rw [hev]
      cases rest with
      | nil => cases hx
      | cons e' rest => exact List.mem_cons_of_mem _ hx
    · rw [hev]
      exact List.mem_cons_of_mem _ hx
  cases e with
  | data bytes => exact ⟨hrest.before, hrest.open_data⟩
  | eof final => exact ⟨hrest.before, hrest.open_data⟩
  | error message => exact ⟨hrest.before, hrest.open_data⟩

theorem EndsLast.send {s : RelayState} (h : s.EndsLast) (hopen : ¬ s.ended) (e : StreamEvent) :
    (s.sendEvent e).EndsLast := by
  have hdata : ∀ x ∈ s.events, x.isData := h.open_data (by simpa using hopen)
  unfold sendEvent
  cases hrel : s.isRelaying with
  | false =>
      refine ⟨h.before, fun _ => hdata⟩
  | true =>
      refine ⟨fun x hx => hdata x ?_, fun hend x hx => ?_⟩
      · simpa using hx
      · rcases List.mem_append.mp hx with hold | hnew
        · exact hdata x hold
        · obtain rfl := List.mem_singleton.mp hnew
          simpa using hend

/-- Steps that leave the queue and the record of the end. -/
theorem EndsLast.congr {s s' : RelayState} (h : s.EndsLast) (hev : s'.events = s.events)
    (hend : s'.ended = s.ended) : s'.EndsLast := by
  refine ⟨?_, ?_⟩
  · rw [hev]
    exact h.before
  · rw [hev, hend]
    exact h.open_data

theorem step_endsLast {s s' : RelayState} {a : RelayAction} (h : s.EndsLast)
    (hstep : step s a = some s') : s'.EndsLast := by
  cases a with
  | receive failed =>
      obtain ⟨_, hs⟩ := Option.ite_none_right_eq_some.mp hstep
      split at hs
      · next e rest hev =>
          obtain ⟨_, rfl⟩ := Option.ite_some_none_eq_some.mp hs
          exact h.tail hev failed
      · obtain ⟨_, rfl⟩ := Option.ite_some_none_eq_some.mp hs
        exact h.congr rfl rfl
  | remoteData bytes =>
      obtain ⟨hopen, rfl⟩ := Option.ite_some_none_eq_some.mp hstep
      exact h.send hopen.1 _
  | remoteEof final =>
      obtain ⟨hopen, rfl⟩ := Option.ite_some_none_eq_some.mp hstep
      exact h.send hopen.1 _
  | remoteError message =>
      obtain ⟨hopen, rfl⟩ := Option.ite_some_none_eq_some.mp hstep
      exact h.send hopen.1 _
  | localEof | localData | localWouldBlock | localError | disconnected | closed =>
      obtain ⟨_, rfl⟩ := Option.ite_some_none_eq_some.mp hstep
      exact h.congr rfl rfl

/-! ## §3. What each kind of step does to the delivery. -/

/-- The loop stops with what is queued. -/
theorem stop_iff {s : RelayState} (h : s.Delivered) (s' : RelayState) (hsent : s'.sent = s.sent)
    (hwritten : s'.written = s.written) (hstop : s'.isRelaying = false) :
    s'.Delivered ↔ s.queued = [] := by
  unfold Delivered
  rw [hsent, hwritten, queued_of_stopped hstop]
  -- all of the queue is dropped at once
  have hqueue : Conserved s.sent (s.queued ++ []) s.written := by
    rw [List.append_nil]
    exact h
  exact hqueue.drop_iff

/-- The loop goes on with what is queued. -/
theorem go_on {s : RelayState} (h : s.Delivered) {s' : RelayState} (hrel : s.isRelaying = true)
    (hrel' : s'.isRelaying = true) (hsent : s'.sent = s.sent) (hwritten : s'.written = s.written)
    (hevents : s'.events = s.events) : s'.Delivered := by
  unfold Delivered at h ⊢
  rw [queued_of_relaying hrel] at h
  rw [hsent, hwritten, queued_of_relaying hrel', hevents]
  exact h

theorem send_iff {s : RelayState} (h : s.Delivered) (e : StreamEvent) :
    (s.sendEvent e).Delivered ↔ s.isRelaying ∨ e.bytes = [] := by
  cases hrel : s.isRelaying with
  | true =>
      refine iff_of_true ?_ (.inl rfl)
      have hqueue : (s.sendEvent e).queued = s.queued ++ e.bytes := by
        have hrel' : (s.sendEvent e).isRelaying = true := hrel
        rw [queued_of_relaying hrel, queued_of_relaying hrel']
        simp [sendEvent, hrel]
      unfold Delivered
      rw [hqueue]
      exact Conserved.send h e.bytes
  | false =>
      have hqueue : (s.sendEvent e).queued = s.queued := by
        have hrel' : (s.sendEvent e).isRelaying = false := hrel
        rw [queued_of_stopped hrel, queued_of_stopped hrel']
      -- nobody takes the event any more
      have haway : (s.sendEvent e).Delivered ↔ e.bytes = [] := by
        unfold Delivered
        rw [hqueue]
        exact Conserved.send_away_iff h e.bytes
      simpa using haway

/-- The loop takes an event and writes all of it. -/
theorem take_delivered {s : RelayState} (h : s.Delivered) (hends : s.EndsLast)
    (hphase : s.phase = .receiving) {e : StreamEvent} {rest : List StreamEvent}
    (hev : s.events = e :: rest) : ({ s with events := rest }.takeEvent none e).Delivered := by
  have hrel : s.isRelaying = true := by
    simp [isRelaying, hphase]
  have hqueue : Conserved s.sent (e.bytes ++ rest.flatMap (·.bytes)) s.written := by
    unfold Delivered at h
    rw [queued_of_relaying hrel, hev, List.flatMap_cons] at h
    exact h
  cases e with
  | data bytes =>
      show Conserved s.sent (rest.flatMap (·.bytes)) (s.written ++ wrote bytes none)
      rw [wrote_none]
      exact hqueue.receive
  | eof final =>
      -- the end is the last event, so the loop leaves nothing behind
      obtain rfl := hends.rest_nil hev rfl
      show Conserved s.sent [] (s.written ++ wrote (final.getD []) none)
      rw [wrote_none]
      exact hqueue.receive
  | error message =>
      obtain rfl := hends.rest_nil hev rfl
      exact hqueue

/-- A write that fails before the last byte of an event loses the rest. -/
theorem fail_not_delivered {s : RelayState} (h : s.Delivered) (hphase : s.phase = .receiving)
    {e : StreamEvent} {rest : List StreamEvent} (hev : s.events = e :: rest) {n : Nat}
    (hn : n < e.bytes.length) :
    ¬ ({ s with events := rest }.takeEvent (some n) e).Delivered := by
  have hrel : s.isRelaying = true := by
    simp [isRelaying, hphase]
  -- a byte is missing, so the lengths tell the two apart
  have hlen : s.sent.length =
      s.written.length + (e.bytes.length + (rest.flatMap (·.bytes)).length) := by
    unfold Delivered Conserved at h
    rw [queued_of_relaying hrel, hev, List.flatMap_cons] at h
    rw [h, List.length_append, List.length_append]
  have hshort : ∀ bytes : Bytes, e.bytes = bytes →
      ¬ Conserved s.sent [] (s.written ++ wrote bytes (some n)) := by
    intro bytes hbytes hcons
    have hlen' := congrArg List.length hcons
    unfold wrote at hlen'
    simp only [List.append_nil, List.length_append, List.length_take, Option.getD_some] at hlen'
    rw [hbytes] at hn hlen
    omega
  cases e with
  | data bytes => exact hshort bytes rfl
  | eof final => exact hshort (final.getD []) rfl
  | error message => exact absurd hn (Nat.not_lt_zero n)

/-- One step keeps the delivery exactly when it is one that should. -/
theorem step_delivered_iff {s s' : RelayState} {a : RelayAction} (hends : s.EndsLast)
    (h : s.Delivered) (hstep : step s a = some s') : s'.Delivered ↔ s.StopsDrained a := by
  cases a with
  | localEof =>
      obtain ⟨_, rfl⟩ := Option.ite_some_none_eq_some.mp hstep
      exact stop_iff h _ rfl rfl rfl
  | localError =>
      obtain ⟨_, rfl⟩ := Option.ite_some_none_eq_some.mp hstep
      exact stop_iff h _ rfl rfl rfl
  | localData accepted =>
      obtain ⟨hphase, rfl⟩ := Option.ite_some_none_eq_some.mp hstep
      cases accepted with
      | false => exact stop_iff h _ rfl rfl rfl
      | true =>
          exact iff_of_true (go_on h (by simp [isRelaying, hphase]) rfl rfl rfl rfl) trivial
  | localWouldBlock =>
      obtain ⟨hphase, rfl⟩ := Option.ite_some_none_eq_some.mp hstep
      exact iff_of_true (go_on h (by simp [isRelaying, hphase]) rfl rfl rfl rfl) trivial
  | receive failed =>
      obtain ⟨hphase, hs⟩ := Option.ite_none_right_eq_some.mp hstep
      split at hs
      · next e rest hev =>
          obtain ⟨hshort, rfl⟩ := Option.ite_some_none_eq_some.mp hs
          cases failed with
          | none => exact iff_of_true (take_delivered h hends hphase hev) trivial
          | some n =>
              exact iff_of_false (fail_not_delivered h hphase hev (hshort n rfl)) fun hf => hf
      · obtain ⟨rfl, rfl⟩ := Option.ite_some_none_eq_some.mp hs
        exact iff_of_true (go_on h (by simp [isRelaying, hphase]) rfl rfl rfl rfl) trivial
  | disconnected =>
      obtain ⟨hidle, rfl⟩ := Option.ite_some_none_eq_some.mp hstep
      refine iff_of_true ((stop_iff h { s with phase := .returned } rfl rfl rfl).mpr ?_) trivial
      -- the channel was found empty
      rw [queued_of_relaying (by simp [isRelaying, hidle.1]), hidle.2]
      rfl
  | closed =>
      obtain ⟨hphase, rfl⟩ := Option.ite_some_none_eq_some.mp hstep
      refine iff_of_true ((stop_iff h { s with phase := .returned, dropped := true } rfl rfl
        rfl).mpr ?_) trivial
      -- the queue was given up when the loop stopped
      exact queued_of_stopped (by simp [isRelaying, hphase])
  | remoteData bytes =>
      obtain ⟨hsend, rfl⟩ := Option.ite_some_none_eq_some.mp hstep
      rw [send_iff h]
      show _ ∨ bytes = [] ↔ _
      -- data is never empty, so it must find the loop running
      simp only [hsend.2.2, or_false]
      exact Iff.rfl
  | remoteEof final =>
      obtain ⟨_, rfl⟩ := Option.ite_some_none_eq_some.mp hstep
      exact send_iff h _
  | remoteError message =>
      obtain ⟨_, rfl⟩ := Option.ite_some_none_eq_some.mp hstep
      exact iff_of_true ((send_iff h _).mpr (.inr rfl)) trivial

/-- **A relayed stream is delivered in full** in exactly the interleavings in
which the loop stops drained and nothing comes after it. -/
theorem delivered_in_full_iff {s : RelayState} {as : List RelayAction}
    (hrun : exec step {} as = some s) :
    EveryState step Delivered {} as ↔ EveryStep step StopsDrained {} as :=
  everyState_iff_everyStep EndsLast (fun _ _ _ hends hstep => step_endsLast hends hstep)
    (fun _ _ _ hends h hstep => step_delivered_iff hends h hstep)
    ⟨fun _ h => (nomatch h), fun _ _ h => nomatch h⟩ Conserved.empty hrun

/-- The local side asks, finishes sending and waits: what came in meanwhile is
not written, and neither is what comes while the stream is being closed. -/
theorem half_close_loses :
    (∃ s ∈ exec step {} [.localData true, .receive none, .remoteData [1, 2], .localEof],
      s.written = [] ∧ ¬ s.Delivered) ∧
    (∃ s ∈ exec step {} [.localData true, .receive none, .localEof, .remoteData [1, 2], .closed],
      s.phase = .returned ∧ s.written = [] ∧ ¬ s.Delivered) := by
  decide

/-- The remote ends first. -/
theorem delivered_in_full_answer :
    EveryState step Delivered {}
      [.localData true, .remoteData [1, 2], .receive none, .localWouldBlock, .remoteEof none,
        .receive none] :=
  (delivered_in_full_iff rfl).mpr (by decide)

/-! ## §4. A loop that goes on drains the queue. -/

/-- So many rounds in which the local side has nothing to say. -/
def quietRounds : Nat → List RelayAction
  | 0 => []
  | n + 1 => .localWouldBlock :: .receive none :: quietRounds n

theorem quietRound {s : RelayState} (hphase : s.phase = .reading) {bytes : Bytes}
    {rest : List StreamEvent} (hev : s.events = .data bytes :: rest) :
    ∃ m, exec step s [.localWouldBlock, .receive none] = some m ∧ m.phase = .reading ∧
      m.events = rest ∧ m.written = s.written ++ bytes := by
  refine ⟨{ s with events := rest, written := s.written ++ bytes }, ?_, hphase, rfl, rfl⟩
  simp [exec, step, hphase, hev, takeEvent, wrote]

/-- The queued data is written after as many rounds as it has events. -/
theorem drains (events : List StreamEvent) (hdata : ∀ e ∈ events, e.isData) :
    ∀ s : RelayState, s.phase = .reading → s.events = events →
      ∃ s', exec step s (quietRounds events.length) = some s' ∧
        s'.written = s.written ++ events.flatMap (·.bytes) := by
  induction events with
  | nil =>
      intro s _ _
      exact ⟨s, rfl, (List.append_nil _).symm⟩
  | cons e rest ih =>
      intro s hphase hev
      cases e with
      | data bytes =>
          obtain ⟨m, hm, hmphase, hmev, hmwritten⟩ := quietRound hphase hev
          obtain ⟨s', hs', hwritten⟩ :=
            ih (fun x hx => hdata x (List.mem_cons_of_mem _ hx)) m hmphase hmev
          refine ⟨s', exec_append.mpr ⟨m, hm, hs'⟩, ?_⟩
          rw [hwritten, hmwritten, List.append_assoc]
          rfl
      | eof final =>
          -- an end is no data
          have := hdata _ List.mem_cons_self
          cases this
      | error message =>
          have := hdata _ List.mem_cons_self
          cases this

end RelayState

end Jmux.Remote
