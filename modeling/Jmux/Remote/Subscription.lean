/-
  Jmux.Remote.Subscription — `proxy_subscribe` against the reader thread and the
  daemon's pump.

  Ids and event encoding are taken to agree here, so a line is either the answer
  to the call, an event of its stream, or something for somebody else.  The
  daemon starts the pump before it writes the answer, and both go through one
  locked writer: lines arrive whole and in the order written.

  Main result:
    * `no_event_lost_iff` — in every interleaving, every event written is in the
      subscriber's channel or still on the way, in order, exactly when the
      reader meets no event of the stream before the channel is registered.
-/
import Jmux.Lib.Fifo
import Jmux.Lib.Transition
import Jmux.Remote.RpcClient

namespace Jmux.Remote

open Jmux.Lib

/-! ## §1. Three actors. -/

/-- Where the call of `proxy_subscribe` stands. -/
inductive SubscribePhase
  | notCalled
  /-- The request is written and the call waits for its answer. -/
  | waiting
  /-- The answer is there and the channel is not registered yet. -/
  | answered
  | registered
  /-- The daemon refused, or the call timed out. -/
  | failed
  deriving DecidableEq, Repr

/-- A line from the daemon, as far as this call is concerned. -/
inductive SubscribeLine
  | response (ok : Bool)
  | event (event : StreamEvent)
  | other
  deriving DecidableEq, Repr

structure SubscribeState where
  phase         : SubscribePhase := .notCalled
  /-- The request is on its way to the daemon. -/
  requested     : Bool := false
  /-- The handler has decided and has not written its answer. -/
  answering     : Option Bool := none
  /-- The stream's pump runs. -/
  readerStarted : Bool := false
  toClient      : List SubscribeLine := []
  channel       : List StreamEvent := []
  /-- The events that the daemon has written since it accepted. -/
  written       : List StreamEvent := []
  deriving DecidableEq, Repr

inductive SubscribeAction
  /-- The client registers the call as pending and writes the request. -/
  | call
  /-- `handleProxyStreamSubscribe`; `found`: the stream exists. -/
  | handle (found : Bool)
  | respond
  /-- The pump writes an event, after any of which but data it ends. -/
  | pump (event : StreamEvent)
  /-- The daemon writes a line for another call or stream. -/
  | other
  /-- The reader thread takes the next line. -/
  | read
  /-- The caller inserts the channel into `stream_subs`. -/
  | register
  | timeout
  deriving DecidableEq, Repr

def StreamEvent.isData : StreamEvent → Bool
  | .data _ => true
  | _ => false

def SubscribeLine.events : SubscribeLine → List StreamEvent
  | .event e => [e]
  | _ => []

namespace SubscribeState

/-- The events that are still on the way to the reader. -/
def inFlight (s : SubscribeState) : List StreamEvent := s.toClient.flatMap (·.events)

/-- An answer finds the call pending unless it timed out; an event is sent to
the channel that is registered, if one is. -/
def readLine (s : SubscribeState) : SubscribeLine → SubscribeState
  | .response ok =>
      if s.phase = .waiting then { s with phase := if ok then .answered else .failed } else s
  | .event e => if s.phase = .registered then { s with channel := s.channel ++ [e] } else s
  | .other => s

def step (s : SubscribeState) : SubscribeAction → Option SubscribeState
  | .call =>
      if s.phase = .notCalled then some { s with phase := .waiting, requested := true } else none
  -- the pump is started before the answer is written
  | .handle found =>
      if s.requested then
        some { s with
          requested     := false
          answering     := some found
          readerStarted := found }
      else none
  | .respond =>
      match s.answering with
      | some ok =>
          some { s with answering := none, toClient := s.toClient ++ [.response ok] }
      | none => none
  | .pump e =>
      if s.readerStarted then
        some { s with
          readerStarted := e.isData
          toClient      := s.toClient ++ [.event e]
          written       := s.written ++ [e] }
      else none
  | .other => some { s with toClient := s.toClient ++ [.other] }
  | .read =>
      match s.toClient with
      | line :: rest => some ({ s with toClient := rest }.readLine line)
      | [] => none
  -- `proxy_subscribe` after `call` has returned
  | .register =>
      if s.phase = .answered then some { s with phase := .registered, channel := [] } else none
  | .timeout => if s.phase = .waiting then some { s with phase := .failed } else none

/-! ## §2. No event is lost. -/

/-- Every event written has reached the channel or is on the way, in order. -/
def NothingLost (s : SubscribeState) : Prop := Conserved s.written s.inFlight s.channel

/-- The reader meets an event of the stream only with the channel registered. -/
def MeetsRegistered (s : SubscribeState) : SubscribeAction → Prop
  | .read => ∀ e, s.toClient.head? = some (.event e) → s.phase = .registered
  | _ => True

/-- Nothing is in the channel before there is one. -/
def Unused (s : SubscribeState) : Prop := s.phase ≠ .registered → s.channel = []

instance (s : SubscribeState) : ∀ a, Decidable (MeetsRegistered s a)
  | .read =>
      match h : s.toClient.head? with
      | some (.event _) => decidable_of_iff (s.phase = .registered) (by simp [MeetsRegistered, h])
      | some (.response _) | some .other | none => isTrue (by simp [MeetsRegistered, h])
  | .call | .handle _ | .respond | .pump _ | .other | .register | .timeout => isTrue trivial

instance (s : SubscribeState) : Decidable s.NothingLost :=
  inferInstanceAs (Decidable (Conserved _ _ _))

theorem inFlight_snoc (s : SubscribeState) (line : SubscribeLine) :
    ({ s with toClient := s.toClient ++ [line] } : SubscribeState).inFlight =
      s.inFlight ++ line.events := by
  simp [inFlight]

theorem inFlight_cons {s : SubscribeState} {line : SubscribeLine} {rest : List SubscribeLine}
    (h : s.toClient = line :: rest) :
    s.inFlight = line.events ++ ({ s with toClient := rest } : SubscribeState).inFlight := by
  simp [inFlight, h]

/-- A line written carries its events from the pump onto the wire. -/
theorem NothingLost.line {s : SubscribeState} (hlost : s.NothingLost) (line : SubscribeLine) :
    Conserved (s.written ++ line.events)
      ({ s with toClient := s.toClient ++ [line] } : SubscribeState).inFlight s.channel := by
  rw [inFlight_snoc]
  exact hlost.send line.events

/-- A line without an event for this stream changes nothing. -/
theorem NothingLost.idle_line {s : SubscribeState} (hlost : s.NothingLost) {line : SubscribeLine}
    (hidle : line.events = []) :
    Conserved s.written
      ({ s with toClient := s.toClient ++ [line] } : SubscribeState).inFlight s.channel := by
  have hline := hlost.line line
  rw [hidle, List.append_nil] at hline
  exact hline

theorem readLine_unused {s : SubscribeState} (hun : s.Unused) (line : SubscribeLine) :
    (s.readLine line).Unused := by
  cases line with
  | response ok =>
      by_cases hphase : s.phase = .waiting
      · simp only [readLine, if_pos hphase]
        intro _
        exact hun (by rw [hphase]; decide)
      · simp only [readLine, if_neg hphase]
        exact hun
  | event e =>
      by_cases hphase : s.phase = .registered
      · simp only [readLine, if_pos hphase]
        intro hne
        exact absurd hphase hne
      · simp only [readLine, if_neg hphase]
        exact hun
  | other => exact hun

/-- The channel is filled by the reader alone. -/
theorem step_unused {s s' : SubscribeState} {a : SubscribeAction} (hun : s.Unused)
    (hstep : step s a = some s') : s'.Unused := by
  cases a with
  | read =>
      simp only [step] at hstep
      split at hstep
      · next line rest _ =>
          obtain rfl := Option.some.inj hstep
          -- an event fills the channel of a registered caller only
          exact readLine_unused (s := { s with toClient := rest }) hun line
      · cases hstep
  | call =>
      obtain ⟨hphase, rfl⟩ := Option.ite_some_none_eq_some.mp hstep
      intro _
      exact hun (by rw [hphase]; decide)
  | timeout =>
      obtain ⟨hphase, rfl⟩ := Option.ite_some_none_eq_some.mp hstep
      intro _
      exact hun (by rw [hphase]; decide)
  | register =>
      obtain ⟨_, rfl⟩ := Option.ite_some_none_eq_some.mp hstep
      intro _
      rfl
  | handle found =>
      obtain ⟨_, rfl⟩ := Option.ite_some_none_eq_some.mp hstep
      exact hun
  | pump e =>
      obtain ⟨_, rfl⟩ := Option.ite_some_none_eq_some.mp hstep
      exact hun
  | respond =>
      simp only [step] at hstep
      split at hstep
      · obtain rfl := Option.some.inj hstep
        exact hun
      · cases hstep
  | other =>
      obtain rfl := Option.some.inj hstep
      exact hun

/-- One line read: an event arrives if the channel is registered, and is lost
if it is not. -/
theorem read_iff {s : SubscribeState} {line : SubscribeLine} {rest : List SubscribeLine}
    (hlost : s.NothingLost) (hwire : s.toClient = line :: rest) :
    NothingLost ({ s with toClient := rest }.readLine line) ↔ s.MeetsRegistered .read := by
  have hmeets : s.MeetsRegistered .read ↔ ∀ e, line = .event e → s.phase = .registered := by
    simp only [MeetsRegistered, hwire, List.head?_cons, Option.some.injEq]
  -- the line's own events stand first on the way
  have hflight := inFlight_cons hwire
  unfold NothingLost at hlost
  rw [hflight] at hlost
  rw [hmeets]
  cases line with
  | response ok =>
      refine iff_of_true ?_ fun _ h => nomatch h
      by_cases hphase : s.phase = .waiting
      · simp only [readLine, if_pos hphase]
        exact hlost
      · simp only [readLine, if_neg hphase]
        exact hlost
  | event e =>
      by_cases hphase : s.phase = .registered
      · refine iff_of_true ?_ fun _ _ => hphase
        simp only [readLine, if_pos hphase]
        exact hlost.receive
      · -- the reader finds no sender for the stream and goes on
        simp only [readLine, if_neg hphase]
        refine (hlost.drop_iff).trans (iff_of_false (List.cons_ne_nil _ _) fun h => ?_)
        exact hphase (h e rfl)
  | other => exact iff_of_true hlost fun _ h => nomatch h

/-- One step loses nothing exactly when it is no such read. -/
theorem step_nothingLost_iff {s s' : SubscribeState} {a : SubscribeAction} (hun : s.Unused)
    (hlost : s.NothingLost) (hstep : step s a = some s') :
    s'.NothingLost ↔ s.MeetsRegistered a := by
  cases a with
  | read =>
      simp only [step] at hstep
      split at hstep
      · next hwire =>
          obtain rfl := Option.some.inj hstep
          exact read_iff hlost hwire
      · cases hstep
  | call =>
      obtain ⟨_, rfl⟩ := Option.ite_some_none_eq_some.mp hstep
      exact iff_of_true hlost trivial
  | timeout =>
      obtain ⟨_, rfl⟩ := Option.ite_some_none_eq_some.mp hstep
      exact iff_of_true hlost trivial
  | register =>
      obtain ⟨hphase, rfl⟩ := Option.ite_some_none_eq_some.mp hstep
      -- the fresh channel replaces none: nothing was in it
      have hempty : s.channel = [] := hun (by rw [hphase]; decide)
      refine iff_of_true ?_ trivial
      show Conserved s.written s.inFlight []
      rw [← hempty]
      exact hlost
  | handle found =>
      obtain ⟨_, rfl⟩ := Option.ite_some_none_eq_some.mp hstep
      exact iff_of_true hlost trivial
  | pump e =>
      obtain ⟨_, rfl⟩ := Option.ite_some_none_eq_some.mp hstep
      exact iff_of_true (hlost.line (.event e)) trivial
  | respond =>
      simp only [step] at hstep
      split at hstep
      · next ok _ =>
          obtain rfl := Option.some.inj hstep
          -- the answer is no event of the stream
          have hidle : (SubscribeLine.response ok).events = [] := rfl
          exact iff_of_true (hlost.idle_line hidle) trivial
      · cases hstep
  | other =>
      obtain rfl := Option.some.inj hstep
      have hidle : SubscribeLine.other.events = [] := rfl
      exact iff_of_true (hlost.idle_line hidle) trivial

/-- **No event is lost at subscription** in exactly the interleavings in which
the reader meets no event of the stream before the channel is registered. -/
theorem no_event_lost_iff {s : SubscribeState} {as : List SubscribeAction}
    (hrun : exec step {} as = some s) :
    EveryState step NothingLost {} as ↔ EveryStep step MeetsRegistered {} as :=
  everyState_iff_everyStep Unused (fun _ _ _ hun hstep => step_unused hun hstep)
    (fun _ _ _ hun hlost hstep => step_nothingLost_iff hun hlost hstep)
    (fun _ => rfl) Conserved.empty hrun

/-- The pump writes right behind the answer, and the reader takes both lines
before the caller has registered its channel. -/
def earlyData : List SubscribeAction :=
  [.call, .handle true, .respond, .pump (.data [1]), .read, .read, .register]

theorem first_event_lost :
    ∃ s ∈ exec step {} earlyData, s.phase = .registered ∧ s.written = [.data [1]] ∧
      s.channel = [] ∧ ¬ s.NothingLost := by
  decide

/-- The caller is quicker than the reader. -/
theorem no_event_lost_quick :
    EveryState step NothingLost {}
      [.call, .handle true, .respond, .pump (.data [1]), .read, .register, .read,
        .pump (.eof none), .read] :=
  (no_event_lost_iff rfl).mpr (by decide)

end SubscribeState

end Jmux.Remote
