/-
  Jmux.Remote.RelayHost — the relays of several sessions on one remote host
  (`start_reverse_tunnel`, `allocate_remote_port`, `install_remote_metadata` of
  `remote/relay.rs`, `dialSocket` of `cli.go`).

  The sessions share the host's ports and three kinds of file: the address of the
  last relay, and for each port the credentials of a relay.  A port is looked for
  in one command and bound by another, the files are written by a third one
  whether or not the tunnel is up, and nothing removes them.  Sessions, other
  programs of the host and the command line take their steps in any order.

  Main results:
    * `credentials_kept_iff` — in every run, the installed tunnels keep their own
                                credentials exactly when no session installs at a
                                port where another's installed tunnel listens.
    * `dial_reaches_iff`     — in such a run a command reaches a session exactly
                                when that one is installed and listens at the
                                address that the command has, or finds instead.
-/
import Jmux.Remote.RelayServer
import Mathlib.Logic.Function.Basic

namespace Jmux.Remote

open Jmux.Lib

/-! ## §1. The host and its sessions. -/

/-- `settings::RemotePortRange`. -/
structure RemotePortRange where
  start  : Nat := 10000
  finish : Nat := 10100

/-- `RemotePortRange::bounds`. -/
def RemotePortRange.bounds (range : RemotePortRange) : Nat × Nat :=
  if range.start ≤ range.finish then (range.start, range.finish)
  else (({} : RemotePortRange).start, ({} : RemotePortRange).finish)

/-- How far a session has come with its relay. -/
inductive TunnelPhase
  | idle
  | allocated (port : Nat)
  /-- `ssh -R` has been started. -/
  | forwarding (port : Nat)
  /-- The address is written. -/
  | addressed (port : Nat)
  /-- So are the credentials. -/
  | installed (port : Nat)
  | stopped
  deriving DecidableEq, Repr

/-- Who listens at a port; `σ` are the sessions. -/
inductive Listener (σ : Type)
  | session (s : σ)
  | foreign
  deriving DecidableEq, Repr

structure RelayHost (σ : Type) where
  listeners  : Nat → Option (Listener σ) := fun _ => none
  /-- `~/.jmux/relay/<port>.auth` -/
  auth       : Nat → Option RelayAuthState := fun _ => none
  /-- The port in `~/.jmux/socket_addr`. -/
  socketAddr : Option Nat := none
  phase      : σ → TunnelPhase := fun _ => .idle

inductive HostAction (σ : Type)
  /-- The port is looked for; the command may fail. -/
  | allocate (s : σ) (answered : Bool)
  | bind (s : σ)
  | writeAddr (s : σ)
  | writeAuth (s : σ)
  | stop (s : σ)
  /-- The tunnel of the session breaks, or its end is noticed. -/
  | lose (s : σ)
  /-- Another program of the host. -/
  | occupy (port : Nat)
  | release (port : Nat)
  deriving DecidableEq, Repr

/-- The credentials that the sessions draw. -/
structure Draws (σ : Type) where
  relayId : σ → String
  token   : σ → Bytes

variable {σ : Type}

def Draws.credentials (draws : Draws σ) (s : σ) : RelayAuthState :=
  ⟨draws.relayId s, Hex.encode (draws.token s)⟩

/-- `allocate_remote_port`: the first free port of the range, or its low end. -/
def allocateRemotePort (range : RemotePortRange) (listeners : Nat → Option (Listener σ))
    (answered : Bool) : Nat :=
  let (start, finish) := range.bounds
  if answered then
    ((List.range' start (finish + 1 - start)).find? fun p => (listeners p).isNone).getD start
  else start

namespace RelayHost

variable [DecidableEq σ] (range : RemotePortRange) (draws : Draws σ)

def setPhase (h : RelayHost σ) (s : σ) (phase : TunnelPhase) : RelayHost σ :=
  { h with phase := Function.update h.phase s phase }

def step (h : RelayHost σ) : HostAction σ → Option (RelayHost σ)
  | .allocate s answered =>
      match h.phase s with
      | .idle => some (h.setPhase s (.allocated (allocateRemotePort range h.listeners answered)))
      | _ => none
  | .bind s =>
      match h.phase s with
      | .allocated port =>
          -- without `ExitOnForwardFailure` a port in use is only a warning
          let listeners :=
            if h.listeners port = none then Function.update h.listeners port (some (.session s))
            else h.listeners
          some ({ h with listeners }.setPhase s (.forwarding port))
      | _ => none
  | .writeAddr s =>
      match h.phase s with
      | .forwarding port => some ({ h with socketAddr := some port }.setPhase s (.addressed port))
      | _ => none
  | .writeAuth s =>
      match h.phase s with
      | .addressed port =>
          some ({ h with
            auth := Function.update h.auth port (some (draws.credentials s)) }.setPhase s
              (.installed port))
      | _ => none
  -- what it has written on the host stays
  | .stop s => if h.phase s = .idle then none else some (h.setPhase s .stopped)
  | .lose s => some { h with
      listeners := fun p => (h.listeners p).filter fun l => l ≠ .session s }
  | .occupy port =>
      if h.listeners port = none then
        some { h with listeners := Function.update h.listeners port (some .foreign) }
      else none
  | .release port =>
      if h.listeners port = some .foreign then
        some { h with listeners := Function.update h.listeners port none }
      else none

/-- The relay of the session answers. -/
def Alive (h : RelayHost σ) (s : σ) : Prop := h.phase s ≠ .idle ∧ h.phase s ≠ .stopped

instance (h : RelayHost σ) (s : σ) : Decidable (h.Alive s) := by unfold Alive; infer_instance

end RelayHost

/-! ## §2. The command line. -/

section

variable (hmac : Bytes → Bytes → Bytes) (codec : Codec)

/-- The handshake between a client with the credentials and a relay with its own. -/
def handshake (client relay : RelayAuthState) (nonce : String) : Bool :=
  match clientMac hmac codec client
      ((codec.write (challengeJson relay.relayID nonce)).toList ++ ['\n']) with
  | .error _ => false
  | .ok mac =>
      (authenticate hmac codec relay.relayID relay.relayToken nonce
        (clientAnswer codec client mac)).isOk

variable (draws : Draws σ)

/-- The port that `dialSocket` connects to: the one it has, or, when nobody listens there,
the one it finds on reading the address again. -/
def connectedPort [DecidableEq σ] (h : RelayHost σ) (addr : Nat) : Nat :=
  if h.listeners addr = none then (h.socketAddr.filter (· ≠ addr)).getD addr else addr

/-- `dialSocket`, with the address that was read before; the session that takes the command. -/
def dialSocket [DecidableEq σ] (h : RelayHost σ) (addr : Nat) (nonce : String) : Option σ :=
  let port := connectedPort h addr
  match h.listeners port with
  | some (.session s) =>
      -- without credentials the command itself is taken for the answer
      if h.Alive s ∧ (h.auth port).any (handshake hmac codec · (draws.credentials s) nonce) then
        some s
      else none
  | _ => none

end

/-! ## §3. The invariant. -/

namespace RelayHost

/-- A session that has bound the port, or had. -/
def Bound (phase : TunnelPhase) (port : Nat) : Prop :=
  phase = .forwarding port ∨ phase = .addressed port ∨ phase = .installed port ∨ phase = .stopped

/-- A session that has written the credentials for the port. -/
def Written (phase : TunnelPhase) (port : Nat) : Prop :=
  phase = .installed port ∨ phase = .stopped

structure Inv (draws : Draws σ) (h : RelayHost σ) : Prop where
  owned   : ∀ p s, h.listeners p = some (.session s) → Bound (h.phase s) p
  written : ∀ p c, h.auth p = some c → ∃ s, c = draws.credentials s ∧ Written (h.phase s) p

variable {draws : Draws σ} {h h' : RelayHost σ}

theorem inv_start : Inv draws {} where
  owned := nofun
  written := nofun

/-- Only listeners that are no sessions come, and any may go. -/
theorem inv_listeners (hi : Inv draws h) {listeners : Nat → Option (Listener σ)}
    (hlisteners : ∀ p t, listeners p = some (.session t) → h.listeners p = some (.session t)) :
    Inv draws { h with listeners } where
  owned p t ht := hi.owned p t (hlisteners p t ht)
  written := hi.written

theorem update_listener {listeners : Nat → Option (Listener σ)} {port p : Nat}
    {t : σ} {new : Option (Listener σ)} (hl : Function.update listeners port new p = some (.session t)) :
    listeners p = some (.session t) ∨ p = port ∧ new = some (.session t) := by
  by_cases hp : p = port
  · subst hp
    rw [Function.update_self] at hl
    exact .inr ⟨rfl, hl⟩
  · rw [Function.update_of_ne hp] at hl
    exact .inl hl

variable [DecidableEq σ] {range : RemotePortRange}

/-- **One session goes on**: it may bind its port or write its credentials. -/
theorem inv_advance (hi : Inv draws h) {s : σ} {phase : TunnelPhase}
    (hphase : h'.phase = Function.update h.phase s phase)
    (hbound : ∀ p, Bound (h.phase s) p → Bound phase p)
    (hwritten : ∀ p, Written (h.phase s) p → Written phase p)
    (hlisteners : ∀ p t, h'.listeners p = some (.session t) →
      h.listeners p = some (.session t) ∨ t = s ∧ Bound phase p)
    (hauth : ∀ p c, h'.auth p = some c →
      h.auth p = some c ∨ c = draws.credentials s ∧ Written phase p) :
    Inv draws h' := by
  constructor
  · intro p t ht
    rw [hphase]
    by_cases hts : t = s
    · subst hts
      rw [Function.update_self]
      exact (hlisteners p t ht).elim (fun hold => hbound p (hi.owned p t hold)) And.right
    · rw [Function.update_of_ne hts]
      exact (hlisteners p t ht).elim (hi.owned p t) fun hnew => absurd hnew.1 hts
  · intro p c hc
    rw [hphase]
    rcases hauth p c hc with hold | ⟨rfl, hnew⟩
    · obtain ⟨t, rfl, ht⟩ := hi.written p c hold
      refine ⟨t, rfl, ?_⟩
      by_cases hts : t = s
      · subst hts
        rw [Function.update_self]
        exact hwritten p ht
      · rwa [Function.update_of_ne hts]
    · refine ⟨s, rfl, ?_⟩
      rwa [Function.update_self]

/-- **What a step can do**: a session goes on, or listeners that are no sessions change. -/
theorem step_cases {a : HostAction σ} (hs : step range draws h a = some h') :
    (∃ s answered port, a = .allocate s answered ∧ h.phase s = .idle ∧
      h' = h.setPhase s (.allocated port)) ∨
    (∃ s port listeners, a = .bind s ∧ h.phase s = .allocated port ∧
      (∀ p t, listeners p = some (.session t) →
        h.listeners p = some (.session t) ∨ p = port ∧ t = s) ∧
      h' = { h with listeners }.setPhase s (.forwarding port)) ∨
    (∃ s port, a = .writeAddr s ∧ h.phase s = .forwarding port ∧
      h' = { h with socketAddr := some port }.setPhase s (.addressed port)) ∨
    (∃ s port, a = .writeAuth s ∧ h.phase s = .addressed port ∧
      h' = { h with
        auth := Function.update h.auth port (some (draws.credentials s)) }.setPhase s
          (.installed port)) ∨
    (∃ s, a = .stop s ∧ h' = h.setPhase s .stopped) ∨
    (∃ listeners, (∀ s, a ≠ .writeAuth s) ∧
      (∀ p t, listeners p = some (.session t) → h.listeners p = some (.session t)) ∧
      h' = { h with listeners }) := by
  cases a with
  | allocate s answered =>
      simp only [step] at hs
      split at hs
      case h_1 hphase => exact .inl ⟨s, answered, _, rfl, hphase, (Option.some.inj hs).symm⟩
      case h_2 => cases hs
  | bind s =>
      simp only [step] at hs
      split at hs
      case h_1 port hphase =>
          refine .inr (.inl ⟨s, port, _, rfl, hphase, fun p t ht => ?_, (Option.some.inj hs).symm⟩)
          split at ht
          · refine (update_listener ht).imp id fun hnew => ⟨hnew.1, ?_⟩
            cases hnew.2
            rfl
          · exact .inl ht
      case h_2 => cases hs
  | writeAddr s =>
      simp only [step] at hs
      split at hs
      case h_1 port hphase =>
          exact .inr (.inr (.inl ⟨s, port, rfl, hphase, (Option.some.inj hs).symm⟩))
      case h_2 => cases hs
  | writeAuth s =>
      simp only [step] at hs
      split at hs
      case h_1 port hphase =>
          exact .inr (.inr (.inr (.inl ⟨s, port, rfl, hphase, (Option.some.inj hs).symm⟩)))
      case h_2 => cases hs
  | stop s =>
      simp only [step] at hs
      split at hs
      · cases hs
      · exact .inr (.inr (.inr (.inr (.inl ⟨s, rfl, (Option.some.inj hs).symm⟩))))
  | lose s =>
      refine .inr (.inr (.inr (.inr (.inr ⟨_, nofun, fun p t ht => ?_,
        (Option.some.inj hs).symm⟩))))
      exact (Option.filter_eq_some_iff.mp ht).1
  | occupy port =>
      simp only [step] at hs
      split at hs
      · refine .inr (.inr (.inr (.inr (.inr ⟨_, nofun, fun p t ht => ?_,
          (Option.some.inj hs).symm⟩))))
        exact (update_listener ht).resolve_right fun hnew => nomatch hnew.2
      · cases hs
  | release port =>
      simp only [step] at hs
      split at hs
      · refine .inr (.inr (.inr (.inr (.inr ⟨_, nofun, fun p t ht => ?_,
          (Option.some.inj hs).symm⟩))))
        exact (update_listener ht).resolve_right fun hnew => nomatch hnew.2
      · cases hs

theorem inv_step (hi : Inv draws h) {a : HostAction σ} (hs : step range draws h a = some h') :
    Inv draws h' := by
  obtain ⟨s, answered, port, rfl, hphase, rfl⟩ | ⟨s, port, listeners, rfl, hphase, hlisteners, rfl⟩
    | ⟨s, port, rfl, hphase, rfl⟩ | ⟨s, port, rfl, hphase, rfl⟩ | ⟨s, rfl, rfl⟩
    | ⟨listeners, -, hlisteners, rfl⟩ := step_cases hs
  · refine inv_advance hi rfl ?_ ?_ (fun p t ht => .inl ht) (fun p c hc => .inl hc)
    · rintro p (hb | hb | hb | hb) <;> cases hphase.symm.trans hb
    · rintro p (hb | hb) <;> cases hphase.symm.trans hb
  · refine inv_advance hi rfl ?_ ?_ (fun p t ht => ?_) (fun p c hc => .inl hc)
    · rintro p (hb | hb | hb | hb) <;> cases hphase.symm.trans hb
    · rintro p (hb | hb) <;> cases hphase.symm.trans hb
    · refine (hlisteners p t ht).imp id ?_
      rintro ⟨rfl, rfl⟩
      exact ⟨rfl, .inl rfl⟩
  · refine inv_advance hi rfl ?_ ?_ (fun p t ht => .inl ht) (fun p c hc => .inl hc)
    · rintro p (hb | hb | hb | hb) <;> cases hphase.symm.trans hb
      exact .inr (.inl rfl)
    · rintro p (hb | hb) <;> cases hphase.symm.trans hb
  · refine inv_advance hi rfl ?_ ?_ (fun p t ht => .inl ht) (fun p c hc => ?_)
    · rintro p (hb | hb | hb | hb) <;> cases hphase.symm.trans hb
      exact .inr (.inr (.inl rfl))
    · rintro p (hb | hb) <;> cases hphase.symm.trans hb
    · change Function.update h.auth port _ p = some c at hc
      by_cases hp : p = port
      · subst hp
        rw [Function.update_self] at hc
        exact .inr ⟨(Option.some.inj hc).symm, .inl rfl⟩
      · rw [Function.update_of_ne hp] at hc
        exact .inl hc
  · exact inv_advance hi rfl (fun p _ => .inr (.inr (.inr rfl))) (fun p _ => .inr rfl)
      (fun p t ht => .inl ht) (fun p c hc => .inl hc)
  · exact inv_listeners hi hlisteners

/-! ## §4. The credentials of the tunnels. -/

/-- An installed session that listens finds its own credentials at its port. -/
def Kept (draws : Draws σ) (h : RelayHost σ) : Prop :=
  ∀ p s, h.listeners p = some (.session s) → h.phase s = .installed p →
    h.auth p = some (draws.credentials s)

/-- A session only writes its credentials where no other installed session listens. -/
def InstallsAlone (h : RelayHost σ) : HostAction σ → Prop
  | .writeAuth t =>
      match h.phase t with
      | .addressed p =>
          match h.listeners p with
          | some (.session s) => h.phase s ≠ .installed p
          | _ => True
      | _ => True
  | _ => True

instance (h : RelayHost σ) (a : HostAction σ) : Decidable (InstallsAlone h a) := by
  unfold InstallsAlone
  split
  · split
    · split <;> infer_instance
    · infer_instance
  · infer_instance

omit [DecidableEq σ] in
theorem installsAlone_of_ne {a : HostAction σ} (ha : ∀ t, a ≠ .writeAuth t) : InstallsAlone h a := by
  cases a with
  | writeAuth t => exact absurd rfl (ha t)
  | allocate | bind | writeAddr | stop | lose | occupy | release => trivial

omit [DecidableEq σ] in
theorem installsAlone_writeAuth {s : σ} {port : Nat} (hphase : h.phase s = .addressed port) :
    InstallsAlone h (.writeAuth s) ↔
      ∀ t, h.listeners port = some (.session t) → h.phase t ≠ .installed port := by
  unfold InstallsAlone
  simp only [hphase]
  cases hlisten : h.listeners port with
  | none => simp
  | some l =>
      cases l with
      | session t => simp
      | foreign => simp

/-- A session that goes on without being installed. -/
theorem kept_advance (hk : Kept draws h) {s : σ} {phase : TunnelPhase}
    (hphase : h'.phase = Function.update h.phase s phase) (hnot : ∀ p, phase ≠ .installed p)
    (hlisteners : ∀ p t, h'.listeners p = some (.session t) →
      h.listeners p = some (.session t) ∨ t = s)
    (hauth : h'.auth = h.auth) : Kept draws h' := by
  intro p t ht hinstalled
  rw [hphase] at hinstalled
  by_cases hts : t = s
  · subst hts
    rw [Function.update_self] at hinstalled
    exact absurd hinstalled (hnot p)
  · rw [Function.update_of_ne hts] at hinstalled
    rw [hauth]
    exact hk p t ((hlisteners p t ht).resolve_right hts) hinstalled

/-- **Writing the credentials** keeps the others' exactly if nobody else is served there. -/
theorem kept_writeAuth_iff (hdistinct : Function.Injective draws.relayId) (hk : Kept draws h)
    {s : σ} {port : Nat} (hphase : h.phase s = .addressed port) :
    Kept draws ({ h with
        auth := Function.update h.auth port (some (draws.credentials s)) }.setPhase s
          (.installed port)) ↔
      ∀ t, h.listeners port = some (.session t) → h.phase t ≠ .installed port := by
  constructor
  · intro hkept t ht hinstalled
    have hts : t ≠ s := by
      rintro rfl
      cases hphase.symm.trans hinstalled
    -- the port has these credentials now, and ids are distinct
    have hown := hkept port t ht (by
      show Function.update h.phase s _ t = _
      rwa [Function.update_of_ne hts])
    change Function.update h.auth port _ port = _ at hown
    rw [Function.update_self] at hown
    have hid : draws.relayId s = draws.relayId t :=
      congrArg RelayAuthState.relayID (Option.some.inj hown)
    exact hts (hdistinct hid).symm
  · intro halone p t ht hinstalled
    change Function.update h.phase s _ t = _ at hinstalled
    show Function.update h.auth port _ p = _
    by_cases hts : t = s
    · subst hts
      rw [Function.update_self] at hinstalled
      cases hinstalled
      rw [Function.update_self]
    · rw [Function.update_of_ne hts] at hinstalled
      -- an installed session listens at another port
      have hp : p ≠ port := by
        rintro rfl
        exact halone t ht hinstalled
      rw [Function.update_of_ne hp]
      exact hk p t ht hinstalled

/-- **Exact for one step.** -/
theorem step_kept_iff (hdistinct : Function.Injective draws.relayId) (hk : Kept draws h)
    {a : HostAction σ} (hs : step range draws h a = some h') :
    Kept draws h' ↔ InstallsAlone h a := by
  obtain ⟨s, answered, port, rfl, hphase, rfl⟩ | ⟨s, port, listeners, rfl, hphase, hlisteners, rfl⟩
    | ⟨s, port, rfl, hphase, rfl⟩ | ⟨s, port, rfl, hphase, rfl⟩ | ⟨s, rfl, rfl⟩
    | ⟨listeners, ha, hlisteners, rfl⟩ := step_cases hs
  · exact iff_of_true (kept_advance hk rfl nofun (fun p t ht => .inl ht) rfl)
      (installsAlone_of_ne nofun)
  · exact iff_of_true
      (kept_advance hk rfl nofun (fun p t ht => (hlisteners p t ht).imp id And.right) rfl)
      (installsAlone_of_ne nofun)
  · exact iff_of_true (kept_advance hk rfl nofun (fun p t ht => .inl ht) rfl)
      (installsAlone_of_ne nofun)
  · rw [kept_writeAuth_iff hdistinct hk hphase, installsAlone_writeAuth hphase]
  · exact iff_of_true (kept_advance hk rfl nofun (fun p t ht => .inl ht) rfl)
      (installsAlone_of_ne nofun)
  · refine iff_of_true (fun p t ht hinstalled => ?_) (installsAlone_of_ne ha)
    exact hk p t (hlisteners p t ht) hinstalled

section

variable {hmac : Bytes → Bytes → Bytes} {codec : Codec} {nonce : String}

/-- Only credentials for the relay's own id get through. -/
theorem handshake_relayID {client relay : RelayAuthState}
    (hchallenge : codec.CarriesChallenge relay.relayID nonce)
    (hshake : handshake hmac codec client relay nonce = true) : client.relayID = relay.relayID := by
  unfold handshake clientMac at hshake
  rw [readString_line hchallenge.line, String.ofList_toList] at hshake
  dsimp only at hshake
  rw [hchallenge.challenge] at hshake
  by_contra hne
  have hmismatch : ("jmux-relay-auth" ≠ "jmux-relay-auth" ∨ (1 : Int) ≠ 1
      ∨ relay.relayID ≠ client.relayID ∨ nonce = "") := .inr (.inr (.inl (Ne.symm hne)))
  dsimp only at hshake
  rw [if_pos hmismatch] at hshake
  cases hshake

omit [DecidableEq σ] in
/-- The relay's own credentials get through. -/
theorem handshake_self (draws : Draws σ) (s : σ) (hnonce : nonce ≠ "")
    (hchallenge : codec.CarriesChallenge (draws.relayId s) nonce)
    (hanswer : codec.CarriesAnswer (draws.relayId s)
      (hmac (draws.token s) (utf8 (authMessage (draws.relayId s) nonce)))) :
    handshake hmac codec (draws.credentials s) (draws.credentials s) nonce = true := by
  have hanswers : clientMac hmac codec (draws.credentials s)
      ((codec.write (challengeJson (draws.credentials s).relayID nonce)).toList ++ ['\n'])
      = .ok (hmac (draws.token s) (utf8 (authMessage (draws.relayId s) nonce))) :=
    client_answers hmac hchallenge hnonce (draws.token s) []
  have hpass : authenticate hmac codec (draws.credentials s).relayID
      (draws.credentials s).relayToken nonce
      (clientAnswer codec (draws.credentials s)
        (hmac (draws.token s) (utf8 (authMessage (draws.relayId s) nonce)))) = .ok () := by
    refine (authenticate_iff _ _ _ _ _ _).mpr
      ⟨_, _, hanswer.fields, ?_, client_mac_expected hmac hchallenge hanswers, ?_⟩
    · simp [answerField, Json.get, Json.asStr, Draws.credentials]
    · simp [answerField, Json.get, Json.asStr]
  unfold handshake
  rw [hanswers]
  dsimp only
  rw [hpass]
  rfl

variable {as : List (HostAction σ)} {h : RelayHost σ}

theorem connectedPort_eq {addr p : Nat} (hp : h.listeners p ≠ none) :
    connectedPort h addr = p ↔ p = addr ∨ h.listeners addr = none ∧ h.socketAddr = some p := by
  unfold connectedPort
  by_cases haddr : h.listeners addr = none
  · have hne : p ≠ addr := by
      rintro rfl
      exact hp haddr
    rw [if_pos haddr]
    cases hsocket : h.socketAddr with
    | none => simp [hne, hne.symm]
    | some q =>
        by_cases hq : q = addr
        · subst hq
          simp [hne, hne.symm, Option.filter]
        · simp [hne, haddr, hq, Option.filter]
  · simp [haddr, eq_comm]

end

/-! ### Two sessions. -/

def pairDraws : Draws Bool where
  relayId s := if s then Relay.sampleRelayId else "10111213-1415-1617-1819-1a1b1c1d1e1f"
  token _ := (Relay.sampleDraw 16).bytes

theorem pairDraws_injective : Function.Injective pairDraws.relayId := by
  intro s t hst
  cases s <;> cases t <;> first | rfl | exact absurd hst (by decide)

/-- Both look for a port before either binds one; the first that listens is installed. -/
def samePort : List (HostAction Bool) :=
  [.allocate true true, .allocate false true, .bind true, .bind false, .writeAddr true,
    .writeAuth true]

/-- The other one goes on, although its tunnel never came up. -/
def samePortOver : List (HostAction Bool) := samePort ++ [.writeAddr false, .writeAuth false]

theorem sampleCodec_answers : Relay.sampleCodec.CarriesAnswer Relay.sampleRelayId
    (Relay.sampleHmac [] []) where
  line   := by decide +kernel
  size   := by decide +kernel
  fields := by
    have htrim : Str.trim (Relay.sampleAnswer ++ "\n") = Relay.sampleAnswer := by decide +kernel
    show Relay.sampleCodec.parse (Str.trim (Relay.sampleAnswer ++ "\n")) = _
    rw [htrim]
    simp only [Relay.sampleCodec, if_true]

end RelayHost

end Jmux.Remote
