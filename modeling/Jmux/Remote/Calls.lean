/-
  Jmux.Remote.Calls — the calls of one RPC client, made from many threads
  (`remote/rpc.rs`).

  A call takes an id, registers it, writes its line and waits ten seconds for its answer;
  the reader thread takes the sender of an answer out of the pending calls and hands the
  answer over.  The daemon serves the lines in the order they were written, and writes
  events in between.  Each access to the client's shared fields is one step.

  Main results:
    * `answers_are_own`     — in every run, the answer that a call returns is the one the
                               daemon gave to that call's own line, the only one of its id.
    * `pending_iff`         — a call is pending from its registration until the reader has
                               taken its sender or the call has given up, and never else.
    * `lost_calls_time_out` — a call that waits when the connection is lost is not answered.
-/
import Jmux.Lib.Transition
import Jmux.Remote.Agreement
import Mathlib.Data.Finset.Basic

namespace Jmux.Remote

open Jmux.Lib RpcClient

/-! ## §1. The calls, the reader thread and the daemon. -/

inductive CallOutcome
  | answered (result : Except RpcError Json)
  | timedOut
  | writeFailed

inductive CallPhase
  /-- The id is taken. -/
  | fetched
  | registered
  /-- The line could not be written; the call is still pending. -/
  | failing
  /-- In `recv_timeout`. -/
  | waiting
  /-- `recv_timeout` has given up; the call is still pending. -/
  | givingUp
  | returned (outcome : CallOutcome)

structure Call where
  method  : String
  params  : Json
  phase   : CallPhase := .fetched
  /-- What is in the call's channel. -/
  channel : Option (Except RpcError Json) := none

structure CallSystem where
  alive      : Bool := true
  /-- The reader thread runs. -/
  reading    : Bool := true
  /-- The reader holds the sender of this call, with what it sends. -/
  delivering : Option (Nat × Except RpcError Json) := none
  /-- The threads that have found the client alive and have no id yet. -/
  checked    : Nat := 0
  made       : Nat := 0
  calls      : AList (fun _ : Nat => Call) := ∅
  pending    : Finset Nat := ∅
  toDaemon   : List RpcRequest := []
  toClient   : List Json := []
  /-- What the daemon has answered. -/
  served     : List (RpcRequest × RpcResponse) := []

inductive CallAction
  | check
  | fetch (method : String) (params : Json)
  | register (id : Nat)
  | write (id : Nat) (succeeds : Bool)
  | receive (id : Nat)
  | timeout (id : Nat)
  /-- The call that failed or gave up takes itself out of the pending calls. -/
  | unregister (id : Nat)
  | serve (answer : RpcResponse)
  /-- The daemon cannot read the line, and answers without an id. -/
  | refuse
  | event (ev : RpcEvent)
  | read
  | deliver
  | endOfStream
  | shutdown

theorem RpcResponse.get_id (resp : RpcResponse) : resp.toJson.get "id" = resp.id := by
  obtain ⟨id, ok, result, error⟩ := resp
  cases id <;> cases result <;> cases error <;> rfl

namespace CallSystem

def setPhase (id : Nat) (phase : CallPhase) (s : CallSystem) : CallSystem :=
  { s with calls := s.calls.modify id fun call => { call with phase } }

def invalidRequest : RpcResponse where
  id    := none
  ok    := false
  error := some { code := "invalid_request", message := "invalid JSON request" }

def step (b64 : Base64) (s : CallSystem) : CallAction → Option CallSystem
  | .check => if s.alive then some { s with checked := s.checked + 1 } else none
  | .fetch method params =>
      if 0 < s.checked then some { s with
        checked := s.checked - 1
        made := s.made + 1
        -- the counter is a `u64` that starts at 1
        calls := s.calls.insert ((s.made + 1) % 2 ^ 64) { method, params } }
      else none
  | .register id =>
      match s.calls.lookup id with
      | some { phase := .fetched, .. } =>
          some { s.setPhase id .registered with pending := insert id s.pending }
      | _ => none
  | .write id succeeds =>
      match s.calls.lookup id with
      | some { method, params, phase := .registered, .. } =>
          -- the write and the wait for the channel count as one step
          if succeeds then
            some { s.setPhase id .waiting with
              toDaemon := s.toDaemon ++ [{ id, method, params }] }
          else some (s.setPhase id .failing)
      | _ => none
  | .receive id =>
      match s.calls.lookup id with
      | some { phase := .waiting, channel := some result, .. } =>
          some (s.setPhase id (.returned (.answered result)))
      | _ => none
  | .timeout id =>
      match s.calls.lookup id with
      | some { phase := .waiting, channel := none, .. } => some (s.setPhase id .givingUp)
      | _ => none
  | .unregister id =>
      match s.calls.lookup id with
      | some { phase := .givingUp, .. } =>
          some { s.setPhase id (.returned .timedOut) with pending := s.pending.erase id }
      | some { phase := .failing, .. } =>
          some { s.setPhase id (.returned .writeFailed) with pending := s.pending.erase id }
      | _ => none
  | .serve answer =>
      match s.toDaemon with
      | req :: rest =>
          let resp := { answer with id := some (.num req.id) }
          some { s with
            toDaemon := rest, toClient := s.toClient ++ [resp.toJson]
            served := s.served ++ [(req, resp)] }
      | [] => none
  | .refuse =>
      match s.toDaemon with
      | _ :: rest =>
          some { s with toDaemon := rest, toClient := s.toClient ++ [invalidRequest.toJson] }
      | [] => none
  | .event ev => some { s with toClient := s.toClient ++ [ev.toJson] }
  | .read =>
      match s.reading, s.delivering, s.toClient with
      | true, none, line :: rest =>
          match route b64 line with
          | .response id result =>
              if id ∈ s.pending then
                some { s with
                  toClient := rest, pending := s.pending.erase id
                  delivering := some (id, result) }
              -- nobody waits any more
              else some { s with toClient := rest }
          | _ => some { s with toClient := rest }
      | _, _, _ => none
  | .deliver =>
      match s.delivering with
      | some (id, result) => some { s with
          delivering := none
          calls := s.calls.modify id fun call => { call with channel := some result } }
      | none => none
  | .endOfStream =>
      match s.reading, s.delivering with
      -- the pending senders are kept, so the calls wait until they time out
      | true, none => some { s with reading := false, alive := false }
      | _, _ => none
  | .shutdown => some { s with alive := false }

/-- The counter of the ids does not come round. -/
def Numbered (s : CallSystem) : CallAction → Prop
  | .fetch _ _ => s.made + 1 < 2 ^ 64
  | _ => True

instance (s : CallSystem) : ∀ a, Decidable (Numbered s a)
  | .fetch _ _ => inferInstanceAs (Decidable (s.made + 1 < 2 ^ 64))
  | .check | .register _ | .write _ _ | .receive _ | .timeout _ | .unregister _ | .serve _
  | .refuse | .event _ | .read | .deliver | .endOfStream | .shutdown => isTrue trivial

/-! ## §2. The invariant. -/

/-- The phases in which a call is pending, as long as it has no answer. -/
def Open : CallPhase → Prop
  | .registered | .failing | .waiting | .givingUp => True
  | .fetched | .returned _ => False

/-- The phases after the line was written. -/
def Sent : CallPhase → Prop
  | .waiting | .givingUp | .returned _ => True
  | .fetched | .registered | .failing => False

/-- The lines that reached the daemon and were not refused. -/
def requests (s : CallSystem) : List RpcRequest := s.served.map (·.1) ++ s.toDaemon

/-- The daemon has answered the line with this id so. -/
def Answered (s : CallSystem) (id : Nat) (result : Except RpcError Json) : Prop :=
  ∃ req resp, (req, resp) ∈ s.served ∧ req.id = id ∧ callResult resp.toJson = result

/-- The reader has taken the sender of the call out. -/
def Taken (s : CallSystem) (id : Nat) (call : Call) : Prop :=
  call.channel ≠ none ∨ ∃ result, s.delivering = some (id, result)

structure Inv (s : CallSystem) : Prop where
  bound      : s.made < 2 ^ 64
  old        : ∀ id call, s.calls.lookup id = some call → id ≤ s.made
  pending    : ∀ id, id ∈ s.pending ↔
    ∃ call, s.calls.lookup id = some call ∧ Open call.phase ∧ ¬ s.Taken id call
  sent       : ∀ req ∈ s.requests, ∃ call, s.calls.lookup req.id = some call ∧
    call.method = req.method ∧ call.params = req.params ∧ Sent call.phase
  once       : (s.requests.map (·.id)).Nodup
  lines      : ∀ line ∈ s.toClient, ∀ id, (line.get "id").bind (·.asU64) = some id →
    s.Answered id (callResult line)
  delivering : ∀ id result, s.delivering = some (id, result) → s.Answered id result
  channels   : ∀ id call result, s.calls.lookup id = some call →
    call.channel = some result → s.Answered id result
  returned   : ∀ id call result, s.calls.lookup id = some call →
    call.phase = .returned (.answered result) → s.Answered id result

theorem inv_init : Inv {} := by
  constructor <;> simp [requests]

/-! ## §3. What each step keeps. -/

theorem asU64_num {n id : Nat} (h : (some (Json.num n)).bind (·.asU64) = some id) : n = id := by
  by_cases hrange : 0 ≤ (n : Int) ∧ (n : Int) < 2 ^ 64
  · rw [Option.bind_some, Json.asU64, if_pos hrange, Int.toNat_natCast] at h
    exact Option.some.inj h
  · rw [Option.bind_some, Json.asU64, if_neg hrange] at h
    cases h

section

variable {s s' : CallSystem} {id : Nat} {call : Call}

/-- A call goes on to the next phase; it may have registered, unregistered or written. -/
theorem inv_setPhase (hinv : Inv s) (hcall : s.calls.lookup id = some call) (phase : CallPhase)
    (pending : Finset Nat) (hothers : ∀ other, other ≠ id → (other ∈ pending ↔ other ∈ s.pending))
    (hself : id ∈ pending ↔ Open phase ∧ ¬ s.Taken id call)
    (hsent : Sent call.phase → Sent phase)
    (hreturned : ∀ result, phase = .returned (.answered result) → s.Answered id result) :
    Inv { s.setPhase id phase with pending } := by
  have hlookup : ∀ other, (s.setPhase id phase).calls.lookup other =
      if other = id then some { call with phase } else s.calls.lookup other := by
    intro other
    simp only [setPhase, AList.lookup_modify, hcall, Option.map_some]
  constructor
  · exact hinv.bound
  · intro other c hc
    rw [hlookup] at hc
    split at hc
    case isTrue heq => exact heq ▸ hinv.old id call hcall
    case isFalse => exact hinv.old other c hc
  · intro other
    show other ∈ pending ↔ ∃ c, (s.setPhase id phase).calls.lookup other = some c ∧ _
    rw [hlookup]
    by_cases heq : other = id
    · subst heq
      rw [hself, if_pos rfl]
      constructor
      · intro h
        exact ⟨_, rfl, h⟩
      · rintro ⟨c, hc, h⟩
        cases hc
        exact h
    · rw [hothers other heq, if_neg heq]
      exact hinv.pending other
  · intro req hreq
    obtain ⟨c, hc, hmethod, hparams, hphase⟩ := hinv.sent req hreq
    rw [hlookup]
    by_cases heq : req.id = id
    · rw [if_pos heq]
      obtain rfl := Option.some.inj (hcall.symm.trans (heq ▸ hc))
      exact ⟨_, rfl, hmethod, hparams, hsent hphase⟩
    · rw [if_neg heq]
      exact ⟨c, hc, hmethod, hparams, hphase⟩
  · exact hinv.once
  · exact hinv.lines
  · exact hinv.delivering
  · intro other c result hc hchannel
    rw [hlookup] at hc
    split at hc
    case isTrue heq =>
        cases hc
        exact heq ▸ hinv.channels id call result hcall hchannel
    case isFalse => exact hinv.channels other c result hc hchannel
  · intro other c result hc hphase
    rw [hlookup] at hc
    split at hc
    case isTrue heq =>
        cases hc
        exact heq ▸ hreturned result hphase
    case isFalse => exact hinv.returned other c result hc hphase

theorem mem_pending (hinv : Inv s) (hcall : s.calls.lookup id = some call) :
    id ∈ s.pending ↔ Open call.phase ∧ ¬ s.Taken id call := by
  rw [hinv.pending id, hcall]
  constructor
  · rintro ⟨c, hc, h⟩
    cases hc
    exact h
  · intro h
    exact ⟨call, rfl, h⟩

/-- Only a call whose line was written can have an answer. -/
theorem not_taken (hinv : Inv s) (hcall : s.calls.lookup id = some call)
    (hphase : ¬ Sent call.phase) : ¬ s.Taken id call := by
  -- an answer is one to a line, and this call has written none
  have hunanswered : ∀ result, ¬ s.Answered id result := by
    rintro result ⟨req, resp, hmem, rfl, -⟩
    obtain ⟨c, hc, -, -, hsent⟩ := hinv.sent req
      (List.mem_append_left _ (List.mem_map.mpr ⟨(req, resp), hmem, rfl⟩))
    obtain rfl := Option.some.inj (hcall.symm.trans hc)
    exact hphase hsent
  rintro (h | ⟨result, h⟩)
  · obtain ⟨result, hchannel⟩ := Option.ne_none_iff_exists'.mp h
    exact hunanswered result (hinv.channels id call result hcall hchannel)
  · exact hunanswered result (hinv.delivering id result h)

/-- A call that was not sent is not among the lines. -/
theorem notMem_requests (hinv : Inv s) (hcall : s.calls.lookup id = some call)
    (hphase : ¬ Sent call.phase) : id ∉ s.requests.map (·.id) := by
  rintro hmem
  obtain ⟨req, hreq, rfl⟩ := List.mem_map.mp hmem
  obtain ⟨c, hc, -, -, hsent⟩ := hinv.sent req hreq
  obtain rfl := Option.some.inj (hcall.symm.trans hc)
  exact hphase hsent

/-- The line of a waiting call goes out. -/
theorem inv_write (hinv : Inv s) (req : RpcRequest) (hcall : s.calls.lookup req.id = some call)
    (hmethod : call.method = req.method) (hparams : call.params = req.params)
    (hphase : Sent call.phase) (hnew : req.id ∉ s.requests.map (·.id)) :
    Inv { s with toDaemon := s.toDaemon ++ [req] } := by
  have hrequests : ({ s with toDaemon := s.toDaemon ++ [req] } : CallSystem).requests =
      s.requests ++ [req] := by
    simp [requests]
  refine { hinv with sent := ?_, once := ?_ }
  · intro other hother
    rw [hrequests, List.mem_append, List.mem_singleton] at hother
    rcases hother with hother | rfl
    · exact hinv.sent other hother
    · exact ⟨call, hcall, hmethod, hparams, hphase⟩
  · rw [hrequests, List.map_append, List.nodup_append']
    refine ⟨hinv.once, List.nodup_singleton _, ?_⟩
    rw [List.map_singleton, List.disjoint_singleton]
    exact hnew

theorem inv_fetch (hinv : Inv s) (hbound : s.made + 1 < 2 ^ 64) (method : String)
    (params : Json) (checked : Nat) :
    Inv { s with
      checked, made := s.made + 1
      calls := s.calls.insert ((s.made + 1) % 2 ^ 64) { method, params } } := by
  rw [Nat.mod_eq_of_lt hbound]
  have hfresh : ∀ c, s.calls.lookup (s.made + 1) ≠ some c := by
    intro c hc
    have hle := hinv.old _ c hc
    omega
  constructor
  · exact hbound
  · intro other c hc
    rw [AList.lookup_insert_eq_ite] at hc
    split at hc
    case isTrue heq => exact heq ▸ Nat.le_refl _
    case isFalse => exact Nat.le_succ_of_le (hinv.old other c hc)
  · intro other
    show other ∈ s.pending ↔ ∃ c, (s.calls.insert _ _).lookup other = some c ∧ _
    rw [AList.lookup_insert_eq_ite, hinv.pending other]
    split
    case isTrue heq =>
        -- the new id is neither pending nor registered
        refine iff_of_false ?_ ?_
        · rintro ⟨c, hc, -⟩
          exact hfresh c (heq ▸ hc)
        · rintro ⟨c, hc, hopen, -⟩
          cases hc
          exact hopen
    case isFalse => exact Iff.rfl
  · intro req hreq
    obtain ⟨c, hc, hrest⟩ := hinv.sent req hreq
    have hne : req.id ≠ s.made + 1 := by
      intro heq
      exact hfresh c (heq ▸ hc)
    exact ⟨c, by rwa [AList.lookup_insert_eq_ite, if_neg hne], hrest⟩
  · exact hinv.once
  · exact hinv.lines
  · exact hinv.delivering
  · intro other c result hc hchannel
    rw [AList.lookup_insert_eq_ite] at hc
    split at hc
    case isTrue =>
        cases hc
        cases hchannel
    case isFalse => exact hinv.channels other c result hc hchannel
  · intro other c result hc hphase
    rw [AList.lookup_insert_eq_ite] at hc
    split at hc
    case isTrue =>
        cases hc
        cases hphase
    case isFalse => exact hinv.returned other c result hc hphase

/-- The daemon takes a line and writes one, which is an answer to it or has no id. -/
theorem inv_answer (hinv : Inv s) {req : RpcRequest} {rest : List RpcRequest}
    (htoDaemon : s.toDaemon = req :: rest) (resp : RpcResponse)
    (hid : resp.id = some (.num req.id)) :
    Inv { s with
      toDaemon := rest, toClient := s.toClient ++ [resp.toJson]
      served := s.served ++ [(req, resp)] } := by
  have hrequests : ({ s with
      toDaemon := rest, toClient := s.toClient ++ [resp.toJson]
      served := s.served ++ [(req, resp)] } : CallSystem).requests = s.requests := by
    simp [requests, htoDaemon]
  have hmono : ∀ {id result}, s.Answered id result → ({ s with
      toDaemon := rest, toClient := s.toClient ++ [resp.toJson]
      served := s.served ++ [(req, resp)] } : CallSystem).Answered id result := by
    rintro id result ⟨r, a, hmem, h⟩
    exact ⟨r, a, List.mem_append_left _ hmem, h⟩
  constructor
  · exact hinv.bound
  · exact hinv.old
  · exact hinv.pending
  · rw [hrequests]
    exact hinv.sent
  · rw [hrequests]
    exact hinv.once
  · -- the new line carries the id of the request that it answers
    intro line hline id hlineId
    rcases List.mem_append.mp hline with hline | hline
    · exact hmono (hinv.lines line hline id hlineId)
    · obtain rfl := List.mem_singleton.mp hline
      refine ⟨req, resp, List.mem_append_right _ List.mem_cons_self, ?_, rfl⟩
      rw [resp.get_id, hid] at hlineId
      exact asU64_num hlineId
  · intro id result h
    exact hmono (hinv.delivering id result h)
  · intro id c result hc h
    exact hmono (hinv.channels id c result hc h)
  · intro id c result hc h
    exact hmono (hinv.returned id c result hc h)

theorem inv_line (hinv : Inv s) {toDaemon : List RpcRequest} (hless : toDaemon.Sublist s.toDaemon)
    (line : Json) (hline : (line.get "id").bind (·.asU64) = none) :
    Inv { s with toDaemon, toClient := s.toClient ++ [line] } := by
  have hrequests : (s.served.map (·.1) ++ toDaemon).Sublist s.requests :=
    List.Sublist.append_left hless _
  refine { hinv with sent := ?_, once := ?_, lines := ?_ }
  · intro req hreq
    exact hinv.sent req (hrequests.subset hreq)
  · exact hinv.once.sublist (hrequests.map _)
  · intro other hother id hid
    rcases List.mem_append.mp hother with hother | hother
    · exact hinv.lines other hother id hid
    · obtain rfl := List.mem_singleton.mp hother
      rw [hline] at hid
      cases hid

/-- The reader takes the sender of a pending call out. -/
theorem inv_take (hinv : Inv s) (hfree : s.delivering = none) {id : Nat}
    {result : Except RpcError Json} (hanswered : s.Answered id result) :
    Inv { s with pending := s.pending.erase id, delivering := some (id, result) } := by
  refine { hinv with pending := ?_, delivering := ?_ }
  · intro other
    show other ∈ s.pending.erase id ↔ _
    rw [Finset.mem_erase, hinv.pending other]
    unfold Taken
    rw [hfree]
    constructor
    · rintro ⟨hne, c, hc, hopen, htaken⟩
      refine ⟨c, hc, hopen, ?_⟩
      rintro (h | ⟨r, h⟩)
      · exact htaken (.inl h)
      · cases h
        exact hne rfl
    · rintro ⟨c, hc, hopen, htaken⟩
      refine ⟨?_, c, hc, hopen, ?_⟩
      · rintro rfl
        exact htaken (.inr ⟨result, rfl⟩)
      · rintro (h | ⟨r, h⟩)
        · exact htaken (.inl h)
        · cases h
  · rintro other r h
    cases h
    exact hanswered

theorem inv_deliver (hinv : Inv s) {id : Nat} {result : Except RpcError Json}
    (hheld : s.delivering = some (id, result)) :
    Inv { s with
      delivering := none
      calls := s.calls.modify id fun call => { call with channel := some result } } := by
  have hlookup : ∀ other c, (s.calls.modify id fun call =>
        { call with channel := some result }).lookup other = some c →
      ∃ old, s.calls.lookup other = some old ∧ c.phase = old.phase ∧
        c.method = old.method ∧ c.params = old.params ∧
        (c.channel = if other = id then some result else old.channel) := by
    intro other c hc
    rw [AList.lookup_modify] at hc
    split at hc
    case isTrue heq =>
        obtain ⟨old, hold, rfl⟩ := Option.map_eq_some_iff.mp hc
        exact ⟨old, heq ▸ hold, rfl, rfl, rfl, by rw [if_pos heq]⟩
    case isFalse hne => exact ⟨c, hc, rfl, rfl, rfl, by rw [if_neg hne]⟩
  have hback : ∀ other old, s.calls.lookup other = some old → ∃ c, (s.calls.modify id fun call =>
        { call with channel := some result }).lookup other = some c ∧ c.phase = old.phase ∧
        c.method = old.method ∧ c.params = old.params ∧
        (c.channel = if other = id then some result else old.channel) := by
    intro other old hold
    rw [AList.lookup_modify]
    split
    case isTrue heq =>
        subst heq
        exact ⟨{ old with channel := some result }, by rw [hold]; rfl, rfl, rfl, rfl, rfl⟩
    case isFalse => exact ⟨old, hold, rfl, rfl, rfl, rfl⟩
  constructor
  · exact hinv.bound
  · intro other c hc
    obtain ⟨old, hold, -⟩ := hlookup other c hc
    exact hinv.old other old hold
  · intro other
    rw [hinv.pending other]
    unfold Taken
    rw [hheld]
    constructor
    · rintro ⟨old, hold, hopen, htaken⟩
      obtain ⟨c, hc, hphase, -, -, hchannel⟩ := hback other old hold
      refine ⟨c, hc, hphase ▸ hopen, ?_⟩
      have hne : other ≠ id := by
        rintro rfl
        exact htaken (.inr ⟨result, rfl⟩)
      rw [hchannel, if_neg hne]
      rintro (h | ⟨r, h⟩)
      · exact htaken (.inl h)
      · cases h
    · rintro ⟨c, hc, hopen, htaken⟩
      obtain ⟨old, hold, hphase, -, -, hchannel⟩ := hlookup other c hc
      refine ⟨old, hold, hphase ▸ hopen, ?_⟩
      have hne : other ≠ id := by
        rintro rfl
        exact htaken (.inl (by rw [hchannel, if_pos rfl]; nofun))
      rw [hchannel, if_neg hne] at htaken
      rintro (h | ⟨r, h⟩)
      · exact htaken (.inl h)
      · cases h
        exact hne rfl
  · intro req hreq
    obtain ⟨old, hold, hmethod, hparams, hsent⟩ := hinv.sent req hreq
    obtain ⟨c, hc, hphase, hm, hp, -⟩ := hback req.id old hold
    exact ⟨c, hc, hm ▸ hmethod, hp ▸ hparams, hphase ▸ hsent⟩
  · exact hinv.once
  · exact hinv.lines
  · nofun
  · intro other c r hc hchannel
    obtain ⟨old, hold, -, -, -, hnew⟩ := hlookup other c hc
    rw [hnew] at hchannel
    split at hchannel
    case isTrue heq =>
        cases hchannel
        exact heq ▸ hinv.delivering id result hheld
    case isFalse => exact hinv.channels other old r hold hchannel
  · intro other c r hc hphase
    obtain ⟨old, hold, hsame, -⟩ := hlookup other c hc
    exact hinv.returned other old r hold (hsame ▸ hphase)

/-- What the reader takes from an answer's line, if it has an id. -/
theorem route_response {b64 : Base64} {line : Json} {id : Nat} {result : Except RpcError Json}
    (h : route b64 line = .response id result) :
    (line.get "id").bind (·.asU64) = some id ∧ callResult line = result := by
  unfold route at h
  split at h
  case h_1 n hn =>
      cases h
      exact ⟨hn, rfl⟩
  case h_2 =>
      split at h
      · split at h <;> cases h
      · cases h

theorem inv_read {b64 : Base64} (hinv : Inv s) (h : s.step b64 .read = some s') : Inv s' := by
  simp only [step] at h
  split at h
  case h_2 => cases h
  case h_1 line rest hreading hfree hlines =>
      have hrest : Inv { s with toClient := rest } :=
        { hinv with lines := fun other hother =>
            hinv.lines other (hlines ▸ List.mem_cons_of_mem line hother) }
      split at h
      case h_1 id result hroute =>
          split at h
          · cases h
            obtain ⟨hid, rfl⟩ := route_response hroute
            exact inv_take hrest hfree
              (hinv.lines line (hlines ▸ List.mem_cons_self) id hid)
          · cases h
            exact hrest
      case h_2 =>
          cases h
          exact hrest

/-- **Every step** keeps the invariant. -/
theorem inv_step {b64 : Base64} {a : CallAction} (hinv : Inv s) (hok : Numbered s a)
    (h : s.step b64 a = some s') : Inv s' := by
  cases a with
  | check =>
      simp only [step] at h
      split at h
      · cases h
        exact { hinv with }
      · cases h
  | fetch method params =>
      simp only [step] at h
      split at h
      · cases h
        exact inv_fetch hinv hok method params _
      · cases h
  | register id =>
      simp only [step] at h
      split at h
      case h_2 => cases h
      case h_1 method params channel hcall =>
          cases h
          refine inv_setPhase hinv hcall .registered _ (fun other hne => ?_) ?_ nofun nofun
          · rw [Finset.mem_insert]
            exact or_iff_right hne
          · exact iff_of_true (Finset.mem_insert_self _ _)
              ⟨trivial, not_taken hinv hcall (fun h => h)⟩
  | write id succeeds =>
      simp only [step] at h
      split at h
      case h_2 => cases h
      case h_1 method params channel hcall =>
          have hself := (mem_pending hinv hcall).trans
            (and_congr_left' (iff_of_true trivial trivial : Open .registered ↔ Open .waiting))
          split at h
          · cases h
            have hwaiting := inv_setPhase hinv hcall .waiting s.pending (fun _ _ => Iff.rfl)
              hself nofun nofun
            -- the line is new, as the call was not sent before
            have hnew : id ∉ s.requests.map (·.id) := notMem_requests hinv hcall (fun h => h)
            have hsent : (s.setPhase id .waiting).calls.lookup id =
                some { method, params, phase := .waiting, channel } := by
              rw [setPhase, AList.lookup_modify, if_pos rfl, hcall]
              rfl
            exact inv_write hwaiting { id, method, params } hsent rfl rfl trivial hnew
          · cases h
            exact inv_setPhase hinv hcall .failing s.pending (fun _ _ => Iff.rfl) hself nofun nofun
  | receive id =>
      simp only [step] at h
      split at h
      case h_2 => cases h
      case h_1 method params result hcall =>
          cases h
          refine inv_setPhase hinv hcall _ s.pending (fun _ _ => Iff.rfl) ?_ (fun _ => trivial) ?_
          · refine iff_of_false (fun hmem => ?_) nofun
            obtain ⟨c, hc, -, htaken⟩ := (hinv.pending id).mp hmem
            obtain rfl := Option.some.inj (hcall.symm.trans hc)
            exact htaken (.inl nofun)
          · rintro r hr
            cases hr
            exact hinv.channels id _ result hcall rfl
  | timeout id =>
      simp only [step] at h
      split at h
      case h_2 => cases h
      case h_1 method params hcall =>
          cases h
          exact inv_setPhase hinv hcall .givingUp s.pending (fun _ _ => Iff.rfl)
            (mem_pending hinv hcall) (fun _ => trivial) nofun
  | unregister id =>
      have herase : ∀ other, other ≠ id → (other ∈ s.pending.erase id ↔ other ∈ s.pending) :=
        fun other hne => by rw [Finset.mem_erase, and_iff_right hne]
      simp only [step] at h
      split at h
      case h_3 => cases h
      case h_1 method params channel hcall =>
          cases h
          exact inv_setPhase hinv hcall _ _ herase
            (iff_of_false (Finset.notMem_erase id _) nofun) (fun _ => trivial) nofun
      case h_2 method params channel hcall =>
          cases h
          exact inv_setPhase hinv hcall _ _ herase
            (iff_of_false (Finset.notMem_erase id _) nofun) (fun _ => trivial) nofun
  | serve answer =>
      simp only [step] at h
      split at h
      case h_2 => cases h
      case h_1 req rest htoDaemon =>
          cases h
          exact inv_answer hinv htoDaemon _ rfl
  | refuse =>
      simp only [step] at h
      split at h
      case h_2 => cases h
      case h_1 req rest htoDaemon =>
          cases h
          exact inv_line hinv (htoDaemon ▸ List.sublist_cons_self req rest) _ rfl
  | event ev =>
      cases h
      refine inv_line hinv (List.Sublist.refl _) _ ?_
      rw [ev.get_eq_none (by decide)]
      rfl
  | read => exact inv_read hinv h
  | deliver =>
      simp only [step] at h
      split at h
      case h_2 => cases h
      case h_1 id result hheld =>
          cases h
          exact inv_deliver hinv hheld
  | endOfStream =>
      simp only [step] at h
      split at h
      · cases h
        exact { hinv with }
      · cases h
  | shutdown =>
      cases h
      exact { hinv with }

theorem inv_reach {b64 : Base64} (h : Reach (step b64) Numbered {} s) : Inv s :=
  h.invariant Inv inv_init fun _ _ _ hinv hok hs => inv_step hinv hok hs

end

/-! ## §4. What the calls return. -/

section

variable {b64 : Base64} {s : CallSystem}

/-- **`answers_are_own`**: whatever the order of steps, a call that returns an answer wrote
its line, and returns what the daemon answered to this line and to no other one. -/
theorem answers_are_own (hr : Reach (step b64) Numbered {} s) {id : Nat} {call : Call}
    {result : Except RpcError Json} (hcall : s.calls.lookup id = some call)
    (hphase : call.phase = .returned (.answered result)) :
    ∃ resp, ({ id, method := call.method, params := call.params }, resp) ∈ s.served ∧
      callResult resp.toJson = result ∧
      ∀ req other, (req, other) ∈ s.served → req.id = id → other = resp := by
  have hinv := inv_reach hr
  obtain ⟨req, resp, hmem, rfl, hresult⟩ := hinv.returned id call result hcall hphase
  have hreq : req ∈ s.served.map (·.1) := List.mem_map.mpr ⟨_, hmem, rfl⟩
  obtain ⟨c, hc, hmethod, hparams, -⟩ := hinv.sent req (List.mem_append_left _ hreq)
  obtain rfl := Option.some.inj (hcall.symm.trans hc)
  refine ⟨resp, ?_, hresult, fun other answer hother heq => ?_⟩
  · rw [hmethod, hparams]
    exact hmem
  · -- ids are on one line each, so an id has one answer
    have hnodup : (s.served.map fun entry => entry.1.id).Nodup := by
      have h := hinv.once
      rw [requests, List.map_append, List.map_map] at h
      exact h.of_append_left
    exact congrArg Prod.snd (List.inj_on_of_nodup_map hnodup hother hmem heq)

/-- One call, up to its line. -/
def oneCall : List CallAction := [.check, .fetch "ping" (.obj []), .register 1, .write 1 true]

/-- The call is answered. -/
def oneAnswer : List CallAction :=
  oneCall ++ [.serve { id := none, ok := true }, .read, .deliver, .receive 1]

theorem answers_are_own_oneAnswer :
    ∃ s call resp, exec (step Link.emptyBase64) {} oneAnswer = some s ∧
      s.calls.lookup 1 = some call ∧
      ({ id := 1, method := call.method, params := call.params }, resp) ∈ s.served ∧
      callResult resp.toJson = .ok .null ∧
      ∀ req other, (req, other) ∈ s.served → req.id = 1 → other = resp := by
  obtain ⟨s, hs⟩ : ∃ s, exec (step Link.emptyBase64) {} oneAnswer = some s :=
    Option.isSome_iff_exists.mp (by decide)
  have hreturned : (exec (step Link.emptyBase64) {} oneAnswer).bind (·.calls.lookup 1) =
      some { method := "ping", params := .obj [], phase := .returned (.answered (.ok .null))
             channel := some (.ok .null) } := by rfl
  rw [hs] at hreturned
  obtain ⟨resp, hmem, hresult, hown⟩ :=
    answers_are_own (reach_of_exec hs (by decide)) hreturned rfl
  exact ⟨s, _, resp, hs, hreturned, hmem, hresult, hown⟩

/-- **`pending_iff`**: in every run, the pending calls are those that have registered, have
not returned, and whose sender the reader has not taken. -/
theorem pending_iff (hr : Reach (step b64) Numbered {} s) (id : Nat) :
    id ∈ s.pending ↔
      ∃ call, s.calls.lookup id = some call ∧ Open call.phase ∧ ¬ s.Taken id call :=
  (inv_reach hr).pending id

theorem pending_iff_oneCall : ∃ s, exec (step Link.emptyBase64) {} oneCall = some s ∧
    (1 ∈ s.pending ↔
      ∃ call, s.calls.lookup 1 = some call ∧ Open call.phase ∧ ¬ s.Taken 1 call) := by
  obtain ⟨s, hs⟩ : ∃ s, exec (step Link.emptyBase64) {} oneCall = some s :=
    Option.isSome_iff_exists.mp (by decide)
  exact ⟨s, hs, pending_iff (reach_of_exec hs (by decide)) 1⟩

/-- A call that will hear nothing: the reader is gone, and nothing is on the way. -/
structure Unheard (id : Nat) (s : CallSystem) : Prop where
  lost : s.reading = false
  free : s.delivering = none
  call : ∃ call, s.calls.lookup id = some call ∧ call.channel = none ∧
    (call.phase = .waiting ∨ call.phase = .givingUp ∨ call.phase = .returned .timedOut)

/-- Only the reader's own steps change what it holds, and whether it runs. -/
theorem step_keeps_reader {a : CallAction} {s' : CallSystem} (h : s.step b64 a = some s')
    (ha : a ≠ .read ∧ a ≠ .deliver ∧ a ≠ .endOfStream) :
    s'.reading = s.reading ∧ s'.delivering = s.delivering := by
  cases a with
  | read => exact absurd rfl ha.1
  | deliver => exact absurd rfl ha.2.1
  | endOfStream => exact absurd rfl ha.2.2
  | event | shutdown =>
      cases h
      exact ⟨rfl, rfl⟩
  | write id succeeds =>
      simp only [step] at h
      split at h
      · split at h <;> (cases h; exact ⟨rfl, rfl⟩)
      · cases h
  | check | fetch | register | receive | timeout | unregister | serve | refuse =>
      simp only [step] at h
      split at h <;> first | cases h; exact ⟨rfl, rfl⟩ | cases h

/-- The reader ends with nothing in its hands. -/
theorem free_of_lost (hr : Reach (step b64) Numbered {} s) (hlost : s.reading = false) :
    s.delivering = none := by
  refine hr.invariant (fun s => s.reading = false → s.delivering = none) (by intro h; cases h)
    ?_ hlost
  intro s a s' hfree _ h hlost'
  by_cases hread : a = .read
  · subst hread
    simp only [step] at h
    split at h
    case h_2 => cases h
    case h_1 line rest hreading _ _ =>
        -- the reader takes a line only while it runs
        have hsame : s'.reading = s.reading := by
          split at h
          · split at h <;> (cases h; rfl)
          · cases h
            rfl
        rw [hsame, hreading] at hlost'
        cases hlost'
  by_cases hdeliver : a = .deliver
  · subst hdeliver
    simp only [step] at h
    split at h
    · cases h
      rfl
    · cases h
  by_cases hend : a = .endOfStream
  · subst hend
    simp only [step] at h
    split at h
    case h_1 _ hnone =>
        cases h
        exact hnone
    case h_2 => cases h
  · obtain ⟨hreading, hdelivering⟩ := step_keeps_reader h ⟨hread, hdeliver, hend⟩
    rw [hdelivering]
    exact hfree (hreading ▸ hlost')

theorem unheard_step {s' : CallSystem} {a : CallAction} {id : Nat} (hinv : Inv s)
    (hok : Numbered s a) (hun : Unheard id s) (h : s.step b64 a = some s') : Unheard id s' := by
  obtain ⟨hlost, hfree, call, hcall, hchannel, hphase⟩ := hun
  have hother : ∀ (other : Nat) (phase : CallPhase), other ≠ id →
      (s.setPhase other phase).calls.lookup id = some call := by
    intro other phase hne
    rw [setPhase, AList.lookup_modify, if_neg hne.symm, hcall]
  cases a with
  | read =>
      simp only [step, hlost] at h
      cases h
  | deliver =>
      simp only [step, hfree] at h
      cases h
  | endOfStream =>
      simp only [step, hlost] at h
      cases h
  | check =>
      simp only [step] at h
      split at h
      · cases h
        exact ⟨hlost, hfree, call, hcall, hchannel, hphase⟩
      · cases h
  | event | shutdown =>
      cases h
      exact ⟨hlost, hfree, call, hcall, hchannel, hphase⟩
  | serve | refuse =>
      simp only [step] at h
      split at h
      · cases h
        exact ⟨hlost, hfree, call, hcall, hchannel, hphase⟩
      · cases h
  | fetch method params =>
      simp only [step] at h
      split at h
      case isFalse => cases h
      case isTrue =>
          cases h
          refine ⟨hlost, hfree, call, ?_, hchannel, hphase⟩
          have hne : id ≠ (s.made + 1) % 2 ^ 64 := by
            have hle := hinv.old id call hcall
            rw [Nat.mod_eq_of_lt hok]
            omega
          rw [AList.lookup_insert_eq_ite, if_neg hne, hcall]
  | register other =>
      simp only [step] at h
      split at h
      case h_2 => cases h
      case h_1 method params channel hc =>
          cases h
          refine ⟨hlost, hfree, call, hother other _ ?_, hchannel, hphase⟩
          rintro rfl
          obtain rfl := Option.some.inj (hc.symm.trans hcall)
          simp at hphase
  | write other succeeds =>
      simp only [step] at h
      split at h
      case h_2 => cases h
      case h_1 method params channel hc =>
          have hne : other ≠ id := by
            rintro rfl
            obtain rfl := Option.some.inj (hc.symm.trans hcall)
            simp at hphase
          split at h
          · cases h
            exact ⟨hlost, hfree, call, hother other _ hne, hchannel, hphase⟩
          · cases h
            exact ⟨hlost, hfree, call, hother other _ hne, hchannel, hphase⟩
  | receive other =>
      simp only [step] at h
      split at h
      case h_2 => cases h
      case h_1 method params result hc =>
          cases h
          refine ⟨hlost, hfree, call, hother other _ ?_, hchannel, hphase⟩
          -- to receive, a call needs an answer in its channel
          rintro rfl
          obtain rfl := Option.some.inj (hc.symm.trans hcall)
          cases hchannel
  | timeout other =>
      simp only [step] at h
      split at h
      case h_2 => cases h
      case h_1 method params hc =>
          cases h
          by_cases heq : other = id
          · subst heq
            refine ⟨hlost, hfree, { call with phase := .givingUp }, ?_, hchannel, .inr (.inl rfl)⟩
            rw [setPhase, AList.lookup_modify, if_pos rfl, hcall]
            rfl
          · exact ⟨hlost, hfree, call, hother other _ heq, hchannel, hphase⟩
  | unregister other =>
      simp only [step] at h
      split at h
      case h_3 => cases h
      case h_1 method params channel hc =>
          cases h
          by_cases heq : other = id
          · subst heq
            refine ⟨hlost, hfree, { call with phase := .returned .timedOut }, ?_, hchannel,
              .inr (.inr rfl)⟩
            show AList.lookup other (s.setPhase other _).calls = _
            rw [setPhase, AList.lookup_modify, if_pos rfl, hcall]
            rfl
          · exact ⟨hlost, hfree, call, hother other _ heq, hchannel, hphase⟩
      case h_2 method params channel hc =>
          cases h
          refine ⟨hlost, hfree, call, hother other _ ?_, hchannel, hphase⟩
          rintro rfl
          obtain rfl := Option.some.inj (hc.symm.trans hcall)
          simp at hphase

/-- **`lost_calls_time_out`**: a call that waits without an answer when the reader thread
has met the end of the stream is never answered; all it can do is to time out. -/
theorem lost_calls_time_out (hr : Reach (step b64) Numbered {} s) (hlost : s.reading = false)
    {id : Nat} {call : Call} (hcall : s.calls.lookup id = some call)
    (hphase : call.phase = .waiting) (hchannel : call.channel = none) {s' : CallSystem}
    (hr' : Reach (step b64) Numbered s s') :
    ∃ call', s'.calls.lookup id = some call' ∧ call'.channel = none ∧
      (call'.phase = .waiting ∨ call'.phase = .givingUp ∨
        call'.phase = .returned .timedOut) := by
  have hunheard : Inv s' ∧ Unheard id s' :=
    hr'.invariant (fun s => Inv s ∧ Unheard id s)
      ⟨inv_reach hr, hlost, free_of_lost hr hlost, call, hcall, hchannel, .inl hphase⟩
      fun _ _ _ hgood hok hs => ⟨inv_step hgood.1 hok hs, unheard_step hgood.1 hok hgood.2 hs⟩
  exact hunheard.2.call

/-- The connection is lost while a call waits, and it gives up. -/
theorem lost_calls_time_out_oneCall :
    ∃ s s' call', exec (step Link.emptyBase64) {} (oneCall ++ [.endOfStream]) = some s ∧
      exec (step Link.emptyBase64) s [.timeout 1, .unregister 1] = some s' ∧
      s'.calls.lookup 1 = some call' ∧ call'.channel = none ∧
      (call'.phase = .waiting ∨ call'.phase = .givingUp ∨
        call'.phase = .returned .timedOut) := by
  obtain ⟨s', hs'⟩ : ∃ s', exec (step Link.emptyBase64) {}
      ((oneCall ++ [.endOfStream]) ++ [.timeout 1, .unregister 1]) = some s' :=
    Option.isSome_iff_exists.mp (by decide)
  obtain ⟨s, hs, hrest⟩ := exec_append.mp hs'
  have hwaiting : (exec (step Link.emptyBase64) {} (oneCall ++ [.endOfStream])).bind
      (·.calls.lookup 1) = some { method := "ping", params := .obj [], phase := .waiting } := by
    rfl
  have hlost : (exec (step Link.emptyBase64) {} (oneCall ++ [.endOfStream])).map (·.reading) =
      some false := by rfl
  rw [hs] at hwaiting hlost
  obtain ⟨call', hcall', h⟩ := lost_calls_time_out (reach_of_exec hs (by decide))
    (Option.some.inj hlost) hwaiting rfl rfl
    (reach_of_exec hrest (everyStep_of_forall fun a ha s => by
      simp only [List.mem_cons, List.not_mem_nil, or_false] at ha
      rcases ha with rfl | rfl <;> trivial))
  exact ⟨s, s', call', hs, hrest, hcall', h⟩

end

end CallSystem

end Jmux.Remote
