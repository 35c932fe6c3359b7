/-
  Jmux.Socket.AgentHooks — the status entries that agent hooks set and clear.

  `jmux agent hook` (`jmux-cli/src/main.rs`) turns a session event of an agent CLI
  into `workspace.set_status` or `workspace.clear_status` under the CLI's name.
  The server clears without looking at the name.

  Main results:
    * `putStatus_kept`       — what a status leaves of the other entries.
    * `putStatus_evicts`     — a status for which there is no room.
    * `namespaced_step_iff`  — the events that keep the entries apart.
    * `hooks_namespaced_iff` — the same for whole sequences of events.
-/
import Jmux.Lib.Transition
import Jmux.Socket.V2Request

namespace Jmux.Socket

open Jmux.Lib Jmux.Model

variable {F : Type}

/-! ## §1. The entries of a workspace. -/

structure StatusEntry where
  key       : String
  value     : String
  icon      : Option String := none
  color     : Option String := none
  url       : Option String := none
  timestamp : Rat
  deriving DecidableEq

def maxStatusEntries : Nat := 100

/-- Write over the first entry of this key, if there is one. -/
def writeFirst (entry : StatusEntry) : List StatusEntry → Option (List StatusEntry)
  | [] => none
  | e :: es =>
      if e.key = entry.key then some (entry :: es) else (writeFirst entry es).map (e :: ·)

/-- `min_by` on the timestamps: the index of the first smallest one, from index `i` on,
if the one at `best` is the smallest before. -/
def oldestFrom (best : Nat) (time : Rat) : Nat → List StatusEntry → Nat
  | _, [] => best
  | i, e :: es =>
      if e.timestamp < time then oldestFrom i e.timestamp (i + 1) es
      else oldestFrom best time (i + 1) es

def oldestIdx : List StatusEntry → Option Nat
  | [] => none
  | e :: es => some (oldestFrom 0 e.timestamp 1 es)

/-- Room for one more entry: the oldest one goes if there are too many. -/
def makeRoom (entries : List StatusEntry) : List StatusEntry :=
  if maxStatusEntries ≤ entries.length then (oldestIdx entries).elim entries entries.eraseIdx
  else entries

/-- `set_status_with_url`, its texts already cut. -/
def putStatus (entry : StatusEntry) (entries : List StatusEntry) : List StatusEntry :=
  (writeFirst entry entries).getD (makeRoom entries ++ [entry])

/-- What an operation makes of the entries of the workspace. -/
def applyStatus (workspace : Uuid) (now : Rat) (entries : List StatusEntry) :
    Operation F → List StatusEntry
  | .setStatus ws key value icon color url =>
      if ws = workspace then putStatus { key, value, icon, color, url, timestamp := now } entries
      else entries
  | .clearStatus ws key =>
      if ws = workspace then entries.filter fun e => key.any (· ≠ e.key) else entries
  | _ => entries

/-! ## §2. The hook. -/

inductive SessionEvent
  | sessionStart | sessionStop | sessionEnd
  deriving DecidableEq, Repr

/-- The request that the CLI sends for an event, without a workspace in it. -/
def SessionEvent.request (event : SessionEvent) (cli : String) : V2Request F :=
  match event with
  | sessionStart =>
      { method := .workspaceSetStatus
        params := .obj [("key", .str cli), ("value", .str "running"), ("icon", .null),
          ("color", .null)] }
  | sessionStop | sessionEnd =>
      { method := .workspaceClearStatus, params := .obj [("key", .str cli)] }

/-- A hook that reports to the workspace: it is the selected one when the request is
handled. -/
structure HookCall (workspace : Uuid) where
  event   : SessionEvent
  cli     : String
  tm      : TabManager
  now     : Rat
  reports : tm.selectedId = some workspace

/-- The entries, and the last session event of each CLI, a start or not, the newest
one first; the code does not keep these. -/
structure HookState where
  entries : List StatusEntry
  events  : List (String × Bool) := []

/-- One hook, handled. -/
def hookStep (env : V2Env F) {workspace : Uuid} (s : HookState) (call : HookCall workspace) :
    Option HookState :=
  some
    { entries :=
        match handle env call.tm (call.event.request call.cli) with
        | some (.ok op) => applyStatus workspace call.now s.entries op
        | _ => s.entries
      events := (call.cli, call.event == .sessionStart) :: s.events }

/-- The handler reads the name for a start only. -/
theorem handle_request (env : V2Env F) {tm : TabManager} {ws : Workspace}
    (hws : tm.selected = some ws) (event : SessionEvent) (cli : String) :
    handle env tm (event.request cli) =
      some (.ok (if event = .sessionStart then
        setStatusWithUrl ws.id cli "running" none none none else .clearStatus ws.id none)) := by
  have hor : workspaceOr tm none "Workspace not found" = .ok ws := by
    show orElseReturn _ tm.selected = .ok ws
    rw [hws, orElseReturn_some]
  have hclear : handleWorkspaceClearStatus env tm (.obj [("key", .str cli)])
      = .ok (.clearStatus ws.id none) := by
    unfold handleWorkspaceClearStatus onWorkspace onWorkspaceOr
    rw [@parseWorkspaceParam_eq _ env _ none none rfl (by simp [eitherParam]), ok_bind, hor, ok_bind]
    rfl
  cases event with
  | sessionStart =>
      rw [if_pos rfl]
      show some (handleWorkspaceSetStatus env tm (.obj _)) = _
      unfold handleWorkspaceSetStatus
      rw [@parseWorkspaceParam_eq _ env _ none none rfl (by simp [eitherParam]), ok_bind]
      simp [strParam, Value.asStr, hor]
  | sessionStop => exact congrArg some hclear
  | sessionEnd => exact congrArg some hclear

/-- The entry of a CLI, as a start writes it. -/
def runningEntry (cli : String) (now : Rat) : StatusEntry where
  key       := truncateStr cli maxStatusKeyLen
  value     := "running"
  timestamp := now

/-- A start writes the entry of the CLI; a stop or an end clears all entries. -/
theorem hookStep_eq (env : V2Env F) {workspace : Uuid} (s : HookState) (call : HookCall workspace) :
    hookStep env s call = some
      { entries := if call.event = .sessionStart then
          putStatus (runningEntry call.cli call.now) s.entries else []
        events  := (call.cli, call.event == .sessionStart) :: s.events } := by
  obtain ⟨event, cli, tm, now, reports⟩ := call
  obtain ⟨ws, hws, rfl⟩ := Option.map_eq_some_iff.mp reports
  unfold hookStep
  rw [handle_request env hws]
  by_cases hstart : event = .sessionStart
  · have hset : applyStatus ws.id now s.entries
        (setStatusWithUrl (F := F) ws.id cli "running" none none none)
          = putStatus (runningEntry cli now) s.entries := if_pos rfl
    simp only [if_pos hstart, hset]
  · have hcleared : applyStatus (F := F) ws.id now s.entries (.clearStatus ws.id none) = [] := by
      show (if ws.id = ws.id then s.entries.filter fun _ => false else s.entries) = []
      rw [if_pos rfl, List.filter_eq_nil_iff]
      intro e _ h
      cases h
    simp only [if_neg hstart, hcleared]

/-! ## §3. Entries by their key. -/

def under (key : String) (entries : List StatusEntry) : List StatusEntry :=
  entries.filter (·.key = key)

theorem under_eq_nil_iff {key : String} {entries : List StatusEntry} :
    under key entries = [] ↔ ∀ e ∈ entries, e.key ≠ key := by
  simp [under, List.filter_eq_nil_iff]

theorem under_append (key : String) (as bs : List StatusEntry) :
    under key (as ++ bs) = under key as ++ under key bs := List.filter_append as bs

theorem under_single_of_ne {key : String} {e : StatusEntry} (h : e.key ≠ key) : under key [e] = [] :=
  under_eq_nil_iff.mpr fun _ hmem => List.mem_singleton.mp hmem ▸ h

theorem under_ne_nil {key : String} {entries : List StatusEntry} {e : StatusEntry}
    (hmem : e ∈ entries) (hkey : e.key = key) : under key entries ≠ [] :=
  fun hnil => under_eq_nil_iff.mp hnil e hmem hkey

variable {entry : StatusEntry} {entries : List StatusEntry}

theorem writeFirst_eq_none_iff : writeFirst entry entries = none ↔ under entry.key entries = [] := by
  rw [under_eq_nil_iff]
  induction entries with
  | nil => simp [writeFirst]
  | cons e es ih =>
      unfold writeFirst
      by_cases hkey : e.key = entry.key
      · simp [hkey]
      · simp [hkey, ih]

theorem under_writeFirst {written : List StatusEntry} (h : writeFirst entry entries = some written) :
    entry ∈ written ∧ (∀ key, key ≠ entry.key → under key written = under key entries) ∧
      written.map (·.key) = entries.map (·.key) := by
  induction entries generalizing written with
  | nil => cases h
  | cons e es ih =>
      unfold writeFirst at h
      by_cases hkey : e.key = entry.key
      · rw [if_pos hkey] at h
        cases h
        refine ⟨List.mem_cons_self, fun key hne => ?_, ?_⟩
        · have hentry : ¬ entry.key = key := fun heq => hne heq.symm
          have he : ¬ e.key = key := fun heq => hne (heq.symm.trans hkey)
          simp [under, hentry, he]
        · rw [List.map_cons, List.map_cons, hkey]
      · rw [if_neg hkey] at h
        obtain ⟨rest, hrest, rfl⟩ := Option.map_eq_some_iff.mp h
        obtain ⟨hmem, hother, hkeys⟩ := ih hrest
        refine ⟨List.mem_cons_of_mem e hmem, fun key hne => ?_, ?_⟩
        · have hsame := hother key hne
          show under key ([e] ++ rest) = under key ([e] ++ es)
          rw [under_append, under_append, hsame]
        · rw [List.map_cons, List.map_cons, hkeys]

theorem oldestFrom_lt {best i n : Nat} {time : Rat} (hbest : best < n) (hn : i + entries.length ≤ n) :
    oldestFrom best time i entries < n := by
  induction entries generalizing best time i with
  | nil => exact hbest
  | cons e es ih =>
      have hlen : (e :: es).length = es.length + 1 := List.length_cons
      unfold oldestFrom
      split
      · apply ih
        · omega
        · omega
      · apply ih
        · exact hbest
        · omega

/-- A full list gives one entry away. -/
theorem makeRoom_full (h : maxStatusEntries ≤ entries.length) :
    ∃ before e after, entries = before ++ e :: after ∧ makeRoom entries = before ++ after := by
  cases entries with
  | nil => exact absurd h (by decide)
  | cons e es =>
      have hlt : oldestFrom 0 e.timestamp 1 es < (e :: es).length :=
        oldestFrom_lt (Nat.succ_pos _) (by rw [List.length_cons, Nat.add_comm])
      have hroom : makeRoom (e :: es) = (e :: es).eraseIdx (oldestFrom 0 e.timestamp 1 es) := by
        unfold makeRoom
        rw [if_pos h]
        rfl
      rw [hroom]
      generalize oldestFrom 0 e.timestamp 1 es = i at hlt
      have hsplit : (e :: es).take i ++ (e :: es)[i] :: (e :: es).drop (i + 1) = e :: es := by
        rw [← List.drop_eq_getElem_cons hlt, List.take_append_drop]
      exact ⟨_, _, _, hsplit.symm, List.eraseIdx_eq_take_drop_succ (e :: es) i⟩

/-- **A status leaves the others as they are** if its key is there or there is room. -/
theorem putStatus_kept (h : under entry.key entries ≠ [] ∨ entries.length < maxStatusEntries) :
    entry ∈ putStatus entry entries ∧
      ∀ key, key ≠ entry.key → under key (putStatus entry entries) = under key entries := by
  unfold putStatus
  cases hwrite : writeFirst entry entries with
  | some written =>
      obtain ⟨hmem, hother, -⟩ := under_writeFirst hwrite
      exact ⟨hmem, hother⟩
  | none =>
      have hroom := h.resolve_left fun hne => hne (writeFirst_eq_none_iff.mp hwrite)
      have hmake : makeRoom entries = entries := if_neg (by omega)
      rw [Option.getD_none, hmake]
      refine ⟨List.mem_append_right entries (List.mem_singleton_self entry), fun key hne => ?_⟩
      rw [under_append, under_single_of_ne fun heq => hne heq.symm, List.append_nil]

/-- What every list of entries is like: one entry for a key, and no key is too long. -/
structure Stored (entries : List StatusEntry) : Prop where
  nodup : (entries.map (·.key)).Nodup
  short : ∀ e ∈ entries, e.key.utf8ByteSize ≤ maxStatusKeyLen

theorem stored_nil : Stored [] where
  nodup := List.nodup_nil
  short _ h := absurd h List.not_mem_nil

theorem Stored.sublist {kept : List StatusEntry} (h : Stored entries) (hsub : kept.Sublist entries) :
    Stored kept where
  nodup := h.nodup.sublist (hsub.map (·.key))
  short e he := h.short e (hsub.subset he)

theorem Stored.concat (h : Stored entries) (hnone : under entry.key entries = [])
    (hshort : entry.key.utf8ByteSize ≤ maxStatusKeyLen) : Stored (entries ++ [entry]) where
  nodup := by
    rw [List.map_append, List.nodup_append]
    refine ⟨h.nodup, List.nodup_singleton entry.key, ?_⟩
    intro key hkey last hlast heq
    obtain ⟨e, he, rfl⟩ := List.mem_map.mp hkey
    rw [List.map_singleton, List.mem_singleton] at hlast
    exact under_eq_nil_iff.mp hnone e he (heq.trans hlast)
  short e he := by
    rcases List.mem_append.mp he with hold | hnew
    · exact h.short e hold
    · rw [List.mem_singleton.mp hnew]
      exact hshort

theorem makeRoom_sublist (entries : List StatusEntry) : (makeRoom entries).Sublist entries := by
  by_cases hfull : maxStatusEntries ≤ entries.length
  · obtain ⟨before, e, after, hentries, hroom⟩ := makeRoom_full hfull
    rw [hroom, hentries]
    exact (List.Sublist.refl before).append (List.sublist_cons_self e after)
  · unfold makeRoom
    rw [if_neg hfull]

theorem stored_putStatus (h : Stored entries) (hshort : entry.key.utf8ByteSize ≤ maxStatusKeyLen) :
    Stored (putStatus entry entries) := by
  unfold putStatus
  cases hwrite : writeFirst entry entries with
  | some written =>
      obtain ⟨-, hother, hkeys⟩ := under_writeFirst hwrite
      refine ⟨hkeys ▸ h.nodup, fun e he => ?_⟩
      have hmem : e.key ∈ entries.map (·.key) := hkeys ▸ List.mem_map_of_mem he
      obtain ⟨old, hold, heq⟩ := List.mem_map.mp hmem
      rw [← heq]
      exact h.short old hold
  | none =>
      have hsub := makeRoom_sublist entries
      have hnone := under_eq_nil_iff.mp (writeFirst_eq_none_iff.mp hwrite)
      exact (h.sublist hsub).concat (under_eq_nil_iff.mpr fun e he => hnone e (hsub.subset he)) hshort

/-- **Without room** the entry under another key goes. -/
theorem putStatus_evicts (h : Stored entries) (hnone : under entry.key entries = [])
    (hfull : maxStatusEntries ≤ entries.length) :
    ∃ e ∈ entries, under e.key (putStatus entry entries) = [] := by
  obtain ⟨front, e, back, hentries, hroom⟩ := makeRoom_full hfull
  have hmem : e ∈ entries := hentries ▸ List.mem_append_right front List.mem_cons_self
  refine ⟨e, hmem, ?_⟩
  have hput : putStatus entry entries = front ++ back ++ [entry] := by
    unfold putStatus
    rw [writeFirst_eq_none_iff.mpr hnone, Option.getD_none, hroom]
  have hnodup := h.nodup
  rw [hentries, List.map_append, List.map_cons, List.nodup_middle, ← List.map_append] at hnodup
  have hother := (List.nodup_cons.mp hnodup).1
  rw [hput, under_append, List.append_eq_nil_iff]
  constructor
  · rw [under_eq_nil_iff]
    intro other hin heq
    exact hother (heq ▸ List.mem_map_of_mem hin)
  · exact under_single_of_ne fun heq => under_eq_nil_iff.mp hnone e hmem heq.symm

/-! ## §4. Runs. -/

/-- A CLI has an entry exactly if its last session event is a start, and the entries
under other keys are what they were. -/
structure Namespaced (before : List StatusEntry) (s : HookState) : Prop where
  running : ∀ cli started, s.events.lookup cli = some started →
    (under cli s.entries ≠ [] ↔ started = true)
  others  : ∀ key, s.events.lookup key = none → under key s.entries = under key before

/-- A stop finds no other entry; the name of a CLI that starts fits, and its entry is
there or there is room for it. -/
def KeepsApart {workspace : Uuid} (s : HookState) (call : HookCall workspace) : Prop :=
  if call.event = .sessionStart then
    call.cli.utf8ByteSize ≤ maxStatusKeyLen ∧
      (under call.cli s.entries ≠ [] ∨ s.entries.length < maxStatusEntries)
  else ∀ e ∈ s.entries, e.key = call.cli

variable {before : List StatusEntry} {s : HookState}

theorem namespaced_start (before : List StatusEntry) : Namespaced before { entries := before } where
  running _ _ h := by cases h
  others _ _ := rfl

theorem lookup_event_other {cli key : String} (h : key ≠ cli) (started : Bool)
    (events : List (String × Bool)) :
    ((cli, started) :: events).lookup key = events.lookup key := by
  have hne : (key == cli) = false := beq_eq_false_iff_ne.mpr h
  rw [List.lookup_cons, hne]

/-- An event that leaves the entries under other keys alone. -/
theorem Namespaced.next (h : Namespaced before s) {cli : String} {started : Bool}
    {entries : List StatusEntry} (hcli : under cli entries ≠ [] ↔ started = true)
    (hother : ∀ key, key ≠ cli → under key entries = under key s.entries) :
    Namespaced before { entries, events := (cli, started) :: s.events } where
  running key isStart hlast := by
    by_cases hkey : key = cli
    · subst hkey
      rw [List.lookup_cons_self] at hlast
      rw [← Option.some.inj hlast]
      exact hcli
    · rw [lookup_event_other hkey] at hlast
      rw [hother key hkey]
      exact h.running key isStart hlast
  others key hlast := by
    have hkey : key ≠ cli := by
      intro heq
      rw [heq, List.lookup_cons_self] at hlast
      cases hlast
    rw [lookup_event_other hkey] at hlast
    rw [hother key hkey]
    exact h.others key hlast

/-- An event that takes the last entry under another key away: whether that key is a
CLI's or not, the entry should be there. -/
theorem Namespaced.not_next (h : Namespaced before s) {cli key : String} {started : Bool}
    {entries : List StatusEntry} (hkey : key ≠ cli) (hthere : under key s.entries ≠ [])
    (hgone : under key entries = []) :
    ¬ Namespaced before { entries, events := (cli, started) :: s.events } := by
  intro hnext
  have hlookup := lookup_event_other hkey started s.events
  cases hlast : s.events.lookup key with
  | none =>
      have hbefore := h.others key hlast
      have hafter := hnext.others key (hlookup.trans hlast)
      rw [hbefore, ← hafter] at hthere
      exact hthere hgone
  | some isStart =>
      have hstart := (h.running key isStart hlast).mp hthere
      exact (hnext.running key isStart (hlookup.trans hlast)).mpr hstart hgone

/-- **One event** keeps the entries apart exactly under the condition. -/
theorem namespaced_step_iff (env : V2Env F) {workspace : Uuid} {call : HookCall workspace}
    {s' : HookState} (hstored : Stored s.entries) (h : Namespaced before s)
    (hstep : hookStep env s call = some s') : Namespaced before s' ↔ KeepsApart s call := by
  rw [hookStep_eq] at hstep
  cases hstep
  unfold KeepsApart
  by_cases hstart : call.event = .sessionStart
  · have hstarted : (call.event == .sessionStart) = true := beq_iff_eq.mpr hstart
    rw [if_pos hstart, hstarted]
    simp only [if_pos hstart]
    constructor
    · intro hnext
      have hentry := (hnext.running call.cli true List.lookup_cons_self).mpr rfl
      have hnew := stored_putStatus hstored
        (show (runningEntry call.cli call.now).key.utf8ByteSize ≤ maxStatusKeyLen from
          utf8ByteSize_truncateStr_le call.cli maxStatusKeyLen)
      -- only a name that fits can be a key
      have hshort : call.cli.utf8ByteSize ≤ maxStatusKeyLen := by
        by_contra hlong
        apply hentry
        rw [under_eq_nil_iff]
        intro e he heq
        exact hlong (heq ▸ hnew.short e he)
      refine ⟨hshort, ?_⟩
      have hkey : (runningEntry call.cli call.now).key = call.cli := truncateStr_self hshort
      by_contra hfull
      rw [not_or, not_not, Nat.not_lt] at hfull
      obtain ⟨e, he, hgone⟩ := putStatus_evicts hstored
        (hkey.symm ▸ hfull.1 : under (runningEntry call.cli call.now).key _ = []) hfull.2
      have hne : e.key ≠ call.cli := under_eq_nil_iff.mp hfull.1 e he
      exact h.not_next hne (under_ne_nil he rfl) hgone hnext
    · rintro ⟨hshort, hroom⟩
      have hkey : (runningEntry call.cli call.now).key = call.cli := truncateStr_self hshort
      obtain ⟨hmem, hother⟩ := putStatus_kept (hkey.symm ▸ hroom)
      refine h.next ?_ fun key hne => hother key (hkey.symm ▸ hne)
      exact iff_of_true (under_ne_nil hmem hkey) rfl
  · have hstarted : (call.event == .sessionStart) = false := beq_eq_false_iff_ne.mpr hstart
    rw [if_neg hstart, hstarted]
    simp only [if_neg hstart]
    constructor
    · intro hnext e he
      by_contra hne
      exact h.not_next hne (under_ne_nil he rfl) rfl hnext
    · intro hall
      refine h.next (iff_of_false (fun hne => hne rfl) Bool.false_ne_true) fun key hne => ?_
      have hnone : under key s.entries = [] :=
        under_eq_nil_iff.mpr fun e he heq => hne (heq.symm.trans (hall e he))
      rw [hnone]
      rfl

theorem stored_step (env : V2Env F) {workspace : Uuid} {call : HookCall workspace} {s' : HookState}
    (h : Stored s.entries) (hstep : hookStep env s call = some s') : Stored s'.entries := by
  rw [hookStep_eq] at hstep
  cases hstep
  show Stored (if _ then _ else _)
  split
  · exact stored_putStatus h (utf8ByteSize_truncateStr_le call.cli maxStatusKeyLen)
  · exact stored_nil

/-- **Hooks are namespaced** after every event of a sequence exactly if every event keeps
the entries apart. -/
theorem hooks_namespaced_iff (env : V2Env F) {workspace : Uuid} {before : List StatusEntry}
    (hbefore : Stored before) (calls : List (HookCall workspace)) :
    EveryState (hookStep env) (Namespaced before) { entries := before } calls ↔
      EveryStep (hookStep env) KeepsApart { entries := before } calls := by
  obtain ⟨s', hexec⟩ :=
    exec_total (fun s call => ⟨_, hookStep_eq env s call⟩) { entries := before } calls
  exact everyState_iff_everyStep (fun s => Stored s.entries)
    (fun s call s' hstored hstep => stored_step env hstored hstep)
    (fun s call s' hstored h hstep => namespaced_step_iff env hstored h hstep)
    hbefore (namespaced_start before) hexec

/-! ## §5. Two agents in one workspace. -/

def plainEnv : V2Env Unit where
  floats    := { parse := fun _ => none, isFinite := fun _ => true, ofInt := fun _ => () }
  parse     := fun _ => none
  parseUuid := fun _ => none
  reread    := id

def oneWorkspace : TabManager := .new 42 43 "/home/u"

theorem selectedId_oneWorkspace : oneWorkspace.selectedId = some 42 := rfl

def hookOf (event : SessionEvent) (cli : String) : HookCall 42 where
  event   := event
  cli     := cli
  tm      := oneWorkspace
  now     := 0
  reports := selectedId_oneWorkspace

/-- Two agents start where a build has left its status. -/
theorem hooks_namespaced_iff_starts :
    EveryState (hookStep plainEnv) (Namespaced [{ key := "build", value := "ok", timestamp := 0 }])
      { entries := [{ key := "build", value := "ok", timestamp := 0 }] }
      [hookOf .sessionStart "claude", hookOf .sessionStart "codex"] := by
  refine (hooks_namespaced_iff plainEnv ⟨by decide, by decide⟩ _).mpr ⟨?_, fun m hm => ⟨?_, ?_⟩⟩
  · exact ⟨by decide, .inr (by decide)⟩
  · rw [hookStep_eq] at hm
    cases hm
    exact ⟨by decide, .inr (by decide)⟩
  · exact fun m hm => trivial

/-- The second agent ends and the entry of the first one, which is running, is gone. -/
theorem hooks_not_namespaced :
    ¬ ∀ (calls : List (HookCall 42)) (s' : HookState),
      exec (hookStep plainEnv) { entries := [] } calls = some s' → Namespaced [] s' := by
  intro hall
  have hexec : exec (hookStep plainEnv) { entries := [] }
      [hookOf .sessionStart "claude", hookOf .sessionStart "codex", hookOf .sessionEnd "codex"] =
        some { entries := [], events := [("codex", false), ("codex", true), ("claude", true)] } := by
    simp [exec, hookStep_eq, hookOf]
  have h := hall _ _ hexec
  exact (h.running "claude" true (by decide)).mpr rfl rfl

end Jmux.Socket
