/-
  Jmux.Goal.ResolveRun — which run a reference names (`resolve_run`, `goal/mod.rs`).

  A reference is a workspace's UUID, a goal's name, or the last segment of one;
  without a reference the caller's own run is meant, else the only live one.  The
  registry is a hash map: its entries come in any order, and the list of candidates
  in an error is sorted for that reason.  `Uuid::parse_str` and the text of a UUID
  are parameters.

  Main result:
    * `resolveRun_exact` — which run is found, and that the answer, with the text of
                           an error, does not depend on the order of the entries.
-/
import Jmux.Goal.Verdict
import Jmux.Lib.Str
import Mathlib.Data.List.Sort
import Mathlib.Data.String.Basic

namespace Jmux.Goal

open Jmux.Lib

/-! ## §1. `resolve_run`. -/

abbrev RunEntry := Sigma fun _ : Uuid => GoalRun

def GoalStatus.asStr : GoalStatus → String
  | running => "running"
  | needsAttention _ => "needs-attention"
  | done => "done"
  | blocked _ => "blocked"

def GoalRun.isLive (run : GoalRun) : Bool := !run.status.isTerminal

/-- The last segment of the goal's name (`rsplit('/').next()`). -/
def GoalRun.lastSegment (run : GoalRun) : String :=
  String.ofList (Str.afterLast ['/'] run.goalName.toList)

/-- One line for every run, sorted. -/
def candidateList (runs : List GoalRun) : String :=
  let lines := runs.map fun r => "\n  - " ++ r.goalName ++ " (" ++ r.status.asStr ++ ")"
  String.join (lines.mergeSort (· ≤ ·))

/-- The runs that a name may stand for: those of that name, else those whose name ends in it. -/
def nameHits (entries : List RunEntry) (name : String) : List RunEntry :=
  let hits := entries.filter fun e => e.2.goalName = name
  if hits = [] then entries.filter fun e => e.2.lastSegment = name else hits

/-- The live run among several. -/
def preferLive (hits : List RunEntry) : List RunEntry :=
  if hits.length > 1 then
    let live := hits.filter (·.2.isLive)
    if live.length = 1 then live else hits
  else hits

/-- The only run; otherwise one of the two errors. -/
def onlyHit (missing : String) (several : List GoalRun → String) :
    List RunEntry → Except String Uuid
  | [] => .error missing
  | [e] => .ok e.1
  | hits => .error (several (hits.map (·.2)))

/-- Resolve a run reference to a workspace id. -/
def GoalRegistry.resolveRun (parseUuid : String → Option Uuid) (uuidText : Uuid → String)
    (goals : GoalRegistry) (target : Option String) (hint : Option Uuid) :
    Except String Uuid :=
  match (target.map Str.trim).filter (· ≠ "") with
  | some t =>
      match parseUuid t with
      | some id =>
          if (goals.lookup id).isSome then .ok id
          else .error ("no goal run for workspace " ++ uuidText id)
      | none =>
          onlyHit ("no goal run named '" ++ t ++ "'" ++ candidateList (goals.entries.map (·.2)))
            (fun runs => "'" ++ t ++ "' matches several runs — name one exactly:"
              ++ candidateList runs)
            (preferLive (nameHits goals.entries t))
  | none =>
      match hint.filter fun h => (goals.lookup h).isSome with
      | some h => .ok h
      | none =>
          onlyHit "no active goal runs (jmux goal status lists everything)"
            (fun runs => "several goal runs are active — name one:" ++ candidateList runs)
            (goals.entries.filter (·.2.isLive))

/-- The run of `w` is registered and has the property. -/
def HasRun (goals : GoalRegistry) (P : GoalRun → Prop) (w : Uuid) : Prop :=
  ∃ run, goals.lookup w = some run ∧ P run

/-- It is the only one. -/
def OnlyRun (goals : GoalRegistry) (P : GoalRun → Prop) (w : Uuid) : Prop :=
  HasRun goals P w ∧ ∀ v, HasRun goals P v → v = w

/-- The run has the name, or ends in it if no run has it. -/
def Named (goals : GoalRegistry) (name : String) (run : GoalRun) : Prop :=
  run.goalName = name ∨
    ((¬ ∃ v, HasRun goals (fun r => r.goalName = name) v) ∧ run.lastSegment = name)

/-- The run that a reference stands for. -/
def Refers (parseUuid : String → Option Uuid) (goals : GoalRegistry) (target : Option String)
    (hint : Option Uuid) (w : Uuid) : Prop :=
  match target.filter fun t => Str.trim t ≠ "" with
  | some t =>
      match parseUuid t with
      | some id => w = id ∧ HasRun goals (fun _ => True) id
      | none =>
          OnlyRun goals (Named goals t) w ∨
            (∃ u v, u ≠ v ∧ HasRun goals (Named goals t) u ∧ HasRun goals (Named goals t) v) ∧
              OnlyRun goals (fun r => Named goals t r ∧ r.status.isTerminal = false) w
  | none =>
      (hint = some w ∧ HasRun goals (fun _ => True) w) ∨
        ((∀ h ∈ hint, ¬ HasRun goals (fun _ => True) h) ∧
          OnlyRun goals (fun r => r.status.isTerminal = false) w)

/-! ## §3. Entries and lookups. -/

variable {goals : GoalRegistry}

theorem mem_entries_iff {w : Uuid} {run : GoalRun} :
    (⟨w, run⟩ : RunEntry) ∈ goals.entries ↔ goals.lookup w = some run :=
  (AList.mem_lookup_iff).symm

/-- Exactly one entry is kept when exactly one run has the property. -/
theorem filter_singleton_iff {p : RunEntry → Bool} {P : GoalRun → Prop}
    (hp : ∀ e ∈ goals.entries, p e = true ↔ P e.2) {w : Uuid} :
    (∃ run, goals.entries.filter p = [⟨w, run⟩]) ↔ OnlyRun goals P w := by
  have hmem : ∀ v run, (⟨v, run⟩ : RunEntry) ∈ goals.entries.filter p ↔
      goals.lookup v = some run ∧ P run := by
    intro v run
    rw [List.mem_filter, mem_entries_iff]
    constructor
    · rintro ⟨hv, hkept⟩
      exact ⟨hv, (hp _ (mem_entries_iff.mpr hv)).mp hkept⟩
    · rintro ⟨hv, hP⟩
      exact ⟨hv, (hp _ (mem_entries_iff.mpr hv)).mpr hP⟩
  constructor
  · rintro ⟨run, hone⟩
    rw [hone] at hmem
    refine ⟨⟨run, (hmem w run).mp List.mem_cons_self⟩, ?_⟩
    rintro v ⟨r, hr⟩
    have heq := List.mem_singleton.mp ((hmem v r).mpr hr)
    exact congrArg Sigma.fst heq
  · rintro ⟨⟨run, hrun⟩, honly⟩
    have hnodup : (goals.entries.filter p).Nodup :=
      (List.NodupKeys.nodup goals.nodupKeys).sublist List.filter_sublist
    refine ⟨run, List.perm_singleton.mp ?_⟩
    refine (List.perm_ext_iff_of_nodup hnodup (List.nodup_singleton _)).mpr ?_
    rintro ⟨v, r⟩
    rw [hmem, List.mem_singleton]
    constructor
    · intro hr
      obtain rfl := honly v ⟨r, hr⟩
      rw [hr.1] at hrun
      rw [Option.some.inj hrun.1]
    · intro heq
      cases heq
      exact hrun

/-- More than one entry is kept when two runs have the property. -/
theorem filter_several_iff {p : RunEntry → Bool} {P : GoalRun → Prop}
    (hp : ∀ e ∈ goals.entries, p e = true ↔ P e.2) :
    (goals.entries.filter p).length > 1 ↔
      ∃ u v, u ≠ v ∧ HasRun goals P u ∧ HasRun goals P v := by
  have hhas : ∀ e ∈ goals.entries.filter p, HasRun goals P e.1 := by
    intro e he
    obtain ⟨hmem, hkept⟩ := List.mem_filter.mp he
    exact ⟨e.2, mem_entries_iff.mp hmem, (hp e hmem).mp hkept⟩
  constructor
  · intro hlen
    have hkeys : (goals.entries.filter p).NodupKeys :=
      goals.nodupKeys.sublist List.filter_sublist
    cases hentries : goals.entries.filter p with
    | nil => simp [hentries] at hlen
    | cons d rest =>
        cases rest with
        | nil => simp [hentries] at hlen
        | cons e rest =>
            rw [hentries] at hhas hkeys
            refine ⟨d.1, e.1, fun heq => ?_, hhas d (by simp), hhas e (by simp)⟩
            have hnotin := (List.nodupKeys_cons.mp hkeys).1
            rw [heq] at hnotin
            exact hnotin (List.mem_keys.mpr ⟨e.2, by simp⟩)
  · rintro ⟨u, v, hne, ⟨r, hr, hPr⟩, ⟨s, hs, hPs⟩⟩
    have hu : (⟨u, r⟩ : RunEntry) ∈ goals.entries.filter p :=
      List.mem_filter.mpr ⟨mem_entries_iff.mpr hr, (hp _ (mem_entries_iff.mpr hr)).mpr hPr⟩
    have hv : (⟨v, s⟩ : RunEntry) ∈ goals.entries.filter p :=
      List.mem_filter.mpr ⟨mem_entries_iff.mpr hs, (hp _ (mem_entries_iff.mpr hs)).mpr hPs⟩
    by_contra hshort
    have hone : (goals.entries.filter p).length ≤ 1 := by omega
    cases hentries : goals.entries.filter p with
    | nil => simp [hentries] at hu
    | cons d rest =>
        rw [hentries] at hu hv hone
        have hrest : rest = [] := by
          rw [List.length_cons] at hone
          exact List.length_eq_zero_iff.mp (by omega)
        rw [hrest, List.mem_singleton] at hu hv
        exact hne (congrArg Sigma.fst (hu.trans hv.symm))

theorem onlyHit_ok_iff {missing : String} {several : List GoalRun → String} {w : Uuid}
    {hits : List RunEntry} :
    onlyHit missing several hits = .ok w ↔ ∃ run, hits = [⟨w, run⟩] := by
  cases hits with
  | nil => simp [onlyHit]
  | cons e rest =>
      cases rest with
      | nil =>
          obtain ⟨v, run⟩ := e
          constructor
          · intro h
            obtain rfl : v = w := Except.ok.inj h
            exact ⟨run, rfl⟩
          · rintro ⟨r, hr⟩
            cases hr
            rfl
      | cons d rest => simp [onlyHit]

/-- The preferred hits are one run when it is the only hit, or the only live one of several. -/
theorem preferLive_singleton_iff {p : RunEntry → Bool} {P : GoalRun → Prop}
    (hp : ∀ e ∈ goals.entries, p e = true ↔ P e.2) {w : Uuid} :
    (∃ run, preferLive (goals.entries.filter p) = [⟨w, run⟩]) ↔
      OnlyRun goals P w ∨ (∃ u v, u ≠ v ∧ HasRun goals P u ∧ HasRun goals P v) ∧
        OnlyRun goals (fun r => P r ∧ r.status.isTerminal = false) w := by
  have hlive : ∀ e ∈ goals.entries, (p e && e.2.isLive) = true ↔
      P e.2 ∧ e.2.status.isTerminal = false := by
    intro e he
    rw [Bool.and_eq_true, hp e he]
    unfold GoalRun.isLive
    simp
  have hfilter : (goals.entries.filter p).filter (·.2.isLive)
      = goals.entries.filter fun e => p e && e.2.isLive := by
    rw [List.filter_filter]
    exact List.filter_congr fun e _ => Bool.and_comm _ _
  rw [← filter_several_iff hp, ← filter_singleton_iff hp, ← filter_singleton_iff hlive, ← hfilter]
  unfold preferLive
  by_cases hlen : (goals.entries.filter p).length > 1
  · -- several hits: not one of them, so the live one
    have hnotone : ¬ ∃ run, goals.entries.filter p = [⟨w, run⟩] := by
      rintro ⟨run, hone⟩
      rw [hone] at hlen
      simp at hlen
    rw [if_pos hlen]
    dsimp only
    by_cases hone : ((goals.entries.filter p).filter (·.2.isLive)).length = 1
    · rw [if_pos hone]
      exact ⟨fun h => .inr ⟨hlen, h⟩, fun h => (h.resolve_left hnotone).2⟩
    · rw [if_neg hone]
      refine ⟨fun h => absurd h hnotone, fun h => ?_⟩
      obtain ⟨run, hrun⟩ := (h.resolve_left hnotone).2
      exact absurd (by rw [hrun, List.length_singleton]) hone
  · rw [if_neg hlen]
    exact ⟨.inl, fun h => h.resolve_right fun hboth => hlen hboth.1⟩

/-- The hits of a name are the runs that the name stands for. -/
theorem nameHits_eq (goals : GoalRegistry) (name : String) :
    ∃ p : RunEntry → Bool, nameHits goals.entries name = goals.entries.filter p ∧
      ∀ e ∈ goals.entries, p e = true ↔ Named goals name e.2 := by
  have hnone : goals.entries.filter (fun e => decide (e.2.goalName = name)) = [] ↔
      ¬ ∃ v, HasRun goals (fun r => r.goalName = name) v := by
    rw [List.filter_eq_nil_iff]
    constructor
    · rintro h ⟨v, run, hrun, hname⟩
      exact h ⟨v, run⟩ (mem_entries_iff.mpr hrun) (decide_eq_true hname)
    · intro h e he hname
      exact h ⟨e.1, e.2, mem_entries_iff.mp he, of_decide_eq_true hname⟩
  unfold nameHits Named
  dsimp only
  by_cases hhits : goals.entries.filter (fun e => decide (e.2.goalName = name)) = []
  · refine ⟨_, if_pos hhits, fun e he => ?_⟩
    have hno := hnone.mp hhits
    rw [decide_eq_true_eq]
    constructor
    · exact fun h => .inr ⟨hno, h⟩
    · rintro (h | h)
      · exact absurd ⟨e.1, e.2, mem_entries_iff.mp he, h⟩ hno
      · exact h.2
  · refine ⟨_, if_neg hhits, fun e he => ?_⟩
    rw [decide_eq_true_eq]
    exact ⟨.inl, fun h => h.resolve_right fun hboth => hhits (hnone.mpr hboth.1)⟩

/-- Which run is found. -/
theorem resolveRun_ok_iff (parseUuid : String → Option Uuid) (uuidText : Uuid → String)
    (goals : GoalRegistry) (target : Option String) (hint : Option Uuid) (w : Uuid) :
    GoalRegistry.resolveRun parseUuid uuidText goals target hint = .ok w ↔
      Refers parseUuid goals (target.map Str.trim) hint w := by
  have htrim : ∀ t : String, Str.trim (Str.trim t) = Str.trim t := by
    intro t
    unfold Str.trim
    rw [String.toList_ofList, Str.trimMatches_idem]
  have hsame : (target.map Str.trim).filter (fun t => decide (Str.trim t ≠ ""))
      = (target.map Str.trim).filter fun t => decide (t ≠ "") := by
    cases target with
    | none => rfl
    | some t => simp [Option.filter, htrim]
  have hregistered : ∀ v, (goals.lookup v).isSome = true ↔ HasRun goals (fun _ => True) v := by
    intro v
    rw [Option.isSome_iff_exists]
    unfold HasRun
    simp
  unfold GoalRegistry.resolveRun Refers
  rw [hsame]
  cases (target.map Str.trim).filter fun t => decide (t ≠ "") with
  | some t =>
      dsimp only
      cases parseUuid t with
      | some id =>
          dsimp only
          by_cases hid : (goals.lookup id).isSome = true
          · rw [if_pos hid]
            constructor
            · intro h
              exact ⟨(Except.ok.inj h).symm, (hregistered id).mp hid⟩
            · rintro ⟨rfl, _⟩
              rfl
          · rw [if_neg hid]
            constructor
            · intro h
              cases h
            · intro h
              exact absurd ((hregistered id).mpr h.2) hid
      | none =>
          dsimp only
          obtain ⟨p, hhits, hp⟩ := nameHits_eq goals t
          rw [onlyHit_ok_iff, hhits, preferLive_singleton_iff hp]
  | none =>
      dsimp only
      have hlive : ∀ e ∈ goals.entries, e.2.isLive = true ↔ e.2.status.isTerminal = false := by
        intro e _
        unfold GoalRun.isLive
        simp
      cases hhint : hint.filter fun h => (goals.lookup h).isSome with
      | some h =>
          obtain ⟨hsome, hreg⟩ := Option.filter_eq_some_iff.mp hhint
          have hhas := (hregistered h).mp hreg
          dsimp only
          constructor
          · intro heq
            obtain rfl : h = w := Except.ok.inj heq
            exact .inl ⟨hsome, hhas⟩
          · rintro (⟨heq, _⟩ | ⟨hno, _⟩)
            · rw [hsome] at heq
              rw [Option.some.inj heq]
            · exact absurd hhas (hno h hsome)
      | none =>
          have hno : ∀ h ∈ hint, ¬ HasRun goals (fun _ => True) h := by
            intro h hh hhas
            have hkept : hint.filter (fun h => (goals.lookup h).isSome) = some h :=
              Option.filter_eq_some_iff.mpr ⟨hh, (hregistered h).mpr hhas⟩
            rw [hhint] at hkept
            cases hkept
          dsimp only
          rw [onlyHit_ok_iff,
            @filter_singleton_iff goals _ (fun r => r.status.isTerminal = false) hlive]
          constructor
          · exact fun h => .inr ⟨hno, h⟩
          · rintro (⟨heq, hhas⟩ | ⟨_, h⟩)
            · exact absurd hhas (hno w heq)
            · exact h

/-! ## §4. The order of the entries. -/

/-- The candidates are listed in the same way in any order. -/
theorem candidateList_perm {runs runs' : List GoalRun} (h : runs.Perm runs') :
    candidateList runs = candidateList runs' := by
  have hsorted : ∀ lines : List String, (lines.mergeSort (· ≤ ·)).Pairwise (· ≤ ·) := fun lines => by
    simpa using List.pairwise_mergeSort' (r := fun a b : String => a ≤ b) lines
  have hlines := h.map fun r => "\n  - " ++ r.goalName ++ " (" ++ r.status.asStr ++ ")"
  have hperm := (List.mergeSort_perm _ (fun a b : String => decide (a ≤ b))).trans
    (hlines.trans (List.mergeSort_perm _ (fun a b : String => decide (a ≤ b))).symm)
  unfold candidateList
  exact congrArg String.join
    (hperm.eq_of_pairwise (fun a b _ _ hab hba => le_antisymm hab hba) (hsorted _) (hsorted _))

theorem onlyHit_perm {missing : String} {several : List GoalRun → String}
    (hseveral : ∀ runs runs', runs.Perm runs' → several runs = several runs')
    {hits hits' : List RunEntry} (h : hits.Perm hits') :
    onlyHit missing several hits = onlyHit missing several hits' := by
  have hlen := h.length_eq
  match hits, hits' with
  | [], [] => rfl
  | [e], [d] => rw [List.singleton_perm_singleton.mp h]
  | a :: b :: rest, c :: d :: rest' =>
      exact congrArg Except.error (hseveral _ _ (h.map (·.2)))
  | [], _ :: _ => simp at hlen
  | _ :: _, [] => simp at hlen
  | [_], _ :: _ :: _ => simp at hlen
  | _ :: _ :: _, [_] => simp at hlen

theorem preferLive_perm {hits hits' : List RunEntry} (h : hits.Perm hits') :
    (preferLive hits).Perm (preferLive hits') := by
  have hlive := h.filter (·.2.isLive)
  unfold preferLive
  dsimp only
  rw [h.length_eq, hlive.length_eq]
  split
  · split
    · exact hlive
    · exact h
  · exact h

theorem nameHits_perm {entries entries' : List RunEntry} (h : entries.Perm entries')
    (name : String) : (nameHits entries name).Perm (nameHits entries' name) := by
  have hexact := h.filter fun e => decide (e.2.goalName = name)
  have hnil : entries.filter (fun e => decide (e.2.goalName = name)) = [] ↔
      entries'.filter (fun e => decide (e.2.goalName = name)) = [] := by
    rw [← List.length_eq_zero_iff, hexact.length_eq, List.length_eq_zero_iff]
  unfold nameHits
  simp only [hnil]
  split
  · exact h.filter _
  · exact hexact

/-- The answer is the same for every order of the entries. -/
theorem resolveRun_perm (parseUuid : String → Option Uuid) (uuidText : Uuid → String)
    {goals goals' : GoalRegistry} (h : goals.entries.Perm goals'.entries) (target : Option String)
    (hint : Option Uuid) :
    GoalRegistry.resolveRun parseUuid uuidText goals target hint
      = GoalRegistry.resolveRun parseUuid uuidText goals' target hint := by
  have hlookup : ∀ v, goals.lookup v = goals'.lookup v := fun v => AList.perm_lookup h
  have hall := candidateList_perm (h.map (·.2))
  unfold GoalRegistry.resolveRun
  simp only [hlookup]
  split
  · split
    · rfl
    · rw [hall]
      exact onlyHit_perm (fun _ _ hruns => by rw [candidateList_perm hruns])
        (preferLive_perm (nameHits_perm h _))
  · split
    · rfl
    · exact onlyHit_perm (fun _ _ hruns => by rw [candidateList_perm hruns]) (h.filter _)

/-! ## §5. Run lookup. -/

/-- **The run that is found is the one that the trimmed reference stands for, and the
answer does not depend on the order of the entries.** -/
theorem resolveRun_exact (parseUuid : String → Option Uuid) (uuidText : Uuid → String)
    (goals : GoalRegistry) (target : Option String) (hint : Option Uuid) :
    (∀ w, GoalRegistry.resolveRun parseUuid uuidText goals target hint = .ok w ↔
        Refers parseUuid goals (target.map Str.trim) hint w) ∧
      ∀ goals' : GoalRegistry, goals.entries.Perm goals'.entries →
        GoalRegistry.resolveRun parseUuid uuidText goals target hint
          = GoalRegistry.resolveRun parseUuid uuidText goals' target hint :=
  ⟨resolveRun_ok_iff parseUuid uuidText goals target hint,
    fun _ h => resolveRun_perm parseUuid uuidText h target hint⟩

def siteRun (workspaceId : Uuid) (status : GoalStatus) : GoalRun where
  workspaceId := workspaceId
  panelId := 20
  sessionId := 30
  goalName := "map/site"
  goalPath := "goal.md"
  cwd := "/r"
  outputDirRel := "docs/roadmap"
  iteration := 1
  maxIterations := 0
  runnerName := "claude"
  runner := {}
  status := status
  nudgesSent := 0
  idleTicks := 0
  noTextTicks := 0
  startedEpoch := 0
  wallClockMinutes := 0
  lastEscalationEpoch := 0
  graph := none

/-- A finished run and the live one of the same name. -/
def relaunched : GoalRegistry where
  entries := [⟨1, siteRun 1 .done⟩, ⟨2, siteRun 2 .running⟩]
  nodupKeys := by
    show List.Nodup [1, 2]
    decide

/-- The same registry in the other order. -/
def relaunchedReversed : GoalRegistry where
  entries := [⟨2, siteRun 2 .running⟩, ⟨1, siteRun 1 .done⟩]
  nodupKeys := by
    show List.Nodup [2, 1]
    decide

theorem resolveRun_relaunched :
    Refers (fun _ => none) relaunched (some "site") none 2 ∧
      GoalRegistry.resolveRun (fun _ => none) toString relaunchedReversed (some "site") none
        = .ok 2 := by
  have hexact := resolveRun_exact (fun _ => none) toString relaunched (some "site") none
  have hfound : GoalRegistry.resolveRun (fun _ => none) toString relaunched (some "site") none
      = .ok 2 := by
    decide
  exact ⟨(hexact.1 2).mp hfound,
    (hexact.2 relaunchedReversed (List.Perm.swap _ _ [])).symm.trans hfound⟩

/-- White space around a reference is not compared. -/
theorem blank_not_compared :
    GoalRegistry.resolveRun (fun _ => none) toString relaunched (some " site") none = .ok 2 ∧
      ¬ Refers (fun _ => none) relaunched (some " site") none 2 := by
  have hnone : ∀ v, ¬ HasRun relaunched (Named relaunched " site") v := by
    rintro v ⟨run, hrun, hnamed⟩
    have hmem : (⟨v, run⟩ : RunEntry) ∈ relaunched.entries := mem_entries_iff.mpr hrun
    have hname : run.goalName = "map/site" := by
      simp only [relaunched, List.mem_cons, List.not_mem_nil, or_false] at hmem
      rcases hmem with h | h <;> cases h <;> rfl
    rcases hnamed with h | ⟨_, h⟩
    · rw [hname] at h
      exact absurd h (by decide)
    · unfold GoalRun.lastSegment at h
      rw [hname] at h
      exact absurd h (by decide)
  refine ⟨by decide, ?_⟩
  rintro (⟨hrun, _⟩ | ⟨⟨u, _, _, hrun, _⟩, _⟩)
  · exact hnone 2 hrun
  · exact hnone u hrun

end Jmux.Goal
