/-
  Jmux.Session.ResumeIds — which conversation a restored Claude resumes
  (`enrich_snapshot_with_live_proc` of `session/store.rs`, `claude_resume.rs`).

  The shell wrapper pins the session of a panel.  The other panels in which a
  Claude runs are handed transcripts, the newest first in each directory; those
  that are pinned elsewhere are not left out.

  Main results:
    * `claudeSessionIds_lookup` — a panel is handed the transcript of its rank.
    * `resumeIds_distinct_iff`  — when no two panels share a session.
-/
import Jmux.Session.Restart

namespace Jmux.Session

open Jmux.Lib Jmux.Model

/-! ## §1. The hand-out. -/

/-- The session ids of each project directory, the newest first. -/
structure ProjectsDir where
  sessionIds : String → List String
  distinct   : ∀ slug, (sessionIds slug).Nodup

/-- `/` and `.` become dashes. -/
def encodeProjectDir (cwd : String) : String :=
  String.ofList (cwd.toList.map fun c => if c = '/' ∨ c = '.' then '-' else c)

def ProjectsDir.sessionIdsForCwd (projects : ProjectsDir) (cwd : String) : List String :=
  projects.sessionIds (encodeProjectDir cwd)

/-- A working directory for some of the panels. -/
abbrev Cwds := AList fun _ : Uuid => String

/-- What the two walks of `/proc` find: the shells and the Claudes of the panels. -/
structure LocalProc where
  panelCwds  : Cwds
  claudeCwds : Cwds

/-- The loop over the panels with a Claude; `nextIdx` counts in each directory. -/
def handOut (sessionIds : String → List String) :
    List (Sigma fun _ : Uuid => String) → (String → Nat) → Cwds → Cwds
  | [], _, out => out
  | ⟨panelId, cwd⟩ :: rest, nextIdx, out =>
      let ids := sessionIds cwd
      if ids.isEmpty then handOut sessionIds rest nextIdx out
      else
        let idx := nextIdx cwd
        -- more tabs than transcripts share the last one
        let pick := ids[idx]?.or ids.getLast?
        handOut sessionIds rest (Function.update nextIdx cwd (idx + 1))
          (match pick with
            | some id => out.insert panelId id
            | none => out)

/-- The panels claim in the order of their ids. -/
def claudeSessionIds (projects : ProjectsDir) (claudeCwds : Cwds) : Cwds :=
  handOut projects.sessionIdsForCwd (claudeCwds.entries.mergeSort fun a b => a.1 ≤ b.1)
    (fun _ => 0) ∅

def liveProc (projects : ProjectsDir) (proc : LocalProc) : LiveProc where
  cwd           := proc.panelCwds.lookup
  claudeSession := (claudeSessionIds projects proc.claudeCwds).lookup

/-! ## §2. Ranks. -/

section HandOut

variable {sessionIds : String → List String} {entries : List (Sigma fun _ : Uuid => String)}

/-- The panels in the directory that claim before this one. -/
def rank (entries : List (Sigma fun _ : Uuid => String)) (panelId : Uuid) (cwd : String) : Nat :=
  entries.countP fun e => e.1 < panelId ∧ e.2 = cwd

theorem handOut_of_notMem {panelId : Uuid} (h : ∀ e ∈ entries, e.1 ≠ panelId)
    (nextIdx : String → Nat) (out : Cwds) :
    (handOut sessionIds entries nextIdx out).lookup panelId = out.lookup panelId := by
  induction entries generalizing nextIdx out with
  | nil => rfl
  | cons e entries ih =>
      obtain ⟨other, cwd⟩ := e
      have hrest : ∀ e ∈ entries, e.1 ≠ panelId := fun e he => h e (List.mem_cons_of_mem _ he)
      have hne : panelId ≠ other := (h ⟨other, cwd⟩ List.mem_cons_self).symm
      unfold handOut
      dsimp only
      split
      · exact ih hrest nextIdx out
      · rw [ih hrest]
        split
        · rw [AList.lookup_insert_eq_ite, if_neg hne]
        · rfl

/-- From counters that stand anywhere, each panel gets the transcript that its
rank is ahead of its directory's counter. -/
theorem handOut_lookup (hsorted : entries.Pairwise fun a b => a.1 < b.1)
    (hsome : ∀ e ∈ entries, sessionIds e.2 ≠ []) {panelId : Uuid} {cwd : String}
    (hmem : ⟨panelId, cwd⟩ ∈ entries) (nextIdx : String → Nat) (out : Cwds)
    (hroom : nextIdx cwd + rank entries panelId cwd < (sessionIds cwd).length) :
    (handOut sessionIds entries nextIdx out).lookup panelId =
      (sessionIds cwd)[nextIdx cwd + rank entries panelId cwd]? := by
  induction entries generalizing nextIdx out with
  | nil => cases hmem
  | cons e entries ih =>
      obtain ⟨first, dir⟩ := e
      obtain ⟨hfirst, hrest⟩ := List.pairwise_cons.mp hsorted
      have hne : (sessionIds dir).isEmpty = false := by
        simpa using hsome ⟨first, dir⟩ List.mem_cons_self
      have hsome' : ∀ e ∈ entries, sessionIds e.2 ≠ [] :=
        fun e he => hsome e (List.mem_cons_of_mem _ he)
      unfold handOut
      dsimp only
      rw [hne, if_neg (by simp)]
      rcases List.mem_cons.mp hmem with heq | hin
      · -- its turn: nobody before it is left, nobody after it is in its way
        obtain ⟨rfl, hcwd⟩ := Sigma.mk.inj heq
        obtain rfl : cwd = dir := eq_of_heq hcwd
        have hzero : rank (⟨panelId, cwd⟩ :: entries) panelId cwd = 0 := by
          unfold rank
          rw [List.countP_eq_zero]
          intro e he
          rcases List.mem_cons.mp he with rfl | he
          · simp
          · have hlt : panelId < e.1 := hfirst e he
            have hnot : ¬ e.1 < panelId := Nat.lt_asymm hlt
            simp [hnot]
        rw [hzero, Nat.add_zero] at hroom
        rw [hzero, handOut_of_notMem (fun e he => (Nat.ne_of_lt (hfirst e he)).symm),
          Nat.add_zero, List.getElem?_eq_getElem hroom]
        exact AList.lookup_insert _
      · have hlt : first < panelId := hfirst ⟨panelId, cwd⟩ hin
        have hrank : rank (⟨first, dir⟩ :: entries) panelId cwd =
            rank entries panelId cwd + if dir = cwd then 1 else 0 := by
          unfold rank
          rw [List.countP_cons]
          simp [hlt]
        have hcount : Function.update nextIdx dir (nextIdx dir + 1) cwd +
            rank entries panelId cwd =
              nextIdx cwd + rank (⟨first, dir⟩ :: entries) panelId cwd := by
          rw [hrank, Function.update_apply]
          by_cases hdir : dir = cwd
          · subst hdir
            simp only [if_true]
            omega
          · rw [if_neg (Ne.symm hdir), if_neg hdir]
            omega
        rw [← hcount] at hroom ⊢
        exact ih hrest hsome' hin _ _ hroom

end HandOut

/-! ## §3. What each panel is handed. -/

variable (projects : ProjectsDir) (proc : LocalProc)

/-- In each directory there is a transcript for every panel with a Claude. -/
def EnoughTranscripts (projects : ProjectsDir) (proc : LocalProc) : Prop :=
  ∀ cwd, proc.claudeCwds.entries.countP (fun e => e.2 = cwd) ≤
    (projects.sessionIdsForCwd cwd).length

/-- The transcript of a panel's rank: as many newer ones are in its directory as
panels with a smaller id and a Claude there. -/
def rankedTranscript (panelId : Uuid) : Option String :=
  (proc.claudeCwds.lookup panelId).bind fun cwd =>
    (projects.sessionIdsForCwd cwd)[rank proc.claudeCwds.entries panelId cwd]?

variable {projects proc}

/-- An entry that only the weaker of two tests passes makes the counts differ. -/
theorem countP_lt_of_mem {α : Type*} {p q : α → Bool} {l : List α} {x : α} (hx : x ∈ l)
    (himp : ∀ y, p y = true → q y = true) (hp : p x = false) (hq : q x = true) :
    l.countP p < l.countP q := by
  obtain ⟨before, after, rfl⟩ := List.append_of_mem hx
  have hmono : ∀ l : List α, l.countP p ≤ l.countP q := by
    intro l
    apply List.countP_mono_left
    intro y _ hy
    exact himp y hy
  have hbefore := hmono before
  have hafter := hmono after
  rw [List.countP_append, List.countP_append, List.countP_cons_of_neg (by simp [hp]),
    List.countP_cons_of_pos hq]
  omega

theorem rank_lt {panelId : Uuid} {cwd : String} (henough : EnoughTranscripts projects proc)
    (hl : proc.claudeCwds.lookup panelId = some cwd) :
    rank proc.claudeCwds.entries panelId cwd < (projects.sessionIdsForCwd cwd).length := by
  refine Nat.lt_of_lt_of_le ?_ (henough cwd)
  -- the panel itself is in the directory, and not before itself
  apply countP_lt_of_mem ((AList.mem_entries_iff_lookup _ panelId cwd).mpr hl)
  · intro e he
    simp only [decide_eq_true_eq] at he ⊢
    exact he.2
  · simp
  · simp

/-- Of two panels in a directory the later one has the greater rank. -/
theorem rank_lt_rank {first second : Uuid} {cwd : String} (hlt : first < second)
    (hl : proc.claudeCwds.lookup first = some cwd) :
    rank proc.claudeCwds.entries first cwd < rank proc.claudeCwds.entries second cwd := by
  apply countP_lt_of_mem ((AList.mem_entries_iff_lookup _ first cwd).mpr hl)
  · intro e he
    simp only [decide_eq_true_eq] at he ⊢
    exact ⟨Nat.lt_trans he.1 hlt, he.2⟩
  · simp
  · simp [hlt]

/-- Two panels of one directory have different transcripts. -/
theorem rankedTranscript_inj {first second : Uuid} {cwd session : String}
    (hne : first ≠ second) (hfirst : proc.claudeCwds.lookup first = some cwd)
    (hsecond : proc.claudeCwds.lookup second = some cwd)
    (h : rankedTranscript projects proc first = some session) :
    rankedTranscript projects proc second ≠ some session := by
  intro h'
  unfold rankedTranscript at h h'
  rw [hfirst] at h
  rw [hsecond] at h'
  obtain ⟨hi, hat⟩ := List.getElem?_eq_some_iff.mp h
  obtain ⟨hj, hat'⟩ := List.getElem?_eq_some_iff.mp h'
  have hranks := (projects.distinct (encodeProjectDir cwd)).getElem_inj_iff.mp (hat.trans hat'.symm)
  rcases Nat.lt_or_gt_of_ne hne with hlt | hlt
  · have := rank_lt_rank hlt hfirst
    omega
  · have := rank_lt_rank hlt hsecond
    omega

theorem claudeSessionIds_lookup (henough : EnoughTranscripts projects proc) (panelId : Uuid) :
    (claudeSessionIds projects proc.claudeCwds).lookup panelId =
      rankedTranscript projects proc panelId := by
  have hperm := List.mergeSort_perm proc.claudeCwds.entries fun a b => decide (a.1 ≤ b.1)
  have hle : (proc.claudeCwds.entries.mergeSort fun a b => a.1 ≤ b.1).Pairwise
      fun a b => a.1 ≤ b.1 := by
    have htrans : ∀ a b c : Sigma fun _ : Uuid => String, decide (a.1 ≤ b.1) = true →
        decide (b.1 ≤ c.1) = true → decide (a.1 ≤ c.1) = true := by
      intro a b c hab hbc
      exact decide_eq_true (Nat.le_trans (of_decide_eq_true hab) (of_decide_eq_true hbc))
    have htotal : ∀ a b : Sigma fun _ : Uuid => String,
        (decide (a.1 ≤ b.1) || decide (b.1 ≤ a.1)) = true := by
      intro a b
      simpa using Nat.le_total a.1 b.1
    exact (List.pairwise_mergeSort htrans htotal _).imp of_decide_eq_true
  have hsorted : (proc.claudeCwds.entries.mergeSort fun a b => a.1 ≤ b.1).Pairwise
      fun a b => a.1 < b.1 := by
    have hkeys : (proc.claudeCwds.entries.mergeSort fun a b => a.1 ≤ b.1).Pairwise
        fun a b => a.1 ≠ b.1 := by
      have hnd := List.nodupKeys_iff_pairwise.mp proc.claudeCwds.nodupKeys
      exact (hperm.pairwise_iff fun h => h.symm).mpr hnd
    exact (hle.and hkeys).imp fun h => Nat.lt_of_le_of_ne h.1 h.2
  unfold claudeSessionIds rankedTranscript
  cases hl : proc.claudeCwds.lookup panelId with
  | none =>
      rw [handOut_of_notMem]
      · rfl
      · intro e he heq
        have hmem := (AList.mem_entries_iff_lookup _ e.1 e.2).mp (hperm.mem_iff.mp he)
        rw [heq, hl] at hmem
        cases hmem
  | some cwd =>
      have hrank : rank (proc.claudeCwds.entries.mergeSort fun a b => a.1 ≤ b.1) panelId cwd =
          rank proc.claudeCwds.entries panelId cwd := hperm.countP_eq _
      have hlt := rank_lt henough hl
      show _ = (projects.sessionIdsForCwd cwd)[rank proc.claudeCwds.entries panelId cwd]?
      rw [handOut_lookup hsorted]
      · rw [hrank, Nat.zero_add]
      · intro e he
        have hroom := rank_lt henough ((AList.mem_entries_iff_lookup _ e.1 e.2).mp
          (hperm.mem_iff.mp he))
        exact List.ne_nil_of_length_pos (by omega)
      · exact hperm.mem_iff.mpr ((AList.mem_entries_iff_lookup _ _ _).mpr hl)
      · rw [hrank, Nat.zero_add]
        exact hlt

/-! ## §4. The panels of a snapshot. -/

def panelsOf (snapshot : AppSessionSnapshot) : List SessionPanelSnapshot :=
  snapshot.windows.flatMap fun w => w.tabManager.workspaces.flatMap (·.panels)

theorem panelsOf_enriched (live : LiveProc) (snapshot : AppSessionSnapshot) :
    panelsOf (enrichSnapshotWithLiveProc live snapshot) =
      (panelsOf snapshot).map (enrichPanel live) := by
  simp [panelsOf, enrichSnapshotWithLiveProc, enrichWorkspace, List.flatMap_map, List.map_flatMap]

theorem enrichPanel_session (live : LiveProc) (panel : SessionPanelSnapshot) :
    (enrichPanel live panel).id = panel.id ∧
      (enrichPanel live panel).agentSessionId =
        panel.agentSessionId.or (live.claudeSession panel.id) := by
  unfold enrichPanel
  cases live.cwd panel.id <;> cases hs : panel.agentSessionId <;>
    cases hl : live.claudeSession panel.id <;> simp [hs, hl]

/-- No two panels carry the same session. -/
def DistinctSessions (panels : List SessionPanelSnapshot) : Prop :=
  ∀ p ∈ panels, ∀ q ∈ panels, p.id ≠ q.id →
    ∀ session, p.agentSessionId = some session → q.agentSessionId ≠ some session

/-- Panel by panel, a session that was pinned stays. -/
def PinsKept (before after : List SessionPanelSnapshot) : Prop :=
  List.Forall₂ (fun p p' => p'.id = p.id ∧
    ∀ session, p.agentSessionId = some session → p'.agentSessionId = some session) before after

theorem pinsKept_enriched (live : LiveProc) (snapshot : AppSessionSnapshot) :
    PinsKept (panelsOf snapshot) (panelsOf (enrichSnapshotWithLiveProc live snapshot)) := by
  unfold PinsKept
  rw [panelsOf_enriched, List.forall₂_map_right_iff]
  apply List.forall₂_same.mpr
  intro panel _
  obtain ⟨hid, hsession⟩ := enrichPanel_session live panel
  refine ⟨hid, ?_⟩
  intro session hpin
  rw [hsession, hpin]
  rfl

/-- The sessions that are handed out are free. -/
structure Unshared (projects : ProjectsDir) (proc : LocalProc)
    (panels : List SessionPanelSnapshot) : Prop where
  pinned : DistinctSessions panels
  handed : ∀ p ∈ panels, p.agentSessionId = none →
    ∀ session, rankedTranscript projects proc p.id = some session →
      ∀ q ∈ panels, p.id ≠ q.id → q.agentSessionId ≠ some session
  dirs   : ∀ p ∈ panels, ∀ q ∈ panels, p.agentSessionId = none → q.agentSessionId = none →
    proc.claudeCwds.lookup p.id ≠ proc.claudeCwds.lookup q.id →
      ∀ session, rankedTranscript projects proc p.id = some session →
        rankedTranscript projects proc q.id ≠ some session

theorem distinctSessions_map_iff (live : LiveProc) (panels : List SessionPanelSnapshot) :
    DistinctSessions (panels.map (enrichPanel live)) ↔
      ∀ p ∈ panels, ∀ q ∈ panels, p.id ≠ q.id → ∀ session,
        p.agentSessionId.or (live.claudeSession p.id) = some session →
          q.agentSessionId.or (live.claudeSession q.id) ≠ some session := by
  unfold DistinctSessions
  simp only [List.forall_mem_map, enrichPanel_session]

/-- **Distinct conversations.**  With a transcript for every panel, no two panels
carry the same session afterwards, and the pinned ones keep theirs, exactly when
the pinned ones are distinct, none of them is handed to another panel, and what
is handed out in one directory is not handed out in another. -/
theorem resumeIds_distinct_iff (henough : EnoughTranscripts projects proc)
    (snapshot : AppSessionSnapshot) :
    (DistinctSessions (panelsOf (enrichSnapshotWithLiveProc (liveProc projects proc) snapshot)) ∧
        PinsKept (panelsOf snapshot)
          (panelsOf (enrichSnapshotWithLiveProc (liveProc projects proc) snapshot))) ↔
      Unshared projects proc (panelsOf snapshot) := by
  rw [and_iff_left (pinsKept_enriched _ _), panelsOf_enriched, distinctSessions_map_iff]
  have hlive : ∀ panelId, (liveProc projects proc).claudeSession panelId =
      rankedTranscript projects proc panelId := claudeSessionIds_lookup henough
  simp only [hlive]
  constructor
  · intro h
    refine ⟨?_, ?_, ?_⟩
    · intro p hp q hq hne session hpin hpin'
      exact h p hp q hq hne session (by rw [hpin]; rfl) (by rw [hpin']; rfl)
    · intro p hp hnone session hranked q hq hne hpin
      exact h p hp q hq hne session (by rw [hnone]; exact hranked) (by rw [hpin]; rfl)
    · intro p hp q hq hnone hnone' hdirs session hranked hranked'
      have hne : p.id ≠ q.id := fun heq => hdirs (by rw [heq])
      exact h p hp q hq hne session (by rw [hnone]; exact hranked) (by rw [hnone']; exact hranked')
  · intro h p hp q hq hne session hsession hsession'
    cases hpin : p.agentSessionId with
    | some pinned =>
        rw [hpin] at hsession
        obtain rfl : pinned = session := Option.some.inj hsession
        cases hpin' : q.agentSessionId with
        | some pinned' =>
            rw [hpin'] at hsession'
            exact h.pinned p hp q hq hne pinned hpin (hpin'.trans hsession')
        | none =>
            rw [hpin'] at hsession'
            exact h.handed q hq hpin' pinned hsession' p hp hne.symm hpin
    | none =>
        rw [hpin] at hsession
        cases hpin' : q.agentSessionId with
        | some pinned' =>
            rw [hpin'] at hsession'
            exact h.handed p hp hpin session hsession q hq hne (hpin'.trans hsession')
        | none =>
            rw [hpin'] at hsession'
            by_cases hdirs : proc.claudeCwds.lookup p.id = proc.claudeCwds.lookup q.id
            · -- one directory: the ranks differ, and so do the transcripts
              obtain ⟨cwd, hcwd, _⟩ := Option.bind_eq_some_iff.mp hsession
              exact rankedTranscript_inj hne hcwd (hdirs.symm.trans hcwd) hsession hsession'
            · exact h.dirs p hp q hq hpin hpin' hdirs session hsession hsession'

/-! ## §5. Two tabs in one directory. -/

def workProjects : ProjectsDir where
  sessionIds slug := if slug = "-work" then ["s1", "s2"] else []
  distinct slug := by
    split <;> decide

/-- Claudes in two tabs, both in `/work`. -/
def workProc : LocalProc where
  panelCwds  := ∅
  claudeCwds := (AList.singleton 1 "/work").insert 2 "/work"

theorem workProc_enough : EnoughTranscripts workProjects workProc := by
  intro cwd
  by_cases hcwd : cwd = "/work"
  · subst hcwd
    decide
  · have hzero : workProc.claudeCwds.entries.countP (fun e => e.2 = cwd) = 0 := by
      rw [List.countP_eq_zero]
      intro e he
      have hdir : e.2 = "/work" := by
        have hall : ∀ e ∈ workProc.claudeCwds.entries, e.2 = "/work" := by decide
        exact hall e he
      rw [hdir]
      simpa using Ne.symm hcwd
    rw [hzero]
    exact Nat.zero_le _

/-- One workspace with the two tabs; the second was launched through the wrapper. -/
def workSnapshot (pinned : String) : AppSessionSnapshot where
  version := 1
  windows := [{
    tabManager := {
      selectedWorkspaceIndex := some 0
      workspaces := [{
        processTitle := "Terminal", customTitle := none, customColor := none, isPinned := false
        currentDirectory := "/work", focusedPanelId := some 1, groupId := none
        layout := .pane [1, 2] (some 1), remoteConfig := none
        panels := [.fromPanel (.newTerminal 1),
          .fromPanel { Panel.newTerminal 2 with agentSessionId := some pinned }] }]
      groups := [] } }]
  closedWorkspaces := []

theorem resumeIds_distinct_iff_work :
    (DistinctSessions (panelsOf (enrichSnapshotWithLiveProc (liveProc workProjects workProc)
        (workSnapshot "s2"))) ∧
      PinsKept (panelsOf (workSnapshot "s2"))
        (panelsOf (enrichSnapshotWithLiveProc (liveProc workProjects workProc)
          (workSnapshot "s2")))) ↔
      Unshared workProjects workProc (panelsOf (workSnapshot "s2")) :=
  resumeIds_distinct_iff workProc_enough (workSnapshot "s2")

/-- The wrapper pinned the newest transcript, which the first tab is handed too. -/
theorem not_resumeIds_distinct :
    ¬ ∀ (projects : ProjectsDir) (proc : LocalProc) (snapshot : AppSessionSnapshot),
      EnoughTranscripts projects proc →
        DistinctSessions (panelsOf (enrichSnapshotWithLiveProc (liveProc projects proc) snapshot)) ∧
          PinsKept (panelsOf snapshot)
            (panelsOf (enrichSnapshotWithLiveProc (liveProc projects proc) snapshot)) := by
  intro h
  obtain ⟨hdistinct, _⟩ := h workProjects workProc (workSnapshot "s1") workProc_enough
  rw [panelsOf_enriched, distinctSessions_map_iff] at hdistinct
  have hshared := hdistinct (.fromPanel (.newTerminal 1)) (by decide)
    (.fromPanel { Panel.newTerminal 2 with agentSessionId := some "s1" }) (by decide) (by decide)
    "s1"
  have hranked : (liveProc workProjects workProc).claudeSession 1 = some "s1" := by
    show (claudeSessionIds workProjects workProc.claudeCwds).lookup 1 = some "s1"
    rw [claudeSessionIds_lookup workProc_enough]
    decide
  exact hshared hranked rfl

end Jmux.Session
