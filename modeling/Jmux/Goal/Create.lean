/-
  Jmux.Goal.Create — `create_graph` and `ensure_loaded` (`goal/graph.rs`), alone
  and in parallel.

  A request checks the name under the registry's lock, works without it (the
  sidebar group, the seed, the orchestrator's workspace) and takes it again to
  register the graph.  The persisted graphs are loaded once: whoever comes first
  sets a flag and then loads; everybody else goes on at once.

  Main results:
    * `createGraph_unchanged_iff` — exactly when a failed request leaves the
                                     graphs, the groups and the workspaces alone.
    * `createGraph_steps`         — a request that nobody disturbs is its steps,
                                     one after the other.
    * `create_graph_atomic_iff`   — with it, exactly which runs of requests and
                                     loads never drop a live graph.
-/
import Jmux.Goal.LaunchCommand
import Jmux.Goal.Scheduler
import Jmux.Lib.Transition
import Jmux.Session.Groups
import Mathlib.Logic.Function.Basic

namespace Jmux.Goal

open Jmux.Lib
open Jmux.Model (TabManager NewWorkspacePlacement)
open Jmux.Session (AgentLaunch WsDraw graphGroup orchestratorWorkspace)

/-! ## §1. The persisted graphs. -/

/-- The pointer file, and the spec that each `graph.json` decodes to, if any. -/
abbrev Persisted := AList (fun _ : String => Option GraphSpec)

def loadGraph (graphs : GraphRegistry) (name : String) (file : Option GraphSpec) :
    GraphRegistry :=
  match file with
  | none => graphs
  | some spec => if spec.name ≠ name then graphs else graphs.insert name (reconcile spec)

def loadGraphs (persisted : Persisted) (graphs : GraphRegistry) : GraphRegistry :=
  persisted.entries.foldl (fun graphs e => loadGraph graphs e.1 e.2) graphs

/-- The spec that the load finds for a name. -/
def loadable (persisted : Persisted) (name : String) : Option GraphSpec :=
  (persisted.lookup name).join.filter (·.name = name)

theorem lookup_loadGraph (graphs : GraphRegistry) (name n : String) (file : Option GraphSpec) :
    (loadGraph graphs name file).lookup n
      = if n = name then ((file.filter (·.name = name)).map reconcile).or (graphs.lookup n)
        else graphs.lookup n := by
  unfold loadGraph
  cases file with
  | none =>
      show graphs.lookup n = _
      by_cases hn : n = name
      · rw [if_pos hn]
        rfl
      · rw [if_neg hn]
  | some spec =>
      dsimp only
      by_cases hname : spec.name = name
      · rw [if_neg (not_not.mpr hname), AList.lookup_insert_eq_ite]
        simp [Option.filter, hname]
      · rw [if_pos hname]
        simp [Option.filter, hname]

/-- **What is known after the load**: the persisted spec, else what was there. -/
theorem lookup_loadGraphs (persisted : Persisted) (graphs : GraphRegistry) (n : String) :
    (loadGraphs persisted graphs).lookup n
      = ((loadable persisted n).map reconcile).or (graphs.lookup n) := by
  obtain ⟨entries, hnd⟩ := persisted
  show (entries.foldl (fun graphs e => loadGraph graphs e.1 e.2) graphs).lookup n
      = ((((List.dlookup n entries).join).filter (·.name = n)).map reconcile).or (graphs.lookup n)
  induction entries generalizing graphs with
  | nil => rfl
  | cons e es ih =>
      obtain ⟨name, file⟩ := e
      have hnd' := List.nodupKeys_cons.mp hnd
      rw [List.foldl_cons, ih _ hnd'.2, lookup_loadGraph]
      by_cases hn : n = name
      · subst hn
        -- the name comes once, so the rest has nothing for it
        rw [List.dlookup_cons_eq, List.dlookup_eq_none.mpr hnd'.1, if_pos rfl]
        rfl
      · rw [List.dlookup_cons_ne _ _ hn, if_neg hn]

/-! ## §2. One request. -/

/-- What a request reads and writes; `loaded` is the flag of the one-time load. -/
structure Desk where
  loaded : Bool := false
  graphs : GraphRegistry := ∅
  tm : TabManager

def Desk.ensureLoaded (desk : Desk) (persisted : Persisted) : Desk :=
  if desk.loaded then desk
  else { desk with loaded := true, graphs := loadGraphs persisted desk.graphs }

/-- The graph holds its name: it is neither stopped nor complete. -/
def GraphSpec.live (spec : GraphSpec) : Bool :=
  decide (spec.status ≠ .stopped ∧ spec.status ≠ .complete)

/-- A stopped or completed graph releases its name; anything live must be
stopped explicitly first. -/
def releaseName (name : String) (graphs : GraphRegistry) : Except String GraphRegistry :=
  match graphs.lookup name with
  | none => .ok graphs
  | some existing =>
      if existing.live then
        .error ("graph '" ++ name ++ "' is already " ++ graphStateLabel existing.status
          ++ " — jmux graph status " ++ name ++ " to inspect it, jmux graph stop " ++ name
          ++ " to replace it")
      else .ok (graphs.erase name)

/-- A request, and what it meets outside: the directories and the seed file it
creates, the ids it draws. -/
structure CreateCall where
  name : String
  params : CreateParams := {}
  env : CreateEnv
  persisted : Persisted := ∅
  makeDir : Except String Unit := .ok ()
  makeSeedDir : Except String Unit := .ok ()
  writeSeed : Except String Unit := .ok ()
  seedFile : String := ""
  sessionId : String := ""
  home : String := "/"
  groupId : Uuid
  draw : WsDraw
  graphPanel : Uuid
  placement : NewWorkspacePlacement := .atEnd

/-- What a request answers. -/
structure CreatedGraph where
  graph : String
  status : String := "proposing"
  orchestratorWorkspace : Uuid
  runner : String
  deriving DecidableEq

/-- The part of `create_graph` between the name check and the registration. -/
def buildGraph (call : CreateCall) (tm : TabManager) :
    TabManager × Except String (GraphSpec × CreatedGraph) :=
  match call.makeDir with
  | .error e => (tm, .error ("cannot create graph dir: " ++ e))
  | .ok _ =>
      -- the sidebar group comes before the steps that can still fail
      let (tm, gid) := graphGroup tm call.name call.groupId
      let spec := newSpec call.name call.params { call.env with groupId := some gid }
      match resolveRunnerByName (spec.runner.getD "") call.env.settings with
      | .error e => (tm, .error e)
      | .ok (runnerName, runner) =>
          match call.makeSeedDir with
          | .error e => (tm, .error ("cannot create seed dir: " ++ e))
          | .ok _ =>
              match call.writeSeed with
              | .error e => (tm, .error ("cannot write seed: " ++ e))
              | .ok _ =>
                  let mode := resolvePermissionMode (some spec.permissionMode) runner
                    call.env.settings
                  let launch : AgentLaunch :=
                    { draw := call.draw
                      home := call.home
                      cwd := spec.baseCwd
                      title := "graph: " ++ call.name
                      command := launchCommand runner call.sessionId call.seedFile mode
                      sessionId := call.sessionId
                      custom := runner.agent == "custom" }
                  let ws := orchestratorWorkspace launch call.graphPanel call.name (some gid)
                  (tm.addWorkspaceWithPlacement ws call.placement,
                    .ok ({ spec with orchestratorWorkspace := some ws.id },
                      { graph := call.name, orchestratorWorkspace := ws.id, runner := runnerName }))

def createGraph (call : CreateCall) (desk : Desk) : Except String CreatedGraph × Desk :=
  if !validNodeId call.name then
    (.error "graph name must be lowercase letters, digits, hyphens", desk)
  else
    let desk := desk.ensureLoaded call.persisted
    match releaseName call.name desk.graphs with
    | .error e => (.error e, desk)
    | .ok graphs =>
        match buildGraph call desk.tm with
        | (tm, .error e) => (.error e, { desk with graphs := graphs, tm := tm })
        | (tm, .ok (spec, created)) =>
            (.ok created, { desk with graphs := graphs.insert call.name spec, tm := tm })

/-! ## §3. What a failed request leaves. -/

/-- The graphs, the groups and the workspaces are what they were. -/
structure Unchanged (before after : Desk) : Prop where
  graphs : ∀ n, after.graphs.lookup n = before.graphs.lookup n
  groups : after.tm.groups = before.tm.groups
  workspaces : after.tm.workspaces = before.tm.workspaces

namespace Desk

/-- The graph of a name, once the persisted graphs are loaded. -/
def known (desk : Desk) (persisted : Persisted) (n : String) : Option GraphSpec :=
  if desk.loaded then desk.graphs.lookup n
  else ((loadable persisted n).map reconcile).or (desk.graphs.lookup n)

/-- The load has nothing new for the name. -/
def Settled (desk : Desk) (persisted : Persisted) (n : String) : Prop :=
  desk.loaded = true ∨
    ∀ spec, loadable persisted n = some spec → desk.graphs.lookup n = some (reconcile spec)

theorem lookup_ensureLoaded (desk : Desk) (persisted : Persisted) (n : String) :
    (desk.ensureLoaded persisted).graphs.lookup n = desk.known persisted n := by
  unfold ensureLoaded known
  by_cases h : desk.loaded = true
  · rw [if_pos h, if_pos h]
  · rw [if_neg h, if_neg h]
    exact lookup_loadGraphs persisted desk.graphs n

@[simp] theorem ensureLoaded_tm (desk : Desk) (persisted : Persisted) :
    (desk.ensureLoaded persisted).tm = desk.tm := by
  unfold ensureLoaded
  split <;> rfl

theorem known_eq_iff (desk : Desk) (persisted : Persisted) (n : String) :
    desk.known persisted n = desk.graphs.lookup n ↔ desk.Settled persisted n := by
  unfold known Settled
  by_cases h : desk.loaded = true
  · rw [if_pos h]
    exact iff_of_true rfl (.inl h)
  · rw [if_neg h]
    cases hl : loadable persisted n with
    | none =>
        refine iff_of_true rfl (.inr ?_)
        intro spec hspec
        cases hspec
    | some spec =>
        constructor
        · intro heq
          refine .inr fun spec' hspec' => ?_
          obtain rfl := Option.some.inj hspec'
          exact heq.symm
        · rintro (hloaded | hsame)
          · exact absurd hloaded h
          · exact (hsame spec rfl).symm

end Desk

/-- The registry after a name that was not live has been released. -/
theorem lookup_releaseName {name : String} {graphs graphs' : GraphRegistry}
    (h : releaseName name graphs = .ok graphs') (n : String) :
    graphs'.lookup n = if n = name then none else graphs.lookup n := by
  unfold releaseName at h
  cases hl : graphs.lookup name with
  | none =>
      rw [hl] at h
      obtain rfl := Except.ok.inj h
      by_cases hn : n = name
      · rw [if_pos hn, hn, hl]
      · rw [if_neg hn]
  | some existing =>
      rw [hl] at h
      dsimp only at h
      split at h
      · cases h
      · obtain rfl := Except.ok.inj h
        exact AList.lookup_erase_eq_ite name n graphs

/-- The name check refuses exactly the live graphs. -/
theorem releaseName_error_iff (name : String) (graphs : GraphRegistry) :
    (∃ e, releaseName name graphs = .error e) ↔ (graphs.lookup name).any (·.live) = true := by
  unfold releaseName
  cases graphs.lookup name with
  | none => simp
  | some existing =>
      dsimp only
      cases h : existing.live with
      | true => simp [h]
      | false => simp [h]

/-- Every step of a request that can fail succeeds. -/
def CreateCall.Succeeds (call : CreateCall) : Prop :=
  call.makeDir.isOk = true ∧
    (resolveRunnerByName (call.params.runner.getD "") call.env.settings).isOk = true ∧
    call.makeSeedDir.isOk = true ∧ call.writeSeed.isOk = true

instance (call : CreateCall) : Decidable call.Succeeds :=
  inferInstanceAs (Decidable (_ ∧ _ ∧ _ ∧ _))

/-- **What the middle part does**: it succeeds, or it fails with the sidebar as
it was or with the group of the graph in it. -/
theorem buildGraph_cases (call : CreateCall) (tm : TabManager) :
    (call.Succeeds ∧ ∃ spec created, (buildGraph call tm).2 = .ok (spec, created)) ∨
    (¬ call.Succeeds ∧ ∃ e, buildGraph call tm
      = (if call.makeDir.isOk then (graphGroup tm call.name call.groupId).1 else tm, .error e)) := by
  unfold CreateCall.Succeeds buildGraph
  cases call.makeDir with
  | error e => exact .inr ⟨by simp [Except.isOk, Except.toBool], _, rfl⟩
  | ok u =>
      dsimp only [newSpec]
      cases resolveRunnerByName (call.params.runner.getD "") call.env.settings with
      | error e => exact .inr ⟨by simp [Except.isOk, Except.toBool], e, rfl⟩
      | ok r =>
          cases call.makeSeedDir with
          | error e => exact .inr ⟨by simp [Except.isOk, Except.toBool], _, rfl⟩
          | ok u =>
              cases call.writeSeed with
              | error e => exact .inr ⟨by simp [Except.isOk, Except.toBool], _, rfl⟩
              | ok u => exact .inl ⟨⟨rfl, rfl, rfl, rfl⟩, _, _, rfl⟩

@[simp] theorem graphGroup_workspaces (tm : TabManager) (name : String) (id : Uuid) :
    (graphGroup tm name id).1.workspaces = tm.workspaces := by
  unfold graphGroup
  split <;> rfl

theorem graphGroup_groups_iff (tm : TabManager) (name : String) (id : Uuid) :
    (graphGroup tm name id).1.groups = tm.groups ↔ ∃ g ∈ tm.groups, g.name = name := by
  unfold graphGroup
  cases hf : tm.groups.find? (·.name = name) with
  | some g =>
      refine iff_of_true rfl ⟨g, List.mem_of_find?_eq_some hf, ?_⟩
      simpa using List.find?_some hf
  | none =>
      refine iff_of_false ?_ ?_
      · intro h
        have hlen := congrArg List.length h
        simp [TabManager.createGroup] at hlen
      · rintro ⟨g, hg, hname⟩
        have hno := List.find?_eq_none.mp hf g hg
        simp [hname] at hno

/-- When a failure of the request is harmless, or none can happen. -/
def CreateCall.FailsSafe (call : CreateCall) (desk : Desk) : Prop :=
  validNodeId call.name = false ∨
  ((desk.known call.persisted call.name).any (·.live) = true ∧
    ∀ n, desk.Settled call.persisted n) ∨
  ((desk.known call.persisted call.name).any (·.live) = false ∧
    (call.Succeeds ∨
      (desk.graphs.lookup call.name = none ∧
        (∀ n, n ≠ call.name → desk.Settled call.persisted n) ∧
        (call.makeDir.isOk = false ∨ ∃ g ∈ desk.tm.groups, g.name = call.name))))

/-- **A failed request leaves everything as it was exactly when it is `FailsSafe`.** -/
theorem createGraph_unchanged_iff (call : CreateCall) (desk : Desk) :
    (∀ e, (createGraph call desk).1 = .error e → Unchanged desk (createGraph call desk).2) ↔
      call.FailsSafe desk := by
  unfold createGraph CreateCall.FailsSafe
  by_cases hvalid : validNodeId call.name = true
  swap
  · have hinvalid : validNodeId call.name = false := by simpa using hvalid
    rw [hinvalid]
    refine iff_of_true ?_ (.inl rfl)
    intro _ _
    exact ⟨fun _ => rfl, rfl, rfl⟩
  have hknown := desk.lookup_ensureLoaded call.persisted
  simp only [hvalid, Bool.not_true, Bool.false_eq_true, if_false, Bool.true_eq_false, false_or]
  have hlive := releaseName_error_iff call.name (desk.ensureLoaded call.persisted).graphs
  rw [hknown] at hlive
  cases hrel : releaseName call.name (desk.ensureLoaded call.persisted).graphs with
  | error e =>
      -- the name is taken: only the load has had an effect
      have hany : (desk.known call.persisted call.name).any (·.live) = true :=
        hlive.mp ⟨e, hrel⟩
      rw [hany]
      simp only [Bool.true_eq_false, false_and, or_false, true_and]
      constructor
      · intro h n
        have hun := (h e rfl).graphs n
        rw [hknown] at hun
        exact (desk.known_eq_iff call.persisted n).mp hun
      · intro h _ _
        refine ⟨fun n => ?_, ?_, ?_⟩
        · rw [hknown]
          exact (desk.known_eq_iff call.persisted n).mpr (h n)
        · rw [Desk.ensureLoaded_tm]
        · rw [Desk.ensureLoaded_tm]
  | ok graphs =>
      have hany : (desk.known call.persisted call.name).any (·.live) = false := by
        have hno : ¬ (desk.known call.persisted call.name).any (·.live) = true := by
          intro h
          obtain ⟨e, he⟩ := hlive.mpr h
          rw [hrel] at he
          cases he
        simpa using hno
      rw [hany]
      simp only [Bool.false_eq_true, false_and, false_or, true_and]
      rcases buildGraph_cases call (desk.ensureLoaded call.persisted).tm with
        ⟨hok, spec, created, hb⟩ | ⟨hfail, e, hb⟩
      · -- nothing fails
        refine iff_of_true ?_ (.inl hok)
        cases hbuild : buildGraph call (desk.ensureLoaded call.persisted).tm with
        | mk tm r =>
            rw [hbuild] at hb
            obtain rfl : r = .ok (spec, created) := hb
            intro e he
            cases he
      · rw [Desk.ensureLoaded_tm] at hb
        simp only [Desk.ensureLoaded_tm, hb, hfail, false_or]
        have hgraphs : (∀ n, graphs.lookup n = desk.graphs.lookup n) ↔
            desk.graphs.lookup call.name = none ∧
              ∀ n, n ≠ call.name → desk.Settled call.persisted n := by
          constructor
          · intro h
            refine ⟨?_, fun n hn => ?_⟩
            · rw [← h, lookup_releaseName hrel, if_pos rfl]
            · rw [← desk.known_eq_iff, ← hknown, ← h, lookup_releaseName hrel, if_neg hn]
          · rintro ⟨hnone, hrest⟩ n
            rw [lookup_releaseName hrel]
            by_cases hn : n = call.name
            · rw [if_pos hn, hn, hnone]
            · rw [if_neg hn, hknown]
              exact (desk.known_eq_iff call.persisted n).mpr (hrest n hn)
        have hgroups : (if call.makeDir.isOk = true then
              (graphGroup desk.tm call.name call.groupId).1 else desk.tm).groups = desk.tm.groups ↔
            call.makeDir.isOk = false ∨ ∃ g ∈ desk.tm.groups, g.name = call.name := by
          cases call.makeDir.isOk with
          | false => simp
          | true => simpa using graphGroup_groups_iff desk.tm call.name call.groupId
        constructor
        · intro h
          have hun := h e rfl
          exact ⟨(hgraphs.mp hun.graphs).1, (hgraphs.mp hun.graphs).2, hgroups.mp hun.groups⟩
        · rintro ⟨hnone, hrest, hgrp⟩ _ _
          refine ⟨hgraphs.mpr ⟨hnone, hrest⟩, hgroups.mpr hgrp, ?_⟩
          show (if call.makeDir.isOk = true then (graphGroup desk.tm call.name call.groupId).1
            else desk.tm).workspaces = desk.tm.workspaces
          split
          · exact graphGroup_workspaces _ _ _
          · rfl

/-! ## §4. Requests and loads in parallel. -/

/-- How far a thread is.  `overtaken` records that a live graph of the request's
name has come into the registry since the name check. -/
inductive CreateThread
  | idle
  /-- The thread has set the flag; without a call it is the scheduler's tick. -/
  | loading (call : Option CreateCall)
  | checking (call : CreateCall)
  | released (call : CreateCall) (overtaken : Bool)
  | built (call : CreateCall) (spec : GraphSpec) (overtaken : Bool)

namespace CreateThread

/-- The name a thread is about to register, and whether it has been overtaken. -/
def waiting : CreateThread → Option (String × Bool)
  | released call overtaken => some (call.name, overtaken)
  | built call _ overtaken => some (call.name, overtaken)
  | _ => none

/-- Live graphs with these names have come into the registry. -/
def mark (names : String → Bool) : CreateThread → CreateThread
  | released call overtaken => released call (overtaken || names call.name)
  | built call spec overtaken => built call spec (overtaken || names call.name)
  | other => other

theorem waiting_mark (names : String → Bool) (thread : CreateThread) :
    (thread.mark names).waiting = thread.waiting.map fun e => (e.1, e.2 || names e.1) := by
  cases thread <;> rfl

end CreateThread

/-- `dropped` logs the live graphs that something was registered over. -/
structure CreateWorld where
  desk : Desk
  threads : Nat → CreateThread := fun _ => .idle
  dropped : List GraphSpec := []

inductive CreateAct
  | request (thread : Nat) (call : CreateCall)
  | tick (thread : Nat)
  | load (thread : Nat) (persisted : Persisted)
  | check (thread : Nat)
  | build (thread : Nat)
  | insert (thread : Nat)

def CreateAct.thread : CreateAct → Nat
  | request t _ | tick t | load t _ | check t | build t | insert t => t

/-- The live graphs that a load registers something over. -/
def overwrittenBy (persisted : Persisted) (graphs : GraphRegistry) : List GraphSpec :=
  persisted.entries.filterMap fun e =>
    if (loadable persisted e.1).isSome then (graphs.lookup e.1).filter (·.live) else none

namespace CreateWorld

/-- A live graph has the name. -/
def live (w : CreateWorld) (n : String) : Bool := (w.desk.graphs.lookup n).any (·.live)

/-- One thread goes on, the others are told which names have come. -/
def goOn (w : CreateWorld) (names : String → Bool) (t : Nat) (new : CreateThread) :
    Nat → CreateThread :=
  Function.update (fun u => (w.threads u).mark names) t new

def step (w : CreateWorld) : CreateAct → Option CreateWorld
  | .request t call =>
      match w.threads t with
      | .idle =>
          if !validNodeId call.name then some w
          -- `LOADED.swap(true)`: only the first one loads, nobody waits for it
          else if w.desk.loaded then
            some { w with threads := w.goOn (fun _ => false) t (.checking call) }
          else
            some { w with
              desk := { w.desk with loaded := true }
              threads := w.goOn (fun _ => false) t (.loading (some call)) }
      | _ => none
  | .tick t =>
      match w.threads t with
      | .idle =>
          if w.desk.loaded then some w
          else
            some { w with
              desk := { w.desk with loaded := true }
              threads := w.goOn (fun _ => false) t (.loading none) }
      | _ => none
  | .load t persisted =>
      match w.threads t with
      | .loading call =>
          let names := fun n => ((loadable persisted n).map reconcile).any (·.live)
          some { w with
            desk := { w.desk with graphs := loadGraphs persisted w.desk.graphs }
            threads := w.goOn names t (match call with
              | some call => .checking call
              | none => .idle)
            dropped := w.dropped ++ overwrittenBy persisted w.desk.graphs }
      | _ => none
  | .check t =>
      match w.threads t with
      | .checking call =>
          match releaseName call.name w.desk.graphs with
          | .error _ => some { w with threads := w.goOn (fun _ => false) t .idle }
          | .ok graphs =>
              some { w with
                desk := { w.desk with graphs := graphs }
                threads := w.goOn (fun _ => false) t (.released call false) }
      | _ => none
  | .build t =>
      match w.threads t with
      | .released call overtaken =>
          let built := buildGraph call w.desk.tm
          some { w with
            desk := { w.desk with tm := built.1 }
            threads := w.goOn (fun _ => false) t (match built.2 with
              | .ok (spec, _) => .built call spec overtaken
              | .error _ => .idle) }
      | _ => none
  | .insert t =>
      match w.threads t with
      | .built call spec _ =>
          some { w with
            desk := { w.desk with graphs := w.desk.graphs.insert call.name spec }
            threads := w.goOn (fun n => decide (n = call.name)) t .idle
            dropped := w.dropped ++ ((w.desk.graphs.lookup call.name).filter (·.live)).toList }
      | _ => none

/-- A request inserts only if it has not been overtaken since its name check, and
the load finds no live graph under a name that it loads. -/
def NotOvertaken (w : CreateWorld) : CreateAct → Prop
  | .insert t => ∀ call spec overtaken, w.threads t = .built call spec overtaken →
      overtaken = false
  | .load _ persisted => ∀ n, (loadable persisted n).isSome = true → w.live n = false
  | _ => True

/-! ## §5. What a thread knows about its name. -/

/-- A thread that has not been overtaken would register over nothing live; one
that has been would drop a graph. -/
structure Good (w : CreateWorld) : Prop where
  fresh : ∀ t n, (w.threads t).waiting = some (n, false) → w.live n = false
  overtaken : w.dropped = [] → ∀ t n, (w.threads t).waiting = some (n, true) → w.live n = true
  built : ∀ t call spec overtaken, w.threads t = .built call spec overtaken → spec.live = true

/-- What a step has to show: which names have come, and what its own thread knows. -/
theorem Good.next {w w' : CreateWorld} (hg : w.Good) (names : String → Bool) {t : Nat}
    {new : CreateThread} (hthreads : w'.threads = w.goOn names t new)
    (hdropped : w'.dropped = [] → w.dropped = [])
    (hfresh : ∀ n, names n = false → w.live n = false → w'.live n = false)
    (hnames : ∀ n, names n = true → w'.live n = true)
    (hkeeps : w'.dropped = [] → ∀ n, w.live n = true → w'.live n = true)
    (hnew : ∀ n ov, new.waiting = some (n, ov) →
      (ov = false → w'.live n = false) ∧ (ov = true → w'.dropped = [] → w'.live n = true))
    (hbuilt : ∀ call spec ov, new = .built call spec ov → spec.live = true) : w'.Good := by
  refine ⟨?_, ?_, ?_⟩
  · intro u n hw
    rw [hthreads] at hw
    unfold goOn at hw
    by_cases hu : u = t
    · subst hu
      rw [Function.update_self] at hw
      exact (hnew n false hw).1 rfl
    · rw [Function.update_of_ne hu, CreateThread.waiting_mark] at hw
      obtain ⟨⟨m, ov⟩, hm, heq⟩ := Option.map_eq_some_iff.mp hw
      obtain ⟨rfl, hov⟩ := Prod.mk.inj heq
      obtain ⟨rfl, hno⟩ := Bool.or_eq_false_iff.mp hov
      exact hfresh m hno (hg.fresh u m hm)
  · intro hd u n hw
    rw [hthreads] at hw
    unfold goOn at hw
    by_cases hu : u = t
    · subst hu
      rw [Function.update_self] at hw
      exact (hnew n true hw).2 rfl hd
    · rw [Function.update_of_ne hu, CreateThread.waiting_mark] at hw
      obtain ⟨⟨m, ov⟩, hm, heq⟩ := Option.map_eq_some_iff.mp hw
      obtain ⟨rfl, hov⟩ := Prod.mk.inj heq
      cases Bool.or_eq_true_iff.mp hov with
      | inl hold =>
          obtain rfl : ov = true := hold
          exact hkeeps hd m (hg.overtaken (hdropped hd) u m hm)
      | inr hname => exact hnames m hname
  · intro u call spec ov hw
    rw [hthreads] at hw
    unfold goOn at hw
    by_cases hu : u = t
    · subst hu
      rw [Function.update_self] at hw
      exact hbuilt call spec ov hw
    · rw [Function.update_of_ne hu] at hw
      cases hth : w.threads u with
      | built call' spec' ov' =>
          rw [hth] at hw
          obtain ⟨_, rfl, _⟩ := CreateThread.built.inj hw
          exact hg.built u call' spec' ov' hth
      | idle => rw [hth] at hw; cases hw
      | loading c => rw [hth] at hw; cases hw
      | checking c => rw [hth] at hw; cases hw
      | released c o => rw [hth] at hw; cases hw

/-- A step after which the same graphs are live. -/
theorem Good.sameLive {w w' : CreateWorld} (hg : w.Good) {t : Nat} {new : CreateThread}
    (hthreads : w'.threads = w.goOn (fun _ => false) t new) (hdropped : w'.dropped = w.dropped)
    (hlive : ∀ n, w'.live n = w.live n)
    (hnew : ∀ n ov, new.waiting = some (n, ov) →
      (ov = false → w.live n = false) ∧ (ov = true → w.dropped = [] → w.live n = true))
    (hbuilt : ∀ call spec ov, new = .built call spec ov → spec.live = true) : w'.Good := by
  refine hg.next (fun _ => false) hthreads (fun h => hdropped ▸ h) ?_ ?_ ?_ ?_ hbuilt
  · intro n _ h
    rw [hlive, h]
  · intro n h
    cases h
  · intro _ n h
    rw [hlive, h]
  · intro n ov hw
    rw [hlive, hdropped]
    exact hnew n ov hw

/-- The graph of a request waits for its plan. -/
theorem buildGraph_live {call : CreateCall} {tm : TabManager} {spec : GraphSpec}
    {created : CreatedGraph} (h : (buildGraph call tm).2 = .ok (spec, created)) :
    spec.live = true := by
  unfold buildGraph at h
  split at h
  · cases h
  · dsimp only at h
    split at h
    · cases h
    · split at h
      · cases h
      · split at h
        · cases h
        · obtain ⟨rfl, _⟩ := Prod.mk.inj (Except.ok.inj h)
          rfl

theorem overwrittenBy_eq_nil_iff (persisted : Persisted) (graphs : GraphRegistry) :
    overwrittenBy persisted graphs = [] ↔
      ∀ n, (loadable persisted n).isSome = true → (graphs.lookup n).any (·.live) = false := by
  unfold overwrittenBy
  rw [List.filterMap_eq_nil_iff]
  constructor
  · intro h n hn
    -- a name that can be loaded is in the pointer file
    have hmem : ∃ file, persisted.lookup n = some file := by
      unfold loadable at hn
      cases hl : persisted.lookup n with
      | none =>
          rw [hl] at hn
          cases hn
      | some file => exact ⟨file, rfl⟩
    obtain ⟨file, hfile⟩ := hmem
    have hnone := h ⟨n, file⟩ ((AList.mem_entries_iff_lookup persisted n file).mpr hfile)
    rw [if_pos hn] at hnone
    cases hg : graphs.lookup n with
    | none => rfl
    | some spec =>
        rw [hg] at hnone
        have hdead : spec.live ≠ true := by simpa [Option.filter] using hnone
        simpa using hdead
  · intro h e _
    split
    next hload =>
      have hdead := h e.1 hload
      cases hg : graphs.lookup e.1 with
      | none => rfl
      | some spec =>
          rw [hg] at hdead
          have hdead : spec.live = false := hdead
          simp [Option.filter, hdead]
    · rfl

/-! ## §6. One step. -/

theorem good_load {w : CreateWorld} (hg : w.Good) {t : Nat} {persisted : Persisted}
    (new : CreateThread) (hnew : new.waiting = none) :
    Good { w with
      desk := { w.desk with graphs := loadGraphs persisted w.desk.graphs }
      threads := w.goOn (fun n => ((loadable persisted n).map reconcile).any (·.live)) t new
      dropped := w.dropped ++ overwrittenBy persisted w.desk.graphs } := by
  have hlive : ∀ n, ((loadGraphs persisted w.desk.graphs).lookup n).any (·.live)
      = (((loadable persisted n).map reconcile).or (w.desk.graphs.lookup n)).any (·.live) := by
    intro n
    rw [lookup_loadGraphs]
  refine hg.next _ rfl (fun h => (List.append_eq_nil_iff.mp h).1) ?_ ?_ ?_ ?_ ?_
  · intro n hname hdead
    show ((loadGraphs persisted w.desk.graphs).lookup n).any (·.live) = false
    rw [hlive]
    cases hl : loadable persisted n with
    | none => exact hdead
    | some spec =>
        rw [hl] at hname
        exact hname
  · intro n hname
    show ((loadGraphs persisted w.desk.graphs).lookup n).any (·.live) = true
    rw [hlive]
    cases hl : loadable persisted n with
    | none =>
        rw [hl] at hname
        cases hname
    | some spec =>
        rw [hl] at hname
        exact hname
  · intro hd n hn
    show ((loadGraphs persisted w.desk.graphs).lookup n).any (·.live) = true
    rw [hlive]
    cases hl : loadable persisted n with
    | none => exact hn
    | some spec =>
        -- a live graph under a loaded name would have been dropped
        have hnone := (overwrittenBy_eq_nil_iff persisted w.desk.graphs).mp
          (List.append_eq_nil_iff.mp hd).2 n (by rw [hl]; rfl)
        unfold live at hn
        rw [hnone] at hn
        cases hn
  · intro n ov hw
    rw [hnew] at hw
    cases hw
  · intro call spec ov hb
    rw [hb] at hnew
    cases hnew

theorem good_insert {w : CreateWorld} (hg : w.Good) {t : Nat} {call : CreateCall}
    {spec : GraphSpec} {ov : Bool} (hth : w.threads t = .built call spec ov) :
    Good { w with
      desk := { w.desk with graphs := w.desk.graphs.insert call.name spec }
      threads := w.goOn (fun n => decide (n = call.name)) t .idle
      dropped := w.dropped ++ ((w.desk.graphs.lookup call.name).filter (·.live)).toList } := by
  have hspec : spec.live = true := hg.built t call spec ov hth
  have hlive : ∀ n, ((w.desk.graphs.insert call.name spec).lookup n).any (·.live)
      = if n = call.name then true else w.live n := by
    intro n
    rw [AList.lookup_insert_eq_ite]
    by_cases hn : n = call.name
    · rw [if_pos hn, if_pos hn]
      exact hspec
    · rw [if_neg hn, if_neg hn]
      rfl
  refine hg.next (fun n => decide (n = call.name)) rfl
    (fun h => (List.append_eq_nil_iff.mp h).1) ?_ ?_ ?_ ?_ ?_
  · intro n hname hdead
    have hne : n ≠ call.name := by simpa using hname
    exact (hlive n).trans (by rw [if_neg hne, hdead])
  · intro n hname
    have heq : n = call.name := by simpa using hname
    exact (hlive n).trans (by rw [if_pos heq])
  · intro _ n hn
    refine (hlive n).trans ?_
    split
    · rfl
    · exact hn
  · intro n ov hw
    cases hw
  · intro _ _ _ hb
    cases hb

/-- A name that passes the check is not live, so the release changes no live graph. -/
theorem good_check {w : CreateWorld} (hg : w.Good) {t : Nat} {call : CreateCall}
    {graphs : GraphRegistry} (hrel : releaseName call.name w.desk.graphs = .ok graphs) :
    Good { w with
      desk := { w.desk with graphs := graphs }
      threads := w.goOn (fun _ => false) t (.released call false) } := by
  have hdead : w.live call.name = false := by
    have hno : ¬ (w.desk.graphs.lookup call.name).any (·.live) = true := by
      intro h
      obtain ⟨e, he⟩ := (releaseName_error_iff call.name w.desk.graphs).mpr h
      rw [hrel] at he
      cases he
    unfold live
    simpa using hno
  refine hg.sameLive rfl rfl ?_ ?_ ?_
  · intro n
    show (graphs.lookup n).any (·.live) = w.live n
    rw [lookup_releaseName hrel]
    by_cases hn : n = call.name
    · rw [if_pos hn, hn, hdead]
      rfl
    · rw [if_neg hn]
      rfl
  · rintro n ov ⟨⟩
    exact ⟨fun _ => hdead, fun h => (by cases h)⟩
  · intro _ _ _ hb
    cases hb

theorem step_good {w w' : CreateWorld} {a : CreateAct} (hg : w.Good)
    (hs : w.step a = some w') : w'.Good := by
  -- a step that only moves its own thread to a state without a name
  have hmove : ∀ {t : Nat} {new : CreateThread} {loaded : Bool}, new.waiting = none →
      Good { w with
        desk := { w.desk with loaded := loaded }
        threads := w.goOn (fun _ => false) t new } := by
    intro t new loaded hnew
    refine hg.sameLive rfl rfl (fun _ => rfl) ?_ ?_
    · intro n ov hw
      rw [hnew] at hw
      cases hw
    · intro _ _ _ hb
      rw [hb] at hnew
      cases hnew
  unfold step at hs
  cases a with
  | request t call =>
      dsimp only at hs
      split at hs
      · split at hs
        · obtain rfl := Option.some.inj hs
          exact hg
        · split at hs
          · obtain rfl := Option.some.inj hs
            exact @hmove t (.checking call) w.desk.loaded rfl
          · obtain rfl := Option.some.inj hs
            exact hmove rfl
      · cases hs
  | tick t =>
      dsimp only at hs
      split at hs
      · split at hs
        · obtain rfl := Option.some.inj hs
          exact hg
        · obtain rfl := Option.some.inj hs
          exact hmove rfl
      · cases hs
  | load t persisted =>
      dsimp only at hs
      split at hs
      next call hth =>
        obtain rfl := Option.some.inj hs
        refine good_load hg _ ?_
        cases call with
        | none => rfl
        | some call => rfl
      · cases hs
  | check t =>
      dsimp only at hs
      split at hs
      next call hth =>
        split at hs
        · obtain rfl := Option.some.inj hs
          exact @hmove t .idle w.desk.loaded rfl
        next graphs hrel =>
          obtain rfl := Option.some.inj hs
          exact good_check hg hrel
      · cases hs
  | build t =>
      dsimp only at hs
      split at hs
      next call ov hth =>
        obtain rfl := Option.some.inj hs
        refine hg.sameLive rfl rfl (fun _ => rfl) ?_ ?_
        · intro n ov' hw
          -- the thread keeps its name and what it knows about it
          have hold : (w.threads t).waiting = some (n, ov') := by
            rw [hth]
            split at hw
            · exact hw
            · cases hw
          refine ⟨?_, ?_⟩
          · rintro rfl
            exact hg.fresh t n hold
          · rintro rfl hd
            exact hg.overtaken hd t n hold
        · intro call' spec' ov' hb
          split at hb
          next spec created hbuild =>
            obtain ⟨_, rfl, _⟩ := CreateThread.built.inj hb
            exact buildGraph_live hbuild
          · cases hb
      · cases hs
  | insert t =>
      dsimp only at hs
      split at hs
      next call spec ov hth =>
        obtain rfl := Option.some.inj hs
        exact good_insert hg hth
      · cases hs

/-- **A step drops a live graph exactly when it is not `NotOvertaken`.** -/
theorem step_dropped {w w' : CreateWorld} {a : CreateAct} (hg : w.Good) (hd : w.dropped = [])
    (hs : w.step a = some w') : w'.dropped = [] ↔ w.NotOvertaken a := by
  unfold step at hs
  cases a with
  | request t call =>
      refine iff_of_true ?_ trivial
      dsimp only at hs
      split at hs
      · split at hs
        · exact (Option.some.inj hs) ▸ hd
        · split at hs <;> exact (Option.some.inj hs) ▸ hd
      · cases hs
  | tick t =>
      refine iff_of_true ?_ trivial
      dsimp only at hs
      split at hs
      · split at hs <;> exact (Option.some.inj hs) ▸ hd
      · cases hs
  | load t persisted =>
      dsimp only at hs
      split at hs
      · obtain rfl := Option.some.inj hs
        show w.dropped ++ overwrittenBy persisted w.desk.graphs = [] ↔ _
        rw [hd, List.nil_append, overwrittenBy_eq_nil_iff]
        rfl
      · cases hs
  | check t =>
      refine iff_of_true ?_ trivial
      dsimp only at hs
      split at hs
      · split at hs <;> exact (Option.some.inj hs) ▸ hd
      · cases hs
  | build t =>
      refine iff_of_true ?_ trivial
      dsimp only at hs
      split at hs
      · exact (Option.some.inj hs) ▸ hd
      · cases hs
  | insert t =>
      dsimp only at hs
      split at hs
      next call spec ov hth =>
        obtain rfl := Option.some.inj hs
        show w.dropped ++ ((w.desk.graphs.lookup call.name).filter (·.live)).toList = [] ↔ _
        have hlive : ((w.desk.graphs.lookup call.name).filter (·.live)).toList = [] ↔
            w.live call.name = false := by
          unfold live
          cases w.desk.graphs.lookup call.name with
          | none => exact iff_of_true rfl rfl
          | some s => cases hl : s.live <;> simp [Option.filter, hl]
        rw [hd, List.nil_append, hlive]
        -- overtaken or not, the thread knows whether the name is live
        cases ov with
        | false =>
            refine iff_of_true ?_ ?_
            · exact hg.fresh t call.name (by rw [hth]; rfl)
            · intro call' spec' ov' hb
              rw [hth] at hb
              exact ((CreateThread.built.inj hb).2.2).symm
        | true =>
            refine iff_of_false ?_ ?_
            · have htrue := hg.overtaken hd t call.name (by rw [hth]; rfl)
              rw [htrue]
              decide
            · intro h
              have hno := h call spec true hth
              cases hno
      · cases hs

/-! ## §7. A thread alone. -/

/-- One thread takes `w` to `w'`, and nobody comes in between. -/
def Alone (t : Nat) (w w' : CreateWorld) : Prop :=
  ∃ acts : List CreateAct, (∀ a ∈ acts, a.thread = t) ∧ exec step w acts = some w'

theorem alone_step {t : Nat} {w w' : CreateWorld} (a : CreateAct) (ha : a.thread = t)
    (hs : w.step a = some w') : Alone t w w' :=
  ⟨[a], fun _ hb => (List.mem_singleton.mp hb) ▸ ha, by simp [exec, hs]⟩

theorem Alone.trans {t : Nat} {w₁ w₂ w₃ : CreateWorld} (h : Alone t w₁ w₂) (h' : Alone t w₂ w₃) :
    Alone t w₁ w₃ := by
  obtain ⟨as, has, hexa⟩ := h
  obtain ⟨bs, hbs, hexb⟩ := h'
  refine ⟨as ++ bs, ?_, exec_append.mpr ⟨w₂, hexa, hexb⟩⟩
  intro a ha
  rcases List.mem_append.mp ha with ha | ha
  · exact has a ha
  · exact hbs a ha

/-- The load, or the look at the flag. -/
theorem alone_ensureLoaded {call : CreateCall} {w : CreateWorld} {t : Nat}
    (hidle : w.threads t = .idle) (hvalid : validNodeId call.name = true) :
    ∃ w', Alone t w w' ∧ w'.desk = w.desk.ensureLoaded call.persisted ∧
      w'.threads t = .checking call := by
  unfold Desk.ensureLoaded
  by_cases h : w.desk.loaded = true
  · refine ⟨{ w with threads := w.goOn (fun _ => false) t (.checking call) },
      alone_step (.request t call) rfl ?_, ?_, ?_⟩
    · simp [step, hidle, hvalid, h]
    · rw [if_pos h]
    · simp [goOn]
  · have hfirst : ∃ w₁, w.step (.request t call) = some w₁ ∧
        w₁.desk = { w.desk with loaded := true } ∧ w₁.threads t = .loading (some call) := by
      simp only [step, hidle, hvalid, h, Bool.not_true, Bool.false_eq_true, if_false]
      exact ⟨_, rfl, rfl, by simp [goOn]⟩
    obtain ⟨w₁, hrequest, hdesk₁, hth⟩ := hfirst
    have hsecond : ∃ w₂, w₁.step (.load t call.persisted) = some w₂ ∧
        w₂.desk = { w₁.desk with graphs := loadGraphs call.persisted w₁.desk.graphs } ∧
        w₂.threads t = .checking call := by
      simp only [step, hth]
      exact ⟨_, rfl, rfl, by simp [goOn]⟩
    obtain ⟨w₂, hload, hdesk, hth₂⟩ := hsecond
    refine ⟨w₂, (alone_step (.request t call) rfl hrequest).trans
      (alone_step (.load t call.persisted) rfl hload), ?_, hth₂⟩
    rw [if_neg h, hdesk, hdesk₁]

/-- The middle part and the registration. -/
theorem alone_build {call : CreateCall} {w : CreateWorld} {t : Nat} {ov : Bool}
    (hth : w.threads t = .released call ov) :
    ∃ w', Alone t w w' ∧ w'.threads t = .idle ∧
      w'.desk = match buildGraph call w.desk.tm with
        | (tm, .error _) => { w.desk with tm := tm }
        | (tm, .ok (spec, _)) =>
            { w.desk with graphs := w.desk.graphs.insert call.name spec, tm := tm } := by
  have hfirst : ∃ w₁, w.step (.build t) = some w₁ ∧
      w₁.desk = { w.desk with tm := (buildGraph call w.desk.tm).1 } ∧
      w₁.threads t = match (buildGraph call w.desk.tm).2 with
        | .ok (spec, _) => .built call spec ov
        | .error _ => .idle := by
    simp only [step, hth]
    exact ⟨_, rfl, rfl, by simp [goOn]⟩
  obtain ⟨w₁, hbuild, hdesk, hth₁⟩ := hfirst
  cases hb : buildGraph call w.desk.tm with
  | mk tm r =>
      rw [hb] at hdesk hth₁
      cases r with
      | error e => exact ⟨w₁, alone_step (.build t) rfl hbuild, hth₁, hdesk⟩
      | ok r =>
          obtain ⟨spec, created⟩ := r
          have hth₁ : w₁.threads t = .built call spec ov := hth₁
          have hsecond : ∃ w₂, w₁.step (.insert t) = some w₂ ∧ w₂.threads t = .idle ∧
              w₂.desk = { w₁.desk with graphs := w₁.desk.graphs.insert call.name spec } := by
            simp only [step, hth₁]
            exact ⟨_, rfl, by simp [goOn], rfl⟩
          obtain ⟨w₂, hinsert, hidle, hdesk₂⟩ := hsecond
          refine ⟨w₂, (alone_step (.build t) rfl hbuild).trans
            (alone_step (.insert t) rfl hinsert), hidle, ?_⟩
          rw [hdesk₂, hdesk]

/-- No request is under way, and nothing has been dropped. -/
structure Start (w : CreateWorld) : Prop where
  threads : ∀ t, w.threads t = .idle
  dropped : w.dropped = []

theorem Start.good {w : CreateWorld} (h : w.Start) : w.Good := by
  refine ⟨?_, ?_, ?_⟩
  · intro t n hw
    rw [h.threads t] at hw
    cases hw
  · intro _ t n hw
    rw [h.threads t] at hw
    cases hw
  · intro t call spec ov hb
    rw [h.threads t] at hb
    cases hb

/-- **`create_graph` is atomic exactly when** a failed request is `FailsSafe`, and
every registration and load of a run is `NotOvertaken`. -/
theorem create_graph_atomic_iff (call : CreateCall) (desk : Desk) :
    ((∀ e, (createGraph call desk).1 = .error e → Unchanged desk (createGraph call desk).2) ↔
      call.FailsSafe desk) ∧
    (∀ (w₀ w : CreateWorld) (acts : List CreateAct), w₀.Start → exec step w₀ acts = some w →
      (EveryState step (fun w => w.dropped = []) w₀ acts ↔ EveryStep step NotOvertaken w₀ acts)) := by
  refine ⟨createGraph_unchanged_iff call desk, ?_⟩
  intro w₀ w acts h0 hex
  exact everyState_iff_everyStep Good (fun _ _ _ hg hs => step_good hg hs)
    (fun _ _ _ hg hd hs => step_dropped hg hd hs) h0.good h0.dropped hex

def sampleCall (groupId : Uuid) : CreateCall where
  name := "g"
  env := { baseCwd := "/r", baseIsGit := true }
  groupId := groupId
  draw := (groupId + 1, groupId + 2)
  graphPanel := groupId + 3

/-- One request, from the name check to the registration. -/
def requestRun (t : Nat) : List CreateAct := [.check t, .build t, .insert t]

def emptyDesk : Desk where
  tm := .empty

/-- A request alone, on an empty desk. -/
theorem create_graph_atomic_alone :
    (∀ e, (createGraph (sampleCall 1) emptyDesk).1 = .error e →
      Unchanged emptyDesk (createGraph (sampleCall 1) emptyDesk).2) ∧
    EveryState step (fun w => w.dropped = []) { desk := emptyDesk }
      ([.request 0 (sampleCall 1), .load 0 ∅] ++ requestRun 0) := by
  have hatomic := create_graph_atomic_iff (sampleCall 1) emptyDesk
  refine ⟨hatomic.1.mpr (.inr (.inr ⟨by decide, .inl (by decide)⟩)), ?_⟩
  have hex : ∃ w, exec step { desk := emptyDesk }
      ([.request 0 (sampleCall 1), .load 0 ∅] ++ requestRun 0) = some w := ⟨_, rfl⟩
  obtain ⟨w, hw⟩ := hex
  refine (hatomic.2 _ w _ ⟨fun _ => rfl, rfl⟩ hw).mpr ?_
  -- the load finds no file, and nobody has come before the registration
  refine ⟨trivial, fun w₁ h₁ => ⟨fun n hn => (by cases hn), fun w₂ h₂ => ⟨trivial, fun w₃ h₃ =>
    ⟨trivial, fun w₄ h₄ => ⟨?_, fun _ _ => trivial⟩⟩⟩⟩⟩
  obtain rfl := Option.some.inj h₁
  obtain rfl := Option.some.inj h₂
  obtain rfl := Option.some.inj h₃
  obtain rfl := Option.some.inj h₄
  rintro call spec ov ⟨⟩
  rfl

/-- The registry holds a stopped graph, and the request names an unknown runner. -/
def stoppedDesk : Desk where
  loaded := true
  graphs := (∅ : GraphRegistry).insert "g" { name := "g", baseCwd := "/r", status := .stopped }
  tm := .empty

def unknownRunner : CreateCall := { sampleCall 1 with params := { runner := some "fast" } }

/-- Two requests of one name, the second one checked before the first one is
registered. -/
def twoRequests : List CreateAct :=
  [.request 0 (sampleCall 1), .load 0 ∅, .request 1 (sampleCall 5), .check 0, .check 1, .build 0,
    .build 1, .insert 0, .insert 1]

/-- The request that is loading comes last: another one is registered meanwhile. -/
def lateLoad : List CreateAct :=
  [.tick 0, .request 1 (sampleCall 1), .check 1, .build 1, .insert 1,
    .load 0 ((∅ : Persisted).insert "g" (some { name := "g", baseCwd := "/r", status := .paused }))]

/-- The failed request has removed the stopped graph and left a group behind; the
second request, and the late load, have dropped a live graph. -/
theorem create_graph_not_atomic :
    ((createGraph unknownRunner stoppedDesk).1
        = .error "unknown runner 'fast' (configure it in settings goal.runners)" ∧
      (stoppedDesk.graphs.lookup "g").isSome = true ∧
      (createGraph unknownRunner stoppedDesk).2.graphs.lookup "g" = none ∧
      (createGraph unknownRunner stoppedDesk).2.tm.groups ≠ stoppedDesk.tm.groups) ∧
    ((exec step { desk := emptyDesk } twoRequests).map (·.dropped.length) = some 1) ∧
    ((exec step { desk := emptyDesk } lateLoad).map (·.dropped.length) = some 1) := by
  refine ⟨⟨?_, ?_, ?_, ?_⟩, ?_, ?_⟩
  · decide
  · decide
  · decide
  · decide
  · decide
  · decide

end CreateWorld

end Jmux.Goal
