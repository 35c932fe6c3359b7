/-
  Jmux.Goal.ProposalGate — the plan gate and the three writers of `proposal.json`
  (`goal/graph.rs`).

  The orchestrator, another process, writes the file whenever it likes.  The
  panel's edits read it, change one node and write it back under the previous
  modification time.  `revise_graph` asks for a new plan, from a socket thread.
  The scheduler's tick compares the file's modification second with the second
  of the last request.  Ticks and edits both run on the main loop, one after the
  other; everything else can come between any two of their steps.

  Every content carries the number of the orchestrator write it stems from.

  Main results:
    * `gate_step`           — one careful step keeps the invariant of the gate.
    * `proposal_gate_held`  — in every run of careful steps only plans from after
                               the last request are accepted, and no edit writes
                               over a newer plan.
    * `proposal_gate_fails` — both halves fail within one second.
-/
import Jmux.Goal.Scheduler
import Jmux.Lib.Json
import Jmux.Lib.Transition

namespace Jmux.Goal

open Jmux.Lib

/-! ## §1. The file. -/

/-- The text of the file: broken JSON, or a value. -/
inductive PlanText
  | broken (e : String)
  | json (v : Json)

/-- What the JSON library does: decoding a plan, and writing a coordinate. -/
structure Serde where
  decode : Json → Except String Proposal
  number : Rat → Json

/-- `stem` is the number of the orchestrator write that the text stems from. -/
structure PlanFile where
  text : PlanText
  mtime : Nat
  stem : Nat

def readPlan (serde : Serde) (file : Option PlanFile) : ProposalFile :=
  match file with
  | none => .error "No such file or directory (os error 2)"
  | some f =>
      match f.text with
      | .broken e => .ok (.error e)
      | .json v => .ok (serde.decode v)

/-- Set a field of an object. -/
def setField (key : String) (v : Json) : Json → Json
  | .obj fields => .obj (fields.filter (·.1 ≠ key) ++ [(key, v)])
  | other => other

/-- The object has the id. -/
def hasId (id : String) (n : Json) : Bool := (n.get "id").bind Json.asStr = some id

/-- Set a field of the first node with the id; `none` if there is none. -/
def setNodeField (id key : String) (v : Json) (doc : Json) : Option Json :=
  match doc.get "nodes" with
  | some (.arr nodes) =>
      if nodes.any (hasId id) then
        let i := nodes.findIdx (hasId id)
        some (setField "nodes" (.arr (nodes.modify i (setField key v))) doc)
      else none
  | _ => none

/-! ## §2. The state. -/

/-- Nanoseconds since the epoch, as the file system keeps them, in seconds. -/
def secs (t : Nat) : Nat := t / 1000000000

/-- What the main loop is in the middle of. -/
inductive MainLoop
  | idle
  /-- The tick has the modification second. -/
  | ticking (mtime : Option Nat)
  /-- The tick has read the file, of the given stem. -/
  | rereading (mtime : Option Nat) (file : ProposalFile) (stem : Nat)
  /-- The edit has computed its text, from a text of the given stem. -/
  | editing (out : Json) (stem : Nat)
  /-- `write_preserving_mtime` has looked up the modification time. -/
  | stamping (out : Json) (stem : Nat) (prev : Option Nat)
  /-- The text is written, the modification time not yet restored. -/
  | restoring (prev : Nat)

/-- The graph, its plan file and the clock.  `requestedAt` is the number of
orchestrator writes before the last request; `accepted` logs stem and
`requestedAt` of every plan that has passed the gate, `overwritten` what an edit
has written over (the stem in the file, the stem of the edit). -/
structure Gate where
  clock : Nat := 0
  spec : Option GraphSpec := none
  file : Option PlanFile := none
  main : MainLoop := .idle
  writes : Nat := 0
  requestedAt : Nat := 0
  accepted : List (Nat × Nat) := []
  overwritten : List (Nat × Nat) := []

namespace Gate

/-- The stem of the text in the file. -/
def stem (w : Gate) : Nat := (w.file.map (·.stem)).getD 0

/-- The tick holds the graph registry. -/
def locked (w : Gate) : Bool :=
  match w.main with
  | .ticking _ => true
  | .rereading _ _ _ => true
  | _ => false

/-- The modification time of the file, once an edit under way has restored it. -/
def settled (w : Gate) (f : PlanFile) : Nat :=
  match w.main with
  | .restoring prev => prev
  | _ => f.mtime

end Gate

/-! ## §3. The steps. -/

inductive PlanEdit
  | goal (node text : String)
  | position (node : String) (x y : Rat)

inductive GateAct
  | pass (d : Nat)
  | orchestratorWrite (text : PlanText)
  | create (name : String) (params : CreateParams) (env : CreateEnv) (orchestrator : Uuid)
  | revise (env : ReviseEnv)
  | tickStat
  | tickRead
  | tickReread
  | editRead (edit : PlanEdit)
  | editStat
  | editWrite
  | editRestore (ok : Bool)

namespace Gate

/-- The first half of an edit of the file; an error ends the edit. -/
def beginEdit (w : Gate) (id key : String) (v : Json) : Gate :=
  match w.file with
  | none => w
  | some f =>
      match f.text with
      | .broken _ => w
      | .json doc =>
          match setNodeField id key v doc with
          | none => w
          | some out => { w with main := .editing out f.stem }

/-- A request for a plan that is written from now on. -/
def request (w : Gate) (spec : GraphSpec) : Gate :=
  { w with spec := some spec, requestedAt := w.writes }

/-- The end of a tick: the spec is edited as `tick_proposing` edits it. -/
def finishTick (w : Gate) (env : ProposalEnv) (first : Nat) (spec : GraphSpec) : Gate :=
  let spec' := tickProposing env spec
  { w with
    spec := some spec'
    main := .idle
    accepted :=
      if spec'.status = .proposing then w.accepted
      else
        -- without a review it is the second reading that counts
        w.accepted ++ [(if spec.review then first else w.stem, w.requestedAt)] }

/-- The text is written, and the file's time is now. -/
def overwrite (w : Gate) (out : Json) (stem : Nat) (prev : Option Nat) : Gate :=
  { w with
    file := some ⟨.json out, w.clock, stem⟩
    main := match prev with
      | some t => .restoring t
      | none => .idle
    overwritten := w.overwritten ++ [(w.stem, stem)] }

def step (serde : Serde) (w : Gate) : GateAct → Option Gate
  | .pass d => some { w with clock := w.clock + d }
  | .orchestratorWrite text =>
      some { w with file := some ⟨text, w.clock, w.writes + 1⟩, writes := w.writes + 1 }
  | .create name params env orchestrator =>
      if w.locked then none
      else if w.spec.all fun s => s.status = .stopped ∨ s.status = .complete then
        some (w.request
          { newSpec name params { env with epochNow := secs w.clock } with
            orchestratorWorkspace := some orchestrator })
      else none
  | .revise env =>
      if w.locked then none
      else match w.spec with
        | none => none
        | some spec =>
            match reviseGraph { env with epochNow := secs w.clock } spec with
            | .error _ => some w
            | .ok spec' => some (w.request spec')
  | .tickStat =>
      match w.main, w.spec with
      | .idle, some spec =>
          if spec.status = .proposing then
            some { w with main := .ticking (w.file.map fun f => secs f.mtime) }
          else none
      | _, _ => none
  | .tickRead =>
      match w.main with
      | .ticking mtime => some { w with main := .rereading mtime (readPlan serde w.file) w.stem }
      | _ => none
  | .tickReread =>
      match w.main, w.spec with
      | .rereading mtime file first, some spec =>
          some (w.finishTick ⟨mtime, file, readPlan serde w.file⟩ first spec)
      | _, _ => none
  | .editRead edit =>
      match w.main, w.spec with
      | .idle, some spec =>
          match edit with
          | .goal id text =>
              if Str.trim text = "" then some w
              else some (w.beginEdit id "goal" (.str text))
          | .position id x y =>
              -- an approved node keeps its position in `graph.json`
              if (spec.node id).isSome then
                some { w with spec := some (updateNodePosition id x y spec) }
              else some (w.beginEdit id "pos" (.arr [serde.number x, serde.number y]))
      | _, _ => none
  | .editStat =>
      match w.main with
      | .editing out stem => some { w with main := .stamping out stem (w.file.map (·.mtime)) }
      | _ => none
  | .editWrite =>
      match w.main with
      | .stamping out stem prev => some (w.overwrite out stem prev)
      | _ => none
  | .editRestore ok =>
      match w.main with
      | .restoring prev =>
          some { w with
            main := .idle
            file := if ok then w.file.map fun f => { f with mtime := prev } else w.file }
      | _ => none

/-! ## §4. The law, and what keeps it. -/

/-- Only plans from after the last request have passed, and no edit has written
over a plan that is newer than the one it was computed from. -/
structure Held (w : Gate) : Prop where
  accepted : ∀ a ∈ w.accepted, a.2 < a.1
  overwritten : ∀ o ∈ w.overwritten, o.1 ≤ o.2

/-- While the graph waits for a plan, a file from before the request has a time
that lies before the second of the request. -/
def Tight (w : Gate) : Prop :=
  ∀ spec, w.spec = some spec → spec.status = .proposing →
    ∃ least, spec.minProposalMtime = some least ∧
      ∀ f, w.file = some f → f.stem ≤ w.requestedAt → secs (w.settled f) < least

/-- The file was last modified before the current second. -/
def Rested (w : Gate) : Prop := ∀ f, w.file = some f → secs (w.settled f) < secs w.clock

/-- The conditions on the steps: a request does not come in the second in which
the file was modified; an edit writes over the plan it was computed from; and a
modification time that cannot be restored does no harm. -/
def Careful (w : Gate) : GateAct → Prop
  | .create _ _ _ _ => w.Rested
  | .revise env => ∀ spec spec', w.spec = some spec →
      reviseGraph { env with epochNow := secs w.clock } spec = .ok spec' → w.Rested
  | .editWrite => ∀ out stem prev, w.main = .stamping out stem prev → w.stem = stem
  | .editRestore ok => ok = false → Tight { w with main := .idle }
  | _ => True

/-- What the main loop knows in the middle of a tick or an edit. -/
def MainOk (w : Gate) : Prop :=
  match w.main with
  | .idle => True
  | .ticking mtime =>
      ∀ spec least t, w.spec = some spec → spec.minProposalMtime = some least →
        mtime = some t → least ≤ t → w.requestedAt < w.stem
  | .rereading mtime _ first =>
      ∀ spec least t, w.spec = some spec → spec.minProposalMtime = some least →
        mtime = some t → least ≤ t → w.requestedAt < first ∧ first ≤ w.stem
  | .editing _ stem => w.file.isSome ∧ stem ≤ w.stem
  | .stamping _ stem prev =>
      ∃ f, w.file = some f ∧ stem ≤ f.stem ∧ prev.isSome ∧ (f.stem = stem → prev = some f.mtime)
  | .restoring _ => w.file.isSome

/-- A tick works on a graph that waits for a plan, whose least second is set. -/
def Waiting (w : Gate) : Prop :=
  w.locked = true → ∃ spec, w.spec = some spec ∧ spec.status = .proposing

structure Inv (w : Gate) : Prop where
  held : w.Held
  stems : w.stem ≤ w.writes
  requested : w.requestedAt ≤ w.writes
  tight : w.Tight
  main : w.MainOk
  waiting : w.Waiting

end Gate

/-! ## §5. One step. -/

theorem reviseGraph_min {env : ReviseEnv} {s s' : GraphSpec} (h : reviseGraph env s = .ok s') :
    s'.minProposalMtime = some env.epochNow := by
  obtain ⟨-, -, -, -, rfl⟩ := reviseGraph_ok h
  rfl

theorem tickProposing_min (env : ProposalEnv) (s : GraphSpec) :
    (tickProposing env s).minProposalMtime = s.minProposalMtime := by
  unfold tickProposing
  split
  · rfl
  · split
    · rfl
    · split
      · rfl
      · split
        · rfl
        · split <;> rfl

/-- A tick moves the graph on only when the file's second passes the gate. -/
theorem tickProposing_passes {env : ProposalEnv} {s : GraphSpec} (hs : s.status = .proposing)
    (h : (tickProposing env s).status ≠ .proposing) :
    ∃ t, env.mtime = some t ∧ ∀ least, s.minProposalMtime = some least → least ≤ t := by
  unfold tickProposing at h
  cases ht : env.mtime with
  | none =>
      rw [ht] at h
      exact absurd hs h
  | some t =>
      rw [ht] at h
      dsimp only at h
      by_cases hold : s.minProposalMtime.any (t < ·) = true
      · rw [if_pos hold] at h
        exact absurd hs h
      · refine ⟨t, rfl, fun least hleast => ?_⟩
        rw [hleast] at hold
        have hge : ¬ t < least := by simpa using hold
        omega

namespace Gate

variable {serde : Serde} {w w' : Gate}

theorem stem_of_file {f : PlanFile} (hf : w.file = some f) : w.stem = f.stem := by
  unfold stem
  rw [hf]
  rfl

/-- Only an edit that has to restore the time looks past the file's own time. -/
theorem settled_eq {f : PlanFile} (h : ∀ t, w.main ≠ .restoring t) : w.settled f = f.mtime := by
  unfold settled
  split
  next t ht => exact absurd ht (h t)
  · rfl

/-- The main loop goes on, and nothing else changes. -/
theorem inv_withMain (hi : w.Inv) {m : MainLoop} (hold : ∀ t, w.main ≠ .restoring t)
    (hnew : ∀ t, m ≠ .restoring t) (hmain : MainOk { w with main := m })
    (hwait : Waiting { w with main := m }) : Inv { w with main := m } := by
  refine ⟨⟨hi.held.accepted, hi.held.overwritten⟩, hi.stems, hi.requested, ?_, hmain, hwait⟩
  intro s hs hprop
  obtain ⟨least, hleast, hall⟩ := hi.tight s hs hprop
  refine ⟨least, hleast, fun f hf hstale => ?_⟩
  have hlt := hall f hf hstale
  rw [settled_eq hold] at hlt
  rw [settled_eq (w := { w with main := m }) hnew]
  exact hlt

/-- A new text of the orchestrator is newer than everything. -/
theorem inv_orchestratorWrite (hi : w.Inv) (text : PlanText) :
    Inv { w with file := some ⟨text, w.clock, w.writes + 1⟩, writes := w.writes + 1 } := by
  have hstems := hi.stems
  have hreq := hi.requested
  refine ⟨⟨hi.held.accepted, hi.held.overwritten⟩, Nat.le_refl _, ?_, ?_, ?_, hi.waiting⟩
  · show w.requestedAt ≤ w.writes + 1
    omega
  · intro spec hspec hst
    obtain ⟨least, hleast, _⟩ := hi.tight spec hspec hst
    refine ⟨least, hleast, ?_⟩
    rintro f ⟨⟩ hstale
    have hstale : w.writes + 1 ≤ w.requestedAt := hstale
    omega
  · have hmain := hi.main
    unfold MainOk at hmain ⊢
    cases hm : w.main with
    | idle => trivial
    | ticking mtime =>
        intro spec least t _ _ _ _
        show w.requestedAt < w.writes + 1
        omega
    | rereading mtime file first =>
        rw [hm] at hmain
        intro spec least t hspec hleast ht hle
        obtain ⟨hfirst, hlast⟩ := hmain spec least t hspec hleast ht hle
        refine ⟨hfirst, ?_⟩
        show first ≤ w.writes + 1
        omega
    | editing out stem =>
        rw [hm] at hmain
        refine ⟨rfl, ?_⟩
        have hold : stem ≤ w.stem := hmain.2
        show stem ≤ w.writes + 1
        omega
    | stamping out stem prev =>
        rw [hm] at hmain
        obtain ⟨f, hf, hle, hprev, _⟩ := hmain
        rw [← stem_of_file hf] at hle
        refine ⟨_, rfl, ?_, hprev, ?_⟩
        · show stem ≤ w.writes + 1
          omega
        · intro heq
          have heq : w.writes + 1 = stem := heq
          omega
    | restoring prev => rfl

/-- A request in a second in which the file has not been touched. -/
theorem inv_request (hi : w.Inv) (hfree : w.locked = false) (hrest : w.Rested) {spec : GraphSpec}
    (hmin : spec.minProposalMtime = some (secs w.clock)) : (w.request spec).Inv := by
  refine ⟨⟨hi.held.accepted, hi.held.overwritten⟩, hi.stems, Nat.le_refl _, ?_, ?_, ?_⟩
  · intro s hs _
    obtain rfl : spec = s := Option.some.inj hs
    exact ⟨_, hmin, fun f hf _ => hrest f hf⟩
  · have hmain := hi.main
    unfold MainOk at hmain ⊢
    unfold locked at hfree
    cases hm : w.main with
    | idle => simp [request, hm]
    | ticking mtime => simp [hm] at hfree
    | rereading mtime file first => simp [hm] at hfree
    | editing out stem =>
        rw [hm] at hmain
        simp only [request, hm]
        exact hmain
    | stamping out stem prev =>
        rw [hm] at hmain
        simp only [request, hm]
        exact hmain
    | restoring prev =>
        rw [hm] at hmain
        simp only [request, hm]
        exact hmain
  · intro hlock
    have hlock : w.locked = true := hlock
    rw [hfree] at hlock
    cases hlock

/-- The tick looks up the file's time. -/
theorem inv_tickStat (hi : w.Inv) (hm : w.main = .idle) {spec : GraphSpec}
    (hspec : w.spec = some spec) (hst : spec.status = .proposing) :
    Inv { w with main := .ticking (w.file.map fun f => secs f.mtime) } := by
  have htight := hi.tight spec hspec hst
  have hidle : ∀ t, w.main ≠ .restoring t := by simp [hm]
  refine inv_withMain hi hidle (by simp) ?_ ?_
  · intro s least t hs hleast ht hle
    obtain rfl : spec = s := Option.some.inj (hspec.symm.trans hs)
    obtain ⟨f, hf, rfl⟩ := Option.map_eq_some_iff.mp ht
    obtain ⟨least', hleast', hall⟩ := htight
    obtain rfl : least = least' := Option.some.inj (hleast.symm.trans hleast')
    show w.requestedAt < w.stem
    rw [stem_of_file hf]
    -- a stale file would have an earlier second
    by_contra hstale
    have hlt := hall f hf (by omega)
    rw [settled_eq hidle] at hlt
    omega
  · intro _
    exact ⟨spec, hspec, hst⟩

theorem inv_tickRead (hi : w.Inv) {mtime : Option Nat} (hm : w.main = .ticking mtime)
    (file : ProposalFile) : Inv { w with main := .rereading mtime file w.stem } := by
  have hmain := hi.main
  unfold MainOk at hmain
  rw [hm] at hmain
  refine inv_withMain hi (by simp [hm]) (by simp) ?_ ?_
  · intro s least t hs hleast ht hle
    exact ⟨hmain s least t hs hleast ht hle, Nat.le_refl _⟩
  · intro _
    exact hi.waiting (by unfold locked; rw [hm])

/-- **The decision of a tick**: what it accepts was written after the request. -/
theorem inv_finishTick (hi : w.Inv) {mtime : Option Nat} {file : ProposalFile} {first : Nat}
    (hm : w.main = .rereading mtime file first) {spec : GraphSpec} (hspec : w.spec = some spec)
    (reread : ProposalFile) : (w.finishTick ⟨mtime, file, reread⟩ first spec).Inv := by
  have hmain := hi.main
  unfold MainOk at hmain
  rw [hm] at hmain
  have hst : spec.status = .proposing := by
    obtain ⟨s, hs, hst⟩ := hi.waiting (by unfold locked; rw [hm])
    obtain rfl : spec = s := Option.some.inj (hspec.symm.trans hs)
    exact hst
  obtain ⟨least, hleast, hall⟩ := hi.tight spec hspec hst
  refine ⟨⟨?_, hi.held.overwritten⟩, hi.stems, hi.requested, ?_, trivial, ?_⟩
  · intro a ha
    unfold finishTick at ha
    dsimp only at ha
    split at ha
    · exact hi.held.accepted a ha
    next hmoved =>
      rcases List.mem_append.mp ha with hold | hnew
      · exact hi.held.accepted a hold
      · obtain rfl := List.mem_singleton.mp hnew
        obtain ⟨t, ht, hge⟩ := tickProposing_passes hst hmoved
        obtain ⟨hfirst, hlast⟩ := hmain spec least t hspec hleast ht (hge least hleast)
        show w.requestedAt < if spec.review = true then first else w.stem
        split
        · exact hfirst
        · omega
  · intro s hs hprop
    obtain rfl : tickProposing ⟨mtime, file, reread⟩ spec = s := Option.some.inj hs
    refine ⟨least, (tickProposing_min _ spec).trans hleast, fun f hf hstale => ?_⟩
    have hlt := hall f hf hstale
    unfold settled at hlt
    rwa [hm] at hlt
  · intro hlock
    cases hlock

theorem beginEdit_cases (w : Gate) (id key : String) (v : Json) :
    w.beginEdit id key v = w ∨
      ∃ f out, w.file = some f ∧ w.beginEdit id key v = { w with main := .editing out f.stem } := by
  unfold beginEdit
  cases hf : w.file with
  | none => exact .inl rfl
  | some f =>
      dsimp only
      cases f.text with
      | broken e => exact .inl rfl
      | json doc =>
          dsimp only
          cases setNodeField id key v doc with
          | none => exact .inl rfl
          | some out => exact .inr ⟨f, out, rfl, by rw [← hf]⟩

/-- An edit that has only read the file, or failed, has done nothing yet. -/
theorem inv_beginEdit (hi : w.Inv) (hm : w.main = .idle) (id key : String) (v : Json) :
    (w.beginEdit id key v).Inv := by
  rcases beginEdit_cases w id key v with h | ⟨f, out, hf, h⟩
  · rw [h]
    exact hi
  · rw [h]
    refine inv_withMain hi (by simp [hm]) (by simp) ⟨?_, Nat.le_of_eq ?_⟩ ?_
    · show w.file.isSome = true
      rw [hf]
      rfl
    · exact (stem_of_file hf).symm
    · intro hlock
      cases hlock

theorem inv_updateNodePosition (hi : w.Inv) (hm : w.main = .idle) {spec : GraphSpec}
    (hspec : w.spec = some spec) (id : String) (x y : Rat) :
    Inv { w with spec := some (updateNodePosition id x y spec) } := by
  refine ⟨⟨hi.held.accepted, hi.held.overwritten⟩, hi.stems, hi.requested, ?_, ?_, ?_⟩
  · intro s hs hprop
    obtain rfl := Option.some.inj hs
    exact hi.tight spec hspec hprop
  · unfold MainOk
    rw [hm]
    trivial
  · intro hlock
    unfold locked at hlock
    rw [hm] at hlock
    cases hlock

theorem inv_editStat (hi : w.Inv) {out : Json} {stem : Nat} (hm : w.main = .editing out stem) :
    Inv { w with main := .stamping out stem (w.file.map (·.mtime)) } := by
  have hmain := hi.main
  unfold MainOk at hmain
  rw [hm] at hmain
  obtain ⟨f, hf⟩ := Option.isSome_iff_exists.mp hmain.1
  refine inv_withMain hi (by simp [hm]) (by simp) ?_ ?_
  · refine ⟨f, hf, ?_, by simp [hf], fun _ => by simp [hf]⟩
    rw [← stem_of_file hf]
    exact hmain.2
  · intro hlock
    cases hlock

/-- An edit of the plan it was computed from keeps the file's time in mind. -/
theorem inv_overwrite (hi : w.Inv) {out : Json} {stem : Nat} {prev : Option Nat}
    (hm : w.main = .stamping out stem prev) (hsame : w.stem = stem) :
    (w.overwrite out stem prev).Inv := by
  have hmain := hi.main
  unfold MainOk at hmain
  rw [hm] at hmain
  obtain ⟨f, hf, _, _, hprev⟩ := hmain
  have hfs : f.stem = stem := (stem_of_file hf).symm.trans hsame
  obtain rfl := hprev hfs
  refine ⟨⟨hi.held.accepted, ?_⟩, ?_, hi.requested, ?_, rfl, ?_⟩
  · intro o ho
    rcases List.mem_append.mp ho with hold | hnew
    · exact hi.held.overwritten o hold
    · obtain rfl := List.mem_singleton.mp hnew
      exact Nat.le_of_eq hsame
  · show stem ≤ w.writes
    rw [← hsame]
    exact hi.stems
  · intro s hs hprop
    obtain ⟨least, hleast, hall⟩ := hi.tight s hs hprop
    refine ⟨least, hleast, ?_⟩
    rintro g ⟨⟩ hstale
    have hlt := hall f hf (hfs ▸ hstale)
    unfold settled at hlt
    rwa [hm] at hlt
  · intro hlock
    cases hlock

theorem inv_editRestore (hi : w.Inv) {prev : Nat} (hm : w.main = .restoring prev) (ok : Bool)
    (hok : ok = false → Tight { w with main := .idle }) :
    Inv { w with
      main := .idle
      file := if ok then w.file.map fun f => { f with mtime := prev } else w.file } := by
  cases ok with
  | false =>
      refine ⟨⟨hi.held.accepted, hi.held.overwritten⟩, hi.stems, hi.requested, hok rfl, trivial, ?_⟩
      intro hlock
      cases hlock
  | true =>
      refine ⟨⟨hi.held.accepted, hi.held.overwritten⟩, ?_, hi.requested, ?_, trivial, ?_⟩
      · have hstems := hi.stems
        unfold stem at hstems ⊢
        cases hf : w.file with
        | none => exact Nat.zero_le _
        | some f =>
            rw [hf] at hstems
            exact hstems
      · intro s hs hprop
        obtain ⟨least, hleast, hall⟩ := hi.tight s hs hprop
        refine ⟨least, hleast, fun g hg hstale => ?_⟩
        obtain ⟨f, hf, rfl⟩ := Option.map_eq_some_iff.mp hg
        have hlt := hall f hf hstale
        unfold settled at hlt
        rwa [hm] at hlt
      · intro hlock
        cases hlock

/-- **One careful step keeps the invariant of the gate.** -/
theorem gate_step (hi : w.Inv) {a : GateAct} (hok : w.Careful a) (hs : w.step serde a = some w') :
    w'.Inv := by
  unfold step at hs
  cases a with
  | pass d =>
      obtain rfl := Option.some.inj hs
      exact ⟨⟨hi.held.accepted, hi.held.overwritten⟩, hi.stems, hi.requested, hi.tight, hi.main,
        hi.waiting⟩
  | orchestratorWrite text =>
      obtain rfl := Option.some.inj hs
      exact inv_orchestratorWrite hi text
  | create name params env orchestrator =>
      dsimp only at hs
      split at hs
      · cases hs
      next hlock =>
        split at hs
        · obtain rfl := Option.some.inj hs
          exact inv_request hi (by simpa using hlock) hok rfl
        · cases hs
  | revise env =>
      dsimp only at hs
      split at hs
      · cases hs
      next hlock =>
        split at hs
        · cases hs
        next spec hspec =>
          split at hs
          · obtain rfl := Option.some.inj hs
            exact hi
          next spec' hrevise =>
            obtain rfl := Option.some.inj hs
            exact inv_request hi (by simpa using hlock) (hok spec spec' hspec hrevise)
              (reviseGraph_min hrevise)
  | tickStat =>
      dsimp only at hs
      split at hs
      next spec hm hspec =>
        split at hs
        next hst =>
          obtain rfl := Option.some.inj hs
          exact inv_tickStat hi hm hspec hst
        · cases hs
      · cases hs
  | tickRead =>
      dsimp only at hs
      split at hs
      next mtime hm =>
        obtain rfl := Option.some.inj hs
        exact inv_tickRead hi hm _
      · cases hs
  | tickReread =>
      dsimp only at hs
      split at hs
      next mtime file first spec hm hspec =>
        obtain rfl := Option.some.inj hs
        exact inv_finishTick hi hm hspec _
      · cases hs
  | editRead edit =>
      dsimp only at hs
      split at hs
      next spec hm hspec =>
        cases edit with
        | goal id text =>
            dsimp only at hs
            split at hs
            · obtain rfl := Option.some.inj hs
              exact hi
            · obtain rfl := Option.some.inj hs
              exact inv_beginEdit hi hm id _ _
        | position id x y =>
            dsimp only at hs
            split at hs
            · obtain rfl := Option.some.inj hs
              exact inv_updateNodePosition hi hm hspec id x y
            · obtain rfl := Option.some.inj hs
              exact inv_beginEdit hi hm id _ _
      · cases hs
  | editStat =>
      dsimp only at hs
      split at hs
      next out stem hm =>
        obtain rfl := Option.some.inj hs
        exact inv_editStat hi hm
      · cases hs
  | editWrite =>
      dsimp only at hs
      split at hs
      next out stem prev hm =>
        obtain rfl := Option.some.inj hs
        exact inv_overwrite hi hm (hok out stem prev hm)
      · cases hs
  | editRestore ok =>
      dsimp only at hs
      split at hs
      next prev hm =>
        obtain rfl := Option.some.inj hs
        exact inv_editRestore hi hm ok hok
      · cases hs

/-! ## §6. Runs. -/

/-- Before the first request: no graph waits for a plan, and nothing has happened.
A file of an earlier graph of the name may be there. -/
structure Start (w : Gate) : Prop where
  main : w.main = .idle
  spec : ∀ s, w.spec = some s → s.status ≠ .proposing
  stems : w.stem ≤ w.writes
  requested : w.requestedAt ≤ w.writes
  accepted : w.accepted = []
  overwritten : w.overwritten = []

theorem Start.inv (h : w.Start) : w.Inv where
  held := ⟨by simp [h.accepted], by simp [h.overwritten]⟩
  stems := h.stems
  requested := h.requested
  tight := fun s hs hprop => absurd hprop (h.spec s hs)
  main := by
    unfold MainOk
    rw [h.main]
    trivial
  waiting := by
    intro hlock
    unfold locked at hlock
    rw [h.main] at hlock
    cases hlock

/-- **In every run of careful steps the gate accepts only plans that the
orchestrator wrote after the last request, and no edit writes over a newer plan.** -/
theorem proposal_gate_held (serde : Serde) {w₀ w : Gate} (h0 : w₀.Start)
    (hr : Reach (step serde) Careful w₀ w) :
    (∀ a ∈ w.accepted, a.2 < a.1) ∧ ∀ o ∈ w.overwritten, o.1 ≤ o.2 := by
  have hinv : w.Inv :=
    hr.invariant Inv h0.inv fun s a s' hi hok hs => gate_step hi hok hs
  exact ⟨hinv.held.accepted, hinv.held.overwritten⟩

theorem start_empty : Start {} :=
  ⟨rfl, fun _ h => (by cases h), Nat.le_refl _, Nat.le_refl _, rfl, rfl⟩

def sampleDoc : Json :=
  .obj [("nodes", .arr [.obj [("id", .str "a"), ("goal", .str "write the parser")]])]

/-- Decodes the sample document. -/
def sampleSerde : Serde where
  decode := fun _ => .ok ⟨[{ id := "a", goal := "write the parser" }]⟩
  number := fun q => .num q.num

def createSample : GateAct := .create "g" {} { baseCwd := "/r", baseIsGit := true } 1

/-- A graph is created, and its orchestrator writes a plan. -/
def planned : List GateAct := [createSample, .orchestratorWrite (.json sampleDoc)]

def tick : List GateAct := [.tickStat, .tickRead, .tickReread]

def runFrom (acts : List GateAct) : Gate := (exec (step sampleSerde) {} acts).getD {}

/-- The first plan is accepted. -/
theorem proposal_gate_held_first :
    (∀ a ∈ (runFrom (planned ++ tick)).accepted, a.2 < a.1) ∧
      ∀ o ∈ (runFrom (planned ++ tick)).overwritten, o.1 ≤ o.2 := by
  have hsteps : EveryStep (step sampleSerde) Careful {} (planned ++ tick) := by
    -- only the request has a condition, and there is no file yet
    refine ⟨fun f hf => (by cases hf), fun _ _ => ⟨trivial, fun _ _ => ⟨trivial, fun _ _ => ?_⟩⟩⟩
    exact ⟨trivial, fun _ _ => ⟨trivial, fun _ _ => trivial⟩⟩
  have hex : exec (step sampleSerde) {} (planned ++ tick) = some (runFrom (planned ++ tick)) := rfl
  exact proposal_gate_held sampleSerde start_empty (reach_of_exec hex hsteps)

/-- The revision is asked for in the second in which the plan was written. -/
def revisedAtOnce : List GateAct :=
  planned ++ tick ++ [.revise { panel := some 7, agentAlive := true }] ++ tick

/-- The orchestrator writes a second plan while a goal text is being saved. -/
def editedOver : List GateAct :=
  planned ++ [.editRead (.goal "a" "write a better parser"), .orchestratorWrite (.json sampleDoc),
    .editStat, .editWrite]

/-- The plan from before the revision passes the gate, and the second plan is lost. -/
theorem proposal_gate_fails :
    (∃ w, Reachable (step sampleSerde) {} w ∧ ¬ ∀ a ∈ w.accepted, a.2 < a.1) ∧
      ∃ w, Reachable (step sampleSerde) {} w ∧ ¬ ∀ o ∈ w.overwritten, o.1 ≤ o.2 := by
  have hrevised : exec (step sampleSerde) {} revisedAtOnce = some (runFrom revisedAtOnce) := rfl
  have hedited : exec (step sampleSerde) {} editedOver = some (runFrom editedOver) := rfl
  exact ⟨⟨_, reachable_of_exec hrevised, by decide⟩, ⟨_, reachable_of_exec hedited, by decide⟩⟩

end Gate

end Jmux.Goal
