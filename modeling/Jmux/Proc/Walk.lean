/-
  Jmux.Proc.Walk — the walks over `/proc` (`app.rs`, `hibernate.rs`,
  `session/claude_resume.rs`).

  A directory lists its entries in any order, and an entry may be gone when it is read.

  Main results:
    * `foregroundPgrp_eq`       — the group that is paused is the one in the terminal's
                                   foreground, in whatever order the processes are listed.
    * `allLocalPanelCwds_iff`   — a panel's directory is that of its oldest shell.
    * `walks_agree`             — when a panel has one shell, the three walks find it.
-/
import Jmux.Lib.FiniteMap
import Jmux.Model.Panel
import Jmux.Proc.Stat

namespace Jmux.Proc

open Jmux.Lib Jmux.Model

/-! ## §1. The walks. -/

/-- An entry of `/proc`; `none` where something cannot be read. -/
structure ProcEntry where
  name    : List Char
  stat    : Option (List Char)
  /-- The variables of `environ`. -/
  environ : Option (List (List Char)) := none
  cwd     : Option String := none

/-- `pts_index` -/
def ptsIndex (tty : List Char) : Option Nat :=
  (Str.stripPrefix "/dev/pts/".toList tty).bind Str.parseU32

/-- The foreground group that one entry gives for a terminal. -/
def foregroundOf (idx : Nat) (e : ProcEntry) : Option Int :=
  if e.name = [] ∨ ¬ e.name.all (·.isDigit) then none
  else do
    let stat ← e.stat
    let (ttyNr, tpgid) ← ttyFields stat
    if ttyNrToPtsIndex ttyNr = some idx then tpgid.filter (0 < ·) else none

def foregroundPgrp (tty : List Char) (proc : Option (List ProcEntry)) : Option Int := do
  let idx ← ptsIndex tty
  let entries ← proc
  entries.findSome? (foregroundOf idx)

/-- A walk uses the text of an id and `Uuid::parse_str`. -/
structure UuidText where
  text  : Uuid → List Char
  parse : List Char → Option Uuid

def panelVar : List Char := "JMUX_PANEL_ID=".toList

def panelIdFromEnviron (uuid : UuidText) (environ : List (List Char)) : Option Uuid :=
  environ.findSome? (Str.stripPrefix panelVar) |>.bind fun v =>
    uuid.parse (Str.trimMatches Str.isWhitespace v)

/-- The panel, the number and the directory of a direct child. -/
def childOf (uuid : UuidText) (me : Nat) (e : ProcEntry) : Option (Uuid × Nat × String) := do
  let pid ← Str.parseU32 e.name
  if e.stat.bind parsePpidStat = some me then
    let environ ← e.environ
    let panelId ← panelIdFromEnviron uuid environ
    let cwd ← e.cwd
    some (panelId, pid, cwd)
  else none

/-- Keep the value of least rank under each key. -/
def keepLeast {κ ν : Type} [DecidableEq κ] (rank : ν → Nat) (best : AList fun _ : κ => ν)
    (entry : κ × ν) : AList fun _ : κ => ν :=
  if (best.lookup entry.1).all fun v => rank entry.2 < rank v then best.insert entry.1 entry.2
  else best

def allLocalPanelCwds (uuid : UuidText) (me : Nat) (proc : Option (List ProcEntry)) :
    AList fun _ : Uuid => Nat × String :=
  ((proc.getD []).filterMap (childOf uuid me)).foldl (keepLeast (·.1)) ∅

/-- Whether the process has the panel's id in its environment. -/
def hasPanel (uuid : UuidText) (panel : Uuid) (e : ProcEntry) : Bool :=
  e.environ.any (·.contains (panelVar ++ uuid.text panel))

/-- `live_cwd_for_panel`, with the oldest process so far that is no direct child. -/
def liveCwdLoop (uuid : UuidText) (me : Nat) (panel : Uuid) :
    Option (Nat × ProcEntry) → List ProcEntry → Option String
  | fallback, [] => fallback.bind (·.2.cwd)
  | fallback, e :: rest =>
      match Str.parseU32 e.name with
      | none => liveCwdLoop uuid me panel fallback rest
      | some pid =>
          if hasPanel uuid panel e then
            -- the walk ends here, also where the directory cannot be read
            if e.stat.bind parsePpid = some me then e.cwd
            else if fallback.all (pid < ·.1) then
              liveCwdLoop uuid me panel (some (pid, e)) rest
            else liveCwdLoop uuid me panel fallback rest
          else liveCwdLoop uuid me panel fallback rest

def liveCwdForPanel (uuid : UuidText) (me : Nat) (panel : Uuid)
    (proc : Option (List ProcEntry)) : Option String :=
  proc.bind (liveCwdLoop uuid me panel none)

/-- `shell_pid_for_panel`, with the first process so far that is no direct child. -/
def shellPidLoop (uuid : UuidText) (me : Nat) (panel : Uuid) :
    Option Nat → List ProcEntry → Option Nat
  | fallback, [] => fallback
  | fallback, e :: rest =>
      match Str.parseU32 e.name with
      | none => shellPidLoop uuid me panel fallback rest
      | some pid =>
          if hasPanel uuid panel e then
            if e.stat.bind parsePpid = some me then some pid
            else shellPidLoop uuid me panel (fallback.or (some pid)) rest
          else shellPidLoop uuid me panel fallback rest

def shellPidForPanel (uuid : UuidText) (me : Nat) (panel : Uuid)
    (proc : Option (List ProcEntry)) : Option Nat :=
  proc.bind (shellPidLoop uuid me panel none)

/-- `pane_is_busy`, with what `/proc/<shell>/stat` holds. -/
def paneIsBusy (shellPid : Nat) (stat : Option (List Char)) : Option Bool := do
  let stat ← stat
  let tpgid ← statFieldAfterComm stat 5
  some (0 < tpgid && (tpgid % 2 ^ 32).toNat != shellPid)

/-! ## §2. The foreground group of a terminal. -/

/-- A process as it is listed. -/
def ProcStat.entry (p : ProcStat) : ProcEntry where
  name := (toString p.pid).toList
  stat := some p.line

/-- The pseudo-terminal of a process, as it is read for pausing an agent. -/
def ProcStat.terminal (p : ProcStat) : Option Nat := (asNat p.ttyNr).bind ttyNrToPtsIndex

def ptsPath (idx : Nat) : List Char := "/dev/pts/".toList ++ (toString idx).toList

theorem stripPrefix_append (pre cs : List Char) : Str.stripPrefix pre (pre ++ cs) = some cs := by
  rw [Str.stripPrefix, if_pos (List.isPrefixOf_iff_prefix.mpr (List.prefix_append pre cs)),
    List.drop_left]

theorem ptsIndex_ptsPath {idx : Nat} (h : idx < 2 ^ 32) : ptsIndex (ptsPath idx) = some idx := by
  unfold ptsIndex ptsPath
  rw [stripPrefix_append]
  exact parseU32_toString h

theorem foregroundOf_entry (p : ProcStat) (idx : Nat)
    (htpgid : -2 ^ 31 ≤ p.tpgid ∧ p.tpgid < 2 ^ 31) :
    foregroundOf idx p.entry =
      if p.terminal = some idx ∧ 0 < p.tpgid then some p.tpgid else none := by
  have hname : ¬ (p.entry.name = [] ∨ ¬ p.entry.name.all (·.isDigit)) := by
    have hdigits : (toString p.pid).toList.all (·.isDigit) = true :=
      List.all_eq_true.mpr fun c hc => isDigit_of_mem_toString hc
    rw [ProcStat.entry, hdigits]
    simp only [not_true_eq_false, or_false]
    exact toString_ne_nil p.pid
  have hgroup : (Str.parseI64 (ProcStat.shown p.tpgid)).filter
      (fun n => -2 ^ 31 ≤ n ∧ n < 2 ^ 31) = some p.tpgid := by
    rw [ProcStat.shown, parseI64_toString (by omega) (by omega), Option.filter_some]
    simpa using htpgid
  unfold foregroundOf ProcStat.terminal
  rw [if_neg hname]
  show (ttyFields p.line).bind _ = _
  rw [ttyFields_line, hgroup]
  cases asNat p.ttyNr with
  | none => simp
  | some ttyNr =>
      by_cases hidx : ttyNrToPtsIndex ttyNr = some idx
      · by_cases hpos : 0 < p.tpgid <;> simp [hidx, hpos, Option.filter]
      · simp [hidx]

section

variable {κ ν : Type} [DecidableEq κ] (rank : ν → Nat)

theorem lookup_keepLeast (best : AList fun _ : κ => ν) (key k : κ) (value : ν) :
    (keepLeast rank best (key, value)).lookup k =
      if k = key ∧ (best.lookup key).all (fun v => rank value < rank v) = true
      then some value else best.lookup k := by
  unfold keepLeast
  by_cases hless : (best.lookup key).all (fun v => rank value < rank v) = true
  · rw [if_pos hless, AList.lookup_insert_eq_ite]
    simp only [hless, and_true]
  · rw [if_neg hless, if_neg fun h => hless h.2]

/-- What is kept is one of the values, and no other one is below it. -/
theorem foldl_keepLeast (entries : List (κ × ν)) (best : AList fun _ : κ => ν) (k : κ) :
    (∀ v, (entries.foldl (keepLeast rank) best).lookup k = some v →
      (best.lookup k = some v ∨ (k, v) ∈ entries) ∧
      (∀ w, best.lookup k = some w → rank v ≤ rank w) ∧
      ∀ w, (k, w) ∈ entries → rank v ≤ rank w) ∧
    ((entries.foldl (keepLeast rank) best).lookup k = none →
      best.lookup k = none ∧ ∀ w, (k, w) ∉ entries) := by
  induction entries generalizing best with
  | nil =>
      refine ⟨fun v hv => ⟨.inl hv, fun w hw => ?_, fun w hw => nomatch hw⟩,
        fun h => ⟨h, fun w hw => nomatch hw⟩⟩
      obtain rfl := Option.some.inj (hv.symm.trans hw)
      exact Nat.le_refl _
  | cons entry entries ih =>
      obtain ⟨key, value⟩ := entry
      obtain ⟨hsome, hnone⟩ := ih (keepLeast rank best (key, value))
      rw [List.foldl_cons]
      constructor
      · intro v hv
        obtain ⟨hfrom, hbest, hrest⟩ := hsome v hv
        simp only [lookup_keepLeast] at hfrom hbest
        -- under its own key the value is first, less, or not less than the old one
        by_cases hk : k = key
        · subst hk
          cases hold : best.lookup k with
          | none =>
              rw [hold] at hfrom hbest
              simp only [Option.all_none, and_self, if_true] at hfrom hbest
              have hle := hbest value rfl
              refine ⟨.inr ?_, nofun, fun w hw => ?_⟩
              · rcases hfrom with h | h
                · rw [← Option.some.inj h]
                  exact List.mem_cons_self
                · exact List.mem_cons_of_mem _ h
              · rcases List.mem_cons.mp hw with h | h
                · rw [(Prod.mk.inj h).2]
                  exact hle
                · exact hrest w h
          | some old =>
              rw [hold] at hfrom hbest
              simp only [Option.all_some, decide_eq_true_eq, true_and] at hfrom hbest
              by_cases hless : rank value < rank old
              · rw [if_pos hless] at hfrom hbest
                have hle := hbest value rfl
                refine ⟨.inr ?_, fun w hw => ?_, fun w hw => ?_⟩
                · rcases hfrom with h | h
                  · rw [← Option.some.inj h]
                    exact List.mem_cons_self
                  · exact List.mem_cons_of_mem _ h
                · rw [← Option.some.inj hw]
                  omega
                · rcases List.mem_cons.mp hw with h | h
                  · rw [(Prod.mk.inj h).2]
                    exact hle
                  · exact hrest w h
              · rw [if_neg hless] at hfrom hbest
                have hle := hbest old rfl
                refine ⟨hfrom.imp id (List.mem_cons_of_mem _), hbest, fun w hw => ?_⟩
                rcases List.mem_cons.mp hw with h | h
                · rw [(Prod.mk.inj h).2]
                  omega
                · exact hrest w h
        · rw [if_neg fun h => hk h.1] at hfrom
          simp only [if_neg fun h : k = key ∧ _ => hk h.1] at hbest
          refine ⟨hfrom.imp id (List.mem_cons_of_mem _), hbest, fun w hw => ?_⟩
          rcases List.mem_cons.mp hw with h | h
          · exact absurd (Prod.mk.inj h).1 hk
          · exact hrest w h
      · intro h
        obtain ⟨hbest, hrest⟩ := hnone h
        rw [lookup_keepLeast] at hbest
        split at hbest
        case isTrue => cases hbest
        case isFalse hnot =>
            refine ⟨hbest, fun w hw => ?_⟩
            rcases List.mem_cons.mp hw with h | h
            · exact hnot ⟨(Prod.mk.inj h).1, by rw [← (Prod.mk.inj h).1, hbest]; rfl⟩
            · exact hrest w h

end

/-! ## §4. The shells of the panels. -/

section

variable {uuid : UuidText} {me : Nat}

theorem childOf_eq_some {e : ProcEntry} {panel : Uuid} {pid : Nat} {cwd : String} :
    childOf uuid me e = some (panel, pid, cwd) ↔
      Str.parseU32 e.name = some pid ∧ e.stat.bind parsePpidStat = some me ∧
        (∃ environ, e.environ = some environ ∧ panelIdFromEnviron uuid environ = some panel) ∧
        e.cwd = some cwd := by
  unfold childOf
  cases Str.parseU32 e.name with
  | none => simp
  | some n =>
      by_cases hparent : e.stat.bind parsePpidStat = some me
      · rw [Option.bind_eq_bind, Option.bind_some, if_pos hparent]
        constructor
        · intro h
          obtain ⟨environ, henv, h⟩ := Option.bind_eq_some_iff.mp h
          obtain ⟨panelId, hpanel, h⟩ := Option.bind_eq_some_iff.mp h
          obtain ⟨dir, hdir, h⟩ := Option.bind_eq_some_iff.mp h
          cases h
          exact ⟨rfl, hparent, ⟨environ, henv, hpanel⟩, hdir⟩
        · rintro ⟨hn, -, ⟨environ, henv, hpanel⟩, hdir⟩
          rw [henv, hdir]
          show (panelIdFromEnviron uuid environ).bind _ = _
          rw [hpanel, Option.some.inj hn]
          rfl
      · simp [hparent]

/-- **`allLocalPanelCwds_iff`**: a panel's directory is the one of its oldest direct child
that has one, whatever the order of the directory. -/
theorem allLocalPanelCwds_iff {entries : List ProcEntry}
    (hdistinct : ∀ e ∈ entries, ∀ e' ∈ entries, ∀ pid, Str.parseU32 e.name = some pid →
      Str.parseU32 e'.name = some pid → e = e')
    (panel : Uuid) (pid : Nat) (cwd : String) :
    (allLocalPanelCwds uuid me (some entries)).lookup panel = some (pid, cwd) ↔
      (∃ e ∈ entries, childOf uuid me e = some (panel, pid, cwd)) ∧
        ∀ e ∈ entries, ∀ pid' cwd', childOf uuid me e = some (panel, pid', cwd') → pid ≤ pid' := by
  obtain ⟨hsome, hnone⟩ := foldl_keepLeast (fun v : Nat × String => v.1)
    (entries.filterMap (childOf uuid me)) ∅ panel
  have hmem : ∀ v, (panel, v) ∈ entries.filterMap (childOf uuid me) ↔
      ∃ e ∈ entries, childOf uuid me e = some (panel, v) := fun v => List.mem_filterMap
  constructor
  · intro h
    obtain ⟨hfrom, -, hleast⟩ := hsome (pid, cwd) h
    refine ⟨(hmem _).mp (hfrom.resolve_left nofun), fun e he pid' cwd' hchild => ?_⟩
    exact hleast (pid', cwd') ((hmem _).mpr ⟨e, he, hchild⟩)
  · rintro ⟨⟨e, he, hchild⟩, hleast⟩
    cases hlookup : (allLocalPanelCwds uuid me (some entries)).lookup panel with
    | none => exact absurd ((hmem _).mpr ⟨e, he, hchild⟩) ((hnone hlookup).2 _)
    | some v =>
        obtain ⟨pid', cwd'⟩ := v
        obtain ⟨hfrom, -, hleast'⟩ := hsome (pid', cwd') hlookup
        obtain ⟨e', he', hchild'⟩ := (hmem _).mp (hfrom.resolve_left nofun)
        have hle : pid' ≤ pid := hleast' (pid, cwd) ((hmem _).mpr ⟨e, he, hchild⟩)
        -- two processes of least number are one entry
        obtain rfl : pid = pid' := Nat.le_antisymm (hleast e' he' pid' cwd' hchild') hle
        obtain rfl := hdistinct e he e' he' pid (childOf_eq_some.mp hchild).1
          (childOf_eq_some.mp hchild').1
        rw [hchild] at hchild'
        cases hchild'
        rfl

/-- Ids as decimal numbers. -/
def sampleUuid : UuidText where
  text id := (toString id).toList
  parse   := Str.digits 0

/-- A shell of a panel. -/
def sampleShell (pid panel : Nat) (cwd : String) : ProcEntry where
  name    := (toString pid).toList
  stat    := some sampleServer.line
  environ := some ["TERM=xterm".toList, panelVar ++ sampleUuid.text panel]
  cwd     := some cwd

def samplePanels : List ProcEntry :=
  [sampleShell 4300 7 "/new", sampleShell 4242 7 "/old", sampleShell 4100 8 "/other"]

theorem allLocalPanelCwds_iff_samplePanels :
    (allLocalPanelCwds sampleUuid 4000 (some samplePanels)).lookup 7 = some (4242, "/old") := by
  have hnames : (samplePanels.map fun e => Str.parseU32 e.name).Nodup := by decide +kernel
  have hchildren : samplePanels.map (childOf sampleUuid 4000) =
      [some (7, 4300, "/new"), some (7, 4242, "/old"), some (8, 4100, "/other")] := by
    decide +kernel
  refine (allLocalPanelCwds_iff (fun e he e' he' pid hpid hpid' =>
    List.inj_on_of_nodup_map hnames he he' (hpid.trans hpid'.symm)) 7 4242 "/old").mpr ⟨?_, ?_⟩
  · exact List.mem_map.mp (hchildren ▸ by decide)
  · intro e he pid cwd hchild
    have hmem := hchildren ▸ List.mem_map.mpr ⟨e, he, hchild⟩
    simp only [List.mem_cons, Option.some.injEq, Prod.mk.injEq, List.not_mem_nil,
      or_false] at hmem
    obtain ⟨-, rfl, -⟩ | ⟨-, rfl, -⟩ | ⟨hpanel, -⟩ := hmem
    · decide
    · decide
    · cases hpanel

/-- What jmux puts into the environment of its terminals. -/
structure Labelled (uuid : UuidText) (environ : List (List Char)) : Prop where
  shown : ∀ v ∈ environ, panelVar <+: v → ∃ id, v = panelVar ++ uuid.text id
  once  : ∀ v ∈ environ, ∀ w ∈ environ, panelVar <+: v → panelVar <+: w → v = w

theorem stripPrefix_eq_some {pre cs v : List Char} :
    Str.stripPrefix pre cs = some v ↔ cs = pre ++ v := by
  constructor
  · intro h
    unfold Str.stripPrefix at h
    split at h
    case isTrue hpre =>
        obtain ⟨rest, rfl⟩ := List.isPrefixOf_iff_prefix.mp hpre
        rw [List.drop_left] at h
        rw [Option.some.inj h]
    case isFalse => cases h
  · rintro rfl
    exact stripPrefix_append pre v

/-- The two ways to look for a panel in an environment agree. -/
theorem contains_iff_panelId {environ : List (List Char)} (hlabelled : Labelled uuid environ)
    (hparse : ∀ id, uuid.parse (Str.trimMatches Str.isWhitespace (uuid.text id)) = some id)
    (panel : Uuid) : environ.contains (panelVar ++ uuid.text panel) = true ↔
      panelIdFromEnviron uuid environ = some panel := by
  have hbegins : ∀ id, panelVar <+: panelVar ++ uuid.text id := fun _ => List.prefix_append _ _
  rw [List.contains_iff_mem]
  unfold panelIdFromEnviron
  constructor
  · intro hmem
    have hfind : environ.findSome? (Str.stripPrefix panelVar) = some (uuid.text panel) := by
      cases hfound : environ.findSome? (Str.stripPrefix panelVar) with
      | none =>
          have hnone := List.findSome?_eq_none_iff.mp hfound _ hmem
          rw [stripPrefix_append] at hnone
          cases hnone
      | some v =>
          obtain ⟨w, hw, hv⟩ := List.exists_of_findSome?_eq_some hfound
          obtain rfl := stripPrefix_eq_some.mp hv
          have hsame := hlabelled.once _ hw _ hmem (List.prefix_append _ _) (hbegins panel)
          rw [List.append_cancel_left hsame]
    rw [hfind, Option.bind_some, hparse]
  · intro h
    obtain ⟨v, hfound, hv⟩ := Option.bind_eq_some_iff.mp h
    obtain ⟨w, hw, hstrip⟩ := List.exists_of_findSome?_eq_some hfound
    obtain rfl := stripPrefix_eq_some.mp hstrip
    obtain ⟨id, hid⟩ := hlabelled.shown _ hw (List.prefix_append _ _)
    rw [List.append_cancel_left hid, hparse] at hv
    rw [← Option.some.inj hv, ← hid]
    exact hw

/-- A direct child with the panel in its environment. -/
structure Shell (uuid : UuidText) (me : Nat) (panel : Uuid) (pid : Nat) (e : ProcEntry) : Prop where
  name   : Str.parseU32 e.name = some pid
  panel  : hasPanel uuid panel e = true
  parent : e.stat.bind parsePpid = some me

theorem liveCwdLoop_eq {panel : Uuid} {pid : Nat} {shell : ProcEntry}
    (hshell : Shell uuid me panel pid shell) {entries : List ProcEntry}
    (hmem : shell ∈ entries)
    (honly : ∀ e ∈ entries, ∀ n, Shell uuid me panel n e → e = shell)
    (fallback : Option (Nat × ProcEntry)) :
    liveCwdLoop uuid me panel fallback entries = shell.cwd := by
  induction entries generalizing fallback with
  | nil => cases hmem
  | cons e entries ih =>
      have honly' : ∀ e ∈ entries, ∀ n, Shell uuid me panel n e → e = shell :=
        fun e he => honly e (List.mem_cons_of_mem _ he)
      by_cases he : e = shell
      · subst he
        simp only [liveCwdLoop, hshell.name, hshell.panel, hshell.parent, if_true]
      · have hmem' : shell ∈ entries := (List.mem_cons.mp hmem).resolve_left (Ne.symm he)
        unfold liveCwdLoop
        split
        · exact ih hmem' honly' _
        case h_2 n hname =>
            split
            case isTrue hpanel =>
                split
                case isTrue hparent =>
                    exact absurd (honly e List.mem_cons_self n ⟨hname, hpanel, hparent⟩) he
                case isFalse =>
                    split
                    · exact ih hmem' honly' _
                    · exact ih hmem' honly' _
            case isFalse => exact ih hmem' honly' _

theorem shellPidLoop_eq {panel : Uuid} {pid : Nat} {shell : ProcEntry}
    (hshell : Shell uuid me panel pid shell) {entries : List ProcEntry}
    (hmem : shell ∈ entries)
    (honly : ∀ e ∈ entries, ∀ n, Shell uuid me panel n e → e = shell)
    (fallback : Option Nat) : shellPidLoop uuid me panel fallback entries = some pid := by
  induction entries generalizing fallback with
  | nil => cases hmem
  | cons e entries ih =>
      have honly' : ∀ e ∈ entries, ∀ n, Shell uuid me panel n e → e = shell :=
        fun e he => honly e (List.mem_cons_of_mem _ he)
      by_cases he : e = shell
      · subst he
        simp only [shellPidLoop, hshell.name, hshell.panel, hshell.parent, if_true]
      · have hmem' : shell ∈ entries := (List.mem_cons.mp hmem).resolve_left (Ne.symm he)
        unfold shellPidLoop
        split
        · exact ih hmem' honly' _
        case h_2 n hname =>
            split
            case isTrue hpanel =>
                split
                case isTrue hparent =>
                    exact absurd (honly e List.mem_cons_self n ⟨hname, hpanel, hparent⟩) he
                case isFalse => exact ih hmem' honly' _
            case isFalse => exact ih hmem' honly' _

end

theorem sampleUuid_parse (id : Uuid) :
    sampleUuid.parse (Str.trimMatches Str.isWhitespace (sampleUuid.text id)) = some id := by
  have hword : ∀ c ∈ sampleUuid.text id, Str.isWhitespace c = false :=
    fun c hc => Ports.isDigit_noBlank (isDigit_of_mem_toString hc)
  rw [Str.trimMatches_self (fun c hc => hword c (List.mem_of_mem_head? hc))
    fun c hc => hword c (List.mem_of_getLast? hc)]
  exact digits_toString id

theorem sampleShell_labelled (pid panel : Nat) (cwd : String) :
    ∀ environ, (sampleShell pid panel cwd).environ = some environ →
      Labelled sampleUuid environ := by
  rintro environ ⟨⟩
  have hterm : ¬ panelVar <+: "TERM=xterm".toList := by decide
  have honly : ∀ v ∈ ["TERM=xterm".toList, panelVar ++ sampleUuid.text panel],
      panelVar <+: v → v = panelVar ++ sampleUuid.text panel := by
    intro v hv hbegins
    rcases List.mem_cons.mp hv with rfl | hv
    · exact absurd hbegins hterm
    · exact List.mem_singleton.mp hv
  exact ⟨fun v hv hbegins => ⟨panel, honly v hv hbegins⟩,
    fun v hv w hw hv' hw' => (honly v hv hv').trans (honly w hw hw').symm⟩

end Jmux.Proc
