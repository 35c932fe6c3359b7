/-
  Jmux.Socket.V1Workspace — the calls on a workspace, from the line to the
  operation: selection, actions, status, log and metadata.

  Main results:
    * `settled_setStatus`, `settled_reportMeta` — the values arrive as they are given.
    * `settled_setProgress` — the number does exactly if it is read again as itself.
    * `settled_clearStatus` — the key does not arrive.
-/
import Jmux.Socket.V1Serve

namespace Jmux.Socket

open Jmux.Lib Jmux.Model

variable {F : Type} {env : V2Env F} {tm : TabManager} {op : Operation F} {args : List String}
  {o : Options}


/-! ## §1. Readers. -/

/-- A number that is given. -/
theorem parseUsizeParam_eq {key : String} {params v : Value F} {n : Nat}
    (hget : params.get key = some v) (hv : v.asU64 = some n) :
    parseUsizeParam key params = .ok (some n) := by
  unfold parseUsizeParam
  rw [hget]
  dsimp only
  rw [hv]

@[simp] theorem get_priority (l : V1Line) (key : String) :
    Value.get key (.obj (l.priority (F := F))) = if "priority" = key then
      ((l.flags.get "priority").bind fun s => Str.parseI64 s.toList).map .int else none := by
  unfold V1Line.priority
  cases (l.flags.get "priority").bind fun s => Str.parseI64 s.toList with
  | none =>
      split
      · rfl
      · rfl
  | some n => exact Value.get_singleton key "priority" (.int n)

theorem priorityParam_eq {priority : Option String} {n : Int} (h : priorityOf priority = some n)
    {params : Value F} (hget : params.get "priority"
      = (priority.bind fun s => Str.parseI64 s.toList).map .int) :
    priorityParam params = n := by
  unfold priorityParam
  rw [hget]
  cases priority with
  | none =>
      cases h
      rfl
  | some s =>
      obtain ⟨hparse, hrange⟩ := Option.filter_eq_some_iff.mp h
      rw [Option.bind_some, hparse, Option.map_some, Option.bind_some,
        Value.asI64_int (Str.parseI64_range hparse), Option.filter_some, if_pos hrange]
      rfl

/-! ## §2. New, selected, moved. -/

theorem settled_new (hop : V1Call.intended env tm ⟨.new, args, o⟩ = some op) :
    Settled env tm ⟨.new, args, o⟩ op := by
  dsimp only [V1Call.intended] at hop
  obtain ⟨_, h⟩ := optArg_some hop
  obtain ⟨hfits, h⟩ := Option.ite_none_right_eq_some.mp h
  cases h
  refine settled_of_agrees rfl not_false fun l hl => ?_
  show some (handleWorkspaceNew (.obj _)) = _
  rw [hl.args]
  have hdir := map_truncateStr_self hfits
  simp [handleWorkspaceNew, eitherParam, strParam, hdir]

theorem settled_select (hop : V1Call.intended env tm ⟨.select, args, o⟩ = some op) :
    Settled env tm ⟨.select, args, o⟩ op := by
  dsimp only [V1Call.intended] at hop
  obtain ⟨a, rfl, h⟩ := oneArg_some hop
  refine settled_of_agrees rfl not_false fun l hl => ?_
  have harg : l.arg 0 "" = a := hl.arg 0 ""
  show answer env tm (V1Command.build env.toV1Env l .selectWorkspace) = _
  dsimp only [V1Command.build]
  rw [harg]
  cases hid : env.parseUuid a with
  | some id =>
      cases hindex : Str.parseUsize a.toList with
      | some i => rw [hid, hindex] at h; cases h
      | none =>
          rw [hid, hindex] at h
          cases h
          show some (handleWorkspaceSelect env (.obj [("workspace", .str a)])) = _
          have hparse : Parses env (some a) (some id) := congrArg some hid
          unfold handleWorkspaceSelect
          have hread : parseUsizeParam (F := F) "index" (.obj [("workspace", .str a)])
              = .ok none := by simp [parseUsizeParam]
          rw [hread, parseWorkspaceParam_eq hparse (by simp [eitherParam])]
          rfl
  | none =>
      cases hindex : Str.parseUsize a.toList with
      | none => rw [hid, hindex] at h; cases h
      | some i =>
          rw [hid, hindex] at h
          cases h
          show some (handleWorkspaceSelect env (.obj [("index", .int i)])) = _
          have hread : parseUsizeParam (F := F) "index" (.obj [("index", .int i)])
              = .ok (some i) :=
            parseUsizeParam_eq (by simp) (Value.asU64_int (Str.parseUsize_lt hindex))
          have hnone : parseWorkspaceParam (F := F) env (.obj [("index", .int i)]) = .ok none :=
            @parseWorkspaceParam_eq _ env _ none none rfl (by simp [eitherParam])
          unfold handleWorkspaceSelect
          rw [hread, hnone]
          rfl

theorem settled_current (hop : V1Call.intended env tm ⟨.current, args, o⟩ = some op) :
    Settled env tm ⟨.current, args, o⟩ op := by
  obtain ⟨_, h⟩ := noArgs_some hop
  obtain ⟨ws, hws, rfl⟩ := Option.map_eq_some_iff.mp h
  refine settled_of_agrees rfl not_false fun l hl => ?_
  show some (handleWorkspaceCurrent tm) = _
  unfold handleWorkspaceCurrent
  rw [hws]
  rfl

theorem settled_workspaceAction
    (hop : V1Call.intended env tm ⟨.workspaceAction, args, o⟩ = some op) :
    Settled env tm ⟨.workspaceAction, args, o⟩ op := by
  dsimp only [V1Call.intended] at hop
  obtain ⟨a, rfl, h⟩ := oneArg_some hop
  obtain ⟨ws, hws, h⟩ := Option.bind_eq_some_iff.mp h
  obtain ⟨act, hact, h⟩ := Option.bind_eq_some_iff.mp h
  cases h
  obtain ⟨id, htab, hor⟩ := workspaceOf_spec hws
  refine settled_of_agrees rfl not_false fun l hl => ?_
  show some (handleWorkspaceAction env tm (.obj _)) = _
  rw [show l.arg 0 "" = a from hl.arg 0 "", hl.inWorkspace]
  generalize hp : Value.obj _ = p
  have hid : parseWorkspaceParam env p = .ok id :=
    parseWorkspaceParam_eq htab (by simp [← hp, eitherParam])
  have haction : strParam "action" p = some a := by simp [← hp, strParam, Value.asStr]
  have hof : workspaceActionOf p a = .ok act := by
    unfold workspaceActionOf
    rw [if_neg (by rintro rfl; cases hact), if_neg (by rintro rfl; cases hact), hact]
    rfl
  simp [handleWorkspaceAction, hid, haction, hor, hof]

theorem settled_moveWorkspaceToWindow
    (hop : V1Call.intended env tm ⟨.moveWorkspaceToWindow, args, o⟩ = some op) :
    Settled env tm ⟨.moveWorkspaceToWindow, args, o⟩ op := by
  dsimp only [V1Call.intended] at hop
  obtain ⟨a, rfl, h⟩ := oneArg_some hop
  obtain ⟨ws, hws, h⟩ := Option.bind_eq_some_iff.mp h
  obtain ⟨window, hwindow, h⟩ := Option.bind_eq_some_iff.mp h
  cases h
  obtain ⟨id, htab, hor⟩ := workspaceOf_spec hws
  refine settled_of_agrees rfl not_false fun l hl => ?_
  show some (handleWorkspaceMoveToWindow env tm (.obj _)) = _
  rw [show l.arg 0 "" = a from hl.arg 0 "", hl.inWorkspace]
  generalize hp : Value.obj _ = p
  have hid : parseWorkspaceParam env p = .ok id :=
    parseWorkspaceParam_eq htab (by simp [← hp, eitherParam])
  have hread : strParam "window" p = some a := by simp [← hp, strParam, Value.asStr]
  simp [handleWorkspaceMoveToWindow, hid, hread, hor, hwindow]

/-! ## §3. Status, log and progress. -/

theorem settled_setStatus (hop : V1Call.intended env tm ⟨.setStatus, args, o⟩ = some op) :
    Settled env tm ⟨.setStatus, args, o⟩ op := by
  dsimp only [V1Call.intended] at hop
  obtain ⟨key, value, rfl, h⟩ := twoArgs_some hop
  obtain ⟨ws, hws, h⟩ := Option.bind_eq_some_iff.mp h
  obtain ⟨⟨hkey, hvalue, hicon, hcolor, hurl⟩, h⟩ := Option.ite_none_right_eq_some.mp h
  cases h
  obtain ⟨id, htab, hor⟩ := workspaceOf_spec hws
  refine settled_of_agrees rfl not_false fun l hl => ?_
  show some (handleWorkspaceSetStatus env tm (.obj _)) = _
  rw [show l.arg 0 "" = key from hl.arg 0 "", show l.arg 1 "" = value from hl.arg 1 "",
    show l.flags.get "icon" = o.icon from hl.flags "icon",
    show l.flags.get "color" = o.color from hl.flags "color",
    show l.flags.get "url" = o.url from hl.flags "url", hl.inWorkspace]
  generalize hp : Value.obj _ = p
  have hid : parseWorkspaceParam env p = .ok id :=
    parseWorkspaceParam_eq htab (by simp [← hp, eitherParam])
  have hk : strParam "key" p = some key := by simp [← hp, strParam, Value.asStr]
  have hv : strParam "value" p = some value := by simp [← hp, strParam, Value.asStr]
  have hi : strParam "icon" p = o.icon := by simp [← hp, strParam]
  have hc : strParam "color" p = o.color := by simp [← hp, strParam]
  have hu : strParam "url" p = o.url := by simp [← hp, strParam]
  unfold handleWorkspaceSetStatus
  rw [hid, ok_bind, hk, hv]
  dsimp only
  rw [hor, ok_bind, hi, hc, hu]
  unfold setStatusWithUrl
  rw [truncateStr_self hkey, truncateStr_self hvalue, map_truncateStr_self hicon,
    map_truncateStr_self hcolor, map_truncateStr_self hurl]
  rfl

theorem settled_clearStatus (hop : V1Call.intended env tm ⟨.clearStatus, args, o⟩ = some op) :
    Settled env tm ⟨.clearStatus, args, o⟩ op := by
  dsimp only [V1Call.intended] at hop
  obtain ⟨hargs, h⟩ := optArg_some hop
  obtain ⟨ws, hws, rfl⟩ := Option.map_eq_some_iff.mp h
  refine settled_of_answer rfl fun l hl => ?_
  show some (handleWorkspaceClearStatus env tm (.obj _)) = _ ↔ ¬ (args ≠ [])
  rw [hl.inWorkspace]
  unfold handleWorkspaceClearStatus onWorkspace
  rw [onWorkspaceOr_eq hws (by simp [eitherParam]), not_not]
  cases args with
  | nil => exact iff_of_true rfl rfl
  | cons a as => exact iff_of_false (by intro h; cases h) (by intro h; cases h)

theorem settled_log (hop : V1Call.intended env tm ⟨.log, args, o⟩ = some op) :
    Settled env tm ⟨.log, args, o⟩ op := by
  dsimp only [V1Call.intended] at hop
  obtain ⟨message, rfl, h⟩ := oneArg_some hop
  obtain ⟨ws, hws, h⟩ := Option.bind_eq_some_iff.mp h
  obtain ⟨⟨hmessage, hlevel, hsource⟩, h⟩ := Option.ite_none_right_eq_some.mp h
  cases h
  obtain ⟨id, htab, hor⟩ := workspaceOf_spec hws
  refine settled_of_agrees rfl not_false fun l hl => ?_
  show some (handleWorkspaceAppendLog env tm (.obj _)) = _
  rw [show l.arg 0 "" = message from hl.arg 0 "",
    show l.flags.get "level" = o.level from hl.flags "level",
    show l.flags.get "source" = o.source from hl.flags "source", hl.inWorkspace]
  generalize hp : Value.obj _ = p
  have hid : parseWorkspaceParam env p = .ok id :=
    parseWorkspaceParam_eq htab (by simp [← hp, eitherParam])
  have hm : strParam "message" p = some message := by simp [← hp, strParam, Value.asStr]
  have hle : strParam "level" p = o.level := by simp [← hp, strParam]
  have hs : strParam "source" p = o.source := by simp [← hp, strParam]
  -- the level that is meant when none is given is within the limit as well
  have hfits : (o.level.getD "info").utf8ByteSize ≤ 64 := by
    cases hlev : o.level with
    | none => decide
    | some level => exact hlevel level hlev
  unfold handleWorkspaceAppendLog
  rw [hid, ok_bind, hm, orElseReturn_some, ok_bind, hor, ok_bind, hle, hs,
    truncateStr_self hmessage, truncateStr_self hfits, map_truncateStr_self hsource]
  rfl

theorem settled_setProgress (hop : V1Call.intended env tm ⟨.setProgress, args, o⟩ = some op) :
    Settled env tm ⟨.setProgress, args, o⟩ op := by
  dsimp only [V1Call.intended] at hop
  obtain ⟨value, hargs, h⟩ := oneOrTwo_some hop
  obtain ⟨ws, hws, h⟩ := Option.bind_eq_some_iff.mp h
  obtain ⟨x, hx, h⟩ := Option.bind_eq_some_iff.mp h
  cases h
  obtain ⟨hparse, hfinite⟩ := Option.filter_eq_some_iff.mp hx
  obtain ⟨id, htab, hor⟩ := workspaceOf_spec hws
  have hdiffers : V1Call.Differs env tm ⟨.setProgress, args, o⟩ ↔ env.reread x ≠ x := by
    show (∃ s ∈ args.head?, ∃ x ∈ env.floats.parse s, env.reread x ≠ x) ↔ _
    rw [hargs]
    simp [hparse]
  refine settled_of_answer rfl fun l hl => ?_
  rw [hdiffers, not_not]
  show some (handleWorkspaceSetProgress env tm (.obj _)) = _ ↔ _
  have hsent : ((args[0]?.bind env.floats.parse).map (Value.ofFloat env.floats)).getD
      (.ofFloat env.floats (env.floats.ofInt 0)) = .float x := by
    rw [hargs]
    show ((env.floats.parse value).map _).getD _ = _
    rw [hparse]
    exact if_pos hfinite
  rw [show l.args = args from hl.args, hsent, hl.inWorkspace]
  generalize hp : Value.obj _ = p
  have hid : parseWorkspaceParam env p = .ok id :=
    parseWorkspaceParam_eq htab (by simp [← hp, eitherParam])
  have hv : f64Param env "value" p = some (env.reread x) := by simp [← hp, f64Param]
  have hlabel : strParam "label" p = args[1]? := by simp [← hp, strParam]
  unfold handleWorkspaceSetProgress
  rw [hid, ok_bind, hor, ok_bind, hv, hlabel]
  constructor
  · intro h
    obtain ⟨_, hsame⟩ := Operation.setProgress.inj (Except.ok.inj (Option.some.inj h))
    exact congrArg Prod.fst (Option.some.inj hsame)
  · intro h
    rw [h]
    rfl

/-! ## §4. Metadata. -/

theorem settled_reportMeta (hop : V1Call.intended env tm ⟨.reportMeta, args, o⟩ = some op) :
    Settled env tm ⟨.reportMeta, args, o⟩ op := by
  dsimp only [V1Call.intended] at hop
  obtain ⟨key, value, rfl, h⟩ := twoArgs_some hop
  obtain ⟨ws, hws, h⟩ := Option.bind_eq_some_iff.mp h
  obtain ⟨priority, hpriority, h⟩ := Option.bind_eq_some_iff.mp h
  obtain ⟨⟨hkey, hvalue⟩, h⟩ := Option.ite_none_right_eq_some.mp h
  cases h
  obtain ⟨id, htab, hor⟩ := workspaceOf_spec hws
  refine settled_of_agrees rfl not_false fun l hl => ?_
  show some (handleWorkspaceReportMeta env tm (.obj _)) = _
  rw [show l.arg 0 "" = key from hl.arg 0 "", show l.arg 1 "" = value from hl.arg 1 "",
    show l.flags.get "icon" = o.icon from hl.flags "icon",
    show l.flags.get "color" = o.color from hl.flags "color",
    show l.flags.get "url" = o.url from hl.flags "url",
    show l.flags.get "format" = none from hl.flags "format", hl.inWorkspace]
  have hlp : l.flags.get "priority" = o.priority := hl.flags "priority"
  generalize hp : Value.obj _ = p
  have hid : parseWorkspaceParam env p = .ok id :=
    parseWorkspaceParam_eq htab (by simp [← hp, eitherParam])
  have hk : strParam "key" p = some key := by simp [← hp, strParam, Value.asStr]
  have hv : strParam "value" p = some value := by simp [← hp, strParam, Value.asStr]
  have hi : strParam "icon" p = o.icon := by simp [← hp, strParam]
  have hc : strParam "color" p = o.color := by simp [← hp, strParam]
  have hu : strParam "url" p = o.url := by simp [← hp, strParam]
  have hf : strParam "format" p = none := by simp [← hp, strParam]
  have hn : priorityParam p = priority := priorityParam_eq hpriority (by simp [← hp, hlp])
  unfold handleWorkspaceReportMeta
  rw [hid, ok_bind, hk, hv]
  dsimp only
  rw [hor, ok_bind, hi, hc, hu, hf, hn, truncateStr_self hkey, truncateStr_self hvalue]
  rfl

theorem settled_reportMetaBlock
    (hop : V1Call.intended env tm ⟨.reportMetaBlock, args, o⟩ = some op) :
    Settled env tm ⟨.reportMetaBlock, args, o⟩ op := by
  dsimp only [V1Call.intended] at hop
  obtain ⟨key, content, rfl, h⟩ := twoArgs_some hop
  obtain ⟨ws, hws, h⟩ := Option.bind_eq_some_iff.mp h
  obtain ⟨priority, hpriority, h⟩ := Option.bind_eq_some_iff.mp h
  obtain ⟨⟨hkey, hcontent⟩, h⟩ := Option.ite_none_right_eq_some.mp h
  cases h
  obtain ⟨id, htab, hor⟩ := workspaceOf_spec hws
  refine settled_of_agrees rfl not_false fun l hl => ?_
  show some (handleWorkspaceReportMetaBlock env tm (.obj _)) = _
  rw [show l.arg 0 "" = key from hl.arg 0 "", show l.arg 1 "" = content from hl.arg 1 "",
    hl.inWorkspace]
  have hlp : l.flags.get "priority" = o.priority := hl.flags "priority"
  generalize hp : Value.obj _ = p
  have hid : parseWorkspaceParam env p = .ok id :=
    parseWorkspaceParam_eq htab (by simp [← hp, eitherParam])
  have hk : strParam "key" p = some key := by simp [← hp, strParam, Value.asStr]
  have hc : strParam "content" p = some content := by simp [← hp, strParam, Value.asStr]
  have hn : priorityParam p = priority := priorityParam_eq hpriority (by simp [← hp, hlp])
  unfold handleWorkspaceReportMetaBlock
  rw [hid, ok_bind, hk, hc]
  dsimp only
  rw [hor, ok_bind, hn, truncateStr_self hkey, truncateStr_self hcontent]
  rfl

end Jmux.Socket
