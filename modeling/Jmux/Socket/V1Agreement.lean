/-
  Jmux.Socket.V1Agreement — where a V1 command and its V2 handler agree.

  Main results:
    * `v1_v2_agree_iff` — the operation that comes out of a listed call is the one
                           that the help text promises, exactly where
                           `V1Call.Differs` does not say otherwise.
-/
import Jmux.Socket.V1Panel
import Jmux.Socket.V1Place
import Jmux.Socket.V1Workspace

namespace Jmux.Socket

open Jmux.Lib Jmux.Model

variable {F : Type} {env : V2Env F} {tm : TabManager} {c : V1Call} {command : V1Command}
  {op : Operation F} {args : List String} {o : Options}

/-! ## §1. Calls that are refused. -/

theorem bind_ne_ok {ε α β : Type} {x : Except ε α} {f : α → Except ε β} {b : β}
    (h : ∀ a, f a ≠ .ok b) : (x >>= f) ≠ .ok b := by
  cases x with
  | error e => exact fun hx => by cases hx
  | ok a => exact h a

theorem orElseReturn_bind_ne_ok {α β : Type} {x : Option α} (hx : x = none) {r : Response}
    {f : α → Except Response β} {b : β} : (orElseReturn r x >>= f) ≠ .ok b := by
  rw [hx]
  intro h
  cases h

/-- The handler does not find what it needs: the dispatcher gives it another name. -/
theorem settled_refused {handler : Value F → Except Response (Operation F)}
    {params : V1Line → List (String × Value F)} (hv : c.command.v1 = some command)
    (hdiffers : c.Differs env tm)
    (h : ∀ l, answer env tm (command.build env.toV1Env l) = some (handler (.obj (params l))))
    (hrefused : ∀ l, handler (.obj (params l)) ≠ .ok op) : Settled env tm c op :=
  settled_of_differs hv hdiffers fun l _ hl =>
    hrefused l (Option.some.inj ((h l).symm.trans hl))

theorem settled_swapPanes : Settled env tm ⟨.swapPanes, args, o⟩ op := by
  refine settled_refused rfl trivial (fun _ => rfl) fun l => ?_
  have ha : eitherParam "a" "panel_a" (.obj [("surface_a", .str (l.arg 0 "")),
      ("surface_b", .str (l.arg 1 ""))] : Value F) = none := by simp [eitherParam]
  unfold handlePaneSwap
  rw [ha]
  intro h
  cases h

theorem settled_reportShellState : Settled env tm ⟨.reportShellState, args, o⟩ op := by
  refine settled_refused rfl trivial (fun _ => rfl) fun l => bind_ne_ok fun wsId => ?_
  have hkey : strParam "key" (Value.obj ([("state", Value.str (l.arg 0 "prompt"))]
      ++ l.inWorkspace) : Value F) = none := by simp [strParam, V1Line.inWorkspace]
  rw [hkey]
  intro h
  cases h

/-- The window does not arrive: the primary one is refreshed. -/
theorem settled_focusWindow (hop : V1Call.intended env tm ⟨.focusWindow, args, o⟩ = some op) :
    Settled env tm ⟨.focusWindow, args, o⟩ op := by
  dsimp only [V1Call.intended] at hop
  obtain ⟨id, rfl, h⟩ := oneArg_some hop
  obtain ⟨w, hw, rfl⟩ := Option.map_eq_some_iff.mp h
  refine settled_refused rfl trivial (fun _ => rfl) fun l hl => ?_
  have hid : strParam "id" (.obj [("window", .str (l.arg 0 ""))] : Value F) = none := by
    simp [strParam]
  unfold handleWindowFocus at hl
  rw [hid] at hl
  cases hl

/-- The status is set to the empty text instead of being cleared. -/
theorem settled_clearPr (hop : V1Call.intended env tm ⟨.clearPr, args, o⟩ = some op) :
    Settled env tm ⟨.clearPr, args, o⟩ op := by
  dsimp only [V1Call.intended] at hop
  obtain ⟨_, h⟩ := noArgs_some hop
  obtain ⟨place, hplace, rfl⟩ := Option.map_eq_some_iff.mp h
  refine settled_refused rfl trivial (fun _ => rfl) fun l =>
    bind_ne_ok fun wsId => bind_ne_ok fun ws hl => ?_
  have hstatus : strParam "status"
      (Value.obj ([("status", Value.str "")] ++ l.inWorkspace) : Value F) = some "" := by
    simp [strParam, V1Line.inWorkspace, Value.asStr]
  rw [hstatus] at hl
  exact Option.some_ne_none _ (Operation.setPr.inj (Except.ok.inj hl)).2.1

/-! ## §2. Every call is settled. -/

theorem settled (hop : c.intended env tm = some op) : Settled env tm c op := by
  obtain ⟨name, args, o⟩ := c
  cases name with
  -- no arm of the dispatcher
  | close | reorder =>
      intro line hreads
      refine iff_of_false ?_ (not_not_intro trivial)
      unfold serve
      rw [@dispatch_of_unknown _ env.toV1Env _ (by rw [hreads.command, ofName_name]; rfl)]
      intro h
      cases h
  | ping | capabilities | identify | tree | auth | help | listWindows | currentWindow | newWindow
  | list | next | prev | last | latestUnread | portsKick | listNotifications
  | clearNotifications | settings =>
      exact settled_plain rfl rfl not_false (fun _ => rfl) hop
  | listStatus | clearProgress | clearLog | listLog | listMeta | listMetaBlocks | listSurfaces
  | listPanes =>
      exact settled_query "Workspace not found" rfl rfl not_false (fun _ => rfl) hop
  | equalize => exact settled_query "No workspace" rfl rfl not_false (fun _ => rfl) hop
  | clearMeta | clearMetaBlock => exact settled_keyed rfl rfl not_false (fun _ => rfl) hop
  | new => exact settled_new hop
  | select => exact settled_select hop
  | current => exact settled_current hop
  | workspaceAction => exact settled_workspaceAction hop
  | moveWorkspaceToWindow => exact settled_moveWorkspaceToWindow hop
  | setStatus => exact settled_setStatus hop
  | clearStatus => exact settled_clearStatus hop
  | setProgress => exact settled_setProgress hop
  | log => exact settled_log hop
  | reportMeta => exact settled_reportMeta hop
  | reportMetaBlock => exact settled_reportMetaBlock hop
  | reportPwd => exact settled_reportPwd hop
  | reportGitBranch => exact settled_reportGitBranch hop
  | clearGitBranch => exact settled_clearGitBranch hop
  | reportPr => exact settled_reportPr hop
  | clearPr => exact settled_clearPr hop
  | reportTty => exact settled_reportTty hop
  | reportPorts => exact settled_reportPorts hop
  | notify => exact settled_notify hop
  | notifySurface => exact settled_notifySurface hop
  | notifyTarget => exact settled_notifyTarget hop
  | currentSurface => exact settled_currentSurface hop
  | focusSurface => exact settled_focusSurface hop
  | closeSurface => exact settled_closeSurface hop
  | sendKey => exact settled_sendKey hop
  | readScreen => exact settled_readScreen hop
  | clearHistory => exact settled_clearHistory hop
  | breakPane => exact settled_breakPane hop
  | browserBack | browserForward | browserReload =>
      exact settled_browser rfl rfl Iff.rfl (fun _ => rfl) hop
  | navigate => exact settled_navigate hop
  | split => exact settled_split hop
  | openBrowser => exact settled_openBrowser hop
  | focusDirection => exact settled_focusDirection hop
  | focusWindow => exact settled_focusWindow hop
  | swapPanes => exact settled_swapPanes
  | reportShellState => exact settled_reportShellState
  | rename =>
      refine settled_refused rfl trivial (fun _ => rfl) fun l => bind_ne_ok fun wsId => ?_
      exact orElseReturn_bind_ne_ok (by simp [strParam, V1Line.inWorkspace])
  | closeWindow | send | sendSurface | resizePane | markdown =>
      refine settled_refused rfl trivial (fun _ => rfl) fun l => orElseReturn_bind_ne_ok ?_
      simp [strParam, f64Param, V1Line.inWorkspace, V1Line.onPanel]

/-- Whole numbers and one UUID. -/
def sampleV2Env : V2Env Int where
  floats    := { parse := fun s => Str.parseI64 s.toList, isFinite := fun _ => true, ofInt := id }
  parse     := fun _ => none
  parseUuid := fun s => if s = "00000000-0000-0000-0000-00000000002a" then some 42 else none
  reread    := id

/-- One workspace with one panel. -/
def sampleTabs : TabManager := .new 42 43 "/home/u"

def sampleCall (command : HelpCommand) (args : List String) : V1Call where
  command := command
  args    := args
  options := { tab := some "00000000-0000-0000-0000-00000000002a" }

end Jmux.Socket
