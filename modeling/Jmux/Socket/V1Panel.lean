/-
  Jmux.Socket.V1Panel — the calls on a panel and on the layout, from the line to the
  operation.

  Main results:
    * `settled_browser`        — a browser call needs its panel.
    * `settled_split`, `settled_focusDirection` — the layout is the selected
                                 workspace's, whichever the call names.
-/
import Jmux.Socket.V1Serve

namespace Jmux.Socket

open Jmux.Lib Jmux.Model

variable {F : Type} {env : V2Env F} {tm : TabManager} {c : V1Call} {command : V1Command}
  {op : Operation F} {args : List String} {o : Options}

/-! ## §1. Panels. -/

theorem settled_currentSurface
    (hop : V1Call.intended env tm ⟨.currentSurface, args, o⟩ = some op) :
    Settled env tm ⟨.currentSurface, args, o⟩ op := by
  dsimp only [V1Call.intended] at hop
  obtain ⟨_, h⟩ := noArgs_some hop
  obtain ⟨p, hp, rfl⟩ := Option.map_eq_some_iff.mp h
  obtain ⟨ws, hws, hfocus⟩ := Option.bind_eq_some_iff.mp hp
  refine settled_of_agrees rfl not_false fun l hl => ?_
  show some (handleSurfaceCurrent tm) = _
  unfold handleSurfaceCurrent
  rw [hws, orElseReturn_some, ok_bind, hfocus]
  rfl

/-- A surface that is given as an argument. -/
theorem paneParam_eq {id : String} {panel : Uuid} (hid : env.parseUuid id = some panel) :
    paneParam env (.obj [("surface", .str id)]) = .ok (some panel) := by
  have hparse : Parses env (some id) (some panel) := congrArg some hid
  exact panelOrNull_eq hparse (by simp [eitherParam]) _ _

theorem surfaceArg_eq {l : V1Line} {name : HelpCommand} {id : String}
    (hl : Parsed l ⟨name, [id], o⟩) :
    l.surfaceArg = id := by
  unfold V1Line.surfaceArg
  rw [show l.args = [id] from hl.args]
  rfl

theorem settled_focusSurface (hop : V1Call.intended env tm ⟨.focusSurface, args, o⟩ = some op) :
    Settled env tm ⟨.focusSurface, args, o⟩ op := by
  dsimp only [V1Call.intended] at hop
  obtain ⟨id, rfl, h⟩ := oneArg_some hop
  obtain ⟨panel, hid, h⟩ := Option.bind_eq_some_iff.mp h
  obtain ⟨ws, hws, h⟩ := Option.bind_eq_some_iff.mp h
  cases h
  refine settled_of_agrees rfl not_false fun l hl => ?_
  show some (handlePaneFocus env tm (.obj [("surface", .str l.surfaceArg)])) = _
  unfold handlePaneFocus
  rw [surfaceArg_eq hl, paneParam_eq hid, ok_bind, orElseReturn_some, ok_bind, hws]
  rfl

theorem settled_closeSurface (hop : V1Call.intended env tm ⟨.closeSurface, args, o⟩ = some op) :
    Settled env tm ⟨.closeSurface, args, o⟩ op := by
  dsimp only [V1Call.intended] at hop
  obtain ⟨id, rfl, h⟩ := oneArg_some hop
  obtain ⟨panel, hid, rfl⟩ := Option.map_eq_some_iff.mp h
  refine settled_of_agrees rfl not_false fun l hl => ?_
  show some (handlePaneClose env tm (.obj [("surface", .str l.surfaceArg)])) = _
  unfold handlePaneClose
  rw [surfaceArg_eq hl, paneParam_eq hid]
  rfl

theorem settled_sendKey (hop : V1Call.intended env tm ⟨.sendKey, args, o⟩ = some op) :
    Settled env tm ⟨.sendKey, args, o⟩ op := by
  dsimp only [V1Call.intended] at hop
  obtain ⟨key, rfl, h⟩ := oneArg_some hop
  obtain ⟨panel, hpanel, h⟩ := Option.bind_eq_some_iff.mp h
  obtain ⟨code, hcode, h⟩ := Option.bind_eq_some_iff.mp h
  cases h
  refine settled_of_agrees rfl not_false fun l hl => ?_
  show some (handleSurfaceSendKey env tm (.obj _)) = _
  rw [show l.arg 0 "" = key from hl.arg 0 "", hl.onPanel]
  generalize hp : Value.obj _ = p
  have hk : strParam "key" p = some key := by simp [← hp, strParam, Value.asStr]
  have hresolve : resolvePanelId tm (panelParam env p) = .ok panel :=
    resolvePanelId_eq hpanel (by simp [← hp, eitherParam])
  have hmods : p.get "mods" = none := by simp [← hp]
  unfold handleSurfaceSendKey
  rw [hk, orElseReturn_some, ok_bind, hcode, orElseReturn_some, ok_bind]
  dsimp only
  rw [hresolve, ok_bind, hmods]
  rfl

theorem settled_readScreen (hop : V1Call.intended env tm ⟨.readScreen, args, o⟩ = some op) :
    Settled env tm ⟨.readScreen, args, o⟩ op := by
  dsimp only [V1Call.intended] at hop
  obtain ⟨_, h⟩ := noArgs_some hop
  obtain ⟨panel, hpanel, rfl⟩ := Option.map_eq_some_iff.mp h
  refine settled_of_agrees rfl not_false fun l hl => ?_
  show some (handleSurfaceReadText env tm (.obj _)) = _
  rw [hl.onPanel, show l.flags.get "point" = none from hl.flags "point",
    show l.flags.get "scrollback" = none from hl.flags "scrollback",
    show l.flags.get "lines" = none from hl.flags "lines"]
  generalize hp : Value.obj _ = p
  have hresolve : resolvePanelId tm (panelParam env p) = .ok panel :=
    resolvePanelId_eq hpanel (by simp [← hp, eitherParam])
  have hscroll : p.get "scrollback" = none := by simp [← hp]
  have hlines : p.get "lines" = none := by simp [← hp]
  unfold handleSurfaceReadText
  rw [hresolve, ok_bind, hscroll, hlines]
  rfl

theorem settled_clearHistory (hop : V1Call.intended env tm ⟨.clearHistory, args, o⟩ = some op) :
    Settled env tm ⟨.clearHistory, args, o⟩ op := by
  dsimp only [V1Call.intended] at hop
  obtain ⟨_, h⟩ := noArgs_some hop
  obtain ⟨panel, hpanel, rfl⟩ := Option.map_eq_some_iff.mp h
  refine settled_of_agrees rfl not_false fun l hl => ?_
  show some (handleSurfaceClearHistory env tm (.obj l.onPanel)) = _
  unfold handleSurfaceClearHistory
  rw [hl.onPanel, resolvePanelId_eq hpanel (by simp [eitherParam])]
  rfl

theorem settled_breakPane (hop : V1Call.intended env tm ⟨.breakPane, args, o⟩ = some op) :
    Settled env tm ⟨.breakPane, args, o⟩ op := by
  dsimp only [V1Call.intended] at hop
  obtain ⟨_, h⟩ := noArgs_some hop
  obtain ⟨panel, hpanel, rfl⟩ := Option.map_eq_some_iff.mp h
  obtain ⟨_, _, _, _, ws, hws⟩ := panel_spec hpanel
  refine settled_of_agrees rfl not_false fun l hl => ?_
  show some (handlePaneBreak env tm (.obj l.onPanel)) = _
  unfold handlePaneBreak
  rw [hl.onPanel, resolvePanelId_eq hpanel (by simp [eitherParam]), ok_bind, hws]
  rfl

/-! ## §2. Browsers want a panel. -/

theorem requirePanelId_eq {panel : String} {p : Uuid} (hid : env.parseUuid panel = some p)
    {params : Value F} (hget : eitherParam "panel" "surface" params = some (.str panel)) :
    requirePanelId env params = .ok p := by
  unfold requirePanelId
  rw [hget]
  show orElseReturn _ (env.parseUuid panel) = _
  rw [hid]
  rfl

theorem requirePanelId_missing {params : Value F}
    (hget : eitherParam "panel" "surface" params = none) (hid : params.get "panel_id" = none) :
    requirePanelId env params = .error (invalidParams "Provide 'panel' UUID") := by
  unfold requirePanelId
  rw [hget, hid]
  rfl

/-- The panel is read from the flag or it is missing. -/
theorem requirePanelId_iff {p : Uuid} (hp : c.panel env tm = some p) {params : Value F}
    (hget : eitherParam "panel" "surface" params = c.options.panel.map .str)
    (hid : params.get "panel_id" = none) {rest : Uuid → Except Response (Operation F)}
    (hrest : rest p = .ok op) :
    (requirePanelId env params >>= rest) = .ok op ↔ c.options.panel ≠ none := by
  cases hpanel : c.options.panel with
  | none =>
      rw [hpanel] at hget
      rw [requirePanelId_missing hget hid]
      exact iff_of_false (fun h => by cases h) (fun h => h rfl)
  | some panel =>
      rw [hpanel] at hget
      obtain ⟨q, hparses, _, hsame, _⟩ := panel_spec hp
      rw [hpanel] at hparses
      obtain ⟨u, hu, hparse⟩ := parses_some hparses
      have hq : some u = some p :=
        hu.symm.trans (hsame (by rw [hpanel]; exact Option.some_ne_none _))
      cases hq
      rw [requirePanelId_eq hparse hget]
      exact iff_of_true hrest (Option.some_ne_none _)

theorem settled_browser {named : Uuid → Operation F} (hv : c.command.v1 = some command)
    (hnames : c.intended env tm = noArgs c.args ((c.panel env tm).map named))
    (hdiffers : c.Differs env tm ↔ c.options.panel = none)
    (h : ∀ l, answer env tm (command.build env.toV1Env l)
      = some (sendAction env named (.obj l.onPanel)))
    (hop : c.intended env tm = some op) : Settled env tm c op := by
  rw [hnames] at hop
  obtain ⟨_, hmap⟩ := noArgs_some hop
  obtain ⟨panel, hpanel, rfl⟩ := Option.map_eq_some_iff.mp hmap
  refine settled_of_answer hv fun l hl => ?_
  rw [h, hl.onPanel, hdiffers, Option.some.injEq]
  exact requirePanelId_iff hpanel (by simp [eitherParam]) (by simp) rfl

theorem settled_navigate (hop : V1Call.intended env tm ⟨.navigate, args, o⟩ = some op) :
    Settled env tm ⟨.navigate, args, o⟩ op := by
  dsimp only [V1Call.intended] at hop
  obtain ⟨url, rfl, h⟩ := oneArg_some hop
  obtain ⟨panel, hpanel, rfl⟩ := Option.map_eq_some_iff.mp h
  refine settled_of_answer rfl fun l hl => ?_
  show some (handleNavigate env (.obj _)) = _ ↔ o.panel ≠ none
  rw [show l.arg 0 "" = url from hl.arg 0 "", hl.onPanel, Option.some.injEq]
  generalize hp : Value.obj _ = p
  have hurl : strParam "url" p = some url := by simp [← hp, strParam, Value.asStr]
  refine requirePanelId_iff hpanel (by simp [← hp, eitherParam]) (by simp [← hp]) ?_
  rw [hurl]
  rfl

/-! ## §3. The layout of the selected workspace. -/

theorem lookup_two {α : Type} {k key other : String} {a b x : α}
    (h : List.lookup k [(key, a), (other, b)] = some x) : k = key ∧ a = x ∨ k = other ∧ b = x := by
  rw [List.lookup_cons] at h
  by_cases hkey : k = key
  · rw [beq_iff_eq.mpr hkey] at h
    exact .inl ⟨hkey, Option.some.inj h⟩
  · rw [beq_eq_false_iff_ne.mpr hkey] at h
    dsimp only at h
    rw [List.lookup_cons] at h
    by_cases hother : k = other
    · rw [beq_iff_eq.mpr hother] at h
      exact .inr ⟨hother, Option.some.inj h⟩
    · rw [beq_eq_false_iff_ne.mpr hother] at h
      cases h

/-- The direction as the dispatcher and the handler read it in turn. -/
theorem parseOrientation_splitOf {direction : Option String} {orientation : SplitOrientation}
    (h : splitOf direction = some orientation) :
    parseOrientation (some (if direction.getD "right" ∈ ["down", "vertical", "v"] then "vertical"
      else "horizontal")) = orientation := by
  cases direction with
  | none =>
      cases h
      decide
  | some d =>
      obtain ⟨rfl, rfl⟩ | ⟨rfl, rfl⟩ := lookup_two h
      · decide
      · decide

theorem browser_panelTypeOf {type : Option String} {panelType : PanelType}
    (h : panelTypeOf type = some panelType) :
    (if some (type.getD "terminal") = some "browser" then PanelType.browser else .terminal)
      = panelType := by
  cases type with
  | none =>
      cases h
      decide
  | some t =>
      obtain ⟨rfl, rfl⟩ | ⟨rfl, rfl⟩ := lookup_two h
      · decide
      · decide

theorem settled_split (hop : V1Call.intended env tm ⟨.split, args, o⟩ = some op) :
    Settled env tm ⟨.split, args, o⟩ op := by
  dsimp only [V1Call.intended] at hop
  obtain ⟨hargs, h⟩ := optArg_some hop
  obtain ⟨ws, hws, h⟩ := Option.bind_eq_some_iff.mp h
  obtain ⟨orientation, horientation, h⟩ := Option.bind_eq_some_iff.mp h
  obtain ⟨panelType, htype, h⟩ := Option.bind_eq_some_iff.mp h
  cases h
  refine settled_of_answer rfl fun l hl => ?_
  show some (handlePaneNew tm (.obj _)) = _
    ↔ ¬ (V1Call.workspace env tm ⟨.split, args, o⟩).map (·.id) ≠ tm.selectedId
  rw [hws, Option.map_some, not_not, show l.arg 0 "right" = (args[0]?).getD "right" from hl.arg 0 _,
    show l.flags.get "type" = o.type from hl.flags "type", hl.inWorkspace, Option.some.injEq]
  generalize hp : Value.obj _ = p
  have ho : strParam "orientation" p
      = some (if (args[0]?).getD "right" ∈ ["down", "vertical", "v"] then "vertical"
        else "horizontal") := by simp [← hp, strParam, Value.asStr]
  have ht : (eitherParam "panel_type" "type" p).bind Value.asStr
      = some (o.type.getD "terminal") := by simp [← hp, eitherParam, Value.asStr]
  have hurl : strParam "url" p = none := by simp [← hp, strParam]
  unfold handlePaneNew
  dsimp only
  rw [ho, ht, hurl, parseOrientation_splitOf horientation, browser_panelTypeOf htype, ite_self]
  exact @selected_iff _ _ _ _ (.split · orientation panelType none) (fun _ => rfl)
    (fun h => (Operation.split.inj h).1) _

theorem settled_openBrowser (hop : V1Call.intended env tm ⟨.openBrowser, args, o⟩ = some op) :
    Settled env tm ⟨.openBrowser, args, o⟩ op := by
  dsimp only [V1Call.intended] at hop
  obtain ⟨_, h⟩ := optArg_some hop
  obtain ⟨ws, hws, rfl⟩ := Option.map_eq_some_iff.mp h
  refine settled_of_answer rfl fun l hl => ?_
  show some (handlePaneNew tm (.obj _)) = _
    ↔ ¬ (V1Call.workspace env tm ⟨.openBrowser, args, o⟩).map (·.id) ≠ tm.selectedId
  rw [hws, Option.map_some, not_not, show l.args = args from hl.args, hl.inWorkspace,
    Option.some.injEq]
  generalize hp : Value.obj _ = p
  have ho : strParam "orientation" p = none := by simp [← hp, strParam]
  have ht : (eitherParam "panel_type" "type" p).bind Value.asStr = some "browser" := by
    simp [← hp, eitherParam, Value.asStr]
  have hurl : strParam "url" p = args[0]? := by simp [← hp, strParam]
  unfold handlePaneNew
  dsimp only
  rw [ho, if_pos ht, if_pos rfl, hurl]
  exact @selected_iff _ _ _ _ (.split · .horizontal .browser args[0]?) (fun _ => rfl)
    (fun h => (Operation.split.inj h).1) _

theorem settled_focusDirection
    (hop : V1Call.intended env tm ⟨.focusDirection, args, o⟩ = some op) :
    Settled env tm ⟨.focusDirection, args, o⟩ op := by
  dsimp only [V1Call.intended] at hop
  obtain ⟨name, rfl, h⟩ := oneArg_some hop
  obtain ⟨ws, hws, h⟩ := Option.bind_eq_some_iff.mp h
  obtain ⟨direction, hdirection, h⟩ := Option.bind_eq_some_iff.mp h
  cases h
  refine settled_of_answer rfl fun l hl => ?_
  show some (handlePaneFocusDirection tm (.obj _)) = _
    ↔ ¬ (V1Call.workspace env tm ⟨.focusDirection, [name], o⟩).map (·.id) ≠ tm.selectedId
  rw [hws, Option.map_some, not_not, show l.arg 0 "right" = name from hl.arg 0 _, hl.inWorkspace,
    Option.some.injEq]
  generalize hp : Value.obj _ = p
  have hname : strParam "direction" p = some name := by simp [← hp, strParam, Value.asStr]
  unfold handlePaneFocusDirection
  rw [hname, orElseReturn_some, ok_bind, hdirection, orElseReturn_some, ok_bind]
  exact selected_iff (fun _ => rfl) fun h => (Operation.focusDirection.inj h).1

end Jmux.Socket
