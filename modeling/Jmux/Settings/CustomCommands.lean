/-
  Jmux.Settings.CustomCommands — workspaces from a layout of `jmux.json`
  (`settings/custom_commands.rs`).

  A layout is a tree of splits with any number of children; its panes have any
  number of surfaces.  One pass over it builds the layout tree, the panels map
  and the focus.  The ids are drawn one after another.

  Main results:
    * `buildLayout_eq`      — the pass over the tree is a pass over its leaves.
    * `builds_panes`        — what that pass builds.
    * `representation_iff`  — when the workspace is a sound one.
-/
import Jmux.Goal.Revise
import Jmux.Model.ShownFocus
import Mathlib.Algebra.Order.Ring.Unbundled.Rat
import Mathlib.Data.List.ReduceOption
import Mathlib.Logic.Embedding.Basic

namespace Jmux.Settings

open Jmux.Lib Jmux.Model

/-! ## §1. Specifications. -/

structure SurfaceSpec where
  kind    : Option String := none
  name    : Option String := none
  command : Option String := none
  url     : Option String := none
  cwd     : Option String := none
  focus   : Bool := false

structure PaneSpec where
  surfaces : List SurfaceSpec := []

inductive LayoutSpec
  | split (direction : String) (split : Rat) (children : List LayoutSpec)
  | pane (pane : PaneSpec)

def defaultSplit : Rat := 1 / 2

structure WorkspaceSpec where
  name   : Option String := none
  cwd    : Option String := none
  color  : Option String := none
  /-- In the order of the keys. -/
  env    : List (String × String) := []
  layout : LayoutSpec

/-! ## §2. `build_workspace`. -/

/-- What is asked of the machine. -/
structure Machine where
  /-- `$HOME`, or `/` without it. -/
  home    : String
  /-- `dirs::home_dir`. -/
  homeDir : Option String
  /-- The ids that `Uuid::new_v4` draws, no two the same. -/
  ids     : ℕ ↪ Uuid

def resolveDir (m : Machine) (cwd : Option String) (base : String) : String :=
  match cwd with
  | none => base
  | some raw =>
      let raw := Str.trim raw
      if raw = "" ∨ raw = "." then base
      else
        match Str.stripPrefix "~/".toList raw.toList with
        | some rest =>
            match m.homeDir with
            | some h => Goal.joinPath h (String.ofList rest)
            | none => raw
        | none =>
            if Str.startsWith raw "/" then raw
            else
              let rel := (Str.stripPrefix "./".toList raw.toList).getD raw.toList
              Goal.joinPath base (String.ofList rel)

/-- The panels so far, the focus so far and how many ids were drawn. -/
structure Build where
  panels : Panels := ∅
  focus  : Option Uuid := none
  drawn  : Nat

namespace Build

/-- The id that is drawn next. -/
def next (m : Machine) (s : Build) : Uuid := m.ids s.drawn

/-- A panel with the next id. -/
def insert (s : Build) (panel : Panel) : Build :=
  { s with panels := s.panels.insert panel.id panel, drawn := s.drawn + 1 }

end Build

variable (m : Machine) (base : String)

def surfacePanel (surface : SurfaceSpec) (id : Uuid) : Panel :=
  let isBrowser := surface.kind = some "browser"
  let panel := if isBrowser then Panel.newBrowser id else Panel.newTerminal id
  let panel := { panel with directory := some (resolveDir m surface.cwd base) }
  let panel :=
    match surface.command with
    | some cmd => if Str.trim cmd = "" then panel else { panel with command := some cmd }
    | none => panel
  let panel := if isBrowser then { panel with browserUrl := surface.url } else panel
  match surface.name with
  | some name => { panel with customTitle := some name }
  | none => panel

/-- One turn of the loop. -/
def addSurface (surface : SurfaceSpec) (s : Build) : Build :=
  let id := s.next m
  let s := if surface.focus then { s with focus := some id } else s
  s.insert (surfacePanel m base surface id)

/-- The loop over the surfaces, with the ids of its panels. -/
def addSurfaces : List SurfaceSpec → Build → List Uuid × Build
  | [], s => ([], s)
  | surface :: surfaces, s =>
      let (panelIds, s') := addSurfaces surfaces (addSurface m base surface s)
      (s.next m :: panelIds, s')

/-- The panels of a pane; a terminal if it has no surface. -/
def addPane (pane : PaneSpec) (s : Build) : List Uuid × Build :=
  let (panelIds, s) := addSurfaces m base pane.surfaces s
  if panelIds = [] then ([s.next m], s.insert (.newTerminal (s.next m))) else (panelIds, s)

def buildPane (pane : PaneSpec) (s : Build) : LayoutNode × Build :=
  let (panelIds, s) := addPane m base pane s
  (.paneNode panelIds panelIds.head?, s)

/-- The schema has two children; any number is taken. -/
def foldSplit (orientation : SplitOrientation) (ratio : Rat) : List LayoutNode → LayoutNode
  | [] => .paneNode [] none
  | [node] => node
  | first :: second :: rest =>
      .splitNode orientation (max (1 / 10) (min ratio (9 / 10))) first
        (foldSplit orientation ratio (second :: rest))

def orientationOf (direction : String) : SplitOrientation :=
  if direction.toList.map Str.toAsciiLowercase = "vertical".toList then .vertical else .horizontal

mutual

def buildLayout : LayoutSpec → Build → LayoutNode × Build
  | .split direction ratio children, s =>
      let (nodes, s) := buildLayouts children s
      (foldSplit (orientationOf direction) ratio nodes, s)
  | .pane pane, s => buildPane m base pane s

def buildLayouts : List LayoutSpec → Build → List LayoutNode × Build
  | [], s => ([], s)
  | child :: children, s =>
      let (node, s) := buildLayout child s
      let (nodes, s) := buildLayouts children s
      (node :: nodes, s)

end

/-- A workspace with the variables of its shells, which nothing else reads. -/
structure ConfiguredWorkspace extends Workspace where
  env : List (String × String)

def buildWorkspace (spec : WorkspaceSpec) (baseDir : String) : ConfiguredWorkspace :=
  let root := resolveDir m spec.cwd baseDir
  -- the first panel of the new workspace is drawn too, and dropped
  let ws := Workspace.withDirectory (m.ids 1) (m.ids 0) m.home root
  let ws := { ws with customTitle := spec.name.or ws.customTitle }
  let ws := { ws with customColor := spec.color.or ws.customColor }
  let (layout, built) := buildLayout m root spec.layout { drawn := 2 }
  if built.panels.keys.isEmpty then
    -- no pane in it: a single terminal
    let panel := Panel.newTerminal (built.next m)
    { ws with
      env            := spec.env
      panels         := built.panels.insert panel.id panel
      layout         := .paneNode [panel.id] (some panel.id)
      focusedPanelId := some panel.id }
  else
    { ws with
      env            := spec.env
      panels         := built.panels
      layout         := layout
      focusedPanelId := built.focus.or layout.allPanelIds.head? }

/-! ## §3. The leaves. -/

mutual

/-- The panes of the tree that is built, from left to right; a split without children becomes
one too. -/
def LayoutSpec.leaves : LayoutSpec → List (Option PaneSpec)
  | .split _ _ children => if children.isEmpty then [none] else leavesOf children
  | .pane pane => [some pane]

def leavesOf : List LayoutSpec → List (Option PaneSpec)
  | [] => []
  | child :: children => child.leaves ++ leavesOf children

end

/-- One leaf, as the group of tabs that it becomes. -/
def buildLeaf : Option PaneSpec → Build → TabGroup Uuid × Build
  | none, s => (⟨[], none⟩, s)
  | some pane, s =>
      let (panelIds, s) := addPane m base pane s
      (⟨panelIds, panelIds.head?⟩, s)

def buildLeaves : List (Option PaneSpec) → Build → List (TabGroup Uuid) × Build
  | [], s => ([], s)
  | leaf :: leaves, s =>
      let (g, s) := buildLeaf m base leaf s
      let (gs, s) := buildLeaves leaves s
      (g :: gs, s)

theorem buildLeaves_cons (leaf : Option PaneSpec) (leaves : List (Option PaneSpec)) (s : Build) :
    buildLeaves m base (leaf :: leaves) s =
      ((buildLeaf m base leaf s).1 :: (buildLeaves m base leaves (buildLeaf m base leaf s).2).1,
        (buildLeaves m base leaves (buildLeaf m base leaf s).2).2) := rfl

theorem buildLeaves_append (as bs : List (Option PaneSpec)) (s : Build) :
    buildLeaves m base (as ++ bs) s =
      ((buildLeaves m base as s).1 ++ (buildLeaves m base bs (buildLeaves m base as s).2).1,
        (buildLeaves m base bs (buildLeaves m base as s).2).2) := by
  induction as generalizing s with
  | nil => rfl
  | cons leaf as ih =>
      rw [List.cons_append, buildLeaves_cons, ih, buildLeaves_cons]
      rfl

/-- Folding splits keeps the panes in their order. -/
theorem panes_foldSplit (orientation : SplitOrientation) (ratio : Rat) {nodes : List LayoutNode}
    (h : nodes ≠ []) : (foldSplit orientation ratio nodes).panes = nodes.flatMap (·.panes) := by
  induction nodes with
  | nil => exact absurd rfl h
  | cons first nodes ih =>
      cases nodes with
      | nil => simp [foldSplit]
      | cons second rest =>
          show first.panes ++ (foldSplit orientation ratio (second :: rest)).panes = _
          rw [ih (List.cons_ne_nil second rest)]
          rfl

mutual

/-- **The tree and its leaves**: building the layout is building its panes from left to
right. -/
theorem buildLayout_eq : ∀ (spec : LayoutSpec) (s : Build),
    ((buildLayout m base spec s).1.panes, (buildLayout m base spec s).2) =
      buildLeaves m base spec.leaves s
  | .split direction ratio children, s => by
      cases children with
      | nil => rfl
      | cons child children =>
          have hne : (buildLayouts m base (child :: children) s).1 ≠ [] := List.cons_ne_nil _ _
          show ((foldSplit _ ratio (buildLayouts m base (child :: children) s).1).panes, _) = _
          rw [panes_foldSplit _ ratio hne]
          exact buildLayouts_eq (child :: children) s
  | .pane _, _ => rfl

theorem buildLayouts_eq : ∀ (children : List LayoutSpec) (s : Build),
    ((buildLayouts m base children s).1.flatMap (·.panes), (buildLayouts m base children s).2) =
      buildLeaves m base (leavesOf children) s
  | [], _ => rfl
  | child :: children, s => by
      have h := buildLayout_eq child s
      have hs := buildLayouts_eq children (buildLayout m base child s).2
      show (_ ++ (buildLayouts m base children (buildLayout m base child s).2).1.flatMap (·.panes),
        (buildLayouts m base children (buildLayout m base child s).2).2) =
          buildLeaves m base (child.leaves ++ leavesOf children) s
      rw [buildLeaves_append, ← h, ← hs]

end

/-! ## §4. What is added. -/

/-- The tabs have the ids that were drawn, and the map has their panels. -/
structure Adds (tabs : List Uuid) (s s' : Build) : Prop where
  ids   : tabs = (List.range' s.drawn tabs.length).map m.ids
  drawn : s'.drawn = s.drawn + tabs.length
  keys  : ∀ id, id ∈ s'.panels ↔ id ∈ tabs ∨ id ∈ s.panels
  keyed : Keyed s.panels → Keyed s'.panels

namespace Adds

variable {m base} {tabs tabs' : List Uuid} {s s' s'' : Build}

theorem refl (s : Build) : Adds m [] s s where
  ids   := rfl
  drawn := rfl
  keys  := by simp
  keyed h := h

theorem trans (h : Adds m tabs s s') (h' : Adds m tabs' s' s'') :
    Adds m (tabs ++ tabs') s s'' where
  ids := by
    have hids' := h'.ids
    rw [h.drawn] at hids'
    rw [List.length_append, ← List.range'_append_1, List.map_append, ← h.ids, ← hids']
  drawn := by
    rw [h'.drawn, h.drawn, List.length_append, Nat.add_assoc]
  keys id := by
    rw [h'.keys, h.keys, List.mem_append]
    tauto
  keyed hk := h'.keyed (h.keyed hk)

/-- A panel with the next id. -/
theorem insert (s : Build) {panel : Panel} (h : panel.id = s.next m) :
    Adds m [s.next m] s (s.insert panel) where
  ids   := rfl
  drawn := rfl
  keys id := by
    show id ∈ s.panels.insert panel.id panel ↔ _
    rw [AList.mem_insert, List.mem_singleton, h]
  keyed hk := hk.insert panel

/-- No id is drawn twice. -/
theorem nodup (h : Adds m tabs s s') : tabs.Nodup := by
  rw [h.ids]
  exact List.Nodup.map m.ids.injective List.nodup_range'

end Adds

@[simp] theorem surfacePanel_id (surface : SurfaceSpec) (id : Uuid) :
    (surfacePanel m base surface id).id = id := by
  unfold surfacePanel
  by_cases hb : surface.kind = some "browser"
  · cases surface.command <;> cases surface.name <;> simp [hb, Panel.newBrowser, apply_ite]
  · cases surface.command <;> cases surface.name <;> simp [hb, Panel.newTerminal, apply_ite]

theorem adds_surface (surface : SurfaceSpec) (s : Build) :
    Adds m [s.next m] s (addSurface m base surface s) := by
  unfold addSurface
  cases surface.focus with
  | false => exact .insert s (surfacePanel_id m base surface _)
  | true =>
      have h := Adds.insert (m := m) s (surfacePanel_id m base surface (s.next m))
      exact ⟨h.ids, h.drawn, h.keys, h.keyed⟩

theorem adds_surfaces (surfaces : List SurfaceSpec) (s : Build) :
    Adds m (addSurfaces m base surfaces s).1 s (addSurfaces m base surfaces s).2 := by
  induction surfaces generalizing s with
  | nil => exact .refl s
  | cons surface surfaces ih => exact (adds_surface m base surface s).trans (ih _)

theorem adds_pane (pane : PaneSpec) (s : Build) :
    Adds m (addPane m base pane s).1 s (addPane m base pane s).2 := by
  have h := adds_surfaces m base pane.surfaces s
  show Adds m (if _ = [] then _ else addSurfaces m base pane.surfaces s).1 s
    (if _ = [] then _ else addSurfaces m base pane.surfaces s).2
  split
  · next hnil =>
      rw [hnil] at h
      exact h.trans (.insert _ rfl)
  · exact h

/-- **Building the leaves** adds the tabs of their groups. -/
theorem adds_leaves (leaves : List (Option PaneSpec)) (s : Build) :
    Adds m (tabsOf (buildLeaves m base leaves s).1) s (buildLeaves m base leaves s).2 := by
  induction leaves generalizing s with
  | nil => exact .refl s
  | cons leaf leaves ih =>
      rw [buildLeaves_cons, tabsOf_cons]
      refine Adds.trans ?_ (ih _)
      cases leaf with
      | none => exact .refl s
      | some pane => exact adds_pane m base pane s

/-! ## §5. The focus. -/

/-- A surface of the pane asks for the focus. -/
def PaneSpec.asks (pane : PaneSpec) : Bool := pane.surfaces.any (·.focus)

/-- A surface beside the first one asks for the focus. -/
def PaneSpec.asksAside (pane : PaneSpec) : Bool := pane.surfaces.tail.any (·.focus)

/-- The last pane that asks for the focus. -/
def lastAsking : List PaneSpec → Option PaneSpec
  | [] => none
  | pane :: panes => (lastAsking panes).or (if pane.asks then some pane else none)

theorem focus_surfaces_of_none {surfaces : List SurfaceSpec} (h : surfaces.any (·.focus) = false)
    (s : Build) : (addSurfaces m base surfaces s).2.focus = s.focus := by
  induction surfaces generalizing s with
  | nil => rfl
  | cons surface surfaces ih =>
      simp only [List.any_cons, Bool.or_eq_false_iff] at h
      show (addSurfaces m base surfaces (addSurface m base surface s)).2.focus = s.focus
      rw [ih h.2]
      unfold addSurface
      rw [h.1]
      rfl

/-- The last surface that asks gets the focus; it is the first tab where no other asks. -/
theorem focus_surfaces {surfaces : List SurfaceSpec} (h : surfaces.any (·.focus) = true)
    (s : Build) :
    ∃ t ∈ (addSurfaces m base surfaces s).1, (addSurfaces m base surfaces s).2.focus = some t ∧
      ((addSurfaces m base surfaces s).1.head? = some t ↔
        surfaces.tail.any (·.focus) = false) := by
  induction surfaces generalizing s with
  | nil => cases h
  | cons surface surfaces ih =>
      show ∃ t ∈ s.next m :: (addSurfaces m base surfaces (addSurface m base surface s)).1,
        (addSurfaces m base surfaces (addSurface m base surface s)).2.focus = some t ∧
          (some (s.next m) = some t ↔ surfaces.any (·.focus) = false)
      by_cases hrest : surfaces.any (·.focus) = true
      · -- a later surface, which is another tab
        obtain ⟨t, ht, hfocus, -⟩ := ih hrest (addSurface m base surface s)
        have hnodup : (s.next m :: (addSurfaces m base surfaces (addSurface m base surface s)).1).Nodup :=
          (adds_surfaces m base (surface :: surfaces) s).nodup
        have hne : s.next m ≠ t := fun he => (List.nodup_cons.mp hnodup).1 (he ▸ ht)
        refine ⟨t, List.mem_cons_of_mem _ ht, hfocus, ?_⟩
        simp [hne, hrest]
      · have hnone : surfaces.any (·.focus) = false := by simpa using hrest
        have hself : surface.focus = true := by simpa [hnone] using h
        refine ⟨s.next m, List.mem_cons_self, ?_, by simp [hnone]⟩
        rw [focus_surfaces_of_none m base hnone]
        unfold addSurface
        rw [hself]
        rfl

theorem addPane_of_surfaces {pane : PaneSpec} (h : pane.surfaces ≠ []) (s : Build) :
    addPane m base pane s = addSurfaces m base pane.surfaces s := by
  obtain ⟨surface, surfaces, hcons⟩ := List.exists_cons_of_ne_nil h
  unfold addPane
  rw [hcons]
  rfl

theorem focus_pane_of_none {pane : PaneSpec} (h : pane.asks = false) (s : Build) :
    (addPane m base pane s).2.focus = s.focus := by
  by_cases hnil : pane.surfaces = []
  · unfold addPane
    rw [hnil]
    rfl
  · rw [addPane_of_surfaces m base hnil]
    exact focus_surfaces_of_none m base h s

theorem focus_pane {pane : PaneSpec} (h : pane.asks = true) (s : Build) :
    ∃ t ∈ (addPane m base pane s).1, (addPane m base pane s).2.focus = some t ∧
      ((addPane m base pane s).1.head? = some t ↔ pane.asksAside = false) := by
  have hne : pane.surfaces ≠ [] := by
    intro hnil
    simp [PaneSpec.asks, hnil] at h
  rw [addPane_of_surfaces m base hne]
  exact focus_surfaces m base h s

theorem focus_leaves_of_none {leaves : List (Option PaneSpec)}
    (h : lastAsking leaves.reduceOption = none) (s : Build) :
    (buildLeaves m base leaves s).2.focus = s.focus := by
  induction leaves generalizing s with
  | nil => rfl
  | cons leaf leaves ih =>
      rw [buildLeaves_cons]
      cases leaf with
      | none => exact ih h s
      | some pane =>
          obtain ⟨hrest, hself⟩ := Option.or_eq_none_iff.mp h
          rw [ih hrest]
          refine focus_pane_of_none m base ?_ s
          by_contra hasks
          rw [Bool.not_eq_false] at hasks
          rw [if_pos hasks] at hself
          cases hself

/-- The focus is on a tab of the last pane that asks. -/
theorem focus_leaves {leaves : List (Option PaneSpec)} {pane : PaneSpec}
    (h : lastAsking leaves.reduceOption = some pane) (s : Build) :
    ∃ g ∈ (buildLeaves m base leaves s).1, ∃ t ∈ g.tabs,
      (buildLeaves m base leaves s).2.focus = some t ∧
        (g.selected = some t ↔ pane.asksAside = false) := by
  induction leaves generalizing s with
  | nil => cases h
  | cons leaf leaves ih =>
      rw [buildLeaves_cons]
      cases leaf with
      | none =>
          obtain ⟨g, hg, rest⟩ := ih h s
          exact ⟨g, List.mem_cons_of_mem _ hg, rest⟩
      | some first =>
          rcases Option.or_eq_some_iff.mp h with hrest | ⟨hrest, hself⟩
          · obtain ⟨g, hg, rest⟩ := ih hrest (addPane m base first s).2
            exact ⟨g, List.mem_cons_of_mem _ hg, rest⟩
          · -- no later pane asks
            have hasks : first.asks = true := by
              by_contra hnot
              rw [if_neg hnot] at hself
              cases hself
            rw [if_pos hasks] at hself
            obtain rfl := Option.some.inj hself
            obtain ⟨t, ht, hfocus, hhead⟩ := focus_pane m base hasks s
            refine ⟨_, List.mem_cons_self, t, ht, ?_, hhead⟩
            rw [focus_leaves_of_none m base hrest]
            exact hfocus

/-! ## §6. Sound workspaces. -/

theorem addPane_ne_nil (pane : PaneSpec) (s : Build) : (addPane m base pane s).1 ≠ [] := by
  unfold addPane
  dsimp only
  split
  · exact List.cons_ne_nil _ _
  · next h => exact h

/-- The group of a pane shows its first tab; a split without children shows nothing. -/
theorem buildLeaf_valid_iff (leaf : Option PaneSpec) (s : Build) :
    (buildLeaf m base leaf s).1.Valid ↔ leaf ≠ none := by
  cases leaf with
  | none =>
      have hnot : ¬ (⟨[], none⟩ : TabGroup Uuid).Valid := fun h => h.tabs_ne_nil rfl
      exact ⟨fun h => absurd h hnot, fun h => absurd rfl h⟩
  | some pane =>
      obtain ⟨id, ids, hcons⟩ := List.exists_cons_of_ne_nil (addPane_ne_nil m base pane s)
      refine ⟨fun _ => Option.some_ne_none pane, fun _ => ⟨id, ?_, ?_⟩⟩
      · show id ∈ (addPane m base pane s).1
        rw [hcons]
        exact List.mem_cons_self
      · show (addPane m base pane s).1.head? = some id
        rw [hcons]
        rfl

theorem buildLeaves_valid_iff (leaves : List (Option PaneSpec)) (s : Build) :
    (∀ g ∈ (buildLeaves m base leaves s).1, g.Valid) ↔ none ∉ leaves := by
  induction leaves generalizing s with
  | nil => simp [buildLeaves]
  | cons leaf leaves ih =>
      rw [buildLeaves_cons, List.forall_mem_cons, buildLeaf_valid_iff, ih, List.mem_cons, not_or]
      simp only [ne_eq, eq_comm]

/-- Nothing is built of splits without children only. -/
theorem tabsOf_buildLeaves_eq_nil_iff (leaves : List (Option PaneSpec)) (s : Build) :
    tabsOf (buildLeaves m base leaves s).1 = [] ↔ leaves.reduceOption = [] := by
  induction leaves generalizing s with
  | nil => simp [buildLeaves]
  | cons leaf leaves ih =>
      rw [buildLeaves_cons, tabsOf_cons, List.append_eq_nil_iff, ih]
      cases leaf with
      | none => simp [buildLeaf]
      | some pane =>
          have hne : (buildLeaf m base (some pane) s).1.tabs ≠ [] := addPane_ne_nil m base pane s
          simp [hne]

/-- The panes of the specification. -/
def LayoutSpec.panes (spec : LayoutSpec) : List PaneSpec := spec.leaves.reduceOption

/-- No split is without children, and in the last pane that asks for the focus only the first
surface does; or there is no pane at all. -/
def Regular (spec : LayoutSpec) : Prop :=
  spec.panes = [] ∨
    (none ∉ spec.leaves ∧ ∀ pane, lastAsking spec.panes = some pane → pane.asksAside = false)

/-- The first tab of a sound row is shown. -/
theorem shows_head {gs : List (TabGroup Uuid)} {leaves : List (Option PaneSpec)} {s : Build}
    (hgs : gs = (buildLeaves m base leaves s).1) (hne : tabsOf gs ≠ [])
    (hleaves : none ∉ leaves) : ∃ t ∈ tabsOf gs, (tabsOf gs).head? = some t ∧ Shows gs t := by
  subst hgs
  cases leaves with
  | nil => exact absurd rfl hne
  | cons leaf leaves =>
      cases leaf with
      | none => exact absurd List.mem_cons_self hleaves
      | some pane =>
          obtain ⟨id, ids, hcons⟩ := List.exists_cons_of_ne_nil (addPane_ne_nil m base pane s)
          have htabs : (buildLeaf m base (some pane) s).1 = ⟨id :: ids, some id⟩ := by
            show (⟨(addPane m base pane s).1, (addPane m base pane s).1.head?⟩ : TabGroup Uuid) = _
            rw [hcons]
            rfl
          rw [buildLeaves_cons, htabs]
          exact ⟨id, by simp, rfl, _, List.mem_cons_self, List.mem_cons_self, rfl⟩

section Built

variable (layout : LayoutSpec) (n : Nat)

/-- What `build_layout` makes of a layout, from nothing. -/
def built : LayoutNode × Build := buildLayout m base layout { drawn := n }

theorem panes_built :
    (built m base layout n).1.panes = (buildLeaves m base layout.leaves { drawn := n }).1 :=
  congrArg Prod.fst (buildLayout_eq m base layout { drawn := n })

theorem state_built :
    (built m base layout n).2 = (buildLeaves m base layout.leaves { drawn := n }).2 :=
  congrArg Prod.snd (buildLayout_eq m base layout { drawn := n })

theorem adds_built :
    Adds m (built m base layout n).1.allPanelIds { drawn := n } (built m base layout n).2 := by
  rw [LayoutNode.allPanelIds_eq, panes_built, state_built]
  exact adds_leaves m base layout.leaves { drawn := n }

theorem mem_panels_built (id : Uuid) :
    id ∈ (built m base layout n).2.panels ↔ id ∈ (built m base layout n).1.allPanelIds := by
  rw [(adds_built m base layout n).keys]
  exact or_iff_left (AList.notMem_empty id)

theorem keyed_built : Keyed (built m base layout n).2.panels := by
  refine (adds_built m base layout n).keyed ?_
  intro id panel h
  cases h

theorem inStep_built_iff :
    InStep (built m base layout n).1 (built m base layout n).2.panels ↔ none ∉ layout.leaves := by
  rw [← buildLeaves_valid_iff m base layout.leaves { drawn := n }, ← panes_built]
  constructor
  · intro h
    exact h.sound.valid
  · intro h
    refine ⟨⟨?_, h⟩, fun id => (mem_panels_built m base layout n id).symm⟩
    rw [← LayoutNode.allPanelIds_eq]
    exact (adds_built m base layout n).nodup

theorem allPanelIds_built_eq_nil_iff :
    (built m base layout n).1.allPanelIds = [] ↔ layout.panes = [] := by
  rw [LayoutNode.allPanelIds_eq, panes_built]
  exact tabsOf_buildLeaves_eq_nil_iff m base layout.leaves { drawn := n }

theorem panels_built_isEmpty_iff :
    (built m base layout n).2.panels.keys.isEmpty = true ↔ layout.panes = [] := by
  rw [← allPanelIds_built_eq_nil_iff m base layout n, List.isEmpty_iff,
    List.eq_nil_iff_forall_not_mem, List.eq_nil_iff_forall_not_mem]
  simp only [AList.mem_keys.symm, ← mem_panels_built]

/-- Where the panes are sound, the focus is on a tab that is shown exactly if no surface asks
for it beside the first one of the last pane that asks. -/
theorem focus_built (hpanes : layout.panes ≠ []) (hleaves : none ∉ layout.leaves) :
    ∃ id ∈ (built m base layout n).1.allPanelIds,
      (built m base layout n).2.focus.or (built m base layout n).1.allPanelIds.head? = some id ∧
        (Shows (built m base layout n).1.panes id ↔
          ∀ pane, lastAsking layout.panes = some pane → pane.asksAside = false) := by
  have hdistinct : (tabsOf (built m base layout n).1.panes).Nodup := by
    rw [← LayoutNode.allPanelIds_eq]
    exact (adds_built m base layout n).nodup
  have hne : tabsOf (built m base layout n).1.panes ≠ [] := by
    rw [← LayoutNode.allPanelIds_eq]
    exact fun h => hpanes ((allPanelIds_built_eq_nil_iff m base layout n).mp h)
  rw [LayoutNode.allPanelIds_eq]
  cases hlast : lastAsking layout.panes with
  | none =>
      -- the first panel, which its pane shows
      obtain ⟨id, hid, hhead, hshows⟩ :=
        shows_head m base (panes_built m base layout n) hne hleaves
      have hfocus : (built m base layout n).2.focus = none := by
        rw [state_built]
        exact focus_leaves_of_none m base hlast _
      refine ⟨id, hid, by rw [hfocus, hhead, Option.none_or], ?_⟩
      simp [hshows]
  | some pane =>
      obtain ⟨g, hg, id, hid, hfocus, hselected⟩ := focus_leaves m base hlast { drawn := n }
      rw [← panes_built] at hg
      rw [← state_built] at hfocus
      refine ⟨id, List.mem_flatMap.mpr ⟨g, hg, hid⟩, by rw [hfocus, Option.some_or], ?_⟩
      rw [shows_iff_selected hdistinct hg hid, hselected]
      simp

end Built

variable (spec : WorkspaceSpec) (baseDir : String)

/-- **The workspace of a specification** is sound, with the focus on a tab that is shown,
exactly for regular layouts. -/
theorem representation_iff :
    (buildWorkspace m spec baseDir).WellFormed ∧ (buildWorkspace m spec baseDir).ShowsFocus ↔
      Regular spec.layout := by
  let root := resolveDir m spec.cwd baseDir
  have hempty := panels_built_isEmpty_iff m root spec.layout 2
  by_cases hpanes : spec.layout.panes = []
  · -- a single terminal, whatever the layout
    let id := (built m root spec.layout 2).2.next m
    have hws : ∃ ws : ConfiguredWorkspace, buildWorkspace m spec baseDir = ws ∧
        ws.layout = .singlePane id ∧ ws.panels = AList.singleton id (.newTerminal id) ∧
          ws.focusedPanelId = some id := by
      refine ⟨_, if_pos (hempty.mpr hpanes), rfl, ?_, rfl⟩
      have hnone : (built m root spec.layout 2).2.panels = ∅ :=
        AList.ext (List.map_eq_nil_iff.mp (List.isEmpty_iff.mp (hempty.mpr hpanes)))
      show (built m root spec.layout 2).2.panels.insert id _ = _
      rw [hnone]
      rfl
    obtain ⟨ws, heq, hlayout, hpanels, hfocus⟩ := hws
    rw [heq]
    have hmem : id ∈ ws.panels := by simp [hpanels, AList.mem_keys]
    refine ⟨fun _ => .inl hpanes, fun _ => ⟨⟨?_, ?_, id, hmem, hfocus⟩, id, hmem, hfocus, ?_⟩⟩
    · rw [hlayout, hpanels]
      exact .singlePane id _
    · rw [hpanels]
      exact .singleton (.newTerminal id)
    · rw [hlayout]
      exact ⟨_, List.mem_cons_self, List.mem_cons_self, rfl⟩
  · have hws : ∃ ws : ConfiguredWorkspace, buildWorkspace m spec baseDir = ws ∧
        ws.layout = (built m root spec.layout 2).1 ∧
          ws.panels = (built m root spec.layout 2).2.panels ∧
            ws.focusedPanelId = (built m root spec.layout 2).2.focus.or
              (built m root spec.layout 2).1.allPanelIds.head? :=
      ⟨_, if_neg fun h => hpanes (hempty.mp h), rfl, rfl, rfl⟩
    obtain ⟨ws, heq, hlayout, hpanels, hfocus⟩ := hws
    rw [heq]
    have hin := inStep_built_iff m root spec.layout 2
    rw [← hlayout, ← hpanels] at hin
    have hkeyed : Keyed ws.panels := hpanels ▸ keyed_built m root spec.layout 2
    unfold Regular
    rw [or_iff_right hpanes]
    constructor
    · rintro ⟨hwf, shown, -, hshown, hshows⟩
      have hleaves : none ∉ spec.layout.leaves := hin.mp hwf.inStep
      obtain ⟨id, -, hid, hiff⟩ := focus_built m root spec.layout 2 hpanes hleaves
      have he : shown = id := Option.some.inj (hshown.symm.trans (hfocus.trans hid))
      rw [hlayout, he] at hshows
      exact ⟨hleaves, hiff.mp hshows⟩
    · rintro ⟨hleaves, hlast⟩
      obtain ⟨id, htab, hid, hiff⟩ := focus_built m root spec.layout 2 hpanes hleaves
      have hmem : id ∈ ws.panels := by
        rw [hpanels, mem_panels_built]
        exact htab
      have hshows : Shows ws.layout.panes id := by
        rw [hlayout]
        exact hiff.mpr hlast
      exact ⟨⟨hin.mpr hleaves, hkeyed, id, hmem, hfocus.trans hid⟩,
        id, hmem, hfocus.trans hid, hshows⟩

/-! ## §7. A focus that is not shown. -/

def plainMachine : Machine where
  home    := "/home/u"
  homeDir := some "/home/u"
  ids     := Function.Embedding.refl ℕ

/-- Two tabs, and the second one asks for the focus. -/
def secondAsks : WorkspaceSpec where
  layout := .pane { surfaces := [{}, { focus := true }] }

/-- The pane shows its first tab, the focus is on the second. -/
theorem focus_not_shown :
    (buildWorkspace plainMachine secondAsks "/base").layout = .paneNode [2, 3] (some 2) ∧
      (buildWorkspace plainMachine secondAsks "/base").focusedPanelId = some 3 ∧
      ¬ (buildWorkspace plainMachine secondAsks "/base").ShowsFocus := by
  have hlayout : (buildWorkspace plainMachine secondAsks "/base").layout =
      .paneNode [2, 3] (some 2) := by decide
  have hfocus : (buildWorkspace plainMachine secondAsks "/base").focusedPanelId = some 3 := by
    decide
  refine ⟨hlayout, hfocus, ?_⟩
  rintro ⟨id, -, hid, g, hg, -, hselected⟩
  rw [hlayout] at hg
  obtain rfl := List.mem_singleton.mp hg
  rw [hfocus] at hid
  cases hid
  cases hselected

-- a split without children beside a pane leaves an empty pane
example :
    (⟨[], none⟩ : TabGroup Uuid) ∈ (buildWorkspace plainMachine
        { layout := .split "vertical" defaultSplit
            [.pane {}, .split "vertical" defaultSplit []] } "/base").layout.panes := by
  decide

end Jmux.Settings
