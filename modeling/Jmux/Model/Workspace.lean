/-
  Jmux.Model.Workspace — a workspace and its mutators (`model/workspace.rs`).

  A mutator that returns a `bool` gives the workspace and that `Bool`.
-/
import Jmux.Model.Panel
import Jmux.Lib.CharIndex
import Jmux.Lib.FiniteMap

namespace Jmux.Model

open Jmux.Lib

/-- `HashMap<Uuid, Panel>`. -/
abbrev Panels := AList fun _ : Uuid => Panel

/-- The SSH connection of a remote workspace (`remote/session.rs`). -/
structure RemoteConfig where
  destination      : String
  port             : Option Nat := none
  identity         : Option String := none
  sshOptions       : List String := []
  agentForward     : Bool := false
  remoteDaemonPath : Option String := none
  deriving DecidableEq, Repr

structure Workspace where
  id                     : Uuid
  processTitle           : String := "Terminal"
  customTitle            : Option String := none
  customColor            : Option String := none
  isPinned               : Bool := false
  currentDirectory       : String
  focusedPanelId         : Option Uuid
  previousFocusedPanelId : Option Uuid := none
  zoomedPanelId          : Option Uuid := none
  layout                 : LayoutNode
  panels                 : Panels
  attentionPanelId       : Option Uuid := none
  windowId               : Option Uuid := none
  groupId                : Option Uuid := none
  remoteConfig           : Option RemoteConfig := none
  closedPanels           : List Panel := []
  subagentMonitor        : Bool := false
  deriving DecidableEq

/-- The longest prefix of at most so many bytes. -/
def takeBytes : Nat → List Char → List Char
  | _, [] => []
  | n, c :: cs => if c.utf8Size ≤ n then c :: takeBytes (n - c.utf8Size) cs else []

/-- At most `maxBytes` bytes of the string, without splitting a character. -/
def truncateStr (s : String) (maxBytes : Nat) : String :=
  if s.utf8ByteSize ≤ maxBytes then s else String.ofList (takeBytes maxBytes s.toList)

theorem takeBytes_longest (bound : Nat) (cs : List Char) :
    CharIndex.LongestPrefix cs bound (takeBytes bound cs) := by
  induction cs generalizing bound with
  | nil => exact CharIndex.longest_self (Nat.zero_le bound)
  | cons c cs ih =>
      by_cases hfits : c.utf8Size ≤ bound
      · have htake : takeBytes bound (c :: cs) = c :: takeBytes (bound - c.utf8Size) cs :=
          if_pos hfits
        have hrest := ih (bound - c.utf8Size)
        rw [htake]
        refine ⟨(List.prefix_cons_inj c).mpr hrest.isPrefix, ?_, ?_⟩
        · have hlen := hrest.fits
          show c.utf8Size + CharIndex.byteLen (takeBytes (bound - c.utf8Size) cs) ≤ bound
          omega
        · intro q hq hlen
          cases q with
          | nil => exact List.nil_prefix
          | cons b q =>
              obtain ⟨rfl, htail⟩ := List.cons_prefix_cons.mp hq
              have hsum : b.utf8Size + CharIndex.byteLen q ≤ bound := hlen
              exact (List.prefix_cons_inj b).mpr (hrest.longest q htail (by omega))
      · have htake : takeBytes bound (c :: cs) = [] := if_neg hfits
        rw [htake]
        refine ⟨List.nil_prefix, Nat.zero_le bound, ?_⟩
        intro q hq hlen
        cases q with
        | nil => exact List.nil_prefix
        | cons b q =>
            obtain ⟨rfl, -⟩ := List.cons_prefix_cons.mp hq
            have hsum : b.utf8Size + CharIndex.byteLen q ≤ bound := hlen
            omega

theorem utf8ByteSize_truncateStr_le (s : String) (maxBytes : Nat) :
    (truncateStr s maxBytes).utf8ByteSize ≤ maxBytes := by
  unfold truncateStr
  by_cases hfits : s.utf8ByteSize ≤ maxBytes
  · rw [if_pos hfits]
    exact hfits
  · rw [if_neg hfits, CharIndex.utf8ByteSize_ofList]
    exact (takeBytes_longest maxBytes s.toList).fits

/-- Maximum recently-closed panels retained per workspace for reopen. -/
def closedPanelsCap : Nat := 10

namespace Workspace

/-- `home` is `$HOME`, or `/` without it. -/
def new (id panelId : Uuid) (home : String) : Workspace where
  id
  currentDirectory := home
  focusedPanelId   := some panelId
  layout           := .singlePane panelId
  panels           := AList.singleton panelId (.newTerminal panelId)

def withDirectory (id panelId : Uuid) (home directory : String) : Workspace :=
  let ws := { new id panelId home with currentDirectory := directory }
  match ws.focusedPanelId with
  | some panelId =>
      { ws with
        panels := ws.panels.modify panelId fun panel => { panel with directory := some directory } }
  | none => ws

def displayTitle (ws : Workspace) : String := ws.customTitle.getD ws.processTitle

def isEmpty (ws : Workspace) : Bool := ws.panels.keys.isEmpty

/-- The focus goes to the panel and the last focus is remembered. -/
def shiftFocus (ws : Workspace) (panelId : Uuid) : Workspace :=
  { ws with previousFocusedPanelId := ws.focusedPanelId, focusedPanelId := some panelId }

/-! ## §1. Panels that come. -/

/-- Split the focused pane, or the root where there is none. -/
def splitFocused (layout : LayoutNode) (focused : Option Uuid) (orientation : SplitOrientation)
    (newId : Uuid) : LayoutNode :=
  match focused.bind fun focusedId => layout.splitPaneOf focusedId orientation newId with
  | some layout => layout
  | none => layout.split orientation newId

def insertPanel (ws : Workspace) (panel : Panel) (orientation : SplitOrientation) : Workspace :=
  { ws with
    panels := ws.panels.insert panel.id panel
    layout := splitFocused ws.layout ws.focusedPanelId orientation panel.id }
  |>.shiftFocus panel.id

/-- `newId` is the id that the new panel draws. -/
def split (ws : Workspace) (orientation : SplitOrientation) (panelType : PanelType)
    (newId : Uuid) : Workspace :=
  ws.insertPanel (.ofType newId panelType) orientation

/-- The last closed panel comes back as a tab, with a fresh id and without its
runtime state. -/
def reopenLastClosedPanel (ws : Workspace) (newId : Uuid) : Workspace × Option Uuid :=
  match ws.closedPanels.getLast? with
  | none => (ws, none)
  | some panel =>
      let panel := { panel with id := newId, pendingScrollback := none, ttyName := none }
      let layout :=
        match ws.focusedPanelId.or ws.layout.allPanelIds.head? with
        | some target => (ws.layout.addPanelToPane target newId).getD ws.layout
        -- every pane is gone
        | none => .singlePane newId
      ({ ws with
          closedPanels := ws.closedPanels.dropLast
          panels := ws.panels.insert newId panel
          layout }
        |>.shiftFocus newId, some newId)

/-! ## §2. Panels that go. -/

/-- The tab to the left in the same pane, or else the one to the right. -/
def neighborInPane (layout : LayoutNode) (panelId : Uuid) : Option Uuid :=
  (layout.findPaneWithPanelReadonly panelId).bind fun pane =>
    (pane.idxOf? panelId).bind fun idx =>
      if idx > 0 then pane[idx - 1]? else pane[idx + 1]?

/-- Most recent last, the oldest dropped beyond the cap. -/
def recordClosed (closed : List Panel) (panel : Panel) : List Panel :=
  let closed := closed ++ [panel]
  if closed.length > closedPanelsCap then closed.drop (closed.length - closedPanelsCap) else closed

def removePanel (ws : Workspace) (panelId : Uuid) : Workspace × Bool :=
  match ws.panels.lookup panelId with
  | none => (ws, false)
  | some panel =>
      let panels := ws.panels.erase panelId
      let layout := (ws.layout.removePanel panelId).getD ws.layout
      -- the neighbour is found in the layout as it was before
      let focused :=
        if ws.focusedPanelId = some panelId then
          ((neighborInPane ws.layout panelId).filter (· ∈ panels)).or layout.allPanelIds.head?
        else ws.focusedPanelId
      ({ ws with
          panels, layout
          closedPanels   := recordClosed ws.closedPanels panel
          focusedPanelId := focused }, true)

/-- The panel leaves the workspace and is handed to the caller. -/
def detachPanel (ws : Workspace) (panelId : Uuid) : Option (Panel × Workspace) :=
  match ws.panels.lookup panelId with
  | none => none
  | some panel =>
      let layout := (ws.layout.removePanel panelId).getD ws.layout
      let cleared (ref : Option Uuid) : Option Uuid := if ref = some panelId then none else ref
      some (panel,
        { ws with
          panels := ws.panels.erase panelId
          layout
          focusedPanelId :=
            if ws.focusedPanelId = some panelId then layout.allPanelIds.head?
            else ws.focusedPanelId
          -- the attention ring stays where it is
          previousFocusedPanelId := cleared ws.previousFocusedPanelId
          zoomedPanelId          := cleared ws.zoomedPanelId })

/-! ## §3. Panels that move. -/

def movePanelToPane (ws : Workspace) (sourcePanelId targetPanelId : Uuid) : Workspace × Bool :=
  if sourcePanelId = targetPanelId then (ws, false)
  else if sourcePanelId ∉ ws.panels ∨ targetPanelId ∉ ws.panels then (ws, false)
  -- two tabs of one pane: the caller reorders them
  else if ((ws.layout.findPaneWithPanelReadonly targetPanelId).any (sourcePanelId ∈ ·)) then
    (ws, false)
  else
    let layout := (ws.layout.removePanel sourcePanelId).getD ws.layout
    -- on a failure the source stays out of the layout
    match layout.addPanelToPane targetPanelId sourcePanelId with
    | some layout => ({ ws with layout }.shiftFocus sourcePanelId, true)
    | none => ({ ws with layout }, false)

def splitPanelIntoPane (ws : Workspace) (sourcePanelId targetPanelId : Uuid)
    (orientation : SplitOrientation) (direction : Direction) : Workspace × Bool :=
  if sourcePanelId = targetPanelId then (ws, false)
  else if sourcePanelId ∉ ws.panels ∨ targetPanelId ∉ ws.panels then (ws, false)
  else
    let layout := (ws.layout.removePanel sourcePanelId).getD ws.layout
    -- on a failure the source stays out of the layout
    match layout.splitPaneWithPanel targetPanelId sourcePanelId orientation direction with
    | some layout => ({ ws with layout }.shiftFocus sourcePanelId, true)
    | none => ({ ws with layout }, false)

def dragOrientation : Direction → SplitOrientation
  | .left | .right => .horizontal
  | .up | .down => .vertical

/-- The focused panel's pane, or the first other panel's when it is the focused
panel that is dragged. -/
def dragTarget (ws : Workspace) (panelId : Uuid) : Option Uuid :=
  if ws.focusedPanelId = some panelId then ws.layout.allPanelIds.find? (· ≠ panelId)
  else ws.focusedPanelId

def dragToSplit (ws : Workspace) (panelId : Uuid) (direction : Direction) : Workspace × Bool :=
  if panelId ∉ ws.panels then (ws, false)
  else
    match ws.dragTarget panelId with
    | none => (ws, false)
    | some target =>
        let layout := (ws.layout.removePanel panelId).getD ws.layout
        let layout :=
          match layout.splitPaneWithPanel target panelId (dragOrientation direction) direction with
          | some layout => layout
          -- a pane that is not split takes the panel as a tab
          | none => (layout.addPanelToPane target panelId).getD layout
        ({ ws with layout }.shiftFocus panelId, true)

def focusPanel (ws : Workspace) (panelId : Uuid) : Workspace × Bool :=
  if panelId ∉ ws.panels then (ws, false)
  else
    match ws.layout.selectPanel panelId with
    | none => (ws, false)
    | some layout =>
        ({ ws with
            layout
            previousFocusedPanelId :=
              if ws.focusedPanelId ≠ some panelId then ws.focusedPanelId
              else ws.previousFocusedPanelId
            focusedPanelId := some panelId }, true)

/-! ## §4. Zoom and attention. -/

/-- What `pane.toggle_zoom`, the surface action and a double click write to the
workspace that holds the panel. -/
def toggleZoom (ws : Workspace) (panelId : Uuid) : Workspace × Bool :=
  if panelId ∉ ws.panels then (ws, false)
  else if ws.zoomedPanelId = some panelId then ({ ws with zoomedPanelId := none }, true)
  else ({ ws with zoomedPanelId := some panelId }, true)

/-- The shortcut and the command palette zoom the focused panel. -/
def toggleZoomFocused (ws : Workspace) : Workspace :=
  if ws.zoomedPanelId.isSome then { ws with zoomedPanelId := none }
  else { ws with zoomedPanelId := ws.focusedPanelId }

/-- The attention ring of a notification. -/
def recordNotification (ws : Workspace) (panelId : Option Uuid) : Workspace :=
  { ws with attentionPanelId := panelId.filter (· ∈ ws.panels) }

def clearAttention (ws : Workspace) : Workspace := { ws with attentionPanelId := none }

end Workspace

end Jmux.Model
