/-
  Jmux.Model.Panel — panels and their constructors (`model/panel.rs`).

  A constructor draws its id with `Uuid::new_v4`; here the id is its argument.
-/
import Jmux.Model.Layout
import Jmux.Lib.Str

namespace Jmux.Model

inductive PanelType
  | terminal
  | browser
  | markdown
  | diff
  | project
  | filePreview
  | notes
  | history
  | vault
  | agentMonitor
  | graph
  deriving DecidableEq, Repr

structure Panel where
  id                : Uuid
  panelType         : PanelType
  title             : Option String := none
  customTitle       : Option String := none
  directory         : Option String := none
  isPinned          : Bool := false
  isManuallyUnread  : Bool := false
  ttyName           : Option String := none
  browserUrl        : Option String := none
  markdownFile      : Option String := none
  command           : Option String := none
  pendingScrollback : Option String := none
  agentSessionId    : Option String := none
  deriving DecidableEq, Repr

/-- `Path::file_name`: the last component that is not `.`, unless it is `..`. -/
def fileName (path : String) : Option String :=
  let parts := (path.toList.splitOn '/').filter fun part => part ≠ [] ∧ part ≠ ['.']
  (parts.getLast?.filter (· ≠ ['.', '.'])).map String.ofList

namespace Panel

def newTerminal (id : Uuid) : Panel := { id, panelType := .terminal }

def newBrowser (id : Uuid) : Panel := { id, panelType := .browser }

def newDiff (id : Uuid) (dir : Option String) : Panel :=
  { id, panelType := .diff, title := some "Diff", directory := dir }

def newProject (id : Uuid) (dir : Option String) : Panel :=
  { id, panelType := .project, title := some "Project", directory := dir }

def newNotes (id : Uuid) (filePath : String) : Panel :=
  { id, panelType := .notes, title := (fileName filePath).or (some "Notes"),
    markdownFile := some filePath }

def newFilePreview (id : Uuid) (filePath : String) : Panel :=
  { id, panelType := .filePreview, title := fileName filePath, markdownFile := some filePath }

def newMarkdown (id : Uuid) (filePath : String) : Panel :=
  { id, panelType := .markdown, title := fileName filePath, markdownFile := some filePath }

def newHistory (id : Uuid) : Panel := { id, panelType := .history, title := some "History" }

def newVault (id : Uuid) : Panel := { id, panelType := .vault, title := some "Vault" }

def newAgentMonitor (id : Uuid) (transcriptPath title : String) : Panel :=
  { id, panelType := .agentMonitor, title := some title, markdownFile := some transcriptPath }

def newGraph (id : Uuid) (graphName : String) : Panel :=
  { id, panelType := .graph, title := some s!"graph: {graphName}", command := some graphName }

/-- The custom title, the title or a text for the type. -/
def displayTitle (panel : Panel) : String :=
  (panel.customTitle.or panel.title).getD (match panel.panelType with
    | .terminal => "Terminal"
    | .browser => "Browser"
    | .agentMonitor => "Sub-agent"
    | .graph => "Graph"
    | .markdown => (panel.markdownFile.bind fileName).getD "Markdown"
    | .diff => "Diff"
    | .project => "Project"
    | .filePreview => (panel.markdownFile.bind fileName).getD "Preview"
    | .notes => "Notes"
    | .history => "History"
    | .vault => "Vault")

/-- The match on the type in `Workspace::split` and `surface.create`: monitor
and graph panels cannot be asked for and become terminals. -/
def ofType (id : Uuid) : PanelType → Panel
  | .terminal => newTerminal id
  | .browser => newBrowser id
  | .markdown => newMarkdown id ""
  | .diff => newDiff id none
  | .project => newProject id none
  | .filePreview => newFilePreview id ""
  | .notes => newNotes id ""
  | .history => newHistory id
  | .vault => newVault id
  | .agentMonitor => newTerminal id
  | .graph => newTerminal id

@[simp] theorem ofType_id (id : Uuid) (panelType : PanelType) : (ofType id panelType).id = id := by
  cases panelType <;> rfl

end Panel

end Jmux.Model
