/-
  Jmux.Socket.Request — parameters and answers of the socket's handlers
  (`socket/v2/mod.rs`, `helpers.rs`).

  A handler gives the tab manager that it leaves behind and its answer.
-/
import Jmux.Model.TabManager

namespace Jmux.Socket

open Jmux.Model

/-- A parameter that should be a UUID: not there (or no string), not parsable,
or given. -/
inductive UuidParam
  | absent
  | malformed
  | given (id : Uuid)
  deriving DecidableEq, Repr

/-- A field of a successful answer. -/
inductive Field
  | uuid (id : Uuid)
  | bool (b : Bool)
  | int (n : Nat)
  deriving DecidableEq, Repr

inductive Response
  | success (fields : List (String × Field))
  | error (code message : String)
  /-- An `expect` of the handler failed. -/
  | panicked
  deriving DecidableEq, Repr

def Response.isError : Response → Bool
  | .error _ _ => true
  | _ => false

/-- The panel that a request names, or the focused panel of the selected
workspace.  The helper locks the tab manager for itself. -/
def resolvePanelId (tm : TabManager) (panel : UuidParam) : Except Response Uuid :=
  match panel with
  | .given id => .ok id
  | .malformed => .error (.error "invalid_params" "Invalid panel UUID")
  | .absent =>
      match tm.selected with
      | none => .error (.error "not_found" "No workspace selected")
      | some ws =>
          match ws.focusedPanelId with
          | none => .error (.error "not_found" "No focused panel")
          | some id => .ok id

/-- `"vertical"` or horizontal. -/
def parseOrientation (orientation : Option String) : SplitOrientation :=
  if orientation = some "vertical" then .vertical else .horizontal

end Jmux.Socket
