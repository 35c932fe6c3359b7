/-
  Jmux.Lib.Json — JSON values and the accessors of `serde_json::Value`.

  A value is what a parser gives; the texts themselves are not modelled.  The
  numbers that the modelled programs exchange are integers.
-/
import Mathlib.Algebra.Group.Int.Defs
import Mathlib.Algebra.Group.Nat.Defs

namespace Jmux.Lib

inductive Json
  | null
  | bool (b : Bool)
  | num (n : Int)
  | str (s : String)
  | arr (items : List Json)
  | obj (fields : List (String × Json))
  deriving Repr

namespace Json

/-- The value under a key; of a repeated key the last one counts. -/
def get (key : String) : Json → Option Json
  | obj fields => (fields.reverse.find? (·.1 = key)).map (·.2)
  | _ => none

def asU64 : Json → Option Nat
  | num n => if 0 ≤ n ∧ n < 2 ^ 64 then some n.toNat else none
  | _ => none

def asStr : Json → Option String
  | str s => some s
  | _ => none

def asBool : Json → Option Bool
  | bool b => some b
  | _ => none

end Json

end Jmux.Lib
