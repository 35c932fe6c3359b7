/-
  Jmux.Lib.Value — JSON values whose numbers may be floating-point, and the
  accessors of `serde_json::Value` that tell the two kinds of number apart.

  The floating-point numbers are a parameter: the type, what a text parses to,
  and which of them a JSON number can hold.
-/
import Mathlib.Algebra.Group.Int.Defs
import Mathlib.Algebra.Group.Nat.Defs

namespace Jmux.Lib

/-- Floating-point numbers, as far as JSON and `str::parse` need them. -/
structure Floats (F : Type) where
  parse    : String → Option F
  isFinite : F → Bool
  ofInt    : Int → F

inductive Value (F : Type)
  | null
  | bool (b : Bool)
  | int (n : Int)
  | float (x : F)
  | str (s : String)
  | arr (items : List (Value F))
  | obj (fields : List (String × Value F))

namespace Value

variable {F : Type}

/-- `json!(x)`: what is no number in JSON becomes `null`. -/
def ofFloat (fl : Floats F) (x : F) : Value F := if fl.isFinite x then .float x else .null

/-- The fields of an object; a value of another kind has none. -/
def fields : Value F → List (String × Value F)
  | obj fields => fields
  | _ => []

/-- The value under a key; of a repeated key the last one counts. -/
def get (key : String) (v : Value F) : Option (Value F) :=
  (v.fields.reverse.find? (·.1 = key)).map (·.2)

@[simp] theorem get_nil (key : String) : get key (obj ([] : List (String × Value F))) = none := rfl

@[simp] theorem get_append (key : String) (as bs : List (String × Value F)) :
    get key (obj (as ++ bs)) = (get key (obj bs)).or (get key (obj as)) := by
  show ((as ++ bs).reverse.find? _).map _
    = ((bs.reverse.find? _).map _).or ((as.reverse.find? _).map _)
  rw [List.reverse_append, List.find?_append]
  cases bs.reverse.find? fun f => decide (f.1 = key) with
  | some f => rfl
  | none => rfl

theorem get_singleton (key k : String) (v : Value F) :
    get key (obj [(k, v)]) = if k = key then some v else none := by
  show (([(k, v)].find? _).map _) = _
  rw [List.find?_singleton]
  by_cases h : k = key
  · rw [if_pos (decide_eq_true h), if_pos h]
    rfl
  · rw [if_neg (by simpa using h), if_neg h]
    rfl

@[simp] theorem get_cons (key k : String) (v : Value F) (fs : List (String × Value F)) :
    get key (obj ((k, v) :: fs)) = (get key (obj fs)).or (if k = key then some v else none) := by
  rw [← get_singleton key k v, ← get_append]
  rfl

def isNull : Value F → Bool
  | null => true
  | _ => false

def asStr : Value F → Option String
  | str s => some s
  | _ => none

/-- A text that may be missing comes back. -/
@[simp] theorem bind_asStr_map_str (o : Option String) :
    (o.map (str (F := F))).bind asStr = o := by
  cases o with
  | none => rfl
  | some s => rfl

def asBool : Value F → Option Bool
  | bool b => some b
  | _ => none

def asU64 : Value F → Option Nat
  | int n => if 0 ≤ n ∧ n < 2 ^ 64 then some n.toNat else none
  | _ => none

theorem asU64_int {n : Nat} (h : n < 2 ^ 64) : (int n : Value F).asU64 = some n := by
  have hrange : 0 ≤ (n : Int) ∧ (n : Int) < 2 ^ 64 := ⟨Int.natCast_nonneg n, by omega⟩
  unfold asU64
  dsimp only
  rw [if_pos hrange, Int.toNat_natCast]

def asI64 : Value F → Option Int
  | int n => if -2 ^ 63 ≤ n ∧ n < 2 ^ 63 then some n else none
  | _ => none

theorem asI64_int {n : Int} (h : -2 ^ 63 ≤ n ∧ n < 2 ^ 63) :
    (int n : Value F).asI64 = some n := by
  unfold asI64
  dsimp only
  rw [if_pos h]

def asF64 (fl : Floats F) : Value F → Option F
  | int n => some (fl.ofInt n)
  | float x => some x
  | _ => none

def asArray : Value F → Option (List (Value F))
  | arr items => some items
  | _ => none

end Value

end Jmux.Lib
