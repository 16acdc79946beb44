import Mathlib.Data.Rat.Defs
import Mathlib.Tactic.Basic

/-! Dictionaries with string keys, and the values of a JSON document as Python's `json` module
reads them. -/

namespace ProofKit

/-- A dictionary with string keys.  Python's `==` compares the bindings of two dictionaries and
not their order, so a dictionary is the function that looks its keys up. -/
@[ext] structure Dict (V : Type) where
  get : String → Option V

namespace Dict

variable {V : Type}

def empty : Dict V := ⟨fun _ => none⟩

/-- `d[key] = value`. -/
def set (d : Dict V) (key : String) (value : V) : Dict V :=
  ⟨fun k => if k = key then some value else d.get k⟩

/-- `d.setdefault(key, value)`: a key that is present keeps its value. -/
def setDefault (d : Dict V) (key : String) (value : V) : Dict V :=
  match d.get key with
  | some _ => d
  | none => d.set key value

/-- The display `{key: value, ...}`. -/
def ofList (bindings : List (String × V)) : Dict V :=
  bindings.foldl (fun d binding => d.set binding.1 binding.2) empty

@[simp] theorem get_set (d : Dict V) (key k : String) (value : V) :
    (d.set key value).get k = if k = key then some value else d.get k := rfl

theorem get_setDefault (d : Dict V) (key k : String) (value : V) :
    (d.setDefault key value).get k =
      if k = key then some ((d.get key).getD value) else d.get k := by
  unfold setDefault
  split
  · rename_i present h
    split
    · rename_i hk
      rw [hk, h, Option.getD_some]
    · rfl
  · rename_i h
    simp [h]

@[simp] theorem get_setDefault_ne (d : Dict V) {key k : String} (value : V) (h : k ≠ key) :
    (d.setDefault key value).get k = d.get k := by
  simp [get_setDefault, h]

/-- Binding a key to the value it already has changes nothing. -/
theorem set_same {d : Dict V} {key : String} {value : V} (h : d.get key = some value) :
    d.set key value = d := by
  ext k : 2
  simp only [get_set]
  split
  · rename_i hk
    rw [hk, h]
  · rfl

theorem setDefault_of_some {d : Dict V} {key : String} {old : V} (value : V)
    (h : d.get key = some old) : d.setDefault key value = d := by
  simp [setDefault, h]

end Dict

/-- A JSON value.  `float` is a number written with a fraction or an exponent. -/
inductive Value where
  | none
  | bool (b : Bool)
  | int (i : Int)
  | float (q : Rat)
  | str (s : String)
  | list (items : List Value)
  | dict (fields : Dict Value)

namespace Value

/-- The string that the value is, if `isinstance(value, str)`. -/
def asStr : Value → Option String
  | .str s => some s
  | _ => Option.none

/-- The integer that the value is, if `isinstance(value, int)`: `True` and `False` are the integers
1 and 0 there. -/
def asInt : Value → Option Int
  | .int i => some i
  | .bool b => some (if b then 1 else 0)
  | _ => Option.none

/-- The integer that the value is, if it is an `int` and not a `bool`. -/
def asStrictInt : Value → Option Int
  | .int i => some i
  | _ => Option.none

def asList : Value → Option (List Value)
  | .list items => some items
  | _ => Option.none

def asDict : Value → Option (Dict Value)
  | .dict fields => some fields
  | _ => Option.none

end Value

end ProofKit
