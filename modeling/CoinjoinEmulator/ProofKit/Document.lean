import Mathlib.Algebra.Order.Ring.Rat
import Mathlib.Algebra.Order.Monoid.Unbundled.WithTop

/-! JSON documents as Python's `json` module reads and writes them. -/

namespace ProofKit

/-- A value of a document.  `none` is `null`, a `float` is a number written with a fraction or an
exponent, which may be too large to be finite but is not NaN, and an object keeps the order of its
members. -/
inductive Json where
  | none
  | bool (b : Bool)
  | int (i : Int)
  | float (x : WithBot (WithTop Rat))
  | str (s : String)
  | list (items : List Json)
  | dict (members : List (String × Json))

/-- The members of an object. -/
abbrev Members := List (String × Json)

/-- `members.get(key, default)`. -/
def Members.getD (members : Members) (key : String) (default : Json) : Json :=
  (members.lookup key).getD default

/-- `members.get(key)`. -/
def Members.get (members : Members) (key : String) : Json := members.getD key .none

@[simp] theorem Members.getD_cons (name key : String) (value default : Json) (members : Members) :
    Members.getD ((name, value) :: members) key default =
      if key = name then value else members.getD key default := by
  unfold Members.getD
  rw [List.lookup_cons]
  split <;> simp_all

def Members.keys (members : Members) : List String := members.map Prod.fst

namespace Json

/-- The name of the Python type of a value. -/
def typeName : Json → String
  | none => "NoneType"
  | bool _ => "bool"
  | int _ => "int"
  | float _ => "float"
  | str _ => "str"
  | list _ => "list"
  | dict _ => "dict"

def isNone : Json → Bool
  | none => true
  | _ => false

/-- `isinstance(value, int)`, which `True` and `False` are too. -/
def isInt : Json → Bool
  | bool _ | int _ => true
  | _ => false

def isDict : Json → Bool
  | dict _ => true
  | _ => false

/-- The truth value of `bool(value)`. -/
def truthy : Json → Bool
  | none => false
  | bool b => b
  | int i => i != 0
  | float x => decide (x ≠ 0)
  | str s => s != ""
  | list items => !items.isEmpty
  | dict members => !members.isEmpty

/-- What `for item in value` goes through, if the value is iterable: the items of a list, the keys
of an object and the characters of a string. -/
def iterated : Json → Option (List Json)
  | list items => some items
  | dict members => some ((Members.keys members).map str)
  | str s => some (s.toList.map fun c => str (String.singleton c))
  | _ => Option.none

/-- An optional value, with `None` for a missing one. -/
def ofOption {α : Type} (write : α → Json) : Option α → Json
  | Option.none => none
  | some a => write a

end Json

/-- Whether Python's `str.isspace` holds of a character. -/
def isSpace (c : Char) : Bool :=
  let code := c.toNat
  (9 ≤ code && code ≤ 13) || (28 ≤ code && code ≤ 32) || code == 0x85 || code == 0xa0 ||
    code == 0x1680 || (0x2000 ≤ code && code ≤ 0x200a) || code == 0x2028 || code == 0x2029 ||
    code == 0x202f || code == 0x205f || code == 0x3000

/-- `s.strip()`. -/
def strip (s : String) : String :=
  String.ofList (((s.toList.dropWhile isSpace).reverse.dropWhile isSpace).reverse)

end ProofKit
