import DelayPredictor.Lib.Stats

/-!
# Parsed JSON

What `json.loads` returns, as far as a program looks at it.

* `Value` — a value that was returned.  An integer is an integer, any other number a
  double, not-a-number and the infinities among them.  A document that makes `json.loads`
  raise, as an integer of too many digits does, has no value.
* `truthy` — whether `if value` takes the branch.
* `lookup` — `dict.get`: a missing key reads as null, and of equal keys the last
  one counts.
-/

namespace PyJson

open Stats

/-- A parsed JSON value.  An object lists its members in document order. -/
inductive Value where
  | null
  | bool (b : Bool)
  | int (n : ℤ)
  | float (x : XFloat)
  | str (s : String)
  | arr (items : List Value)
  | obj (members : List (String × Value))

namespace Value

/-- `bool(value)`. -/
def truthy : Value → Bool
  | null => false
  | bool b => b
  | int n => n ≠ 0
  | float x => x ≠ .fin 0
  | str s => s ≠ ""
  | arr items => !items.isEmpty
  | obj members => !members.isEmpty

/-- `members.get(key)`. -/
def lookup (key : String) (members : List (String × Value)) : Value :=
  ((members.filter fun m => m.1 = key).getLast?.map Prod.snd).getD null

/-- The keys of an object, each once. -/
def keys (members : List (String × Value)) : List String := (members.map Prod.fst).dedup

end Value

end PyJson
