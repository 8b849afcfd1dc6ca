import LeaseLock.Number.Decimal
import LeaseLock.Number.Integer

namespace LeaseLock.Config

inductive Value
  | nil
  | bool (b : Bool)
  | integer (n : Int)
  | float (x : Binary64)
  | text (s : String)
  | list (items : List Value)
  | table (members : List (String × Value))
  deriving Repr, Inhabited

namespace Value

def greatest : Nat := UInt64.size / 2 - 1

/-- The integer nearest to a double, at most the greatest; NaN counts as zero. -/
def roundFloat (x : Binary64) : Int :=
  if x.isNaN then 0
  else if x.isInfinite then if x.negative then -greatest - 1 else greatest
  else max (-greatest - 1) (min greatest x.roundAway)

def isOneOf (words : List String) (s : String) : Bool :=
  words.contains (String.ofList (lowerAscii s.toList))

/-- A truth counts as one or zero; a text must be a truth or an integer. -/
def toInt? : Value → Option Int
  | .bool b => some (if b then 1 else 0)
  | .integer n => if -greatest - 1 ≤ n ∧ n ≤ greatest then some n else none
  | .float x => some (roundFloat x)
  | .text s =>
    if isOneOf ["true", "yes", "on"] s then some 1
    else if isOneOf ["false", "no", "off"] s then some 0
    else (readInt greatest s).toOption
  | .nil | .list _ | .table _ => none

def toBool? : Value → Option Bool
  | .bool b => some b
  | .integer n => some (n != 0)
  | .float x => some (x.isNaN || x.word != 0)
  | .text s =>
    if isOneOf ["1", "true", "on", "yes"] s then some true
    else if isOneOf ["0", "false", "off", "no"] s then some false
    else none
  | .nil | .list _ | .table _ => none

def toText? : Value → Option String
  | .bool b => some (if b then "true" else "false")
  | .integer n => some (integerText n)
  | .float x => some x.text
  | .text s => some s
  | .nil | .list _ | .table _ => none

def members : Value → List (String × Value)
  | .table members => members
  | _ => []

def items : Value → List Value
  | .list items => items
  | _ => []

def member? (v : Value) (name : String) : Option Value := v.members.lookup name

def find? (v : Value) : List String → Option Value
  | [] => some v
  | name :: rest =>
    match v.member? name with
    | some inner => inner.find? rest
    | none => none

def put [DecidableEq κ] (name : κ) (value : Value) : List (κ × Value) → List (κ × Value)
  | [] => [(name, value)]
  | (n, v) :: rest => if name = n then (name, value) :: rest else (n, v) :: put name value rest

mutual

/-- Lays a value over an earlier one. Tables are merged member by member; an empty one changes
nothing. -/
def overlay (earlier : Option Value) : Value → Value
  | .table [] => earlier.getD (.table [])
  | .table members => .table (overlayMembers ((earlier.map Value.members).getD []) members)
  | value => value

def overlayMembers (earlier : List (String × Value)) :
    List (String × Value) → List (String × Value)
  | [] => earlier
  | (name, value) :: rest =>
    overlayMembers (put name (overlay (earlier.lookup name) value) earlier) rest

end

end Value

end LeaseLock.Config
