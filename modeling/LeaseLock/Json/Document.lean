import LeaseLock.Config.Value
import LeaseLock.Json.Reader

namespace LeaseLock

open Config (Value)

namespace JsonNumber

def value? (n : JsonNumber) : Option Value :=
  match n.toInt? with
  | some k =>
    if -(Value.greatest : Int) - 1 ≤ k ∧ k ≤ Value.greatest then some (.integer k)
    else n.toBinary64?.map .float
  | none => n.toBinary64?.map .float

end JsonNumber

namespace Json

mutual

/-- What a document stands for, if no more values than a bound are nested in each other. Of members
with the same name the last counts. -/
def value? (depth : Nat) : Json → Option Value
  | .null => some .nil
  | .bool b => some (.bool b)
  | .number n => n.value?
  | .string text => text.map .text
  | .array items =>
    match depth with
    | 0 => none
    | depth + 1 => (values? depth items).map .list
  | .object members =>
    match depth with
    | 0 => none
    | depth + 1 => (settings? depth [] members).map .table

def values? (depth : Nat) : List Json → Option (List Value)
  | [] => some []
  | item :: rest => do return (← item.value? depth) :: (← values? depth rest)

def settings? (depth : Nat) (done : List (String × Value)) :
    List (JsonText × Json) → Option (List (String × Value))
  | [] => some done
  | (name, item) :: rest => do
    settings? depth (Value.put (← name) (← item.value? depth) done) rest

end

def greatestDepth : Nat := 127

def read? (text : String) : Option Value := (ofText? text).bind (value? greatestDepth)

end Json

end LeaseLock
