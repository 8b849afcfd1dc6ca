import LeaseLock.Json.Reader

namespace LeaseLock

structure JsonRecord where
  positional : Bool
  fields : List (String × Json)

namespace JsonRecord

def namedMembers? (members : List (JsonText × Json)) : Option (List (String × Json)) :=
  members.mapM fun (name, value) => name.map fun name => (name, value)

def count (name : String) (members : List (String × Json)) : Nat :=
  (members.filter fun m => m.1 == name).length

/-- The record of the given fields. No field may come twice; other members are left out, or refused
if the record is `closed`. An array may end early. -/
def ofJson? (names : List String) (closed : Bool) (json : Json) : Option JsonRecord :=
  match json with
  | .object members => do
    let members ← namedMembers? members
    if closed && members.any (fun m => !names.contains m.1) then none
    else if names.any (fun name => 1 < count name members) then none
    else return ⟨false, members.filter fun m => names.contains m.1⟩
  | .array items => if items.length ≤ names.length then some ⟨true, names.zip items⟩ else none
  | _ => none

def field? (r : JsonRecord) (name : String) : Option Json := r.fields.lookup name

def require? (r : JsonRecord) (name : String) (read : Json → Option α) : Option α :=
  (r.field? name).bind read

def getD? (r : JsonRecord) (name : String) (read : Json → Option α) (default : α) : Option α :=
  match r.field? name with
  | some json => read json
  | none => some default

def nullable? (r : JsonRecord) (name : String) (read : Json → Option α) : Option (Option α) :=
  match r.field? name with
  | some .null => some none
  | some json => (read json).map some
  | none => if r.positional then none else some none

end JsonRecord

namespace Json

def toText? : Json → Option String
  | .string text => text
  | _ => none

def toNatBelow? (bound : Nat) : Json → Option Nat
  | .number n => n.toNatBelow? bound
  | _ => none

def toBinary64? : Json → Option Binary64
  | .number n => n.toBinary64?
  | _ => none

end Json

end LeaseLock
