import LeaseLock.Config.Value

namespace LeaseLock.Config

inductive PathStep
  | member (name : String)
  | index (position : Int)
  deriving DecidableEq, Repr

structure Path where
  first : String
  rest : List PathStep
  deriving DecidableEq, Repr

namespace Path

def isNameChar (c : Char) : Bool := c.isAlphanum || c = '_' || c = '-'

inductive Reading
  | name (done : List Char)
  | position (done : List Char)
  | afterPosition
  deriving DecidableEq, Repr

def isBlank (c : Char) : Bool := c = ' ' || c = '\t'

def position? (cs : List Char) : Option Int :=
  let cs := (cs.dropWhile isBlank).reverse.dropWhile isBlank
  match cs.reverse with
  | '+' :: _ => none
  | cs => (readInt Value.greatest (String.ofList cs)).toOption

def readSteps (reading : Reading) (steps : List PathStep) : List Char → Option (List PathStep)
  | [] =>
    match reading with
    | .name [] => none
    | .name done => some (.member (String.ofList done.reverse) :: steps).reverse
    | .position _ => none
    | .afterPosition => some steps.reverse
  | c :: rest =>
    match reading with
    | .name done =>
      if isNameChar c then readSteps (.name (c :: done)) steps rest
      else if done.isEmpty then none
      else
        let steps := .member (String.ofList done.reverse) :: steps
        if c = '.' then readSteps (.name []) steps rest
        else if c = '[' then readSteps (.position []) steps rest
        else none
    | .position done =>
      if c = ']' then
        match position? done.reverse with
        | some position => readSteps .afterPosition (.index position :: steps) rest
        | none => none
      else readSteps (.position (c :: done)) steps rest
    | .afterPosition =>
      if c = '.' then readSteps (.name []) steps rest
      else if c = '[' then readSteps (.position []) steps rest
      else none

def ofText? (text : String) : Option Path :=
  match readSteps (.name []) [] text.toList with
  | some (.member first :: rest) => some ⟨first, rest⟩
  | _ => none

/-- The place of a position in a list, with the number of items that have to be put before the list
to make room for it. A negative position counts from the end. -/
def place (position : Int) (length : Nat) : Nat × Nat :=
  if 0 ≤ position then (position.toNat, 0)
  else if position.natAbs ≤ length then (length - position.natAbs, 0)
  else (0, position.natAbs - length)

def setItem (change : Option Value → Value) : Nat → List Value → List Value
  | 0, [] => [change none]
  | 0, item :: rest => change (some item) :: rest
  | n + 1, [] => .nil :: setItem change n []
  | n + 1, item :: rest => item :: setItem change n rest

def setAt (value : Value) : List PathStep → Option Value → Value
  | [], earlier => Value.overlay earlier value
  | .member name :: rest, earlier =>
    let members := (earlier.map Value.members).getD []
    .table (Value.put name (setAt value rest (members.lookup name)) members)
  | .index position :: rest, earlier =>
    let items := (earlier.map Value.items).getD []
    let (at_, before) := place position items.length
    .list (setItem (setAt value rest) at_ (List.replicate before .nil ++ items))

def set (p : Path) (value root : Value) : Value :=
  setAt value (.member p.first :: p.rest) (some root)

end Path

end LeaseLock.Config
