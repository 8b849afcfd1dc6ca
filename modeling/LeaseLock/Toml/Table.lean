import LeaseLock.Config.Value

namespace LeaseLock.Toml

open Config (Value)

inductive Item
  | value (v : Value)
  | table (isImplicit isDotted : Bool) (members : List (String × Item))
  | tables (tables : List (List (String × Item)))
  deriving Repr

abbrev Members := List (String × Item)

namespace Members

def put (name : String) (item : Item) : Members → Members
  | [] => [(name, item)]
  | (n, i) :: rest => if name = n then (name, item) :: rest else (n, i) :: put name item rest

def change? (isDotted : Bool) (f : Bool → Members → Option Members) (wasDotted : Bool) :
    List String → Members → Option Members
  | [], m => f wasDotted m
  | name :: rest, m =>
    match m.lookup name with
    | none => do return m.put name (.table true isDotted (← change? isDotted f isDotted rest []))
    | some (.value _) => none
    | some (.tables []) => none
    | some (.tables (last :: others)) => do
      return m.put name (.tables ((← change? isDotted f false rest last) :: others))
    | some (.table isImplicit dotted members) =>
      if isDotted && !isImplicit then none
      else do return m.put name (.table isImplicit dotted (← change? isDotted f dotted rest members))

def begin? (path : List String) (name : String) (m : Members) : Option Members :=
  m.change? false (fun _ m =>
    match m.lookup name with
    | none => some (m.put name (.table false false []))
    | some (.table true false members) => some (m.put name (.table false false members))
    | _ => none) false path

def append? (path : List String) (name : String) (m : Members) : Option Members :=
  m.change? false (fun _ m =>
    match m.lookup name with
    | none => some (m.put name (.tables [[]]))
    | some (.tables tables) => some (m.put name (.tables ([] :: tables)))
    | _ => none) false path

def add? (path : List String) (name : String) (value : Value) (m : Members) : Option Members :=
  m.change? true (fun isDotted m =>
    if isDotted == path.isEmpty || (m.lookup name).isSome then none
    else some (m.put name (.value value))) false path

def addUnder? (header path : List String) (name : String) (value : Value) (m : Members) :
    Option Members :=
  m.change? false (fun _ m => m.add? path name value) false header

mutual

def itemValue : Item → Value
  | .value v => v
  | .table _ _ members => .table (memberValues members)
  | .tables tables => .list (tableValues [] tables)

def memberValues : Members → List (String × Value)
  | [] => []
  | (name, item) :: rest => (name, itemValue item) :: memberValues rest

def tableValues (later : List Value) : List Members → List Value
  | [] => later
  | members :: rest => tableValues (.table (memberValues members) :: later) rest

end

def toValue (m : Members) : Value := .table m.memberValues

end Members

end LeaseLock.Toml
