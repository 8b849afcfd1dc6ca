import LeaseLock.Json.Printer

namespace LeaseLock

structure Metadata where
  entries : List (String × String)
  deriving DecidableEq, Repr

namespace Metadata

def empty : Metadata := ⟨[]⟩

instance : Inhabited Metadata := ⟨empty⟩

def insertInto (name value : String) : List (String × String) → List (String × String)
  | [] => [(name, value)]
  | (n, v) :: rest =>
    if name = n then (name, value) :: rest
    else if name < n then (name, value) :: (n, v) :: rest
    else (n, v) :: insertInto name value rest

def insert (m : Metadata) (name value : String) : Metadata := ⟨insertInto name value m.entries⟩

def get? (m : Metadata) (name : String) : Option String := m.entries.lookup name

def ofList (entries : List (String × String)) : Metadata :=
  entries.foldl (fun m (name, value) => m.insert name value) empty

def toJson (m : Metadata) : Json :=
  .record (m.entries.map fun (name, value) => (name, .ofString value))

def text (m : Metadata) : String := m.toJson.text

end Metadata

end LeaseLock
