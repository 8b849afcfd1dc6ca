import LeaseLock.Json.Printer
import LeaseLock.Json.Record
import LeaseLock.Lock.Fault

namespace LeaseLock.Sql

structure Settings where
  lockSchema : String
  lockTable : String
  migrationSchema : String
  migrationTable : String
  deriving DecidableEq, Repr

namespace Settings

def standard : Settings := ⟨"public", "locker_locks", "public", "locker_migrations"⟩

instance : Inhabited Settings := ⟨standard⟩

def isNameStart (c : Char) : Bool :=
  ('a' ≤ c ∧ c ≤ 'z') ∨ ('A' ≤ c ∧ c ≤ 'Z') ∨ c = '_'

def isNameChar (c : Char) : Bool := isNameStart c || isDigit c

def maxNameLength : Nat := 63

def isName (name : String) : Bool :=
  match name.toList with
  | [] => false
  | c :: rest => isNameStart c && rest.all isNameChar && rest.length < maxNameLength

def nameProblem? (field value : String) : Option String :=
  if value.isEmpty then some (field ++ " is required")
  else if isName value then none
  else some (field ++ " is not a valid identifier: " ++ quoted value)

def problems (s : Settings) : List String :=
  [nameProblem? "lock_schema" s.lockSchema, nameProblem? "lock_table" s.lockTable,
    nameProblem? "migration_schema" s.migrationSchema,
    nameProblem? "migration_table" s.migrationTable].filterMap id ++
  if !s.lockTable.isEmpty && s.lockTable == s.migrationTable then
    ["lock_table and migration_table must be different"]
  else []

def check (s : Settings) : Except Fault Unit :=
  if s.problems.isEmpty then .ok ()
  else .error (.invalidSettings (", ".intercalate s.problems))

def toJson (s : Settings) : Json :=
  .record [("lockSchema", .ofString s.lockSchema), ("lockTable", .ofString s.lockTable),
    ("migrationSchema", .ofString s.migrationSchema),
    ("migrationTable", .ofString s.migrationTable)]

def ofJson? (json : Json) : Option Settings := do
  let r ← JsonRecord.ofJson? ["lockSchema", "lockTable", "migrationSchema", "migrationTable"]
    false json
  return {
    lockSchema := ← r.getD? "lockSchema" Json.toText? standard.lockSchema
    lockTable := ← r.getD? "lockTable" Json.toText? standard.lockTable
    migrationSchema := ← r.getD? "migrationSchema" Json.toText? standard.migrationSchema
    migrationTable := ← r.getD? "migrationTable" Json.toText? standard.migrationTable }

def text (s : Settings) : String := s.toJson.text

def ofText? (text : String) : Option Settings := (Json.ofText? text).bind ofJson?

end Settings

end LeaseLock.Sql
