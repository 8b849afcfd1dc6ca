import LeaseLock.Config.Environment
import LeaseLock.Config.Format
import LeaseLock.Config.Path
import LeaseLock.Sql.Settings
import LeaseLock.Time.Span

/-!
The settings of the program in layers: a file, the environment over it, and the command line over
both. A setting that is missing or does not convert takes its default.
-/

namespace LeaseLock.Config

inductive Key
  | databaseUrl
  | statementLogging
  | maxConnections
  | minConnections
  | connectTimeout
  | acquireTimeout
  | lockSchema
  | lockTable
  | migrationSchema
  | migrationTable
  | logLevel
  deriving DecidableEq, Repr

namespace Key

def all : List Key :=
  [.databaseUrl, .statementLogging, .maxConnections, .minConnections, .connectTimeout,
    .acquireTimeout, .lockSchema, .lockTable, .migrationSchema, .migrationTable, .logLevel]

def path : Key → List String
  | .databaseUrl => ["db", "url"]
  | .statementLogging => ["db", "sqlx_logging"]
  | .maxConnections => ["db", "pool", "max_connections"]
  | .minConnections => ["db", "pool", "min_connections"]
  | .connectTimeout => ["db", "pool", "connect_timeout_secs"]
  | .acquireTimeout => ["db", "pool", "acquire_timeout_secs"]
  | .lockSchema => ["lock", "schema"]
  | .lockTable => ["lock", "table"]
  | .migrationSchema => ["lock", "migration_schema"]
  | .migrationTable => ["lock", "migration_table"]
  | .logLevel => ["log", "level"]

def name (key : Key) : String := ".".intercalate key.path

end Key

structure Configuration where
  root : Value

namespace Configuration

def empty : Configuration := ⟨.table []⟩

instance : Inhabited Configuration := ⟨empty⟩

def set (c : Configuration) (name : String) (value : Value) : Configuration :=
  match Path.ofText? name with
  | some path => ⟨path.set value c.root⟩
  | none => ⟨Path.setAt value [.member name] (some c.root)⟩

def setAll (c : Configuration) (settings : List (String × Value)) : Configuration :=
  settings.foldl (fun c (name, value) => c.set name value) c

structure File where
  name : String
  text : Option String
  deriving DecidableEq, Repr

namespace File

def withoutMark (text : String) : String :=
  match text.toList with
  | '\ufeff' :: rest => String.ofList rest
  | _ => text

def settings? (f : File) : Option (List (String × Value)) :=
  match f.text, Format.ofName? f.name with
  | some text, some format =>
    match format.read? (withoutMark text) with
    | some (.table members) => some members
    | _ => none
  | _, _ => some []

end File

/-- The layers of a file, environment variables and a database given on the command line; fails if
the file cannot be read. -/
def load? (file : File) (environment : List (String × String)) (url : Option String) :
    Option Configuration := do
  let settings ← file.settings?
  let c := (empty.setAll settings).setAll (Environment.settings environment)
  match url with
  | some url => return c.set Key.databaseUrl.name (.text url)
  | none => return c

/-- Settings by path, of which the last for a path stands in the place of the first; fails at a
malformed path. -/
def ofSettings? (settings : List (String × Value)) : Option Configuration := do
  let settings ← settings.mapM fun (name, value) => (Path.ofText? name).map (·, value)
  let last := settings.foldl (fun last (path, value) => Value.put path value last) []
  return last.foldl (fun c (path, value) => ⟨path.set value c.root⟩) empty

def find? (c : Configuration) (key : Key) : Option Value := c.root.find? key.path

def int? (c : Configuration) (key : Key) : Option Int := (c.find? key).bind Value.toInt?

def text? (c : Configuration) (key : Key) : Option String := (c.find? key).bind Value.toText?

def databaseUrl (c : Configuration) : Option String :=
  (c.text? .databaseUrl).filter fun url => !url.isEmpty

def logLevel (c : Configuration) : String := (c.text? .logLevel).getD "info"

/-- A number of connections; only its lowest 32 bits count. -/
def connections (c : Configuration) (key : Key) (default : UInt32) : UInt32 :=
  match c.int? key with
  | some n => UInt32.ofNat (n % UInt32.size).toNat
  | none => default

def maxConnections (c : Configuration) : UInt32 := c.connections .maxConnections 10

def minConnections (c : Configuration) : UInt32 := c.connections .minConnections 1

/-- A number of seconds; only its lowest 64 bits count. -/
def timeout (c : Configuration) (key : Key) (default : UInt64) : Span :=
  match c.int? key with
  | some n => .ofSeconds (UInt64.ofNat (n % UInt64.size).toNat)
  | none => .ofSeconds default

def connectTimeout (c : Configuration) : Span := c.timeout .connectTimeout 10

def acquireTimeout (c : Configuration) : Span := c.timeout .acquireTimeout 5

def logsStatements (c : Configuration) : Bool :=
  ((c.find? .statementLogging).bind Value.toBool?).getD false

def storeSettings (c : Configuration) : Sql.Settings :=
  let s := Sql.Settings.standard
  { lockSchema := (c.text? .lockSchema).getD s.lockSchema
    lockTable := (c.text? .lockTable).getD s.lockTable
    migrationSchema := (c.text? .migrationSchema).getD s.migrationSchema
    migrationTable := (c.text? .migrationTable).getD s.migrationTable }

end Configuration

end LeaseLock.Config
