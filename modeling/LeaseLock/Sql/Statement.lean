import LeaseLock.Lock.Limits
import LeaseLock.Sql.Settings

namespace LeaseLock.Sql

inductive Dialect
  | postgres
  | sqlite
  | mysql
  deriving DecidableEq, Repr

namespace Dialect

def name : Dialect → String
  | .postgres => "Postgres"
  | .sqlite => "Sqlite"
  | .mysql => "MySql"

def isSupported (d : Dialect) : Bool := d != .mysql

def now : Dialect → String
  | .postgres => "(EXTRACT(EPOCH FROM NOW()) * 1000)::BIGINT"
  | _ => "CAST((julianday('now') - 2440587.5) * 86400000.0 AS INTEGER)"

def greatest : Dialect → String
  | .postgres => "GREATEST"
  | _ => "MAX"

def parameter (d : Dialect) (n : Nat) : String :=
  match d with
  | .postgres => "$" ++ decimalText n
  | _ => "?"

def quotedName (name : String) : String := "\"" ++ name ++ "\""

def table (d : Dialect) (s : Settings) : String :=
  match d with
  | .postgres => quotedName s.lockSchema ++ "." ++ quotedName s.lockTable
  | _ => quotedName s.lockTable

end Dialect

structure Statements where
  dialect : Dialect
  table : String
  /-- Takes key, lease, nonce, padded time to live, time to live, metadata. -/
  acquire : String
  /-- Takes key, lease, nonce. -/
  release : String
  /-- Takes padded time to live, time to live, new nonce, key, lease, nonce. -/
  renew : String
  isHeld : String
  probe : String
  deriving DecidableEq, Repr

namespace Statements

def acquireText (d : Dialect) (table : String) : String :=
  let now := d.now
  let p := d.parameter
  "INSERT INTO " ++ table ++ " AS held (\"key\", lease_id, server_nonce, valid_until, ttl_ms, " ++
    "metadata, created_at, updated_at) VALUES (" ++ p 1 ++ ", " ++ p 2 ++ ", " ++ p 3 ++ ", " ++
    now ++ " + " ++ p 4 ++ ", " ++ p 5 ++ ", " ++ p 6 ++ ", " ++ now ++ ", " ++ now ++ ") " ++
    "ON CONFLICT (\"key\") DO UPDATE SET lease_id = EXCLUDED.lease_id, " ++
    "server_nonce = EXCLUDED.server_nonce, valid_until = EXCLUDED.valid_until, " ++
    "ttl_ms = EXCLUDED.ttl_ms, metadata = EXCLUDED.metadata, " ++
    "created_at = EXCLUDED.created_at, updated_at = EXCLUDED.updated_at " ++
    "WHERE held.valid_until <= " ++ now ++ " RETURNING valid_until"

def releaseText (d : Dialect) (table : String) : String :=
  let p := d.parameter
  "DELETE FROM " ++ table ++ " WHERE \"key\" = " ++ p 1 ++ " AND lease_id = " ++ p 2 ++
    " AND server_nonce = " ++ p 3

def renewText (d : Dialect) (table : String) : String :=
  let now := d.now
  let p := d.parameter
  "UPDATE " ++ table ++ " SET valid_until = " ++ d.greatest ++ "(valid_until, " ++ now ++ " + " ++
    p 1 ++ "), ttl_ms = " ++ p 2 ++ ", server_nonce = " ++ p 3 ++ ", updated_at = " ++ now ++
    " WHERE \"key\" = " ++ p 4 ++ " AND lease_id = " ++ p 5 ++ " AND server_nonce = " ++ p 6 ++
    " AND " ++ now ++ " < valid_until - (ttl_ms * " ++ decimalText marginPercent ++
    " / 100) RETURNING valid_until"

def isHeldText (d : Dialect) (table : String) : String :=
  "SELECT valid_until - " ++ d.now ++ " AS remaining_ms FROM " ++ table ++ " WHERE \"key\" = " ++
    d.parameter 1

def render (d : Dialect) (s : Settings) : Except Fault Statements :=
  if !d.isSupported then
    .error (.invalidSettings ("unsupported database backend: " ++ d.name))
  else
    match s.check with
    | .error fault => .error fault
    | .ok () =>
      let table := d.table s
      .ok {
        dialect := d
        table := table
        acquire := acquireText d table
        release := releaseText d table
        renew := renewText d table
        isHeld := isHeldText d table
        probe := "SELECT CAST(1 AS BIGINT) AS ok" }

end Statements

end LeaseLock.Sql
