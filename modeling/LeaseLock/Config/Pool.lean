import LeaseLock.Config.Configuration
import LeaseLock.Lock.Event
import LeaseLock.Sql.Embedded
import LeaseLock.Sql.Statement
import LeaseLock.Url.Basic

namespace LeaseLock.Config

structure Pool where
  dialect : Sql.Dialect
  maxConnections : UInt32
  minConnections : UInt32
  connectTimeout : Span
  acquireTimeout : Span
  logsStatements : Bool
  deriving DecidableEq, Repr

inductive PoolError
  | noUrl
  | database
  | overflow
  deriving DecidableEq, Repr

def PoolError.message : PoolError → String
  | .noUrl => "no database URL configured (--db-url, DATABASE_URL or db.url)"
  | .database => "database error"
  | .overflow => "arithmetic out of range"

namespace Pool

def dialect? (url : String) : Option Sql.Dialect :=
  match Url.scheme? url with
  | some "postgres" | some "postgresql" => some .postgres
  | some "sqlite" => some .sqlite
  | _ => none

def ofConfiguration (c : Configuration) (dialect : Sql.Dialect) : Pool where
  dialect := dialect
  maxConnections := c.maxConnections
  minConnections := min c.minConnections c.maxConnections
  connectTimeout := c.connectTimeout
  acquireTimeout := c.acquireTimeout
  logsStatements := c.logsStatements

def event (p : Pool) : Event :=
  ⟨.info, "Database connection pool configured",
    [("max_connections", decimalText p.maxConnections.toNat),
      ("min_connections", decimalText p.minConnections.toNat),
      ("connect_timeout_secs", decimalText p.connectTimeout.seconds),
      ("acquire_timeout_secs", decimalText p.acquireTimeout.seconds),
      ("sqlx_logging", if p.logsStatements then "true" else "false")]⟩

/-- What a clock of signed seconds, which has run for an hour, can still count. -/
def longestWait : Nat := UInt64.size / 2 - 3600

def isOverflow (p : Pool) : Bool := p.maxConnections == 0 || longestWait ≤ p.acquireTimeout.seconds

/-- Opens the pool where no server and no file is at hand: an embedded database in memory needs
neither. A connection takes some time. -/
def open? (c : Configuration) : Except PoolError Pool := do
  let some url := c.databaseUrl | throw .noUrl
  let some dialect := dialect? url | throw .database
  let pool := ofConfiguration c dialect
  match dialect with
  | .sqlite =>
    let some database := Sql.Embedded.ofUrl? url | throw .database
    if pool.isOverflow then throw .overflow
    if database.opens && pool.acquireTimeout != .zero then return pool else throw .database
  | _ => throw (if pool.isOverflow then .overflow else .database)

end Pool

end LeaseLock.Config
