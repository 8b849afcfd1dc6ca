import LeaseLock.Sql.Clock
import LeaseLock.Sql.LeaseTable
import LeaseLock.Sql.Statement

namespace LeaseLock.Sql

/-- A database with room for one table; names of tables are compared without case. -/
structure Database where
  tableName : String
  table : Option LeaseTable
  deriving DecidableEq, Repr

inductive Connection
  | open (database : Database)
  | unreachable
  | closed
  deriving DecidableEq, Repr

def Connection.fresh : Connection := .open ⟨"", none⟩

structure Store where
  settings : Settings
  statements : Statements
  connection : Connection
  deriving DecidableEq, Repr

namespace Store

def databaseFault : Fault := .backend .undescribed

def millis (s : Span) : Outcome Int :=
  if s.millis < UInt64.size / 2 then .ok s.millis else .failed databaseFault

def instant (ms : Int) : Outcome Instant :=
  if !isWord ms then .failed databaseFault
  else
    match Instant.ofMillis? ms with
    | some t => .ok t
    | none => .failed (.backend
        (.described ("Custom Error: stored timestamp out of range: " ++ integerText ms)))

def holding (validUntil now : Int) : Outcome Holding :=
  let left := validUntil - now
  if !isWord validUntil || !isWord left then .failed databaseFault
  else if 0 < left then .ok ⟨true, .ofMillis (UInt64.ofNat left.toNat)⟩
  else .ok .free

def table (s : Store) : Outcome LeaseTable :=
  match s.connection with
  | .closed => .failed .closed
  | .unreachable => .failed databaseFault
  | .open database =>
    match database.table with
    | some table =>
      if lowerAscii database.tableName.toList = lowerAscii s.settings.lockTable.toList then .ok table
      else .failed databaseFault
    | none => .failed databaseFault

def withTable (s : Store) (t : LeaseTable) : Store :=
  match s.connection with
  | .open database => { s with connection := .open { database with table := some t } }
  | _ => s

def checkOpen (s : Store) : Outcome Unit :=
  match s.connection with
  | .closed => .failed .closed
  | _ => .ok ()

def spans (ttl : Span) : Outcome (Int × Int) := do
  let padded ← Outcome.ofOption (ttl.add? grantPadding)
  return (← millis padded, ← millis ttl)

def prepared (s : Store) (ttl : Span) : Outcome ((Int × Int) × LeaseTable) := do
  s.checkOpen
  let spans ← spans ttl
  return (spans, ← s.table)

def attempt (s : Store) (x : Outcome α) (next : α → CallResult Store β) : CallResult Store β :=
  match x with
  | .ok a => next a
  | .failed fault => ⟨.failed fault, s, []⟩
  | .overflow => ⟨.overflow, s, []⟩

@[simp] theorem attempt_ok (s : Store) (a : α) (next : α → CallResult Store β) :
    s.attempt (.ok a) next = next a := rfl

@[simp] theorem attempt_failed (s : Store) (fault : Fault) (next : α → CallResult Store β) :
    s.attempt (.failed fault) next = ⟨.failed fault, s, []⟩ := rfl

@[simp] theorem attempt_overflow (s : Store) (next : α → CallResult Store β) :
    s.attempt .overflow next = ⟨.overflow, s, []⟩ := rfl

/-- An error in the answer does not undo what the statement wrote. -/
def acquire (s : Store) (now : Int) (claim : Claim) : CallResult Store Grant :=
  s.attempt (s.prepared claim.ttl) fun ((padded, ttl), table) =>
    match table.acquire now claim padded ttl with
    | (some validUntil, table) => ⟨(instant validUntil).map .granted, s.withTable table, []⟩
    | (none, table) =>
      ⟨.ok .contended, s.withTable table,
        [⟨.debug, "Lease row held by another owner", [("key", claim.key)]⟩]⟩

def release (s : Store) (key leaseId nonce : String) : CallResult Store Nat :=
  s.attempt s.table fun table =>
    let (removed, table) := table.release key leaseId nonce
    ⟨.ok removed, s.withTable table, []⟩

def renew (s : Store) (now : Int) (key leaseId nonce : String) (ttl : Span) (newNonce : String) :
    CallResult Store (Option Renewal) :=
  s.attempt (s.prepared ttl) fun ((padded, ttl), table) =>
    match table.renew now key leaseId nonce padded ttl newNonce with
    | (some validUntil, table) =>
      ⟨(instant validUntil).map fun t => some ⟨t, newNonce⟩, s.withTable table, []⟩
    | (none, table) => ⟨.ok none, s.withTable table, []⟩

def isHeld (s : Store) (now : Int) (key : String) : Outcome Holding := do
  let table ← s.table
  match table.validUntil? key with
  | some validUntil => holding validUntil now
  | none => return .free

/-- What the counters of a pool show at one moment. Connections being opened are counted but not
idle. -/
structure PoolReading where
  size : Nat
  idle : Nat
  limit : Nat
  deriving DecidableEq, Repr

def PoolReading.use (r : PoolReading) : PoolUse := ⟨r.size - r.idle, some r.limit⟩

/-- A pool's use by others: the smaller of two readings, the second without the probe's own
connection. -/
def poolUse (before after : PoolUse) : PoolUse :=
  ⟨min before.active (after.active - 1), after.limit⟩

def probeBetween (s : Store) (before after : PoolReading) : Outcome PoolUse :=
  match s.connection with
  | .closed => .failed .closed
  | .unreachable => .failed databaseFault
  | .open _ => .ok (poolUse before.use after.use)

/-- A probe meets a pool of one connection that is free before it. -/
def probe (s : Store) : Outcome PoolUse := s.probeBetween ⟨1, 1, 1⟩ ⟨1, 0, 1⟩

def close (s : Store) : CallResult Store Unit :=
  match s.connection with
  | .closed => ⟨.ok (), s, []⟩
  | _ =>
    ⟨.ok (), { s with connection := .closed },
      [⟨.info, "Closing SQL lease store", [("table", s.statements.table)]⟩]⟩

def new (d : Dialect) (settings : Settings) (connection : Connection) :
    Except Fault (Store × List Event) := do
  let statements ← Statements.render d settings
  return (⟨settings, statements, connection⟩,
    [⟨.info, "SQL lease store initialized",
      [("backend", d.name), ("table", statements.table)]⟩])

def applyAt (s : Store) (now : Int) (newNonce : String) :
    (call : Call) → CallResult Store call.Answer
  | .acquire claim => s.acquire now claim
  | .release key leaseId nonce => s.release key leaseId nonce
  | .renew key leaseId nonce ttl => s.renew now key leaseId nonce ttl newNonce
  | .isHeld key => ⟨s.isHeld now key, s, []⟩
  | .probe => ⟨s.probe, s, []⟩
  | .close => s.close

def apply (s : Store) (now : Int) (newNonce : String) (call : Call) :
    CallResult Store call.Answer := s.applyAt (databaseMillis now) newNonce call

end Store

end LeaseLock.Sql
