import LeaseLock.Rehearsal.Step

namespace LeaseLock.Rehearsal

structure Record where
  answer : Answer
  now : Int
  calls : Nat
  size : Option Nat
  counts : Option RegistryCounts

inductive StoreKind
  | memory
  | embedded (settings : Sql.Settings) (tableName : String)
  | unreachable (settings : Sql.Settings)
  deriving DecidableEq, Repr

def StoreKind.open : StoreKind → Except Fault (Backing × List Event)
  | .memory => .ok (.memory .new, [])
  | .embedded settings tableName =>
    (Sql.Store.new .sqlite settings (.open ⟨tableName, some .empty⟩)).map fun (store, events) =>
      (.sql store, events)
  | .unreachable settings =>
    (Sql.Store.new .postgres settings .unreachable).map fun (store, events) => (.sql store, events)

namespace World

def size (w : World) : Option Nat :=
  match w.backing with
  | .memory registry => some registry.leases.size
  | .sql _ => w.table?.map Keyed.size

def counts? (w : World) : Option RegistryCounts :=
  match w.backing with
  | .memory registry => some registry.counts
  | .sql _ => none

def record (w : World) (answer : Answer) : Record := ⟨answer, w.now, w.calls, w.size, w.counts?⟩

def start (now : Int) (series : String) (backing : Backing) (events : List Event) : World :=
  World.report { backing, now, series } events

end World

def performAll (c : Coordinator) (w : World) : List Step → List Record
  | [] => []
  | step :: rest =>
    let (answer, w) := (step.activity c).run w
    w.record answer :: performAll c w rest

/-- A rehearsal from a reading of the clock; fails if the store cannot be opened. Minted identifiers
differ from all others if these do not hold the digits of the series. -/
def rehearse (kind : StoreKind) (now : Int) (series : String) (c : Coordinator)
    (steps : List Step) : Except Fault (List Record) := do
  let (backing, events) ← kind.open
  return performAll c (.start now series backing events) steps

end LeaseLock.Rehearsal
