import LeaseLock.Json.Printer
import LeaseLock.Log.Filter

namespace LeaseLock.Log

structure Entry where
  name : String
  event : Event
  deriving DecidableEq, Repr

def severity (level : Level) : Nat := 60 - 10 * level.depth

namespace Entry

def version : Nat := 0

def toJson (e : Entry) : Json :=
  .record ([("v", .ofNat version), ("name", .ofString e.name), ("msg", .ofString e.event.message),
    ("level", .ofNat (severity e.event.level))] ++
    e.event.fields.map fun (name, text) => (name, .ofString text))

end Entry

def entries (f : Filter) (name target : String) (events : List Event) : List Entry :=
  (events.filter (f.shows target)).map fun e => ⟨name, e⟩

end LeaseLock.Log
