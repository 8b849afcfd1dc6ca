import LeaseLock.Coordinator.Metric
import LeaseLock.Interaction
import LeaseLock.Lock.Terms
import LeaseLock.Store.Call

namespace LeaseLock

inductive CallReply (α : Type)
  | answered (outcome : Outcome α)
  | timedOut

inductive Effect
  | call (limit : Option Span) (call : Call)
  | pause (delay : Span)
  | drawWord
  | mint
  | readClock
  | count (counter : Counter)
  | recordDuration (seconds : Binary64)
  | report (event : Event)
  | isClosed
  /-- Closes the coordinator; the reply tells whether it was closed already. -/
  | markClosed

@[reducible] def Effect.Reply : Effect → Type
  | .call _ c => CallReply c.Answer
  | .drawWord => UInt64
  | .mint => String
  | .readClock => Int
  | .isClosed | .markClosed => Bool
  | .pause _ | .count _ | .recordDuration _ | .report _ => Unit

abbrev Program := Interaction Effect Effect.Reply

namespace Program

def ask (effect : Effect) : Program effect.Reply := .query effect

def guarded (check : Except Fault Unit) (next : Program (Outcome α)) : Program (Outcome α) :=
  match check with
  | .ok () => next
  | .error fault => .done (.failed fault)

def whenOpen (next : Program (Outcome α)) : Program (Outcome α) := do
  if ← ask .isClosed then return .failed .closed else next

def report (level : Level) (message : String) (fields : List (String × String)) : Program Unit :=
  ask (.report ⟨level, message, fields⟩)

/-- The time since a reading of the clock; none has passed if the clock was set back. -/
def elapsedSince (started : Int) : Program Span := do
  let now ← ask .readClock
  return Span.clamp (now - started).toNat

end Program

end LeaseLock
