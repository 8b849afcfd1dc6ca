import LeaseLock.Cli.Invocation
import LeaseLock.Coordinator.Basic
import LeaseLock.Lock.Form

namespace LeaseLock.Cli

inductive Answer
  | token (token : Token)
  | released (key : String)
  | status (key : String) (holding : Holding)
  | health (report : HealthReport)
  deriving DecidableEq, Repr

/-- What is printed; latencies and remaining times are milliseconds. -/
def Answer.toJson : Answer → Json
  | .token t => t.toJson
  | .released key => .record [("released", .bool true), ("key", .ofString key)]
  | .status key h => .record [("key", .ofString key), ("held", .bool h.held),
      ("remainingMs", .ofNat h.remaining.millisWord.toNat)]
  | .health r => .record [("status", r.status.toJson),
      ("latencyMs", .ofNat r.latency.millisWord.toNat), ("throughput", .ofBinary64 r.load),
      ("error", .ofString? r.error)]

inductive Ending
  | answered (answer : Answer)
  | failed (fault : Fault)
  | unreadableToken
  | overflow
  deriving DecidableEq, Repr

def Ending.ofOutcome (answer : α → Answer) : Outcome α → Ending
  | .ok a => .answered (answer a)
  | .failed fault => .failed fault
  | .overflow => .overflow

def withToken (text : String) (next : Token → Program Ending) : Program Ending :=
  match Token.ofText? text with
  | some token => next token
  | none => .done .unreadableToken

def Command.run (c : Coordinator) : Command → Program Ending
  | .acquire arguments => do
    return .ofOutcome .token (← Coordinator.acquire arguments.key arguments.terms)
  | .release text => withToken text fun token => do
    return .ofOutcome (fun _ => .released token.key) (← c.release token)
  | .refresh text ttl => withToken text fun token => do
    return .ofOutcome .token (← c.renew token (.ofMillis ttl))
  | .status text => withToken text fun token => do
    return .ofOutcome (.status token.key) (← c.isHeld token)
  | .health => do return .ofOutcome .health (← Coordinator.health)

end LeaseLock.Cli
