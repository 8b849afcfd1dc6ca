import LeaseLock.Cli.Run
import LeaseLock.Cli.Usage
import LeaseLock.Config.Pool
import LeaseLock.Lock.Identifier
import LeaseLock.Log.Entry
import LeaseLock.Sql.Store

namespace LeaseLock.Main

structure Surroundings where
  filter : Log.Filter
  store : IO.Ref Sql.Store
  closed : IO.Ref Bool

def programName : String := "leasehold"

def log (filter : Log.Filter) (events : List Event) : IO Unit :=
  for entry in Log.entries filter programName programName events do
    IO.eprintln entry.toJson.text

def randomNumber (bytes : USize) : IO Nat := do
  return (← IO.getRandomBytes bytes).foldl (fun n b => 256 * n + b.toNat) 0

def mint : IO String := do return Identifier.ofBits (← randomNumber 16)

namespace Surroundings

def call (s : Surroundings) (c : Call) : IO (Outcome c.Answer) := do
  let nonce ← mint
  let now ← IO.monoNanosNow
  let result := (← s.store.get).apply now nonce c
  s.store.set result.state
  log s.filter result.events
  return result.outcome

def perform (s : Surroundings) : (effect : Effect) → IO effect.Reply
  | .call _ c => do return .answered (← s.call c)
  | .pause delay => IO.sleep (UInt32.ofNatClamp delay.ceilMillis)
  | .drawWord => do return UInt64.ofNat (← randomNumber 8)
  | .mint => mint
  | .readClock => do return (← IO.monoNanosNow : Nat)
  | .count _ => return ()
  | .recordDuration _ => return ()
  | .report event => log s.filter [event]
  | .isClosed => s.closed.get
  | .markClosed => s.closed.modifyGet fun closed => (closed, true)

def execute (s : Surroundings) : Program α → IO α
  | .done a => return a
  | Interaction.ask effect next => do s.execute (next (← s.perform effect))

end Surroundings

def fail (message : String) : IO UInt32 := do
  IO.eprintln ("Error: " ++ message)
  return 1

def finish : Cli.Ending → IO UInt32
  | .answered answer => do
    IO.println (answer.toJson.inNameOrder.linesText 0)
    return 0
  | .failed fault => fail fault.message
  | .unreadableToken => fail "invalid lock token JSON"
  | .overflow => fail "arithmetic out of range"

def carryOut (s : Surroundings) (command : Cli.Command) : IO UInt32 := do
  let ending ← s.execute (command.run .standard)
  match ← s.execute Coordinator.close with
  | .failed fault =>
    log s.filter [⟨.warn, "Failed to close lock store", [("error", fault.message)]⟩]
  | _ => pure ()
  finish ending

def readText? (name : String) : IO (Option String) := do
  try return some (← IO.FS.readFile name)
  catch _ => return none

def environment : IO (List (String × String)) :=
  Config.Key.all.filterMapM fun key => do
    let name := Config.Environment.variableName key.path
    return (← IO.getEnv name).map fun value => (name, value)

def runWith (filter : Log.Filter) (c : Config.Configuration) (command : Cli.Command) :
    IO UInt32 := do
  match Config.Pool.open? c with
  | .error error => fail error.message
  | .ok pool =>
    log filter [pool.event]
    match Sql.Store.new pool.dialect c.storeSettings .fresh with
    | .error fault => fail fault.message
    | .ok (store, events) =>
      log filter events
      carryOut ⟨filter, ← IO.mkRef store, ← IO.mkRef false⟩ command

def refuse (refusal : Cli.Refusal) : IO UInt32 := do
  if refusal.isRequest then
    IO.println refusal.message
    return 0
  else
    IO.eprintln refusal.message
    return 2

def run (arguments : List String) : IO UInt32 := do
  match Cli.Invocation.ofArguments (← IO.getEnv "DATABASE_URL") arguments with
  | .error refusal => refuse refusal
  | .ok invocation =>
    let file : Config.Configuration.File := ⟨invocation.config, ← readText? invocation.config⟩
    match Config.Configuration.load? file (← environment) invocation.databaseUrl with
    | none => fail "the configuration cannot be read"
    | some c =>
      match Log.Filter.choose? none c.logLevel with
      | none => fail "a directive of the log begins or ends within a character"
      | some filter => runWith filter c invocation.command

end LeaseLock.Main

def main (arguments : List String) : IO UInt32 := LeaseLock.Main.run arguments
