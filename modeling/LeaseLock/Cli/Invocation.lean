import LeaseLock.Cli.Arguments
import LeaseLock.Lock.Terms

namespace LeaseLock.Cli

structure AcquireArguments where
  key : String
  ttl : UInt64
  retries : UInt32
  base : UInt64
  cap : UInt64
  growth : Binary64
  jitter : Binary64
  callLimit : UInt64
  metadata : List (String × String)
  deriving DecidableEq, Repr

/-- The terms that the arguments spell, all times being milliseconds. -/
def AcquireArguments.terms (a : AcquireArguments) : Terms where
  ttl := .ofMillis a.ttl
  backoff := ⟨a.retries, .ofMillis a.base, .ofMillis a.cap, a.jitter, a.growth⟩
  metadata := .ofList a.metadata
  callLimit := .ofMillis a.callLimit

inductive Command
  | acquire (arguments : AcquireArguments)
  | release (token : String)
  | refresh (token : String) (ttl : UInt64)
  | status (token : String)
  | health
  deriving DecidableEq, Repr

namespace Command

def defaultTtl : UInt64 := 15000

def required (value : Option α) : Except Refusal α :=
  match value with
  | some a => .ok a
  | none => .error .missingArgument

def ofScan (verb : Verb) (scan : Scan) : Except Refusal Command := do
  let given (s : Switch) : Option s.Value := Setting.find? s scan.settings
  match verb with
  | .acquire =>
    return .acquire {
      key := ← required scan.key
      ttl := (given .ttl).getD defaultTtl
      retries := (given .retries).getD 5
      base := (given .base).getD 100
      cap := (given .cap).getD 10000
      growth := (given .growth).getD 2
      jitter := (given .jitter).getD Backoff.standard.jitter
      callLimit := (given .callLimit).getD 3000
      metadata := Setting.metadata scan.settings }
  | .release => return .release (← required (given .token))
  | .refresh => return .refresh (← required (given .token)) ((given .ttl).getD defaultTtl)
  | .status => return .status (← required (given .token))
  | .health => return .health

end Command

structure Invocation where
  databaseUrl : Option String
  config : String
  command : Command
  deriving DecidableEq, Repr

namespace Invocation

def defaultConfig : String := "conf/leasehold.yml"

def preferring (inner outer : Option α) : Option α :=
  match inner with
  | some a => some a
  | none => outer

/-- Reads a command line without the program's name; `url` is the database named by the
environment. -/
def ofArguments (url : Option String) (arguments : List String) : Except Refusal Invocation := do
  match ← Scan.start.readOuter arguments with
  | (outer, none) =>
    if outer.settings.isEmpty && url.isNone then .error .noArguments else .error .missingVerb
  | (outer, some (verb, rest)) =>
    let inner ← Scan.start.readInner verb rest
    let command ← Command.ofScan verb inner
    let outer ← outer.settle
    let given (s : Switch) : Option s.Value :=
      preferring (Setting.find? s inner.settings) (Setting.find? s outer.settings)
    return {
      databaseUrl := preferring (given .databaseUrl) url
      config := (given .config).getD defaultConfig
      command := command }

end Invocation

end LeaseLock.Cli
