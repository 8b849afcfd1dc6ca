import LeaseLock.Log.Directive

namespace LeaseLock.Log

structure Filter where
  directives : List Directive
  deriving DecidableEq, Repr

namespace Filter

def parts (text : String) : List String := (text.splitOn ",").filter fun part => !part.isEmpty

def read (text : String) : Except DirectiveError Filter := do
  return ⟨← (parts text).mapM Directive.read⟩

def readLoosely (text : String) : Except DirectiveError Filter := do
  let directives ← (parts text).filterMapM fun part =>
    match Directive.read part with
    | .ok d => .ok (some d)
    | .error .malformed => .ok none
    | .error .split => .error .split
  return ⟨if directives.isEmpty then [{ Directive.full with depth := Level.error.depth }]
    else directives⟩

/-- The filter of the environment, unless there is none or it is malformed; none at all if a
directive cuts a character into pieces. -/
def choose? (environment : Option String) (level : String) : Option Filter :=
  match environment.map read with
  | some (.ok filter) => some filter
  | some (.error .split) => none
  | some (.error .malformed) | none => (readLoosely level).toOption

/-- The directive that names an event most closely; of two equals the later one. -/
def directiveFor? (f : Filter) (target : String) (fields : List String) : Option Directive :=
  (f.directives.filter fun d => d.isForEvents && d.isFor target fields).foldl (fun best d =>
    match best with
    | some b => if d.isAsClose b then some d else best
    | none => some d) none

def messageName : String := "message"

def shows (f : Filter) (target : String) (event : Event) : Bool :=
  match f.directiveFor? target (messageName :: event.fields.map Prod.fst) with
  | some d => event.level.depth ≤ d.depth
  | none => false

end Filter

end LeaseLock.Log
