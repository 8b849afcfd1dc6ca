import LeaseLock.Cli.Switch

namespace LeaseLock.Cli

inductive Refusal
  | noArguments
  | missingVerb
  | unknownVerb
  | unknownArgument
  | missingValue
  | surplusValue
  | conflict
  | missingArgument
  | invalidValue (reason : String)
  | help
  | version
  deriving DecidableEq, Repr

def Refusal.isRequest (refusal : Refusal) : Bool := refusal == .help || refusal == .version

inductive Scope
  | outer
  | inner (verb : Verb)
  deriving DecidableEq, Repr

namespace Scope

def switches : Scope → List Switch
  | .outer => Switch.shared
  | .inner verb => Switch.ofVerb verb

def takesKey : Scope → Bool
  | .inner .acquire => true
  | _ => false

def hasVersion (scope : Scope) : Bool := scope == .outer

end Scope

inductive Named
  | switch (s : Switch)
  | help
  | version
  | unknown

namespace Scope

def named (scope : Scope) (name : String) : Named :=
  if name = "help" then .help
  else if name = "version" ∧ scope.hasVersion then .version
  else
    match scope.switches.find? fun s => s.name == name with
    | some s => .switch s
    | none => .unknown

def lettered (scope : Scope) (letter : Char) : Named :=
  if letter = 'h' then .help
  else if letter = 'V' ∧ scope.hasVersion then .version
  else
    match scope.switches.find? fun s => s.letter? == some letter with
    | some s => .switch s
    | none => .unknown

end Scope

inductive Argument
  | mark
  | long (name : String) (value : Option String)
  | short (letter : Char) (rest : List Char)
  | plain (text : String)

def Argument.ofText (text : String) : Argument :=
  match text.toList with
  | ['-', '-'] => .mark
  | '-' :: '-' :: rest =>
    match rest.span (· ≠ '=') with
    | (name, []) => .long (String.ofList name) none
    | (name, _ :: value) => .long (String.ofList name) (some (String.ofList value))
  | '-' :: letter :: rest => .short letter rest
  | _ => .plain text

structure Scan where
  settings : List Setting
  pending : Option (Switch × Option String)
  key : Option String
  marked : Bool

namespace Scan

def start : Scan := ⟨[], none, none, false⟩

def take (s : Scan) (switch : Switch) (text : String) : Except Refusal Scan :=
  if !switch.isRepeatable && s.settings.any (·.switch == switch) then .error .conflict
  else
    match switch.read text with
    | .ok value => .ok { s with settings := s.settings ++ [⟨switch, value⟩] }
    | .error reason => .error (.invalidValue reason)

def settle (s : Scan) : Except Refusal Scan :=
  match s.pending with
  | none => .ok s
  | some (_, none) => .error .missingValue
  | some (switch, some text) => { s with pending := none }.take switch text

def awaitsValue (s : Scan) : Bool :=
  match s.pending with
  | some (_, none) => !s.marked
  | _ => false

def giveValue (s : Scan) (text : String) : Scan :=
  { s with pending := s.pending.map fun p => (p.1, some text) }

def meet (s : Scan) (switch : Switch) (value : Option String) : Except Refusal Scan := do
  let s ← s.settle
  match value with
  | some text => s.take switch text
  | none => return { s with pending := some (switch, none) }

def endWith (s : Scan) (text : Refusal) : Except Refusal Scan := do
  let _ ← s.settle
  .error text

def takeLong (scope : Scope) (s : Scan) (name : String) (value : Option String) :
    Except Refusal Scan :=
  match scope.named name with
  | .switch switch => s.meet switch value
  | .help => if value.isSome then .error .surplusValue else s.endWith .help
  | .version => if value.isSome then .error .surplusValue else s.endWith .version
  | .unknown => .error .unknownArgument

def takeShort (scope : Scope) (s : Scan) (letter : Char) (rest : List Char) :
    Except Refusal Scan :=
  match scope.lettered letter with
  | .switch switch =>
    match rest with
    | [] => s.meet switch none
    | '=' :: value => s.meet switch (some (String.ofList value))
    | value => s.meet switch (some (String.ofList value))
  | .help => s.endWith .help
  | .version => s.endWith .version
  | .unknown => .error .unknownArgument

def takePlain (scope : Scope) (s : Scan) (text : String) : Except Refusal Scan :=
  if scope.takesKey && s.key.isNone then do
    let s ← s.settle
    return { s with key := some text }
  else .error .unknownArgument

def takeArgument (scope : Scope) (s : Scan) (text : String)
    (plain : Scan → String → Except Refusal Scan) : Except Refusal Scan :=
  if s.marked then plain s text
  else
    match Argument.ofText text with
    | .mark => .ok { s with marked := true }
    | .long name value => s.takeLong scope name value
    | .short letter rest => s.takeShort scope letter rest
    | .plain text => if s.awaitsValue then .ok (s.giveValue text) else plain s text

def readInner (verb : Verb) (s : Scan) : List String → Except Refusal Scan
  | [] => s.settle
  | text :: rest => do
    readInner verb (← s.takeArgument (.inner verb) text (takePlain (.inner verb))) rest

def refuseVerb (s : Scan) (text : String) : Except Refusal Scan :=
  if s.marked && (text == "help" || (Verb.ofName? text).isSome) then .error .unknownArgument
  else .error .unknownVerb

def helpTopic : List String → Refusal
  | [] => .help
  | [name] => if name = "help" ∨ (Verb.ofName? name).isSome then .help else .unknownVerb
  | _ => .unknownVerb

def readOuter (s : Scan) : List String → Except Refusal (Scan × Option (Verb × List String))
  | [] => do return (← s.settle, none)
  | text :: rest =>
    if s.marked || s.awaitsValue then do
      readOuter (← s.takeArgument .outer text refuseVerb) rest
    else if text = "help" then .error (helpTopic rest)
    else
      match Verb.ofName? text with
      | some verb => .ok (s, some (verb, rest))
      | none => do readOuter (← s.takeArgument .outer text refuseVerb) rest

end Scan

end LeaseLock.Cli
