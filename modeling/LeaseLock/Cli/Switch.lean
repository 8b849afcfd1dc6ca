import LeaseLock.Lock.Lease
import LeaseLock.Number.Decimal
import LeaseLock.Number.Integer

namespace LeaseLock.Cli

inductive Verb
  | acquire
  | release
  | refresh
  | status
  | health
  deriving DecidableEq, Repr

namespace Verb

def all : List Verb := [.acquire, .release, .refresh, .status, .health]

def name : Verb → String
  | .acquire => "acquire"
  | .release => "release"
  | .refresh => "refresh"
  | .status => "status"
  | .health => "health"

def ofName? (name : String) : Option Verb := all.find? fun v => v.name == name

end Verb

inductive Switch
  | databaseUrl
  | config
  | token
  | ttl
  | retries
  | base
  | cap
  | growth
  | jitter
  | callLimit
  | metadata
  deriving DecidableEq, Repr

namespace Switch

def name : Switch → String
  | .databaseUrl => "db-url"
  | .config => "config"
  | .token => "token"
  | .ttl => "ttl-ms"
  | .retries => "max-retries"
  | .base => "base-delay-ms"
  | .cap => "max-delay-ms"
  | .growth => "backoff-factor"
  | .jitter => "jitter"
  | .callLimit => "timeout-ms"
  | .metadata => "meta"

def letter? : Switch → Option Char
  | .config => some 'c'
  | _ => none

def shared : List Switch := [.databaseUrl, .config]

def ofVerb : Verb → List Switch
  | .acquire =>
    shared ++ [.ttl, .retries, .base, .cap, .growth, .jitter, .callLimit, .metadata]
  | .release | .status => shared ++ [.token]
  | .refresh => shared ++ [.token, .ttl]
  | .health => shared

def isRepeatable : Switch → Bool
  | .metadata => true
  | _ => false

@[reducible] def Value : Switch → Type
  | .databaseUrl | .config | .token => String
  | .ttl | .base | .cap | .callLimit => UInt64
  | .retries => UInt32
  | .growth | .jitter => Binary64
  | .metadata => String × String

def readMillis (text : String) : Except String UInt64 :=
  match readNat (UInt64.size - 1) text with
  | .ok n => .ok (UInt64.ofNat n)
  | .error e => .error e.message

def readRetries (text : String) : Except String UInt32 :=
  match readInt (UInt64.size / 2 - 1) text with
  | .ok n =>
    if 0 ≤ n ∧ n < UInt32.size then .ok (UInt32.ofNat n.toNat)
    else .error (integerText n ++ " is not in 0..=4294967295")
  | .error e => .error e.message

def readFactor (text : String) : Except String Binary64 :=
  match Binary64.ofText text with
  | .ok x => .ok x
  | .error e => .error e.message

def readEntry (text : String) : Except String (String × String) :=
  match text.toList.span (· ≠ '=') with
  | (_, []) => .error ("expected key=value, got " ++ quoted text)
  | ([], _ :: _) => .error ("empty metadata key in " ++ quoted text)
  | (name, _ :: value) => .ok (String.ofList name, String.ofList value)

def read : (s : Switch) → String → Except String s.Value
  | .databaseUrl, text | .config, text | .token, text => .ok text
  | .ttl, text | .base, text | .cap, text | .callLimit, text => readMillis text
  | .retries, text => readRetries text
  | .growth, text | .jitter, text => readFactor text
  | .metadata, text => readEntry text

end Switch

structure Setting where
  switch : Switch
  value : switch.Value

namespace Setting

def find? (s : Switch) : List Setting → Option s.Value
  | [] => none
  | setting :: rest =>
    match find? s rest with
    | some value => some value
    | none => if h : setting.switch = s then some (h ▸ setting.value) else none

def metadata (settings : List Setting) : List (String × String) :=
  settings.filterMap fun
    | ⟨.metadata, entry⟩ => some entry
    | _ => none

end Setting

end LeaseLock.Cli
