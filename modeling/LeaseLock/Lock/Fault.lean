import LeaseLock.Text.Quoted
import LeaseLock.Time.SpanText

namespace LeaseLock

inductive BackendCause
  | described (text : String)
  | undescribed
  deriving DecidableEq, Repr

inductive Fault
  | invalidKey (key : String)
  | invalidTtl (ttl : Span)
  | invalidBackoff (reason : String)
  | invalidSettings (reason : String)
  | exhausted (key : String) (attempts : Nat)
  | notOwner
  /-- A refresh came within the safety margin, or its token does not match. -/
  | tooLate
  | timedOut (limit : Span)
  | closed
  | metadata (reason : String)
  | backend (cause : BackendCause)
  deriving DecidableEq, Repr

inductive FaultClass
  | validation
  | ownership
  | timing
  | backend
  | exhausted
  | closed
  deriving DecidableEq, Repr

def FaultClass.name : FaultClass → String
  | .validation => "validation"
  | .ownership => "ownership"
  | .timing => "timing"
  | .backend => "backend"
  | .exhausted => "exhausted"
  | .closed => "closed"

namespace Fault

def faultClass : Fault → FaultClass
  | .invalidKey _ | .invalidTtl _ | .invalidBackoff _ | .invalidSettings _ | .metadata _ =>
    .validation
  | .exhausted _ _ => .exhausted
  | .notOwner => .ownership
  | .tooLate => .timing
  | .timedOut _ | .backend _ => .backend
  | .closed => .closed

def message : Fault → String
  | .invalidKey key => "invalid key format (max 256 chars, [a-zA-Z0-9_-]): " ++ quoted key
  | .invalidTtl ttl => "invalid TTL duration (1ms-10m): " ++ ttl.text
  | .invalidBackoff reason => "invalid retry strategy: " ++ reason
  | .invalidSettings reason => "invalid configuration: " ++ reason
  | .exhausted key attempts =>
    "lock acquisition failed for '" ++ key ++ "' after " ++ decimalText attempts ++ " attempts"
  | .notOwner => "lock ownership mismatch"
  | .tooLate => "lock refresh beyond safety margin"
  | .timedOut limit => "lock operation timed out after " ++ limit.text
  | .closed => "lock adapter closed"
  | .metadata reason => "failed to serialize metadata: " ++ reason
  | .backend (.described text) => "backend error: " ++ text
  | .backend .undescribed => "backend error"

def isDescribed (fault : Fault) : Bool :=
  match fault with
  | .backend .undescribed => false
  | _ => true

end Fault

/-- The end of an operation: an answer, a fault, or arithmetic out of range, which abandons it. -/
inductive Outcome (α : Type)
  | ok (answer : α)
  | failed (fault : Fault)
  | overflow
  deriving DecidableEq, Repr

namespace Outcome

def map (f : α → β) : Outcome α → Outcome β
  | .ok a => .ok (f a)
  | .failed fault => .failed fault
  | .overflow => .overflow

def bind (x : Outcome α) (f : α → Outcome β) : Outcome β :=
  match x with
  | .ok a => f a
  | .failed fault => .failed fault
  | .overflow => .overflow

instance : Monad Outcome where
  pure := .ok
  bind := bind
  map := map

@[simp] theorem pure_eq_ok (a : α) : (pure a : Outcome α) = .ok a := rfl

@[simp] theorem ok_bind (a : α) (f : α → Outcome β) : (Outcome.ok a >>= f) = f a := rfl

@[simp] theorem failed_bind (fault : Fault) (f : α → Outcome β) :
    (Outcome.failed fault >>= f) = .failed fault := rfl

@[simp] theorem overflow_bind (f : α → Outcome β) :
    ((Outcome.overflow : Outcome α) >>= f) = .overflow := rfl

theorem bind_eq_ok {x : Outcome α} {f : α → Outcome β} {b : β} :
    (x >>= f) = .ok b ↔ ∃ a, x = .ok a ∧ f a = .ok b := by
  cases x with
  | ok a => simp
  | failed fault => simp
  | overflow => simp

def ofOption : Option α → Outcome α
  | some a => .ok a
  | none => .overflow

theorem ofOption_eq_ok {x : Option α} {a : α} : ofOption x = .ok a ↔ x = some a := by
  cases x with
  | some b => simp [ofOption]
  | none => simp [ofOption]

end Outcome

end LeaseLock
