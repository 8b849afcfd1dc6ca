import LeaseLock.Number.Digits

namespace LeaseLock

inductive IntegerError
  | empty
  | invalidDigit
  | tooLarge
  | tooSmall
  deriving DecidableEq, Repr

def IntegerError.message : IntegerError → String
  | .empty => "cannot parse integer from empty string"
  | .invalidDigit => "invalid digit found in string"
  | .tooLarge => "number too large to fit in target type"
  | .tooSmall => "number too small to fit in target type"

def readDigits (greatest : Nat) (beyond : IntegerError) (n : Nat) :
    List Char → Except IntegerError Nat
  | [] => .ok n
  | c :: rest =>
    match digit? c with
    | none => .error .invalidDigit
    | some d =>
      if greatest < 10 * n + d then .error beyond else readDigits greatest beyond (10 * n + d) rest

def readMagnitude (greatest : Nat) (beyond : IntegerError) (cs : List Char) :
    Except IntegerError Nat :=
  if cs.isEmpty then .error .invalidDigit else readDigits greatest beyond 0 cs

def readNat (greatest : Nat) (text : String) : Except IntegerError Nat :=
  match text.toList with
  | [] => .error .empty
  | '+' :: rest => readMagnitude greatest .tooLarge rest
  | cs => readMagnitude greatest .tooLarge cs

def readInt (greatest : Nat) (text : String) : Except IntegerError Int :=
  match text.toList with
  | [] => .error .empty
  | '+' :: rest => (readMagnitude greatest .tooLarge rest).map Int.ofNat
  | '-' :: rest => (readMagnitude (greatest + 1) .tooSmall rest).map fun n => -(n : Int)
  | cs => (readMagnitude greatest .tooLarge cs).map Int.ofNat

end LeaseLock
