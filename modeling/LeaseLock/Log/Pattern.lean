import LeaseLock.Number.Binary64
import LeaseLock.Number.Decimal
import LeaseLock.Number.Integer

namespace LeaseLock.Log.Pattern

def isEscapeLetter (c : Char) : Bool := "aftnrvdDsSwWAzxuUpP".toList.contains c

inductive Place
  | outside (groups : Nat) (repeats : Bool)
  | escape (groups : Nat)
  | group (groups : Nat)
  | inside (groups : Nat) (atStart : Bool)
  | insideEscape (groups : Nat)
  deriving DecidableEq, Repr

def readsFrom (place : Place) : List Char → Bool
  | [] =>
    match place with
    | .outside 0 _ => true
    | _ => false
  | c :: rest =>
    match place with
    | .escape n =>
      (!c.isAlphanum || isEscapeLetter c) && c.toNat < 0x80 && readsFrom (.outside n true) rest
    | .insideEscape n =>
      (!c.isAlphanum || isEscapeLetter c) && c.toNat < 0x80 && readsFrom (.inside n false) rest
    | .group n =>
      if c = '?' then rest.head?.any (fun d => d ≠ '=' ∧ d ≠ '!') && readsFrom (.outside n true) rest
      else if c = '*' ∨ c = '+' then false
      else if c = ')' then readsFrom (.outside (n - 1) true) rest
      else if c = '(' then readsFrom (.group (n + 1)) rest
      else if c = '[' then readsFrom (.inside n true) rest
      else if c = '\\' then readsFrom (.escape n) rest
      else c ≠ '\x7b' && readsFrom (.outside n (c ≠ '|')) rest
    | .inside n atStart =>
      if c = '\\' then readsFrom (.insideEscape n) rest
      else if c = ']' ∧ !atStart then readsFrom (.outside n true) rest
      else readsFrom (.inside n (atStart && c = '^')) rest
    | .outside n repeats =>
      if c = '*' ∨ c = '+' ∨ c = '?' then repeats && readsFrom (.outside n true) rest
      else if c = ')' then 0 < n && readsFrom (.outside (n - 1) true) rest
      else if c = '(' then readsFrom (.group (n + 1)) rest
      else if c = '[' then readsFrom (.inside n true) rest
      else if c = '\\' then readsFrom (.escape n) rest
      else c ≠ '\x7b' && readsFrom (.outside n (c ≠ '|')) rest

def isPattern (text : String) : Bool :=
  (readInt (UInt64.size - 1) text).toBool || (Binary64.ofText text).toBool ||
    readsFrom (.outside 0 false) text.toList

end LeaseLock.Log.Pattern
