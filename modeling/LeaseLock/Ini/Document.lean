import LeaseLock.Config.Value
import LeaseLock.Text.Reader
import LeaseLock.Text.Unicode

namespace LeaseLock.Ini

open Config (Value)
open Reader

def escape (c : Char) : Char :=
  match c with
  | '0' => '\x00'
  | 'a' => '\x07'
  | 'b' => '\x08'
  | 't' => '\t'
  | 'r' => '\r'
  | 'n' => '\n'
  | c => c

def ofDigits? (a b c d : Char) : Option Char := do
  let code := 16 * (16 * (16 * (← hexDigit? a) + (← hexDigit? b)) + (← hexDigit? c)) +
    (← hexDigit? d)
  if code.isValidChar then some (Char.ofNat code) else none

def readTo (isEnd : Char → Bool) (mayEnd : Bool) (done : List Char) :
    List Char → Option (List Char × List Char)
  | [] => if mayEnd then some (done, []) else none
  | '\\' :: 'x' :: a :: b :: c :: d :: rest => do
    readTo isEnd mayEnd ((← ofDigits? a b c d) :: done) rest
  | ['\\'] => if mayEnd then some ('\\' :: done, []) else none
  | '\\' :: '\n' :: rest => readTo isEnd mayEnd done rest
  | '\\' :: c :: rest =>
    if c = 'x' then none else readTo isEnd mayEnd (escape c :: done) rest
  | c :: rest =>
    if isEnd c then some (done, c :: rest) else readTo isEnd mayEnd (c :: done) rest

def textTo (isEnd : Char → Bool) (mayEnd : Bool) : Reader String := fun cs =>
  (readTo isEnd mayEnd [] cs).map fun (done, rest) => (String.ofList done.reverse, rest)

def dropEnd (cs : List Char) : List Char := (cs.reverse.dropWhile Unicode.isBlank).reverse

def trimmed (text : String) : String :=
  String.ofList (dropEnd (text.toList.dropWhile Unicode.isBlank))

def isBreak (c : Char) : Bool := c = '\n' || c = '\r'

def value (done : String) (isFirst : Bool) : Nat → Reader String
  | 0 => fail
  | n + 1 => do
    match ← next? with
    | none => return done
    | some c =>
      if c = '"' ∨ c = '\'' then
        skip 1
        let text ← textTo (· = c) false
        skip 1
        value (done ++ text) false n
      else
        let text ← textTo isBreak true
        return done ++ if isFirst then trimmed text else String.ofList (dropEnd text.toList)

structure Draft where
  root : List (String × Value)
  sections : List (String × List (String × Value))
  deriving Repr

namespace Draft

def begin (d : Draft) (name : String) : Draft := { d with sections := d.sections ++ [(name, [])] }

def add (d : Draft) (name text : String) : Draft :=
  match d.sections.getLast? with
  | none => { d with root := Value.put name (.text text) d.root }
  | some (section_, members) =>
    { d with sections :=
        d.sections.dropLast ++ [(section_, Value.put name (.text text) members)] }

/-- Of sections with the same name the last counts. -/
def toValue (d : Draft) : Value :=
  .table (d.sections.foldl (fun root (name, members) => Value.put name (.table members) root) d.root)

end Draft

def entry (d : Draft) (isLineStart : Bool) (n : Nat) (c : Char) : Reader Draft := do
  if c = ';' ∨ c = '#' then
    if !isLineStart then fail
    skipWhile (· ≠ '\n')
    return d
  else if c = '[' then
    skip 1
    let name ← textTo (· = ']') false
    skip 1
    return d.begin (trimmed name)
  else
    let name := trimmed (← textTo (fun c => c = '=' || c = ':') false)
    if name.isEmpty then fail
    skip 1
    skipWhile fun c => Unicode.isBlank c && !isBreak c
    return d.add name (← value "" true n)

def entries (d : Draft) (isStart : Bool) : Nat → Reader Draft
  | 0 => fail
  | n + 1 => do
    let blanks ← takeWhile Unicode.isBlank
    match ← next? with
    | none => return d
    | some c =>
      let isLineStart := if blanks.isEmpty then isStart else blanks.getLast? == some '\n'
      entries (← entry d isLineStart n c) false n

def read? (text : String) : Option Value :=
  ((entries ⟨[], []⟩ true (text.length + 2)).read? text).map Draft.toValue

end LeaseLock.Ini
