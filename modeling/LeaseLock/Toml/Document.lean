import LeaseLock.Toml.Quoted
import LeaseLock.Toml.Scalar
import LeaseLock.Toml.Table

namespace LeaseLock.Toml

open Config (Value)
open Reader

def isBareChar (c : Char) : Bool := c.isAlphanum || c = '_' || c = '-'

def skipBlanks : Reader Unit := skipWhile Quoted.isBlank

def skipComment : Reader Unit := do
  if ← accept "#" then skipWhile fun c => !Quoted.isControl c

def acceptBreak : Reader Bool := do
  if ← accept "\n" then return true else accept "\r\n"

def skipLines : Nat → Reader Unit
  | 0 => fail
  | n + 1 => do
    skipBlanks
    skipComment
    if ← acceptBreak then skipLines n

def name : Reader String := do
  let bare ← takeWhile isBareChar
  if bare.isEmpty then Quoted.short else return String.ofList bare

def names : Nat → Reader (List String × String)
  | 0 => fail
  | n + 1 => do
    skipBlanks
    let first ← name
    skipBlanks
    if ← accept "." then
      let (path, last) ← names n
      return (first :: path, last)
    else return ([], first)

def greatestDepth : Nat := 80

mutual

def value (depth : Nat) : Nat → Reader Value
  | 0 => fail
  | n + 1 => do
    match ← next?, depth with
    | some '"', _ | some '\'', _ => return .text (← Quoted.any)
    | some '[', depth + 1 => do skip 1; return .list (← items depth n)
    | some '\x7b', depth + 1 => do skip 1; return (← members depth n []).toValue
    | _, _ => scalar

def items (depth : Nat) : Nat → Reader (List Value)
  | 0 => fail
  | n + 1 => do
    skipLines n
    if ← accept "]" then return []
    let item ← value depth n
    skipLines n
    if ← accept "," then return item :: (← items depth n)
    else do expect "]"; return [item]

def members (depth : Nat) : Nat → Members → Reader Members
  | 0, _ => fail
  | n + 1, done => do
    skipLines n
    if ← accept "\x7d" then return done
    let (path, name) ← names n
    expect "="
    skipBlanks
    let done ← ofOption (done.add? path name (← value depth n))
    skipLines n
    if ← accept "," then members depth n done
    else do expect "\x7d"; return done

end

structure Draft where
  root : Members
  header : List String
  deriving Repr

def header (d : Draft) (n : Nat) : Reader Draft := do
  if ← accept "[[" then
    let (path, name) ← names n
    expect "]]"
    return ⟨← ofOption (d.root.append? path name), path ++ [name]⟩
  else do
    expect "["
    let (path, name) ← names n
    expect "]"
    return ⟨← ofOption (d.root.begin? path name), path ++ [name]⟩

def member (d : Draft) (n : Nat) : Reader Draft := do
  let (path, name) ← names n
  expect "="
  skipBlanks
  let root ← ofOption (d.root.addUnder? d.header path name (← value greatestDepth n))
  return { d with root := root }

def lines (d : Draft) : Nat → Reader Draft
  | 0 => fail
  | n + 1 => do
    skipBlanks
    let d ← match ← next? with
      | none | some '#' | some '\n' | some '\r' => pure d
      | some '[' => header d n
      | some _ => member d n
    skipBlanks
    skipComment
    if ← acceptBreak then lines d n
    else if (← next?).isNone then return d
    else fail

def read? (text : String) : Option Value :=
  ((lines ⟨[], []⟩ (text.length + 2)).read? text).map fun d => d.root.toValue

end LeaseLock.Toml
