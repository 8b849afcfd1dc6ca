import LeaseLock.Config.Value
import LeaseLock.Json.Token
import LeaseLock.Text.Alphanumeric
import LeaseLock.Text.Reader

namespace LeaseLock.Ron

open Config (Value)
open Reader

def isBlank (c : Char) : Bool :=
  " \t\n\r\x0b\x0c\u0085\u200e\u200f\u2028\u2029".toList.contains c

def afterComment? (depth : Nat) : List Char → Option (List Char)
  | '*' :: '/' :: rest => if depth = 0 then some rest else afterComment? (depth - 1) rest
  | '/' :: '*' :: rest => afterComment? (depth + 1) rest
  | _ :: rest => afterComment? depth rest
  | [] => none

def skipBlanks : Nat → Reader Unit
  | 0 => fail
  | n + 1 => do
    skipWhile isBlank
    if ← accept "//" then
      skipWhile (· ≠ '\n')
      skipBlanks n
    else if ← accept "/*" then
      set (← ofOption (afterComment? 0 (← get)))
      skipBlanks n

def escape? (c : Char) : Option Char :=
  match c with
  | 'n' => some '\n'
  | 'r' => some '\r'
  | 't' => some '\t'
  | '0' => some '\x00'
  | '\\' | '"' | '\'' => some c
  | _ => none

def ofCode? (cs : List Char) : Option Char := do
  let digits ← cs.mapM hexDigit?
  let code := digits.foldl (fun n d => 16 * n + d) 0
  if digits.isEmpty || !code.isValidChar then none else some (Char.ofNat code)

def readQuoted (quote : Char) (code : Option (List Char)) (done : List Char) :
    List Char → Option (List Char × List Char)
  | [] => none
  | c :: rest =>
    match code with
    | some digits =>
      if c = '\x7d' then do readQuoted quote none ((← ofCode? digits) :: done) rest
      else if digits.length < 6 then readQuoted quote (some (digits ++ [c])) done rest
      else none
    | none =>
      if c = quote then some (done, rest)
      else if c = '\\' then
        match rest with
        | 'x' :: a :: b :: rest => do readQuoted quote none ((← ofCode? [a, b]) :: done) rest
        | 'u' :: '\x7b' :: rest => readQuoted quote (some []) done rest
        | c :: rest => do readQuoted quote none ((← escape? c) :: done) rest
        | [] => none
      else readQuoted quote none (c :: done) rest

def quoted (quote : Char) : Reader (List Char) := do
  return (← readQuoted quote none []).reverse

def readRaw (hashes : List Char) (done : List Char) : List Char → Option (List Char × List Char)
  | [] => none
  | c :: rest =>
    if c = '"' ∧ hashes.isPrefixOf rest then some (done.reverse, rest.drop hashes.length)
    else readRaw hashes (c :: done) rest

def raw : Reader String := do
  let hashes ← takeWhile (· = '#')
  expect "\""
  return String.ofList (← readRaw hashes [])

def beginsName (c : Char) : Bool :=
  c = '_' || c.isAlpha || (0x80 ≤ c.toNat && Unicode.isAlphanumeric c)

def isNameChar (c : Char) : Bool := beginsName c || c.isDigit

def nameAt (cs : List Char) : List Char :=
  match cs with
  | c :: _ => if beginsName c then cs.takeWhile isNameChar else []
  | [] => []

def name : Reader String := do
  let name := nameAt (← get)
  if name.isEmpty then fail
  skip name.length
  return String.ofList name

structure IntegerType where
  name : String
  isSigned : Bool
  bits : Nat
  deriving DecidableEq, Repr

namespace IntegerType

def all : List IntegerType :=
  [⟨"i8", true, 7⟩, ⟨"i16", true, 15⟩, ⟨"i32", true, 31⟩, ⟨"i64", true, 63⟩,
    ⟨"u8", false, 8⟩, ⟨"u16", false, 16⟩, ⟨"u32", false, 32⟩, ⟨"u64", false, 64⟩]

def ofEnding? (cs : List Char) : Option IntegerType :=
  all.find? fun t => t.name.toList.isSuffixOf cs

def contains (t : IntegerType) (n : Int) : Bool :=
  n < Nat.pow 2 t.bits && (if t.isSigned then -(Nat.pow 2 t.bits : Int) else 0) ≤ n

def fitsAny (n : Int) : Bool := all.any fun t => t.contains n

end IntegerType

def withoutEnding (endings : List String) (cs : List Char) : List Char :=
  match endings.find? fun e => e.toList.isSuffixOf cs with
  | some e => cs.take (cs.length - e.length)
  | none => cs

def inBase? (base : Nat) (cs : List Char) : Option Nat := do
  if cs.head? = some '_' then none
  else
    let digits ← (cs.filter (· ≠ '_')).mapM fun c => (hexDigit? c).filter (· < base)
    if digits.isEmpty then none else some (digits.foldl (fun n d => base * n + d) 0)

def magnitude? (cs : List Char) : Option Nat :=
  match cs with
  | '0' :: 'x' :: rest => inBase? 16 rest
  | '0' :: 'o' :: rest => inBase? 8 rest
  | '0' :: 'b' :: rest => inBase? 2 rest
  | cs => inBase? 10 cs

def number? (cs : List Char) : Option Value :=
  let (negative, rest) := JsonToken.readSign cs
  match magnitude? (withoutEnding (IntegerType.all.map IntegerType.name) rest) with
  | some n =>
    let k := if negative then -(n : Int) else n
    let fits := match IntegerType.ofEnding? rest with
      | some type => type.contains k
      | none => IntegerType.fitsAny k
    if fits then some (.integer k) else none
  | none =>
    let digits := (withoutEnding ["f32", "f64"] rest).filter (· ≠ '_')
    if digits = "inf".toList then some (.float (.infinite negative))
    else if digits = "NaN".toList then some (.float .nan)
    else if digits.head?.any fun c => isDigit c || c = '.' then
      (Binary64.ofUnsignedText? negative digits).map .float
    else none

def isNumberChar (c : Char) : Bool := c.isAlphanum || "_.+-".toList.contains c

def isField (n : Nat) : Reader Bool := do
  let cs ← get
  let name := nameAt cs
  skip name.length
  skipBlanks n
  let isField ← accept ":"
  set cs
  return isField && !name.isEmpty

def keyName? : Value → Option String
  | .text name => some name
  | _ => none

def greatestDepth : Nat := 128

mutual

def value (depth : Nat) : Nat → Reader Value
  | 0 => fail
  | n + 1 => do
    match ← get with
    | '"' :: _ => do skip 1; return .text (String.ofList (← quoted '"'))
    | 'r' :: '"' :: _ | 'r' :: '#' :: '"' :: _ | 'r' :: '#' :: '#' :: _ =>
      skip 1
      return .text (← raw)
    | '\'' :: _ => do
      skip 1
      let [c] ← quoted '\'' | fail
      return .text c.toString
    | '[' :: _ => do skip 1; return .list (← items depth "]" n)
    | '\x7b' :: _ => do skip 1; return .table (← entries depth n [])
    | '(' :: _ => parentheses depth n
    | c :: _ =>
      if beginsName c then
        let name ← name
        skipBlanks n
        named depth n name
      else ofOption (number? (← takeWhile isNumberChar))
    | [] => fail
  termination_by structural n => n

def inner (depth : Nat) : Nat → Reader Value
  | 0 => fail
  | n + 1 =>
    match depth with
    | 0 => fail
    | depth + 1 => value depth n
  termination_by structural n => n

def named (depth : Nat) : Nat → String → Reader Value
  | 0, _ => fail
  | n + 1, name => do
    if name = "true" then return .bool true
    else if name = "false" then return .bool false
    else if name = "inf" then return .float (.infinite false)
    else if name = "NaN" then return .float .nan
    else if (← next?) = some '(' then
      if name = "Some" then
        skip 1
        skipBlanks n
        let v ← inner depth n
        skipBlanks n
        if ← accept "," then skipBlanks n
        expect ")"
        return v
      else parentheses depth n
    else return .nil
  termination_by structural n => n

def parentheses (depth : Nat) : Nat → Reader Value
  | 0 => fail
  | n + 1 => do
    expect "("
    skipBlanks n
    if ← accept ")" then return .nil
    else if ← isField n then return .table (← fields depth n [])
    else return .list (← items depth ")" n)
  termination_by structural n => n

def items (depth : Nat) (ending : String) : Nat → Reader (List Value)
  | 0 => fail
  | n + 1 => do
    skipBlanks n
    if ← accept ending then return []
    let item ← inner depth n
    skipBlanks n
    if ← accept "," then return item :: (← items depth ending n)
    else do expect ending; return [item]
  termination_by structural n => n

def fields (depth : Nat) : Nat → List (String × Value) → Reader (List (String × Value))
  | 0, _ => fail
  | n + 1, done => do
    skipBlanks n
    if ← accept ")" then return done
    let name ← name
    skipBlanks n
    expect ":"
    skipBlanks n
    let done := Value.put name (← inner depth n) done
    skipBlanks n
    if ← accept "," then fields depth n done
    else do expect ")"; return done
  termination_by structural n => n

def entries (depth : Nat) : Nat → List (String × Value) → Reader (List (String × Value))
  | 0, _ => fail
  | n + 1, done => do
    skipBlanks n
    if ← accept "\x7d" then return done
    let name ← ofOption (keyName? (← inner depth n))
    skipBlanks n
    expect ":"
    skipBlanks n
    let done := Value.put name (← inner depth n) done
    skipBlanks n
    if ← accept "," then entries depth n done
    else do expect "\x7d"; return done
  termination_by structural n => n

end

def switches : List String :=
  ["unwrap_newtypes", "implicit_some", "unwrap_variant_newtypes", "explicit_struct_names"]

def switchedOn : Nat → Reader Unit
  | 0 => fail
  | n + 1 => do
    if !switches.contains (← name) then fail
    skipBlanks n
    if ← accept "," then
      skipBlanks n
      if (← next?) ≠ some ')' then switchedOn n

def skipAttributes : Nat → Reader Unit
  | 0 => fail
  | n + 1 => do
    skipBlanks n
    if ← accept "#" then
      for word in ["!", "[", "enable", "("] do
        skipBlanks n
        expect word
      skipBlanks n
      switchedOn n
      for word in [")", "]"] do
        skipBlanks n
        expect word
      skipAttributes n

def read? (text : String) : Option Value :=
  let n := 4 * text.length + 8
  Reader.read? (do
    skipAttributes n
    let root ← value greatestDepth n
    skipBlanks n
    return root) text

end LeaseLock.Ron
