import LeaseLock.Config.Value
import LeaseLock.Json.Token
import LeaseLock.Text.Alphanumeric
import LeaseLock.Text.Reader

namespace LeaseLock.Json5

open Config (Value)
open Reader

def isBreak (c : Char) : Bool := "\n\r\u2028\u2029".toList.contains c

def isBlank (c : Char) : Bool :=
  c = '\ufeff' || (Unicode.isBlank c && c.toNat ≠ 0x85)

def afterComment? : List Char → Option (List Char)
  | '*' :: '/' :: rest => some rest
  | _ :: rest => afterComment? rest
  | [] => none

def skipBlanks : Nat → Reader Unit
  | 0 => fail
  | n + 1 => do
    skipWhile isBlank
    if ← accept "//" then
      skipWhile fun c => !isBreak c
      skipBlanks n
    else if ← accept "/*" then
      set (← ofOption (afterComment? (← get)))
      skipBlanks n

def escape? (c : Char) : Option Char :=
  match c with
  | 'b' => some '\x08'
  | 'f' => some '\x0c'
  | 'n' => some '\n'
  | 'r' => some '\r'
  | 't' => some '\t'
  | 'v' => some '\x0b'
  | '0' => some '\x00'
  | c => if c.isDigit || c = 'x' || c = 'u' then none else some c

def readQuoted (quote : Char) : List Char → Option (List JsonToken.Piece × List Char)
  | [] => none
  | '\\' :: 'u' :: a :: b :: c :: d :: rest => do
    let code ← JsonToken.hexQuad? a b c d
    let (pieces, rest) ← readQuoted quote rest
    return (.ofCode code :: pieces, rest)
  | '\\' :: 'x' :: a :: b :: rest => do
    let code ← JsonToken.hexQuad? '0' '0' a b
    let (pieces, rest) ← readQuoted quote rest
    return (.ofCode code :: pieces, rest)
  | '\\' :: '\r' :: '\n' :: rest => readQuoted quote rest
  | '\\' :: c :: rest =>
    if isBreak c then readQuoted quote rest
    else do
      let c ← escape? c
      let (pieces, rest) ← readQuoted quote rest
      return (.char c :: pieces, rest)
  | c :: rest =>
    if c = quote then some ([], rest)
    else if c = '\\' ∨ isBreak c then none
    else do
      let (pieces, rest) ← readQuoted quote rest
      return (.char c :: pieces, rest)

def quoted : Reader String := do
  let some quote ← next? | fail
  if quote ≠ '"' ∧ quote ≠ '\'' then fail
  skip 1
  let pieces ← readQuoted quote
  ofOption (JsonToken.textOfPieces pieces)

def beginsName (c : Char) : Bool :=
  c = '$' || c = '_' || c.isAlpha || (0x80 ≤ c.toNat && Unicode.isAlphanumeric c)

def isNameChar (c : Char) : Bool :=
  beginsName c || c.isDigit || c = '\u200c' || c = '\u200d' ||
    (0x80 ≤ c.toNat && Unicode.inRanges Unicode.extendingRanges c.toNat)

def readName (isFirst : Bool) : List Char → Option (List Char × List Char)
  | '\\' :: 'u' :: a :: b :: c :: d :: rest => do
    let code ← JsonToken.hexQuad? a b c d
    let (name, rest) ← readName false rest
    if code.isValidChar then return (Char.ofNat code :: name, rest) else none
  | c :: rest =>
    if if isFirst then beginsName c else isNameChar c then
      (readName false rest).map fun (name, rest) => (c :: name, rest)
    else if isFirst then none else some ([], c :: rest)
  | [] => if isFirst then none else some ([], [])

def name : Reader String := do
  match ← next? with
  | some '"' | some '\'' => quoted
  | _ => return String.ofList (← readName true)

def decimal? (cs : List Char) : Option Value := do
  let (negative, digits) := JsonToken.readSign cs
  let whole := digits.takeWhile isDigit
  if whole.head? = some '0' ∧ 1 < whole.length then none
  else if digits.all isDigit then
    let n ← (readInt Value.greatest (String.ofList cs)).toOption
    return .integer n
  else
    let x ← Binary64.ofUnsignedText? negative digits
    if x.isFinite then some (.float x) else none

def hex? (cs : List Char) : Option Value := do
  let digits ← cs.mapM hexDigit?
  let n := digits.foldl (fun n d => 16 * n + d) 0
  if digits.isEmpty || UInt32.size ≤ n then none else some (.integer n)

def number? (cs : List Char) : Option Value :=
  let (negative, rest) := JsonToken.readSign cs
  if rest = "Infinity".toList then some (.float (.infinite negative))
  else if rest = "NaN".toList then some (.float .nan)
  else
    match cs with
    | '0' :: c :: rest => if c = 'x' ∨ c = 'X' then hex? rest else decimal? cs
    | cs => decimal? cs

def isNumberChar (c : Char) : Bool := c.isAlphanum || c = '.' || c = '+' || c = '-'

def word : Reader (List Char) := takeWhile isNumberChar

mutual

def value : Nat → Reader Value
  | 0 => fail
  | n + 1 => do
    match ← next? with
    | some '"' | some '\'' => return .text (← quoted)
    | some '[' => do skip 1; return .list (← items n)
    | some '\x7b' => do skip 1; return .table (← members n [])
    | _ =>
      let word ← word
      if word = "null".toList then return .nil
      else if word = "true".toList then return .bool true
      else if word = "false".toList then return .bool false
      else ofOption (number? word)

def items : Nat → Reader (List Value)
  | 0 => fail
  | n + 1 => do
    skipBlanks n
    if ← accept "]" then return []
    let item ← value n
    skipBlanks n
    if ← accept "," then return item :: (← items n)
    else do expect "]"; return [item]

def members : Nat → List (String × Value) → Reader (List (String × Value))
  | 0, _ => fail
  | n + 1, done => do
    skipBlanks n
    if ← accept "\x7d" then return done
    let name ← name
    skipBlanks n
    expect ":"
    skipBlanks n
    let done := Value.put name (← value n) done
    skipBlanks n
    if ← accept "," then members n done
    else do expect "\x7d"; return done

end

def read? (text : String) : Option Value :=
  let n := text.length + 2
  Reader.read? (do
    skipBlanks n
    let root ← value n
    skipBlanks n
    return root) text

end LeaseLock.Json5
