import LeaseLock.Number.Digits
import LeaseLock.Text.Reader

namespace LeaseLock.Toml.Quoted

def isControl (c : Char) : Bool := (c < ' ' && c ≠ '\t') || c = '\x7f'

def isBlank (c : Char) : Bool := c = ' ' || c = '\t'

def escape? (c : Char) : Option Char :=
  match c with
  | 'b' => some '\x08'
  | 't' => some '\t'
  | 'n' => some '\n'
  | 'f' => some '\x0c'
  | 'r' => some '\r'
  | 'e' => some '\x1b'
  | '"' => some '"'
  | '\\' => some '\\'
  | _ => none

def ofDigits? (cs : List Char) : Option Char := do
  let digits ← cs.mapM hexDigit?
  let code := digits.foldl (fun n d => 16 * n + d) 0
  if code.isValidChar then some (Char.ofNat code) else none

def endsBlank (cs : List Char) : Bool :=
  match cs.dropWhile isBlank with
  | '\n' :: _ | '\r' :: '\n' :: _ => true
  | _ => false

def readEscaped (isLong isSkipping : Bool) (done : List Char) :
    List Char → Option (List Char × List Char)
  | [] => none
  | '\\' :: 'x' :: a :: b :: rest => do
    readEscaped isLong false ((← ofDigits? [a, b]) :: done) rest
  | '\\' :: 'u' :: a :: b :: c :: d :: rest => do
    readEscaped isLong false ((← ofDigits? [a, b, c, d]) :: done) rest
  | '\\' :: 'U' :: a :: b :: c :: d :: e :: f :: g :: h :: rest => do
    readEscaped isLong false ((← ofDigits? [a, b, c, d, e, f, g, h]) :: done) rest
  | '\\' :: c :: rest =>
    if isLong && endsBlank (c :: rest) then readEscaped isLong true done (c :: rest)
    else
      match escape? c with
      | some c => readEscaped isLong false (c :: done) rest
      | none => none
  | '"' :: '"' :: '"' :: '"' :: '"' :: rest =>
    if isLong then some ('"' :: '"' :: done, rest)
    else some (done, '"' :: '"' :: '"' :: '"' :: rest)
  | '"' :: '"' :: '"' :: '"' :: rest =>
    if isLong then some ('"' :: done, rest) else some (done, '"' :: '"' :: '"' :: rest)
  | '"' :: '"' :: '"' :: rest =>
    if isLong then some (done, rest) else some (done, '"' :: '"' :: rest)
  | '"' :: rest => if isLong then readEscaped isLong false ('"' :: done) rest else some (done, rest)
  | '\r' :: '\n' :: rest =>
    if isLong then readEscaped isLong isSkipping (if isSkipping then done else '\n' :: done) rest
    else none
  | '\n' :: rest =>
    if isLong then readEscaped isLong isSkipping (if isSkipping then done else '\n' :: done) rest
    else none
  | c :: rest =>
    if isControl c then none
    else if isSkipping && isBlank c then readEscaped isLong true done rest
    else readEscaped isLong false (c :: done) rest

def readLiteral (isLong : Bool) (done : List Char) : List Char → Option (List Char × List Char)
  | [] => none
  | '\'' :: '\'' :: '\'' :: '\'' :: '\'' :: rest =>
    if isLong then some ('\'' :: '\'' :: done, rest)
    else some (done, '\'' :: '\'' :: '\'' :: '\'' :: rest)
  | '\'' :: '\'' :: '\'' :: '\'' :: rest =>
    if isLong then some ('\'' :: done, rest) else some (done, '\'' :: '\'' :: '\'' :: rest)
  | '\'' :: '\'' :: '\'' :: rest =>
    if isLong then some (done, rest) else some (done, '\'' :: '\'' :: rest)
  | '\'' :: rest =>
    if isLong then readLiteral isLong ('\'' :: done) rest else some (done, rest)
  | '\r' :: '\n' :: rest => if isLong then readLiteral isLong ('\n' :: done) rest else none
  | '\n' :: rest => if isLong then readLiteral isLong ('\n' :: done) rest else none
  | c :: rest => if isControl c then none else readLiteral isLong (c :: done) rest

def textOf (reader : List Char → Option (List Char × List Char)) : Reader String := fun cs =>
  (reader cs).map fun (done, rest) => (String.ofList done.reverse, rest)

def skipFirstBreak : Reader Unit := do
  if !(← Reader.accept "\n") then discard (Reader.accept "\r\n")

def short : Reader String := do
  if ← Reader.accept "\"" then textOf (readEscaped false false [])
  else do
    Reader.expect "'"
    textOf (readLiteral false [])

def any : Reader String := do
  if ← Reader.accept "\"\"\"" then do
    skipFirstBreak
    textOf (readEscaped true false [])
  else if ← Reader.accept "'''" then do
    skipFirstBreak
    textOf (readLiteral true [])
  else short

end LeaseLock.Toml.Quoted
