import LeaseLock.Number.Digits

namespace LeaseLock.Url.Percent

def bytes : List Char → List UInt8
  | '%' :: a :: b :: rest =>
    match hexDigit? a, hexDigit? b with
    | some x, some y => UInt8.ofNat (16 * x + y) :: bytes rest
    | _, _ => String.utf8EncodeChar '%' ++ bytes (a :: b :: rest)
  | c :: rest => String.utf8EncodeChar c ++ bytes rest
  | [] => []

def text? (bytes : List UInt8) : Option String := String.fromUTF8? ⟨bytes.toArray⟩

def decode? (cs : List Char) : Option String := text? (bytes cs)

def splitAt (c : Char) (cs : List Char) : List Char × List Char :=
  let (before, after) := cs.span (· ≠ c)
  (before, after.drop 1)

def parameters (query : List Char) : List (List Char × List Char) :=
  ((query.splitOn '&').filter fun part => !part.isEmpty).map (splitAt '=')

def field? (cs : List Char) : Option String :=
  decode? (cs.map fun c => if c = '+' then ' ' else c)

end LeaseLock.Url.Percent
