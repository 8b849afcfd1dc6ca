import LeaseLock.Yaml.Cursor
import LeaseLock.Yaml.Token

namespace LeaseLock.Yaml

namespace Tag

def isUriChar (c : Char) : Bool := c.isAlphanum || "-#;/?:@&=+$,_.!~*'()[]%".toList.contains c

def isTagChar (c : Char) : Bool := isUriChar c && !isFlowMark c && c ≠ '!'

def char? (code : Nat) : Option Char :=
  if code.isValidChar then some (Char.ofNat code) else none

def following? (byte : Nat) : Option Nat :=
  if byte < 0x80 then some 0
  else if byte / 0x20 = 6 then some 1
  else if byte / 0x10 = 14 then some 2
  else if byte / 0x8 = 30 then some 3
  else none

/-- Puts characters in place of escapes of their bytes. A character of several bytes has all of them
as its code, of which some are still to come. -/
def unescape? (left code : Nat) : List Char → Option (List Char)
  | [] => if left = 0 then some [] else none
  | '%' :: a :: b :: rest => do
    let byte := 16 * (← hexDigit? a) + (← hexDigit? b)
    let left ← if left = 0 then following? byte else if byte / 0x40 = 2 then some (left - 1) else none
    let code := 0x100 * code + byte
    if left = 0 then return (← char? code) :: (← unescape? 0 0 rest)
    else unescape? left code rest
  | c :: rest => if c = '%' ∨ left ≠ 0 then none else (unescape? 0 0 rest).map (c :: ·)

def readRun? (test : Char → Bool) (c : Cursor) : Option (String × Cursor) := do
  let (run, c) := c.span test
  return (String.ofList (← unescape? 0 0 run), c)

def read? (c : Cursor) : Option (Token × Cursor) :=
  match c.rest with
  | '!' :: '<' :: _ => do
    let (suffix, c) ← readRun? isUriChar (c.drop 2)
    match c.rest with
    | '>' :: _ => return (.tag "" suffix, c.drop 1)
    | _ => none
  | _ => do
    let (word, c) := (c.drop 1).span isNameChar
    match c.rest with
    | '!' :: _ =>
      let (suffix, c) ← readRun? isTagChar (c.drop 1)
      if suffix.isEmpty then none
      else return (.tag (String.ofList ('!' :: word ++ ['!'])) suffix, c)
    | _ =>
      let (suffix, c) ← readRun? isTagChar c
      let suffix := String.ofList word ++ suffix
      return (if suffix.isEmpty then .tag "" "!" else .tag "!" suffix, c)

end Tag

namespace Directive

def skipNumber? (c : Cursor) : Option Cursor :=
  let (digits, c) := c.span isDigit
  if digits.isEmpty || 9 < digits.length then none else some c

def readVersion? (c : Cursor) : Option (Token × Cursor) := do
  let c ← skipNumber? (c.skip isBlank)
  match c.rest with
  | '.' :: _ => return (.versionDirective, ← skipNumber? (c.drop 1))
  | _ => none

def readHandle? (c : Cursor) : Option (String × Cursor) :=
  match c.rest with
  | '!' :: _ =>
    let (word, c) := (c.drop 1).span isNameChar
    match c.rest with
    | '!' :: _ => some (String.ofList ('!' :: word ++ ['!']), c.drop 1)
    | _ => if word.isEmpty then some ("!", c) else none
  | _ => none

def readTag? (c : Cursor) : Option (Token × Cursor) := do
  let (handle, c) ← readHandle? (c.skip isBlank)
  let c := c.skip isBlank
  match c.rest with
  | first :: _ =>
    if first = '!' ∨ Tag.isTagChar first then
      let (start, c) ← Tag.readRun? Tag.isUriChar c
      if endsWord c.rest then return (.tagDirective handle start, c) else none
    else none
  | [] => none

def read? (c : Cursor) : Option (Token × Cursor) := do
  let (name, c) := (c.drop 1).span isNameChar
  if name.isEmpty || !endsWord c.rest then none
  else
    let (token, c) ←
      if name = "YAML".toList then readVersion? c
      else if name = "TAG".toList then readTag? c
      else some (.tagDirective "" "", c.skip (· ≠ '\n'))
    let c := (← c.margin?).cursor
    if endsLine c.rest then return (token, c.drop 1) else none

end Directive

end LeaseLock.Yaml
