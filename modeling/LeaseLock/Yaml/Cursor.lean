import LeaseLock.Number.Digits

namespace LeaseLock.Yaml

def isBlank (c : Char) : Bool := c = ' ' || c = '\t'

def endsWord (cs : List Char) : Bool :=
  match cs with
  | [] => true
  | c :: _ => isBlank c || c = '\n'

def endsLine (cs : List Char) : Bool :=
  match cs with
  | [] => true
  | c :: _ => c = '\n'

def isFlowMark (c : Char) : Bool := ",[]\x7b\x7d".toList.contains c

def isNameChar (c : Char) : Bool := c.isAlphanum || c = '_' || c = '-'

def withPlainBreaks : List Char → List Char
  | [] => []
  | '\x00' :: _ => []
  | '\r' :: '\n' :: rest => '\n' :: withPlainBreaks rest
  | '\r' :: rest => '\n' :: withPlainBreaks rest
  | c :: rest => c :: withPlainBreaks rest

structure Place where
  line : Nat
  column : Nat
  index : Nat
  isLeading : Bool
  deriving DecidableEq, Repr

namespace Place

def start : Place := ⟨0, 0, 0, true⟩

def after (p : Place) (c : Char) : Place :=
  if c = '\n' then ⟨p.line + 1, 0, p.index + 1, true⟩
  else ⟨p.line, p.column + 1, p.index + 1, p.isLeading && isBlank c⟩

end Place

structure Cursor where
  place : Place
  rest : List Char
  deriving DecidableEq, Repr

namespace Cursor

def drop : Nat → Cursor → Cursor
  | 0, c => c
  | _ + 1, ⟨place, []⟩ => ⟨place, []⟩
  | n + 1, ⟨place, c :: rest⟩ => drop n ⟨place.after c, rest⟩

def span (test : Char → Bool) (c : Cursor) : List Char × Cursor :=
  let word := c.rest.takeWhile test
  (word, c.drop word.length)

def skip (test : Char → Bool) (c : Cursor) : Cursor := (c.span test).2

def isMark (c : Cursor) (mark : Char) : Bool :=
  c.rest.take 3 == [mark, mark, mark] && endsWord (c.rest.drop 3)

def isDocumentMark (c : Cursor) : Bool := c.isMark '-' || c.isMark '.'

structure Margin where
  hasSpace : Bool
  hasTab : Bool
  cursor : Cursor
  deriving DecidableEq, Repr

def margin? (c : Cursor) : Option Margin :=
  let (blanks, c) := c.span isBlank
  match c.rest with
  | '#' :: _ =>
    if blanks.isEmpty then none
    else some ⟨blanks.contains ' ', blanks.contains '\t', c.skip (· ≠ '\n')⟩
  | _ => some ⟨blanks.contains ' ', blanks.contains '\t', c⟩

end Cursor

end LeaseLock.Yaml
