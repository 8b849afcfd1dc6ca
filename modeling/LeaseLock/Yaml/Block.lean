import LeaseLock.Yaml.Cursor

namespace LeaseLock.Yaml.Block

inductive Chomping
  | strip
  | clip
  | keep
  deriving DecidableEq, Repr

namespace Chomping

def ofChar? (c : Char) : Option Chomping :=
  match c with
  | '-' => some .strip
  | '+' => some .keep
  | _ => none

end Chomping

structure Header where
  chomping : Chomping
  depth : Nat
  deriving DecidableEq, Repr

namespace Header

def digit? (cs : List Char) : Option Nat := cs.head?.bind LeaseLock.digit?

def readDepth? (c : Cursor) : Option (Nat × Cursor) :=
  match digit? c.rest with
  | none => some (0, c)
  | some 0 => none
  | some depth => some (depth, c.drop 1)

def read? (c : Cursor) : Option (Header × Cursor) :=
  match c.rest.head?.bind Chomping.ofChar? with
  | some chomping => do
    let (depth, c) ← readDepth? (c.drop 1)
    return (⟨chomping, depth⟩, c)
  | none => do
    let (depth, c) ← readDepth? c
    match if depth = 0 then none else c.rest.head?.bind Chomping.ofChar? with
    | some chomping => return (⟨chomping, depth⟩, c.drop 1)
    | none => return (⟨.clip, depth⟩, c)

end Header

def deepest (depth column : Nat) : List Char → Nat
  | ' ' :: rest => deepest depth (column + 1) rest
  | '\n' :: rest => deepest (max depth column) 0 rest
  | _ => max depth column

structure Reading where
  done : List Char
  hasLines : Bool
  isBroken : Bool
  blankLines : Nat
  beginsBlank : Bool
  inLine : Bool
  deriving DecidableEq, Repr

namespace Reading

def start : Reading := ⟨[], false, false, 0, false, false⟩

def breaks (n : Nat) : List Char := List.replicate n '\n'

def join (isFolded : Bool) (r : Reading) (c : Char) : List Char :=
  if isFolded && r.isBroken && !r.beginsBlank && !isBlank c then
    if r.blankLines = 0 then [' '] else breaks r.blankLines
  else breaks ((if r.isBroken then 1 else 0) + r.blankLines)

def begin (isFolded : Bool) (r : Reading) (c : Char) : Reading :=
  ⟨c :: (join isFolded r c ++ r.done), true, false, 0, isBlank c, true⟩

def finish (chomping : Chomping) (isAtEnd : Bool) (r : Reading) : List Char :=
  let done := if chomping = .strip then r.done
    else breaks ((if r.isBroken then 1 else 0) + (if isAtEnd then 1 else 0)) ++ r.done
  if chomping = .keep then breaks r.blankLines ++ done else done

end Reading

def readLines (isFolded : Bool) (indent : Nat) (r : Reading) (place : Place) :
    List Char → Reading × Cursor
  | [] => (r, ⟨place, []⟩)
  | c :: rest =>
    if r.inLine then
      readLines isFolded indent
        (if c = '\n' then { r with inLine := false, isBroken := true }
          else { r with done := c :: r.done })
        (place.after c) rest
    else if c = '\n' then
      readLines isFolded indent { r with blankLines := r.blankLines + 1 } (place.after c) rest
    else if c = ' ' ∧ place.column < indent then readLines isFolded indent r (place.after c) rest
    else if place.column = indent ∧ !(indent = 0 ∧ Cursor.isMark ⟨place, c :: rest⟩ '.') then
      readLines isFolded indent (r.begin isFolded c) (place.after c) rest
    else (r, ⟨place, c :: rest⟩)

def emptyText (chomping : Chomping) (blankLines : Nat) : List Char :=
  match chomping with
  | .strip => []
  | .clip => ['\n']
  | .keep => Reading.breaks (max 1 blankLines)

def read? (isFolded : Bool) (indent : Int) (c : Cursor) : Option (String × Cursor) := do
  let (header, c) ← Header.read? (c.drop 1)
  let c := (← c.margin?).cursor
  match c.rest with
  | [] => return ("", c)
  | '\n' :: '\t' :: _ => none
  | '\n' :: rest =>
    let column :=
      if header.depth = 0 then max (deepest 0 0 rest) (indent + 1).toNat
      else header.depth + indent.toNat
    let (r, last) := readLines isFolded column .start (c.drop 1).place rest
    let isAtEnd := last.rest.isEmpty
    if !r.hasLines && isAtEnd then
      return (String.ofList (emptyText header.chomping r.blankLines), last)
    else if !r.hasLines && last.place.column < column && indent < last.place.column then none
    else
      let isUnbroken := isAtEnd && max column 1 ≤ last.place.column
      return (String.ofList (r.finish header.chomping isUnbroken).reverse, last)
  | _ => none

end LeaseLock.Yaml.Block
