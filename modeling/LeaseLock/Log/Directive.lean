import LeaseLock.Lock.Event
import LeaseLock.Log.Pattern
import LeaseLock.Text.Alphanumeric

namespace LeaseLock.Log

structure Field where
  name : String
  pattern : Option String
  deriving DecidableEq, Repr

structure Directive where
  target : Option String
  span : Option String
  field : Option Field
  depth : Nat
  deriving DecidableEq, Repr

inductive DirectiveError
  | malformed
  /-- A part begins or ends within a character, because blanks before the directive count only for
  the text of a part but not for its place. -/
  | split
  deriving DecidableEq, Repr

namespace Directive

def fullDepth : Nat := Level.trace.depth

def full : Directive := ⟨none, none, none, fullDepth⟩

def depth? (text : String) : Option Nat :=
  match readNat (UInt64.size - 1) text with
  | .ok n => if n ≤ fullDepth then some n else none
  | .error _ =>
    let word := lowerAscii text.toList
    if word = "off".toList then some 0
    else (Level.all.find? fun l => lowerAscii l.name.toList = word).map Level.depth

def dropBytes? : Nat → List Char → Option (List Char)
  | 0, cs => some cs
  | _ + 1, [] => none
  | n + 1, c :: rest => if c.utf8Size ≤ n + 1 then dropBytes? (n + 1 - c.utf8Size) rest else none

def takeBytes? : Nat → List Char → Option (List Char)
  | 0, _ => some []
  | _ + 1, [] => none
  | n + 1, c :: rest =>
    if c.utf8Size ≤ n + 1 then (takeBytes? (n + 1 - c.utf8Size) rest).map (c :: ·) else none

def cut (text : List Char) (first : Nat) (last : Option Nat) : Except DirectiveError String :=
  let part := (dropBytes? first text).bind fun rest =>
    match last with
    | some last => takeBytes? (last - first) rest
    | none => some rest
  match part with
  | some part => .ok (String.ofList part)
  | none => .error .split

def readField (text : String) : Except DirectiveError Field :=
  match text.splitOn "=" with
  | name :: pattern :: _ =>
    if Pattern.isPattern pattern then .ok ⟨name, some pattern⟩ else .error .malformed
  | _ => if text.isEmpty then .error .malformed else .ok ⟨text, none⟩

def readLevel (text : String) : Except DirectiveError Nat :=
  if text.isEmpty then .ok fullDepth
  else
    match depth? text with
    | some depth => .ok depth
    | none => .error .malformed

inductive Place
  | start
  | target
  | span (first : Nat)
  | field (first : Nat)
  | afterField
  | afterSpan
  | level (first : Nat)
  deriving DecidableEq, Repr

def canBegin (c : Char) : Bool := Unicode.isAlphanumeric c || c = '-' || c = ':' || c = '_'

def readChar (text : List Char) (place : Place) (d : Directive) (at_ : Nat) (c : Char) :
    Except DirectiveError (Place × Directive) :=
  match place with
  | .start =>
    if c = '[' then .ok (.span (at_ + 1), d)
    else if canBegin c then .ok (.target, d)
    else .error .malformed
  | .target =>
    if c = '=' then do return (.level (at_ + 1), { d with target := ← cut text 0 at_ })
    else if c = '[' then do return (.span (at_ + 1), { d with target := ← cut text 0 at_ })
    else .ok (place, d)
  | .span first =>
    if c = ']' then do return (.afterSpan, { d with span := ← cut text first at_ })
    else if c = '\x7b' then do
      let name ← cut text first at_
      return (.field (at_ + 1), { d with span := if name.isEmpty then none else some name })
    else .ok (place, d)
  | .field first =>
    if c = '\x7d' then do
      return (.afterField, { d with field := ← readField (← cut text first at_) })
    else .ok (place, d)
  | .afterField => if c = ']' then .ok (.afterSpan, d) else .error .malformed
  | .afterSpan => if c = '=' then .ok (.level (at_ + 1), d) else .error .malformed
  | .level _ => .ok (place, d)

def readChars (text : List Char) (place : Place) (d : Directive) (at_ : Nat) :
    List Char → Except DirectiveError (Place × Directive)
  | [] => .ok (place, d)
  | c :: rest => do
    let (place, d) ← readChar text place d at_ c
    readChars text place d (at_ + c.utf8Size) rest

def finish (text : List Char) (place : Place) (d : Directive) : Except DirectiveError Directive :=
  match place with
  | .target => do
    let word ← cut text 0 none
    match depth? word with
    | some depth => return { d with depth := depth }
    | none => return { d with target := some word }
  | .level first => do return { d with depth := ← readLevel (← cut text first none) }
  | .afterSpan => .ok d
  | _ => .error .malformed

def trimmed (cs : List Char) : List Char :=
  ((cs.dropWhile Unicode.isBlank).reverse.dropWhile Unicode.isBlank).reverse

def read (text : String) : Except DirectiveError Directive := do
  let cs := text.toList
  let (place, d) ← readChars cs .start full 0 (trimmed cs)
  finish cs place d

def isForEvents (d : Directive) : Bool := d.span.isNone && d.field.all fun f => f.pattern.isNone

def isFor (d : Directive) (target : String) (fields : List String) : Bool :=
  (d.target.all fun start => start.toList.isPrefixOf target.toList) &&
    d.field.all fun f => fields.contains f.name

/-- How closely a directive names what it is for: by the length of its target, then by a field. -/
def rank (d : Directive) : Nat × Option String :=
  ((d.target.map fun start => start.utf8ByteSize + 1).getD 0, d.field.map Field.name)

def isAsClose (d e : Directive) : Bool :=
  if d.rank.1 = e.rank.1 then
    match e.rank.2, d.rank.2 with
    | none, _ => true
    | some _, none => false
    | some a, some b => a ≤ b
  else e.rank.1 < d.rank.1

end Directive

end LeaseLock.Log
