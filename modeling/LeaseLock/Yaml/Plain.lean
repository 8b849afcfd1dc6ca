import LeaseLock.Yaml.Gap

namespace LeaseLock.Yaml.Plain

structure Surroundings where
  inFlow : Bool
  margin : Int
  deriving DecidableEq, Repr

def goesOn (s : Surroundings) (cs : List Char) : Bool :=
  match cs with
  | [] => false
  | ':' :: rest => !(endsWord rest || (s.inFlow && rest.head?.any isFlowMark))
  | c :: _ => !(s.inFlow && isFlowMark c)

inductive Mode
  | word
  | gap (g : Gap)
  | margin (g : Gap)
  | comment (g : Gap)
  deriving DecidableEq, Repr

def begins (s : Surroundings) (g : Gap) (place : Place) (cs : List Char) : Bool :=
  (s.inFlow || g = .nothing || s.margin ≤ place.column) &&
    !(place.column = 0 && Cursor.isDocumentMark ⟨place, cs⟩) && cs.head? != some '#'

def isStrayDash (s : Surroundings) (cs : List Char) : Bool :=
  match cs with
  | '-' :: c :: _ => s.inFlow && isFlowMark c
  | _ => false

def readFrom (s : Surroundings) (mode : Mode) (done : List Char) (place : Place) :
    List Char → Option (List Char × Cursor)
  | [] => some (done, ⟨place, []⟩)
  | c :: rest =>
    let stop : Option (List Char × Cursor) := some (done, ⟨place, c :: rest⟩)
    let on (mode : Mode) := readFrom s mode done (place.after c) rest
    match mode with
    | .word =>
      if isBlank c then on (.gap (.addBlank c .nothing))
      else if c = '\n' then on (.gap (.addBreak .nothing))
      else if goesOn s (c :: rest) then readFrom s .word (c :: done) (place.after c) rest
      else stop
    | .gap g =>
      if c = '\n' then on (.gap g.addBreak)
      else if isBlank c then
        if g.isBroken && c = '\t' && (place.column : Int) < s.margin then on (.margin g)
        else on (.gap (g.addBlank c))
      else if !begins s g place (c :: rest) then stop
      else if isStrayDash s (c :: rest) then none
      else if goesOn s (c :: rest) then
        readFrom s .word (c :: g.onto done) (place.after c) rest
      else stop
    | .margin g =>
      if isBlank c then on (.margin g)
      else if c = '\n' then on (.gap g.addBreak)
      else if c = '#' then on (.comment g)
      else none
    | .comment g => if c = '\n' then on (.gap g) else on (.comment g)

def read? (s : Surroundings) (c : Cursor) : Option (String × Cursor) :=
  if s.inFlow && (c.place.column : Int) < s.margin then none
  else
    match readFrom s (.gap .nothing) [] c.place c.rest with
    | some ([], _) | none => none
    | some (done, c) => some (String.ofList done.reverse, c)

end LeaseLock.Yaml.Plain
