import LeaseLock.Yaml.Cursor

namespace LeaseLock.Yaml

inductive Gap
  | nothing
  | blanks (done : List Char)
  | breaks (more : Nat)
  | escapedBreak (more : Nat)
  deriving DecidableEq, Repr

namespace Gap

def isBroken : Gap → Bool
  | .breaks _ | .escapedBreak _ => true
  | _ => false

def addBlank (c : Char) : Gap → Gap
  | .nothing => .blanks [c]
  | .blanks done => .blanks (c :: done)
  | g => g

def addBreak : Gap → Gap
  | .breaks more => .breaks (more + 1)
  | .escapedBreak more => .escapedBreak (more + 1)
  | _ => .breaks 0

def text : Gap → List Char
  | .nothing => []
  | .blanks done => done.reverse
  | .breaks 0 => [' ']
  | .breaks more => List.replicate more '\n'
  | .escapedBreak more => List.replicate more '\n'

def onto (g : Gap) (done : List Char) : List Char := g.text.reverse ++ done

end Gap

end LeaseLock.Yaml
