import LeaseLock.Yaml.Gap

namespace LeaseLock.Yaml.Quoted

namespace Escape

def char? (c : Char) : Option Char :=
  match c with
  | '0' => some '\x00'
  | 'a' => some '\x07'
  | 'b' => some '\x08'
  | 't' | '\t' => some '\t'
  | 'n' => some '\n'
  | 'v' => some '\x0b'
  | 'f' => some '\x0c'
  | 'r' => some '\r'
  | 'e' => some '\x1b'
  | ' ' => some ' '
  | '"' => some '"'
  | '/' => some '/'
  | '\\' => some '\\'
  | 'N' => some (Char.ofNat 0x85)
  | '_' => some (Char.ofNat 0xa0)
  | 'L' => some (Char.ofNat 0x2028)
  | 'P' => some (Char.ofNat 0x2029)
  | _ => none

def digits? (c : Char) : Option Nat :=
  match c with
  | 'x' => some 2
  | 'u' => some 4
  | 'U' => some 8
  | _ => none

def ofCode? (code : Nat) : Option Char :=
  if code.isValidChar then some (Char.ofNat code) else none

end Escape

inductive Mode
  | word
  | gap (g : Gap)
  | escape
  | code (left value : Nat)
  | quote
  deriving DecidableEq, Repr

def goesOn (indent : Int) (place : Place) (cs : List Char) : Bool :=
  !(place.column = 0 && Cursor.isDocumentMark ⟨place, cs⟩) && indent ≤ place.column

def endsAfterEscape (double : Bool) (g : Gap) (place : Place) (c : Char) : Bool :=
  double && c = '"' && g = .escapedBreak 0 && place.column = 0

def takeChar (double : Bool) (done : List Char) (c : Char) : Option Mode × List Char :=
  if c = ' ' ∨ c = '\t' then (some (.gap (.addBlank c .nothing)), done)
  else if c = '\n' then (some (.gap (.addBreak .nothing)), done)
  else if double && c = '"' then (none, done)
  else if double && c = '\\' then (some .escape, done)
  else if !double && c = '\'' then (some .quote, done)
  else (some .word, c :: done)

def readFrom (double : Bool) (indent : Int) (mode : Mode) (done : List Char) (place : Place) :
    List Char → Option (List Char × Cursor)
  | [] =>
    match mode with
    | .quote => some (done, ⟨place, []⟩)
    | _ => none
  | c :: rest =>
    let next := place.after c
    let on (mode : Mode) (done : List Char) := readFrom double indent mode done next rest
    let take (done : List Char) : Option (List Char × Cursor) :=
      match takeChar double done c with
      | (some mode, done) => on mode done
      | (none, done) => some (done, ⟨next, rest⟩)
    match mode with
    | .word => take done
    | .gap g =>
      if c = '\n' then on (.gap g.addBreak) done
      else if isBlank c then
        if g.isBroken && c = '\t' && (place.column : Int) < indent then none
        else on (.gap (g.addBlank c)) done
      else if endsAfterEscape double g place c || goesOn indent place (c :: rest) then
        take (g.onto done)
      else none
    | .escape =>
      if c = '\n' then on (.gap (.escapedBreak 0)) done
      else
        match Escape.char? c, Escape.digits? c with
        | some c, _ => on .word (c :: done)
        | none, some digits => on (.code digits 0) done
        | none, none => none
    | .code left value =>
      match hexDigit? c with
      | none => none
      | some d =>
        if 1 < left then on (.code (left - 1) (16 * value + d)) done
        else
          match Escape.ofCode? (16 * value + d) with
          | some c => on .word (c :: done)
          | none => none
    | .quote => if c = '\'' then on .word ('\'' :: done) else some (done, ⟨place, c :: rest⟩)

def read? (indent : Int) (c : Cursor) : Option (String × Cursor) :=
  match c.rest with
  | quote :: rest =>
    match readFrom (quote = '"') indent .word [] (c.place.after quote) rest with
    | some (done, c) => some (String.ofList done.reverse, c)
    | none => none
  | [] => none

end LeaseLock.Yaml.Quoted
