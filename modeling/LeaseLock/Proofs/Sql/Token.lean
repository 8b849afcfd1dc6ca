import LeaseLock.Number.Digits

/-!
The tokens of an SQL text. A text is read character by character; a mode says which token has been
begun. Every token is as long as it can be, and comments are tokens, so that nothing of a text but
the blanks between its tokens is lost.
-/

namespace LeaseLock.Sql

inductive Token
  | word (text : String)
  | number (text : String)
  | name (text : String)
  | string (text : String)
  | parameter (text : String)
  | symbol (text : String)
  | comment (text : String)
  deriving DecidableEq, Repr

def Token.parameter? : Token → Option String
  | .parameter text => some text
  | _ => none

def isWordStart (c : Char) : Bool := c.isAlpha || c = '_' || 0x80 ≤ c.toNat

def isWordChar (c : Char) : Bool := isWordStart c || c.isDigit || c = '$'

def continuesNumber (text : List Char) (c : Char) : Bool :=
  c.isDigit || c = '.' || c = 'e' || c = 'E' ||
    ((c = '+' || c = '-') && (text.getLast? = some 'e' || text.getLast? = some 'E'))

def operators : List (Char × Char) :=
  [('<', '='), ('>', '='), ('<', '>'), ('!', '='), ('=', '='), ('|', '|'), ('<', '<'), ('>', '>'),
    (':', ':'), (':', '='), ('-', '>'), ('=', '>')]

inductive Mode
  | between
  | word (text : List Char)
  | number (text : List Char)
  | name (text : List Char)
  | nameQuote (text : List Char)
  | string (text : List Char)
  | stringQuote (text : List Char)
  | parameter (text : List Char)
  | symbol (c : Char)
  | operator (c d : Char)
  | lineComment (text : List Char)
  | blockComment (text : List Char)
  | blockCommentStar (text : List Char)
  | comment (text : List Char)
  deriving DecidableEq, Repr

namespace Mode

def start (c : Char) : Mode :=
  if c.isWhitespace then .between
  else if c = '"' then .name []
  else if c = '\'' then .string []
  else if c = '$' ∨ c = '?' then .parameter [c]
  else if c.isDigit then .number [c]
  else if isWordStart c then .word [c]
  else .symbol c

def extend? : Mode → Char → Option Mode
  | .between, _ => none
  | .word text, c => if isWordChar c then some (.word (text ++ [c])) else none
  | .number text, c => if continuesNumber text c then some (.number (text ++ [c])) else none
  | .name text, c => some (if c = '"' then .nameQuote text else .name (text ++ [c]))
  | .nameQuote text, c => if c = '"' then some (.name (text ++ [c])) else none
  | .string text, c => some (if c = '\'' then .stringQuote text else .string (text ++ [c]))
  | .stringQuote text, c => if c = '\'' then some (.string (text ++ [c])) else none
  | .parameter text, c => if isWordChar c then some (.parameter (text ++ [c])) else none
  | .symbol first, c =>
    if first = '-' ∧ c = '-' then some (.lineComment [])
    else if first = '/' ∧ c = '*' then some (.blockComment [])
    else if (first, c) ∈ operators then some (.operator first c)
    else none
  | .operator _ _, _ => none
  | .lineComment text, c => some (if c = '\n' then .comment text else .lineComment (text ++ [c]))
  | .blockComment text, c =>
    some (if c = '*' then .blockCommentStar text else .blockComment (text ++ [c]))
  | .blockCommentStar text, c =>
    some (if c = '/' then .comment text
      else if c = '*' then .blockCommentStar (text ++ ['*'])
      else .blockComment (text ++ ['*', c]))
  | .comment _, _ => none

def token? : Mode → Option Token
  | .between => none
  | .word text => some (.word (String.ofList text))
  | .number text => some (.number (String.ofList text))
  | .name text | .nameQuote text => some (.name (String.ofList text))
  | .string text | .stringQuote text => some (.string (String.ofList text))
  | .parameter text => some (.parameter (String.ofList text))
  | .symbol c => some (.symbol (String.ofList [c]))
  | .operator c d => some (.symbol (String.ofList [c, d]))
  | .lineComment text | .blockComment text | .blockCommentStar text | .comment text =>
    some (.comment (String.ofList text))

def isOpen : Mode → Bool
  | .name _ | .string _ | .blockComment _ | .blockCommentStar _ => true
  | _ => false

def read : Mode → List Char → List Token × Mode
  | mode, [] => ([], mode)
  | mode, c :: rest =>
    match mode.extend? c with
    | some next => read next rest
    | none =>
      let (more, last) := read (start c) rest
      (mode.token?.toList ++ more, last)

theorem read_append (mode : Mode) (front rest : List Char) :
    mode.read (front ++ rest) =
      ((mode.read front).1 ++ ((mode.read front).2.read rest).1,
        ((mode.read front).2.read rest).2) := by
  induction front generalizing mode with
  | nil => rfl
  | cons c front ih =>
    rw [List.cons_append, read, read]
    cases mode.extend? c with
    | some next => exact ih next
    | none =>
      simp only [ih (start c), List.append_assoc]

theorem read_name {name : List Char} (hname : '"' ∉ name) (text rest : List Char) :
    (Mode.name text).read (name ++ rest) = (Mode.name (text ++ name)).read rest := by
  induction name generalizing text with
  | nil => rw [List.nil_append, List.append_nil]
  | cons c name ih =>
    have hc : c ≠ '"' := (List.ne_of_not_mem_cons hname).symm
    have hextend : (Mode.name text).extend? c = some (.name (text ++ [c])) := by
      rw [extend?, if_neg hc]
    rw [List.cons_append, read, hextend]
    change (Mode.name (text ++ [c])).read (name ++ rest) = _
    rw [ih (List.not_mem_of_not_mem_cons hname), List.append_assoc, List.singleton_append]

theorem read_quoted {name : List Char} (hname : '"' ∉ name) {c : Char} (hc : c ≠ '"')
    (rest : List Char) :
    Mode.between.read ('"' :: (name ++ '"' :: c :: rest)) =
      (.name (String.ofList name) :: (Mode.between.read (c :: rest)).1,
        (Mode.between.read (c :: rest)).2) := by
  have hopen : Mode.between.read ('"' :: (name ++ '"' :: c :: rest)) =
      (Mode.name []).read (name ++ '"' :: c :: rest) := rfl
  have hclose : (Mode.name name).read ('"' :: c :: rest) = (Mode.nameQuote name).read (c :: rest) :=
    rfl
  rw [hopen, read_name hname, List.nil_append, hclose, read, extend?, if_neg hc]
  rfl

end Mode

def tokens? (text : String) : Option (List Token) :=
  let (done, last) := Mode.between.read text.toList
  if last.isOpen then none else some (done ++ last.token?.toList)

example : tokens? "a.\"b\"\"c\"<='it''s'--$1\n/* ? */?" =
    some [.word "a", .symbol ".", .name "b\"c", .symbol "<=", .string "it's", .comment "$1",
      .comment " ? ", .parameter "?"] := by decide +kernel

end LeaseLock.Sql
