import LeaseLock.Yaml.Block
import LeaseLock.Yaml.Plain
import LeaseLock.Yaml.Quoted
import LeaseLock.Yaml.Tag

/-!
The tokens of a text. Columns open and close lists and tables outside of brackets. Whatever may turn
out to be the name of a member is remembered until its colon comes, which puts the token for a key
before it.
-/

namespace LeaseLock.Yaml

structure Level where
  column : Nat
  isBlock : Bool
  deriving DecidableEq, Repr

structure Candidate where
  token : Nat
  place : Place
  isRequired : Bool
  deriving DecidableEq, Repr

structure Lexer where
  cursor : Cursor
  tokens : Array Token
  lastColumn : Nat
  levels : List Level
  candidates : List (Option Candidate)
  allowsKey : Bool
  /-- The place right after a quoted name or a bracket, where a colon needs no blank after it. -/
  valueAt : Nat
  isInTable : Bool
  pairs : List Bool
  deriving Repr

namespace Lexer

def start (text : List Char) : Lexer :=
  ⟨⟨.start, text⟩, #[], 0, [], [none], true, 0, false, []⟩

def column (s : Lexer) : Nat := s.cursor.place.column

def indent (s : Lexer) : Int :=
  match s.levels with
  | [] => -1
  | level :: _ => level.column

def depth (s : Lexer) : Nat := s.candidates.length - 1

def maxDepth : Nat := 255

def inFlow (s : Lexer) : Bool := s.depth ≠ 0

def push (s : Lexer) (column : Nat) (token : Token) : Lexer :=
  { s with tokens := s.tokens.push token, lastColumn := column }

def insert (s : Lexer) (position : Nat) (token : Token) : Lexer :=
  { s with tokens := s.tokens.insertIdxIfInBounds position token }

def drop (s : Lexer) (n : Nat) : Lexer := { s with cursor := s.cursor.drop n }

def allow (s : Lexer) (allowsKey : Bool) : Lexer := { s with allowsKey := allowsKey }

def allowUnlessFlow (s : Lexer) : Lexer := s.allow (!s.inFlow)

def skipMargin? (s : Lexer) : Option (Bool × Bool × Lexer) := do
  let margin ← s.cursor.margin?
  return (margin.hasSpace, margin.hasTab, { s with cursor := margin.cursor })

/-! ## The way to the next token -/

inductive Approach
  | blanks
  | comment
  | blankLine
  deriving DecidableEq, Repr

def approach (s : Lexer) (mode : Approach) (allowsKey : Bool) (place : Place) :
    List Char → Option (Bool × Cursor)
  | [] => some (allowsKey, ⟨place, []⟩)
  | c :: rest =>
    if c = '\n' then s.approach .blanks (allowsKey || !s.inFlow) (place.after c) rest
    else
      match mode with
      | .comment => s.approach .comment allowsKey (place.after c) rest
      | .blankLine =>
        if isBlank c then s.approach .blankLine allowsKey (place.after c) rest
        else if c = '#' then s.approach .comment allowsKey (place.after c) rest
        else none
      | .blanks =>
        if c = '\t' ∧ !s.levels.isEmpty ∧ place.isLeading ∧ (place.column : Int) < s.indent then
          s.approach .blankLine allowsKey (place.after c) rest
        else if isBlank c then s.approach .blanks allowsKey (place.after c) rest
        else if c = '#' then s.approach .comment allowsKey (place.after c) rest
        else some (allowsKey, ⟨place, c :: rest⟩)

def approach? (s : Lexer) : Option Lexer := do
  let (allowsKey, cursor) ← s.approach .blanks s.allowsKey s.cursor.place s.cursor.rest
  return { s with allowsKey := allowsKey, cursor := cursor }

/-! ## Names -/

def maxKeyLength : Nat := 1024

def expire? (s : Lexer) : Option Lexer :=
  match s.candidates with
  | [some candidate] =>
    let place := s.cursor.place
    if candidate.place.line < place.line ∨ candidate.place.index + maxKeyLength < place.index then
      if candidate.isRequired then none else some { s with candidates := [none] }
    else some s
  | _ => some s

def propose (s : Lexer) : Lexer :=
  if s.allowsKey then
    let isRequired := !s.inFlow && s.levels.head? == some ⟨s.column, true⟩
    { s with candidates := some ⟨s.tokens.size, s.cursor.place, isRequired⟩ :: s.candidates.drop 1 }
  else s

def dismiss? (s : Lexer) : Option Lexer :=
  match s.candidates with
  | some candidate :: rest =>
    if candidate.isRequired then none else some { s with candidates := none :: rest }
  | _ => some s

/-! ## Levels -/

def closeLevels (tokens : Array Token) (column : Int) : List Level → Array Token × List Level
  | [] => (tokens, [])
  | level :: rest =>
    if column < level.column then
      closeLevels (if level.isBlock then tokens.push .blockEnd else tokens) column rest
    else (tokens, level :: rest)

def close (s : Lexer) (column : Int) : Lexer :=
  if s.inFlow then s
  else
    let (tokens, levels) := closeLevels s.tokens column s.levels
    { s with
      tokens := tokens
      levels := levels
      lastColumn := if tokens.size = s.tokens.size then s.lastColumn else s.column }

def withoutMargins (s : Lexer) : Lexer :=
  { s with levels := s.levels.dropWhile fun level => !level.isBlock }

def openAt (s : Lexer) (column position : Nat) (token : Token) : Lexer :=
  if s.inFlow then s
  else
    let s := match s.levels with
      | level :: rest =>
        if !level.isBlock && level.column ≤ column then { s with levels := rest } else s
      | [] => s
    if s.indent < (column : Int) then
      { s.insert position token with levels := ⟨column, true⟩ :: s.levels }
    else s

def addMargin (s : Lexer) : Lexer :=
  match s.levels with
  | level :: _ =>
    if level.isBlock && !s.inFlow then
      { s with levels := ⟨level.column + 1, false⟩ :: s.levels }
    else s
  | [] => s

/-! ## Tokens -/

def takeDirective? (s : Lexer) : Option Lexer := do
  let s ← (s.close (-1)).dismiss?
  let (token, cursor) ← Directive.read? s.cursor
  return { (s.allow false).push s.column token with cursor := cursor }

def takeDocumentMark? (s : Lexer) (token : Token) : Option Lexer := do
  let s ← (s.close (-1)).dismiss?
  return ((s.allow false).push s.column token).drop 3

def takeDocumentEnd? (s : Lexer) : Option Lexer := do
  let (_, _, s) ← (← s.takeDocumentMark? .documentEnd).skipMargin?
  if endsLine s.cursor.rest then return s else none

def openFlow? (s : Lexer) (token : Token) : Option Lexer := do
  let s := s.propose.addMargin
  if s.depth = maxDepth then none
  let s := (s.push s.column token).drop 1
  let s := if token = .flowTableStart then { s with isInTable := true }
    else { s with pairs := false :: s.pairs }
  let (_, _, s) ← ({ s with candidates := none :: s.candidates }.allow true).skipMargin?
  return s

def endPair (s : Lexer) : Lexer :=
  match s.pairs with
  | true :: rest => { s.push s.column .flowTableEnd with isInTable := false, pairs := false :: rest }
  | _ => s

def closeFlow? (s : Lexer) (token : Token) : Option Lexer := do
  let s ← s.dismiss?
  let s := { s with candidates := if s.inFlow then s.candidates.drop 1 else s.candidates }.allow false
  let s := if token = .flowListEnd then { s.endPair with pairs := s.pairs.drop 1 } else s
  let (_, _, s) ← ((s.push s.column token).drop 1).skipMargin?
  return if s.inFlow then { s with valueAt := s.cursor.place.index } else s

def takeSeparator? (s : Lexer) : Option Lexer := do
  let s ← s.dismiss?
  let (_, _, s) ← (((s.allow true).endPair.push s.column .separator).drop 1).skipMargin?
  return s

def hasPropertyAtStart (s : Lexer) : Bool :=
  s.lastColumn = 0 &&
    match s.tokens.back? with
    | some (.anchor _) | some (.tag _ _) => true
    | _ => false

def takeItem? (s : Lexer) : Option Lexer := do
  if s.inFlow || !s.allowsKey then none
  if s.column = 0 && 0 ≤ s.indent && s.hasPropertyAtStart then none
  let (_, hasTab, t) ← ((s.openAt s.column s.tokens.size .listStart).drop 1).skipMargin?
  let rest := t.cursor.rest
  if hasTab && rest.head? == some '-' && endsWord (rest.drop 1) then none
  let t := if rest.head?.any fun c => c = '\n' || isFlowMark c then t.addMargin else t
  return ((← t.dismiss?).allow true).push t.column .item

def skipSeparation (s : Lexer) (allowsKey : Bool) (inComment : Bool) (place : Place) :
    List Char → Bool × Cursor
  | [] => (allowsKey, ⟨place, []⟩)
  | c :: rest =>
    if c = '\n' then s.skipSeparation (allowsKey || !s.inFlow) false (place.after c) rest
    else if inComment || c = ' ' || c = '#' then
      s.skipSeparation allowsKey (inComment || c = '#') (place.after c) rest
    else (allowsKey, ⟨place, c :: rest⟩)

def takeKey? (s : Lexer) : Option Lexer := do
  if !s.inFlow && !s.allowsKey then none
  let column := s.column
  let s := if s.inFlow then { s with isInTable := true }
    else s.openAt column s.tokens.size .tableStart
  let s := ((← s.dismiss?).allowUnlessFlow).drop 1
  match s.cursor.rest with
  | ' ' :: _ | '\n' :: _ =>
    let (allowsKey, cursor) := s.skipSeparation s.allowsKey false s.cursor.place s.cursor.rest
    if cursor.rest.head? == some '\t' then none
    else return { s.push column .key with allowsKey := allowsKey, cursor := cursor }
  | _ => none

def skipColon? (s : Lexer) : Option Lexer :=
  let s := s.drop 1
  if s.cursor.rest.head? == some '\t' then do
    let (hasSpace, _, s) ← s.skipMargin?
    if !hasSpace && s.cursor.rest.head?.any isNameChar then none else some s
  else some s

def takeValue? (s : Lexer) : Option Lexer := do
  let place := s.cursor.place
  let isPair := !s.pairs.isEmpty && !s.isInTable
  let s := if isPair then { s with pairs := true :: s.pairs.drop 1 } else s
  let s ← s.skipColon?
  match s.candidates with
  | some candidate :: rest =>
    if isPair && candidate.place.line < place.line then none
    let s := s.insert candidate.token .key
    let s := if isPair then s.insert candidate.token .flowTableStart else s
    let s := (s.openAt candidate.place.column candidate.token .tableStart).addMargin
    return ({ s with candidates := none :: rest }.allow false).push place.column .value
  | _ =>
    let s := if isPair then s.push s.column .flowTableStart else s
    if !s.inFlow && !s.allowsKey then none
    let s := (s.openAt place.column s.tokens.size .tableStart).addMargin
    return s.allowUnlessFlow.push place.column .value

def takeAnchor? (s : Lexer) (token : String → Token) : Option Lexer :=
  let (name, cursor) := (s.cursor.drop 1).span fun c =>
    !isBlank c && c ≠ '\n' && c ≠ '\ufeff' && !isFlowMark c
  if name.isEmpty then none
  else
    let s := (s.propose.allow false).push s.column (token (String.ofList name))
    some { s with cursor := cursor }

def takeTag? (s : Lexer) : Option Lexer := do
  let (token, cursor) ← Tag.read? s.cursor
  if endsWord cursor.rest || (s.inFlow && cursor.rest.head?.any isFlowMark) then
    return { (s.propose.allow false).push s.column token with cursor := cursor }
  else none

def takeBlock? (s : Lexer) (isFolded : Bool) : Option Lexer := do
  let column := s.column
  let s := (s.propose.allow true).withoutMargins
  let (text, cursor) ← Block.read? isFolded s.indent s.cursor
  return { s.push column (.quoted text) with cursor := cursor }

def endsQuoted (s : Lexer) (line : Nat) : Bool :=
  match s.cursor.rest with
  | [] => true
  | c :: _ =>
    c = '\n' || (c = ':' && (s.inFlow || line = s.cursor.place.line)) ||
      (s.inFlow && ",]\x7d".toList.contains c)

def takeQuoted? (s : Lexer) : Option Lexer := do
  let place := s.cursor.place
  let (text, cursor) ← Quoted.read? s.indent s.cursor
  let (_, _, s) ← { s.propose.allow false with cursor := cursor }.skipMargin?
  if !s.endsQuoted place.line then none
  let s ← s.approach?
  return { s.push place.column (.quoted text) with valueAt := s.cursor.place.index }

def takePlain? (s : Lexer) : Option Lexer := do
  let column := s.column
  let s := (s.propose.allow false).withoutMargins
  let (text, cursor) ← Plain.read? ⟨s.inFlow, s.indent + 1⟩ s.cursor
  return { s.push column (.plain text) with
    cursor := cursor
    allowsKey := s.allowsKey || cursor.place.isLeading }

def takeFrom? (s : Lexer) (c : Char) (rest : List Char) : Option Lexer :=
  match c with
  | '[' => s.openFlow? .flowListStart
  | '\x7b' => s.openFlow? .flowTableStart
  | ']' => s.closeFlow? .flowListEnd
  | '\x7d' => s.closeFlow? .flowTableEnd
  | ',' => s.takeSeparator?
  | '-' => if endsWord rest then s.takeItem? else s.takePlain?
  | '?' => if endsWord rest then s.takeKey? else s.takePlain?
  | ':' =>
    if endsWord rest || (s.inFlow && (rest.head?.any isFlowMark ||
        s.cursor.place.index = s.valueAt)) then s.takeValue?
    else s.takePlain?
  | '*' => s.takeAnchor? .alias
  | '&' => s.takeAnchor? .anchor
  | '!' => s.takeTag?
  | '|' => if s.inFlow then s.takePlain? else s.takeBlock? false
  | '>' => if s.inFlow then s.takePlain? else s.takeBlock? true
  | '\'' | '"' => s.takeQuoted?
  | '%' | '@' | '\x60' => none
  | _ => s.takePlain?

inductive Step
  | more (s : Lexer)
  | finished (tokens : List Token)

def finish? (s : Lexer) : Option Step :=
  if s.candidates.any fun candidate => candidate.any Candidate.isRequired then none
  else some (.finished (s.close (-1)).tokens.toList)

def step? (s : Lexer) : Option Step := do
  let s ← (← s.approach?).expire?
  let s := s.close s.column
  match s.cursor.rest with
  | [] => s.finish?
  | c :: rest =>
    if s.column = 0 ∧ c = '%' then return .more (← s.takeDirective?)
    else if s.column = 0 ∧ s.cursor.isMark '-' then
      return .more (← s.takeDocumentMark? .documentStart)
    else if s.column = 0 ∧ s.cursor.isMark '.' then return .more (← s.takeDocumentEnd?)
    else if (s.column : Int) < s.indent then none
    else return .more (← s.takeFrom? c rest)

def tokens? (s : Lexer) : Option (List Token) :=
  match s.step? with
  | none => none
  | some (.finished tokens) => some tokens
  | some (.more t) =>
    if t.cursor.rest.length < s.cursor.rest.length then t.tokens? else none
  termination_by s.cursor.rest.length

end Lexer

def Token.ofText? (text : String) : Option (List Token) :=
  (Lexer.start (withPlainBreaks text.toList)).tokens?

end LeaseLock.Yaml
