import LeaseLock.Yaml.Lexer
import LeaseLock.Yaml.Scalar

namespace LeaseLock.Yaml

inductive Node
  | bad
  | scalar (s : Scalar)
  | list (items : List Node)
  | table (members : List (Scalar × Node))
  deriving Repr

namespace Node

def nil : Node := .scalar .nil

/-- The members of a table from names and values in turn. A name must be a scalar that is not nothing
and not taken. A bad node is no name, so that the next one takes its place. -/
def members? (done : List (Scalar × Node)) : List Node → Option (List (Scalar × Node))
  | [] => some done.reverse
  | .bad :: rest => members? done rest
  | [_] => some done.reverse
  | .scalar name :: value :: rest =>
    if name.name?.isNone || (done.lookup name).isSome then none
    else members? ((name, value) :: done) rest
  | _ :: _ :: _ => none

end Node

structure FullTag where
  start : String
  suffix : String
  deriving DecidableEq, Repr

namespace FullTag

def standardStart : String := "tag:yaml.org,2002:"

end FullTag

namespace Node

def ofPlain (tag : Option FullTag) (text : String) : Node :=
  match tag with
  | none => .scalar (.ofPlain text)
  | some tag =>
    if tag.start = FullTag.standardStart then
      match Scalar.ofTyped? tag.suffix text with
      | some s => .scalar s
      | none => .bad
    else .scalar (.text text)

end Node

structure Reading where
  tokens : List Token
  handles : List (String × String)
  anchors : List (String × Nat)
  anchorCount : Nat
  nodes : List (Nat × Node)
  deriving Repr

abbrev Read := StateT Reading Option

namespace Read

def fail : Read α := fun _ => none

def next? : Read (Option Token) := fun r => some (r.tokens.head?, r)

def skip : Read Unit := fun r => some ((), { r with tokens := r.tokens.drop 1 })

/-- A handle that was not declared stands for itself, and two exclamation marks for the standard
types; any other handle must be declared. -/
def fullTag (handle suffix : String) : Read FullTag := fun r =>
  match r.handles.lookup handle with
  | some start => some (⟨start, suffix⟩, r)
  | none =>
    if handle = "!!" then some (⟨FullTag.standardStart, suffix⟩, r)
    else if handle = "" ∨ handle = "!" then some (⟨handle, suffix⟩, r)
    else none

def newAnchor (name : String) : Read Nat := fun r =>
  some (r.anchorCount, { r with
    anchors := (name, r.anchorCount) :: r.anchors
    anchorCount := r.anchorCount + 1 })

def resolve (name : String) : Read Node := fun r =>
  (r.anchors.lookup name).map fun n => ((r.nodes.lookup n).getD .bad, r)

def complete (anchor : Option Nat) (node : Node) : Read Node := fun r =>
  match anchor with
  | some n => some (node, { r with nodes := (n, node) :: r.nodes })
  | none => some (node, r)

def anchor : Read (Option Nat) := do
  match ← next? with
  | some (.anchor name) => do skip; return some (← newAnchor name)
  | _ => return none

def tag : Read (Option FullTag) := do
  match ← next? with
  | some (.tag handle suffix) => do skip; return some (← fullTag handle suffix)
  | _ => return none

def properties : Read (Option Nat × Option FullTag) := do
  match ← anchor with
  | some n => return (some n, ← tag)
  | none =>
    match ← tag with
    | some t => return (← anchor, some t)
    | none => return (none, none)

def endsItem : Option Token → Bool
  | some .item | some .blockEnd => true
  | _ => false

def endsMember : Option Token → Bool
  | some .key | some .value | some .blockEnd => true
  | _ => false

def endsFlowMember : Option Token → Bool
  | some .value | some .separator | some .flowTableEnd => true
  | _ => false

def endsPair : Option Token → Bool
  | some .value | some .separator | some .flowListEnd => true
  | _ => false

mutual

/-- Reads a node. Lists and tables in lines cannot stand within brackets, and a list in the column of
the names around it only as the value of one. The first argument bounds the depth of the recursion. -/
def node : Nat → Bool → Bool → Read Node
  | 0, _, _ => fail
  | n + 1, isBlock, isValue => do
    match ← next? with
    | some (.alias name) => skip; resolve name
    | _ =>
      let (anchor, tag) ← properties
      let node ← match ← next? with
        | some (.plain text) => do skip; pure (.ofPlain tag text)
        | some (.quoted text) => do skip; pure (.scalar (.text text))
        | some .flowListStart => do skip; pure (.list (← flowItems n true))
        | some .flowTableStart => do skip; table (← flowMembers n true)
        | some .listStart => if isBlock then do skip; pure (.list (← items n)) else bare anchor tag
        | some .tableStart => if isBlock then do skip; table (← members n) else bare anchor tag
        | some .item => if isValue then do pure (.list (← aligned n)) else bare anchor tag
        | _ => bare anchor tag
      complete anchor node

def bare (anchor : Option Nat) (tag : Option FullTag) : Read Node :=
  if anchor.isSome || tag.isSome then pure (.ofPlain tag "") else fail

def table (nodes : List Node) : Read Node :=
  match Node.members? [] nodes with
  | some members => pure (.table members)
  | none => fail

def items : Nat → Read (List Node)
  | 0 => fail
  | n + 1 => do
    match ← next? with
    | some .blockEnd => skip; return []
    | some .item =>
      skip
      let item ← if endsItem (← next?) then pure .nil else node n true false
      return item :: (← items n)
    | _ => fail

def aligned : Nat → Read (List Node)
  | 0 => fail
  | n + 1 => do
    match ← next? with
    | some .item =>
      skip
      let next ← next?
      let item ← if endsItem next || endsMember next then pure .nil else node n true false
      return item :: (← aligned n)
    | _ => return []

def members : Nat → Read (List Node)
  | 0 => fail
  | n + 1 => do
    let name ← match ← next? with
      | some .blockEnd => do skip; return []
      | some .key => do
        skip
        if endsMember (← next?) then pure .nil else node n true true
      | some .value => pure .nil
      | _ => fail
    let value ← match ← next? with
      | some .value => do
        skip
        if endsMember (← next?) then pure .nil else node n true true
      | _ => pure .nil
    return name :: value :: (← members n)

def flowMembers : Nat → Bool → Read (List Node)
  | 0, _ => fail
  | n + 1, isFirst => do
    match ← next? with
    | some .flowTableEnd => skip; return []
    | next =>
      if !isFirst then
        if next = some .separator then skip else fail
      match ← next? with
      | some .flowTableEnd => skip; return []
      | next =>
        let (name, hasValue) ← match next with
          | some .key => do
            skip
            if endsFlowMember (← next?) then pure (.nil, true) else pure (← node n false false, true)
          | some .value => pure (.nil, true)
          | _ => pure (← node n false false, false)
        let value ← match hasValue, ← next? with
          | true, some .value => do
            skip
            match ← next? with
            | some .separator | some .flowTableEnd => pure .nil
            | _ => node n false false
          | _, _ => pure .nil
        return name :: value :: (← flowMembers n false)

def flowItems : Nat → Bool → Read (List Node)
  | 0, _ => fail
  | n + 1, isFirst => do
    match ← next? with
    | some .flowListEnd => skip; return []
    | next =>
      if !isFirst then
        if next = some .separator then skip else fail
      match ← next? with
      | some .flowListEnd => skip; return []
      | some .key =>
        skip
        let pair ← pair n
        return pair :: (← flowItems n false)
      | _ =>
        let item ← node n false false
        return item :: (← flowItems n false)

/-- Reads a pair without braces as a table. What follows a key without a name is lost. -/
def pair : Nat → Read Node
  | 0 => fail
  | n + 1 => do
    let name ← if endsPair (← next?) then do skip; pure .nil else node n false false
    let value ← match ← next? with
      | some .value => do
        skip
        match ← next? with
        | some .separator | some .flowListEnd => pure .nil
        | _ => node n false false
      | _ => pure .nil
    table [name, value]

end

end Read

end LeaseLock.Yaml
