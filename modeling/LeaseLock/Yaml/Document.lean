import LeaseLock.Config.Value
import LeaseLock.Yaml.Node

namespace LeaseLock.Yaml

open Config (Value)

def Scalar.value? : Scalar → Option Value
  | .nil => some .nil
  | .bool b => some (.bool b)
  | .integer n => some (.integer n)
  | .real digits => (Binary64.ofText digits).toOption.map .float
  | .text word => some (.text word)

namespace Node

mutual

def value? : Node → Option Value
  | .bad => some .nil
  | .scalar s => s.value?
  | .list items => (values? items).map .list
  | .table members => (settings? [] members).map .table

def values? : List Node → Option (List Value)
  | [] => some []
  | node :: rest => do return (← node.value?) :: (← values? rest)

def settings? (done : List (String × Value)) : List (Scalar × Node) → Option (List (String × Value))
  | [] => some done
  | (name, node) :: rest => do settings? (Value.put (← name.name?) (← node.value?) done) rest

end

end Node

/-- The handles that the directives before a document declare, and what follows them. Every directive
forgets the ones before it; only one may be for the version. -/
def directives? (hasVersion : Bool) (handles : List (String × String)) :
    List Token → Option (List (String × String) × List Token)
  | .versionDirective :: rest => if hasVersion then none else directives? true [] rest
  | .tagDirective handle start :: rest => directives? hasVersion [(handle, start)] rest
  | tokens => some (handles, tokens)

def beginsDocument : List Token → Bool
  | .versionDirective :: _ | .tagDirective _ _ :: _ | .documentStart :: _ => true
  | _ => false

def Node.root? (handles : List (String × String)) (tokens : List Token) :
    Option (Node × List Token) := do
  let (node, r) ← (Read.node (4 * tokens.length + 8) true false).run ⟨tokens, handles, [], 1, []⟩
  return (node, r.tokens)

def Node.ofTokens? (tokens : List Token) : Option (Node × List Token) := do
  if beginsDocument tokens then
    match ← directives? false [] tokens with
    | (handles, .documentStart :: rest) =>
      if beginsDocument rest then none else Node.root? handles rest
    | _ => none
  else Node.root? [] tokens

def read? (text : String) : Option Value := do
  match (← Token.ofText? text).dropWhile (· = .documentEnd) with
  | [] => return .table []
  | tokens =>
    let (node, rest) ← Node.ofTokens? tokens
    if rest.all (· = .documentEnd) then node.value? else none

end LeaseLock.Yaml
