import LeaseLock.Number.Decimal
import LeaseLock.Number.Integer

namespace LeaseLock.Yaml

inductive Scalar
  | nil
  | bool (b : Bool)
  | integer (n : Int)
  | real (digits : String)
  | text (word : String)
  deriving DecidableEq, Repr

namespace Scalar

def greatest : Nat := UInt64.size / 2 - 1

def inBase? (base : Nat) (cs : List Char) : Option Int :=
  let magnitude (cs : List Char) (greatest : Nat) : Option Nat := do
    let digits ← cs.mapM fun c => (hexDigit? c).filter (· < base)
    let n := digits.foldl (fun n d => base * n + d) 0
    if cs.isEmpty || greatest < n then none else some n
  match cs with
  | '-' :: rest => (magnitude rest (greatest + 1)).map fun n => -(n : Int)
  | '+' :: rest => (magnitude rest greatest).map Int.ofNat
  | cs => (magnitude cs greatest).map Int.ofNat

def decimal? (text : String) : Option Int := (readInt greatest text).toOption

def integer? (text : String) : Option Int :=
  match text.toList with
  | '0' :: 'x' :: rest => inBase? 16 rest
  | '0' :: 'o' :: rest => inBase? 8 rest
  | '+' :: rest => (decimal? (String.ofList rest)).or (decimal? text)
  | _ => decimal? text

def unboundedWords : List String :=
  [".inf", ".Inf", ".INF", "+.inf", "+.Inf", "+.INF", "-.inf", "-.Inf", "-.INF", ".nan", ".NaN",
    ".NAN"]

def isReal (text : String) : Bool :=
  unboundedWords.contains text ||
    (text.toList.any isDigit && (Binary64.ofText text).toOption.isSome)

def ofPlain (text : String) : Scalar :=
  if text = "" ∨ text = "~" ∨ text = "null" then .nil
  else if text = "true" ∨ text = "True" ∨ text = "TRUE" then .bool true
  else if text = "false" ∨ text = "False" ∨ text = "FALSE" then .bool false
  else
    match integer? text with
    | some n => .integer n
    | none => if isReal text then .real text else .text text

def ofTyped? (type text : String) : Option Scalar :=
  match type with
  | "bool" =>
    if text = "true" then some (.bool true) else if text = "false" then some (.bool false) else none
  | "int" => (decimal? text).map .integer
  | "float" => if isReal text then some (.real text) else none
  | "null" => if text = "~" ∨ text = "null" then some .nil else none
  | _ => some (.text text)

def name? : Scalar → Option String
  | .nil => none
  | .bool b => some (if b then "true" else "false")
  | .integer n => some (integerText n)
  | .real digits => some digits
  | .text word => some word

end Scalar

end LeaseLock.Yaml
