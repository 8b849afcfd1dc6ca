import LeaseLock.Config.Value

namespace LeaseLock.Config.Environment

def start : String := "leasehold__"

def variableName (path : List String) : String := (start ++ "__".intercalate path).toUpper

def separated : List Char → List Char
  | '_' :: '_' :: rest => '.' :: separated rest
  | c :: rest => c :: separated rest
  | [] => []

/-- The lower case of a character as far as it is a letter from a to z, the Kelvin sign being a
capital k. -/
def lowerChar (c : Char) : Char := if c = '\u212a' then 'k' else c.toLower

def key? (name : String) : Option String :=
  let lower := name.toList.map lowerChar
  if start.toList.isPrefixOf lower then
    some (String.ofList (separated (lower.drop start.length)))
  else none

def value (text : String) : Value :=
  let lower := String.ofList (lowerAscii text.toList)
  if lower = "true" then .bool true
  else if lower = "false" then .bool false
  else
    match readInt Value.greatest text with
    | .ok n => .integer n
    | .error _ =>
      match Binary64.ofText text with
      | .ok x => .float x
      | .error _ => .text text

def settings (environment : List (String × String)) : List (String × Value) :=
  environment.filterMap fun (name, text) => (key? name).map fun key => (key, value text)

end LeaseLock.Config.Environment
