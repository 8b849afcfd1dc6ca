import LeaseLock.Json.Basic

namespace LeaseLock

namespace JsonNumber

def text (n : JsonNumber) : String :=
  let sign := if n.negative then "-" else ""
  let fraction := if n.fraction.isEmpty then "" else "." ++ String.ofList n.fraction
  let exponent := match n.exponent with
    | some e => "e" ++ integerText e
    | none => ""
  sign ++ String.ofList n.whole ++ fraction ++ exponent

end JsonNumber

namespace Json

def escapeChar (c : Char) : List Char :=
  if c = '"' then ['\\', '"']
  else if c = '\\' then ['\\', '\\']
  else if c = '\x08' then ['\\', 'b']
  else if c = '\t' then ['\\', 't']
  else if c = '\n' then ['\\', 'n']
  else if c = '\x0c' then ['\\', 'f']
  else if c = '\r' then ['\\', 'r']
  else if c.toNat < 0x20 then '\\' :: 'u' :: (zeroPadded 4 (hexText c.toNat)).toList
  else [c]

def stringText (text : String) : String :=
  String.ofList ('"' :: (text.toList.flatMap escapeChar ++ ['"']))

mutual

def text : Json → String
  | .null => "null"
  | .bool true => "true"
  | .bool false => "false"
  | .number n => n.text
  | .string t => stringText (t.getD "")
  | .array items => "[" ++ itemsText items ++ "]"
  | .object members => "\x7b" ++ membersText members ++ "\x7d"

def itemsText : List Json → String
  | [] => ""
  | [item] => text item
  | item :: rest => text item ++ "," ++ itemsText rest

def membersText : List (JsonText × Json) → String
  | [] => ""
  | [(name, value)] => stringText (name.getD "") ++ ":" ++ text value
  | (name, value) :: rest =>
    stringText (name.getD "") ++ ":" ++ text value ++ "," ++ membersText rest

end

def indentation (depth : Nat) : String := String.ofList ('\n' :: List.replicate (2 * depth) ' ')

mutual

def linesText (depth : Nat) : Json → String
  | .array (item :: rest) =>
    "[" ++ itemLines (depth + 1) (item :: rest) ++ indentation depth ++ "]"
  | .object (member :: rest) =>
    "\x7b" ++ memberLines (depth + 1) (member :: rest) ++ indentation depth ++ "\x7d"
  | json => text json

def itemLines (depth : Nat) : List Json → String
  | [] => ""
  | [item] => indentation depth ++ linesText depth item
  | item :: rest => indentation depth ++ linesText depth item ++ "," ++ itemLines depth rest

def memberLines (depth : Nat) : List (JsonText × Json) → String
  | [] => ""
  | [(name, value)] =>
    indentation depth ++ stringText (name.getD "") ++ ": " ++ linesText depth value
  | (name, value) :: rest =>
    indentation depth ++ stringText (name.getD "") ++ ": " ++ linesText depth value ++ "," ++
      memberLines depth rest

end

def inNameOrder : Json → Json
  | .object members => .object (members.mergeSort fun a b => a.1.getD "" ≤ b.1.getD "")
  | json => json

end Json

end LeaseLock
