import LeaseLock.Json.Token

namespace LeaseLock

namespace Json

inductive Frame
  | array (items : List Json)
  | object (members : List (JsonText × Json))
  | member (members : List (JsonText × Json)) (name : JsonText)
  deriving Repr

inductive Expect
  | value
  | firstItem
  | firstName
  | name
  | colon (name : JsonText)
  | separator
  | nothing (document : Json)
  deriving Repr

structure Machine where
  frames : List Frame
  expect : Expect
  deriving Repr

namespace Machine

def start : Machine := ⟨[], .value⟩

def push (frames : List Frame) (value : Json) : Option Machine :=
  match frames with
  | [] => some ⟨[], .nothing value⟩
  | .array items :: rest => some ⟨.array (value :: items) :: rest, .separator⟩
  | .member members name :: rest => some ⟨.object ((name, value) :: members) :: rest, .separator⟩
  | .object _ :: _ => none

def closeArray (frames : List Frame) : Option Machine :=
  match frames with
  | .array items :: rest => push rest (.array items.reverse)
  | _ => none

def closeObject (frames : List Frame) : Option Machine :=
  match frames with
  | .object members :: rest => push rest (.object members.reverse)
  | _ => none

def takeValue (frames : List Frame) : JsonToken → Option Machine
  | .null => push frames .null
  | .bool b => push frames (.bool b)
  | .number n => push frames (.number n)
  | .string text => push frames (.string text)
  | .openArray => some ⟨.array [] :: frames, .firstItem⟩
  | .openObject => some ⟨.object [] :: frames, .firstName⟩
  | _ => none

def step (m : Machine) (token : JsonToken) : Option Machine :=
  match m.expect with
  | .value => takeValue m.frames token
  | .firstItem =>
    match token with
    | .closeArray => closeArray m.frames
    | token => takeValue m.frames token
  | .firstName =>
    match token with
    | .closeObject => closeObject m.frames
    | .string text => some ⟨m.frames, .colon text⟩
    | _ => none
  | .name =>
    match token with
    | .string text => some ⟨m.frames, .colon text⟩
    | _ => none
  | .colon name =>
    match token, m.frames with
    | .colon, .object members :: rest => some ⟨.member members name :: rest, .value⟩
    | _, _ => none
  | .separator =>
    match token, m.frames with
    | .comma, .array _ :: _ => some ⟨m.frames, .value⟩
    | .comma, .object _ :: _ => some ⟨m.frames, .name⟩
    | .closeArray, frames => closeArray frames
    | .closeObject, frames => closeObject frames
    | _, _ => none
  | .nothing _ => none

def document? (m : Machine) : Option Json :=
  match m.expect with
  | .nothing document => some document
  | _ => none

end Machine

def ofTokens? (tokens : List JsonToken) : Option Json := do
  let m ← tokens.foldlM Machine.step Machine.start
  m.document?

def ofText? (text : String) : Option Json := do
  ofTokens? (← JsonToken.split? text.toList)

end Json

end LeaseLock
