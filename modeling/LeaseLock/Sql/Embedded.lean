import LeaseLock.Url.Percent

namespace LeaseLock.Sql

structure Embedded where
  fileName : String
  inMemory : Bool
  immutable : Bool
  access : Option String
  deriving DecidableEq, Repr

namespace Embedded

def memoryName : String := ":memory:"

def dropRepeated (start : List Char) (cs : List Char) : List Char :=
  if h : start ≠ [] ∧ start.isPrefixOf cs then
    have : cs.length - start.length < cs.length := by
      have hlt := List.length_pos_iff.2 h.1
      have hle := (List.isPrefixOf_iff_prefix.1 h.2).length_le
      omega
    dropRepeated start (cs.drop start.length)
  else cs
  termination_by cs.length

def body (url : String) : List Char :=
  dropRepeated "sqlite:".toList (dropRepeated "sqlite://".toList url.toList)

def setOption? (e : Embedded) (name value : String) : Option Embedded :=
  match name, value with
  | "mode", "ro" | "mode", "rw" | "mode", "rwc" => some e
  | "mode", "memory" => some { e with inMemory := true }
  | "cache", "private" | "cache", "shared" => some e
  | "immutable", "true" | "immutable", "1" => some { e with immutable := true }
  | "immutable", "false" | "immutable", "0" => some { e with immutable := false }
  | "vfs", name => some { e with access := some name }
  | _, _ => none

def ofUrl? (url : String) : Option Embedded := do
  let (name, query) := Url.Percent.splitAt '?' (body url)
  let e : Embedded ←
    if String.ofList name = memoryName then some ⟨"", true, false, none⟩
    else (Url.Percent.decode? name).map fun name => ⟨name, false, false, none⟩
  (Url.Percent.parameters query).foldlM (fun e (name, value) => do
    e.setOption? (← Url.Percent.field? name) (← Url.Percent.field? value)) e

def accesses : List String := ["unix", "unix-none", "unix-dotfile", "unix-excl", "memdb"]

/-- Whether a database needs no file, given its name without options: it lives in memory or, without
a name, in a temporary place. -/
def isFileless (e : Embedded) : Bool :=
  (e.inMemory || e.fileName == memoryName || e.fileName.isEmpty || e.access == some "memdb") &&
    e.access.all accesses.contains

def uriText? (cs : List Char) : Option String :=
  Url.Percent.text? ((Url.Percent.bytes cs).takeWhile (· ≠ 0))

def setUriOption? (e : Embedded) (name value : Option String) : Option Embedded :=
  match name, value with
  | some "mode", some "memory" => some { e with inMemory := true }
  | some "mode", some "ro" | some "mode", some "rw" => some { e with inMemory := false }
  | some "cache", some "private" | some "cache", some "shared" => some e
  | some "mode", _ | some "cache", _ => none
  | some "vfs", name => some { e with access := name.getD "" }
  | _, _ => some e

def uriPath? (cs : List Char) : Option (List Char) :=
  match cs with
  | '/' :: '/' :: rest =>
    let (authority, path) := rest.span (· ≠ '/')
    if authority.isEmpty || authority == "localhost".toList then some path else none
  | cs => some cs

def resolve? (e : Embedded) : Option Embedded :=
  match e.fileName.toList with
  | 'f' :: 'i' :: 'l' :: 'e' :: ':' :: rest =>
    if e.immutable || e.access.isSome then some e
    else do
      let rest ← uriPath? rest
      let (path, query) := Url.Percent.splitAt '?' (rest.takeWhile (· ≠ '#'))
      let e := { e with fileName := (uriText? path).getD "\ufffd" }
      (Url.Percent.parameters query).foldlM (fun e (name, value) =>
        e.setUriOption? (uriText? name) (uriText? value)) e
  | _ => some e

def opens (e : Embedded) : Bool :=
  !e.fileName.toList.contains '\x00' && (e.resolve?.map isFileless).getD false

end Embedded

end LeaseLock.Sql
