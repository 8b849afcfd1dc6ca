import LeaseLock.Ini.Document
import LeaseLock.Json.Document
import LeaseLock.Json5.Document
import LeaseLock.Ron.Document
import LeaseLock.Toml.Document
import LeaseLock.Yaml.Document

namespace LeaseLock.Config

inductive Format
  | toml
  | json
  | yaml
  | ini
  | ron
  | json5
  deriving DecidableEq, Repr

namespace Format

def ofEnding? (ending : String) : Option Format :=
  match ending with
  | "toml" => some .toml
  | "json" => some .json
  | "yaml" | "yml" => some .yaml
  | "ini" => some .ini
  | "ron" => some .ron
  | "json5" => some .json5
  | _ => none

def ending? (name : String) : Option String :=
  let cs := name.toList.reverse.takeWhile (· ≠ '/')
  match cs.span (· ≠ '.') with
  | (ending, '.' :: _ :: _) => some (String.ofList ending.reverse)
  | _ => none

def ofName? (name : String) : Option Format := (ending? name).bind ofEnding?

def read? : Format → String → Option Value
  | .toml => Toml.read?
  | .json => Json.read?
  | .yaml => Yaml.read?
  | .ini => Ini.read?
  | .ron => Ron.read?
  | .json5 => Json5.read?

end Format

end LeaseLock.Config
