namespace LeaseLock.Yaml

inductive Token
  | versionDirective
  | tagDirective (handle start : String)
  | documentStart
  | documentEnd
  | listStart
  | tableStart
  | blockEnd
  | item
  | flowListStart
  | flowListEnd
  | flowTableStart
  | flowTableEnd
  | separator
  | key
  | value
  | anchor (name : String)
  | alias (name : String)
  | tag (handle suffix : String)
  | plain (text : String)
  | quoted (text : String)
  deriving DecidableEq, Repr

end LeaseLock.Yaml
