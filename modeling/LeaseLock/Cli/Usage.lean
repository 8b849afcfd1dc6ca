import LeaseLock.Cli.Arguments

namespace LeaseLock.Cli

def version : String := "leasehold 0.1.0"

namespace Verb

def description : Verb → String
  | .acquire => "Acquire a lock and print its token"
  | .release => "Release a lock"
  | .refresh => "Extend a lock and print the new token"
  | .status => "Report whether the token's key is currently held"
  | .health => "Probe the lock store"

def usage (verb : Verb) : String :=
  let key := if (Scope.inner verb).takesKey then " <KEY>" else ""
  let switches := (Switch.ofVerb verb).map fun s => " [--" ++ s.name ++ " <VALUE>]"
  verb.name ++ key ++ String.join switches

end Verb

def help : String :=
  "\n".intercalate ("Acquire, refresh and release lease-based distributed locks" ::
    Verb.all.flatMap fun verb => ["", "leasehold " ++ verb.usage, "  " ++ verb.description])

def Refusal.message : Refusal → String
  | .noArguments | .help => Cli.help
  | .version => Cli.version
  | .missingVerb => "a command is missing"
  | .unknownVerb => "there is no such command"
  | .unknownArgument => "unexpected argument"
  | .missingValue => "an option has no value"
  | .surplusValue => "an option takes no value"
  | .conflict => "an option is given twice"
  | .missingArgument => "a required argument is missing"
  | .invalidValue reason => "invalid value: " ++ reason

end LeaseLock.Cli
