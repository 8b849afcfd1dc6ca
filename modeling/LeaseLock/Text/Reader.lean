namespace LeaseLock

abbrev Reader := StateT (List Char) Option

namespace Reader

def fail : Reader α := fun _ => none

def next? : Reader (Option Char) := fun cs => some (cs.head?, cs)

def skip (n : Nat) : Reader Unit := fun cs => some ((), cs.drop n)

def takeWhile (test : Char → Bool) : Reader (List Char) := fun cs =>
  some (cs.takeWhile test, cs.dropWhile test)

def skipWhile (test : Char → Bool) : Reader Unit := fun cs => some ((), cs.dropWhile test)

def accept (word : String) : Reader Bool := fun cs =>
  if word.toList.isPrefixOf cs then some (true, cs.drop word.length) else some (false, cs)

def expect (word : String) : Reader Unit := do
  if !(← accept word) then fail

def ofOption (a : Option α) : Reader α := fun cs => a.map (·, cs)

def read? (reader : Reader α) (text : String) : Option α :=
  match reader text.toList with
  | some (a, []) => some a
  | _ => none

end Reader

end LeaseLock
