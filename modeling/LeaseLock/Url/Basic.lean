import LeaseLock.Number.Digits

namespace LeaseLock.Url

def isMargin (c : Char) : Bool := c ≤ ' '

def isIgnored (c : Char) : Bool := c = '\t' || c = '\n' || c = '\r'

def stripped (url : String) : List Char :=
  let cs := url.toList.dropWhile isMargin
  (cs.reverse.dropWhile isMargin).reverse.filter fun c => !isIgnored c

def isSchemeChar (c : Char) : Bool := c.isAlphanum || c = '+' || c = '-' || c = '.'

def splitScheme? (cs : List Char) : Option (String × List Char) :=
  match cs.span isSchemeChar with
  | (c :: rest, ':' :: after) =>
    if c.isAlpha then some (String.ofList (lowerAscii (c :: rest)), after) else none
  | _ => none

def isForbiddenInHost (c : Char) : Bool :=
  c = '\x00' || " #/:<>?@[\\]^|".toList.contains c

def isByteText (cs : List Char) : Bool :=
  match natOfText? cs with
  | some n => n < 256 && (cs.length == 1 || cs.head? != some '0')
  | none => false

/-- The number of 16-bit groups in a run of groups, of which the last may be an IPv4 address. -/
def groups? : List (List Char) → Option Nat
  | [] => some 0
  | [last] =>
    let bytes := last.splitOn '.'
    if 1 ≤ last.length ∧ last.length ≤ 4 ∧ last.all fun c => (hexDigit? c).isSome then some 1
    else if bytes.length = 4 ∧ bytes.all isByteText then some 2
    else none
  | group :: rest =>
    if 1 ≤ group.length ∧ group.length ≤ 4 ∧ group.all fun c => (hexDigit? c).isSome then
      (groups? rest).map (· + 1)
    else none

def groupsOf? (cs : List Char) : Option Nat :=
  if cs.isEmpty then some 0 else groups? (cs.splitOn ':')

def splitGap? : List Char → Option (List Char × List Char)
  | ':' :: ':' :: rest => some ([], rest)
  | c :: rest => (splitGap? rest).map fun (before, after) => (c :: before, after)
  | [] => none

def isIpv6 (cs : List Char) : Bool :=
  match splitGap? cs with
  | none => groupsOf? cs == some 8
  | some (before, after) =>
    match groupsOf? before, groupsOf? after with
    | some m, some n => m + n ≤ 7 && !before.contains '.'
    | _, _ => false

def isHost (cs : List Char) : Bool :=
  match cs with
  | '[' :: rest => rest.getLast? == some ']' && isIpv6 rest.dropLast
  | cs => !cs.any isForbiddenInHost

def isService (cs : List Char) : Bool :=
  let (digits, rest) := cs.span isDigit
  ofDigits digits < UInt16.size && (rest.isEmpty || rest.head? == some '\\')

def hostLength (inBrackets : Bool) : List Char → Nat
  | [] => 0
  | c :: rest =>
    if c = ':' ∧ !inBrackets then 0
    else hostLength (if c = '[' then true else if c = ']' then false else inBrackets) rest + 1

def isHostWithService (hasUser : Bool) (cs : List Char) : Bool :=
  let host := cs.take (hostLength false cs)
  let rest := cs.drop (hostLength false cs)
  isHost host && isService (rest.drop 1) && (!host.isEmpty || (rest.isEmpty && !hasUser))

def splitUser? (cs : List Char) : Option (List Char × List Char) :=
  if cs.contains '@' then
    let host := (cs.reverse.takeWhile (· ≠ '@')).reverse
    some (cs.take (cs.length - host.length - 1), host)
  else none

def isAuthority (cs after : List Char) : Bool :=
  match splitUser? cs with
  | none => isHostWithService false cs
  | some ([], host) => (!host.isEmpty || after.isEmpty) && isHostWithService false host
  | some (user, host) => isHostWithService (user != [':']) host

def scheme? (url : String) : Option String :=
  match splitScheme? (stripped url) with
  | some (scheme, '/' :: '/' :: rest) =>
    let (authority, after) := rest.span fun c => c ≠ '/' ∧ c ≠ '?' ∧ c ≠ '#'
    if isAuthority authority after then some scheme else none
  | some (scheme, _) => some scheme
  | none => none

end LeaseLock.Url
