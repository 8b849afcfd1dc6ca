import LeaseLock.Lock.Fault

namespace LeaseLock

def defaultTtl : Span := .ofSeconds 15

def minTtl : Span := .ofMillis 1

def maxTtl : Span := .ofSeconds 600

def maxKeyLength : Nat := 256

def defaultCallLimit : Span := .ofSeconds 3

def healthCallLimit : Span := .ofSeconds 2

def degradedLatency : Span := .ofMillis 500

/-- Added to the time to live of every grant for the way back to the holder. -/
def grantPadding : Span := .ofMillis 10

def marginPercent : Nat := 15

def isKeyChar (c : Char) : Bool :=
  ('a' ≤ c ∧ c ≤ 'z') ∨ ('A' ≤ c ∧ c ≤ 'Z') ∨ ('0' ≤ c ∧ c ≤ '9') ∨ c = '_' ∨ c = '-'

def isValidKey (key : String) : Bool :=
  0 < key.length && key.length ≤ maxKeyLength && key.toList.all isKeyChar

def checkKey (key : String) : Except Fault Unit :=
  if isValidKey key then .ok () else .error (.invalidKey key)

def isValidTtl (ttl : Span) : Bool := minTtl ≤ ttl ∧ ttl ≤ maxTtl

def checkTtl (ttl : Span) : Except Fault Unit :=
  if isValidTtl ttl then .ok () else .error (.invalidTtl ttl)

/-- The end of a lease in which renewal is refused: a share of its whole milliseconds, computed in a
64-bit word. -/
def safetyMargin? (ttl : Span) : Option Span :=
  let product := ttl.millisWord.toNat * marginPercent
  if product < UInt64.size then some (.ofMillis (UInt64.ofNat (product / 100))) else none

end LeaseLock
