import LeaseLock.Coordinator.Effect
import LeaseLock.Lock.Lease
import LeaseLock.Rehearsal.Act
import LeaseLock.Store.Backing

namespace LeaseLock.Rehearsal

/-- No wait lasts longer than thirty years of 365 days; in milliseconds. -/
def longestWait : Nat := 946080000000

def waitsPerRound : Nat := 128

structure World where
  backing : Backing
  now : Int
  series : String
  slept : Nat := 0
  waitsLeft : Nat := waitsPerRound
  script : List Act := []
  calls : Nat := 0
  closed : Bool := false
  minted : Nat := 0
  counted : List Counter := []
  durations : List Binary64 := []
  reports : List Event := []
  slots : Keyed Token := .empty
  answered : Nat := 0

namespace World

def sleepUntil (w : World) (tick : Nat) : World :=
  { w with
    now := w.now + (tick - w.slept : Nat) * nanosPerMilli
    slept := max w.slept tick }

def canWake (w : World) (tick : Nat) : Bool := tick ≤ w.slept && 0 < w.waitsLeft

def wake (w : World) (waits : Nat) : World := { w with waitsLeft := w.waitsLeft - waits }

def nextRound (w : World) (tick : Nat) : World :=
  { w.sleepUntil tick with waitsLeft := waitsPerRound }

def occursIn (word : List Char) : List Char → Bool
  | [] => word.isEmpty
  | c :: rest => word.isPrefixOf (c :: rest) || occursIn word rest

def newSeries (text : String) : String :=
  let candidate (n : Nat) : String := zeroPadded 8 (hexText ((0x5f3759df + n) % UInt32.size))
  let candidates := (List.range (text.length + 1)).map candidate
  (candidates.find? fun word => !occursIn word.toList text.toList).getD (candidate 0)

/-- Identifiers have the form of random UUIDs of one series and differ in their last digits. -/
def mint (w : World) : String × World :=
  (w.series ++ "-0b1a-4c6d-9e2f-" ++ zeroPadded 12 (hexText w.minted),
    { w with minted := w.minted + 1 })

def nextAct (w : World) : Act × World :=
  match w.script with
  | [] => (.pass, { w with calls := w.calls + 1 })
  | act :: rest => (act, { w with calls := w.calls + 1, script := rest })

def report (w : World) (events : List Event) : World :=
  { w with reports := events.reverse ++ w.reports }

def callStore (call : Call) (w : World) : Outcome call.Answer × World :=
  let (nonce, w) := w.mint
  let result := w.backing.apply w.now nonce call
  (result.outcome, { w with backing := result.state }.report result.events)

def total (w : World) (counter : Counter) : Nat := w.counted.count counter

def instant (w : World) : Outcome Instant := .ofOption (Instant.ofClock? w.now)

def keep (w : World) (slot : Option String) (token : Token) : World :=
  match slot with
  | some name => { w with slots := w.slots.insert name token }
  | none => w

end World

end LeaseLock.Rehearsal
