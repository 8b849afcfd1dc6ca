import LeaseLock.Rehearsal.World

/-!
What happens in a rehearsal: changes of the world, each at one moment, with waits between them.
Activities side by side take turns in rounds. In a round each of them in order goes on until it has
to wait; when none can go on, time passes until the first wait can end, and the next round begins.
-/

namespace LeaseLock.Rehearsal

inductive Moment
  | look
  | put (world : World)
  /-- Waits until a point of the waiting time. The end of the wait counts as so many waits: as one,
  or as none where waits of activities side by side end in it. -/
  | wait (tick waits : Nat)

@[reducible] def Moment.Reply : Moment → Type
  | .look => World
  | .put _ => Unit
  | .wait _ _ => Unit

abbrev Activity := Interaction Moment Moment.Reply

namespace Activity

def look : Activity World := .query Moment.look

def change (f : World → α × World) : Activity α :=
  .ask .look fun w =>
    let (a, w) := f w
    .ask (.put w) fun _ => .done a

def update (f : World → World) : Activity Unit := change fun w => ((), f w)

def sleep (ms : Nat) : Activity Unit :=
  .ask .look fun w => .ask (.wait (w.slept + min ms longestWait) 1) .done

/-- A call on the store under a script. When the delay ends with the limit, the call still counts
as answered. -/
def callUnder (limit : Option Span) (act : Act) (call : Call) :
    Activity (CallReply call.Answer) := do
  let inTime (ms : Nat) : Bool :=
    limit.all fun limit => min ms longestWait ≤ min limit.ceilMillis longestWait
  let waitOut : Activity (CallReply call.Answer) := do
    sleep ((limit.map Span.ceilMillis).getD 0)
    return .timedOut
  match act with
  | .delay ms =>
    if inTime ms then
      sleep ms
      return .answered (← change (World.callStore call))
    else waitOut
  | .delayAfter ms =>
    match ← change (World.callStore call) with
    | .overflow => return .answered .overflow
    | outcome =>
      if inTime ms then
        sleep ms
        return .answered outcome
      else waitOut
  | act =>
    match act.answer? call with
    | some outcome => return .answered outcome
    | none => return .answered (← change (World.callStore call))

def middleWord : UInt64 := 0x8000000000000000

def perform : (effect : Effect) → Activity effect.Reply
  | .call limit call => do callUnder limit (← change World.nextAct) call
  | .pause delay => sleep delay.ceilMillis
  | .drawWord => return middleWord
  | .mint => change World.mint
  | .readClock => do return (← look).now
  | .count counter => update fun w => { w with counted := counter :: w.counted }
  | .recordDuration seconds => update fun w => { w with durations := seconds :: w.durations }
  | .report event => update fun w => w.report [event]
  | .isClosed => do return (← look).closed
  | .markClosed => change fun w => (w.closed, { w with closed := true })

def ofProgram : Program α → Activity α
  | .done a => .done a
  | Interaction.ask effect next => (perform effect).bind fun reply => ofProgram (next reply)

def run (w : World) : Activity α → α × World
  | .done a => (a, w)
  | .ask .look next => run w (next w)
  | .ask (.put w) next => run w (next ())
  | .ask (.wait tick waits) next =>
    run ((if w.canWake tick then w else w.nextRound tick).wake waits) (next ())

/-- An activity beside one that waits until a tick. When neither can go on, both wait until the
first of them can, and the sleeper is looked at first. -/
def besideSleeper (tick waits : Nat) (sleeper : Activity (Option α))
    (woken : Activity (Option β) → Activity (Option (α × β))) :
    Activity (Option β) → Activity (Option (α × β))
  | .done none => .done none
  | .done (some b) => sleeper.bind fun a => .done (a.map (·, b))
  | .ask .look next => .ask .look fun w => besideSleeper tick waits sleeper woken (next w)
  | .ask (.put w) next =>
    .ask (.put w) fun reply => besideSleeper tick waits sleeper woken (next reply)
  | .ask (.wait otherTick otherWaits) next =>
    let other := besideSleeper tick waits sleeper woken (next ())
    .ask .look fun w =>
      if w.canWake otherTick then .ask (.put (w.wake otherWaits)) fun _ => other
      else
        .ask (.wait (min tick otherTick) 0) fun _ => .ask .look fun w =>
          if w.canWake tick then
            .ask (.put (w.wake waits)) fun _ => woken (.ask (.wait otherTick otherWaits) next)
          else .ask (.put (w.wake otherWaits)) fun _ => other

def beside : Activity (Option α) → Activity (Option β) → Activity (Option (α × β))
  | .done none => fun _ => .done none
  | .done (some a) => fun other => other.bind fun b => .done (b.map (a, ·))
  | .ask .look next => fun other => .ask .look fun w => beside (next w) other
  | .ask (.put w) next => fun other => .ask (.put w) fun reply => beside (next reply) other
  | .ask (.wait tick waits) next => fun other => .ask .look fun w =>
    if w.canWake tick then .ask (.put (w.wake waits)) fun _ => beside (next ()) other
    else besideSleeper tick waits (.ask (.wait tick waits) next) (beside (next ())) other

def race : List (Activity (Option α)) → Activity (Option (List α))
  | [] => .done (some [])
  | first :: rest => (beside first (race rest)).bind fun answers =>
    .done (answers.map fun (a, as) => a :: as)

end Activity

end LeaseLock.Rehearsal
