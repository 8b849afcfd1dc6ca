import LeaseLock.Cli.Run
import LeaseLock.Rehearsal.Activity

namespace LeaseLock.Rehearsal

structure TokenRef where
  slot : Option String
  key : Option String
  leaseId : Option String
  nonce : Option String
  deriving DecidableEq, Repr

inductive Step
  | acquire (key : String) (terms : Terms) (slot : Option String)
  | release (token : TokenRef)
  | renew (token : TokenRef) (ttl : Span) (slot : Option String)
  | isHeld (token : TokenRef)
  | remaining (token : TokenRef)
  | health
  | close
  | wait (ms : Nat)
  | advance (ns : Int)
  | script (acts : List Act)
  | command (arguments : List String) (slot : Option String)
  | measurements
  | reports
  | storeAcquire (claim : Claim)
  | storeRelease (key leaseId nonce : String)
  | storeRenew (key leaseId nonce : String) (ttl : Span) (slot : Option String)
  | storeIsHeld (key : String)
  | storeProbe
  | storeClose
  | lease (key : String)
  | purge
  | row (key : String)
  | setRow (key : String) (validUntil ttlMillis : Option Int)
  | dropTable
  | race (lists : List (List Step))

structure Timed (α : Type) where
  answer : α
  now : Int
  place : Nat

inductive Answer
  | done
  | token (token : Token)
  | released
  | holding (holding : Holding)
  | remaining (span : Span)
  | health (report : HealthReport)
  | closed (closed : Bool)
  | ending (ending : Cli.Ending)
  | refusal (refusal : Cli.Refusal)
  | measurements (totals : List (Counter × Nat)) (durations : List Binary64)
  | reports (events : List Event)
  | grant (grant : Grant)
  | removed (count : Nat)
  | renewal (token : Option Token)
  | use (use : PoolUse)
  | storeClosed
  | lease (lease : Option Lease)
  | purged (count : Nat) (empty : Bool)
  | row (key : String) (row : Option Sql.Row)
  | changed (rows : Nat)
  | wrongStore
  | unreadable
  | failed (fault : Fault)
  | overflow
  | race (lists : List (List (Timed Answer)))

namespace Answer

def ofOutcome (answer : α → Answer) : Outcome α → Answer
  | .ok a => answer a
  | .failed fault => .failed fault
  | .overflow => .overflow

def isOverflow : Answer → Bool
  | .overflow => true
  | .ending .overflow => true
  | _ => false

end Answer

namespace World

def reference? (text : String) : Option (String × String) :=
  match text.toList with
  | '$' :: rest =>
    match rest.reverse.span (· ≠ '.') with
    | (_, []) => none
    | (part, _ :: slot) => some (String.ofList slot.reverse, String.ofList part.reverse)
  | _ => none

def identifier (w : World) (text : String) : String :=
  match reference? text with
  | none => text
  | some (slot, part) =>
    match w.slots.find? slot with
    | none => text
    | some token =>
      if part = "lease" then token.leaseId
      else if part = "nonce" then token.nonce
      else text

def epoch : Instant := (Instant.ofNanos? 0).getD default

def noToken : Token := ⟨"none", "none", epoch, "none"⟩

def resolve (w : World) (ref : TokenRef) : Token :=
  let token := (ref.slot.bind w.slots.find?).getD noToken
  { token with
    key := ref.key.getD token.key
    leaseId := (ref.leaseId.map w.identifier).getD token.leaseId
    nonce := (ref.nonce.map w.identifier).getD token.nonce }

def argument (w : World) (text : String) : String :=
  match text.toList with
  | '@' :: slot => ((w.slots.find? (String.ofList slot)).map Token.text).getD text
  | _ => text

def totals (w : World) : List (Counter × Nat) :=
  (Counter.all.map fun c => (c, w.total c)).filter fun entry => 0 < entry.2

def table? (w : World) : Option Sql.LeaseTable :=
  match w.backing with
  | .sql ⟨_, _, .open database⟩ => database.table
  | _ => none

def withTable (w : World) (table : Option Sql.LeaseTable) : World :=
  match w.backing with
  | .sql ⟨settings, statements, .open database⟩ =>
    let connection : Sql.Connection := .open { database with table := table }
    { w with backing := .sql ⟨settings, statements, connection⟩ }
  | _ => w

def withRegistry (w : World) (next : Registry → Answer × World) : Answer × World :=
  match w.backing with
  | .memory registry => next registry
  | .sql _ => (.wrongStore, w)

def withDatabase (w : World) (next : Sql.LeaseTable → Answer × World) : Answer × World :=
  match w.backing with
  | .memory _ => (.wrongStore, w)
  | .sql _ =>
    match w.table? with
    | some table => next table
    | none => (.unreadable, w)

def storeAnswer (w : World) (call : Call) (answer : call.Answer → Answer) : Answer × World :=
  let (outcome, w) := w.callStore call
  (.ofOutcome answer outcome, w)

def renewStore (w : World) (key leaseId nonce : String) (ttl : Span) (slot : Option String) :
    Answer × World :=
  match w.callStore (.renew key leaseId nonce ttl) with
  | (.ok (some renewal), w) =>
    let token : Token := ⟨key, leaseId, renewal.validUntil, renewal.nonce⟩
    (.renewal (some token), w.keep slot token)
  | (outcome, w) => (.ofOutcome (fun _ => .renewal none) outcome, w)

def purge (w : World) : Answer × World :=
  w.withRegistry fun registry =>
    match w.instant with
    | .ok now =>
      let (count, registry) := registry.purge now
      (.purged count (registry.leases.size = 0),
        { w with backing := .memory registry }.report (Registry.purgeEvents count))
    | _ => (.overflow, w)

def readRow (w : World) (key : String) : Answer × World :=
  w.withDatabase fun table =>
    match table.find? key with
    | none => (.row key none, w)
    | some row => (if row.isReadable then .row key (some row) else .unreadable, w)

def setRow (w : World) (key : String) (validUntil ttlMillis : Option Int) : Answer × World :=
  w.withDatabase fun table =>
    let (count, table) := table.update key fun row => { row with
      validUntil := validUntil.getD row.validUntil
      ttlMillis := ttlMillis.getD row.ttlMillis }
    (.changed count, w.withTable (some table))

def answerAtOnce (w : World) : Step → Answer × World
  | .remaining token =>
    (.ofOutcome (fun now => .remaining ((w.resolve token).remainingAt now)) w.instant, w)
  | .advance ns => (.done, { w with now := w.now + ns })
  | .script acts => (.done, { w with script := w.script ++ acts })
  | .measurements => (.measurements w.totals w.durations.reverse, w)
  | .reports => (.reports w.reports.reverse, { w with reports := [] })
  | .storeAcquire claim =>
    w.storeAnswer (.acquire { claim with
      leaseId := w.identifier claim.leaseId
      nonce := w.identifier claim.nonce }) .grant
  | .storeRelease key leaseId nonce =>
    w.storeAnswer (.release key (w.identifier leaseId) (w.identifier nonce)) .removed
  | .storeRenew key leaseId nonce ttl slot =>
    w.renewStore key (w.identifier leaseId) (w.identifier nonce) ttl slot
  | .storeIsHeld key => w.storeAnswer (.isHeld key) .holding
  | .storeProbe => w.storeAnswer .probe .use
  | .storeClose => w.storeAnswer .close fun _ => .storeClosed
  | .lease key => w.withRegistry fun registry => (.lease (registry.leases.find? key), w)
  | .purge => w.purge
  | .row key => w.readRow key
  | .setRow key validUntil ttlMillis => w.setRow key validUntil ttlMillis
  | .dropTable => w.withDatabase fun _ => (.done, w.withTable none)
  | _ => (.done, w)

end World

namespace Step

def keepToken (slot : Option String) (outcome : Outcome Token) : Activity Answer :=
  match outcome with
  | .ok token => Activity.change fun w => (.token token, w.keep slot token)
  | .failed fault => .done (.failed fault)
  | .overflow => .done .overflow

def runCommand (c : Coordinator) (arguments : List String) (slot : Option String) :
    Activity Answer := do
  let w ← Activity.look
  match Cli.Invocation.ofArguments none (arguments.map w.argument) with
  | .error refusal => return .refusal refusal
  | .ok invocation =>
    let ending ← .ofProgram (invocation.command.run c)
    match ending with
    | .answered (.token token) => Activity.update fun w => w.keep slot token
    | _ => .done ()
    return .ending ending

def timed (answer : Answer) : Activity (Timed Answer) :=
  Activity.change fun w => (⟨answer, w.now, w.answered⟩, { w with answered := w.answered + 1 })

mutual

def activity (c : Coordinator) : Step → Activity Answer
  | .acquire key terms slot => do
    keepToken slot (← .ofProgram (Coordinator.acquire key terms))
  | .release token => do
    let w ← Activity.look
    return .ofOutcome (fun _ => .released) (← .ofProgram (c.release (w.resolve token)))
  | .renew token ttl slot => do
    let w ← Activity.look
    keepToken slot (← .ofProgram (c.renew (w.resolve token) ttl))
  | .isHeld token => do
    let w ← Activity.look
    return .ofOutcome .holding (← .ofProgram (c.isHeld (w.resolve token)))
  | .health => do return .ofOutcome .health (← .ofProgram Coordinator.health)
  | .close => do
    let outcome ← .ofProgram Coordinator.close
    let w ← Activity.look
    return .ofOutcome (fun _ => .closed w.closed) outcome
  | .wait ms => do
    Activity.sleep ms
    return .done
  | .command arguments slot => runCommand c arguments slot
  | .race lists => do
    return ((← Activity.race (activities c lists)).map Answer.race).getD .overflow
  | step => Activity.change fun w => w.answerAtOnce step

def inOrder (c : Coordinator) : List Step → Activity (Option (List (Timed Answer)))
  | [] => .done (some [])
  | step :: rest => do
    let answer ← activity c step
    if answer.isOverflow then return none
    else
      let first ← timed answer
      return (← inOrder c rest).map (first :: ·)

def activities (c : Coordinator) :
    List (List Step) → List (Activity (Option (List (Timed Answer))))
  | [] => []
  | list :: rest => inOrder c list :: activities c rest

end

end Step

end LeaseLock.Rehearsal
