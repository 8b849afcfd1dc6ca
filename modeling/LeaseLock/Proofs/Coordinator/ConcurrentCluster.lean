import LeaseLock.Proofs.Coordinator.Cluster

/-!
Coordinators whose calls on their store overlap. A call begins, which is when a closed store refuses
it, and takes effect at one later moment, while others begin and end.
-/

namespace LeaseLock

open Interaction

namespace Backing

/-- What the end of a close leaves to calls that have begun before it: no lease in memory, or a pool
that serves no statement. -/
def emptied : Backing → Backing
  | .memory registry => .memory { registry with leases := .empty }
  | .sql store => .sql { store with connection := .unreachable }

def finish (b : Backing) (reading : Int) (newNonce : String) :
    (call : Call) → Outcome call.Answer × Backing
  | .close => (.ok (), b.emptied)
  | call =>
    let result := b.applyAt reading newNonce call
    (result.outcome, result.state)

/-- What a call that has begun meets instead of its answer: its limit passes, or the database fails. -/
def interruption? (b : Backing) (fails : Bool) (limit : Option Span) (call : Call) :
    Option (CallReply call.Answer) :=
  match fails, limit, b with
  | false, some _, _ => some .timedOut
  | true, _, .sql _ => some (.answered (.failed Sql.Store.databaseFault))
  | _, _, _ => none

def conclude (b : Backing) (v : Visit) : Backing :=
  match v.service with
  | .call call => (b.finish v.reading v.newNonce call).2
  | .purge => b.purgeAt v.reading

end Backing

def Visit.call? : Visit → Option Call
  | ⟨.call call, _, _⟩ => some call
  | ⟨.purge, _, _⟩ => none

inductive JobState (α : Type)
  | ready (rest : Program α)
  | calling (limit : Option Span) (call : Call) (next : CallReply call.Answer → Program α)

def JobState.rest : JobState α → Program α
  | .ready rest => rest
  | .calling limit call next => Interaction.ask (.call limit call) next

structure ConcurrentJob where
  owner : Nat
  operation : Operation
  heard : List Exchange
  state : JobState (Outcome operation.Answer)

namespace ConcurrentJob

def hear (owner : Nat) (operation : Operation) (heard : List Exchange) (effect : Effect)
    (next : effect.Reply → Program (Outcome operation.Answer)) (reply : effect.Reply) : ConcurrentJob :=
  ⟨owner, operation, heard ++ [⟨effect, reply⟩], .ready (next reply)⟩

def calls : ConcurrentJob → List Call
  | ⟨_, _, _, .calling _ call _⟩ => [call]
  | ⟨_, _, _, .ready _⟩ => []

def result? : ConcurrentJob → Option (Σ o : Operation, Outcome o.Answer)
  | ⟨_, operation, _, .ready (.done outcome)⟩ => some ⟨operation, outcome⟩
  | _ => none

end ConcurrentJob

structure ConcurrentCluster where
  members : Nat → Coordinator
  /-- What calls that have begun reach. -/
  store : Backing
  /-- Whether a close of the store has begun, so that calls are refused. -/
  refuses : Bool
  closed : Nat → Bool
  jobs : List ConcurrentJob
  /-- The calls under way that no operation waits for. -/
  detached : List Call

namespace ConcurrentCluster

inductive Move
  | start (owner : Nat) (operation : Operation)
  /-- The next step of an operation. A call takes two. -/
  | advance (job : Nat) (w : EffectInput)
  /-- A call ends for its operation and goes on by itself. -/
  | interrupt (job : Nat) (fails : Bool)
  | begin (call : Call)
  /-- A call that no operation waits for takes effect. -/
  | finish (call : Nat) (reading : Int) (newNonce : String)
  | purge (reading : Int)

def Move.job? : Move → Option Nat
  | .advance i _ => some i
  | _ => none

theorem Move.eq_advance_of_job? {m : Move} {i : Nat} (h : m.job? = some i) : ∃ w, m = .advance i w := by
  cases m with
  | advance j w =>
    cases h
    exact ⟨w, rfl⟩
  | _ => cases h

def opened (members : Nat → Coordinator) (b : Backing) : ConcurrentCluster :=
  ⟨members, b, decide b.IsClosed, fun _ => false, [], []⟩

/-- The reply to a question that is answered at once; a call is, if it is refused. -/
def respond (s : ConcurrentCluster) (owner : Nat) (w : EffectInput) :
    (effect : Effect) → effect.Reply × ConcurrentCluster
  | .call _ call => (.answered (Backing.closedOutcome call), s)
  | .isClosed => (s.closed owner, s)
  | .markClosed => (s.closed owner, { s with closed := Function.update s.closed owner true })
  | effect => ((s.store.respond w effect).1, s)

def begin (s : ConcurrentCluster) : Call → ConcurrentCluster
  | .close => { s with refuses := true }
  | _ => s

def answer (s : ConcurrentCluster) (w : EffectInput) : ConcurrentJob → ConcurrentJob × ConcurrentCluster
  | ⟨owner, operation, heard, .calling limit call next⟩ =>
    let result := s.store.finish w.reading w.id call
    (.hear owner operation heard (.call limit call) next (.answered result.1),
      { s with store := result.2 })
  | ⟨owner, operation, heard, .ready (Interaction.ask effect next)⟩ =>
    match effect, s.refuses, next with
    | .call limit call, false, next =>
      (⟨owner, operation, heard, .calling limit call next⟩, s.begin call)
    | effect, _, next =>
      let result := s.respond owner w effect
      (.hear owner operation heard effect next result.1, result.2)
  | job => (job, s)

def interrupt (s : ConcurrentCluster) (fails : Bool) : ConcurrentJob → ConcurrentJob × List Call
  | ⟨owner, operation, heard, .calling limit call next⟩ =>
    match s.store.interruption? fails limit call with
    | some reply => (.hear owner operation heard (.call limit call) next reply, [call])
    | none => (⟨owner, operation, heard, .calling limit call next⟩, [])
  | job => (job, [])

def step (s : ConcurrentCluster) : Move → ConcurrentCluster
  | .start owner operation =>
    { s with jobs := s.jobs ++
        [⟨owner, operation, [], .ready (operation.program (s.members owner))⟩] }
  | .advance i w =>
    match s.jobs[i]? with
    | none => s
    | some job => { (s.answer w job).2 with jobs := s.jobs.set i (s.answer w job).1 }
  | .interrupt i fails =>
    match s.jobs[i]? with
    | none => s
    | some job => { s with
      jobs := s.jobs.set i (s.interrupt fails job).1
      detached := s.detached ++ (s.interrupt fails job).2 }
  | .begin call => if s.refuses then s else { s.begin call with detached := s.detached ++ [call] }
  | .finish k reading newNonce =>
    match s.detached[k]? with
    | none => s
    | some call => { s with
      store := (s.store.finish reading newNonce call).2
      detached := s.detached.eraseIdx k }
  | .purge reading => { s with store := s.store.purgeAt reading }

def run (s : ConcurrentCluster) (moves : List Move) : ConcurrentCluster := moves.foldl step s

def share (i : Nat) (moves : List Move) : Nat := (moves.filterMap Move.job?).count i

def underway (s : ConcurrentCluster) : List Call := s.jobs.flatMap ConcurrentJob.calls ++ s.detached

def Ended (s : ConcurrentCluster) (i : Nat) (operation : Operation)
    (outcome : Outcome operation.Answer) : Prop :=
  ∃ owner heard, s.jobs[i]? = some ⟨owner, operation, heard, .ready (.done outcome)⟩

variable {s : ConcurrentCluster} {i owner : Nat} {job : ConcurrentJob} {w : EffectInput}
  {operation : Operation} {heard : List Exchange}

theorem run_nil (s : ConcurrentCluster) : s.run [] = s := rfl

theorem run_append (s : ConcurrentCluster) (first second : List Move) :
    s.run (first ++ second) = (s.run first).run second := List.foldl_append

theorem started (s : ConcurrentCluster) (owner : Nat) (operation : Operation) :
    (s.step (.start owner operation)).jobs[s.jobs.length]? =
      some ⟨owner, operation, [], .ready (operation.program (s.members owner))⟩ := by
  simp only [step]
  rw [List.getElem?_append_right (Nat.le_refl _), Nat.sub_self]
  rfl

theorem jobs_begin (s : ConcurrentCluster) (call : Call) : (s.begin call).jobs = s.jobs := by
  cases call <;> rfl

theorem begin_of_ne (s : ConcurrentCluster) {call : Call} (hcall : call ≠ .close) :
    s.begin call = s := by
  cases call with
  | close => exact absurd rfl hcall
  | _ => rfl

theorem members_begin (s : ConcurrentCluster) (call : Call) : (s.begin call).members = s.members := by
  cases call <;> rfl

theorem members_respond (s : ConcurrentCluster) (owner : Nat) (w : EffectInput) (effect : Effect) :
    (s.respond owner w effect).2.members = s.members := by
  cases effect <;> rfl

theorem refuses_respond (s : ConcurrentCluster) (owner : Nat) (w : EffectInput) (effect : Effect) :
    (s.respond owner w effect).2.refuses = s.refuses := by
  cases effect <;> rfl

theorem answer_ask (h : s.refuses = true) (w : EffectInput) {effect : Effect}
    (next : effect.Reply → Program (Outcome operation.Answer)) :
    s.answer w ⟨owner, operation, heard, .ready (Interaction.ask effect next)⟩ =
      (.hear owner operation heard effect next (s.respond owner w effect).1,
        (s.respond owner w effect).2) := by
  cases effect with
  | call limit call => simp only [answer, h]
  | _ => rfl

theorem step_begin {limit : Option Span} {call : Call}
    {next : CallReply call.Answer → Program (Outcome operation.Answer)} (h : s.refuses = false)
    (hjob : s.jobs[i]? = some ⟨owner, operation, heard, .ready (Interaction.ask (.call limit call) next)⟩)
    (w : EffectInput) :
    s.step (.advance i w) = { s.begin call with
      jobs := s.jobs.set i ⟨owner, operation, heard, .calling limit call next⟩ } := by
  simp only [step, hjob, answer, h]

theorem step_end {limit : Option Span} {call : Call}
    {next : CallReply call.Answer → Program (Outcome operation.Answer)}
    (hjob : s.jobs[i]? = some ⟨owner, operation, heard, .calling limit call next⟩) (w : EffectInput) :
    s.step (.advance i w) = { s with
      store := (s.store.finish w.reading w.id call).2
      jobs := s.jobs.set i (.hear owner operation heard (.call limit call) next
        (.answered (s.store.finish w.reading w.id call).1)) } := by
  simp only [step, hjob, answer]

theorem step_giveUp {limit : Span} {call : Call}
    {next : CallReply call.Answer → Program (Outcome operation.Answer)}
    (hjob : s.jobs[i]? = some ⟨owner, operation, heard, .calling (some limit) call next⟩) :
    s.step (.interrupt i false) = { s with
      jobs := s.jobs.set i (.hear owner operation heard (.call (some limit) call) next .timedOut)
      detached := s.detached ++ [call] } := by
  simp only [step, hjob, interrupt, Backing.interruption?]

theorem step_finish {k : Nat} {call : Call} (h : s.detached[k]? = some call) (reading : Int)
    (newNonce : String) : s.step (.finish k reading newNonce) = { s with
      store := (s.store.finish reading newNonce call).2
      detached := s.detached.eraseIdx k } := by
  simp only [step, h]

theorem run_visit (h : s.refuses = false) (call : Call) (reading : Int) (newNonce : String) :
    s.run [.begin call, .finish s.detached.length reading newNonce] =
      { s.begin call with store := (s.store.finish reading newNonce call).2 } := by
  have hbegin : s.step (.begin call) = { s.begin call with detached := s.detached ++ [call] } := by
    simp only [step, h, Bool.false_eq_true, if_false]
  have hstore : (s.begin call).store = s.store := by cases call <;> rfl
  have hdetached : (s.begin call).detached = s.detached := by cases call <;> rfl
  rw [run, List.foldl_cons, List.foldl_cons, List.foldl_nil, hbegin,
    step_finish List.getElem?_concat_length]
  simp only [hstore, List.eraseIdx_append_of_length_le (Nat.le_refl _), Nat.sub_self,
    List.eraseIdx_cons_zero, List.append_nil]
  rw [← hdetached]

theorem ended_iff {outcome : Outcome operation.Answer} :
    s.Ended i operation outcome ↔
      s.jobs[i]?.bind ConcurrentJob.result? = some ⟨operation, outcome⟩ := by
  constructor
  · rintro ⟨owner, heard, hjob⟩
    rw [hjob]
    rfl
  · intro h
    obtain ⟨⟨owner, operation, heard, state⟩, hjob, hresult⟩ := Option.bind_eq_some_iff.mp h
    unfold ConcurrentJob.result? at hresult
    split at hresult
    · rename_i hsame
      cases hsame
      cases hresult
      exact ⟨_, _, hjob⟩
    · cases hresult

instance (s : ConcurrentCluster) (i : Nat) (operation : Operation)
    (outcome : Outcome operation.Answer) : Decidable (s.Ended i operation outcome) :=
  decidable_of_iff' _ ended_iff

theorem share_own {m : Move} (hown : m.job? = some i) (later : List Move) :
    share i (m :: later) = share i later + 1 := count_filterMap_own hown later

theorem share_other {m : Move} (hother : m.job? ≠ some i) (later : List Move) :
    share i (m :: later) = share i later := count_filterMap_other hother later

end ConcurrentCluster

end LeaseLock
