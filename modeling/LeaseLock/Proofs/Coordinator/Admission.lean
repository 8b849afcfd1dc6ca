import LeaseLock.Proofs.Coordinator.Closing
import LeaseLock.Proofs.Coordinator.Retry
import LeaseLock.Proofs.Lock.Demand

namespace LeaseLock

abbrev Replies := List Exchange → (effect : Effect) → effect.Reply

namespace Replies

variable {replies : Replies} {heard : List Exchange} {e : Exchange}

def hear (replies : Replies) (heard : List Exchange) : Program α → List Exchange × α
  | .done answer => (heard, answer)
  | Interaction.ask effect next =>
    hear replies (heard ++ [⟨effect, replies heard effect⟩]) (next (replies heard effect))

theorem hear_done (answer : α) : replies.hear heard (.done answer) = (heard, answer) := rfl

theorem hear_ask (effect : Effect) (f : effect.Reply → Program α) :
    replies.hear heard (Program.ask effect >>= f) =
      replies.hear (heard ++ [⟨effect, replies heard effect⟩]) (f (replies heard effect)) := rfl

theorem hear_bind (x : Program α) (f : α → Program β) :
    replies.hear heard (x >>= f) =
      replies.hear (replies.hear heard x).1 (f (replies.hear heard x).2) := by
  induction x generalizing heard with
  | done answer => rfl
  | ask effect next ih => exact ih _

theorem mem_hear (h : e ∈ heard) (x : Program α) : e ∈ (replies.hear heard x).1 := by
  induction x generalizing heard with
  | done answer => exact h
  | ask effect next ih => exact ih _ (List.mem_append_left _ h)

end Replies

def ReplySequence.replies (c : ReplySequence) : Replies := fun heard effect =>
  c.respond (heard.map fun e => e.effect) effect

def CallsStore (x : Program α) : Prop :=
  ∀ (replies : Replies) (heard : List Exchange),
    ∃ e ∈ (replies.hear heard x).1, e.effect.isCall = true

namespace CallsStore

theorem of_call {limit : Option Span} {call : Call} (f : CallReply call.Answer → Program α) :
    CallsStore (Program.ask (.call limit call) >>= f) := by
  intro replies heard
  rw [Replies.hear_ask]
  exact ⟨⟨.call limit call, replies heard _⟩, Replies.mem_hear (by simp) _, rfl⟩

theorem of_ask {effect : Effect} {f : effect.Reply → Program α} (h : ∀ reply, CallsStore (f reply)) :
    CallsStore (Program.ask effect >>= f) :=
  fun replies _ => h _ replies _

theorem bind {x : Program α} (h : CallsStore x) (f : α → Program β) : CallsStore (x >>= f) := by
  intro replies heard
  obtain ⟨e, he, hcall⟩ := h replies heard
  rw [Replies.hear_bind]
  exact ⟨e, Replies.mem_hear he _, hcall⟩

end CallsStore

theorem Acquisition.callsStore_run (a : Acquisition) (attempt left : Nat) :
    CallsStore (a.run attempt left) := by
  have htry : CallsStore a.tryOnce := .of_ask fun _ => .of_call _
  cases left with
  | zero => exact htry.bind _
  | succ left => exact htry.bind _

namespace Request

variable {r : Request}

def argumentDemands : Request → List Demand
  | .acquire key terms => keyDemand key :: ttlDemand terms.ttl :: terms.backoff.demands
  | .release token => [keyDemand token.key]
  | .renew token ttl => [keyDemand token.key, ttlDemand ttl]
  | .isHeld token => [keyDemand token.key]

def demands (r : Request) (closed : Bool) : List Demand :=
  r.argumentDemands ++ [⟨closed = false, .closed⟩]

theorem enforces_check (r : Request) : Enforces r.check r.argumentDemands := by
  cases r with
  | acquire key terms => exact (enforces_checkKey key).seq terms.enforces_check
  | release token => exact enforces_checkKey token.key
  | renew token ttl => exact (enforces_checkKey token.key).seq (enforces_checkTtl ttl)
  | isHeld token => exact enforces_checkKey token.key

theorem program_of_ok (c : Coordinator) (h : r.check = .ok ()) :
    ∃ next, r.program c = Program.whenOpen next ∧ CallsStore next := by
  cases r with
  | acquire key terms =>
    rw [program, Coordinator.acquire, Program.guarded_guarded]
    rw [check] at h
    rw [h]
    refine ⟨_, rfl, ?_⟩
    refine .of_ask fun leaseId => .of_ask fun nonce => .of_ask fun started => ?_
    exact Acquisition.callsStore_run _ _ _
  | release token =>
    rw [program, Coordinator.release, show checkKey token.key = .ok () from h]
    exact ⟨_, rfl, (CallsStore.of_call _).bind _⟩
  | renew token ttl =>
    rw [program, Coordinator.renew, Program.guarded_guarded]
    rw [check] at h
    rw [h]
    exact ⟨_, rfl, (CallsStore.of_call _).bind _⟩
  | isHeld token =>
    rw [program, Coordinator.isHeld, show checkKey token.key = .ok () from h]
    exact ⟨_, rfl, .of_call _⟩

def permit (r : Request) (closed : Bool) : Except Fault Unit := do
  r.check
  if closed = false then .ok () else .error .closed

theorem enforces_permit (r : Request) (closed : Bool) : Enforces (r.permit closed) (r.demands closed) :=
  r.enforces_check.seq (enforces_one Iff.rfl)

theorem hear_of_admitted {replies : Replies} (c : Coordinator)
    (h : r.permit (replies [] .isClosed) = .ok ()) :
    ∃ e ∈ (replies.hear [] (r.program c)).1, e.effect.isCall = true := by
  rw [permit] at h
  cases hcheck : r.check with
  | error fault =>
    rw [hcheck] at h
    cases h
  | ok _ =>
    obtain ⟨next, hprogram, hcalls⟩ := program_of_ok c hcheck
    rw [hcheck] at h
    cases hclosed : replies [] .isClosed with
    | true =>
      rw [hclosed] at h
      cases h
    | false =>
      rw [hprogram, Program.whenOpen, Replies.hear_ask, hclosed]
      exact hcalls replies _

theorem hear_of_refused {replies : Replies} (c : Coordinator) {fault : Fault}
    (h : r.permit (replies [] .isClosed) = .error fault) :
    (replies.hear [] (r.program c)).2 = .failed fault ∧
      ∀ e ∈ (replies.hear [] (r.program c)).1, e.effect = .isClosed := by
  rw [permit] at h
  cases hcheck : r.check with
  | error first =>
    rw [hcheck] at h
    cases h
    rw [program_of_error hcheck, Replies.hear_done]
    exact ⟨rfl, by simp⟩
  | ok _ =>
    obtain ⟨next, hprogram, -⟩ := program_of_ok c hcheck
    rw [hcheck] at h
    cases hclosed : replies [] .isClosed with
    | false =>
      rw [hclosed] at h
      cases h
    | true =>
      rw [hclosed] at h
      cases h
      rw [hprogram, Program.whenOpen, Replies.hear_ask, hclosed]
      refine ⟨rfl, ?_⟩
      intro e he
      obtain rfl := List.mem_singleton.mp he
      rfl

/-- An operation calls the store just if all its demands are met. It fails by the first that is not,
with no call, no measurement and no change to any store. -/
theorem callsStore_iff_met (c : Coordinator) (r : Request) (replies : Replies) :
    ((∃ e ∈ (replies.hear [] (r.program c)).1, e.effect.isCall = true) ↔
      ∀ d ∈ r.demands (replies [] .isClosed), d.met) ∧
    ∀ before d after, r.demands (replies [] .isClosed) = before ++ d :: after →
      (∀ earlier ∈ before, earlier.met) → ¬d.met →
      (replies.hear [] (r.program c)).2 = .failed d.fault ∧
        (∀ e ∈ (replies.hear [] (r.program c)).1, e.effect = .isClosed) ∧
        ∀ (b : Backing) (w : EffectInput), ∀ e ∈ (replies.hear [] (r.program c)).1,
          (b.respond w e.effect).2 = b := by
  have henforces := r.enforces_permit (replies [] .isClosed)
  constructor
  · rw [← henforces.ok_iff]
    cases hpermit : r.permit (replies [] .isClosed) with
    | ok _ => simpa using hear_of_admitted c hpermit
    | error fault =>
      obtain ⟨-, hquiet⟩ := hear_of_refused c hpermit
      simp only [reduceCtorEq, iff_false, not_exists, not_and]
      intro e he
      rw [hquiet e he]
      exact Bool.false_ne_true
  · intro before d after hdemands hbefore hd
    rw [hdemands] at henforces
    obtain ⟨houtcome, hquiet⟩ := hear_of_refused c (henforces.error_of_first hbefore hd)
    refine ⟨houtcome, hquiet, ?_⟩
    intro b w e he
    rw [hquiet e he]
    rfl

theorem callsStore_iff_met_wrong_key :
    (Coordinator.secondTry.replies.hear []
        ((acquire "job!" { Terms.standard with ttl := .zero }).program .standard)).2 =
      .failed (.invalidKey "job!") ∧
    ∃ e ∈ (Coordinator.secondTry.replies.hear []
        ((release ⟨"job", "lease", .epoch, "nonce"⟩).program .standard)).1,
      e.effect.isCall = true := by
  constructor
  · have hwrong : ¬(keyDemand "job!").met := by
      intro hmet
      exact absurd (hmet.2.2 '!' (by decide)) (by decide)
    obtain ⟨-, hfirst⟩ := callsStore_iff_met .standard
      (acquire "job!" { Terms.standard with ttl := .zero }) Coordinator.secondTry.replies
    exact (hfirst [] _ _ rfl (by simp) hwrong).1
  · apply (callsStore_iff_met .standard (release ⟨"job", "lease", .epoch, "nonce"⟩)
      Coordinator.secondTry.replies).1.mpr
    have hkey : (keyDemand "job").met :=
      (enforces_checkKey "job").ok_iff.mp rfl _ List.mem_cons_self
    have hopen : Coordinator.secondTry.replies [] .isClosed = false := rfl
    simp [demands, argumentDemands, hkey, hopen]

end Request

end LeaseLock
