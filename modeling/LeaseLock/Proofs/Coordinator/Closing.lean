import LeaseLock.Proofs.Coordinator.Cluster

namespace LeaseLock

open Interaction

/-- Calls find the store closed. The number says how many questions are left. -/
def refusing : Contract Effect Effect.Reply Nat where
  permits left _ := 0 < left
  allows effect reply :=
    match effect, reply with
    | .call _ call, reply => reply = .answered (Backing.closedOutcome call)
    | _, _ => True
  next left _ _ := left - 1

namespace Program

variable {α : Type} {check : Except Fault Unit}

theorem keeps_guarded {σ : Type} {C : Contract Effect Effect.Reply σ} {post : σ → Outcome α → Prop}
    {s : σ} {next : Program (Outcome α)} (h : check = .ok ()) (hnext : Keeps C post s next) :
    Keeps C post s (guarded check next) := by
  rw [h]
  exact hnext

theorem guarded_of_error {fault : Fault} (h : check = .error fault) (next : Program (Outcome α)) :
    guarded check next = .done (.failed fault) := by
  rw [h]
  rfl

theorem guarded_guarded (first second : Except Fault Unit) (next : Program (Outcome α)) :
    guarded first (guarded second next) = guarded (do first; second) next := by
  cases first <;> rfl

end Program

namespace Request

def check : Request → Except Fault Unit
  | .acquire key terms => do
    checkKey key
    terms.check
  | .release token => checkKey token.key
  | .renew token ttl => do
    checkKey token.key
    checkTtl ttl
  | .isHeld token => checkKey token.key

def refusal (r : Request) : Outcome r.Answer :=
  match r.check with
  | .ok _ => .failed .closed
  | .error fault => .failed fault

theorem program_of_error {c : Coordinator} {r : Request} {fault : Fault} (h : r.check = .error fault) :
    r.program c = .done (.failed fault) := by
  cases r with
  | acquire key terms => exact (Program.guarded_guarded ..).trans (Program.guarded_of_error h _)
  | release token => exact Program.guarded_of_error h _
  | renew token ttl => exact (Program.guarded_guarded ..).trans (Program.guarded_of_error h _)
  | isHeld token => exact Program.guarded_of_error h _

end Request

/-- How far an acquisition has come: it has met other holders only, it has found the store closed, or
neither. The numbers say how often, and how many questions there can be before the next attempt or
the end. -/
inductive AcquireProgress
  | clean (met left : Nat)
  | refused (left : Nat)
  | other

namespace AcquireProgress

def attempted (met : Nat) : CallReply Grant → AcquireProgress
  | .answered (.ok .contended) => .clean (met + 1) 6
  | .answered (.failed fault) => if fault = .closed then .refused 2 else .other
  | _ => .other

def Ends (key : String) (b : Backoff) : AcquireProgress → Outcome Token → Prop
  | .clean met _, outcome =>
    (met = b.retries.toNat + 1 ∧ outcome = .failed (.exhausted key b.attempts)) ∨
      (met ≤ b.retries.toNat ∧ outcome = .failed .closed) ∨
      (0 < met ∧ met ≤ b.retries.toNat ∧ outcome = .overflow ∧
        ∃ word, b.jittered? (met - 1) word = none)
  | .refused _, outcome => outcome = .failed .closed
  | .other, _ => True

end AcquireProgress

def retrying (retries : Nat) : Contract Effect Effect.Reply AcquireProgress where
  permits p effect :=
    match p, effect with
    | .clean met left, .call _ (.acquire _) => 0 < left ∧ met ≤ retries
    | .clean _ _, .call _ _ => False
    | .clean _ left, _ => 0 < left
    | .refused _, .call _ _ => False
    | .refused left, _ => 0 < left
    | .other, _ => True
  allows _ _ := True
  next p effect reply :=
    match p, effect, reply with
    | .clean met _, .call _ (.acquire _), reply => .attempted met reply
    | .clean met left, _, _ => .clean met (left - 1)
    | .refused left, _, _ => .refused (left - 1)
    | .other, _, _ => .other

section

variable {retries met left : Nat} {key : String} {b : Backoff}

theorem keeps_other (retries : Nat) (key : String) (b : Backoff) (x : Program (Outcome Token)) :
    Keeps (retrying retries) (AcquireProgress.Ends key b) .other x := by
  induction x with
  | done outcome => exact keeps_done.mpr trivial
  | ask effect next ih => exact keeps_ask.mpr ⟨trivial, fun reply _ => ih reply⟩

theorem refusing_of_refused {x : Program (Outcome Token)} {more : Nat} (hmore : left ≤ more)
    (h : Keeps (retrying retries) (AcquireProgress.Ends key b) (.refused left) x) :
    Keeps refusing (fun _ o => o = .failed .closed) more x := by
  induction x generalizing left more with
  | done outcome =>
    have hpost := keeps_done.mp h
    exact keeps_done.mpr hpost
  | ask effect next ih =>
    obtain ⟨hpermits, hnext⟩ := keeps_ask.mp h
    have hstep : 0 < left ∧ ∀ reply, (retrying retries).next (.refused left) effect reply =
        .refused (left - 1) := by
      cases effect <;> first | exact hpermits.elim | exact ⟨hpermits, fun _ => rfl⟩
    refine keeps_ask.mpr ⟨Nat.lt_of_lt_of_le hstep.1 hmore, ?_⟩
    intro reply _
    apply ih reply (Nat.sub_le_sub_right hmore 1)
    rw [← hstep.2 reply]
    exact hnext reply trivial

theorem refusing_of_clean {x : Program (Outcome Token)}
    (h : Keeps (retrying b.retries.toNat) (AcquireProgress.Ends key b) (.clean met left) x) :
    Keeps refusing (fun _ o => AcquireProgress.Ends key b (.clean met 0) o) (left + 2) x := by
  induction x generalizing left with
  | done outcome =>
    have hpost := keeps_done.mp h
    exact keeps_done.mpr hpost
  | ask effect next ih =>
    obtain ⟨hpermits, hnext⟩ := keeps_ask.mp h
    refine keeps_ask.mpr ⟨Nat.succ_pos _, ?_⟩
    intro reply hallows
    have hreply := hnext reply trivial
    cases effect with
    | call limit call =>
      cases call with
      | acquire claim =>
        -- this attempt finds the store closed
        cases hallows
        apply (refusing_of_refused _ hreply).imp
        · rintro _ outcome rfl
          exact .inr (.inl ⟨hpermits.2, rfl⟩)
        · change 2 ≤ left + 2 - 1
          have hleft := hpermits.1
          omega
      | release _ _ _ => exact hpermits.elim
      | renew _ _ _ _ => exact hpermits.elim
      | isHeld _ => exact hpermits.elim
      | probe => exact hpermits.elim
      | close => exact hpermits.elim
    | _ =>
      have hleft : left + 2 - 1 = left - 1 + 2 := by
        have hpositive : 0 < left := hpermits
        omega
      change Keeps refusing _ (left + 2 - 1) _
      rw [hleft]
      exact ih reply hreply

end

namespace Acquisition

variable {a : Acquisition} {met : Nat}

theorem keeps_settle_retrying {retries : Nat} (attempt : Nat) (retry : Program (Outcome Token))
    (hretry : Keeps (retrying retries) (AcquireProgress.Ends a.claim.key a.backoff) (.clean (met + 1) 5) retry)
    (reply : CallReply Grant) :
    Keeps (retrying retries) (AcquireProgress.Ends a.claim.key a.backoff) (.attempted met reply)
      (a.settle attempt retry (.ofReply reply)) := by
  cases reply with
  | timedOut => exact keeps_other _ _ _ _
  | answered outcome =>
    cases outcome with
    | overflow => exact keeps_other _ _ _ _
    | ok grant =>
      cases grant with
      | granted validUntil => exact keeps_other _ _ _ _
      | contended => exact keeps_query (Nat.succ_pos _) fun _ _ => hretry
    | failed fault =>
      by_cases hfault : fault = .closed
      · subst hfault
        refine keeps_query (Nat.succ_pos _) fun _ _ => ?_
        refine keeps_query (Nat.succ_pos _) fun _ _ => ?_
        exact keeps_pure rfl
      · simp only [AcquireProgress.attempted, hfault, if_false]
        exact keeps_other _ _ _ _

theorem keeps_giveUp_retrying (hmet : met = a.backoff.retries.toNat + 1) :
    Keeps (retrying a.backoff.retries.toNat) (AcquireProgress.Ends a.claim.key a.backoff) (.clean met 5)
      a.giveUp := by
  refine keeps_query (Nat.succ_pos _) fun _ _ => ?_
  refine keeps_query (Nat.succ_pos _) fun _ _ => ?_
  refine keeps_query (Nat.succ_pos _) fun _ _ => ?_
  refine keeps_query (Nat.succ_pos _) fun _ _ => ?_
  exact keeps_pure (.inl ⟨hmet, rfl⟩)

theorem keeps_chooseWait_retrying (retries attempt : Nat) :
    Keeps (retrying retries)
      (fun p wait => (∃ left, 4 ≤ left ∧ p = .clean met left) ∧
        (wait = none → ∃ word, a.backoff.jittered? attempt word = none))
      (.clean met 5) (a.chooseWait attempt) := by
  simp only [chooseWait]
  split
  · refine keeps_query (Nat.succ_pos _) fun word _ => ?_
    exact keeps_pure ⟨⟨4, Nat.le_refl 4, rfl⟩, fun hnone => ⟨word, hnone⟩⟩
  · exact keeps_pure ⟨⟨5, by decide, rfl⟩, fun hnone => ⟨0, hnone⟩⟩

theorem keeps_backOff_retrying (retries attempt : Nat) :
    Keeps (retrying retries)
      (fun p outcome => (outcome = .ok () ∧ ∃ left, 2 ≤ left ∧ p = .clean met left) ∨
        (outcome = .overflow ∧ (∃ left, p = .clean met left) ∧
          ∃ word, a.backoff.jittered? attempt word = none))
      (.clean met 5) (a.backOff attempt) := by
  refine Keeps.bind ?_
  refine (keeps_chooseWait_retrying retries attempt).imp ?_
  rintro _ wait ⟨⟨left, hleft, rfl⟩, hnone⟩
  cases wait with
  | none => exact keeps_pure (.inr ⟨rfl, ⟨left, rfl⟩, hnone rfl⟩)
  | some delay =>
    have hfirst : 0 < left := by omega
    have hsecond : 0 < left - 1 := by omega
    have hthird : 2 ≤ left - 1 - 1 := by omega
    refine keeps_query hfirst fun _ _ => ?_
    refine keeps_query hsecond fun _ _ => ?_
    exact keeps_pure (.inl ⟨rfl, left - 1 - 1, hthird, rfl⟩)

theorem keeps_tryOnce_retrying {retries left : Nat} (hleft : 2 ≤ left) (hmet : met ≤ retries)
    (attempt : Nat) (retry : Program (Outcome Token))
    (hretry : Keeps (retrying retries) (AcquireProgress.Ends a.claim.key a.backoff) (.clean (met + 1) 5)
      retry) :
    Keeps (retrying retries) (AcquireProgress.Ends a.claim.key a.backoff) (.clean met left)
      (a.tryOnce.bind (a.settle attempt retry)) := by
  have hfirst : 0 < left := by omega
  have hsecond : 0 < left - 1 := by omega
  refine keeps_query hfirst fun _ _ => ?_
  refine keeps_query ⟨hsecond, hmet⟩ fun reply _ => ?_
  exact keeps_settle_retrying attempt retry hretry reply

theorem keeps_run_retrying (a : Acquisition) {attempt retriesLeft left : Nat}
    (hretries : attempt + retriesLeft = a.backoff.retries.toNat) (hleft : 2 ≤ left) :
    Keeps (retrying a.backoff.retries.toNat) (AcquireProgress.Ends a.claim.key a.backoff)
      (.clean attempt left) (a.run attempt retriesLeft) := by
  induction retriesLeft generalizing attempt left with
  | zero =>
    rw [run]
    apply keeps_tryOnce_retrying hleft (by omega)
    exact keeps_giveUp_retrying (by omega)
  | succ retriesLeft ih =>
    rw [run]
    apply keeps_tryOnce_retrying hleft (by omega)
    refine Keeps.bind ?_
    refine (keeps_backOff_retrying _ attempt).imp ?_
    rintro p outcome (⟨rfl, more, hmore, rfl⟩ | ⟨rfl, ⟨more, rfl⟩, hword⟩)
    · exact ih (by omega) hmore
    · exact keeps_done.mpr (.inr (.inr ⟨Nat.succ_pos attempt, by omega, rfl, hword⟩))

end Acquisition

namespace Coordinator

theorem keeps_acquire_retrying {key : String} {terms : Terms}
    (h : (Request.acquire key terms).check = .ok ()) :
    Keeps (retrying terms.backoff.retries.toNat) (AcquireProgress.Ends key terms.backoff) (.clean 0 6)
      (acquire key terms) := by
  rw [acquire, Program.guarded_guarded]
  refine Program.keeps_guarded h ?_
  refine keeps_query (Nat.succ_pos _) fun closed _ => ?_
  split
  · exact keeps_pure (.inr (.inl ⟨Nat.zero_le _, rfl⟩))
  · refine keeps_query (Nat.succ_pos _) fun leaseId _ => ?_
    refine keeps_query (Nat.succ_pos _) fun nonce _ => ?_
    refine keeps_query (Nat.succ_pos _) fun started _ => ?_
    exact Acquisition.keeps_run_retrying ⟨⟨key, leaseId, nonce, terms.ttl, terms.metadata.text⟩,
      terms.backoff, terms.effectiveLimit, started⟩ (Nat.zero_add _) (Nat.le_refl 2)

theorem answering_refusing {α : Type} (c : Coordinator) {call : Call} (hcall : call ≠ .close)
    (next : call.Answer → Program (Outcome α)) (left : Nat) :
    Keeps refusing (fun _ o => o = .failed .closed) (left + 1) (c.answering call next) := by
  refine Keeps.bind ?_
  refine keeps_query (Nat.succ_pos _) ?_
  intro reply hreply
  cases hreply
  rw [Backing.closedOutcome_of_ne hcall]
  exact keeps_pure (keeps_pure rfl)

theorem whenOpen_refusing {α : Type} {next : Program (Outcome α)} {left : Nat}
    (h : Keeps refusing (fun _ o => o = .failed .closed) left next) :
    Keeps refusing (fun _ o => o = .failed .closed) (left + 1) (Program.whenOpen next) := by
  refine keeps_query (Nat.succ_pos _) ?_
  intro closed _
  split
  · exact keeps_pure rfl
  · exact h

theorem health_refusing (left : Nat) :
    Keeps refusing (fun _ o => ∃ latency, o = .ok (.unavailable latency Fault.closed.message))
      (left + 5) health := by
  refine keeps_query (Nat.succ_pos _) ?_
  intro closed _
  split
  · exact keeps_pure ⟨.zero, rfl⟩
  · refine keeps_query (Nat.succ_pos _) ?_
    intro started _
    refine keeps_query (Nat.succ_pos _) ?_
    intro reply hreply
    cases hreply
    refine Keeps.bind (keeps_query (Nat.succ_pos _) ?_)
    intro now _
    refine keeps_pure (keeps_query (Nat.succ_pos _) ?_)
    intro _ _
    exact keeps_pure ⟨_, rfl⟩

theorem close_refusing (left : Nat) :
    Keeps refusing (fun _ o => o = .ok ()) (left + 3) close := by
  refine keeps_query (Nat.succ_pos _) ?_
  intro closed _
  split
  · exact keeps_pure rfl
  · refine keeps_query (Nat.succ_pos _) ?_
    intro _ _
    refine keeps_query (Nat.succ_pos _) ?_
    intro reply hreply
    cases hreply
    exact keeps_pure rfl

end Coordinator

theorem Request.refusing (c : Coordinator) (r : Request) :
    Keeps refusing (fun _ o => o = r.refusal) 8 (r.program c) := by
  cases hcheck : r.check with
  | error fault =>
    rw [program_of_error hcheck, refusal, hcheck]
    exact keeps_done.mpr rfl
  | ok _ =>
    rw [refusal, hcheck]
    cases r with
    | acquire key terms =>
      apply (refusing_of_clean (Coordinator.keeps_acquire_retrying hcheck)).imp
      rintro _ outcome (⟨hmet, -⟩ | ⟨-, rfl⟩ | ⟨hmet, -⟩)
      · exact absurd hmet (by omega)
      · rfl
      · exact absurd hmet (Nat.lt_irrefl 0)
    | release token =>
      refine Program.keeps_guarded hcheck ?_
      exact Coordinator.whenOpen_refusing (Coordinator.answering_refusing c Call.noConfusion _ 6)
    | renew token ttl =>
      rw [program, Coordinator.renew, Program.guarded_guarded]
      refine Program.keeps_guarded hcheck ?_
      exact Coordinator.whenOpen_refusing (Coordinator.answering_refusing c Call.noConfusion _ 6)
    | isHeld token =>
      refine Program.keeps_guarded hcheck ?_
      refine Coordinator.whenOpen_refusing (keeps_query (Nat.succ_pos _) ?_)
      intro reply hreply
      cases hreply
      exact keeps_pure rfl

namespace Operation

def EndsClosed : (o : Operation) → Outcome o.Answer → Prop
  | .request r, outcome => outcome = r.refusal
  | .health, outcome => ∃ latency, outcome = .ok (.unavailable latency Fault.closed.message)
  | .close, outcome => outcome = .ok ()

theorem refusing (c : Coordinator) (o : Operation) :
    Keeps refusing (fun _ => o.EndsClosed) 8 (o.program c) := by
  cases o with
  | request r => exact r.refusing c
  | health => exact Coordinator.health_refusing 3
  | close => exact Coordinator.close_refusing 5

end Operation

def closing : Contract Effect Effect.Reply Bool where
  permits _ _ := True
  allows _ _ := True
  next owes effect reply :=
    match effect, reply with
    | .markClosed, closed => owes || !closed
    | .call none .close, _ => false
    | _, _ => owes

theorem Coordinator.keeps_close_closing :
    Keeps closing (fun owes _ => owes = false) false Coordinator.close := by
  refine keeps_query trivial ?_
  intro closed _
  cases closed with
  | true => exact keeps_pure rfl
  | false =>
    refine keeps_query trivial fun _ _ => ?_
    refine keeps_query trivial fun reply _ => ?_
    cases reply <;> exact keeps_pure rfl

def ClosesStore (heard : List Exchange) : Prop := ∃ reply, ⟨.call none .close, reply⟩ ∈ heard

theorem closing_owed {e : Exchange} (h : ¬∃ reply, e = ⟨.call none .close, reply⟩) :
    closing.next true e.effect e.reply = true := by
  obtain ⟨effect, reply⟩ := e
  cases effect with
  | call limit call =>
    cases limit with
    | some limit => rfl
    | none =>
      cases call with
      | close => exact absurd ⟨reply, rfl⟩ h
      | _ => rfl
  | _ => rfl

def Exchange.marks : Exchange → Bool
  | ⟨.markClosed, closed⟩ => !closed
  | _ => false

theorem closing_marked {e : Exchange} (h : e.marks = true) (owes : Bool) :
    closing.next owes e.effect e.reply = true := by
  obtain ⟨effect, reply⟩ := e
  cases effect with
  | markClosed =>
    have hopen : (!reply) = true := h
    change (owes || !reply) = true
    rw [hopen, Bool.or_true]
  | _ => cases h

theorem closesStore_of_owed {heard : List Exchange} {owes : Bool}
    (h : closing.heard owes heard = false) (howed : owes = true ∨ ∃ e ∈ heard, e.marks = true) :
    ClosesStore heard := by
  induction heard generalizing owes with
  | nil =>
    obtain rfl | ⟨_, hnone, -⟩ := howed
    · cases h
    · cases hnone
  | cons e rest ih =>
    have hrest (hnext : closing.next owes e.effect e.reply = true ∨ ∃ e ∈ rest, e.marks = true) :
        ClosesStore (e :: rest) := by
      obtain ⟨reply, hreply⟩ := ih h hnext
      exact ⟨reply, List.mem_cons_of_mem e hreply⟩
    obtain rfl | ⟨marking, hmem, hmarks⟩ := howed
    · by_cases hclose : ∃ reply, e = ⟨.call none .close, reply⟩
      · obtain ⟨reply, rfl⟩ := hclose
        exact ⟨reply, List.mem_cons_self⟩
      · exact hrest (.inl (closing_owed hclose))
    · obtain rfl | hlater := List.mem_cons.mp hmem
      · exact hrest (.inl (closing_marked hmarks owes))
      · exact hrest (.inr ⟨marking, hlater, hmarks⟩)

deriving instance DecidableEq for CallReply

def Exchange.attempt? : Exchange → Option (CallReply Grant)
  | ⟨.call _ (.acquire _), reply⟩ => some reply
  | _ => none

section

variable {retries met left : Nat} {e : Exchange}

theorem next_clean_of_attempt (h : e.attempt? = some (.answered (.ok .contended))) :
    (retrying retries).next (.clean met left) e.effect e.reply = .clean (met + 1) 6 := by
  obtain ⟨effect, reply⟩ := e
  cases effect with
  | call limit call =>
    cases call with
    | acquire claim =>
      cases h
      rfl
    | _ => cases h
  | _ => cases h

theorem next_clean_of_none (h : e.attempt? = none) :
    (retrying retries).next (.clean met left) e.effect e.reply = .clean met (left - 1) := by
  obtain ⟨effect, reply⟩ := e
  cases effect with
  | call limit call =>
    cases call with
    | acquire claim => cases h
    | _ => rfl
  | _ => rfl

theorem heard_clean {heard : List Exchange} (hleft : left ≤ 6)
    (h : ∀ reply ∈ heard.filterMap Exchange.attempt?, reply = .answered (.ok .contended)) :
    ∃ more ≤ 6, (retrying retries).heard (.clean met left) heard =
      .clean (met + (heard.filterMap Exchange.attempt?).length) more := by
  induction heard generalizing met left with
  | nil => exact ⟨left, hleft, rfl⟩
  | cons e rest ih =>
    rw [Contract.heard, List.foldl_cons]
    cases hattempt : e.attempt? with
    | none =>
      rw [List.filterMap_cons_none hattempt] at h ⊢
      rw [next_clean_of_none hattempt]
      exact ih (Nat.le_trans (Nat.sub_le left 1) hleft) h
    | some reply =>
      rw [List.filterMap_cons_some hattempt] at h ⊢
      obtain rfl := h reply List.mem_cons_self
      rw [next_clean_of_attempt hattempt, List.length_cons, ← Nat.add_assoc, Nat.add_right_comm]
      exact ih (Nat.le_refl 6) fun reply hreply => h reply (List.mem_cons_of_mem _ hreply)

end

end LeaseLock
