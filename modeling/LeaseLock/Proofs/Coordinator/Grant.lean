import LeaseLock.Proofs.Coordinator.Account
import LeaseLock.Proofs.Coordinator.Cluster
import Mathlib.Data.List.Induction

namespace LeaseLock

open Interaction

def granting : Contract Effect Effect.Reply (Option (Claim × Instant)) where
  permits _ _ := True
  allows _ _ := True
  next last effect reply :=
    match effect, reply with
    | .call _ (.acquire claim), .answered (.ok (.granted validUntil)) => some (claim, validUntil)
    | _, _ => last

theorem exists_granted {heard : List Exchange} {last : Option (Claim × Instant)} {claim : Claim}
    {validUntil : Instant} (h : granting.heard last heard = some (claim, validUntil)) :
    last = some (claim, validUntil) ∨
      ∃ limit, ⟨.call limit (.acquire claim), .answered (.ok (.granted validUntil))⟩ ∈ heard := by
  induction heard generalizing last with
  | nil => exact .inl h
  | cons e rest ih =>
    obtain hnext | ⟨limit, hlimit⟩ := ih h
    · obtain ⟨effect, reply⟩ := e
      simp only [granting] at hnext
      split at hnext
      · cases hnext
        exact .inr ⟨_, List.mem_cons_self⟩
      · exact .inl hnext
    · exact .inr ⟨limit, List.mem_cons_of_mem _ hlimit⟩

theorem keeps_anything {α : Type} (x : Program α) (last : Option (Claim × Instant)) :
    Keeps granting (fun _ _ => True) last x := by
  induction x generalizing last with
  | done answer => exact keeps_done.mpr trivial
  | ask effect next ih => exact keeps_ask.mpr ⟨trivial, fun reply _ => ih reply _⟩

namespace Acquisition

variable {a : Acquisition} {last : Option (Claim × Instant)}

def Returns (a : Acquisition) (last : Option (Claim × Instant)) (outcome : Outcome Token) : Prop :=
  ∀ token, outcome = .ok token → ∃ validUntil, last = some (a.claim, validUntil) ∧
    token = a.token validUntil

theorem returns_failed (fault : Fault) : a.Returns last (.failed fault) := by
  intro token h
  cases h

theorem returns_overflow : a.Returns last .overflow := by
  intro token h
  cases h

theorem keeps_settle_granting (attempt : Nat) {retry : Program (Outcome Token)}
    (hretry : ∀ last, Keeps granting a.Returns last retry) (limit : Option Span)
    (reply : CallReply Grant) :
    Keeps granting a.Returns (granting.next last (.call limit (.acquire a.claim)) reply)
      (a.settle attempt retry (.ofReply reply)) := by
  cases reply with
  | timedOut =>
    refine keeps_query trivial fun _ _ => ?_
    refine keeps_query trivial fun _ _ => ?_
    exact keeps_pure (returns_failed _)
  | answered outcome =>
    cases outcome with
    | failed fault =>
      refine keeps_query trivial fun _ _ => ?_
      refine keeps_query trivial fun _ _ => ?_
      exact keeps_pure (returns_failed _)
    | overflow => exact keeps_pure returns_overflow
    | ok grant =>
      cases grant with
      | contended => exact keeps_query trivial fun _ _ => hretry _
      | granted validUntil =>
        refine keeps_query trivial fun _ _ => ?_
        refine keeps_query trivial fun _ _ => ?_
        refine keeps_query trivial fun _ _ => ?_
        refine keeps_query trivial fun _ _ => ?_
        refine keeps_pure ?_
        intro token htoken
        cases htoken
        exact ⟨validUntil, rfl, rfl⟩

theorem keeps_giveUp_granting : Keeps granting a.Returns last a.giveUp := by
  refine keeps_query trivial fun _ _ => ?_
  refine keeps_query trivial fun _ _ => ?_
  refine keeps_query trivial fun _ _ => ?_
  refine keeps_query trivial fun _ _ => ?_
  exact keeps_pure (returns_failed _)

theorem keeps_tryOnce_granting (attempt : Nat) {retry : Program (Outcome Token)}
    (hretry : ∀ last, Keeps granting a.Returns last retry) :
    Keeps granting a.Returns last (a.tryOnce.bind (a.settle attempt retry)) := by
  refine keeps_query trivial fun _ _ => ?_
  refine keeps_query trivial fun reply _ => ?_
  exact keeps_settle_granting attempt hretry _ reply

theorem keeps_run_granting (a : Acquisition) (attempt left : Nat)
    (last : Option (Claim × Instant)) : Keeps granting a.Returns last (a.run attempt left) := by
  induction left generalizing attempt last with
  | zero =>
    rw [run]
    exact keeps_tryOnce_granting attempt fun _ => keeps_giveUp_granting
  | succ left ih =>
    rw [run]
    refine keeps_tryOnce_granting attempt fun last => ?_
    refine Keeps.bind ?_
    refine (keeps_anything (a.backOff attempt) last).imp ?_
    rintro last outcome -
    cases outcome with
    | ok _ => exact ih (attempt + 1) last
    | failed fault => exact keeps_pure (returns_failed _)
    | overflow => exact keeps_pure returns_overflow

end Acquisition

namespace Coordinator

def Grants (key : String) (terms : Terms) (last : Option (Claim × Instant))
    (outcome : Outcome Token) : Prop :=
  ∀ token, outcome = .ok token → ∃ claim validUntil, last = some (claim, validUntil) ∧
    claim.key = key ∧ claim.ttl = terms.ttl ∧ claim.metadata = terms.metadata.text ∧
    token = ⟨key, claim.leaseId, validUntil, claim.nonce⟩

theorem grants_failed {key : String} {terms : Terms} {last : Option (Claim × Instant)}
    (fault : Fault) : Grants key terms last (.failed fault) := by
  intro token h
  cases h

theorem keeps_guarded_granting {key : String} {terms : Terms} {last : Option (Claim × Instant)}
    (check : Except Fault Unit) {next : Program (Outcome Token)}
    (hnext : Keeps granting (Grants key terms) last next) :
    Keeps granting (Grants key terms) last (Program.guarded check next) := by
  cases check with
  | ok _ => exact hnext
  | error fault => exact keeps_pure (grants_failed fault)

theorem keeps_acquire_granting (key : String) (terms : Terms) :
    Keeps granting (Grants key terms) none (acquire key terms) := by
  refine keeps_guarded_granting _ (keeps_guarded_granting _ ?_)
  refine keeps_query trivial fun closed _ => ?_
  split
  · exact keeps_pure (grants_failed _)
  · refine keeps_query trivial fun leaseId _ => ?_
    refine keeps_query trivial fun nonce _ => ?_
    refine keeps_query trivial fun started _ => ?_
    have hrun := Acquisition.keeps_run_granting
      ⟨⟨key, leaseId, nonce, terms.ttl, terms.metadata.text⟩, terms.backoff, terms.effectiveLimit,
        started⟩ 0 terms.backoff.retries.toNat none
    refine hrun.imp ?_
    intro last outcome hreturns token htoken
    obtain ⟨validUntil, hlast, rfl⟩ := hreturns token htoken
    exact ⟨_, validUntil, hlast, rfl, rfl, rfl, rfl⟩

end Coordinator

theorem Backing.respond_of_answered {b : Backing} {w : EffectInput} {limit : Option Span} {call : Call}
    {outcome : Outcome call.Answer} (h : (b.respond w (.call limit call)).1 = .answered outcome) :
    (b.respond w (.call limit call)).2 = (b.applyAt w.reading w.id call).state := by
  unfold respond at h ⊢
  cases hdelivery : w.delivery with
  | answered => rfl
  | lost => rfl
  | dropped =>
    rw [hdelivery] at h
    cases h

namespace Cluster

/-- An answer that was given at a move of an operation: the store carried out the call there. -/
def Gave (start : Cluster) (moves : List Move) (i : Nat) (e : Exchange) : Prop :=
  ∀ limit call outcome, e = ⟨.call limit call, .answered outcome⟩ →
    ∃ earlier w later, moves = earlier ++ .advance i w :: later ∧
      ((start.run earlier).store.applyAt w.reading w.id call).outcome = outcome ∧
      (start.run (earlier ++ [.advance i w])).store =
        ((start.run earlier).store.applyAt w.reading w.id call).state

variable {start : Cluster} {moves : List Move} {i : Nat} {e : Exchange}

theorem Gave.append (h : start.Gave moves i e) (more : List Move) :
    start.Gave (moves ++ more) i e := by
  intro limit call outcome he
  obtain ⟨earlier, w, later, rfl, hgiven⟩ := h limit call outcome he
  exact ⟨earlier, w, later ++ more, by simp, hgiven⟩

theorem gave_of_asked {owner : Nat} {operation : Operation} {heard : List Exchange}
    {effect : Effect} {next : effect.Reply → Program (Outcome operation.Answer)}
    (hjob : (start.run moves).jobs[i]? =
      some ⟨owner, operation, heard, Interaction.ask effect next⟩) (w : EffectInput) :
    start.Gave (moves ++ [.advance i w]) i
      ⟨effect, ((start.run moves).respond owner w effect).1⟩ := by
  intro limit call outcome he
  obtain ⟨rfl, hreply⟩ := Exchange.mk.inj he
  have hanswered : ((start.run moves).store.respond ((start.run moves).input w (.call limit call))
      (.call limit call)).1 = .answered outcome := eq_of_heq hreply
  have hinput : ((start.run moves).input w (.call limit call)).reading = w.reading ∧
      ((start.run moves).input w (.call limit call)).id = w.id := by
    cases limit with
    | none => exact ⟨rfl, rfl⟩
    | some limit =>
      by_cases hclosed : (start.run moves).store.IsClosed <;> simp [input, hclosed]
  have houtcome := Backing.outcome_of_answered hanswered
  have hstate := Backing.respond_of_answered hanswered
  rw [hinput.1, hinput.2] at houtcome hstate
  refine ⟨moves, w, [], rfl, houtcome, ?_⟩
  rw [run_append, ← hstate, run, List.foldl_cons, step_ask hjob]
  exact store_respond (start.run moves) owner w (.call limit call)

theorem heard_of_new {s : Cluster} {job : Job} {m : Move} (hnone : s.jobs[i]? = none)
    (hjob : (s.step m).jobs[i]? = some job) : job.heard = [] := by
  have hi : s.jobs.length ≤ i := List.getElem?_eq_none_iff.mp hnone
  cases m with
  | visit v => cases hnone.symm.trans hjob
  | start owner operation =>
    simp only [step, List.getElem?_append_right hi, List.getElem?_singleton] at hjob
    obtain ⟨-, hnew⟩ := Option.ite_none_right_eq_some.mp hjob
    cases hnew
    rfl
  | advance j w =>
    simp only [step] at hjob
    split at hjob
    · cases hnone.symm.trans hjob
    · rw [List.getElem?_eq_none_iff.mpr (by rwa [List.length_set])] at hjob
      cases hjob

theorem gave_of_heard (hstart : start.jobs = []) {moves : List Move} {job : Job}
    (hjob : (start.run moves).jobs[i]? = some job) : ∀ e ∈ job.heard, start.Gave moves i e := by
  induction moves using List.reverseRecOn generalizing job with
  | nil =>
    rw [run_nil, hstart] at hjob
    cases hjob
  | append_singleton moves m ih =>
    intro e he
    have hstep : ((start.run moves).step m).jobs[i]? = some job := by
      rwa [run_append] at hjob
    cases hold : (start.run moves).jobs[i]? with
    | none =>
      rw [heard_of_new hold hstep] at he
      cases he
    | some old =>
      by_cases hown : m.job? = some i
      · obtain ⟨w, rfl⟩ := Move.eq_advance_of_job? hown
        obtain ⟨owner, operation, heard, rest⟩ := old
        rw [step_own hold] at hstep
        cases hstep
        cases rest with
        | done outcome => exact (ih hold e he).append _
        | ask effect next =>
          obtain hearlier | hlast := List.mem_append.mp he
          · exact (ih hold e hearlier).append _
          · rw [List.mem_singleton.mp hlast]
            exact gave_of_asked hold w
      · rw [step_other hold hown] at hstep
        cases hstep
        exact (ih hold e he).append _

theorem recorded_of_ended {b : Backing} (hopened : b.IsOpened) (members : Nat → Coordinator)
    {key : String} {terms : Terms} {token : Token}
    (hended : ((opened members b).run moves).Ended i (.request (.acquire key terms)) (.ok token)) :
    token.key = key ∧ ∃ earlier w later lease, moves = earlier ++ .advance i w :: later ∧
      ((opened members b).run (earlier ++ [.advance i w])).store.tenure? key = some lease ∧
      lease.IsOwnedBy token.leaseId token.nonce ∧ lease.validUntil = token.validUntil.nanos ∧
      lease.ttl = terms.ttl.millis ∧ lease.metadata = terms.metadata.text := by
  obtain ⟨owner, heard, hjob⟩ := hended
  have hconsistent := (consistent_opened hopened members).run moves
  have hleads := hconsistent.leads _ (List.mem_of_getElem? hjob)
  have hkeeps := hleads.keeps (fun _ _ => trivial) (Coordinator.keeps_acquire_granting key terms)
  obtain ⟨claim, validUntil, hlast, rfl, httl, hmetadata, rfl⟩ := keeps_done.mp hkeeps token rfl
  obtain hnone | ⟨limit, hheard⟩ := exists_granted hlast
  · cases hnone
  obtain ⟨earlier, w, later, hmoves, hgranted, hstore⟩ :=
    gave_of_heard rfl hjob _ hheard limit (.acquire claim) _ rfl
  have hsound := ((consistent_opened hopened members).run earlier).sound
  obtain ⟨-, htenure, -, hnanos⟩ := Backing.acquire_granted hsound hgranted
  refine ⟨rfl, earlier, w, later, _, hmoves, hstore ▸ htenure, ⟨rfl, rfl⟩, hnanos.symm, ?_, ?_⟩
  · exact congrArg (fun ttl : Span => (ttl.millis : Int)) httl
  · exact hmetadata

end Cluster

end LeaseLock
