import LeaseLock.Proofs.Coordinator.Cluster
import LeaseLock.Proofs.Store.Counts

namespace LeaseLock

open Interaction

def Verdict.calls : Verdict → List Counter
  | .granted => [.attempts, .acquired]
  | .contended => [.attempts, .contended]
  | .failed => [.attempts]
  | .released => [.released]
  | .renewed => [.renewed]
  | .mismatched => [.mismatched]

structure Book where
  verdicts : List Verdict
  counted : List Counter
  deriving DecidableEq

def bookkeeping : Contract Effect Effect.Reply Book where
  permits _ _ := True
  allows effect reply :=
    match effect, reply with
    | .call _ _, .timedOut => False
    | _, _ => True
  next b effect reply :=
    match effect, reply with
    | .count c, _ => ⟨b.verdicts, c :: b.counted⟩
    | .call _ call, .answered outcome => ⟨(call.verdict? outcome).toList ++ b.verdicts, b.counted⟩
    | _, _ => b

theorem bookkeeping_answered (b : Book) (limit : Option Span) {call : Call}
    (outcome : Outcome call.Answer) :
    bookkeeping.next b (.call limit call) (.answered outcome) =
      ⟨(call.verdict? outcome).toList ++ b.verdicts, b.counted⟩ := rfl

namespace Book

def blank : Book := ⟨[], []⟩

def calls (b : Book) : List Counter := b.verdicts.flatMap Verdict.calls

def IsSettled (b : Book) (defeated : Bool) : Prop :=
  ∀ c, b.counted.count c = b.calls.count c + if c = .failed ∧ defeated then 1 else 0

structure IsPending (b : Book) (met : Nat) : Prop where
  even : ∀ c, b.counted.count c = b.calls.count c
  met : b.verdicts.count .contended = met
  clean : .failed ∉ b.verdicts

def isDefeated (b : Book) (retries : Nat) : Bool :=
  b.verdicts.count .contended = retries + 1 ∨ .failed ∈ b.verdicts

def Closes (retries : Nat) (b : Book) (outcome : Outcome Token) : Prop :=
  outcome ≠ .overflow → b.IsSettled (b.isDefeated retries)

variable {b : Book} {met retries : Nat}

theorem isPending_blank : blank.IsPending 0 := ⟨fun _ => rfl, rfl, List.not_mem_nil⟩

theorem IsPending.closes_blank (h : b.IsPending 0) (outcome : Outcome Token) :
    b.Closes retries outcome := by
  intro _ c
  simp [h.even c, isDefeated, h.met, h.clean]

theorem IsPending.contended (h : b.IsPending met) :
    (Book.mk (.contended :: b.verdicts) (.contended :: .attempts :: b.counted)).IsPending (met + 1) := by
  refine ⟨fun c => ?_, ?_, ?_⟩
  · have heven := h.even c
    cases c <;> simp_all [calls, Verdict.calls]
  · simp [h.met]
  · simp [h.clean]

theorem IsPending.granted (h : b.IsPending met) (hmet : met ≤ retries) (outcome : Outcome Token) :
    (Book.mk (.granted :: b.verdicts) (.acquired :: .attempts :: b.counted)).Closes retries outcome := by
  intro _ c
  have heven := h.even c
  have hleft : met ≠ retries + 1 := by omega
  cases c <;> simp_all [calls, Verdict.calls, isDefeated, h.met, h.clean]

theorem IsPending.failed (h : b.IsPending met) (outcome : Outcome Token) :
    (Book.mk (.failed :: b.verdicts) (.failed :: .attempts :: b.counted)).Closes retries outcome := by
  intro _ c
  have heven := h.even c
  cases c <;> simp_all [calls, Verdict.calls, isDefeated]

theorem IsPending.exhausted (h : b.IsPending (retries + 1)) (outcome : Outcome Token) :
    (Book.mk b.verdicts (.failed :: b.counted)).Closes retries outcome := by
  intro _ c
  have heven := h.even c
  cases c <;> simp_all [calls, isDefeated, h.met]

end Book

namespace Acquisition

variable {a : Acquisition} {b : Book} {met retries : Nat}

theorem keeps_recordDuration_bookkeeping (a : Acquisition) (b : Book) :
    Keeps bookkeeping (fun after _ => after = b) b a.recordDuration := by
  refine keeps_query trivial fun _ _ => ?_
  exact keeps_query trivial fun _ _ => keeps_pure rfl

theorem keeps_settle_bookkeeping (hb : b.IsPending met) (hmet : met ≤ retries) (attempt : Nat)
    (retry : Program (Outcome Token))
    (hretry : ∀ after, after.IsPending (met + 1) → Keeps bookkeeping (Book.Closes retries) after retry)
    (limit : Option Span) (reply : CallReply Grant)
    (hreply : bookkeeping.allows (.call limit (.acquire a.claim)) reply) :
    Keeps bookkeeping (Book.Closes retries)
      (bookkeeping.next ⟨b.verdicts, .attempts :: b.counted⟩ (.call limit (.acquire a.claim)) reply)
      (a.settle attempt retry (.ofReply reply)) := by
  cases reply with
  | timedOut => exact hreply.elim
  | answered outcome =>
    cases outcome with
    | overflow => exact keeps_pure fun h => absurd rfl h
    | failed fault =>
      refine keeps_query trivial fun _ _ => ?_
      refine keeps_query trivial fun _ _ => ?_
      exact keeps_pure (hb.failed _)
    | ok grant =>
      cases grant with
      | contended => exact keeps_query trivial fun _ _ => hretry _ hb.contended
      | granted validUntil =>
        refine keeps_query trivial fun _ _ => ?_
        refine Keeps.bind ((a.keeps_recordDuration_bookkeeping _).imp ?_)
        rintro _ _ rfl
        refine keeps_query trivial fun _ _ => ?_
        exact keeps_pure (hb.granted hmet _)

theorem keeps_tryOnce_bookkeeping (hb : b.IsPending met) (hmet : met ≤ retries) (attempt : Nat)
    (retry : Program (Outcome Token))
    (hretry : ∀ after, after.IsPending (met + 1) →
      Keeps bookkeeping (Book.Closes retries) after retry) :
    Keeps bookkeeping (Book.Closes retries) b (a.tryOnce.bind (a.settle attempt retry)) := by
  refine keeps_query trivial fun _ _ => ?_
  refine keeps_query trivial fun reply hreply => ?_
  exact keeps_settle_bookkeeping hb hmet attempt retry hretry _ reply hreply

theorem keeps_giveUp_bookkeeping (a : Acquisition) (hb : b.IsPending (retries + 1)) :
    Keeps bookkeeping (Book.Closes retries) b a.giveUp := by
  refine keeps_query trivial fun _ _ => ?_
  refine Keeps.bind ((a.keeps_recordDuration_bookkeeping _).imp ?_)
  rintro _ _ rfl
  refine keeps_query trivial fun _ _ => ?_
  exact keeps_pure (hb.exhausted _)

theorem keeps_backOff_bookkeeping (a : Acquisition) (attempt : Nat) (b : Book) :
    Keeps bookkeeping (fun after outcome => after = b ∧ ∀ fault, outcome ≠ .failed fault) b
      (a.backOff attempt) := by
  have hchoose : Keeps bookkeeping (fun after _ => after = b) b (a.chooseWait attempt) := by
    simp only [chooseWait]
    split
    · exact keeps_query trivial fun _ _ => keeps_pure rfl
    · exact keeps_pure rfl
  refine Keeps.bind (hchoose.imp ?_)
  rintro _ wait rfl
  cases wait with
  | none => exact keeps_pure ⟨rfl, nofun⟩
  | some delay =>
    refine keeps_query trivial fun _ _ => ?_
    exact keeps_query trivial fun _ _ => keeps_pure ⟨rfl, nofun⟩

theorem keeps_run_bookkeeping (a : Acquisition) {left : Nat} (hleft : met + left = retries)
    (hb : b.IsPending met) : Keeps bookkeeping (Book.Closes retries) b (a.run met left) := by
  -- One attempt is about to be made, so all have met other holders once retries + 1 of them have.
  induction left generalizing met b with
  | zero =>
    rw [run]
    apply keeps_tryOnce_bookkeeping hb (by omega)
    intro after hafter
    apply keeps_giveUp_bookkeeping
    rwa [← hleft]
  | succ left ih =>
    rw [run]
    apply keeps_tryOnce_bookkeeping hb (by omega)
    intro after hafter
    refine Keeps.bind ((a.keeps_backOff_bookkeeping met after).imp ?_)
    rintro _ outcome ⟨rfl, hnot⟩
    cases outcome with
    | ok _ => exact ih (by omega) hafter
    | failed fault => exact absurd rfl (hnot fault)
    | overflow => exact keeps_done.mpr fun h => absurd rfl h

end Acquisition

namespace Operation

def retries? : Operation → Option Nat
  | .request (.acquire _ terms) => some terms.backoff.retries.toNat
  | _ => none

def isDefeated (o : Operation) (b : Book) : Bool := o.retries?.any b.isDefeated

def Closes (o : Operation) (b : Book) (outcome : Outcome o.Answer) : Prop :=
  outcome ≠ .overflow → b.IsSettled (o.isDefeated b)

end Operation

namespace Book

variable {b : Book} {α : Type}

theorem isSettled_blank : blank.IsSettled false := by
  intro c
  simp [blank, calls]

theorem isSettled_single {v : Verdict} {c : Counter} (h : v.calls = [c]) :
    (Book.mk [v] [c]).IsSettled false := by
  intro d
  simp [calls, h]

theorem keeps_whenOpen {post : Book → Outcome α → Prop} {next : Program (Outcome α)}
    (hclosed : post b (.failed .closed)) (hnext : Keeps bookkeeping post b next) :
    Keeps bookkeeping post b (Program.whenOpen next) := by
  refine keeps_query trivial fun closed _ => ?_
  split
  · exact keeps_pure hclosed
  · exact hnext

theorem keeps_guarded_bookkeeping {post : Book → Outcome α → Prop} {check : Except Fault Unit}
    {next : Program (Outcome α)} (hfailed : ∀ fault, post b (.failed fault))
    (hnext : Keeps bookkeeping post b next) : Keeps bookkeeping post b (Program.guarded check next) := by
  cases check with
  | error fault => exact keeps_done.mpr (hfailed fault)
  | ok _ => exact hnext

end Book

namespace Coordinator

theorem keeps_acquire_bookkeeping (key : String) (terms : Terms) :
    Keeps bookkeeping (Book.Closes terms.backoff.retries.toNat) .blank (acquire key terms) := by
  refine Book.keeps_guarded_bookkeeping (fun _ => Book.isPending_blank.closes_blank _) ?_
  refine Book.keeps_guarded_bookkeeping (fun _ => Book.isPending_blank.closes_blank _) ?_
  refine Book.keeps_whenOpen (Book.isPending_blank.closes_blank _) ?_
  refine keeps_query trivial fun leaseId _ => ?_
  refine keeps_query trivial fun nonce _ => ?_
  refine keeps_query trivial fun started _ => ?_
  exact Acquisition.keeps_run_bookkeeping _ (Nat.zero_add _) Book.isPending_blank

variable {α : Type}

def Settles (b : Book) (outcome : Outcome α) : Prop := outcome ≠ .overflow → b.IsSettled false

theorem keeps_answering_bookkeeping (c : Coordinator) {call : Call}
    {next : call.Answer → Program (Outcome α)} (hfault : ∀ fault, call.verdict? (.failed fault) = none)
    (hnext : ∀ answer, Keeps bookkeeping Settles ⟨(call.verdict? (.ok answer)).toList, []⟩ (next answer)) :
    Keeps bookkeeping Settles .blank (c.answering call next) := by
  refine Keeps.bind ?_
  refine keeps_query trivial fun reply hreply => ?_
  cases reply with
  | timedOut => exact hreply.elim
  | answered outcome =>
    rw [bookkeeping_answered, Book.blank, List.append_nil]
    cases outcome with
    | overflow => exact keeps_pure (keeps_pure fun h => absurd rfl h)
    | failed fault =>
      rw [hfault fault]
      exact keeps_pure (keeps_pure fun _ => Book.isSettled_blank)
    | ok answer => exact keeps_pure (hnext answer)

theorem keeps_reject_bookkeeping (message : String) (fault : Fault) :
    Keeps bookkeeping Settles ⟨[.mismatched], []⟩ (reject message fault : Program (Outcome α)) := by
  refine keeps_query trivial fun _ _ => ?_
  refine keeps_query trivial fun _ _ => ?_
  exact keeps_pure fun _ => Book.isSettled_single rfl

theorem keeps_release_bookkeeping (c : Coordinator) (token : Token) :
    Keeps bookkeeping Settles .blank (c.release token) := by
  refine Book.keeps_guarded_bookkeeping (fun _ _ => Book.isSettled_blank) ?_
  refine Book.keeps_whenOpen (fun _ => Book.isSettled_blank) ?_
  refine c.keeps_answering_bookkeeping (fun _ => rfl) fun removed => ?_
  by_cases hremoved : removed = 0
  · simp only [Call.verdict?, hremoved, if_true]
    exact keeps_reject_bookkeeping _ _
  · simp only [Call.verdict?, hremoved, if_false]
    refine keeps_query trivial fun _ _ => ?_
    refine keeps_query trivial fun _ _ => ?_
    exact keeps_pure fun _ => Book.isSettled_single rfl

theorem keeps_renew_bookkeeping (c : Coordinator) (token : Token) (ttl : Span) :
    Keeps bookkeeping Settles .blank (c.renew token ttl) := by
  refine Book.keeps_guarded_bookkeeping (fun _ _ => Book.isSettled_blank) ?_
  refine Book.keeps_guarded_bookkeeping (fun _ _ => Book.isSettled_blank) ?_
  refine Book.keeps_whenOpen (fun _ => Book.isSettled_blank) ?_
  refine c.keeps_answering_bookkeeping (fun _ => rfl) fun renewal? => ?_
  cases renewal? with
  | none => exact keeps_reject_bookkeeping _ _
  | some renewal =>
    refine keeps_query trivial fun _ _ => ?_
    refine keeps_query trivial fun _ _ => ?_
    exact keeps_pure fun _ => Book.isSettled_single rfl

theorem keeps_isHeld_bookkeeping (c : Coordinator) (token : Token) :
    Keeps bookkeeping Settles .blank (c.isHeld token) := by
  refine Book.keeps_guarded_bookkeeping (fun _ _ => Book.isSettled_blank) ?_
  refine Book.keeps_whenOpen (fun _ => Book.isSettled_blank) ?_
  refine keeps_query trivial fun reply _ => ?_
  cases reply <;> exact keeps_pure fun _ => Book.isSettled_blank

theorem keeps_health_bookkeeping : Keeps bookkeeping Settles .blank health := by
  refine keeps_query trivial fun closed _ => ?_
  split
  · exact keeps_pure fun _ => Book.isSettled_blank
  · refine keeps_query trivial fun started _ => ?_
    refine keeps_query trivial fun reply _ => ?_
    refine Keeps.bind (keeps_query trivial fun now _ => keeps_pure ?_)
    cases reply with
    | timedOut => exact keeps_query trivial fun _ _ => keeps_pure fun _ => Book.isSettled_blank
    | answered outcome =>
      cases outcome with
      | overflow => exact keeps_pure fun _ => Book.isSettled_blank
      | failed fault => exact keeps_query trivial fun _ _ => keeps_pure fun _ => Book.isSettled_blank
      | ok use =>
        refine Keeps.bind ?_
        simp only [describeProbe]
        split
        · refine keeps_query trivial fun _ _ => ?_
          exact keeps_pure (keeps_pure fun _ => Book.isSettled_blank)
        · exact keeps_pure (keeps_pure fun _ => Book.isSettled_blank)

theorem keeps_close_bookkeeping : Keeps bookkeeping Settles .blank close := by
  refine keeps_query trivial fun closed _ => ?_
  split
  · exact keeps_pure fun _ => Book.isSettled_blank
  · refine keeps_query trivial fun _ _ => ?_
    refine keeps_query trivial fun reply _ => ?_
    cases reply <;> exact keeps_pure fun _ => Book.isSettled_blank

end Coordinator

theorem Operation.keeps_bookkeeping (c : Coordinator) (o : Operation) :
    Keeps bookkeeping o.Closes .blank (o.program c) := by
  cases o with
  | request r =>
    cases r with
    | acquire key terms => exact Coordinator.keeps_acquire_bookkeeping key terms
    | release token => exact c.keeps_release_bookkeeping token
    | renew token ttl => exact c.keeps_renew_bookkeeping token ttl
    | isHeld token => exact c.keeps_isHeld_bookkeeping token
  | health => exact Coordinator.keeps_health_bookkeeping
  | close => exact Coordinator.keeps_close_bookkeeping

end LeaseLock
