import LeaseLock.Proofs.Coordinator.Admission
import LeaseLock.Proofs.Lock.Backoff
import Mathlib.Algebra.Order.BigOperators.Group.List

/-!
How long an acquisition takes. Calls and waits take time, and each attempt and each wait after it are
counted in the worst case of the terms; with no jitter the count is exact as long as the delays can be
counted in seconds without loss.
-/

namespace LeaseLock

namespace Effect

def waited : Effect → Nat
  | .pause delay => delay.nanos
  | _ => 0

def time (limit : Nat) (effect : Effect) : Nat :=
  effect.waited + if effect.isCall then limit else 0

theorem time_call (limit : Nat) (callLimit : Option Span) (call : Call) :
    (Effect.call callLimit call).time limit = limit := Nat.zero_add limit

theorem time_pause (limit : Nat) (delay : Span) : (Effect.pause delay).time limit = delay.nanos :=
  rfl

end Effect

def elapsed (took : Nat → Span) (heard : List Exchange) : Nat :=
  ((List.range (heard.countP fun e => e.effect.isCall)).map fun n => (took n).nanos).sum +
    (heard.map fun e => e.effect.waited).sum

def spent (limit : Nat) (heard : List Exchange) : Nat := (heard.map fun e => e.effect.time limit).sum

variable {limit : Nat} {heard : List Exchange}

theorem spent_concat (limit : Nat) (heard : List Exchange) (e : Exchange) :
    spent limit (heard ++ [e]) = spent limit heard + e.effect.time limit := by
  simp [spent]

theorem elapsed_le_spent {took : Nat → Span} (htook : ∀ n, (took n).nanos ≤ limit)
    (heard : List Exchange) : elapsed took heard ≤ spent limit heard := by
  have hcalls (calls : Nat) :
      ((List.range calls).map fun n => (took n).nanos).sum ≤ calls * limit := by
    have hsum := List.sum_le_card_nsmul ((List.range calls).map fun n => (took n).nanos) limit
      (by simpa using fun n _ => htook n)
    simpa using hsum
  have hspent : spent limit heard = (heard.countP fun e => e.effect.isCall) * limit +
      (heard.map fun e => e.effect.waited).sum := by
    induction heard with
    | nil => simp [spent]
    | cons e rest ih =>
      simp only [spent, List.map_cons, List.sum_cons, List.countP_cons, Effect.time] at *
      rw [ih, Nat.add_mul]
      split <;> omega
  rw [hspent]
  exact Nat.add_le_add_right (hcalls _) _

def Lasts (limit : Nat) (x : Program α) (bound : Nat) : Prop :=
  ∀ (replies : Replies) (heard : List Exchange),
    spent limit (replies.hear heard x).1 ≤ spent limit heard + bound

namespace Lasts

variable {bound : Nat}

theorem of_done (answer : α) : Lasts limit (pure answer) bound :=
  fun _ _ => Nat.le_add_right _ _

theorem of_ask {rest : Nat} {effect : Effect} {f : effect.Reply → Program α}
    (htime : effect.time limit + rest ≤ bound) (h : ∀ reply, Lasts limit (f reply) rest) :
    Lasts limit (Program.ask effect >>= f) bound := by
  intro replies heard
  have hrest := h (replies heard effect) replies (heard ++ [⟨effect, replies heard effect⟩])
  simp only [spent_concat] at hrest
  rw [Replies.hear_ask]
  omega

theorem of_quiet {effect : Effect} {f : effect.Reply → Program α} (hquiet : effect.time limit = 0)
    (h : ∀ reply, Lasts limit (f reply) bound) : Lasts limit (Program.ask effect >>= f) bound :=
  of_ask (by omega) h

theorem bind {x : Program α} {f : α → Program β} {more : Nat} (hx : Lasts limit x bound)
    (hf : ∀ a, Lasts limit (f a) more) : Lasts limit (x >>= f) (bound + more) := by
  intro replies heard
  have hfirst := hx replies heard
  have hlater := hf (replies.hear heard x).2 replies (replies.hear heard x).1
  rw [Replies.hear_bind]
  omega

end Lasts

namespace Backoff

def allowance (b : Backoff) (attempt : Nat) : Nat := (b.longestWait? attempt).elim 0 Span.nanos

def allowanceFrom (b : Backoff) (attempt : Nat) : Nat → Nat
  | 0 => 0
  | count + 1 => b.allowance attempt + b.allowanceFrom (attempt + 1) count

end Backoff

namespace Acquisition

variable {a : Acquisition}

theorem lasts_settle {bound : Nat} (attempt : Nat) {retry : Program (Outcome Token)}
    (hretry : Lasts limit retry bound) (met : Attempt) :
    Lasts limit (a.settle attempt retry met) bound := by
  cases met with
  | granted validUntil =>
    refine .of_quiet rfl fun _ => ?_
    refine .of_quiet rfl fun _ => .of_quiet rfl fun _ => .of_quiet rfl fun _ => ?_
    exact .of_done _
  | contended => exact .of_quiet rfl fun _ => hretry
  | failed fault => exact .of_quiet rfl fun _ => .of_quiet rfl fun _ => .of_done _
  | timedOut => exact .of_quiet rfl fun _ => .of_quiet rfl fun _ => .of_done _
  | overflow => exact .of_done _

theorem lasts_giveUp (a : Acquisition) : Lasts limit a.giveUp 0 := by
  refine .of_quiet rfl fun _ => ?_
  refine .of_quiet rfl fun _ => .of_quiet rfl fun _ => .of_quiet rfl fun _ => ?_
  exact .of_done _

theorem lasts_tryOnce (a : Acquisition) : Lasts limit a.tryOnce limit := by
  refine .of_quiet rfl fun _ => ?_
  exact .of_ask (Nat.le_of_eq (Effect.time_call limit _ _)) fun _ =>
    show Lasts limit _ 0 from .of_done _

theorem lasts_chooseWait (a : Acquisition) (attempt : Nat) {f : Option Span → Program α}
    {bound : Nat} (hnone : Lasts limit (f none) bound)
    (hsome : ∀ word delay, a.backoff.jittered? attempt word = some delay →
      Lasts limit (f (some delay)) bound) :
    Lasts limit (a.chooseWait attempt >>= f) bound := by
  simp only [Backoff.jittered?] at hsome
  simp only [chooseWait]
  generalize a.backoff.wait attempt = wait at *
  have hword (word : UInt64) : Lasts limit (f (a.backoff.settle? wait word)) bound := by
    cases hdelay : a.backoff.settle? wait word with
    | none => exact hnone
    | some delay => exact hsome word delay hdelay
  split
  · exact .of_quiet rfl hword
  · exact hword 0

theorem lasts_backOff {attempt allowance : Nat}
    (hallowed : ∀ word delay, a.backoff.jittered? attempt word = some delay →
      delay.nanos ≤ allowance) : Lasts limit (a.backOff attempt) allowance := by
  apply lasts_chooseWait
  · exact .of_done _
  · intro word delay hdelay
    refine .of_quiet rfl fun _ => ?_
    have htime : (Effect.pause delay).time limit + 0 ≤ allowance := by
      rw [Effect.time_pause]
      exact hallowed word delay hdelay
    exact .of_ask htime fun _ => .of_done _

theorem lasts_run (a : Acquisition) {attempt left : Nat}
    (hallowed : ∀ k < left, ∀ word delay, a.backoff.jittered? (attempt + k) word = some delay →
      delay.nanos ≤ a.backoff.allowance (attempt + k)) :
    Lasts limit (a.run attempt left) (limit * (left + 1) + a.backoff.allowanceFrom attempt left) := by
  induction left generalizing attempt with
  | zero =>
    rw [run, Nat.zero_add, Nat.mul_one]
    exact a.lasts_tryOnce.bind fun met => lasts_settle attempt a.lasts_giveUp met
  | succ left ih =>
    have hrest : Lasts limit (a.run (attempt + 1) left)
        (limit * (left + 1) + a.backoff.allowanceFrom (attempt + 1) left) := by
      apply ih
      intro k hk
      have hshift := hallowed (k + 1) (by omega)
      rwa [← Nat.add_assoc, Nat.add_right_comm] at hshift
    have hwait : Lasts limit (a.backOff attempt) (a.backoff.allowance attempt) :=
      lasts_backOff (hallowed 0 (Nat.succ_pos _))
    have hsum : limit * (left + 1 + 1) + a.backoff.allowanceFrom attempt (left + 1) =
        limit + (a.backoff.allowance attempt +
          (limit * (left + 1) + a.backoff.allowanceFrom (attempt + 1) left)) := by
      rw [Backoff.allowanceFrom, Nat.mul_succ]
      omega
    rw [run, hsum]
    refine a.lasts_tryOnce.bind fun met => lasts_settle attempt (hwait.bind fun outcome => ?_) met
    cases outcome with
    | ok _ => exact hrest
    | failed fault => exact .of_done _
    | overflow => exact .of_done _

end Acquisition

namespace Backoff

variable {b : Backoff} {attempt : Nat}

theorem nanos_longestWaitsFrom? {total sum : Span} {count : Nat}
    (h : b.longestWaitsFrom? attempt total count = some sum) :
    sum.nanos = min (total.nanos + b.allowanceFrom attempt count) Span.longest.nanos := by
  induction count generalizing attempt total with
  | zero =>
    rw [longestWaitsFrom?, Option.some.injEq] at h
    rw [← h, allowanceFrom, Nat.add_zero]
    exact (Nat.min_eq_left total.nanos_le_longest).symm
  | succ count ih =>
    rw [longestWaitsFrom?] at h
    cases hlongest : b.longestWait? attempt with
    | none =>
      rw [hlongest] at h
      cases h
    | some wait =>
      rw [hlongest] at h
      rw [ih h, Span.addClamped, Span.nanos_clamp, allowanceFrom, allowance, hlongest,
        Option.elim_some]
      omega

theorem IsSound.jittered?_le_allowance (h : b.IsSound)
    (hexact : 0 < b.jitter.value ∨ b.cap.nanos ≤ 2 ^ 23 * nanosPerSecond)
    (hlongest : (b.longestWait? attempt).isSome) {word : UInt64} {delay : Span}
    (hdelay : b.jittered? attempt word = some delay) : delay.nanos ≤ b.allowance attempt := by
  obtain ⟨longest, heq⟩ := Option.isSome_iff_exists.mp hlongest
  rcases Int.lt_or_eq_of_le h.jitter_nonneg with hpos | hzero
  · obtain ⟨wait, hwait, hle⟩ := h.exists_jittered_le hpos heq word
    obtain rfl : wait = delay := Option.some.inj (hwait.symm.trans hdelay)
    rw [allowance, heq]
    exact hle
  · have hcap := hexact.resolve_left (by omega)
    have hbelow : delay.nanos ≤ b.cap.nanos := h.jittered?_le_cap hdelay
    rw [h.jittered?_of_zero hzero.symm] at hdelay
    rw [allowance, h.longestWait?_of_zero hzero.symm hdelay (by omega)]
    exact Nat.le_refl _

end Backoff

namespace Coordinator

variable {key : String} {terms : Terms}

theorem lasts_guarded {bound : Nat} (check : Except Fault Unit) {next : Program (Outcome α)}
    (hnext : Lasts limit next bound) : Lasts limit (Program.guarded check next) bound := by
  cases check with
  | ok _ => exact hnext
  | error fault => exact .of_done _

theorem lasts_acquire (limit : Nat) (key : String)
    (hallowed : ∀ attempt < terms.backoff.retries.toNat, ∀ word delay,
      terms.backoff.jittered? attempt word = some delay →
        delay.nanos ≤ terms.backoff.allowance attempt) :
    Lasts limit (acquire key terms) (limit * (terms.backoff.retries.toNat + 1) +
      terms.backoff.allowanceFrom 0 terms.backoff.retries.toNat) := by
  refine lasts_guarded _ (lasts_guarded _ (.of_quiet rfl fun closed => ?_))
  split
  · exact .of_done _
  · refine .of_quiet rfl fun leaseId => .of_quiet rfl fun nonce => .of_quiet rfl fun started => ?_
    exact Acquisition.lasts_run ⟨⟨key, leaseId, nonce, terms.ttl, terms.metadata.text⟩,
      terms.backoff, terms.effectiveLimit, started⟩
      (fun k hk => (Nat.zero_add k).symm ▸ hallowed k hk)

/-- An acquisition whose calls keep to the limit takes no longer than the worst case of its terms,
whatever is replied to it, as long as its attempts can be counted and its delays are not rounded
down: they are spread, or at most `2 ^ 23` seconds long. -/
theorem elapsed_le_worstCase (key : String) (replies : Replies) {took : Nat → Span} {bound : Span}
    (hterms : terms.check = .ok ()) (htook : ∀ n, took n ≤ terms.effectiveLimit)
    (hbound : terms.worstCase? = some bound) (hretries : terms.backoff.retries.toNat + 1 < 2 ^ 32)
    (hexact : 0 < terms.backoff.jitter.value ∨
      terms.backoff.cap.nanos ≤ 2 ^ 23 * nanosPerSecond) :
    Span.clamp (elapsed took (replies.hear [] (acquire key terms)).1) ≤ bound := by
  have hsound := Backoff.isSound_of_check (Terms.check_backoff hterms)
  obtain ⟨waits, hwaits, hsum⟩ : ∃ waits, terms.backoff.longestWaits? = some waits ∧
      (terms.effectiveLimit.mulClamped terms.backoff.attempts).addClamped waits = bound := by
    simpa [Terms.worstCase?, Option.bind_eq_some_iff] using hbound
  have hlongest := (Backoff.longestWaitsFrom?_isSome_iff _ 0 .zero _).mp
    (Option.isSome_iff_exists.mpr ⟨waits, hwaits⟩)
  have hlasts := lasts_acquire terms.effectiveLimit.nanos key
    fun attempt hattempt word delay hdelay =>
      hsound.jittered?_le_allowance hexact
        ((Nat.zero_add attempt) ▸ hlongest attempt hattempt) hdelay
  have hspent := hlasts replies []
  have helapsed := elapsed_le_spent htook (replies.hear [] (acquire key terms)).1
  have hnone : spent terms.effectiveLimit.nanos [] = 0 := rfl
  have htotal := Backoff.nanos_longestWaitsFrom? hwaits
  have hattempts : terms.backoff.attempts = terms.backoff.retries.toNat + 1 := by
    rw [Backoff.attempts]
    exact Nat.min_eq_left (Nat.le_sub_one_of_lt hretries)
  change (Span.clamp _).nanos ≤ bound.nanos
  rw [← hsum, Span.addClamped, Span.mulClamped, Span.nanos_clamp, Span.nanos_clamp, Span.nanos_clamp,
    htotal, hattempts]
  have hzero : Span.zero.nanos = 0 := rfl
  omega

theorem elapsed_le_worstCase_second_try :
    steadyTerms.check = .ok () ∧ steadyTerms.worstCase? = some (.ofMillis 12700) ∧
      Span.clamp (elapsed (fun _ => .ofSeconds 3)
        (secondTry.replies.hear [] (acquire "job" steadyTerms)).1) ≤ .ofMillis 12700 := by
  have hterms : steadyTerms.check = .ok () := by decide +kernel
  have hbound : steadyTerms.worstCase? = some (.ofMillis 12700) := by decide +kernel
  have hzero : steadyTerms.backoff.cap.nanos ≤ 2 ^ 23 * nanosPerSecond := by decide
  exact ⟨hterms, hbound, elapsed_le_worstCase "job" secondTry.replies hterms
    (fun _ => by decide) hbound (by decide) (.inr hzero)⟩

def crowded : ReplySequence where
  id _ := "lease"
  reply
    | _, .acquire _ => .answered (.ok .contended)
    | _, _ => .timedOut
  word _ := 0
  ticks _ := 0

def patientTerms : Terms :=
  ⟨.ofSeconds 10, ⟨1, ⟨16777216000000001, by decide⟩, ⟨16777216000000001, by decide⟩, 0, 2⟩, .empty,
    .ofSeconds 1⟩

theorem elapsed_beyond_worstCase :
    patientTerms.check = .ok () ∧ patientTerms.effectiveLimit = .ofSeconds 1 ∧
      patientTerms.worstCase? = some (.ofSeconds 16777218) ∧
      ¬Span.clamp (elapsed (fun _ => .ofSeconds 1)
        (crowded.replies.hear [] (acquire "job" patientTerms)).1) ≤ .ofSeconds 16777218 := by
  decide +kernel

end Coordinator

end LeaseLock
