import LeaseLock.Coordinator.Basic
import LeaseLock.Proofs.Coordinator.Rejection
import Mathlib.Algebra.Group.Nat.Defs
import Mathlib.Data.List.Basic

namespace LeaseLock

namespace Effect

def isCall : Effect → Bool
  | .call _ _ => true
  | _ => false

def isMint : Effect → Bool
  | .mint => true
  | _ => false

def isTimed : Effect → Bool
  | .call _ _ | .pause _ => true
  | _ => false

def isCount (counter : Counter) : Effect → Bool
  | .count c => c = counter
  | _ => false

def isDeed : Effect → Bool
  | .call _ _ | .pause _ | .mint | .count _ => true
  | _ => false

end Effect

def CallReply.isContended : CallReply Grant → Bool
  | .answered (.ok .contended) => true
  | _ => false

/-- What an open coordinator meets: the identifiers minted one after the other, the reply to each
call, the random word to be had after a call, and the clock. -/
structure ReplySequence where
  id : Nat → String
  reply : Nat → (call : Call) → CallReply call.Answer
  word : Nat → UInt64
  ticks : Nat → Int

namespace ReplySequence

def respond (c : ReplySequence) (log : List Effect) : (effect : Effect) → effect.Reply
  | .call _ call => c.reply (log.countP Effect.isCall) call
  | .mint => c.id (log.countP Effect.isMint)
  | .drawWord => c.word (log.countP Effect.isCall - 1)
  | .readClock => c.ticks log.length
  | .isClosed | .markClosed => false
  | .pause _ | .count _ | .recordDuration _ | .report _ => ()

def claim (c : ReplySequence) (key : String) (terms : Terms) : Claim :=
  ⟨key, c.id 0, c.id 1, terms.ttl, terms.metadata.text⟩

def acquisition (c : ReplySequence) (key : String) (terms : Terms) : Acquisition :=
  ⟨c.claim key terms, terms.backoff, terms.effectiveLimit, c.ticks 3⟩

def play (c : ReplySequence) (log : List Effect) : Program α → List Effect × α
  | .done answer => (log, answer)
  | Interaction.ask effect next => c.play (log ++ [effect]) (next (c.respond log effect))

def Plays (c : ReplySequence) (log : List Effect) (x : Program α) (deeds : List Effect) (answer : α) :
    Prop :=
  ∃ tail, c.play log x = (log ++ tail, answer) ∧ tail.filter Effect.isDeed = deeds

variable {c : ReplySequence} {log deeds : List Effect} {effect : Effect} {answer : α}

theorem plays_pure (answer : α) : c.Plays log (pure answer) [] answer :=
  ⟨[], by rw [List.append_nil]; rfl, rfl⟩

theorem plays_deed {f : effect.Reply → Program α} (hdeed : effect.isDeed = true)
    (hnext : c.Plays (log ++ [effect]) (f (c.respond log effect)) deeds answer) :
    c.Plays log (Program.ask effect >>= f) (effect :: deeds) answer := by
  obtain ⟨tail, hplay, htail⟩ := hnext
  refine ⟨effect :: tail, ?_, ?_⟩
  · rw [List.append_cons]
    exact hplay
  · rw [List.filter_cons_of_pos hdeed, htail]

theorem plays_quiet {f : effect.Reply → Program α} (hquiet : effect.isDeed = false)
    (hnext : c.Plays (log ++ [effect]) (f (c.respond log effect)) deeds answer) :
    c.Plays log (Program.ask effect >>= f) deeds answer := by
  obtain ⟨tail, hplay, htail⟩ := hnext
  refine ⟨effect :: tail, ?_, ?_⟩
  · rw [List.append_cons]
    exact hplay
  · rw [List.filter_cons_of_neg (by simp [hquiet]), htail]

theorem play_bind (c : ReplySequence) (log : List Effect) (x : Program α) (f : α → Program β) :
    c.play log (x >>= f) = c.play (c.play log x).1 (f (c.play log x).2) := by
  induction x generalizing log with
  | done a => rfl
  | ask effect next ih => exact ih _ _

theorem Plays.bind {x : Program α} {f : α → Program β} {first second : List Effect} {a : α} {b : β}
    (hx : c.Plays log x first a)
    (hf : ∀ later, later.filter Effect.isDeed = log.filter Effect.isDeed ++ first →
      c.Plays later (f a) second b) : c.Plays log (x >>= f) (first ++ second) b := by
  obtain ⟨tail, hplay, htail⟩ := hx
  obtain ⟨rest, hrest, hdeeds⟩ := hf (log ++ tail) (by rw [List.filter_append, htail])
  refine ⟨tail ++ rest, ?_, ?_⟩
  · rw [play_bind, hplay, hrest, List.append_assoc]
  · rw [List.filter_append, htail, hdeeds]

theorem Plays.exists_log {x : Program α} (h : c.Plays [] x deeds answer) :
    ∃ log, c.play [] x = (log, answer) ∧ log.filter Effect.isDeed = deeds := h

-- comparing programs by evaluation would run their arithmetic
attribute [irreducible] Plays

end ReplySequence

namespace Effect

theorem isDeed_of_isCall (effect : Effect) (h : effect.isCall = true) : effect.isDeed = true := by
  cases effect <;> first | rfl | cases h

theorem isDeed_of_isMint (effect : Effect) (h : effect.isMint = true) : effect.isDeed = true := by
  cases effect <;> first | rfl | cases h

theorem isDeed_of_isTimed (effect : Effect) (h : effect.isTimed = true) : effect.isDeed = true := by
  cases effect <;> first | rfl | cases h

theorem isDeed_of_isCount (counter : Counter) (effect : Effect)
    (h : effect.isCount counter = true) : effect.isDeed = true := by
  cases effect <;> first | rfl | cases h

theorem filter_filter_isDeed {p : Effect → Bool}
    (hp : ∀ effect, p effect = true → effect.isDeed = true) (log : List Effect) :
    (log.filter isDeed).filter p = log.filter p := by
  rw [List.filter_filter]
  apply List.filter_congr
  intro effect _
  cases hpe : p effect with
  | true => rw [hp effect hpe, Bool.and_self]
  | false => rfl

theorem countP_filter_isDeed {p : Effect → Bool}
    (hp : ∀ effect, p effect = true → effect.isDeed = true) (log : List Effect) :
    (log.filter isDeed).countP p = log.countP p := by
  rw [List.countP_eq_length_filter, filter_filter_isDeed hp, ← List.countP_eq_length_filter]

end Effect

namespace Acquisition

variable {a : Acquisition} {c : ReplySequence} {log : List Effect}

def attempt (a : Acquisition) : Effect := .call (some a.limit) (.acquire a.claim)

def ending : CallReply Grant → List Counter
  | .answered (.ok (.granted _)) => [.acquired]
  | .answered (.ok .contended) => [.contended, .failed]
  | .answered (.failed _) | .timedOut => [.failed]
  | .answered .overflow => []

def result (a : Acquisition) : CallReply Grant → Outcome Token
  | .answered (.ok (.granted validUntil)) => .ok (a.token validUntil)
  | .answered (.ok .contended) => .failed (.exhausted a.claim.key a.backoff.attempts)
  | .answered (.failed fault) => .failed fault
  | .answered .overflow => .overflow
  | .timedOut => .failed (.timedOut a.limit)

def round (a : Acquisition) (delay : Nat → Span) (attempt : Nat) : List Effect :=
  [.count .attempts, a.attempt, .count .contended, .pause (delay attempt)]

theorem plays_recordDuration {f : Unit → Program α} {deeds : List Effect} {answer : α}
    (hnext : ∀ log, c.Plays log (f ()) deeds answer) :
    c.Plays log (a.recordDuration >>= f) deeds answer := by
  apply ReplySequence.plays_quiet rfl
  apply ReplySequence.plays_quiet rfl
  exact hnext _

theorem plays_report {level : Level} {message : String} {fields : List (String × String)}
    {f : Unit → Program α} {deeds : List Effect} {answer : α}
    (hnext : ∀ log, c.Plays log (f ()) deeds answer) :
    c.Plays log (Program.report level message fields >>= f) deeds answer := by
  apply ReplySequence.plays_quiet rfl
  exact hnext _

theorem plays_ending (attempt : Nat)
    (retry : Program (Outcome Token)) (reply : CallReply Grant)
    (hretry : reply = .answered (.ok .contended) →
      ∀ log, c.Plays log retry [.count .failed] (.failed (.exhausted a.claim.key a.backoff.attempts))) :
    c.Plays log (a.settle attempt retry (.ofReply reply)) ((ending reply).map .count)
      (a.result reply) := by
  cases reply with
  | timedOut =>
    apply plays_report
    intro log
    exact ReplySequence.plays_deed rfl (ReplySequence.plays_pure _)
  | answered outcome =>
    cases outcome with
    | failed fault =>
      apply plays_report
      intro log
      exact ReplySequence.plays_deed rfl (ReplySequence.plays_pure _)
    | overflow => exact ReplySequence.plays_pure _
    | ok grant =>
      cases grant with
      | contended => exact ReplySequence.plays_deed rfl (hretry rfl _)
      | granted validUntil =>
        apply ReplySequence.plays_deed rfl
        apply plays_recordDuration
        intro log
        apply plays_report
        intro log
        exact ReplySequence.plays_pure _

theorem plays_giveUp (a : Acquisition) (c : ReplySequence) (log : List Effect) :
    c.Plays log a.giveUp [.count .failed]
      (.failed (.exhausted a.claim.key a.backoff.attempts)) := by
  apply ReplySequence.plays_deed rfl
  apply plays_recordDuration
  intro log
  apply plays_report
  intro log
  exact ReplySequence.plays_pure _

theorem plays_tryOnce {deeds : List Effect} {answer : Outcome Token}
    {next : Attempt → Program (Outcome Token)}
    (hnext : c.Plays (log ++ [.count .attempts] ++ [a.attempt])
      (next (.ofReply (c.reply (log.countP Effect.isCall) (.acquire a.claim)))) deeds answer) :
    c.Plays log (a.tryOnce.bind next) (.count .attempts :: a.attempt :: deeds) answer := by
  apply ReplySequence.plays_deed rfl
  apply ReplySequence.plays_deed rfl
  simpa only [ReplySequence.respond, List.countP_append, List.countP_singleton, Effect.isCall,
    Bool.false_eq_true, if_false, Nat.add_zero, attempt] using hnext

theorem settle?_of_not_drawsWord {b : Backoff} {wait : Backoff.Wait} (h : wait.drawsWord = false)
    (word other : UInt64) : b.settle? wait word = b.settle? wait other := by
  cases wait with
  | steady delay => rfl
  | spread delay width => cases h
  | overflow => rfl

theorem plays_chooseWait {delay : Span} (attempt : Nat)
    (hdelay : a.backoff.jittered? attempt (c.word (log.countP Effect.isCall - 1)) = some delay) :
    c.Plays log (a.chooseWait attempt) [] (some delay) := by
  simp only [Backoff.jittered?] at hdelay
  simp only [chooseWait]
  cases hdraws : (a.backoff.wait attempt).drawsWord with
  | true =>
    apply ReplySequence.plays_quiet rfl
    rw [← hdelay]
    exact ReplySequence.plays_pure _
  | false =>
    rw [settle?_of_not_drawsWord hdraws _ 0] at hdelay
    rw [← hdelay, if_neg Bool.false_ne_true]
    exact ReplySequence.plays_pure _

theorem plays_backOff {delay : Span} (attempt : Nat)
    (hdelay : a.backoff.jittered? attempt (c.word (log.countP Effect.isCall - 1)) = some delay) :
    c.Plays log (a.backOff attempt) [.pause delay] (.ok ()) := by
  rw [backOff]
  apply ReplySequence.Plays.bind (plays_chooseWait attempt hdelay)
  intro later _
  apply plays_report
  intro later
  exact ReplySequence.plays_deed rfl (ReplySequence.plays_pure _)

theorem countP_isCall_met {attempt : Nat} (h : log.countP Effect.isCall = attempt) :
    (log ++ [Effect.count .attempts] ++ [a.attempt] ++ [Effect.count .contended]).countP
      Effect.isCall = attempt + 1 := by
  simp only [List.countP_append, List.countP_singleton, Effect.isCall, Acquisition.attempt, h,
    Bool.false_eq_true, if_false, if_true, Nat.add_zero]

theorem plays_run (a : Acquisition) (c : ReplySequence) {delay : Nat → Span} (rounds : Nat)
    {attempt left : Nat} {log : List Effect} (hcalls : log.countP Effect.isCall = attempt)
    (hrounds : rounds ≤ left)
    (hcontended : ∀ k < rounds,
      c.reply (attempt + k) (.acquire a.claim) = .answered (.ok .contended))
    (hstop : rounds < left →
      c.reply (attempt + rounds) (.acquire a.claim) ≠ .answered (.ok .contended))
    (hdelay : ∀ k < rounds,
      a.backoff.jittered? (attempt + k) (c.word (attempt + k)) = some (delay (attempt + k))) :
    c.Plays log (a.run attempt left)
      ((List.range' attempt rounds).flatMap (a.round delay) ++ .count .attempts :: a.attempt ::
        (ending (c.reply (attempt + rounds) (.acquire a.claim))).map .count)
      (a.result (c.reply (attempt + rounds) (.acquire a.claim))) := by
  induction rounds generalizing attempt left log with
  | zero =>
    rw [List.range'_zero, List.flatMap_nil, List.nil_append, Nat.add_zero]
    rw [Nat.add_zero] at hstop
    cases left with
    | zero =>
      rw [run]
      apply plays_tryOnce
      rw [hcalls]
      exact plays_ending attempt _ _ fun _ log => plays_giveUp a c log
    | succ left =>
      rw [run]
      apply plays_tryOnce
      rw [hcalls]
      exact plays_ending attempt _ _ fun hagain => absurd hagain (hstop (Nat.succ_pos left))
  | succ rounds ih =>
    obtain ⟨left, rfl⟩ : ∃ fewer, left = fewer + 1 := ⟨left - 1, by omega⟩
    have hfirst := hcontended 0 (Nat.succ_pos _)
    have hwait := hdelay 0 (Nat.succ_pos _)
    have hshift (k : Nat) : attempt + (k + 1) = attempt + 1 + k := by omega
    rw [hshift] at hstop ⊢
    rw [Nat.add_zero] at hfirst hwait
    rw [run, List.range'_succ, List.flatMap_cons]
    simp only [round, List.cons_append, List.nil_append]
    apply plays_tryOnce
    rw [hcalls, hfirst]
    apply ReplySequence.plays_deed rfl
    have hmet := countP_isCall_met (a := a) hcalls
    have hwaited : c.Plays (log ++ [.count .attempts] ++ [a.attempt] ++ [.count .contended])
        (a.backOff attempt) [.pause (delay attempt)] (.ok ()) := by
      apply plays_backOff
      rw [hmet, Nat.add_sub_cancel]
      exact hwait
    apply hwaited.bind
    intro later hlater
    apply ih
    · have hcount := congrArg (List.countP Effect.isCall) hlater
      rw [Effect.countP_filter_isDeed Effect.isDeed_of_isCall, List.countP_append,
        Effect.countP_filter_isDeed Effect.isDeed_of_isCall, hmet] at hcount
      exact hcount
    · omega
    · intro k hk
      rw [← hshift]
      exact hcontended (k + 1) (by omega)
    · intro hfewer
      exact hstop (by omega)
    · intro k hk
      rw [← hshift]
      exact hdelay (k + 1) (by omega)

theorem filter_isTimed_rounds (a : Acquisition) (delay : Nat → Span) (last : Nat)
    (counters : List Counter) :
    ((List.range last).flatMap (a.round delay) ++
        .count .attempts :: a.attempt :: counters.map .count).filter Effect.isTimed =
      (List.range last).flatMap (fun k => [a.attempt, .pause (delay k)]) ++ [a.attempt] := by
  have hround (k : Nat) : (a.round delay k).filter Effect.isTimed =
      [a.attempt, .pause (delay k)] := rfl
  have hlast : (.count .attempts :: a.attempt :: counters.map Effect.count).filter Effect.isTimed =
      a.attempt :: (counters.map Effect.count).filter Effect.isTimed := rfl
  have hcounters : (counters.map Effect.count).filter Effect.isTimed = [] := by
    rw [List.filter_eq_nil_iff]
    rintro _ hcount
    obtain ⟨counter, -, rfl⟩ := List.mem_map.mp hcount
    exact Bool.false_ne_true
  rw [List.filter_append, List.filter_flatMap, hlast, hcounters]
  simp only [hround]

theorem countP_rounds (a : Acquisition) (delay : Nat → Span) (last : Nat) {p : Effect → Bool} {n : Nat}
    (hround : ∀ k, (a.round delay k).countP p = n) :
    ((List.range last).flatMap (a.round delay)).countP p = last * n := by
  induction last with
  | zero => simp
  | succ last ih =>
    rw [List.range_succ, List.flatMap_append, List.countP_append, ih, List.flatMap_singleton, hround,
      Nat.succ_mul]

theorem countP_isMint_rounds (a : Acquisition) (delay : Nat → Span) (last : Nat)
    (counters : List Counter) :
    ((List.range last).flatMap (a.round delay) ++
      .count .attempts :: a.attempt :: counters.map .count).countP Effect.isMint = 0 := by
  have hlast : (.count .attempts :: a.attempt :: counters.map Effect.count).countP Effect.isMint =
      (counters.map Effect.count).countP Effect.isMint := rfl
  have hcounters : (counters.map Effect.count).countP Effect.isMint = 0 := by
    rw [List.countP_map, List.countP_eq_zero]
    exact fun _ _ => Bool.false_ne_true
  rw [List.countP_append, countP_rounds a delay last (fun k => rfl), hlast, hcounters, Nat.mul_zero]

theorem countP_isCount_rounds (a : Acquisition) (delay : Nat → Span) (last : Nat)
    (counters : List Counter) (counter : Counter) :
    ((List.range last).flatMap (a.round delay) ++
        .count .attempts :: a.attempt :: counters.map .count).countP (Effect.isCount counter) =
      last * (if counter = .attempts ∨ counter = .contended then 1 else 0) +
        (if counter = .attempts then 1 else 0) + counters.count counter := by
  have hround (k : Nat) : (a.round delay k).countP (Effect.isCount counter) =
      if counter = .attempts ∨ counter = .contended then 1 else 0 := by
    cases counter <;> rfl
  have hcounters : (counters.map Effect.count).countP (Effect.isCount counter) =
      counters.count counter := by
    rw [List.countP_map, List.count]
    apply List.countP_congr
    intro other _
    simp [Effect.isCount]
  have hlast : (.count .attempts :: a.attempt :: counters.map Effect.count).countP
      (Effect.isCount counter) = (if counter = .attempts then 1 else 0) + counters.count counter := by
    rw [List.countP_cons, List.countP_cons_of_neg Bool.false_ne_true, hcounters, Nat.add_comm]
    cases counter <;> rfl
  rw [List.countP_append, countP_rounds a delay last hround, hlast, Nat.add_assoc]

theorem count_ending (a : Acquisition) (reply : CallReply Grant) (counter : Counter) :
    (ending reply).count counter =
      match counter with
      | .contended => if reply.isContended then 1 else 0
      | .acquired => match a.result reply with
        | .ok _ => 1
        | _ => 0
      | .failed => match a.result reply with
        | .failed _ => 1
        | _ => 0
      | _ => 0 := by
  cases reply with
  | timedOut => cases counter <;> rfl
  | answered outcome =>
    cases outcome with
    | failed fault => cases counter <;> rfl
    | overflow => cases counter <;> rfl
    | ok grant => cases grant <;> cases counter <;> rfl

end Acquisition

namespace Coordinator

variable {c : ReplySequence} {key : String} {terms : Terms}

theorem plays_acquire {last : Nat} {delay : Nat → Span} (hkey : isValidKey key = true)
    (hterms : terms.check = .ok ()) (hlast : last ≤ terms.backoff.retries.toNat)
    (hcontended : ∀ a < last,
      c.reply a (.acquire (c.claim key terms)) = .answered (.ok .contended))
    (hstop : last < terms.backoff.retries.toNat →
      c.reply last (.acquire (c.claim key terms)) ≠ .answered (.ok .contended))
    (hdelay : ∀ a < last, terms.backoff.jittered? a (c.word a) = some (delay a)) :
    c.Plays [] (acquire key terms)
      (.mint :: .mint :: ((List.range last).flatMap ((c.acquisition key terms).round delay) ++
        .count .attempts :: (c.acquisition key terms).attempt ::
        (Acquisition.ending (c.reply last (.acquire (c.claim key terms)))).map .count))
      ((c.acquisition key terms).result (c.reply last (.acquire (c.claim key terms)))) := by
  have hrun (log : List Effect) (hcalls : log.countP Effect.isCall = 0) :
      c.Plays log ((c.acquisition key terms).run 0 terms.backoff.retries.toNat)
        ((List.range last).flatMap ((c.acquisition key terms).round delay) ++
          .count .attempts :: (c.acquisition key terms).attempt ::
          (Acquisition.ending (c.reply last (.acquire (c.claim key terms)))).map .count)
        ((c.acquisition key terms).result (c.reply last (.acquire (c.claim key terms)))) := by
    have hrounds := Acquisition.plays_run (c.acquisition key terms) c last hcalls hlast
      (fun k hk => (Nat.zero_add k).symm ▸ hcontended k hk)
      (fun hfewer => (Nat.zero_add last).symm ▸ hstop hfewer)
      (fun k hk => (Nat.zero_add k).symm ▸ hdelay k hk)
    rw [Nat.zero_add, ← List.range_eq_range'] at hrounds
    exact hrounds
  rw [acquire, checkKey_of_isValidKey hkey, hterms]
  apply ReplySequence.plays_quiet rfl
  apply ReplySequence.plays_deed rfl
  apply ReplySequence.plays_deed rfl
  apply ReplySequence.plays_quiet rfl
  exact hrun _ rfl

/-- An acquisition asks for the key until an attempt does not meet another holder or none is left,
always in the same words, and waits after each attempt that did but the last. It comes to what its
last attempt comes to, and counts each attempt and its own end. -/
theorem acquire_exact (c : ReplySequence) (last : Nat) (delay : Nat → Span) (hkey : isValidKey key = true)
    (hterms : terms.check = .ok ()) (hlast : last ≤ terms.backoff.retries.toNat)
    (hcontended : ∀ a < last,
      c.reply a (.acquire (c.claim key terms)) = .answered (.ok .contended))
    (hstop : last < terms.backoff.retries.toNat →
      c.reply last (.acquire (c.claim key terms)) ≠ .answered (.ok .contended))
    (hdelay : ∀ a < last, terms.backoff.jittered? a (c.word a) = some (delay a)) :
    (c.play [] (acquire key terms)).1.filter Effect.isTimed =
        (List.range last).flatMap (fun a =>
          [.call (some terms.effectiveLimit) (.acquire (c.claim key terms)), .pause (delay a)]) ++
        [.call (some terms.effectiveLimit) (.acquire (c.claim key terms))] ∧
      (c.play [] (acquire key terms)).1.countP Effect.isMint = 2 ∧
      (c.play [] (acquire key terms)).2 =
        (match c.reply last (.acquire (c.claim key terms)) with
        | .answered (.ok (.granted validUntil)) =>
          .ok ⟨key, (c.claim key terms).leaseId, validUntil, (c.claim key terms).nonce⟩
        | .answered (.ok .contended) =>
          .failed (.exhausted key (min (terms.backoff.retries.toNat + 1) (2 ^ 32 - 1)))
        | .answered (.failed fault) => .failed fault
        | .answered .overflow => .overflow
        | .timedOut => .failed (.timedOut terms.effectiveLimit)) ∧
      ∀ counter, (c.play [] (acquire key terms)).1.countP (Effect.isCount counter) =
        match counter with
        | .attempts => last + 1
        | .contended => (List.range (last + 1)).countP fun a =>
          (c.reply a (.acquire (c.claim key terms))).isContended
        | .acquired => match (c.play [] (acquire key terms)).2 with
          | .ok _ => 1
          | _ => 0
        | .failed => match (c.play [] (acquire key terms)).2 with
          | .failed _ => 1
          | _ => 0
        | .released | .renewed | .mismatched => 0 := by
  obtain ⟨log, hplay, hdeeds⟩ := (plays_acquire hkey hterms hlast hcontended hstop hdelay).exists_log
  rw [hplay]
  refine ⟨?_, ?_, ?_, ?_⟩
  · rw [← Effect.filter_filter_isDeed Effect.isDeed_of_isTimed, hdeeds]
    exact (c.acquisition key terms).filter_isTimed_rounds delay last _
  · rw [← Effect.countP_filter_isDeed Effect.isDeed_of_isMint, hdeeds]
    rw [List.countP_cons_of_pos rfl, List.countP_cons_of_pos rfl,
      (c.acquisition key terms).countP_isMint_rounds]
  · cases c.reply last (.acquire (c.claim key terms)) with
    | timedOut => rfl
    | answered outcome =>
      cases outcome with
      | failed fault => rfl
      | overflow => rfl
      | ok grant => cases grant <;> rfl
  · intro counter
    rw [← Effect.countP_filter_isDeed (Effect.isDeed_of_isCount counter), hdeeds]
    rw [List.countP_cons_of_neg Bool.false_ne_true, List.countP_cons_of_neg Bool.false_ne_true,
      (c.acquisition key terms).countP_isCount_rounds]
    have hmet : (List.range last).countP (fun a =>
        (c.reply a (.acquire (c.claim key terms))).isContended) = last := by
      rw [List.countP_eq_length.mpr, List.length_range]
      intro a ha
      rw [hcontended a (List.mem_range.mp ha)]
      rfl
    rw [List.range_succ, List.countP_append, hmet, List.countP_singleton,
      (c.acquisition key terms).count_ending]
    cases counter <;> simp

def secondTry : ReplySequence where
  id n := if n = 0 then "lease" else "nonce"
  reply
    | 0, .acquire _ => .answered (.ok .contended)
    | _, .acquire _ => .answered (.ok (.granted .epoch))
    | _, _ => .timedOut
  word _ := 0
  ticks _ := 0

def steadyTerms : Terms :=
  ⟨.ofMillis 1000, ⟨3, .ofMillis 100, .ofSeconds 10, 0, 2⟩, .empty, .zero⟩

theorem acquire_exact_second_try :
    isValidKey "job" = true ∧ steadyTerms.check = .ok () ∧
      steadyTerms.backoff.jittered? 0 (secondTry.word 0) = some (.ofMillis 100) ∧
      (secondTry.play [] (acquire "job" steadyTerms)).2 =
        .ok ⟨"job", "lease", .epoch, "nonce"⟩ := by
  have hkey : isValidKey "job" = true := by decide
  have hterms : steadyTerms.check = .ok () := by decide +kernel
  have hdelay : steadyTerms.backoff.jittered? 0 (secondTry.word 0) = some (.ofMillis 100) := by
    decide +kernel
  have hcontended : ∀ a < 1, secondTry.reply a (.acquire (secondTry.claim "job" steadyTerms)) =
      .answered (.ok .contended) := by
    rintro a ha
    obtain rfl : a = 0 := by omega
    rfl
  have hgranted : secondTry.reply 1 (.acquire (secondTry.claim "job" steadyTerms)) ≠
      .answered (.ok .contended) := by
    simp [secondTry]
  have hdelays : ∀ a < 1, steadyTerms.backoff.jittered? a (secondTry.word a) =
      some (.ofMillis 100) := by
    rintro a ha
    obtain rfl : a = 0 := by omega
    exact hdelay
  have hexact := acquire_exact secondTry 1 (fun _ => .ofMillis 100) hkey hterms (by decide) hcontended
    (fun _ => hgranted) hdelays
  exact ⟨hkey, hterms, hdelay, hexact.2.2.1⟩

end Coordinator

end LeaseLock
