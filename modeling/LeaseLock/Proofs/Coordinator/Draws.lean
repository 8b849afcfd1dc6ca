import LeaseLock.Proofs.Coordinator.Admission
import LeaseLock.Proofs.Lock.Spread

/-!
The random words of an acquisition. With jitter every wait after an attempt takes one word, so the
words, taken in order, go one to each retry, and what a retry waits depends on nothing else.
-/

namespace LeaseLock

namespace Exchange

def word? : Exchange → Option UInt64
  | ⟨.drawWord, word⟩ => some word
  | _ => none

def wait? : Exchange → Option Span
  | ⟨.pause delay, _⟩ => some delay
  | _ => none

end Exchange

def wordsOf (heard : List Exchange) : List UInt64 := heard.filterMap Exchange.word?

def waitsOf (heard : List Exchange) : List Span := heard.filterMap Exchange.wait?

theorem wordsOf_append (heard more : List Exchange) :
    wordsOf (heard ++ more) = wordsOf heard ++ wordsOf more := List.filterMap_append

theorem waitsOf_append (heard more : List Exchange) :
    waitsOf (heard ++ more) = waitsOf heard ++ waitsOf more := List.filterMap_append

structure Matched (b : Backoff) (heard : List Exchange) (count : Nat) : Prop where
  length_eq : (wordsOf heard).length = count
  waits_eq : (waitsOf heard).map some = (wordsOf heard).mapIdx b.jittered?

def Draws (b : Backoff) (count : Nat) (x : Program α) : Prop :=
  ∀ (replies : Replies) (heard : List Exchange), Matched b heard count →
    (waitsOf (replies.hear heard x).1).map some <+:
      (wordsOf (replies.hear heard x).1).mapIdx b.jittered?

namespace Draws

variable {b : Backoff} {count : Nat}

theorem of_done (answer : α) : Draws b count (pure answer) := by
  intro replies heard h
  exact h.waits_eq ▸ List.prefix_rfl

theorem of_quiet {effect : Effect} {f : effect.Reply → Program α}
    (hword : ∀ reply, Exchange.word? ⟨effect, reply⟩ = none)
    (hwait : ∀ reply, Exchange.wait? ⟨effect, reply⟩ = none) (h : ∀ reply, Draws b count (f reply)) :
    Draws b count (Program.ask effect >>= f) := by
  intro replies heard hmatched
  rw [Replies.hear_ask]
  apply h
  have hwords : wordsOf [⟨effect, replies heard effect⟩] = [] := List.filterMap_cons_none (hword _)
  have hwaits : waitsOf [⟨effect, replies heard effect⟩] = [] := List.filterMap_cons_none (hwait _)
  constructor
  · rw [wordsOf_append, hwords, List.append_nil, hmatched.length_eq]
  · rw [wordsOf_append, waitsOf_append, hwords, hwaits, List.append_nil, List.append_nil,
      hmatched.waits_eq]

end Draws

namespace Acquisition

variable {a : Acquisition} {count : Nat}

theorem draws_report {b : Backoff} {level : Level} {message : String}
    {fields : List (String × String)} {f : Unit → Program α} (h : Draws b count (f ())) :
    Draws b count (Program.report level message fields >>= f) :=
  .of_quiet (fun _ => rfl) (fun _ => rfl) fun _ => h

theorem draws_count {b : Backoff} {counter : Counter} {f : Unit → Program α}
    (h : Draws b count (f ())) : Draws b count (Program.ask (.count counter) >>= f) :=
  .of_quiet (fun _ => rfl) (fun _ => rfl) fun _ => h

theorem draws_recordDuration {b : Backoff} {f : Unit → Program α} (h : Draws b count (f ())) :
    Draws b count (a.recordDuration >>= f) :=
  .of_quiet (fun _ => rfl) (fun _ => rfl) fun _ =>
    .of_quiet (fun _ => rfl) (fun _ => rfl) fun _ => h

theorem draws_settle {b : Backoff} (attempt : Nat) {retry : Program (Outcome Token)}
    (hretry : Draws b count retry) (met : Attempt) :
    Draws b count (a.settle attempt retry met) := by
  cases met with
  | granted validUntil => exact draws_count (draws_recordDuration (draws_report (.of_done _)))
  | contended => exact draws_count hretry
  | failed fault => exact draws_report (draws_count (.of_done _))
  | timedOut => exact draws_report (draws_count (.of_done _))
  | overflow => exact .of_done _

theorem draws_giveUp {b : Backoff} : Draws b count a.giveUp :=
  draws_count (draws_recordDuration (draws_report (.of_done _)))

theorem draws_tryOnce {b : Backoff} {next : Attempt → Program (Outcome Token)}
    (h : ∀ met, Draws b count (next met)) : Draws b count (a.tryOnce.bind next) :=
  draws_count (.of_quiet (fun _ => rfl) (fun _ => rfl) fun _ => h _)

theorem hear_chooseWait {attempt : Nat} {delay : Span} {width : Binary64}
    (hwait : a.backoff.wait attempt = .spread delay width) (replies : Replies)
    (heard : List Exchange) :
    replies.hear heard (a.chooseWait attempt) =
      (heard ++ [⟨.drawWord, replies heard .drawWord⟩],
        a.backoff.jittered? attempt (replies heard .drawWord)) := by
  simp only [chooseWait, Backoff.jittered?, hwait]
  rfl

theorem hear_backOff {attempt : Nat} {delay : Span} {width : Binary64}
    (hwait : a.backoff.wait attempt = .spread delay width) (replies : Replies)
    (heard : List Exchange) :
    ∃ word later outcome, replies.hear heard (a.backOff attempt) = (later, outcome) ∧
      wordsOf later = wordsOf heard ++ [word] ∧
      (a.backoff.jittered? attempt word = none ∧ outcome = .overflow ∧ waitsOf later = waitsOf heard ∨
        ∃ wait, a.backoff.jittered? attempt word = some wait ∧ outcome = .ok () ∧
          waitsOf later = waitsOf heard ++ [wait]) := by
  refine ⟨replies heard .drawWord, ?_⟩
  rw [backOff, Replies.hear_bind, hear_chooseWait hwait]
  generalize replies heard .drawWord = word
  cases hdecided : a.backoff.jittered? attempt word with
  | none =>
    refine ⟨_, _, rfl, wordsOf_append _ _, .inl ⟨rfl, rfl, ?_⟩⟩
    exact (waitsOf_append _ _).trans (List.append_nil _)
  | some wait =>
    refine ⟨_, _, rfl, ?_, .inr ⟨wait, rfl, rfl, ?_⟩⟩
    · simp only [List.append_assoc]
      exact wordsOf_append _ _
    · simp only [List.append_assoc]
      exact waitsOf_append _ _

theorem draws_backOff {attempt : Nat} {delay : Span} {width : Binary64} {f : Outcome Unit → Program α}
    {answer : α} (hwait : a.backoff.wait attempt = .spread delay width)
    (hnext : Draws a.backoff (attempt + 1) (f (.ok ()))) (hend : f .overflow = .done answer) :
    Draws a.backoff attempt ((a.backOff attempt).bind f) := by
  intro replies heard h
  obtain ⟨word, later, outcome, hhear, hwords, hdecided⟩ := hear_backOff hwait replies heard
  have hmatched : (wordsOf later).mapIdx a.backoff.jittered? =
      (waitsOf heard).map some ++ [a.backoff.jittered? attempt word] := by
    rw [hwords, List.mapIdx_concat, h.waits_eq, h.length_eq]
  have hbind : replies.hear heard (a.backOff attempt >>= f) = replies.hear later (f outcome) := by
    rw [Replies.hear_bind, hhear]
  change (waitsOf (replies.hear heard (a.backOff attempt >>= f)).1).map some <+:
    (wordsOf (replies.hear heard (a.backOff attempt >>= f)).1).mapIdx a.backoff.jittered?
  rw [hbind]
  rcases hdecided with ⟨-, rfl, hwaits⟩ | ⟨wait, hwait, rfl, hwaits⟩
  · rw [hend, Replies.hear_done, hmatched, hwaits]
    exact List.prefix_append _ _
  · apply hnext
    constructor
    · rw [hwords, List.length_append, h.length_eq, List.length_singleton]
    · rw [hwaits, hmatched, hwait, List.map_append, List.map_singleton]

theorem draws_run (a : Acquisition)
    (hwait : ∀ attempt, ∃ delay width, a.backoff.wait attempt = .spread delay width)
    (attempt left : Nat) : Draws a.backoff attempt (a.run attempt left) := by
  induction left generalizing attempt with
  | zero =>
    rw [run]
    exact draws_tryOnce fun met => draws_settle attempt draws_giveUp met
  | succ left ih =>
    rw [run]
    obtain ⟨delay, width, hspread⟩ := hwait attempt
    refine draws_tryOnce fun met => draws_settle attempt ?_ met
    exact draws_backOff hspread (ih (attempt + 1)) rfl

end Acquisition

theorem exists_wait_spread {b : Backoff} (hcheck : b.check = .ok ()) (hpos : 0 < b.jitter.value)
    (attempt : Nat) : ∃ delay width, b.delay? attempt = some delay ∧ delay.isZero = false ∧
      b.wait attempt = .spread delay width := by
  have hsound := Backoff.isSound_of_check hcheck
  obtain ⟨delay, hdelay, -⟩ := hsound.exists_delay attempt
  have hsome : delay.isZero = false := by
    rw [Span.isZero, beq_eq_false_iff_ne]
    exact Nat.ne_of_gt (Backoff.delay_pos hcheck hdelay)
  obtain ⟨width, hwait, -⟩ := hsound.exists_wait hpos hdelay hsome
  exact ⟨delay, width, hdelay, hsome, hwait⟩

namespace Coordinator

theorem draws_guarded {b : Backoff} {count : Nat} (check : Except Fault Unit)
    {next : Program (Outcome α)} (hnext : Draws b count next) :
    Draws b count (Program.guarded check next) := by
  cases check with
  | ok _ => exact hnext
  | error fault => exact .of_done _

theorem draws_acquire (key : String) {terms : Terms} (hcheck : terms.backoff.check = .ok ())
    (hpos : 0 < terms.backoff.jitter.value) : Draws terms.backoff 0 (acquire key terms) := by
  refine draws_guarded _ (draws_guarded _ (.of_quiet (fun _ => rfl) (fun _ => rfl) fun closed => ?_))
  by_cases hclosed : closed = true
  · rw [if_pos hclosed]
    exact .of_done _
  · rw [if_neg hclosed]
    refine .of_quiet (fun _ => rfl) (fun _ => rfl) fun leaseId => ?_
    refine .of_quiet (fun _ => rfl) (fun _ => rfl) fun nonce => ?_
    refine .of_quiet (fun _ => rfl) (fun _ => rfl) fun started => ?_
    apply Acquisition.draws_run ⟨⟨key, leaseId, nonce, terms.ttl, terms.metadata.text⟩,
      terms.backoff, terms.effectiveLimit, started⟩
    intro attempt
    obtain ⟨delay, width, -, -, hwait⟩ := exists_wait_spread hcheck hpos attempt
    exact ⟨delay, width, hwait⟩

/-- Under a checked backoff with jitter a spread delay lies between the delay shrunk and the delay
stretched by the jitter, both cut at the cap, and choosing it draws one word, unless the delay were
empty. Whatever an acquisition is told, each of its waits is decided by its attempt and the word in
the same place among those drawn. -/
theorem waits_within_spread {terms : Terms} (hcheck : terms.backoff.check = .ok ())
    (hpos : 0 < terms.backoff.jitter.value) :
    (∀ attempt delay, terms.backoff.delay? attempt = some delay →
      (∀ word wait low high, terms.backoff.jittered? attempt word = some wait →
        delay.scale? (1 - terms.backoff.jitter) = some low →
        delay.scale? (1 + terms.backoff.jitter) = some high →
        min low terms.backoff.cap ≤ wait ∧ wait ≤ min high terms.backoff.cap) ∧
      ∀ (a : Acquisition) (replies : Replies) (heard : List Exchange), a.backoff = terms.backoff →
        wordsOf (replies.hear heard (a.chooseWait attempt)).1 =
          wordsOf heard ++ (if delay.nanos = 0 then [] else [replies heard .drawWord]) ∧
        (replies.hear heard (a.chooseWait attempt)).2 =
          terms.backoff.jittered? attempt (replies heard .drawWord)) ∧
    ∀ (replies : Replies) (key : String) (retry : Nat) (wait : Span),
      (waitsOf (replies.hear [] (acquire key terms)).1)[retry]? = some wait →
      ∃ word, (wordsOf (replies.hear [] (acquire key terms)).1)[retry]? = some word ∧
        terms.backoff.jittered? retry word = some wait := by
  have hsound := Backoff.isSound_of_check hcheck
  constructor
  · intro attempt delay hdelay
    obtain ⟨delay', width, hdelay', hsome, hspread⟩ := exists_wait_spread hcheck hpos attempt
    obtain rfl : delay = delay' := Option.some.inj (hdelay.symm.trans hdelay')
    constructor
    · intro word wait low high hwait hlow hhigh
      exact hsound.jittered?_between hpos hdelay hsome hwait hlow hhigh
    · rintro a replies heard hbackoff
      rw [← hbackoff] at hspread ⊢
      rw [Acquisition.hear_chooseWait hspread, wordsOf_append,
        if_neg (Nat.ne_of_gt (Backoff.delay_pos hcheck hdelay))]
      exact ⟨rfl, rfl⟩
  · intro replies key retry wait hwait
    have hmatched : Matched terms.backoff [] 0 := ⟨rfl, rfl⟩
    obtain ⟨rest, hrest⟩ := draws_acquire key hcheck hpos replies [] hmatched
    have hplace : ((waitsOf (replies.hear [] (acquire key terms)).1).map some)[retry]? =
        some (some wait) := by rw [List.getElem?_map, hwait, Option.map_some]
    have hdecided : (((waitsOf (replies.hear [] (acquire key terms)).1).map some) ++ rest)[retry]? =
        some (some wait) :=
      (List.getElem?_append_left (List.getElem?_eq_some_iff.mp hplace).1).trans hplace
    rw [hrest, List.getElem?_mapIdx, Option.map_eq_some_iff] at hdecided
    exact hdecided

def spreadTerms : Terms := ⟨.ofMillis 1000, .standard, .empty, .zero⟩

theorem waits_within_spread_standard : spreadTerms.backoff.check = .ok () ∧
    0 < spreadTerms.backoff.jitter.value ∧
    (∀ word wait, spreadTerms.backoff.jittered? 1 word = some wait →
      .ofMillis 140 ≤ wait ∧ wait ≤ .ofMillis 260) ∧
    ∃ word, (wordsOf (secondTry.replies.hear [] (acquire "job" spreadTerms)).1)[0]? = some word ∧
      spreadTerms.backoff.jittered? 0 word = some (.ofMillis 70) := by
  have hcheck : spreadTerms.backoff.check = .ok () := by decide +kernel
  have hpos : 0 < spreadTerms.backoff.jitter.value := by decide +kernel
  have hdelay : spreadTerms.backoff.delay? 1 = some (.ofMillis 200) := by decide +kernel
  have hends : (Span.ofMillis 200).scale? (1 - spreadTerms.backoff.jitter) = some (.ofMillis 140) ∧
      (Span.ofMillis 200).scale? (1 + spreadTerms.backoff.jitter) = some (.ofMillis 260) := by
    decide +kernel
  have hwait : (waitsOf (secondTry.replies.hear [] (acquire "job" spreadTerms)).1)[0]? =
      some (.ofMillis 70) := by decide +kernel
  obtain ⟨hspread, hwaits⟩ := waits_within_spread hcheck hpos
  refine ⟨hcheck, hpos, ?_, hwaits secondTry.replies "job" 0 _ hwait⟩
  intro word wait hdecided
  exact (hspread 1 _ hdelay).1 word wait _ _ hdecided hends.1 hends.2

end Coordinator

end LeaseLock
