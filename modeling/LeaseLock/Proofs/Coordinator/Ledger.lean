import LeaseLock.Proofs.Coordinator.Bookkeeping
import LeaseLock.Proofs.Coordinator.SingleUse

/-!
The counters of the coordinators, the counts of their store and its leases account for each other.
The store is in memory, answers every call in time, and is reached through the coordinators only; it
may be purged.
-/

namespace LeaseLock

open Interaction

theorem RegistryCounts.Tells.perm {c : RegistryCounts} {l k : List Verdict} (h : c.Tells l)
    (hperm : k.Perm l) : c.Tells k := by
  obtain ⟨hacquisitions, hcontended, hreleases, hrenewals⟩ := h
  constructor <;> simp only [hperm.count_eq, *]

theorem count_calls (vs : List Verdict) :
    (vs.flatMap Verdict.calls).count .attempts =
        vs.count .granted + vs.count .contended + vs.count .failed ∧
      (vs.flatMap Verdict.calls).count .acquired = vs.count .granted ∧
      (vs.flatMap Verdict.calls).count .contended = vs.count .contended ∧
      (vs.flatMap Verdict.calls).count .failed = 0 ∧
      (vs.flatMap Verdict.calls).count .released = vs.count .released ∧
      (vs.flatMap Verdict.calls).count .renewed = vs.count .renewed ∧
      (vs.flatMap Verdict.calls).count .mismatched = vs.count .mismatched := by
  induction vs with
  | nil => simp
  | cons v rest ih =>
    cases v <;> simp [Verdict.calls, ih] <;> omega

namespace Job

def book (j : Job) : Book := bookkeeping.heard .blank j.heard

def isDefeated (j : Job) : Bool := j.operation.isDefeated j.book

def isFinished : Job → Bool
  | ⟨_, _, _, .done .overflow⟩ => false
  | ⟨_, _, _, .done _⟩ => true
  | _ => false

end Job

namespace Cluster

/-- No call on the store takes too long, and besides the coordinators only purges reach it. -/
def Move.IsOwn : Move → Prop
  | .start _ _ => True
  | .advance _ w => w.delivery = .answered
  | .visit v => v.service = .purge

def purgedBy (s : Cluster) : Move → Nat
  | .visit ⟨.purge, reading, _⟩ =>
    match s.store, Instant.ofNanos? reading with
    | .memory registry, some now => (registry.purge now).1
    | _, _ => 0
  | _ => 0

def purged (s : Cluster) : List Move → Nat
  | [] => 0
  | m :: rest => s.purgedBy m + (s.step m).purged rest

def verdicts (s : Cluster) : List Verdict := s.jobs.flatMap fun j => j.book.verdicts

def counter (s : Cluster) (c : Counter) : UInt64 :=
  .ofNat ((s.jobs.flatMap fun j => j.book.counted).count c)

variable {s : Cluster} {r : Registry} {w : EffectInput} {purgedSoFar : Nat}

theorem count_counted {jobs : List Job} (h : ∀ j ∈ jobs, j.book.IsSettled j.isDefeated) (c : Counter) :
    (jobs.flatMap fun j => j.book.counted).count c =
      ((jobs.flatMap fun j => j.book.verdicts).flatMap Verdict.calls).count c +
        if c = .failed then jobs.countP Job.isDefeated else 0 := by
  induction jobs with
  | nil => simp
  | cons j rest ih =>
    have hfirst := h j List.mem_cons_self c
    have hrest := ih fun k hk => h k (List.mem_cons_of_mem j hk)
    simp only [List.flatMap_cons, List.flatMap_append, List.count_append, List.countP_cons, hfirst,
      hrest, Book.calls]
    by_cases hc : c = .failed <;> cases j.isDefeated <;> simp [hc] <;> omega

structure Booked (s : Cluster) (purgedSoFar : Nat) (r : Registry) : Prop where
  store : s.store = .memory r
  answered : ∀ job ∈ s.jobs, ∀ e ∈ job.heard, bookkeeping.allows e.effect e.reply
  tells : r.counts.Tells s.verdicts
  balanced : r.Balanced purgedSoFar

theorem booked_opened (members : Nat → Coordinator) :
    (opened members (.memory .new)).Booked 0 .new where
  store := rfl
  answered _ hjob := (List.not_mem_nil hjob).elim
  tells := Registry.tells_new
  balanced := Registry.balanced_new

theorem input_of_answered (s : Cluster) (hw : w.delivery = .answered) (effect : Effect) :
    s.input w effect = w := by
  obtain ⟨reading, inCalendar, id, word, ticks, delivery⟩ := w
  cases hw
  unfold input
  split
  · exact ite_self _
  · rfl

theorem booked_respond (hstore : s.store = .memory r) (hr : r.Sound) (hw : w.delivery = .answered)
    (owner : Nat) (effect : Effect) :
    ∃ after verdicts, (s.respond owner w effect).2.store = .memory after ∧
      bookkeeping.allows effect (s.respond owner w effect).1 ∧
      (∀ b, (bookkeeping.next b effect (s.respond owner w effect).1).verdicts =
        verdicts ++ b.verdicts) ∧
      (∀ earlier, r.counts.Tells earlier → after.counts.Tells (verdicts ++ earlier)) ∧
      (r.Balanced purgedSoFar → after.Balanced purgedSoFar) := by
  cases effect with
  | call limit call =>
    simp only [respond, input_of_answered s hw, Backing.respond, hw, hstore, Backing.applyAt]
    refine ⟨_, _, rfl, trivial, fun b => rfl, fun earlier h => ?_, fun h => ?_⟩
    · exact Registry.tells_apply h _ _ _
    · exact h.apply hr _ _ _
  | _ => exact ⟨r, [], hstore, trivial, fun _ => rfl, fun _ h => h, fun h => h⟩

theorem Booked.advance (h : s.Booked purgedSoFar r) (hr : r.Sound) (hw : w.delivery = .answered)
    (i : Nat) : ∃ after, (s.step (.advance i w)).Booked purgedSoFar after := by
  cases hjob : s.jobs[i]? with
  | none =>
    rw [step_none hjob]
    exact ⟨r, h⟩
  | some job =>
    have hmem : job ∈ s.jobs := List.mem_of_getElem? hjob
    obtain ⟨owner, operation, heard, rest⟩ := job
    cases rest with
    | done outcome =>
      rw [step_done hjob]
      exact ⟨r, h⟩
    | ask effect next =>
      obtain ⟨after, verdicts, hstore, hallows, hverdicts, htells, hbalanced⟩ :=
        booked_respond h.store hr hw owner effect
      refine ⟨after, ?_⟩
      rw [step_ask hjob]
      refine ⟨hstore, ?_, ?_, hbalanced h.balanced⟩
      · intro job hnew e he
        obtain hold | rfl := List.mem_or_eq_of_mem_set hnew
        · exact h.answered job hold e he
        · obtain hearlier | hlast := List.mem_append.mp he
          · exact h.answered _ hmem e hearlier
          · cases List.mem_singleton.mp hlast
            exact hallows
      · -- The verdict stands in the book of the job that asked, wherever that is in the list.
        refine (htells _ h.tells).perm (flatMap_set_perm hjob ?_)
        simp only [Job.book, Contract.heard, List.foldl_append]
        exact hverdicts _

theorem Booked.step (h : s.Booked purgedSoFar r) (hs : s.Consistent) {m : Move} (hown : m.IsOwn) :
    ∃ after, (s.step m).Booked (purgedSoFar + s.purgedBy m) after := by
  have hr : r.Sound := by
    have hsound := hs.sound
    rwa [h.store] at hsound
  cases m with
  | advance i w => exact h.advance hr hown i
  | start owner operation =>
    refine ⟨r, h.store, fun job hjob e he => ?_, ?_, h.balanced⟩
    · obtain hold | hnew := List.mem_append.mp hjob
      · exact h.answered job hold e he
      · cases List.mem_singleton.mp hnew
        cases he
    · have hverdicts : (s.step (.start owner operation)).verdicts = s.verdicts := by
        simp [verdicts, Cluster.step, Job.book, Contract.heard, Book.blank]
      rw [hverdicts]
      exact h.tells
  | visit v =>
    obtain ⟨service, reading, newNonce⟩ := v
    obtain rfl : service = .purge := hown
    simp only [purgedBy, h.store]
    cases hnow : Instant.ofNanos? reading with
    | none =>
      refine ⟨r, ?_, h.answered, h.tells, h.balanced⟩
      simp only [Cluster.step, Backing.visit, Backing.purgeAt, hnow, h.store]
    | some now =>
      refine ⟨(r.purge now).2, ?_, h.answered, h.tells, h.balanced.purge now⟩
      simp only [Cluster.step, Backing.visit, Backing.purgeAt, h.store, hnow]

theorem Booked.run (h : s.Booked purgedSoFar r) (hs : s.Consistent) {moves : List Move}
    (hown : ∀ m ∈ moves, m.IsOwn) :
    ∃ after, (s.run moves).Booked (purgedSoFar + s.purged moves) after := by
  induction moves generalizing s purgedSoFar r with
  | nil => exact ⟨r, h⟩
  | cons m rest ih =>
    obtain ⟨after, hafter⟩ := h.step hs (hown m List.mem_cons_self)
    rw [purged, ← Nat.add_assoc]
    exact ih hafter (hs.step m) fun n hn => hown n (List.mem_cons_of_mem m hn)

theorem Booked.counts (h : s.Booked purgedSoFar r) (hs : s.Consistent)
    (hfinished : ∀ job ∈ s.jobs, job.isFinished = true) (c : Counter) :
    (s.jobs.flatMap fun j => j.book.counted).count c =
      (s.verdicts.flatMap Verdict.calls).count c +
        if c = .failed then s.jobs.countP Job.isDefeated else 0 := by
  apply count_counted
  intro job hjob
  have hleads := hs.leads job hjob
  have hanswered := h.answered job hjob
  have hended := hfinished job hjob
  obtain ⟨owner, operation, heard, rest⟩ := job
  have hkeeps := hleads.keeps_of_allowed hanswered (operation.keeps_bookkeeping _)
  cases rest with
  | ask effect next => cases hended
  | done outcome =>
    apply keeps_done.mp hkeeps
    rintro rfl
    cases hended

/-- The store's counts account for its leases, and once all operations have ended without a panic, the
counters of the coordinators agree with them. -/
theorem counters_agree (members : Nat → Coordinator) {moves : List Move}
    (hown : ∀ m ∈ moves, m.IsOwn) :
    let start := opened members (.memory .new)
    let s := start.run moves
    ∃ r, s.store = .memory r ∧
      (r.closed = false → r.counts.acquisitions = r.counts.takeovers + r.counts.releases +
        .ofNat (start.purged moves) + .ofNat r.leases.size) ∧
      ((∀ job ∈ s.jobs, job.isFinished = true) →
        s.counter .acquired = r.counts.acquisitions ∧
        s.counter .contended = r.counts.contended ∧
        s.counter .released = r.counts.releases ∧
        s.counter .renewed = r.counts.renewals ∧
        s.counter .attempts = r.counts.acquisitions + r.counts.contended +
          .ofNat (s.verdicts.count .failed) ∧
        s.counter .failed = .ofNat (s.jobs.countP Job.isDefeated) ∧
        s.counter .mismatched = .ofNat (s.verdicts.count .mismatched)) := by
  have hstart := consistent_opened (b := .memory .new) rfl members
  obtain ⟨r, hbooked⟩ := (booked_opened members).run hstart hown
  refine ⟨r, hbooked.store, ?_, fun hfinished => ?_⟩
  · rw [← Nat.zero_add (purged _ _)]
    exact hbooked.balanced
  · have hcounts := hbooked.counts (hstart.run moves) hfinished
    obtain ⟨hacquisitions, hcontended, hreleases, hrenewals⟩ := hbooked.tells
    obtain ⟨attempts, acquired, contended, failed, released, renewed, mismatched⟩ :=
      count_calls ((opened members (.memory .new)).run moves).verdicts
    simp [counter, *]

def advances (i n : Nat) : List Move := .replicate n (.advance i (OpenCluster.ordinaryInput "id" .answered))

def once : Terms := { Terms.standard with backoff := { Backoff.standard with retries := 0 } }

def tokenOf (leaseId : String) : Token :=
  { OpenCluster.jobToken with leaseId := leaseId, nonce := leaseId }

def busyMorning : List Move :=
  .start 0 (.request (.acquire "job" .standard)) :: advances 0 10 ++
  .start 1 (.request (.acquire "job" once)) :: advances 1 11 ++
  .start 1 (.request (.release (tokenOf "other"))) :: advances 2 4 ++
  .start 1 (.request (.acquire "task" once)) :: advances 3 10 ++
  .start 0 (.request (.release (tokenOf "id"))) :: advances 4 4 ++
  [.visit ⟨.purge, 1700001000000000000, ""⟩]

def busyDay : List Move :=
  busyMorning ++ .start 0 .close :: advances 5 3 ++
    .start 1 (.request (.acquire "late" once)) :: advances 6 8

theorem isOwn_busyDay : ∀ m ∈ busyDay, m.IsOwn := by
  simp [busyDay, busyMorning, advances, Move.IsOwn, OpenCluster.ordinaryInput]

theorem counters_agree_busyDay :
    (∀ m ∈ busyDay, m.IsOwn) ∧ (∀ job ∈ (blank.run busyDay).jobs, job.isFinished = true) ∧
      (∃ r, (blank.run busyMorning).store = .memory r ∧ r.closed = false ∧
        r.counts.acquisitions = r.counts.takeovers + r.counts.releases +
          .ofNat (blank.purged busyMorning) + .ofNat r.leases.size) ∧
      ∃ r, (blank.run busyDay).store = .memory r ∧
        (blank.run busyDay).counter .attempts = r.counts.acquisitions + r.counts.contended + 1 ∧
        (blank.run busyDay).counter .failed = 2 ∧ (blank.run busyDay).counter .mismatched = 1 := by
  have hmorning : ∀ m ∈ busyMorning, m.IsOwn := fun m hm =>
    isOwn_busyDay m (List.mem_append_left _ (List.mem_append_left _ hm))
  have hfinished : ∀ job ∈ (blank.run busyDay).jobs, job.isFinished = true := by decide +kernel
  obtain ⟨r, hstore, hbalanced, -⟩ := counters_agree (fun _ => .standard) hmorning
  obtain ⟨q, hlast, -, hcounts⟩ := counters_agree (fun _ => .standard) isOwn_busyDay
  obtain ⟨-, -, -, -, hattempts, hfailed, hmismatched⟩ := hcounts hfinished
  have hopen : r.closed = false := by
    have hready : ¬(blank.run busyMorning).store.IsClosed := by decide +kernel
    rw [blank, hstore] at hready
    exact Bool.eq_false_iff.mpr hready
  have hone : (blank.run busyDay).verdicts.count .failed = 1 := by decide +kernel
  have htwo : (blank.run busyDay).jobs.countP Job.isDefeated = 2 := by decide +kernel
  have hother : (blank.run busyDay).verdicts.count .mismatched = 1 := by decide +kernel
  rw [← blank, hone] at hattempts
  rw [← blank, htwo] at hfailed
  rw [← blank, hother] at hmismatched
  exact ⟨isOwn_busyDay, hfinished, ⟨r, hstore, hopen, hbalanced hopen⟩, q, hlast, hattempts, hfailed,
    hmismatched⟩

end Cluster

end LeaseLock
