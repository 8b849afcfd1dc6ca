import LeaseLock.Proofs.Store.Lasting
import Mathlib.Data.List.Induction

/-!
Two runs of a store in memory side by side, one of them with purges put in. Only a release can tell
them apart, and only by a lease that such a purge has dropped.
-/

namespace LeaseLock

/-- A visit of both stores, or a purge of the second one alone. -/
inductive Stage
  | shared (v : Visit)
  | inserted (reading : Int)

namespace Stage

def reading : Stage → Int
  | .shared v => v.reading
  | .inserted reading => reading

def shared? : Stage → Option Visit
  | .shared v => some v
  | .inserted _ => none

def visit : Stage → Visit
  | .shared v => v
  | .inserted reading => ⟨.purge, reading, ""⟩

end Stage

namespace Registry

def visit (r : Registry) (v : Visit) : Registry :=
  match v.service, Instant.ofNanos? v.reading with
  | .call call, clock => (r.apply clock v.newNonce call).state
  | .purge, some now => (r.purge now).2
  | .purge, none => r

def after (r : Registry) (visits : List Visit) : Registry := visits.foldl visit r

def plain (stages : List Stage) : Registry := new.after (stages.filterMap Stage.shared?)

def purged (stages : List Stage) : Registry := new.after (stages.map Stage.visit)

def live (r : Registry) (now : Instant) : Keyed Lease := r.leases.filter fun l => !l.isExpiredAt now

def Dropped (stages : List Stage) (key : String) (lease : Lease) : Prop :=
  ∃ earlier reading now, earlier ++ [.inserted reading] <+: stages ∧
    Instant.ofNanos? reading = some now ∧ (purged earlier).leases.find? key = some lease ∧
    lease.isExpiredAt now = true

def ReleasesDropped (dropped : String → Lease → Prop) (r : Registry) : Call → Prop
  | .release key leaseId nonce => ∃ lease, r.leases.find? key = some lease ∧
      lease.isOwnedBy leaseId nonce = true ∧ dropped key lease
  | _ => False

variable {reading : Int} {now : Instant} {key : String} {lease : Lease}

theorem memory_visit (r : Registry) (v : Visit) :
    (Backing.memory r).visit v = .memory (r.visit v) := by
  obtain ⟨service, reading, newNonce⟩ := v
  cases service with
  | call call => rfl
  | purge =>
    simp only [Backing.visit, Backing.purgeAt, visit]
    cases Instant.ofNanos? reading <;> rfl

theorem memory_after (r : Registry) (visits : List Visit) :
    (Backing.memory r).after visits = .memory (r.after visits) := by
  induction visits generalizing r with
  | nil => rfl
  | cons v rest ih =>
    change ((Backing.memory r).visit v).after rest = _
    rw [memory_visit, ih]
    rfl

theorem sound_after_new (visits : List Visit) : (new.after visits).Sound := by
  have hopened : (Backing.memory new).IsOpened := rfl
  have hsound := hopened.sound.after visits
  rw [memory_after] at hsound
  exact hsound

theorem lasts_after_new (visits : List Visit) {key : String} {lease : Lease}
    (h : (new.after visits).leases.find? key = some lease) : lease.tenure.Lasts := by
  have hnew : (Backing.memory new).Lasting := by
    intro key t ht
    cases ht
  have hlasting := hnew.after (b := Backing.memory new) sound_new visits
  rw [memory_after] at hlasting
  apply hlasting key
  simp [Backing.tenure?, tenure?, h]

theorem plain_shared (stages : List Stage) (v : Visit) :
    plain (stages ++ [.shared v]) = (plain stages).visit v := by
  simp [plain, after, Stage.shared?]

theorem plain_inserted (stages : List Stage) (reading : Int) :
    plain (stages ++ [.inserted reading]) = plain stages := by
  simp only [plain, List.filterMap_append, List.filterMap_cons, List.filterMap_nil, Stage.shared?,
    List.append_nil]

theorem purged_shared (stages : List Stage) (v : Visit) :
    purged (stages ++ [.shared v]) = (purged stages).visit v := by
  simp [purged, after, Stage.visit]

theorem purged_inserted (stages : List Stage) (h : Instant.ofNanos? reading = some now) :
    purged (stages ++ [.inserted reading]) = ((purged stages).purge now).2 := by
  simp [purged, after, Stage.visit, visit, h]

theorem dropped_nil : ¬Dropped [] key lease := by
  rintro ⟨earlier, reading, now, hearlier, -⟩
  simp at hearlier

theorem dropped_shared (stages : List Stage) (v : Visit) :
    Dropped (stages ++ [.shared v]) = Dropped stages := by
  funext key lease
  simp [Dropped, List.prefix_concat_iff]

theorem dropped_inserted (stages : List Stage) (hnow : Instant.ofNanos? reading = some now) :
    Dropped (stages ++ [.inserted reading]) = fun key lease => Dropped stages key lease ∨
      ((purged stages).leases.find? key = some lease ∧ lease.isExpiredAt now = true) := by
  funext key lease
  simp only [Dropped, List.prefix_concat_iff, eq_iff_iff]
  constructor
  · rintro ⟨earlier, other, shown, hsame | hearlier, hshown, hfind⟩
    · obtain ⟨rfl, hlast⟩ := List.append_inj' hsame rfl
      cases hlast
      cases hnow.symm.trans hshown
      exact .inr hfind
    · exact .inl ⟨earlier, other, shown, hearlier, hshown, hfind⟩
  · rintro (⟨earlier, other, shown, hearlier, hshown, hfind⟩ | hfind)
    · exact ⟨earlier, other, shown, .inr hearlier, hshown, hfind⟩
    · exact ⟨stages, reading, now, .inl rfl, hnow, hfind⟩

end Registry

inductive Trimmed (dropped : Lease → Prop) : Option Lease → Option Lease → Prop
  | none : Trimmed dropped none none
  | kept (lease : Lease) (h : ¬dropped lease) : Trimmed dropped (some lease) (some lease)
  | gone (lease : Lease) (h : dropped lease) : Trimmed dropped (some lease) none

structure Pruned (dropped : String → Lease → Prop) (time : Int) (p q : Registry) : Prop where
  closed : q.closed = p.closed
  rows : ∀ key, Trimmed (dropped key) (p.leases.find? key) (q.leases.find? key)
  expired : ∀ key lease, dropped key lease → lease.validUntil.nanos ≤ time

namespace Pruned

variable {dropped : String → Lease → Prop} {time : Int} {p q p' q' : Registry} {now : Instant}
  {key : String} {lease : Lease}

theorem mono (h : Pruned dropped time p q) {later : Int} (hlater : time ≤ later) :
    Pruned dropped later p q :=
  ⟨h.closed, h.rows, fun key lease hdropped => Int.le_trans (h.expired key lease hdropped) hlater⟩

theorem isExpiredAt (h : Pruned dropped now.nanos p q) (hp : p.Sound) (hn : now.IsOrdinary)
    (hfind : p.leases.find? key = some lease) (hdropped : dropped key lease) :
    lease.isExpiredAt now = true := by
  rw [Lease.isExpiredAt_iff (hp.ordinary key lease hfind) hn]
  exact h.expired key lease hdropped

theorem congr (h : Pruned dropped time p q) (hp : p'.leases = p.leases) (hq : q'.leases = q.leases)
    (hclosed : q'.closed = p'.closed) : Pruned dropped time p' q' := by
  refine ⟨hclosed, ?_, h.expired⟩
  rw [hp, hq]
  exact h.rows

theorem insert (h : Pruned dropped time p q) (hlive : time < lease.validUntil.nanos)
    (hp : p'.leases = p.leases.insert key lease) (hq : q'.leases = q.leases.insert key lease)
    (hclosed : q'.closed = p'.closed) : Pruned dropped time p' q' := by
  refine ⟨hclosed, ?_, h.expired⟩
  intro other
  rw [hp, hq, Keyed.find?_insert, Keyed.find?_insert]
  split
  · rename_i hother
    subst hother
    exact .kept lease fun hdropped => Int.not_lt.mpr (h.expired other lease hdropped) hlive
  · exact h.rows other

theorem remove (h : Pruned dropped time p q)
    (hp : ∀ other, p'.leases.find? other = if other = key then none else p.leases.find? other)
    (hq : ∀ other, q'.leases.find? other = if other = key then none else q.leases.find? other)
    (hclosed : q'.closed = p'.closed) : Pruned dropped time p' q' := by
  refine ⟨hclosed, ?_, h.expired⟩
  intro other
  rw [hp, hq]
  split
  · exact .none
  · exact h.rows other

theorem acquire (h : Pruned dropped now.nanos p q) (hp : p.Sound) (hn : now.IsOrdinary)
    (claim : Claim) :
    (q.acquire (some now) claim).1 = (p.acquire (some now) claim).1 ∧
      Pruned dropped now.nanos (p.acquire (some now) claim).2 (q.acquire (some now) claim).2 := by
  cases hclosed : p.closed with
  | true => simpa [Registry.acquire, h.closed, hclosed] using h
  | false =>
    simp only [Registry.acquire, h.closed, hclosed, Bool.false_eq_true, if_false,
      Registry.acquireAt]
    cases hexpiry : Registry.expiry now claim.ttl with
    | failed fault => exact ⟨rfl, h⟩
    | overflow => exact ⟨rfl, h⟩
    | ok validUntil =>
      have hlive : now.nanos < validUntil.nanos := by
        have hpadding := nanos_grantPadding
        rw [(Registry.expiry_eq_ok hn hexpiry).2, Tenure.term_one]
        omega
      have hrow := h.rows claim.key
      generalize hfind : p.leases.find? claim.key = old, q.leases.find? claim.key = left at hrow
      simp only [Registry.attempt_ok]
      cases hrow with
      | none => exact ⟨rfl, h.insert hlive rfl rfl rfl⟩
      | kept lease _ =>
        dsimp only
        cases lease.isExpiredAt now with
        | true => exact ⟨rfl, h.insert hlive rfl rfl rfl⟩
        | false => exact ⟨rfl, h.congr rfl rfl rfl⟩
      | gone lease hdropped =>
        dsimp only
        rw [if_pos (h.isExpiredAt hp hn hfind hdropped)]
        exact ⟨rfl, h.insert hlive rfl rfl rfl⟩

theorem isRenewableAt? (h : Pruned dropped now.nanos p q) (hp : p.Sound) (hn : now.IsOrdinary)
    (hfind : p.leases.find? key = some lease) (hlasts : lease.tenure.Lasts)
    (hdropped : dropped key lease) : lease.isRenewableAt? now = some false := by
  have hexpired : lease.tenure.validUntil ≤ now.nanos := h.expired key lease hdropped
  have hmargin := lease.margin_nonneg
  rw [Lease.isRenewableAt?_of_lasts (hp.ordinary key lease hfind) hlasts hn, Option.some.injEq,
    decide_eq_false_iff_not]
  omega

theorem renewAt (h : Pruned dropped now.nanos p q) (hl : lease.IsOrdinary) (hn : now.IsOrdinary)
    (key leaseId nonce : String) (ttl : Span) (newNonce : String) :
    (q.renewAt now lease key leaseId nonce ttl newNonce).1 =
        (p.renewAt now lease key leaseId nonce ttl newNonce).1 ∧
      Pruned dropped now.nanos (p.renewAt now lease key leaseId nonce ttl newNonce).2
        (q.renewAt now lease key leaseId nonce ttl newNonce).2 := by
  simp only [Registry.renewAt]
  cases lease.isOwnedBy leaseId nonce with
  | false => exact ⟨rfl, h⟩
  | true =>
    cases lease.isRenewableAt? now with
    | none => exact ⟨rfl, h⟩
    | some early =>
      cases early with
      | false => exact ⟨rfl, h⟩
      | true =>
        cases hexpiry : Registry.expiry now ttl with
        | failed fault => exact ⟨rfl, h⟩
        | overflow => exact ⟨rfl, h⟩
        | ok granted =>
          obtain ⟨hgranted, hnanos⟩ := Registry.expiry_eq_ok hn hexpiry
          refine ⟨rfl, h.insert ?_ rfl rfl h.closed⟩
          have hpadding := nanos_grantPadding
          simp only [Instant.nanos_max hgranted hl.1, hnanos, Tenure.term_one]
          omega

theorem renew (h : Pruned dropped now.nanos p q) (hp : p.Sound)
    (hlasts : ∀ key lease, p.leases.find? key = some lease → lease.tenure.Lasts)
    (hn : now.IsOrdinary) (key leaseId nonce : String) (ttl : Span) (newNonce : String) :
    (q.renew (some now) key leaseId nonce ttl newNonce).1 =
        (p.renew (some now) key leaseId nonce ttl newNonce).1 ∧
      Pruned dropped now.nanos (p.renew (some now) key leaseId nonce ttl newNonce).2
        (q.renew (some now) key leaseId nonce ttl newNonce).2 := by
  cases hclosed : p.closed with
  | true => simpa [Registry.renew, h.closed, hclosed] using h
  | false =>
    simp only [Registry.renew, h.closed, hclosed, Bool.false_eq_true, if_false]
    have hrow := h.rows key
    generalize hfind : p.leases.find? key = old, q.leases.find? key = left at hrow
    cases hrow with
    | none => exact ⟨rfl, h⟩
    | kept lease _ => exact h.renewAt (hp.ordinary key lease hfind) hn key leaseId nonce ttl newNonce
    | gone lease hdropped =>
      have hlate := h.isRenewableAt? hp hn hfind (hlasts key lease hfind) hdropped
      simp only [Registry.renewAt, hlate]
      split
      · exact ⟨rfl, h⟩
      · exact ⟨rfl, h⟩

theorem isHeld (h : Pruned dropped now.nanos p q) (hp : p.Sound) (hn : now.IsOrdinary)
    (key : String) : q.isHeld (some now) key = p.isHeld (some now) key := by
  simp only [Registry.isHeld, h.closed]
  have hrow := h.rows key
  generalize hfind : p.leases.find? key = old, q.leases.find? key = left at hrow
  cases hrow with
  | none => rfl
  | kept lease _ => rfl
  | gone lease hdropped => simp only [h.isExpiredAt hp hn hfind hdropped, if_true]

theorem release (h : Pruned dropped time p q) (key leaseId nonce : String) :
    (¬p.ReleasesDropped dropped (.release key leaseId nonce) →
        (q.release key leaseId nonce).1 = (p.release key leaseId nonce).1) ∧
      Pruned dropped time (p.release key leaseId nonce).2 (q.release key leaseId nonce).2 := by
  cases hclosed : p.closed with
  | true => simpa [Registry.release, h.closed, hclosed] using h
  | false =>
    simp only [Registry.release, h.closed, hclosed, Bool.false_eq_true, if_false]
    have hrow := h.rows key
    generalize hfind : p.leases.find? key = old, hleft : q.leases.find? key = left at hrow
    cases hrow with
    | none => exact ⟨fun _ => rfl, h⟩
    | kept lease _ =>
      dsimp only
      cases lease.isOwnedBy leaseId nonce with
      | false => exact ⟨fun _ => rfl, h⟩
      | true =>
        exact ⟨fun _ => rfl, h.remove (p.leases.find?_erase key) (q.leases.find?_erase key) rfl⟩
    | gone lease hdropped =>
      dsimp only
      cases howned : lease.isOwnedBy leaseId nonce with
      | false => exact ⟨fun _ => rfl, h⟩
      | true =>
        refine ⟨fun hkept => absurd ⟨lease, hfind, howned, hdropped⟩ hkept, ?_⟩
        apply h.remove (p.leases.find?_erase key)
        · intro other
          split
          · rename_i hother
            rw [hother]
            exact hleft
          · rfl
        · exact h.closed.trans hclosed

theorem release_dropped (h : Pruned dropped time p q) (hp : p.Sound) {leaseId nonce : String}
    (hreleases : p.ReleasesDropped dropped (.release key leaseId nonce)) :
    (p.release key leaseId nonce).1 = .ok 1 ∧ (q.release key leaseId nonce).1 = .ok 0 := by
  obtain ⟨lease, hfind, howned, hdropped⟩ := hreleases
  have hopen := hp.open_of_find? hfind
  have hrow := h.rows key
  rw [hfind] at hrow
  generalize hleft : q.leases.find? key = left at hrow
  cases hrow with
  | kept _ hkept => exact absurd hdropped hkept
  | gone _ _ => simp [Registry.release, h.closed, hopen, hfind, hleft, howned]

theorem close (h : Pruned dropped time p q) : Pruned dropped time p.close q.close := by
  simp only [Registry.close, h.closed]
  split
  · exact h
  · exact ⟨rfl, fun _ => .none, h.expired⟩

theorem apply (h : Pruned dropped now.nanos p q) (hp : p.Sound)
    (hlasts : ∀ key lease, p.leases.find? key = some lease → lease.tenure.Lasts)
    (hn : now.IsOrdinary) (newNonce : String) (call : Call) :
    (¬p.ReleasesDropped dropped call →
        (q.apply (some now) newNonce call).outcome = (p.apply (some now) newNonce call).outcome) ∧
      Pruned dropped now.nanos (p.apply (some now) newNonce call).state
        (q.apply (some now) newNonce call).state := by
  cases call with
  | acquire claim =>
    obtain ⟨hanswer, hnext⟩ := h.acquire hp hn claim
    exact ⟨fun _ => hanswer, hnext⟩
  | release key leaseId nonce => exact h.release key leaseId nonce
  | renew key leaseId nonce ttl =>
    obtain ⟨hanswer, hnext⟩ := h.renew hp hlasts hn key leaseId nonce ttl newNonce
    exact ⟨fun _ => hanswer, hnext⟩
  | isHeld key => exact ⟨fun _ => h.isHeld hp hn key, h⟩
  | probe => exact ⟨fun _ => by simp only [Registry.apply, Registry.probe, h.closed], h⟩
  | close => exact ⟨fun _ => rfl, h.close⟩

theorem purge (h : Pruned dropped now.nanos p q) (hp : p.Sound) (hq : q.Sound)
    (hn : now.IsOrdinary) : Pruned dropped now.nanos (p.purge now).2 (q.purge now).2 := by
  refine ⟨h.closed, ?_, h.expired⟩
  intro key
  simp only [Registry.purge, Keyed.find?_filter hp.distinct, Keyed.find?_filter hq.distinct]
  have hrow := h.rows key
  generalize hfind : p.leases.find? key = old, q.leases.find? key = left at hrow
  cases hrow with
  | none => exact .none
  | kept lease hkept =>
    simp only [Option.filter]
    split
    · exact .kept lease hkept
    · exact .none
  | gone lease hdropped =>
    simp only [Option.filter, h.isExpiredAt hp hn hfind hdropped]
    exact .none

theorem purge_second (h : Pruned dropped now.nanos p q) (hq : q.Sound) (hn : now.IsOrdinary) :
    Pruned (fun key lease => dropped key lease ∨
      (q.leases.find? key = some lease ∧ lease.isExpiredAt now = true)) now.nanos p
      (q.purge now).2 := by
  refine ⟨h.closed, ?_, ?_⟩
  · intro key
    simp only [Registry.purge, Keyed.find?_filter hq.distinct]
    have hrow := h.rows key
    generalize p.leases.find? key = old, q.leases.find? key = left at hrow
    cases hrow with
    | none => exact .none
    | kept lease hkept =>
      cases hexpired : lease.isExpiredAt now with
      | true => simpa [Option.filter, hexpired] using Trimmed.gone lease (.inr ⟨rfl, hexpired⟩)
      | false =>
        simp only [Option.filter, hexpired, Bool.not_false, if_true]
        refine .kept lease ?_
        rintro (hdropped | ⟨-, hlate⟩)
        · exact hkept hdropped
        · exact Bool.false_ne_true (hexpired.symm.trans hlate)
    | gone lease hdropped => exact .gone lease (.inl hdropped)
  · rintro key lease (hdropped | ⟨hfind, hexpired⟩)
    · exact h.expired key lease hdropped
    · exact (Lease.isExpiredAt_iff (hq.ordinary key lease hfind) hn).mp hexpired

theorem live (h : Pruned dropped now.nanos p q) (hp : p.Sound) (hq : q.Sound) (hn : now.IsOrdinary)
    (key : String) : (q.live now).find? key = (p.live now).find? key := by
  simp only [Registry.live, Keyed.find?_filter hp.distinct, Keyed.find?_filter hq.distinct]
  have hrow := h.rows key
  generalize hfind : p.leases.find? key = old, q.leases.find? key = left at hrow
  cases hrow with
  | none => rfl
  | kept lease _ => rfl
  | gone lease hdropped => simp [Option.filter, h.isExpiredAt hp hn hfind hdropped]

end Pruned

namespace Registry

theorem sound_plain (stages : List Stage) : (plain stages).Sound := sound_after_new _

theorem sound_purged (stages : List Stage) : (purged stages).Sound := sound_after_new _

theorem pruned_runs (stages : List Stage)
    (hordered : stages.Pairwise fun s t => s.reading ≤ t.reading)
    (hshown : ∀ s ∈ stages, (Instant.ofNanos? s.reading).isSome) {time : Int}
    (htime : ∀ s ∈ stages, s.reading ≤ time) :
    Pruned (Dropped stages) time (plain stages) (purged stages) := by
  induction stages using List.reverseRecOn generalizing time with
  | nil => exact ⟨rfl, fun _ => .none, fun key lease h => absurd h dropped_nil⟩
  | append_singleton stages s ih =>
    obtain ⟨hordered, -, hlast⟩ := List.pairwise_append.mp hordered
    obtain ⟨now, hnow⟩ := Option.isSome_iff_exists.mp (hshown s (by simp))
    have hn := Instant.ordinary_of_ofNanos? hnow
    have hreading := Instant.nanos_of_ofNanos? hnow
    have h : Pruned (Dropped stages) now.nanos (plain stages) (purged stages) := by
      rw [hreading]
      exact ih hordered (fun t ht => hshown t (by simp [ht])) fun t ht => hlast t ht s (by simp)
    have hplain := sound_plain stages
    have hpurged := sound_purged stages
    refine Pruned.mono ?_ (hreading ▸ htime s (by simp) : now.nanos ≤ time)
    cases s with
    | inserted reading =>
      simp only [Stage.reading] at hnow
      rw [plain_inserted, purged_inserted stages hnow, dropped_inserted stages hnow]
      exact h.purge_second hpurged hn
    | shared v =>
      rw [plain_shared, purged_shared, dropped_shared]
      obtain ⟨service, reading, newNonce⟩ := v
      simp only [Stage.reading] at hnow
      cases service with
      | call call =>
        simp only [visit, hnow]
        exact (h.apply hplain (fun key lease => lasts_after_new _) hn newNonce call).2
      | purge =>
        simp only [visit, hnow]
        exact h.purge hplain hpurged hn

section Runs

variable {stages earlier : List Stage} {stage : Stage}
  (hordered : stages.Pairwise fun s t => s.reading ≤ t.reading)
  (hshown : ∀ s ∈ stages, (Instant.ofNanos? s.reading).isSome)

include hordered hshown

theorem pruned_before (hearlier : earlier ++ [stage] <+: stages)
    (hnow : Instant.ofNanos? stage.reading = some now) :
    Pruned (Dropped earlier) now.nanos (plain earlier) (purged earlier) := by
  obtain ⟨hfront, -, hlast⟩ := List.pairwise_append.mp (hordered.sublist hearlier.sublist)
  apply pruned_runs earlier hfront
  · intro s hs
    exact hshown s (hearlier.subset (List.mem_append_left _ hs))
  · intro s hs
    rw [Instant.nanos_of_ofNanos? hnow]
    exact hlast s hs stage List.mem_cons_self

theorem pruned_behind (hearlier : earlier ++ [stage] <+: stages)
    (hnow : Instant.ofNanos? stage.reading = some now) :
    Pruned (Dropped (earlier ++ [stage])) now.nanos (plain (earlier ++ [stage]))
      (purged (earlier ++ [stage])) := by
  have hordered := hordered.sublist hearlier.sublist
  obtain ⟨-, -, hlast⟩ := List.pairwise_append.mp hordered
  apply pruned_runs (earlier ++ [stage]) hordered
  · intro s hs
    exact hshown s (hearlier.subset hs)
  · intro s hs
    rw [Instant.nanos_of_ofNanos? hnow]
    obtain hs | hs := List.mem_append.mp hs
    · exact hlast s hs stage List.mem_cons_self
    · exact Int.le_of_eq (congrArg Stage.reading (List.mem_singleton.mp hs))

end Runs

/-- Purges put into a run change what a release of a dropped lease answers, and nothing else. -/
theorem purges_unseen (stages : List Stage)
    (hordered : stages.Pairwise fun s t => s.reading ≤ t.reading)
    (hshown : ∀ s ∈ stages, (Instant.ofNanos? s.reading).isSome) :
    (∀ earlier call reading newNonce,
        earlier ++ [.shared ⟨.call call, reading, newNonce⟩] <+: stages →
        ¬(plain earlier).ReleasesDropped (Dropped earlier) call →
        ((purged earlier).apply (Instant.ofNanos? reading) newNonce call).outcome =
          ((plain earlier).apply (Instant.ofNanos? reading) newNonce call).outcome) ∧
      (∀ earlier key leaseId nonce reading newNonce,
        earlier ++ [.shared ⟨.call (.release key leaseId nonce), reading, newNonce⟩] <+: stages →
        (plain earlier).ReleasesDropped (Dropped earlier) (.release key leaseId nonce) →
        ((plain earlier).apply (Instant.ofNanos? reading) newNonce
            (.release key leaseId nonce)).outcome = .ok 1 ∧
          ((purged earlier).apply (Instant.ofNanos? reading) newNonce
            (.release key leaseId nonce)).outcome = .ok 0) ∧
      ∀ earlier stage now, earlier ++ [stage] <+: stages →
        Instant.ofNanos? stage.reading = some now →
        ∀ key, ((purged (earlier ++ [stage])).live now).find? key =
          ((plain (earlier ++ [stage])).live now).find? key := by
  have hclock (earlier : List Stage) (stage : Stage) (hearlier : earlier ++ [stage] <+: stages) :
      ∃ now, Instant.ofNanos? stage.reading = some now :=
    Option.isSome_iff_exists.mp (hshown stage (hearlier.subset (by simp)))
  refine ⟨?_, ?_, ?_⟩
  · intro earlier call reading newNonce hearlier hkept
    obtain ⟨now, hnow⟩ := hclock _ _ hearlier
    have hn := Instant.ordinary_of_ofNanos? hnow
    have hstep := (pruned_before hordered hshown hearlier hnow).apply (sound_plain earlier)
      (fun key lease => lasts_after_new _) hn newNonce call
    simp only [Stage.reading] at hnow
    rw [hnow]
    exact hstep.1 hkept
  · intro earlier key leaseId nonce reading newNonce hearlier hreleases
    obtain ⟨now, hnow⟩ := hclock _ _ hearlier
    exact (pruned_before hordered hshown hearlier hnow).release_dropped (sound_plain earlier)
      hreleases
  · intro earlier stage now hearlier hnow key
    have hn := Instant.ordinary_of_ofNanos? hnow
    exact (pruned_behind hordered hshown hearlier hnow).live (sound_plain _) (sound_purged _) hn key

def lateRelease : List Stage :=
  [.shared ⟨.call (.acquire ⟨"job", "first", "first", .ofMillis 1000, ""⟩), 0, ""⟩,
    .inserted 2000000000, .shared ⟨.call (.release "job" "first" "first"), 3000000000, ""⟩]

theorem purges_unseen_late_release :
    lateRelease.Pairwise (fun s t => s.reading ≤ t.reading) ∧
      (∀ s ∈ lateRelease, (Instant.ofNanos? s.reading).isSome) ∧
      ((plain (lateRelease.take 2)).apply (Instant.ofNanos? 3000000000) ""
        (.release "job" "first" "first")).outcome = .ok 1 ∧
      ((purged (lateRelease.take 2)).apply (Instant.ofNanos? 3000000000) ""
        (.release "job" "first" "first")).outcome = .ok 0 := by
  have hordered : lateRelease.Pairwise (fun s t => s.reading ≤ t.reading) := by decide
  have hshown : ∀ s ∈ lateRelease, (Instant.ofNanos? s.reading).isSome := by decide
  have hreleases : (plain (lateRelease.take 2)).ReleasesDropped (Dropped (lateRelease.take 2))
      (.release "job" "first" "first") := by
    refine ⟨⟨"job", "first", "first", ⟨1, 10000000, by decide, by decide⟩, .ofMillis 1000, "", .epoch,
      .epoch⟩, by decide, by decide, lateRelease.take 1, 2000000000, ⟨2, 0, by decide, by decide⟩,
      ⟨[], rfl⟩, by decide, by decide, by decide⟩
  refine ⟨hordered, hshown, ?_⟩
  exact (purges_unseen lateRelease hordered hshown).2.1 (lateRelease.take 2) "job" "first" "first"
    3000000000 "" ⟨[], rfl⟩ hreleases

end Registry

end LeaseLock
