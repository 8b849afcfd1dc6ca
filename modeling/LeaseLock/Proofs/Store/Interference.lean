import LeaseLock.Proofs.Store.Run

namespace LeaseLock

def Call.key? : Call → Option String
  | .acquire claim => some claim.key
  | .release key _ _ | .renew key _ _ _ | .isHeld key => some key
  | .probe | .close => none

namespace Visit

def key? (v : Visit) : Option String :=
  match v.service with
  | .call call => call.key?
  | .purge => none

def bearsOn (key : String) (v : Visit) : Bool := v.key?.all (· = key)

end Visit

namespace Registry

variable {r q : Registry} {key other newNonce : String} {clock : Option Instant} {call : Call}

def shows (r : Registry) (key : String) : Bool × Option Lease := (r.closed, r.leases.find? key)

theorem acquire_congr {claim : Claim} (h : q.shows claim.key = r.shows claim.key) :
    (q.acquire clock claim).1 = (r.acquire clock claim).1 ∧
      (q.acquire clock claim).2.shows claim.key = (r.acquire clock claim).2.shows claim.key := by
  obtain ⟨hclosed, hlease⟩ := Prod.mk.inj h
  simp only [acquire, hclosed]
  split
  · exact ⟨rfl, h⟩
  · cases clock with
    | none => exact ⟨rfl, h⟩
    | some now =>
      simp only [acquireAt, hlease]
      cases expiry now claim.ttl with
      | failed fault => exact ⟨rfl, h⟩
      | overflow => exact ⟨rfl, h⟩
      | ok validUntil =>
        simp only [attempt_ok]
        cases r.leases.find? claim.key with
        | none => simp [shows, hclosed]
        | some old => cases hold : old.isExpiredAt now <;> simp [shows, hclosed, hlease, hold]

theorem release_congr {leaseId nonce : String} (h : q.shows key = r.shows key) :
    (q.release key leaseId nonce).1 = (r.release key leaseId nonce).1 ∧
      (q.release key leaseId nonce).2.shows key = (r.release key leaseId nonce).2.shows key := by
  obtain ⟨hclosed, hlease⟩ := Prod.mk.inj h
  simp only [release, hclosed, hlease]
  split
  · exact ⟨rfl, h⟩
  · cases r.leases.find? key with
    | none => exact ⟨rfl, h⟩
    | some lease =>
      cases howned : lease.isOwnedBy leaseId nonce <;> simp [shows, hclosed, hlease, howned]

theorem renew_congr {leaseId nonce : String} {ttl : Span} (h : q.shows key = r.shows key) :
    (q.renew clock key leaseId nonce ttl newNonce).1 =
        (r.renew clock key leaseId nonce ttl newNonce).1 ∧
      (q.renew clock key leaseId nonce ttl newNonce).2.shows key =
        (r.renew clock key leaseId nonce ttl newNonce).2.shows key := by
  obtain ⟨hclosed, hlease⟩ := Prod.mk.inj h
  simp only [renew, hclosed, hlease]
  split
  · exact ⟨rfl, h⟩
  · cases r.leases.find? key with
    | none => exact ⟨rfl, h⟩
    | some lease =>
      cases clock with
      | none => exact ⟨rfl, h⟩
      | some now =>
        simp only [renewAt]
        cases lease.isOwnedBy leaseId nonce with
        | false => exact ⟨rfl, h⟩
        | true =>
          cases lease.isRenewableAt? now with
          | none => exact ⟨rfl, h⟩
          | some early =>
            cases early with
            | false => exact ⟨rfl, h⟩
            | true => cases expiry now ttl <;> simp [shows, hclosed, hlease]

theorem isHeld_congr (h : q.shows key = r.shows key) : q.isHeld clock key = r.isHeld clock key := by
  obtain ⟨hclosed, hlease⟩ := Prod.mk.inj h
  unfold isHeld
  rw [hclosed, hlease]

theorem close_congr (h : q.shows key = r.shows key) : q.close.shows key = r.close.shows key := by
  obtain ⟨hclosed, hlease⟩ := Prod.mk.inj h
  cases hopen : r.closed <;> simp [close, shows, hclosed, hlease, hopen]

theorem purge_congr (h : q.shows key = r.shows key) (hq : q.Sound) (hr : r.Sound) (now : Instant) :
    (q.purge now).2.shows key = (r.purge now).2.shows key := by
  obtain ⟨hclosed, hlease⟩ := Prod.mk.inj h
  simp only [shows, purge, Keyed.find?_filter hq.distinct, Keyed.find?_filter hr.distinct, hclosed,
    hlease]

theorem apply_congr (h : q.shows key = r.shows key) (hkey : call.key? = some key) :
    (q.apply clock newNonce call).outcome = (r.apply clock newNonce call).outcome ∧
      (q.apply clock newNonce call).state.shows key =
        (r.apply clock newNonce call).state.shows key := by
  cases call with
  | acquire claim =>
    cases hkey
    exact acquire_congr h
  | release _ leaseId nonce =>
    cases hkey
    exact release_congr h
  | renew _ leaseId nonce ttl =>
    cases hkey
    exact renew_congr h
  | isHeld _ =>
    cases hkey
    exact ⟨isHeld_congr h, h⟩
  | probe => cases hkey
  | close => cases hkey

theorem shows_apply_ne (r : Registry) (reading : Int) (newNonce : String)
    (hother : call.key? = some other) (hne : key ≠ other) :
    (r.apply (Instant.ofNanos? reading) newNonce call).state.shows key = r.shows key := by
  cases call with
  | acquire claim =>
    cases hother
    obtain ⟨_, _, _, hopen, _, _, _, hclosed, hleases⟩ | ⟨_, hclosed, hleases⟩ :=
      acquire_cases r (Instant.ofNanos? reading) claim
    · simp [apply, shows, hopen, hclosed, hleases, Keyed.find?_insert_ne _ _ hne]
    · simp [apply, shows, hclosed, hleases]
  | release _ leaseId nonce =>
    cases hother
    obtain ⟨_, hopen, _, _, _, hclosed, hleases⟩ | ⟨_, _, hsame⟩ :=
      release_cases r other leaseId nonce
    · simp [apply, shows, hopen, hclosed, hleases, Keyed.find?_erase_ne _ hne]
    · simp [apply, hsame]
  | renew _ leaseId nonce ttl =>
    cases hother
    obtain ⟨_, _, _, _, hopen, _, _, _, _, _, hclosed, hleases⟩ | ⟨_, hsame⟩ :=
      renew_cases r (Instant.ofNanos? reading) other leaseId nonce ttl newNonce
    · simp [apply, shows, hopen, hclosed, hleases, Keyed.find?_insert_ne _ _ hne]
    · simp [apply, hsame]
  | isHeld _ => rfl
  | probe => cases hother
  | close => cases hother

end Registry

namespace Sql.Store

variable {s t : Store} {key other newNonce : String} {now : Int} {call : Call}

def shows (s : Store) (key : String) : Outcome Unit × Outcome (Option Row) :=
  (s.checkOpen, s.table.map (·.find? key))

theorem shows_of_table {u : LeaseTable} (h : s.table = .ok u) (key : String) :
    s.shows key = (.ok (), .ok (u.find? key)) := by
  rw [shows, checkOpen_of_table h, h]
  rfl

theorem shows_withTable {u : LeaseTable} (h : s.table = .ok u) (v : LeaseTable) (key : String) :
    (s.withTable v).shows key = (.ok (), .ok (v.find? key)) :=
  shows_of_table (table_withTable h v) key

theorem table_congr (h : t.shows key = s.shows key) :
    (∃ u v, s.table = .ok u ∧ t.table = .ok v ∧ v.find? key = u.find? key) ∨
      (∃ fault, s.table = .failed fault ∧ t.table = .failed fault) ∨
        s.table = .overflow ∧ t.table = .overflow := by
  have hrow := (Prod.mk.inj h).2
  cases hs : s.table <;> cases ht : t.table <;> simp_all [Outcome.map]

theorem prepared_congr (h : t.shows key = s.shows key) (ttl : Span) :
    (∃ spans u v, s.prepared ttl = .ok (spans, u) ∧ t.prepared ttl = .ok (spans, v) ∧
        s.table = .ok u ∧ t.table = .ok v ∧ v.find? key = u.find? key) ∨
      (∃ fault, s.prepared ttl = .failed fault ∧ t.prepared ttl = .failed fault) ∨
        s.prepared ttl = .overflow ∧ t.prepared ttl = .overflow := by
  have hopen := (Prod.mk.inj h).1
  simp only [prepared, hopen]
  cases s.checkOpen with
  | failed fault => simp
  | overflow => simp
  | ok _ =>
    cases spans ttl with
    | failed fault => simp
    | overflow => simp
    | ok spans =>
      obtain ⟨u, v, hu, hv, hrow⟩ | ⟨fault, hs, ht⟩ | ⟨hs, ht⟩ := table_congr h
      · exact .inl ⟨spans, u, v, by simp [hu], by simp [hv], hu, hv, hrow⟩
      · exact .inr (.inl ⟨fault, by simp [hs], by simp [ht]⟩)
      · exact .inr (.inr ⟨by simp [hs], by simp [ht]⟩)

theorem acquire_congr {claim : Claim} (h : t.shows claim.key = s.shows claim.key) :
    (t.acquire now claim).outcome = (s.acquire now claim).outcome ∧
      (t.acquire now claim).state.shows claim.key = (s.acquire now claim).state.shows claim.key := by
  obtain ⟨⟨padded, ttl⟩, u, v, hs, ht, hu, hv, hrow⟩ | ⟨fault, hs, ht⟩ | ⟨hs, ht⟩ :=
    prepared_congr h claim.ttl
  · simp only [acquire, hs, ht, attempt_ok, LeaseTable.acquire, hrow]
    cases u.find? claim.key with
    | none => simp [shows_withTable hu, shows_withTable hv]
    | some old => by_cases hold : old.validUntil ≤ now <;>
        simp [hold, shows_withTable hu, shows_withTable hv, hrow]
  · simp [acquire, hs, ht, h]
  · simp [acquire, hs, ht, h]

theorem release_congr {leaseId nonce : String} (h : t.shows key = s.shows key) :
    (t.release key leaseId nonce).outcome = (s.release key leaseId nonce).outcome ∧
      (t.release key leaseId nonce).state.shows key =
        (s.release key leaseId nonce).state.shows key := by
  obtain ⟨u, v, hu, hv, hrow⟩ | ⟨fault, hs, ht⟩ | ⟨hs, ht⟩ := table_congr h
  · simp only [release, hu, hv, attempt_ok, LeaseTable.release, hrow]
    cases u.find? key with
    | none => simp [shows_withTable hu, shows_withTable hv, hrow]
    | some row => by_cases howned : row.leaseId = leaseId ∧ row.nonce = nonce <;>
        simp [howned, shows_withTable hu, shows_withTable hv, hrow]
  · simp [release, hs, ht, h]
  · simp [release, hs, ht, h]

theorem renew_congr {leaseId nonce : String} {ttl : Span} (h : t.shows key = s.shows key) :
    (t.renew now key leaseId nonce ttl newNonce).outcome =
        (s.renew now key leaseId nonce ttl newNonce).outcome ∧
      (t.renew now key leaseId nonce ttl newNonce).state.shows key =
        (s.renew now key leaseId nonce ttl newNonce).state.shows key := by
  obtain ⟨⟨padded, millis⟩, u, v, hs, ht, hu, hv, hrow⟩ | ⟨fault, hs, ht⟩ | ⟨hs, ht⟩ :=
    prepared_congr h ttl
  · simp only [renew, hs, ht, attempt_ok, LeaseTable.renew, hrow]
    cases u.find? key with
    | none => simp [shows_withTable hu, shows_withTable hv, hrow]
    | some row =>
      by_cases howned : row.leaseId = leaseId ∧ row.nonce = nonce ∧
          (LeaseTable.renewableUntil row).exceeds now = true
      · simp [howned, shows_withTable hu, shows_withTable hv]
      · simp [howned, shows_withTable hu, shows_withTable hv, hrow]
  · simp [renew, hs, ht, h]
  · simp [renew, hs, ht, h]

theorem isHeld_congr (h : t.shows key = s.shows key) : t.isHeld now key = s.isHeld now key := by
  obtain ⟨u, v, hu, hv, hrow⟩ | ⟨fault, hs, ht⟩ | ⟨hs, ht⟩ := table_congr h
  · simp only [isHeld, hu, hv, Outcome.ok_bind, LeaseTable.validUntil?, hrow]
  · simp only [isHeld, hs, ht, Outcome.failed_bind]
  · simp only [isHeld, hs, ht, Outcome.overflow_bind]

theorem shows_close (s : Store) (key : String) :
    s.close.state.shows key = (.failed .closed, .failed .closed) := by
  cases hconnection : s.connection <;> simp [close, shows, checkOpen, table, Outcome.map, hconnection]

theorem applyAt_congr (h : t.shows key = s.shows key) (hkey : call.key? = some key) :
    (t.applyAt now newNonce call).outcome = (s.applyAt now newNonce call).outcome ∧
      (t.applyAt now newNonce call).state.shows key =
        (s.applyAt now newNonce call).state.shows key := by
  cases call with
  | acquire claim =>
    cases hkey
    exact acquire_congr h
  | release _ leaseId nonce =>
    cases hkey
    exact release_congr h
  | renew _ leaseId nonce ttl =>
    cases hkey
    exact renew_congr h
  | isHeld _ =>
    cases hkey
    exact ⟨isHeld_congr h, h⟩
  | probe => cases hkey
  | close => cases hkey

theorem shows_applyAt_ne (s : Store) (now : Int) (newNonce : String) (hother : call.key? = some other)
    (hne : key ≠ other) : (s.applyAt now newNonce call).state.shows key = s.shows key := by
  cases call with
  | acquire claim =>
    cases hother
    obtain ⟨_, _, htable, _, _, _, hstate⟩ | ⟨_, hsame⟩ := acquire_cases s now claim
    · simp [applyAt, hstate, shows_withTable htable, shows_of_table htable,
        Keyed.find?_insert_ne _ _ hne]
    · simp [applyAt, hsame]
  | release _ leaseId nonce =>
    cases hother
    obtain ⟨_, _, htable, _, _, _, hstate⟩ | ⟨_, _, hsame⟩ := release_cases s other leaseId nonce
    · simp [applyAt, hstate, shows_withTable htable, shows_of_table htable,
        Keyed.find?_erase_ne _ hne]
    · simp [applyAt, hsame]
  | renew _ leaseId nonce ttl =>
    cases hother
    obtain ⟨_, _, _, htable, _, _, _, _, _, hstate⟩ | ⟨_, hsame⟩ :=
      renew_cases s now other leaseId nonce ttl newNonce
    · simp [applyAt, hstate, shows_withTable htable, shows_of_table htable,
        Keyed.find?_insert_ne _ _ hne]
    · simp [applyAt, hsame]
  | isHeld _ => rfl
  | probe => cases hother
  | close => cases hother

end Sql.Store

namespace Backing

variable {b c : Backing} {key other : String}

inductive View
  | memory (shown : Bool × Option Lease)
  | sql (shown : Outcome Unit × Outcome (Option Sql.Row))
  deriving DecidableEq

def view : Backing → String → View
  | .memory registry, key => .memory (registry.shows key)
  | .sql store, key => .sql (store.shows key)

def answer? (b : Backing) (v : Visit) : Option (Σ call : Call, Outcome call.Answer) :=
  match v.service with
  | .call call => some ⟨call, (b.applyAt v.reading v.newNonce call).outcome⟩
  | .purge => none

instance (c : Call) : DecidableEq c.Answer :=
  match c with
  | .acquire _ => inferInstanceAs (DecidableEq Grant)
  | .release _ _ _ => inferInstanceAs (DecidableEq Nat)
  | .renew _ _ _ _ => inferInstanceAs (DecidableEq (Option Renewal))
  | .isHeld _ => inferInstanceAs (DecidableEq Holding)
  | .probe => inferInstanceAs (DecidableEq PoolUse)
  | .close => inferInstanceAs (DecidableEq Unit)

def answersOn (key : String) (b : Backing) : List Visit → List (Σ call : Call, Outcome call.Answer)
  | [] => []
  | v :: rest =>
    (if v.key? = some key then (b.answer? v).toList else []) ++ (b.visit v).answersOn key rest

theorem applyAt_congr (h : c.view key = b.view key) (reading : Int) (newNonce : String) {call : Call}
    (hkey : call.key? = some key) :
    (c.applyAt reading newNonce call).outcome = (b.applyAt reading newNonce call).outcome ∧
      (c.applyAt reading newNonce call).state.view key =
        (b.applyAt reading newNonce call).state.view key := by
  cases b with
  | memory r =>
    cases c with
    | sql t => cases h
    | memory q =>
      obtain ⟨houtcome, hshown⟩ := Registry.apply_congr (View.memory.inj h) hkey
      exact ⟨houtcome, congrArg View.memory hshown⟩
  | sql s =>
    cases c with
    | memory q => cases h
    | sql t =>
      obtain ⟨houtcome, hshown⟩ := Sql.Store.applyAt_congr (View.sql.inj h) hkey
      exact ⟨houtcome, congrArg View.sql hshown⟩

theorem view_close_congr (h : c.view key = b.view key) (reading : Int) (newNonce : String) :
    (c.applyAt reading newNonce .close).state.view key =
      (b.applyAt reading newNonce .close).state.view key := by
  cases b with
  | memory r =>
    cases c with
    | sql t => cases h
    | memory q => exact congrArg View.memory (Registry.close_congr (View.memory.inj h))
  | sql s =>
    cases c with
    | memory q => cases h
    | sql t =>
      apply congrArg View.sql
      exact (t.shows_close key).trans (s.shows_close key).symm

theorem view_purgeAt_congr (h : c.view key = b.view key) (hb : b.Sound) (hc : c.Sound)
    (reading : Int) : (c.purgeAt reading).view key = (b.purgeAt reading).view key := by
  unfold purgeAt
  cases Instant.ofNanos? reading with
  | none => cases b <;> cases c <;> exact h
  | some now =>
    cases b with
    | memory r =>
      cases c with
      | sql t => cases h
      | memory q => exact congrArg View.memory (Registry.purge_congr (View.memory.inj h) hc hb now)
    | sql s =>
      cases c with
      | memory q => cases h
      | sql t => exact h

theorem visit_congr (h : c.view key = b.view key) (hb : b.Sound) (hc : c.Sound) {v : Visit}
    (hv : v.bearsOn key = true) :
    (v.key? = some key → c.answer? v = b.answer? v) ∧
      (c.visit v).view key = (b.visit v).view key := by
  obtain ⟨service, reading, newNonce⟩ := v
  cases service with
  | purge => exact ⟨nofun, view_purgeAt_congr h hb hc reading⟩
  | call call =>
    cases hcall : call.key? with
    | some k =>
      simp only [Visit.bearsOn, Visit.key?, hcall, Option.all_some, decide_eq_true_eq] at hv
      subst hv
      obtain ⟨houtcome, hview⟩ := applyAt_congr h reading newNonce hcall
      refine ⟨fun _ => ?_, hview⟩
      simp only [answer?, houtcome]
    | none =>
      refine ⟨fun hkey => absurd (hcall.symm.trans hkey) nofun, ?_⟩
      cases call with
      | close => exact view_close_congr h reading newNonce
      | probe => cases b <;> cases c <;> exact h
      | acquire claim => cases hcall
      | release k leaseId nonce => cases hcall
      | renew k leaseId nonce ttl => cases hcall
      | isHeld k => cases hcall

theorem view_visit_ne (b : Backing) {v : Visit} (hother : v.key? = some other) (hne : key ≠ other) :
    (b.visit v).view key = b.view key := by
  obtain ⟨service, reading, newNonce⟩ := v
  cases service with
  | purge => cases hother
  | call call =>
    cases b with
    | memory r => exact congrArg View.memory (r.shows_apply_ne reading newNonce hother hne)
    | sql s => exact congrArg View.sql (s.shows_applyAt_ne _ newNonce hother hne)

theorem answersOn_filter (h : c.view key = b.view key) (hb : b.Sound) (hc : c.Sound)
    (visits : List Visit) :
    c.answersOn key (visits.filter (Visit.bearsOn key)) = b.answersOn key visits ∧
      (c.after (visits.filter (Visit.bearsOn key))).view key = (b.after visits).view key := by
  -- The stores of the two runs differ, but both show the same of the key before each visit.
  induction visits generalizing b c with
  | nil => exact ⟨rfl, h⟩
  | cons v rest ih =>
    cases hv : v.bearsOn key with
    | true =>
      obtain ⟨hanswer, hview⟩ := visit_congr h hb hc hv
      obtain ⟨hanswers, hlast⟩ := ih hview (hb.visit v) (hc.visit v)
      rw [List.filter_cons_of_pos hv]
      refine ⟨?_, hlast⟩
      simp only [answersOn, hanswers]
      split
      · rename_i hkey
        rw [hanswer hkey]
      · rfl
    | false =>
      obtain ⟨other, hother, hne⟩ : ∃ other, v.key? = some other ∧ key ≠ other := by
        simp only [Visit.bearsOn, Option.all_eq_false, decide_eq_false_iff_not] at hv
        obtain ⟨other, hother, hne⟩ := hv
        exact ⟨other, hother, Ne.symm hne⟩
      rw [List.filter_cons_of_neg (by simp [hv])]
      obtain ⟨hanswers, hlast⟩ := ih (h.trans (view_visit_ne b hother hne).symm) (hb.visit v) hc
      refine ⟨?_, hlast⟩
      simp [answersOn, hanswers, hother, Ne.symm hne]

theorem answer?_visit_ne (b : Backing) (hb : b.Sound) {v w : Visit} (hkey : v.key? = some key)
    (hother : w.key? = some other) (hne : key ≠ other) :
    (b.visit w).answer? v = b.answer? v ∧ ((b.visit w).visit v).view key = (b.visit v).view key := by
  have hbears : v.bearsOn key = true := by simp [Visit.bearsOn, hkey]
  obtain ⟨hanswer, hview⟩ := visit_congr (view_visit_ne b hother hne) hb (hb.visit w) hbears
  exact ⟨hanswer hkey, hview⟩

theorem view_visit_comm (b : Backing) (hb : b.Sound) {v w : Visit} {k l : String}
    (hv : v.key? = some k) (hw : w.key? = some l) (hne : k ≠ l) (key : String) :
    ((b.visit v).visit w).view key = ((b.visit w).visit v).view key := by
  by_cases hk : key = k
  · subst hk
    rw [view_visit_ne _ hw hne, (answer?_visit_ne b hb hv hw hne).2]
  · by_cases hl : key = l
    · subst hl
      rw [view_visit_ne (b.visit w) hv hk, (answer?_visit_ne b hb hw hv hk).2]
    · rw [view_visit_ne _ hw hl, view_visit_ne _ hv hk, view_visit_ne _ hv hk, view_visit_ne _ hw hl]

/-- A run answers on a key, and leaves under it, what it would without the operations on other keys;
and operations on two keys can change places. -/
theorem keys_apart (hopened : b.IsOpened) (visits : List Visit) :
    (∀ key, b.answersOn key visits = b.answersOn key (visits.filter (Visit.bearsOn key)) ∧
        (b.after visits).view key = (b.after (visits.filter (Visit.bearsOn key))).view key) ∧
      ∀ v w k l, v.key? = some k → w.key? = some l → k ≠ l →
        ((b.after visits).visit w).answer? v = (b.after visits).answer? v ∧
          ((b.after visits).visit v).answer? w = (b.after visits).answer? w ∧
          ∀ key, (((b.after visits).visit v).visit w).view key =
            (((b.after visits).visit w).visit v).view key := by
  constructor
  · intro key
    obtain ⟨hanswers, hview⟩ := answersOn_filter rfl hopened.sound hopened.sound visits
    exact ⟨hanswers.symm, hview.symm⟩
  · intro v w k l hv hw hne
    have hsound := hopened.sound.after visits
    refine ⟨(answer?_visit_ne _ hsound hv hw hne).1, ?_, view_visit_comm _ hsound hv hw hne⟩
    exact (answer?_visit_ne _ hsound hw hv (Ne.symm hne)).1

def namesakes : List Visit :=
  [⟨.call (.acquire ⟨"job", "lease", "nonce", .ofMillis 1000, ""⟩), 0, ""⟩,
    ⟨.call (.acquire ⟨"task", "lease", "nonce", .ofMillis 1000, ""⟩), 1, ""⟩,
    ⟨.call (.release "task" "lease" "nonce"), 2, ""⟩, ⟨.call (.isHeld "job"), 3, ""⟩]

theorem keys_apart_namesakes :
    (memory .new).IsOpened ∧
      (memory .new).answersOn "job" namesakes =
        [⟨.acquire ⟨"job", "lease", "nonce", .ofMillis 1000, ""⟩,
            .ok (.granted ⟨1, 10000000, by decide, by decide⟩)⟩,
          ⟨.isHeld "job", .ok ⟨true, ⟨1009999997, by decide⟩⟩⟩] := by
  have hopened : (memory .new).IsOpened := rfl
  refine ⟨hopened, ?_⟩
  rw [((keys_apart hopened namesakes).1 "job").1]
  decide +kernel

end Backing

end LeaseLock
