import LeaseLock.Proofs.Store.Run

/-!
Mutual exclusion: while a promised expiry is ahead, nobody else is granted the key, unless a matching
release gives it up. Visits take effect in the order of their times; a visit may work with an older
reading of the clock.
-/

namespace LeaseLock

structure Commit where
  visit : Visit
  time : Int
  reading_le : visit.reading ≤ time

def InOrder (commits : List Commit) : Prop := commits.Pairwise fun c d => c.time ≤ d.time

namespace Backing

variable {b : Backing} {key : String} {expiry time : Int}

def granted? (b : Backing) (key : String) (v : Visit) : Option Instant :=
  match v.service with
  | .call (.acquire claim) =>
    match (b.applyAt v.reading v.newNonce (.acquire claim)).outcome with
    | .ok (.granted validUntil) => if claim.key = key then some validUntil else none
    | _ => none
  | _ => none

def renewed? (b : Backing) (key : String) (v : Visit) : Option Renewal :=
  match v.service with
  | .call (.renew renewedKey leaseId nonce ttl) =>
    match (b.applyAt v.reading v.newNonce (.renew renewedKey leaseId nonce ttl)).outcome with
    | .ok (some renewal) => if renewedKey = key then some renewal else none
    | _ => none
  | _ => none

def promised? (b : Backing) (key : String) (v : Visit) : Option Instant :=
  (b.granted? key v).or ((b.renewed? key v).map Renewal.validUntil)

def Frees (b : Backing) (key : String) (v : Visit) : Prop :=
  ∃ leaseId nonce, v.service = .call (.release key leaseId nonce) ∧
    ∃ t ∈ b.tenure? key, t.IsOwnedBy leaseId nonce

def Unreleased (b : Backing) (key : String) : List Visit → Prop
  | [] => True
  | v :: rest => ¬ b.Frees key v ∧ (b.visit v).Unreleased key rest

def Guarded (b : Backing) (key : String) (expiry time : Int) : Prop :=
  b.IsClosed ∨ expiry ≤ time ∨ ∃ t ∈ b.tenure? key, expiry ≤ t.validUntil

theorem granted?_eq_some {v : Visit} {validUntil : Instant}
    (h : b.granted? key v = some validUntil) :
    ∃ claim, v.service = .call (.acquire claim) ∧ claim.key = key ∧
      (b.applyAt v.reading v.newNonce (.acquire claim)).outcome = .ok (.granted validUntil) := by
  unfold granted? at h
  split at h
  · rename_i claim hservice
    split at h
    · rename_i houtcome
      split_ifs at h with hkey
      cases h
      exact ⟨claim, hservice, hkey, houtcome⟩
    · cases h
  · cases h

theorem renewed?_eq_some {v : Visit} {renewal : Renewal} (h : b.renewed? key v = some renewal) :
    ∃ leaseId nonce ttl, v.service = .call (.renew key leaseId nonce ttl) ∧
      (b.applyAt v.reading v.newNonce (.renew key leaseId nonce ttl)).outcome =
        .ok (some renewal) := by
  unfold renewed? at h
  split at h
  · rename_i renewedKey leaseId nonce ttl hservice
    split at h
    · rename_i houtcome
      split_ifs at h with hkey
      cases h
      subst hkey
      exact ⟨leaseId, nonce, ttl, hservice, houtcome⟩
    · cases h
  · cases h

theorem Guarded.applyAt (h : b.Guarded key expiry time) (hsound : b.Sound) {later reading : Int}
    (hlater : time ≤ later) (hreading : reading ≤ later) (newNonce : String) (call : Call)
    (hkept : ∀ leaseId nonce, call = .release key leaseId nonce →
      ∀ t ∈ b.tenure? key, ¬ t.IsOwnedBy leaseId nonce) :
    (b.applyAt reading newNonce call).state.Guarded key expiry later := by
  obtain hclosed | hpassed | ⟨t, ht, hexpiry⟩ := h
  · rw [hclosed.applyAt_eq]
    exact .inl hclosed
  · exact .inr (.inl (by omega))
  · have hchange := change hsound reading newNonce key call
    have hreads := b.reads_le reading
    rw [Option.mem_def.mp ht] at hchange
    generalize htenure : (b.applyAt reading newNonce call).state.tenure? key = after at hchange
    cases hchange with
    | keep => exact .inr (.inr ⟨t, htenure, hexpiry⟩)
    | take claim _ _ hfree =>
      have hfree := hfree t rfl
      exact .inr (.inl (by omega))
    | free leaseId nonce _ howned => exact absurd howned (hkept leaseId nonce rfl t ht)
    | extend => exact .inr (.inr ⟨_, htenure, Int.le_trans hexpiry (Int.le_max_left _ _)⟩)
    | drop => exact .inl (isClosed_close b _ _)

theorem Guarded.purgeAt (h : b.Guarded key expiry time) (hsound : b.Sound) {later reading : Int}
    (hlater : time ≤ later) (hreading : reading ≤ later) :
    (b.purgeAt reading).Guarded key expiry later := by
  obtain hclosed | hpassed | ⟨t, ht, hexpiry⟩ := h
  · exact .inl (IsClosed.visit hclosed ⟨.purge, reading, ""⟩)
  · exact .inr (.inl (by omega))
  · obtain hsame | ⟨old, hold, hexpired, -⟩ := tenure?_purgeAt hsound reading key
    · exact .inr (.inr ⟨t, hsame.trans ht, hexpiry⟩)
    · have hreads := b.reads_le reading
      cases hold.symm.trans ht
      exact .inr (.inl (by omega))

theorem Guarded.visit (h : b.Guarded key expiry time) (hsound : b.Sound) (c : Commit)
    (hlater : time ≤ c.time) (hkept : ¬ b.Frees key c.visit) :
    (b.visit c.visit).Guarded key expiry c.time := by
  unfold Backing.visit
  split
  · rename_i call hservice
    apply h.applyAt hsound hlater c.reading_le
    intro leaseId nonce hcall t ht howned
    subst hcall
    exact hkept ⟨leaseId, nonce, hservice, t, ht, howned⟩
  · exact h.purgeAt hsound hlater c.reading_le

theorem Guarded.after (h : b.Guarded key expiry time) (hsound : b.Sound) {later : Int}
    (hlater : time ≤ later) (commits : List Commit)
    (hordered : InOrder commits)
    (hbetween : ∀ c ∈ commits, time ≤ c.time ∧ c.time ≤ later)
    (hkept : b.Unreleased key (commits.map Commit.visit)) :
    (b.after (commits.map Commit.visit)).Guarded key expiry later := by
  induction commits generalizing b time with
  | nil =>
    obtain hclosed | hpassed | hheld := h
    · exact .inl hclosed
    · exact .inr (.inl (by omega))
    · exact .inr (.inr hheld)
  | cons c rest ih =>
    obtain ⟨hfirst, hrest⟩ := List.pairwise_cons.mp hordered
    obtain ⟨htime, hend⟩ := hbetween c List.mem_cons_self
    apply ih (h.visit hsound c htime hkept.1) (hsound.visit c.visit) hend hrest _ hkept.2
    intro d hd
    exact ⟨hfirst d hd, (hbetween d (List.mem_cons_of_mem c hd)).2⟩

theorem guarded_of_promised (hsound : b.Sound) (c : Commit) {validUntil : Instant}
    (h : b.promised? key c.visit = some validUntil) :
    (b.visit c.visit).Guarded key validUntil.nanos c.time := by
  refine .inr (.inr ?_)
  obtain hgranted | ⟨-, hrenewed⟩ := Option.or_eq_some_iff.mp h
  · obtain ⟨claim, hservice, rfl, houtcome⟩ := granted?_eq_some hgranted
    obtain ⟨-, htenure, -, hnanos⟩ := acquire_granted hsound houtcome
    refine ⟨.granted b.grain (b.reads c.visit.reading) claim, ?_, Int.le_of_eq hnanos⟩
    simp only [Backing.visit, hservice]
    exact htenure
  · obtain ⟨renewal, hrenewal, rfl⟩ := Option.map_eq_some_iff.mp hrenewed
    obtain ⟨leaseId, nonce, ttl, hservice, houtcome⟩ := renewed?_eq_some hrenewal
    obtain ⟨old, -, -, -, hnanos, htenure⟩ := renew_renewed hsound houtcome
    refine ⟨_, ?_, Int.le_of_eq hnanos⟩
    simp only [Backing.visit, hservice]
    exact htenure

theorem Guarded.le_of_granted (h : b.Guarded key expiry time) (hsound : b.Sound) (c : Commit)
    (htime : time ≤ c.time) {validUntil : Instant}
    (hgranted : b.granted? key c.visit = some validUntil) : expiry ≤ c.time := by
  obtain ⟨claim, -, rfl, houtcome⟩ := granted?_eq_some hgranted
  obtain hclosed | hpassed | ⟨t, ht, hexpiry⟩ := h
  · rw [hclosed.applyAt_eq] at houtcome
    cases houtcome
  · omega
  · have hfree := (acquire_granted hsound houtcome).1 t ht
    have hreads := b.reads_le c.visit.reading
    have hreading := c.reading_le
    omega

/-- After a visit that is promised the key up to an expiry, no other one acquires it before, unless a
matching release comes in between. -/
theorem expiry_le_of_granted (hopened : b.IsOpened) (before between : List Commit)
    (holder other : Commit)
    (hordered : InOrder (before ++ holder :: between ++ [other]))
    {promised validUntil : Instant}
    (hpromised : (b.after (before.map Commit.visit)).promised? key holder.visit = some promised)
    (hkept : (b.after ((before ++ [holder]).map Commit.visit)).Unreleased key
      (between.map Commit.visit))
    (hgranted : (b.after ((before ++ holder :: between).map Commit.visit)).granted? key
      other.visit = some validUntil) : promised.nanos ≤ other.time := by
  have hsound := hopened.sound.after (before.map Commit.visit)
  have hguarded := guarded_of_promised hsound holder hpromised
  rw [InOrder, List.append_assoc, List.pairwise_append] at hordered
  obtain ⟨-, hordered, -⟩ := hordered
  obtain ⟨hholder, hordered⟩ := List.pairwise_cons.mp hordered
  obtain ⟨hbetween, -, hlast⟩ := List.pairwise_append.mp hordered
  have hstart : b.after ((before ++ [holder]).map Commit.visit) =
      (b.after (before.map Commit.visit)).visit holder.visit := by
    rw [List.map_append, after_append]
    rfl
  have hend : b.after ((before ++ holder :: between).map Commit.visit) =
      ((b.after (before.map Commit.visit)).visit holder.visit).after
        (between.map Commit.visit) := by
    rw [List.map_append, after_append]
    rfl
  rw [hstart] at hkept
  rw [hend] at hgranted
  have htime : holder.time ≤ other.time := hholder other (by simp)
  have hguarded := hguarded.after (hsound.visit holder.visit) htime between hbetween
    (fun c hc => ⟨hholder c (by simp [hc]), hlast c hc other (by simp)⟩) hkept
  exact hguarded.le_of_granted ((hsound.visit _).after _) other (Int.le_refl _) hgranted

def Commit.attempt (leaseId : String) (reading time : Int) (h : reading ≤ time) : Commit :=
  ⟨⟨.call (.acquire ⟨"job", leaseId, leaseId, .ofMillis 1, ""⟩), reading, ""⟩, time, h⟩

theorem expiry_le_of_granted_takeover :
    ∃ promised validUntil : Instant,
      let holder := Commit.attempt "first" 0 3 (by decide)
      let stale := Commit.attempt "second" 10999999 12000000 (by decide)
      let other := Commit.attempt "third" 11000000 12000000 (by decide)
      let opened := memory .new
      opened.IsOpened ∧ InOrder ([] ++ holder :: [stale] ++ [other]) ∧
        (opened.after []).promised? "job" holder.visit = some promised ∧
        (opened.after [holder.visit]).Unreleased "job" [stale.visit] ∧
        (opened.after [holder.visit, stale.visit]).granted? "job" other.visit = some validUntil ∧
        promised.nanos ≤ other.time := by
  have hordered : InOrder ([] ++ Commit.attempt "first" 0 3 (by decide) ::
      [Commit.attempt "second" 10999999 12000000 (by decide)] ++
      [Commit.attempt "third" 11000000 12000000 (by decide)]) := by
    simp [InOrder, Commit.attempt]
  have hpromised : ((memory .new).after []).promised? "job"
      (Commit.attempt "first" 0 3 (by decide)).visit =
        some ⟨0, 11000000, by decide, by decide⟩ := by decide
  have hkept : ((memory .new).after [(Commit.attempt "first" 0 3 (by decide)).visit]).Unreleased
      "job" [(Commit.attempt "second" 10999999 12000000 (by decide)).visit] :=
    ⟨(fun ⟨_, _, hservice, _⟩ => nomatch hservice), trivial⟩
  have hgranted : ((memory .new).after [(Commit.attempt "first" 0 3 (by decide)).visit,
      (Commit.attempt "second" 10999999 12000000 (by decide)).visit]).granted? "job"
        (Commit.attempt "third" 11000000 12000000 (by decide)).visit =
          some ⟨0, 22000000, by decide, by decide⟩ := by decide
  exact ⟨_, _, rfl, hordered, hpromised, hkept, hgranted,
    expiry_le_of_granted (b := memory .new) rfl [] _ _ _ hordered hpromised hkept hgranted⟩
end Backing

end LeaseLock
