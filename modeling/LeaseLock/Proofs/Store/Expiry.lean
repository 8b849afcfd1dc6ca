import LeaseLock.Proofs.Store.Exclusion
import LeaseLock.Proofs.Store.Lasting
import LeaseLock.Proofs.Store.Refusal

namespace LeaseLock

namespace Tenure

variable {t u w : Tenure} {grain now : Int}

def IsUpTo (t u : Tenure) : Prop :=
  t.validUntil ≤ u.validUntil ∧ (u.leaseId ≠ t.leaseId → t.validUntil < u.validUntil)

theorem IsUpTo.refl (t : Tenure) : t.IsUpTo t := ⟨Int.le_refl _, fun h => absurd rfl h⟩

theorem IsUpTo.trans (htu : t.IsUpTo u) (huw : u.IsUpTo w) : t.IsUpTo w := by
  refine ⟨Int.le_trans htu.1 huw.1, ?_⟩
  intro hother
  by_cases h : u.leaseId = t.leaseId
  · have hlt := huw.2 (h ▸ hother)
    have hle := htu.1
    omega
  · have hlt := htu.2 h
    have hle := huw.1
    omega

def IsSettled (t : Tenure) : Prop := t.Lasts ∧ t.IsMeasured

theorem term_le (hgrain : 0 < grain) (ttl : Span) : term grain ttl ≤ ttl.nanos + grantPadding.nanos :=
  Int.ediv_mul_le _ (Int.ne_of_gt hgrain)

theorem range_of_isValidTtl {ttl : Span} (h : isValidTtl ttl = true) :
    ttl.nanos ≤ maxTtl.nanos ∧ ttl.millis ≤ maxTtl.millis := by
  simp only [isValidTtl, decide_eq_true_eq] at h
  have hle : ttl.nanos ≤ maxTtl.nanos := h.2
  exact ⟨hle, Nat.div_le_div_right hle⟩

/-- A clock that shows an instant of the calendar, or the last step before it. -/
def IsShown (now : Int) : Prop :=
  Instant.earliest.nanos - nanosPerMilli ≤ now ∧ now ≤ Instant.latest.nanos

theorem end_of_isShown (hgrain : IsGrain grain) (hnow : IsShown now) {ttl : Span}
    (httl : isValidTtl ttl = true) :
    Instant.earliest.nanos ≤ now + term grain ttl ∧
      now + term grain ttl ≤ 2 * Instant.latest.nanos := by
  have hlow := le_term hgrain ttl
  have hhigh : term grain ttl ≤ ttl.nanos + grantPadding.nanos := by
    apply term_le
    obtain rfl | rfl := hgrain <;> decide
  have hmax := (range_of_isValidTtl httl).1
  have hearliest := Instant.nanos_earliest
  have hlatest := Instant.nanos_latest
  have hlimit := nanos_maxTtl
  have hpadding := nanos_grantPadding
  simp only [IsShown, nanosPerMilli] at hnow hlow
  omega

theorem isSettled_granted (hgrain : IsGrain grain) (hnow : IsShown now) {claim : Claim}
    (httl : isValidTtl claim.ttl = true) : (granted grain now claim).IsSettled := by
  have hend := end_of_isShown hgrain hnow httl
  have hearliest := Instant.nanos_earliest
  have hmillis := (range_of_isValidTtl httl).2
  refine ⟨lasts_granted hgrain now claim, Int.natCast_nonneg _, Int.ofNat_le.mpr hmillis, ?_, ?_⟩
  · simp only [granted]
    omega
  · exact hend.2

theorem IsSettled.renewed (h : t.IsSettled) (hgrain : IsGrain grain) (hnow : IsShown now)
    {ttl : Span} (httl : isValidTtl ttl = true) (newNonce : String) :
    (t.renewed grain now newNonce ttl).IsSettled := by
  have hend := end_of_isShown hgrain hnow httl
  have hmillis := (range_of_isValidTtl httl).2
  obtain ⟨-, -, -, hlow, hhigh⟩ := h
  refine ⟨lasts_renewed hgrain t now newNonce ttl, Int.natCast_nonneg _, Int.ofNat_le.mpr hmillis,
    ?_, ?_⟩
  · simp only [Tenure.renewed]
    omega
  · simp only [Tenure.renewed]
    omega

end Tenure

theorem Change.isUpTo {grain now : Int} {newNonce key : String} {call : Call} {t u : Tenure}
    (h : Change grain now newNonce key call (some t) (some u)) (hgrain : Tenure.IsGrain grain) :
    t.IsUpTo u := by
  cases h with
  | keep => exact .refl t
  | take claim _ _ hfree =>
    have hlt : t.validUntil < now + Tenure.term grain claim.ttl := by
      have hold := hfree t rfl
      have hterm := Tenure.le_term hgrain claim.ttl
      have hpadding := nanos_grantPadding
      simp only [nanosPerMilli] at hterm
      omega
    exact ⟨Int.le_of_lt hlt, fun _ => hlt⟩
  | extend leaseId nonce ttl _ _ _ => exact ⟨Int.le_max_left _ _, fun h => absurd rfl h⟩

def Visit.IsWithinLimits (v : Visit) : Prop :=
  (Instant.earliest.nanos ≤ v.reading ∧ v.reading ≤ Instant.latest.nanos) ∧
    match v.service with
    | .call (.acquire claim) => isValidTtl claim.ttl = true
    | .call (.renew _ _ _ ttl) => isValidTtl ttl = true
    | _ => True

instance (v : Visit) : Decidable v.IsWithinLimits := by
  unfold Visit.IsWithinLimits
  refine @instDecidableAnd _ _ _ ?_
  split <;> infer_instance

def Visit.nonce? (v : Visit) : Option String :=
  match v.service with
  | .call (.acquire claim) => some claim.nonce
  | .call (.renew _ _ _ _) => some v.newNonce
  | _ => none

namespace Registry

variable {r : Registry} {reading : Int} {key leaseId nonce newNonce : String} {ttl : Span}

theorem renews_iff (hr : r.Sound) (hsettled : ∀ old ∈ r.tenure? key, old.IsSettled)
    (hlow : Instant.earliest.nanos ≤ reading) :
    (∃ renewal, (r.renew (Instant.ofNanos? reading) key leaseId nonce ttl newNonce).1 =
        .ok (some renewal)) ↔
      ∃ old, r.tenure? key = some old ∧ old.IsOwnedBy leaseId nonce ∧
        reading < old.validUntil - old.margin ∧
        (old.renewed 1 reading newNonce ttl).validUntil ≤ Instant.latest.nanos := by
  constructor
  · rintro ⟨renewal, hrenewed⟩
    obtain ⟨now, lease, granted, hnow, _, hfind, howned, hearly, hexpiry, _⟩ | ⟨hnot, _⟩ :=
      renew_cases r (Instant.ofNanos? reading) key leaseId nonce ttl newNonce
    · have hn := Instant.ordinary_of_ofNanos? hnow
      have hreading := Instant.nanos_of_ofNanos? hnow
      have hl := hr.ordinary key lease hfind
      have hold : r.tenure? key = some lease.tenure := by rw [tenure?, hfind, Option.map_some]
      have hmargin := Lease.lt_of_ttl_le (hsettled _ hold).2.2.1
      obtain ⟨hgranted, hnanos⟩ := expiry_eq_ok hn hexpiry
      refine ⟨lease.tenure, hold, Lease.isOwnedBy_iff.mp howned, ?_, ?_⟩
      · rw [← hreading]
        exact Lease.lt_of_isRenewableAt? hl hn hmargin hearly
      · rw [hreading] at hnanos
        have hfirst := hgranted.nanos_le_latest
        have hsecond := hl.1.nanos_le_latest
        simp only [Tenure.renewed, Lease.tenure]
        omega
    · exact absurd hrenewed (hnot renewal)
  · rintro ⟨old, hold, howned, hearly, hfits⟩
    obtain ⟨lease, hfind, rfl⟩ := Option.map_eq_some_iff.mp hold
    have hl := hr.ordinary key lease hfind
    obtain ⟨-, hpositive, hmax, -⟩ := hsettled _ hold
    have hregular : lease.tenure.IsRegular :=
      ⟨hpositive, hmax, lease.validUntil.earliest_le_nanos, hl.1.nanos_le_latest⟩
    have hfits : Fits reading ttl := by
      simp only [Tenure.renewed, Tenure.term_one] at hfits
      simp only [Fits]
      omega
    obtain ⟨validUntil, houtcome⟩ : ∃ validUntil,
        (r.renew (Instant.ofNanos? reading) key leaseId nonce ttl newNonce).1 =
          .ok (some ⟨validUntil, newNonce⟩) :=
      renew_of_lt hr hold howned hregular hearly hlow hfits
    exact ⟨_, houtcome⟩

theorem recordedKey_renew (r : Registry) (k : String) :
    ((r.renew (Instant.ofNanos? reading) k leaseId nonce ttl newNonce).2.leases.find? key).map
        Lease.key = (r.leases.find? key).map Lease.key := by
  obtain ⟨now, lease, granted, _, _, hfind, _, _, _, _, _, hleases⟩ | ⟨_, hsame⟩ :=
    renew_cases r (Instant.ofNanos? reading) k leaseId nonce ttl newNonce
  · rw [hleases, Keyed.find?_insert]
    split
    · rename_i hkey
      rw [hkey, hfind]
      rfl
    · rfl
  · rw [hsame]

end Registry

namespace Sql.Store

variable {s : Store} {reading : Int} {key leaseId nonce newNonce : String} {ttl : Span}

theorem renews_iff (hsettled : ∀ old ∈ s.tenure? key, old.IsSettled) (httl : isValidTtl ttl = true)
    (hshown : Tenure.IsShown (floorTo nanosPerMilli reading)) :
    (∃ renewal, (s.renew (reading / nanosPerMilli) key leaseId nonce ttl newNonce).outcome =
        .ok (some renewal)) ↔
      ∃ old, s.tenure? key = some old ∧ old.IsOwnedBy leaseId nonce ∧
        floorTo nanosPerMilli reading < old.validUntil - old.margin ∧
        (old.renewed nanosPerMilli (floorTo nanosPerMilli reading) newNonce ttl).validUntil ≤
          Instant.latest.nanos := by
  have hfloor : reading / nanosPerMilli * nanosPerMilli = floorTo nanosPerMilli reading := rfl
  constructor
  · rintro ⟨renewal, hrenewed⟩
    obtain ⟨t, row, span, htable, hspan, hfind, howned, hearly, houtcome, _⟩ | ⟨hnot, _⟩ :=
      renew_cases s (reading / nanosPerMilli) key leaseId nonce ttl newNonce
    · have hold : s.tenure? key = some row.tenure := by
        rw [tenure?_of_table htable, hfind, Option.map_some]
      obtain ⟨v, hinstant, -⟩ := map_eq_ok (houtcome.symm.trans hrenewed)
      obtain ⟨hordinary, hnanos⟩ := instant_eq_ok hinstant
      refine ⟨row.tenure, hold, howned, (exceeds_iff (hsettled _ hold).2).mp hearly, ?_⟩
      have hlatest := hordinary.nanos_le_latest
      rw [hnanos, max_mul_nanosPerMilli hspan] at hlatest
      exact hlatest
    · exact absurd hrenewed (hnot renewal)
  · rintro ⟨old, hold, howned, hearly, hfits⟩
    obtain ⟨t, row, htable, hfind, rfl⟩ := exists_row hold
    obtain ⟨span, hspans, hspan⟩ := exists_spans (by decide) (Backing.fits_of_isValidTtl httl)
    have hprepared : s.prepared ttl = .ok ((span, ttl.millis), t) :=
      prepared_eq_ok.mpr ⟨hspans, htable⟩
    have hexceeds := (exceeds_iff (hsettled _ hold).2).mpr hearly
    have hend := Tenure.end_of_isShown (.inr rfl) hshown httl
    have hmax := max_mul_nanosPerMilli (a := row.validUntil) (b := reading / nanosPerMilli) hspan
    simp only [Tenure.renewed, Row.tenure] at hfits
    rw [hfloor] at hmax
    obtain ⟨v, hv⟩ : ∃ v, instant (max row.validUntil (reading / nanosPerMilli + span)) = .ok v := by
      apply instant_of_range
      · omega
      · omega
    have hboth : row.leaseId = leaseId ∧ row.nonce = nonce := howned
    exact ⟨⟨v, newNonce⟩, by
      simp [renew, hprepared, LeaseTable.renew, hfind, hboth, hexceeds, hv, Outcome.map]⟩

end Sql.Store

namespace Backing

variable {b : Backing} {key : String}

def recordedKey? (b : Backing) (key : String) : Option String :=
  match b with
  | .memory registry => (registry.leases.find? key).map Lease.key
  | .sql store => (store.tenure? key).map fun _ => key

def Settled (b : Backing) : Prop := ∀ key, ∀ t ∈ b.tenure? key, t.IsSettled

theorem isUpTo_visit (hsound : b.Sound) (v : Visit) {old new : Tenure}
    (hold : b.tenure? key = some old) (hnew : (b.visit v).tenure? key = some new) :
    old.IsUpTo new := by
  unfold Backing.visit at hnew
  split at hnew
  · rename_i call _
    have hchange := change hsound v.reading v.newNonce key call
    rw [hold, hnew] at hchange
    exact hchange.isUpTo b.isGrain_grain
  · cases hold.symm.trans (tenure?_of_purgeAt hsound hnew)
    exact .refl _

theorem isUpTo_after (hsound : b.Sound) (visits : List Visit) {old new : Tenure}
    (hold : b.tenure? key = some old)
    (hstays : ∀ part, part <+: visits → ((b.after part).tenure? key).isSome)
    (hnew : (b.after visits).tenure? key = some new) : old.IsUpTo new := by
  induction visits generalizing b old with
  | nil =>
    cases hold.symm.trans hnew
    exact .refl _
  | cons v rest ih =>
    obtain ⟨next, hnext⟩ := Option.isSome_iff_exists.mp (hstays [v] (by simp))
    have hfirst := isUpTo_visit hsound v hold hnext
    have hrest := ih (hsound.visit v) hnext (fun part hpart => hstays (v :: part) (by simpa)) hnew
    exact hfirst.trans hrest

theorem isShown_reads (b : Backing) {reading : Int} (hlow : Instant.earliest.nanos ≤ reading)
    (hhigh : reading ≤ Instant.latest.nanos) : Tenure.IsShown (b.reads reading) := by
  have hle := b.reads_le reading
  have hlt : reading - nanosPerMilli ≤ b.reads reading := by
    cases b <;> simp only [reads, grain, floorTo, nanosPerMilli] <;> omega
  constructor <;> omega

theorem Settled.visit (h : b.Settled) (hsound : b.Sound) {v : Visit} (hv : v.IsWithinLimits) :
    (b.visit v).Settled := by
  obtain ⟨service, reading, newNonce⟩ := v
  obtain ⟨⟨hlow, hhigh⟩, httl⟩ := hv
  have hshown := b.isShown_reads hlow hhigh
  intro key t ht
  cases service with
  | purge => exact h key t (tenure?_of_purgeAt hsound ht)
  | call call =>
    have hchange := change hsound reading newNonce key call
    have hold := h key
    have hnew : (b.applyAt reading newNonce call).state.tenure? key = some t := ht
    rw [hnew] at hchange
    generalize b.tenure? key = old at hchange hold
    cases hchange with
    | keep => exact hold t rfl
    | take claim _ _ _ => exact Tenure.isSettled_granted b.isGrain_grain hshown httl
    | extend leaseId nonce ttl u _ _ =>
      exact (hold u rfl).renewed b.isGrain_grain hshown httl newNonce

theorem Settled.after (h : b.Settled) (hsound : b.Sound) {visits : List Visit}
    (hvisits : ∀ v ∈ visits, v.IsWithinLimits) : (b.after visits).Settled := by
  induction visits generalizing b with
  | nil => exact h
  | cons v rest ih =>
    obtain ⟨hfirst, hrest⟩ := List.forall_mem_cons.mp hvisits
    exact ih (h.visit hsound hfirst) (hsound.visit v) hrest

theorem records_visit (hsound : b.Sound) (v : Visit) {nonce : String}
    (h : (b.visit v).Records nonce) : b.Records nonce ∨ v.nonce? = some nonce := by
  obtain ⟨key, t, ht, rfl⟩ := h
  obtain ⟨service, reading, newNonce⟩ := v
  cases service with
  | purge => exact .inl ⟨key, t, tenure?_of_purgeAt hsound ht, rfl⟩
  | call call =>
    have hchange := change hsound reading newNonce key call
    have hnew : (b.applyAt reading newNonce call).state.tenure? key = some t := ht
    rw [hnew] at hchange
    generalize hold : b.tenure? key = old at hchange
    cases hchange with
    | keep => exact .inl ⟨key, t, hold, rfl⟩
    | take claim _ _ _ => exact .inr rfl
    | extend leaseId nonce ttl u _ _ => exact .inr rfl

theorem records_after (hsound : b.Sound) (visits : List Visit) {nonce : String}
    (h : (b.after visits).Records nonce) :
    b.Records nonce ∨ nonce ∈ visits.filterMap Visit.nonce? := by
  induction visits generalizing b with
  | nil => exact .inl h
  | cons v rest ih =>
    obtain hfirst | hrest := ih (hsound.visit v) h
    · obtain hstart | hv := records_visit hsound v hfirst
      · exact .inl hstart
      · exact .inr (List.mem_filterMap.mpr ⟨v, List.mem_cons_self, hv⟩)
    · obtain ⟨u, hu, hnonce⟩ := List.mem_filterMap.mp hrest
      exact .inr (List.mem_filterMap.mpr ⟨u, List.mem_cons_of_mem v hu, hnonce⟩)

theorem exists_of_promised (hsound : b.Sound) {v : Visit} {validUntil : Instant}
    (h : b.promised? key v = some validUntil) :
    ∃ new, (b.visit v).tenure? key = some new ∧ v.nonce? = some new.nonce := by
  obtain hgranted | ⟨-, hrenewed⟩ := Option.or_eq_some_iff.mp h
  · obtain ⟨claim, hservice, rfl, houtcome⟩ := granted?_eq_some hgranted
    obtain ⟨-, htenure, -⟩ := acquire_granted hsound houtcome
    refine ⟨.granted b.grain (b.reads v.reading) claim, ?_, ?_⟩
    · simp only [Backing.visit, hservice]
      exact htenure
    · simp only [Visit.nonce?, hservice]
      rfl
  · obtain ⟨renewal, hrenewal, -⟩ := Option.map_eq_some_iff.mp hrenewed
    obtain ⟨leaseId, nonce, ttl, hservice, houtcome⟩ := renewed?_eq_some hrenewal
    obtain ⟨old, -, -, -, -, htenure⟩ := renew_renewed hsound houtcome
    refine ⟨old.renewed b.grain (b.reads v.reading) v.newNonce ttl, ?_, ?_⟩
    · simp only [Backing.visit, hservice]
      exact htenure
    · simp only [Visit.nonce?, hservice]
      rfl

theorem renew_unchanged (hsound : b.Sound) (reading : Int) (newNonce k leaseId nonce : String)
    (ttl : Span) {old : Tenure} (hold : b.tenure? key = some old) :
    ∃ new, (b.applyAt reading newNonce (.renew k leaseId nonce ttl)).state.tenure? key = some new ∧
      new.leaseId = old.leaseId ∧ new.metadata = old.metadata ∧ new.createdAt = old.createdAt := by
  have hchange := change hsound reading newNonce key (.renew k leaseId nonce ttl)
  rw [hold] at hchange
  generalize (b.applyAt reading newNonce (.renew k leaseId nonce ttl)).state.tenure? key = after
    at hchange
  cases hchange with
  | keep => exact ⟨old, rfl, rfl, rfl, rfl⟩
  | extend _ _ _ _ _ _ => exact ⟨_, rfl, rfl, rfl, rfl⟩

theorem renews_iff (hsound : b.Sound) (hsettled : b.Settled) (reading : Int)
    (hlow : Instant.earliest.nanos ≤ reading) (hhigh : reading ≤ Instant.latest.nanos) {ttl : Span}
    (httl : isValidTtl ttl = true) (newNonce key leaseId nonce : String) :
    (∃ renewal, (b.applyAt reading newNonce (.renew key leaseId nonce ttl)).outcome =
        .ok (some renewal)) ↔
      ∃ old, b.tenure? key = some old ∧ old.IsOwnedBy leaseId nonce ∧
        b.reads reading < old.validUntil - old.margin ∧
        (old.renewed b.grain (b.reads reading) newNonce ttl).validUntil ≤ Instant.latest.nanos := by
  cases b with
  | memory registry =>
    rw [reads_memory]
    exact Registry.renews_iff hsound (hsettled key) hlow
  | sql store => exact Sql.Store.renews_iff (hsettled key) httl (isShown_reads (.sql store) hlow hhigh)

theorem recordedKey?_renew (hsound : b.Sound) (reading : Int) (newNonce k leaseId nonce : String)
    (ttl : Span) : (b.applyAt reading newNonce (.renew k leaseId nonce ttl)).state.recordedKey? key =
      b.recordedKey? key := by
  cases b with
  | memory registry => exact Registry.recordedKey_renew registry k
  | sql store =>
    have hchange := Sql.Store.change store (reading / nanosPerMilli) newNonce key
      (.renew k leaseId nonce ttl)
    simp only [applyAt, recordedKey?]
    generalize store.tenure? key = old at hchange
    generalize (store.applyAt (reading / nanosPerMilli) newNonce
      (.renew k leaseId nonce ttl)).state.tenure? key = new at hchange
    cases hchange with
    | keep => rfl
    | extend => rfl

theorem nonce_ne_of_promised (hsound : b.Sound) {earlier : List Visit} {v : Visit}
    (hminted : ((earlier ++ [v]).filterMap Visit.nonce?).Nodup)
    (hstart : ∀ nonce, v.nonce? = some nonce → ¬b.Records nonce) {old : Tenure}
    (hold : (b.after earlier).tenure? key = some old)
    (hpromised : ((b.after earlier).promised? key v).isSome) :
    ∃ new, (b.after (earlier ++ [v])).tenure? key = some new ∧ new.nonce ≠ old.nonce := by
  obtain ⟨validUntil, hpromised⟩ := Option.isSome_iff_exists.mp hpromised
  obtain ⟨new, hnew, hnonce⟩ := exists_of_promised (hsound.after earlier) hpromised
  refine ⟨new, ?_, ?_⟩
  · rw [after_append]
    exact hnew
  · intro hsame
    rw [hsame] at hnonce
    obtain hrecorded | hearlier := records_after hsound earlier ⟨key, old, hold, rfl⟩
    · exact hstart old.nonce hnonce hrecorded
    · rw [List.filterMap_append, List.nodup_append] at hminted
      apply hminted.2.2 old.nonce hearlier old.nonce _ rfl
      exact List.mem_filterMap.mpr ⟨v, List.mem_cons_self, hnonce⟩

/-- The record of a key keeps its end, its terms and its owner through all visits, however the
readings of the clock jump. -/
theorem expiry_monotone (hopened : b.IsOpened) (hsettled : b.Settled) (visits : List Visit)
    (hlimits : ∀ v ∈ visits, v.IsWithinLimits) (hminted : (visits.filterMap Visit.nonce?).Nodup)
    (hfresh : ∀ nonce ∈ visits.filterMap Visit.nonce?, ¬b.Records nonce) :
    (∀ earlier middle key old new, earlier ++ middle <+: visits →
        (b.after earlier).tenure? key = some old →
        (∀ part, part <+: middle → ((b.after (earlier ++ part)).tenure? key).isSome) →
        (b.after (earlier ++ middle)).tenure? key = some new →
        old.validUntil ≤ new.validUntil ∧
          (new.leaseId ≠ old.leaseId → old.validUntil < new.validUntil)) ∧
      (∀ earlier v key old, earlier ++ [v] <+: visits → (b.after earlier).tenure? key = some old →
        ((b.after earlier).promised? key v).isSome →
        ∃ new, (b.after (earlier ++ [v])).tenure? key = some new ∧ new.nonce ≠ old.nonce) ∧
      (∀ earlier key t, earlier <+: visits → (b.after earlier).tenure? key = some t →
        t.updatedAt + t.ttl * nanosPerMilli + grantPadding.nanos ≤ t.validUntil) ∧
      ∀ earlier reading newNonce key leaseId nonce ttl,
        earlier ++ [⟨.call (.renew key leaseId nonce ttl), reading, newNonce⟩] <+: visits →
        ((∃ renewal, ((b.after earlier).applyAt reading newNonce
              (.renew key leaseId nonce ttl)).outcome = .ok (some renewal)) ↔
            ∃ old, (b.after earlier).tenure? key = some old ∧ old.IsOwnedBy leaseId nonce ∧
              (b.after earlier).reads reading < old.validUntil - old.margin ∧
              (old.renewed b.grain ((b.after earlier).reads reading) newNonce ttl).validUntil ≤
                Instant.latest.nanos) ∧
          (∀ old, (b.after earlier).tenure? key = some old →
            old.validUntil ≤ (b.after earlier).reads reading →
            ∀ renewal, ((b.after earlier).applyAt reading newNonce
              (.renew key leaseId nonce ttl)).outcome ≠ .ok (some renewal)) ∧
          ∀ other old, (b.after earlier).tenure? other = some old →
            ∃ new, ((b.after earlier).applyAt reading newNonce
                (.renew key leaseId nonce ttl)).state.tenure? other = some new ∧
              ((b.after earlier).applyAt reading newNonce
                (.renew key leaseId nonce ttl)).state.recordedKey? other =
                  (b.after earlier).recordedKey? other ∧
              new.leaseId = old.leaseId ∧ new.metadata = old.metadata ∧
              new.createdAt = old.createdAt := by
  have hsound := hopened.sound
  have hlater {earlier : List Visit} (h : earlier <+: visits) : (b.after earlier).Settled :=
    hsettled.after hsound fun v hv => hlimits v (h.subset hv)
  refine ⟨?_, ?_, ?_, ?_⟩
  · intro earlier middle key old new _ hold hstays hnew
    simp only [after_append] at hstays hnew
    exact isUpTo_after (hsound.after earlier) middle hold hstays hnew
  · intro earlier v key old hearlier hold hpromised
    have hsublist := hearlier.sublist.filterMap Visit.nonce?
    apply nonce_ne_of_promised hsound (hsublist.nodup hminted) _ hold hpromised
    intro nonce hnonce
    apply hfresh nonce
    exact List.mem_filterMap.mpr ⟨v, hearlier.subset (by simp), hnonce⟩
  · intro earlier key t hearlier ht
    exact (hlater hearlier key t ht).1
  · intro earlier reading newNonce key leaseId nonce ttl hearlier
    have hsound := hsound.after earlier
    have hsettled := hlater ((List.prefix_append _ _).trans hearlier)
    obtain ⟨⟨hlow, hhigh⟩, httl⟩ := hlimits _ (hearlier.subset (List.mem_append_right _
      List.mem_cons_self))
    have hiff := renews_iff hsound hsettled reading hlow hhigh httl newNonce key leaseId nonce
    rw [grain_after] at hiff
    refine ⟨hiff, ?_, ?_⟩
    · intro old hold hexpired renewal hrenewed
      obtain ⟨found, hfound, -, hearly, -⟩ := hiff.mp ⟨renewal, hrenewed⟩
      cases hold.symm.trans hfound
      have hmargin := Tenure.margin_nonneg (hsettled key old hold).2.1
      omega
    · intro other old hold
      obtain ⟨new, hnew, hkept⟩ := renew_unchanged hsound reading newNonce key leaseId nonce ttl hold
      exact ⟨new, hnew, recordedKey?_renew hsound reading newNonce key leaseId nonce ttl, hkept⟩

def shortened : List Visit :=
  [⟨.call (.acquire ⟨"job", "first", "n1", .ofMillis 2000, ""⟩), 5000000000, ""⟩,
    ⟨.call (.renew "job" "first" "n1" (.ofMillis 1)), 4000000000, "n2"⟩,
    ⟨.call (.acquire ⟨"job", "second", "n3", .ofMillis 2000, ""⟩), 9000000000, ""⟩]

theorem expiry_monotone_shortened :
    (memory .new).IsOpened ∧ (memory .new).Settled ∧ (∀ v ∈ shortened, v.IsWithinLimits) ∧
      (shortened.filterMap Visit.nonce?).Nodup ∧
      (∀ nonce ∈ shortened.filterMap Visit.nonce?, ¬(memory .new).Records nonce) ∧
      (∃ renewal, (((memory .new).after (shortened.take 1)).applyAt 4000000000 "n2"
        (.renew "job" "first" "n1" (.ofMillis 1))).outcome = .ok (some renewal)) ∧
      ∃ old new, ((memory .new).after (shortened.take 2)).tenure? "job" = some old ∧
        ((memory .new).after shortened).tenure? "job" = some new ∧ new.nonce ≠ old.nonce := by
  have hopened : (memory .new).IsOpened := rfl
  have hsettled : (memory .new).Settled := by
    intro key t ht
    cases ht
  have hlimits : ∀ v ∈ shortened, v.IsWithinLimits := by decide
  have hminted : (shortened.filterMap Visit.nonce?).Nodup := by decide
  have hfresh : ∀ nonce ∈ shortened.filterMap Visit.nonce?, ¬(memory .new).Records nonce := by
    rintro nonce - ⟨key, t, ht, -⟩
    cases ht
  obtain ⟨-, hnonces, -, hrenewals⟩ := expiry_monotone hopened hsettled shortened hlimits hminted hfresh
  have hrenews := hrenewals (shortened.take 1) 4000000000 "n2" "job" "first" "n1" (.ofMillis 1)
    (List.take_prefix 2 shortened)
  obtain ⟨new, hnew, hne⟩ := hnonces (shortened.take 2) ⟨.call (.acquire ⟨"job", "second", "n3",
    .ofMillis 2000, ""⟩), 9000000000, ""⟩ "job" ⟨"first", "n2", 7010000000, 1, "", 5000000000,
    4000000000⟩ List.prefix_rfl (by decide) (by decide)
  refine ⟨hopened, hsettled, hlimits, hminted, hfresh, hrenews.1.mpr ?_, _, new, ?_, hnew, hne⟩
  · exact ⟨⟨"first", "n1", 7010000000, 2000, "", 5000000000, 5000000000⟩, by decide, ⟨rfl, rfl⟩,
      by decide, by decide⟩
  · decide

def heldFrom (reading : Int) : Backing :=
  ((memory .new).applyAt reading "" (.acquire ⟨"job", "first", "n1", .ofMillis 10000, ""⟩)).state

/-- On a clock from before the epoch, and next to the end of the calendar, a renewal fails although
it comes before the margin. -/
theorem renewal_fails_beyond_clock :
    ((∃ old, (heldFrom 1).tenure? "job" = some old ∧ old.IsOwnedBy "first" "n1" ∧
        -1 < old.validUntil - old.margin) ∧
      ((heldFrom 1).apply (-1) "n2" (.renew "job" "first" "n1" (.ofMillis 5000))).outcome =
        .overflow) ∧
      (∃ old, (heldFrom (Instant.latest.nanos - 30000000000)).tenure? "job" = some old ∧
        old.IsOwnedBy "first" "n1" ∧
        Instant.latest.nanos - 30000000000 < old.validUntil - old.margin) ∧
      ((heldFrom (Instant.latest.nanos - 30000000000)).applyAt (Instant.latest.nanos - 30000000000) "n2"
        (.renew "job" "first" "n1" (.ofMillis 600000))).outcome = .overflow := by
  refine ⟨⟨?_, by decide⟩, ?_, by decide⟩
  · exact ⟨⟨"first", "n1", 10010000001, 10000, "", 1, 1⟩, by decide, ⟨rfl, rfl⟩, by decide⟩
  · exact ⟨⟨"first", "n1", Instant.latest.nanos - 19990000000, 10000, "",
      Instant.latest.nanos - 30000000000, Instant.latest.nanos - 30000000000⟩, by decide, ⟨rfl, rfl⟩,
      by decide⟩

end Backing

end LeaseLock
