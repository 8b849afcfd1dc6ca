import LeaseLock.Proofs.Coordinator.Credential
import LeaseLock.Proofs.Coordinator.OpenCluster
import Mathlib.Logic.Function.Basic

/-!
The account of nonces over all operations of the coordinators. Every nonce on record is known; no two
operations own the same nonce; a nonce under which an operation still makes claims is on no record.
-/

namespace LeaseLock

open Interaction

/-- What a reply can make of the standing of an operation, with the identifier that the question met
and the store as the reply leaves it. -/
inductive Progress (id : String) (after : Backing) : Standing → Standing → Prop
  | stay (st : Standing) : Progress id after st st
  | half : Progress id after .fresh (.half id)
  | name (leaseId : String) : Progress id after (.half leaseId) (.named leaseId id)
  | spend (leaseId nonce : String) : Progress id after (.named leaseId nonce) .spent
  | win (token : Token) (hkey : isValidKey token.key = true) (hagrees : after.Agrees token) :
      Progress id after (.named token.leaseId token.nonce) (.holding token)
  | renew (token : Token) (hkey : isValidKey token.key = true) (hnonce : token.nonce = id)
      (hagrees : after.Agrees token) : Progress id after .fresh (.holding token)

namespace Standing

theorem of_update {standing : Nat → Standing} {i j : Nat} {new st : Standing}
    (h : Function.update standing i new j = st) :
    (j = i ∧ new = st) ∨ (j ≠ i ∧ standing j = st) := by
  by_cases hj : j = i
  · subst hj
    rw [Function.update_self] at h
    exact .inl ⟨rfl, h⟩
  · rw [Function.update_of_ne hj] at h
    exact .inr ⟨hj, h⟩

theorem ofAttempt_ne_named {claim : Claim} {reply : CallReply Grant}
    (h : reply ≠ .answered (.ok .contended)) (leaseId nonce : String) :
    ofAttempt claim reply ≠ .named leaseId nonce := by
  intro hnamed
  unfold ofAttempt at hnamed
  split at hnamed
  · cases hnamed
  · exact h rfl
  · cases hnamed

theorem ofRenewal_ne_named {key leaseId : String} (reply : CallReply (Option Renewal))
    (otherLease nonce : String) : ofRenewal key leaseId reply ≠ .named otherLease nonce := by
  intro hnamed
  unfold ofRenewal at hnamed
  split at hnamed
  · cases hnamed
  · cases hnamed

end Standing

namespace Backing

variable {b : Backing} {w : EffectInput} {st : Standing} {reading : Int} {newNonce : String}

theorem record_of_applyAt (hsound : b.Sound) (call : Call) {key : String} {t : Tenure}
    (ht : (b.applyAt reading newNonce call).state.tenure? key = some t) :
    b.tenure? key = some t ∨ (∃ claim, call = .acquire claim ∧ t.nonce = claim.nonce) ∨
      ∃ leaseId nonce ttl, call = .renew key leaseId nonce ttl ∧ t.nonce = newNonce := by
  have hchange := change hsound reading newNonce key call
  rw [ht] at hchange
  generalize b.tenure? key = before at hchange
  cases hchange with
  | keep => exact .inl rfl
  | take claim => exact .inr (.inl ⟨claim, rfl, rfl⟩)
  | extend leaseId nonce ttl => exact .inr (.inr ⟨leaseId, nonce, ttl, rfl, rfl⟩)

theorem progress_of_acquire (hsound : b.Sound) {claim : Claim} (hkey : isValidKey claim.key = true) :
    Progress newNonce (b.applyAt reading newNonce (.acquire claim)).state
      (.named claim.leaseId claim.nonce)
      (.ofAttempt claim (.answered (b.applyAt reading newNonce (.acquire claim)).outcome)) := by
  cases houtcome : (b.applyAt reading newNonce (.acquire claim)).outcome with
  | failed fault => exact .spend _ _
  | overflow => exact .spend _ _
  | ok grant =>
    cases grant with
    | contended => exact .stay _
    | granted validUntil =>
      obtain ⟨-, htenure, -, hnanos⟩ := acquire_granted hsound houtcome
      exact .win ⟨claim.key, claim.leaseId, validUntil, claim.nonce⟩ hkey
        ⟨_, htenure, ⟨rfl, rfl⟩, hnanos.symm⟩

theorem progress_of_renew (hsound : b.Sound) {key leaseId nonce : String} {ttl : Span}
    (hkey : isValidKey key = true) :
    Progress newNonce (b.applyAt reading newNonce (.renew key leaseId nonce ttl)).state .fresh
      (.ofRenewal key leaseId
        (.answered (b.applyAt reading newNonce (.renew key leaseId nonce ttl)).outcome)) := by
  cases houtcome : (b.applyAt reading newNonce (.renew key leaseId nonce ttl)).outcome with
  | failed fault => exact .stay _
  | overflow => exact .stay _
  | ok answer =>
    cases answer with
    | none => exact .stay _
    | some renewal =>
      obtain ⟨old, -, howned, hnonce, hnanos, htenure⟩ := renew_renewed hsound houtcome
      exact .renew ⟨key, leaseId, renewal.validUntil, renewal.nonce⟩ hkey hnonce
        ⟨_, htenure, ⟨howned.1, hnonce.symm⟩, hnanos.symm⟩

theorem progress_of_respond (hsound : b.Sound) {effect : Effect}
    (hpermits : credential.permits st effect) :
    Progress w.id (b.respond w effect).2 st
      (credential.next st effect (b.respond w effect).1) := by
  cases effect with
  | mint =>
    cases st with
    | fresh => exact .half
    | half leaseId => exact .name leaseId
    | named leaseId nonce => exact .stay _
    | holding token => exact .stay _
    | spent => exact .stay _
  | call limit call =>
    cases call with
    | acquire claim =>
      obtain ⟨rfl, hkey⟩ := hpermits
      unfold respond
      cases w.delivery with
      | answered => exact progress_of_acquire hsound hkey
      | lost => exact .spend _ _
      | dropped => exact .spend _ _
    | renew key leaseId nonce ttl =>
      obtain ⟨rfl, hkey⟩ := hpermits
      unfold respond
      cases w.delivery with
      | answered => exact progress_of_renew hsound hkey
      | lost => exact .stay _
      | dropped => exact .stay _
    | release key leaseId nonce => exact .stay _
    | isHeld key => exact .stay _
    | probe => exact .stay _
    | close => exact .stay _
  | pause delay => exact .stay _
  | drawWord => exact .stay _
  | readClock => exact .stay _
  | count counter => exact .stay _
  | recordDuration seconds => exact .stay _
  | report event => exact .stay _
  | isClosed => exact .stay _
  | markClosed => exact .stay _

theorem outcome_of_answered {limit : Option Span} {call : Call} {outcome : Outcome call.Answer}
    (h : (b.respond w (.call limit call)).1 = .answered outcome) :
    (b.applyAt w.reading w.id call).outcome = outcome := by
  unfold respond at h
  cases hdelivery : w.delivery with
  | answered =>
    rw [hdelivery] at h
    exact CallReply.answered.inj h
  | lost =>
    rw [hdelivery] at h
    cases h
  | dropped =>
    rw [hdelivery] at h
    cases h

theorem IsReady.respond (hready : b.IsReady) (w : EffectInput) {effect : Effect}
    (hpermits : credential.permits st effect) : (b.respond w effect).2.IsReady := by
  obtain hsame | ⟨limit, call, rfl, hstate⟩ := respond_state b w effect
  · rw [hsame]
    exact hready
  · rw [hstate]
    refine hready.applyAt _ _ ?_
    rintro rfl
    exact hpermits

/-- A record that a reply leaves is an old one, or its nonce is the identifier that the question met
or the operation's own. Then the operation had no token before and makes no claim afterwards. -/
theorem record_of_respond (hsound : b.Sound) {effect : Effect}
    (hpermits : credential.permits st effect) {key : String} {t : Tenure}
    (ht : (b.respond w effect).2.tenure? key = some t) :
    b.tenure? key = some t ∨
      ((t.nonce = w.id ∨ st.nonce? = some t.nonce) ∧
        (∀ leaseId nonce, credential.next st effect (b.respond w effect).1 ≠ .named leaseId nonce) ∧
        ∀ token, st ≠ .holding token) := by
  obtain hsame | ⟨limit, call, rfl, hstate⟩ := respond_state b w effect
  · exact .inl (hsame ▸ ht)
  rw [hstate] at ht
  obtain hold | ⟨claim, rfl, hnonce⟩ | ⟨leaseId, nonce, ttl, rfl, hnonce⟩ :=
    record_of_applyAt hsound call ht
  · exact .inl hold
  · obtain ⟨rfl, -⟩ := hpermits
    by_cases hcontended :
        (b.respond w (.call limit (.acquire claim))).1 = .answered (.ok .contended)
    · have houtcome := outcome_of_answered hcontended
      exact .inl ((tenure?_of_contended houtcome key).symm.trans ht)
    · refine .inr ⟨.inr (congrArg some hnonce.symm), ?_, fun token h => by cases h⟩
      exact Standing.ofAttempt_ne_named hcontended
  · obtain ⟨rfl, -⟩ := hpermits
    exact .inr ⟨.inl hnonce, Standing.ofRenewal_ne_named _, fun token h => by cases h⟩

end Backing

namespace Progress

variable {id nonce : String} {after : Backing} {st st' : Standing}

theorem nonce?_cases (h : Progress id after st st') (hnonce : st'.nonce? = some nonce) :
    st.nonce? = some nonce ∨ nonce = id := by
  cases h with
  | stay => exact .inl hnonce
  | half => cases hnonce
  | name leaseId => exact .inr (Option.some.inj hnonce).symm
  | spend => cases hnonce
  | win token => exact .inl hnonce
  | renew token _ hid => exact .inr ((Option.some.inj hnonce).symm.trans hid)

theorem named_cases {leaseId : String} (h : Progress id after st (.named leaseId nonce)) :
    st = .named leaseId nonce ∨ nonce = id := by
  cases h with
  | stay => exact .inl rfl
  | name => exact .inr rfl

theorem holding_cases {token : Token} (h : Progress id after st (.holding token)) :
    st = .holding token ∨
      (isValidKey token.key = true ∧ after.Agrees token ∧
        (st = .named token.leaseId token.nonce ∨ token.nonce = id)) := by
  cases h with
  | stay => exact .inl rfl
  | win _ hkey hagrees => exact .inr ⟨hkey, hagrees, .inl rfl⟩
  | renew _ hkey hid hagrees => exact .inr ⟨hkey, hagrees, .inr hid⟩

end Progress

structure Account (known : String → Prop) (b : Backing) (standing : Nat → Standing) : Prop where
  sound : b.Sound
  distinct : ∀ i j nonce, (standing i).nonce? = some nonce → (standing j).nonce? = some nonce → i = j
  owned : ∀ i nonce, (standing i).nonce? = some nonce → known nonce
  recorded : ∀ key t, b.tenure? key = some t → known t.nonce
  unclaimed : ∀ i leaseId nonce, standing i = .named leaseId nonce →
    ∀ key t, b.tenure? key = some t → t.nonce ≠ nonce
  valid : ∀ i token, standing i = .holding token → isValidKey token.key = true

namespace Account

variable {known : String → Prop} {b : Backing} {standing : Nat → Standing} {w : EffectInput} {i : Nat}
  {effect : Effect}

theorem owner_cases (h : Account known b standing)
    (hpermits : credential.permits (standing i) effect) {j : Nat} {nonce : String}
    (hnonce : (Function.update standing i (credential.next (standing i) effect
      (b.respond w effect).1) j).nonce? = some nonce) :
    (standing j).nonce? = some nonce ∨ (j = i ∧ nonce = w.id) := by
  by_cases hj : j = i
  · subst hj
    rw [Function.update_self] at hnonce
    obtain hold | hnew := (Backing.progress_of_respond h.sound hpermits).nonce?_cases hnonce
    · exact .inl hold
    · exact .inr ⟨rfl, hnew⟩
  · rw [Function.update_of_ne hj] at hnonce
    exact .inl hnonce

theorem respond (h : Account known b standing) (hpermits : credential.permits (standing i) effect)
    (hfresh : ¬known w.id) :
    Account (fun nonce => known nonce ∨ nonce = w.id) (b.respond w effect).2
      (Function.update standing i (credential.next (standing i) effect (b.respond w effect).1)) := by
  have hprogress := Backing.progress_of_respond (w := w) h.sound hpermits
  refine ⟨h.sound.respond w effect, ?_, ?_, ?_, ?_, ?_⟩
  · intro j k nonce hj hk
    obtain hjOld | ⟨hji, hjNew⟩ := h.owner_cases hpermits hj
    · obtain hkOld | ⟨-, hkNew⟩ := h.owner_cases hpermits hk
      · exact h.distinct j k nonce hjOld hkOld
      · exact absurd (hkNew ▸ h.owned j nonce hjOld) hfresh
    · obtain hkOld | ⟨hki, -⟩ := h.owner_cases hpermits hk
      · exact absurd (hjNew ▸ h.owned k nonce hkOld) hfresh
      · exact hji.trans hki.symm
  · intro j nonce hj
    obtain hj | ⟨-, hnew⟩ := h.owner_cases hpermits hj
    · exact .inl (h.owned j nonce hj)
    · exact .inr hnew
  · intro key t ht
    obtain hold | ⟨hnew | hown, -⟩ := Backing.record_of_respond h.sound hpermits ht
    · exact .inl (h.recorded key t hold)
    · exact .inr hnew
    · exact .inl (h.owned i _ hown)
  · rintro j leaseId nonce hj key t ht rfl
    obtain ⟨rfl, hj⟩ | ⟨hji, hj⟩ := Standing.of_update hj
    · obtain hold | ⟨-, hnext, -⟩ := Backing.record_of_respond h.sound hpermits ht
      · rw [hj] at hprogress
        obtain hnamed | hnew := hprogress.named_cases
        · exact h.unclaimed j leaseId _ hnamed key t hold rfl
        · exact hfresh (hnew ▸ h.recorded key t hold)
      · exact hnext leaseId _ hj
    · have hnonce : (standing j).nonce? = some t.nonce := by rw [hj]; rfl
      obtain hold | ⟨hnew | hown, -⟩ := Backing.record_of_respond h.sound hpermits ht
      · exact h.unclaimed j leaseId _ hj key t hold rfl
      · exact hfresh (hnew ▸ h.owned j _ hnonce)
      · exact hji (h.distinct j i _ hnonce hown)
  · intro j token hj
    obtain ⟨rfl, hj⟩ | ⟨-, hj⟩ := Standing.of_update hj
    · rw [hj] at hprogress
      obtain hold | ⟨hkey, -⟩ := hprogress.holding_cases
      · exact h.valid j token hold
      · exact hkey
    · exact h.valid j token hj

theorem mono {wider : String → Prop} (h : Account known b standing)
    (himp : ∀ nonce, known nonce → wider nonce) : Account wider b standing :=
  ⟨h.sound, h.distinct, fun i nonce hnonce => himp nonce (h.owned i nonce hnonce),
    fun key t ht => himp t.nonce (h.recorded key t ht), h.unclaimed, h.valid⟩

theorem purge (h : Account known b standing) (reading : Int) :
    Account known (b.purgeAt reading) standing := by
  have hkept {key : String} {t : Tenure} (ht : (b.purgeAt reading).tenure? key = some t) :
      b.tenure? key = some t := Backing.tenure?_of_purgeAt h.sound ht
  refine ⟨h.sound.purgeAt reading, h.distinct, h.owned, ?_, ?_, h.valid⟩
  · intro key t ht
    exact h.recorded key t (hkept ht)
  · intro i leaseId nonce hnamed key t ht
    exact h.unclaimed i leaseId nonce hnamed key t (hkept ht)

theorem not_matches_respond (h : Account known b standing)
    (hpermits : credential.permits (standing i) effect) (hfresh : ¬known w.id) {j : Nat}
    {token : Token} (hj : standing j = .holding token) (hdead : ¬b.Matches token) :
    ¬(b.respond w effect).2.Matches token := by
  rintro ⟨t, ht, howned⟩
  have hnonce : (standing j).nonce? = some t.nonce := by
    rw [hj, howned.2]
    rfl
  obtain hold | ⟨hnew | hown, -, hnot⟩ := Backing.record_of_respond h.sound hpermits ht
  · exact hdead ⟨t, hold, howned⟩
  · exact hfresh (hnew ▸ h.owned j _ hnonce)
  · have hsame := h.distinct j i _ hnonce hown
    subst hsame
    exact hnot token hj

theorem agrees_respond (h : Account known b standing)
    (hpermits : credential.permits (standing i) effect) (hfresh : ¬known w.id) {token : Token}
    (hnot : standing i ≠ .holding token)
    (hnext : credential.next (standing i) effect (b.respond w effect).1 = .holding token) :
    ¬b.Matches token ∧ (b.respond w effect).2.Agrees token := by
  have hprogress := Backing.progress_of_respond (w := w) h.sound hpermits
  rw [hnext] at hprogress
  obtain hsame | ⟨-, hagrees, hnamed | hid⟩ := hprogress.holding_cases
  · exact absurd hsame hnot
  · refine ⟨?_, hagrees⟩
    rintro ⟨t, ht, howned⟩
    exact h.unclaimed i token.leaseId token.nonce hnamed _ t ht howned.2
  · refine ⟨?_, hagrees⟩
    rintro ⟨t, ht, howned⟩
    exact hfresh (hid ▸ howned.2 ▸ h.recorded _ t ht)

end Account

end LeaseLock
