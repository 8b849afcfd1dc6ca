import LeaseLock.Proofs.Store.Keyed
import LeaseLock.Proofs.Store.Tenure
import LeaseLock.Sql.Store

namespace LeaseLock.Sql

variable {row : Row} {now : Int}

def Row.tenure (r : Row) : Tenure :=
  ⟨r.leaseId, r.nonce, r.validUntil * nanosPerMilli, r.ttlMillis, r.metadata,
    r.createdAt * nanosPerMilli, r.updatedAt * nanosPerMilli⟩

theorem Quantity.ofInt_of_isWord {n : Int} (h : isWord n = true) : Quantity.ofInt n = .whole n := by
  simp only [Quantity.ofInt, h, if_true]

theorem isWord_of_lt {n : Int} (hlow : -9223372036854775808 ≤ n) (hhigh : n < 9223372036854775808) :
    isWord n = true := by
  simp only [isWord, UInt64.size, decide_eq_true_eq]
  omega

theorem renewableUntil_eq (h : row.tenure.IsMeasured) :
    LeaseTable.renewableUntil row = .whole (row.validUntil - row.ttlMillis * marginPercent / 100) := by
  have hearliest := Instant.nanos_earliest
  have hlatest := Instant.nanos_latest
  have hmax := millis_maxTtl
  simp only [Tenure.IsMeasured, Row.tenure, nanosPerMilli] at h
  have hproduct : row.ttlMillis * marginPercent = row.ttlMillis * 15 := rfl
  have hcut : (row.ttlMillis * marginPercent).tdiv 100 = row.ttlMillis * marginPercent / 100 := by
    rw [hproduct, Int.tdiv_eq_ediv_of_nonneg (by omega)]
  have hmul := Quantity.whole_mul_whole (isWord_of_lt (n := row.ttlMillis * marginPercent)
    (by omega) (by omega))
  have hdiv := Quantity.whole_div_whole (isWord_of_lt (n := (row.ttlMillis * marginPercent).tdiv 100)
    (by omega) (by omega))
  have hsub := Quantity.whole_sub_whole (isWord_of_lt
    (n := row.validUntil - (row.ttlMillis * marginPercent).tdiv 100) (by omega) (by omega))
  rw [LeaseTable.renewableUntil, Quantity.ofInt_of_isWord (isWord_of_lt (by omega) (by omega)),
    Quantity.ofInt_of_isWord (isWord_of_lt (by omega) (by omega)),
    Quantity.ofInt_of_isWord (by decide), Quantity.ofInt_of_isWord (by decide), hmul, hdiv, hsub, hcut]

theorem exceeds_iff (h : row.tenure.IsMeasured) :
    (LeaseTable.renewableUntil row).exceeds now = true ↔
      now * nanosPerMilli < row.tenure.validUntil - row.tenure.margin := by
  simp only [renewableUntil_eq h, Quantity.exceeds, decide_eq_true_eq, Row.tenure, Tenure.margin,
    nanosPerMilli]
  omega

namespace Store

variable {s : Store} {t : LeaseTable}

def tenure? (s : Store) (key : String) : Option Tenure :=
  match s.table with
  | .ok t => (t.find? key).map Row.tenure
  | _ => none

theorem tenure?_of_table (h : s.table = .ok t) (key : String) :
    s.tenure? key = (t.find? key).map Row.tenure := by
  rw [tenure?, h]

theorem exists_of_table (h : s.table = .ok t) :
    ∃ database, s.connection = .open database ∧ database.table = some t ∧
      lowerAscii database.tableName.toList = lowerAscii s.settings.lockTable.toList := by
  unfold table at h
  split at h
  · cases h
  · cases h
  · rename_i database hconnection
    split at h
    · rename_i found hfound
      split at h
      · rename_i hname
        cases h
        exact ⟨database, hconnection, hfound, hname⟩
      · cases h
    · cases h

theorem table_withTable (h : s.table = .ok t) (u : LeaseTable) : (s.withTable u).table = .ok u := by
  obtain ⟨database, hconnection, _, hname⟩ := exists_of_table h
  simp only [withTable, hconnection, table, hname, if_true]

theorem withTable_self (h : s.table = .ok t) : s.withTable t = s := by
  obtain ⟨settings, statements, connection⟩ := s
  obtain ⟨⟨tableName, found⟩, hconnection, hfound, _⟩ := exists_of_table h
  dsimp only at hconnection hfound
  subst hconnection hfound
  rfl

theorem checkOpen_of_table (h : s.table = .ok t) : s.checkOpen = .ok () := by
  obtain ⟨database, hconnection, _⟩ := exists_of_table h
  rw [checkOpen, hconnection]

theorem prepared_eq_ok {ttl : Span} {p : (Int × Int) × LeaseTable} :
    s.prepared ttl = .ok p ↔ spans ttl = .ok p.1 ∧ s.table = .ok p.2 := by
  simp only [prepared, Outcome.bind_eq_ok, Outcome.pure_eq_ok, Outcome.ok.injEq]
  constructor
  · rintro ⟨_, _, q, hspans, u, htable, rfl⟩
    exact ⟨hspans, htable⟩
  · rintro ⟨hspans, htable⟩
    exact ⟨(), checkOpen_of_table htable, p.1, hspans, p.2, htable, rfl⟩

theorem millis_eq_ok {span : Span} {ms : Int} (h : millis span = .ok ms) : ms = span.millis := by
  simp only [millis] at h
  split at h
  · cases h
    rfl
  · cases h

theorem spans_eq_ok {ttl : Span} {p : Int × Int} (h : spans ttl = .ok p) :
    p.1 * nanosPerMilli = Tenure.term nanosPerMilli ttl ∧ p.2 = ttl.millis := by
  obtain ⟨padded, hpadded, h⟩ := Outcome.bind_eq_ok.mp h
  obtain ⟨first, hfirst, h⟩ := Outcome.bind_eq_ok.mp h
  obtain ⟨second, hsecond, h⟩ := Outcome.bind_eq_ok.mp h
  have hsum := Span.nanos_of_add? (Outcome.ofOption_eq_ok.mp hpadded)
  cases h
  refine ⟨?_, millis_eq_ok hsecond⟩
  rw [millis_eq_ok hfirst, Span.millis, hsum, Tenure.term, floorTo]
  rfl

theorem instant_eq_ok {ms : Int} {v : Instant} (h : instant ms = .ok v) :
    v.IsOrdinary ∧ v.nanos = ms * nanosPerMilli := by
  simp only [instant] at h
  split at h
  · cases h
  · split at h
    · rename_i found hfound
      cases h
      exact Instant.ofMillis?_eq_some hfound
    · cases h

theorem map_eq_ok {α β : Type} {x : Outcome α} {f : α → β} {b : β} (h : x.map f = .ok b) :
    ∃ a, x = .ok a ∧ f a = b := by
  cases x with
  | ok a => exact ⟨a, rfl, by simpa [Outcome.map] using h⟩
  | failed fault => cases h
  | overflow => cases h

theorem acquire_cases (s : Store) (now : Int) (claim : Claim) :
    (∃ t span, s.table = .ok t ∧ span * nanosPerMilli = Tenure.term nanosPerMilli claim.ttl ∧
      (∀ old, t.find? claim.key = some old → old.validUntil ≤ now) ∧
      (s.acquire now claim).outcome = (instant (now + span)).map .granted ∧
      (s.acquire now claim).state = s.withTable (t.insert claim.key
        ⟨claim.leaseId, claim.nonce, now + span, claim.ttl.millis, claim.metadata, now, now⟩)) ∨
    ((∀ validUntil, (s.acquire now claim).outcome ≠ .ok (.granted validUntil)) ∧
      (s.acquire now claim).state = s) := by
  cases hprepared : s.prepared claim.ttl with
  | failed fault => exact .inr (by simp [acquire, hprepared])
  | overflow => exact .inr (by simp [acquire, hprepared])
  | ok p =>
    obtain ⟨⟨span, ttl⟩, t⟩ := p
    obtain ⟨hspans, htable⟩ := prepared_eq_ok.mp hprepared
    obtain ⟨hspan, rfl⟩ := spans_eq_ok hspans
    simp only [acquire, hprepared, attempt_ok, LeaseTable.acquire]
    cases hfind : t.find? claim.key with
    | none => exact .inl ⟨t, span, htable, hspan, by simp [hfind], rfl, rfl⟩
    | some old =>
      by_cases hold : old.validUntil ≤ now
      · exact .inl ⟨t, span, htable, hspan, by simp [hfind, hold], by simp [hold], by simp [hold]⟩
      · exact .inr ⟨by simp [hold], by simpa [hold] using withTable_self htable⟩

theorem release_cases (s : Store) (key leaseId nonce : String) :
    (∃ t row, s.table = .ok t ∧ t.find? key = some row ∧ row.tenure.IsOwnedBy leaseId nonce ∧
      (s.release key leaseId nonce).outcome = .ok 1 ∧
      (s.release key leaseId nonce).state = s.withTable (t.erase key)) ∨
    ((∀ t row, s.table = .ok t → t.find? key = some row → ¬row.tenure.IsOwnedBy leaseId nonce) ∧
      (∀ t, s.table = .ok t → (s.release key leaseId nonce).outcome = .ok 0) ∧
      (s.release key leaseId nonce).state = s) := by
  cases htable : s.table with
  | failed fault => exact .inr (by simp [release, htable])
  | overflow => exact .inr (by simp [release, htable])
  | ok t =>
    simp only [release, htable, attempt_ok, LeaseTable.release]
    cases hfind : t.find? key with
    | none =>
      refine .inr ⟨?_, fun _ _ => rfl, withTable_self htable⟩
      rintro u row hu hrow
      cases hu
      cases hfind.symm.trans hrow
    | some row =>
      by_cases howned : row.leaseId = leaseId ∧ row.nonce = nonce
      · exact .inl ⟨t, row, rfl, hfind, howned, by simp [howned], by simp [howned]⟩
      · refine .inr ⟨?_, by simp [howned], by simp [howned, withTable_self htable]⟩
        rintro u row' hu hrow' hnot
        cases hu
        cases hfind.symm.trans hrow'
        exact howned hnot

theorem renew_cases (s : Store) (now : Int) (key leaseId nonce : String) (ttl : Span)
    (newNonce : String) :
    (∃ t row span, s.table = .ok t ∧ span * nanosPerMilli = Tenure.term nanosPerMilli ttl ∧
      t.find? key = some row ∧ row.tenure.IsOwnedBy leaseId nonce ∧
      (LeaseTable.renewableUntil row).exceeds now = true ∧
      (s.renew now key leaseId nonce ttl newNonce).outcome =
        (instant (max row.validUntil (now + span))).map (fun v => some ⟨v, newNonce⟩) ∧
      (s.renew now key leaseId nonce ttl newNonce).state = s.withTable (t.insert key { row with
        validUntil := max row.validUntil (now + span)
        ttlMillis := ttl.millis
        nonce := newNonce
        updatedAt := now })) ∨
    ((∀ renewal, (s.renew now key leaseId nonce ttl newNonce).outcome ≠ .ok (some renewal)) ∧
      (s.renew now key leaseId nonce ttl newNonce).state = s) := by
  cases hprepared : s.prepared ttl with
  | failed fault => exact .inr (by simp [renew, hprepared])
  | overflow => exact .inr (by simp [renew, hprepared])
  | ok p =>
    obtain ⟨⟨span, millis⟩, t⟩ := p
    obtain ⟨hspans, htable⟩ := prepared_eq_ok.mp hprepared
    obtain ⟨hspan, rfl⟩ := spans_eq_ok hspans
    simp only [renew, hprepared, attempt_ok, LeaseTable.renew]
    cases hfind : t.find? key with
    | none => exact .inr ⟨by simp, withTable_self htable⟩
    | some row =>
      by_cases howned : row.leaseId = leaseId ∧ row.nonce = nonce ∧
          (LeaseTable.renewableUntil row).exceeds now = true
      · refine .inl ⟨t, row, span, htable, hspan, hfind, ⟨howned.1, howned.2.1⟩, howned.2.2, ?_, ?_⟩
        · simp [howned]
        · simp [howned]
      · exact .inr ⟨by simp [howned], by simpa [howned] using withTable_self htable⟩

theorem withTable_or_same (s : Store) (now : Int) (newNonce : String) {call : Call} (hcall : call ≠ .close) :
    (∃ t u, s.table = .ok t ∧ (s.applyAt now newNonce call).state = s.withTable u) ∨
      (s.applyAt now newNonce call).state = s := by
  cases call with
  | acquire claim =>
    obtain ⟨_, _, hfound, _, _, _, hstate⟩ | ⟨_, hsame⟩ := acquire_cases s now claim
    · exact .inl ⟨_, _, hfound, hstate⟩
    · exact .inr hsame
  | release key leaseId nonce =>
    obtain ⟨_, _, hfound, _, _, _, hstate⟩ | ⟨_, _, hsame⟩ := release_cases s key leaseId nonce
    · exact .inl ⟨_, _, hfound, hstate⟩
    · exact .inr hsame
  | renew key leaseId nonce ttl =>
    obtain ⟨_, _, _, hfound, _, _, _, _, _, hstate⟩ | ⟨_, hsame⟩ :=
      renew_cases s now key leaseId nonce ttl newNonce
    · exact .inl ⟨_, _, hfound, hstate⟩
    · exact .inr hsame
  | isHeld key => exact .inr rfl
  | probe => exact .inr rfl
  | close => exact absurd rfl hcall

theorem exists_table_applyAt (h : s.table = .ok t) (now : Int) (newNonce : String) {call : Call}
    (hcall : call ≠ .close) : ∃ u, (s.applyAt now newNonce call).state.table = .ok u := by
  obtain ⟨_, u, hfound, hstate⟩ | hsame := s.withTable_or_same now newNonce hcall
  · exact ⟨u, (congrArg table hstate).trans (table_withTable hfound u)⟩
  · exact ⟨t, (congrArg table hsame).trans h⟩

theorem not_closed_applyAt (h : s.connection ≠ .closed) (now : Int) (newNonce : String) {call : Call}
    (hcall : call ≠ .close) : (s.applyAt now newNonce call).state.connection ≠ .closed := by
  obtain ⟨_, u, hfound, hstate⟩ | hsame := s.withTable_or_same now newNonce hcall
  · obtain ⟨database, hopen, -⟩ := exists_of_table (table_withTable hfound u)
    rw [hstate, hopen]
    exact Connection.noConfusion
  · rw [hsame]
    exact h

theorem max_mul_nanosPerMilli {a b span : Int} {ttl : Span}
    (h : span * nanosPerMilli = Tenure.term nanosPerMilli ttl) :
    max a (b + span) * nanosPerMilli =
      max (a * nanosPerMilli) (b * nanosPerMilli + Tenure.term nanosPerMilli ttl) := by
  rw [← h]
  simp only [nanosPerMilli]
  omega

theorem change_acquire (s : Store) (now : Int) (newNonce key : String) (claim : Claim) :
    Change nanosPerMilli (now * nanosPerMilli) newNonce key (.acquire claim) (s.tenure? key)
      ((s.acquire now claim).state.tenure? key) := by
  obtain ⟨t, span, htable, hspan, hfree, _, hstate⟩ | ⟨_, hsame⟩ := acquire_cases s now claim
  · rw [hstate, tenure?_of_table htable, tenure?_of_table (table_withTable htable _),
      Keyed.find?_insert]
    by_cases hkey : key = claim.key
    · subst hkey
      simp only [if_true, Option.map_some, Row.tenure, Int.add_mul, hspan]
      apply Change.take claim _ rfl
      intro old hold
      obtain ⟨row, hfind, rfl⟩ := Option.map_eq_some_iff.mp hold
      exact Int.mul_le_mul_of_nonneg_right (hfree row hfind) (by decide)
    · rw [if_neg hkey]
      exact .keep _ _
  · rw [hsame]
    exact .keep _ _

theorem change_release (s : Store) (now : Int) (newNonce key other leaseId nonce : String) :
    Change nanosPerMilli (now * nanosPerMilli) newNonce other (.release key leaseId nonce)
      (s.tenure? other) ((s.release key leaseId nonce).state.tenure? other) := by
  obtain ⟨t, row, htable, hfind, howned, _, hstate⟩ | ⟨_, _, hsame⟩ :=
    release_cases s key leaseId nonce
  · rw [hstate, tenure?_of_table htable, tenure?_of_table (table_withTable htable _),
      Keyed.find?_erase]
    by_cases hkey : other = key
    · subst hkey
      simp only [if_true, hfind, Option.map_some, Option.map_none]
      exact .free leaseId nonce row.tenure howned
    · rw [if_neg hkey]
      exact .keep _ _
  · rw [hsame]
    exact .keep _ _

theorem change_renew (s : Store) (now : Int) (newNonce key other leaseId nonce : String)
    (ttl : Span) :
    Change nanosPerMilli (now * nanosPerMilli) newNonce other (.renew key leaseId nonce ttl)
      (s.tenure? other) ((s.renew now key leaseId nonce ttl newNonce).state.tenure? other) := by
  obtain ⟨t, row, span, htable, hspan, hfind, howned, hearly, _, hstate⟩ | ⟨_, hsame⟩ :=
    renew_cases s now key leaseId nonce ttl newNonce
  · rw [hstate, tenure?_of_table htable, tenure?_of_table (table_withTable htable _),
      Keyed.find?_insert]
    by_cases hkey : other = key
    · subst hkey
      have hnew : Change nanosPerMilli (now * nanosPerMilli) newNonce other
          (.renew other leaseId nonce ttl) (some row.tenure)
          (some (row.tenure.renewed nanosPerMilli (now * nanosPerMilli) newNonce ttl)) :=
        .extend leaseId nonce ttl row.tenure howned fun hregular => (exceeds_iff hregular.isMeasured).mp hearly
      simpa only [if_true, hfind, Option.map_some, Row.tenure, Tenure.renewed,
        max_mul_nanosPerMilli hspan] using hnew
    · rw [if_neg hkey]
      exact .keep _ _
  · rw [hsame]
    exact .keep _ _

theorem change_close (s : Store) (now : Int) (newNonce key : String) :
    Change nanosPerMilli (now * nanosPerMilli) newNonce key .close (s.tenure? key)
      (s.close.state.tenure? key) := by
  unfold close
  split
  · exact .keep _ _
  · exact .drop _

theorem change (s : Store) (now : Int) (newNonce key : String) (call : Call) :
    Change nanosPerMilli (now * nanosPerMilli) newNonce key call (s.tenure? key)
      ((s.applyAt now newNonce call).state.tenure? key) := by
  cases call with
  | acquire claim => exact change_acquire s now newNonce key claim
  | release k leaseId nonce => exact change_release s now newNonce k key leaseId nonce
  | renew k leaseId nonce ttl => exact change_renew s now newNonce k key leaseId nonce ttl
  | isHeld k => exact .keep _ _
  | probe => exact .keep _ _
  | close => exact change_close s now newNonce key

theorem acquire_granted {claim : Claim} {validUntil : Instant}
    (h : (s.acquire now claim).outcome = .ok (.granted validUntil)) :
    (∀ old ∈ s.tenure? claim.key, old.validUntil ≤ now * nanosPerMilli) ∧
      (s.acquire now claim).state.tenure? claim.key =
        some (.granted nanosPerMilli (now * nanosPerMilli) claim) ∧
      validUntil.IsOrdinary ∧
      validUntil.nanos = now * nanosPerMilli + Tenure.term nanosPerMilli claim.ttl := by
  obtain ⟨t, span, htable, hspan, hfree, houtcome, hstate⟩ | ⟨hnot, _⟩ := acquire_cases s now claim
  · obtain ⟨found, hinstant, hfound⟩ := map_eq_ok (houtcome.symm.trans h)
    cases hfound
    refine ⟨?_, ?_, (instant_eq_ok hinstant).1, ?_⟩
    · intro old hold
      rw [tenure?_of_table htable] at hold
      obtain ⟨row, hfind, rfl⟩ := Option.map_eq_some_iff.mp hold
      exact Int.mul_le_mul_of_nonneg_right (hfree row hfind) (by decide)
    · rw [hstate, tenure?_of_table (table_withTable htable _), Keyed.find?_insert_self]
      simp only [Option.map_some, Row.tenure, Int.add_mul, hspan, Tenure.granted]
    · rw [(instant_eq_ok hinstant).2, Int.add_mul, hspan]
  · exact absurd h (hnot validUntil)

theorem renew_renewed {key leaseId nonce newNonce : String} {ttl : Span} {renewal : Renewal}
    (h : (s.renew now key leaseId nonce ttl newNonce).outcome = .ok (some renewal)) :
    ∃ old, s.tenure? key = some old ∧ old.IsOwnedBy leaseId nonce ∧ renewal.nonce = newNonce ∧
      renewal.validUntil.nanos =
        (old.renewed nanosPerMilli (now * nanosPerMilli) newNonce ttl).validUntil ∧
      (s.renew now key leaseId nonce ttl newNonce).state.tenure? key =
        some (old.renewed nanosPerMilli (now * nanosPerMilli) newNonce ttl) := by
  obtain ⟨t, row, span, htable, hspan, hfind, howned, _, houtcome, hstate⟩ | ⟨hnot, _⟩ :=
    renew_cases s now key leaseId nonce ttl newNonce
  · obtain ⟨found, hinstant, hfound⟩ := map_eq_ok (houtcome.symm.trans h)
    cases hfound
    refine ⟨row.tenure, ?_, howned, rfl, ?_, ?_⟩
    · rw [tenure?_of_table htable, hfind]
      rfl
    · rw [(instant_eq_ok hinstant).2]
      exact max_mul_nanosPerMilli hspan
    · rw [hstate, tenure?_of_table (table_withTable htable _), Keyed.find?_insert_self]
      simp only [Option.map_some, Row.tenure, max_mul_nanosPerMilli hspan, Tenure.renewed]
  · exact absurd h (hnot renewal)

theorem exists_row {key : String} {old : Tenure} (h : s.tenure? key = some old) :
    ∃ t row, s.table = .ok t ∧ t.find? key = some row ∧ row.tenure = old := by
  cases htable : s.table with
  | ok t =>
    rw [tenure?_of_table htable] at h
    obtain ⟨row, hfind, hrow⟩ := Option.map_eq_some_iff.mp h
    exact ⟨t, row, rfl, hfind, hrow⟩
  | failed fault => simp [tenure?, htable] at h
  | overflow => simp [tenure?, htable] at h

theorem exists_spans {reading : Int} {ttl : Span} (hlow : 2 * Instant.earliest.nanos ≤ reading)
    (h : Fits reading ttl) :
    ∃ span, spans ttl = .ok (span, ttl.millis) ∧
      span * nanosPerMilli = Tenure.term nanosPerMilli ttl := by
  have hearliest := Instant.nanos_earliest
  have hlatest := Instant.nanos_latest
  have hrange := h
  simp only [Fits, hearliest, hlatest] at hrange hlow
  obtain ⟨padded, hpadded⟩ : ∃ padded, ttl.add? grantPadding = some padded := by
    refine ⟨_, Span.add?_of_lt ?_⟩
    simp only [UInt64.size, nanosPerSecond]
    omega
  have hsum := Span.nanos_of_add? hpadded
  have hfirst : padded.millis < UInt64.size / 2 := by
    simp only [Span.millis, UInt64.size, nanosPerMilli]
    omega
  have hsecond : ttl.millis < UInt64.size / 2 := by
    simp only [Span.millis, UInt64.size, nanosPerMilli]
    omega
  have hspans : spans ttl = .ok (padded.millis, ttl.millis) := by
    refine Outcome.bind_eq_ok.mpr ⟨padded, Outcome.ofOption_eq_ok.mpr hpadded, ?_⟩
    simp only [millis, if_pos hfirst, if_pos hsecond]
    rfl
  exact ⟨padded.millis, hspans, (spans_eq_ok hspans).1⟩

theorem acquire_contended {claim : Claim} {old : Tenure} {reading : Int}
    (hold : s.tenure? claim.key = some old) (hlt : now * nanosPerMilli < old.validUntil)
    (hlow : 2 * Instant.earliest.nanos ≤ reading) (hfits : Fits reading claim.ttl) :
    (s.acquire now claim).outcome = .ok .contended := by
  obtain ⟨t, row, htable, hfind, rfl⟩ := exists_row hold
  obtain ⟨span, hspans, _⟩ := exists_spans hlow hfits
  have hprepared : s.prepared claim.ttl = .ok ((span, claim.ttl.millis), t) :=
    prepared_eq_ok.mpr ⟨hspans, htable⟩
  have hunexpired : ¬row.validUntil ≤ now := by
    simp only [Row.tenure, nanosPerMilli] at hlt
    omega
  simp [acquire, hprepared, LeaseTable.acquire, hfind, hunexpired]

theorem instant_of_range {ms : Int} (hlow : Instant.earliest.nanos ≤ ms * nanosPerMilli)
    (hhigh : ms * nanosPerMilli ≤ Instant.latest.nanos) : ∃ v, instant ms = .ok v := by
  obtain ⟨v, hv⟩ := Option.isSome_iff_exists.mp (Instant.ofNanos?_isSome_iff.mpr ⟨hlow, hhigh⟩)
  have hearliest := Instant.nanos_earliest
  have hlatest := Instant.nanos_latest
  simp only [hearliest, hlatest, nanosPerMilli] at hlow hhigh
  have hword : isWord ms = true := isWord_of_lt (by omega) (by omega)
  refine ⟨v, ?_⟩
  simp [instant, hword, Instant.ofMillis?, hv]

theorem renew_of_lt {key leaseId nonce newNonce : String} {ttl : Span} {old : Tenure}
    {reading : Int} (hold : s.tenure? key = some old) (howned : old.IsOwnedBy leaseId nonce)
    (hregular : old.IsRegular)
    (hearly : floorTo nanosPerMilli reading < old.validUntil - old.margin)
    (hlow : 2 * Instant.earliest.nanos ≤ reading) (hfits : Fits reading ttl) :
    ∃ validUntil, (s.renew (reading / nanosPerMilli) key leaseId nonce ttl newNonce).outcome =
      .ok (some ⟨validUntil, newNonce⟩) := by
  obtain ⟨t, row, htable, hfind, rfl⟩ := exists_row hold
  obtain ⟨span, hspans, hspan⟩ := exists_spans hlow hfits
  have hprepared : s.prepared ttl = .ok ((span, ttl.millis), t) :=
    prepared_eq_ok.mpr ⟨hspans, htable⟩
  have hexceeds := (exceeds_iff hregular.isMeasured).mpr hearly
  obtain ⟨v, hv⟩ : ∃ v, instant (max row.validUntil (reading / nanosPerMilli + span)) = .ok v := by
    have hearliest := Instant.nanos_earliest
    have hlatest := Instant.nanos_latest
    have hold := hregular.2.2
    simp only [Fits, hlatest] at hfits
    simp only [Tenure.term, floorTo, Row.tenure, nanosPerMilli, hearliest, hlatest] at hspan hold
    apply instant_of_range
    · simp only [hearliest, nanosPerMilli]
      omega
    · simp only [hlatest, nanosPerMilli]
      omega
  have hboth : row.leaseId = leaseId ∧ row.nonce = nonce := howned
  refine ⟨v, ?_⟩
  simp [renew, hprepared, LeaseTable.renew, hfind, hboth, hexceeds, hv, Outcome.map]

theorem renew_of_foreign (htable : s.table = .ok t) {key leaseId nonce newNonce : String} {ttl : Span}
    {now span : Int} (hspans : spans ttl = .ok (span, ttl.millis))
    (hforeign : ∀ old ∈ s.tenure? key, ¬old.IsOwnedBy leaseId nonce) :
    (s.renew now key leaseId nonce ttl newNonce).outcome = .ok none ∧
      (s.renew now key leaseId nonce ttl newNonce).state = s := by
  have hprepared : s.prepared ttl = .ok ((span, ttl.millis), t) :=
    prepared_eq_ok.mpr ⟨hspans, htable⟩
  have hself := withTable_self htable
  cases hfind : t.find? key with
  | none => simp [renew, hprepared, LeaseTable.renew, hfind, hself]
  | some row =>
    have howned : ¬(row.leaseId = leaseId ∧ row.nonce = nonce ∧
        (LeaseTable.renewableUntil row).exceeds now = true) := by
      rintro ⟨hlease, hnonce, -⟩
      refine hforeign row.tenure ?_ ⟨hlease, hnonce⟩
      simp [tenure?_of_table htable, hfind]
    simp [renew, hprepared, LeaseTable.renew, hfind, howned, hself]

theorem isHeld_of_lt {key : String} {old : Tenure} {reading : Int} (hold : s.tenure? key = some old)
    (hregular : old.IsRegular) (hlow : 2 * Instant.earliest.nanos ≤ reading)
    (hlt : floorTo nanosPerMilli reading < old.validUntil) :
    ∃ remaining, s.isHeld (reading / nanosPerMilli) key = .ok ⟨true, remaining⟩ := by
  obtain ⟨t, row, htable, hfind, rfl⟩ := exists_row hold
  have hearliest := Instant.nanos_earliest
  have hlatest := Instant.nanos_latest
  have hold := hregular.2.2
  simp only [floorTo, Row.tenure, nanosPerMilli, hearliest, hlatest] at hold hlt hlow
  have hend : isWord row.validUntil = true := isWord_of_lt (by omega) (by omega)
  have hleft : isWord (row.validUntil - reading / nanosPerMilli) = true := by
    apply isWord_of_lt <;> simp only [nanosPerMilli] <;> omega
  have hpositive : reading / nanosPerMilli < row.validUntil := by
    simp only [nanosPerMilli]
    omega
  have hfound : t.validUntil? key = some row.validUntil := by
    rw [LeaseTable.validUntil?, hfind]
    rfl
  refine ⟨.ofMillis (UInt64.ofNat (row.validUntil - reading / nanosPerMilli).toNat), ?_⟩
  simp [isHeld, htable, hfound, holding, hend, hleft, hpositive]

end Store

end LeaseLock.Sql
