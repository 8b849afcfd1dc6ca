import LeaseLock.Proofs.Store.Run

namespace LeaseLock

inductive Turn
  | other (v : Visit)
  | renewal (reading : Int) (ttl : Span) (newNonce : String)

structure Hold where
  nonce : String
  since : Int
  ttl : Span

/-- Neither closes the store nor presents the nonce for the key. -/
def Visit.IsForeign (key nonce : String) (v : Visit) : Prop :=
  match v.service with
  | .call (.release otherKey _ presented) | .call (.renew otherKey _ presented _) =>
    otherKey = key → presented ≠ nonce
  | .call .close => False
  | _ => True

namespace Turn

def reading : Turn → Int
  | .other v => v.reading
  | .renewal reading _ _ => reading

def visit (key leaseId : String) (h : Hold) : Turn → Visit
  | .other v => v
  | .renewal reading ttl newNonce => ⟨.call (.renew key leaseId h.nonce ttl), reading, newNonce⟩

end Turn

theorem Turn.reading_le {turn : Turn} {rest : List Turn}
    (h : (turn :: rest).Pairwise fun turn later => turn.reading ≤ later.reading) :
    ∀ t ∈ turn :: rest, turn.reading ≤ t.reading := by
  intro t ht
  obtain rfl | ht := List.mem_cons.mp ht
  · exact Int.le_refl _
  · exact (List.pairwise_cons.mp h).1 t ht

namespace Hold

def ofGrant (grain reading : Int) (claim : Claim) : Hold :=
  ⟨claim.nonce, floorTo grain reading, claim.ttl⟩

def ending (h : Hold) : Int := h.since + h.ttl.nanos + grantPadding.nanos

def margin (h : Hold) : Int := h.ttl.millis * marginPercent / 100 * nanosPerMilli

def next (grain : Int) (h : Hold) : Turn → Hold
  | .other _ => h
  | .renewal reading ttl newNonce => ⟨newNonce, floorTo grain reading, ttl⟩

def after (grain : Int) (h : Hold) (turns : List Turn) : Hold := turns.foldl (next grain) h

def visits (grain : Int) (key leaseId : String) (h : Hold) : List Turn → List Visit
  | [] => []
  | turn :: rest => turn.visit key leaseId h :: (h.next grain turn).visits grain key leaseId rest

def IsTimely (grain : Int) (key : String) (h : Hold) : List Turn → Prop
  | [] => True
  | .other v :: rest => v.IsForeign key h.nonce ∧ h.IsTimely grain key rest
  | .renewal reading ttl newNonce :: rest =>
    (ttl.IsWholeTtl ∧ floorTo grain reading < h.ending - h.margin) ∧
      Hold.IsTimely grain key ⟨newNonce, floorTo grain reading, ttl⟩ rest

variable {grain : Int} {key : String} {h : Hold}

theorem margin_nonneg (h : Hold) : 0 ≤ h.margin := by
  simp only [margin, marginPercent, nanosPerMilli]
  omega

theorem after_append (grain : Int) (h : Hold) (first second : List Turn) :
    h.after grain (first ++ second) = (h.after grain first).after grain second := List.foldl_append

theorem isTimely_append {first second : List Turn} (htimely : h.IsTimely grain key (first ++ second)) :
    h.IsTimely grain key first ∧ (h.after grain first).IsTimely grain key second := by
  induction first generalizing h with
  | nil => exact ⟨trivial, htimely⟩
  | cons turn rest ih =>
    cases turn with
    | other v =>
      obtain ⟨hforeign, hrest⟩ := htimely
      exact ⟨⟨hforeign, (ih hrest).1⟩, (ih hrest).2⟩
    | renewal reading ttl newNonce =>
      obtain ⟨hearly, hrest⟩ := htimely
      exact ⟨⟨hearly, (ih hrest).1⟩, (ih hrest).2⟩

theorem lt_ending_of_after (hgrain : 0 < grain) (turns : List Turn)
    (htimely : h.IsTimely grain key turns) {reading : Int}
    (hlater : ∀ turn ∈ turns, reading ≤ turn.reading)
    (hlt : floorTo grain reading < (h.after grain turns).ending) :
    floorTo grain reading < h.ending := by
  induction turns generalizing h with
  | nil => exact hlt
  | cons turn rest ih =>
    cases turn with
    | other v => exact ih htimely.2 (fun t ht => hlater t (List.mem_cons_of_mem _ ht)) hlt
    | renewal later ttl newNonce =>
      have hfloor := floorTo_mono hgrain (hlater _ List.mem_cons_self)
      simp only [Turn.reading] at hfloor
      have hearly := htimely.1.2
      have hmargin := margin_nonneg h
      omega

end Hold

namespace Backing

variable {b : Backing} {key leaseId : String} {h : Hold}

def Keeps (b : Backing) (key leaseId : String) (h : Hold) : Prop :=
  ∃ t ∈ b.tenure? key, t.IsOwnedBy leaseId h.nonce ∧ t.ttl = h.ttl.millis ∧
    h.ending ≤ t.validUntil ∧ t.IsRegular

theorem keeps_of_granted (hsound : b.Sound) {reading : Int} {newNonce : String} {claim : Claim}
    {validUntil : Instant} (httl : claim.ttl.IsWholeTtl)
    (hgranted : (b.applyAt reading newNonce (.acquire claim)).outcome = .ok (.granted validUntil)) :
    (b.applyAt reading newNonce (.acquire claim)).state.Keeps claim.key claim.leaseId
      (.ofGrant b.grain reading claim) := by
  obtain ⟨-, htenure, hordinary, hnanos⟩ := acquire_granted hsound hgranted
  obtain ⟨ms, hwhole, hmillis, hmax⟩ := httl.range
  have hrange := And.intro validUntil.earliest_le_nanos hordinary.nanos_le_latest
  rw [hnanos] at hrange
  refine ⟨_, htenure, ⟨rfl, rfl⟩, rfl, ?_, ?_⟩
  · simp only [Hold.ending, Hold.ofGrant, Tenure.granted, reads, term_of_whole b httl]
    omega
  · refine ⟨Int.natCast_nonneg _, ?_, hrange⟩
    simp only [Tenure.granted, hmillis]
    omega

theorem Keeps.applyAt (hkeeps : b.Keeps key leaseId h) (hsound : b.Sound) {reading : Int}
    (newNonce : String) (call : Call) (hlt : b.reads reading < h.ending)
    (hforeign : (Visit.mk (.call call) reading newNonce).IsForeign key h.nonce) :
    (b.applyAt reading newNonce call).state.Keeps key leaseId h := by
  obtain ⟨t, htenure, howned, httl, hending, hregular⟩ := hkeeps
  have hchange := change hsound reading newNonce key call
  rw [Option.mem_def.mp htenure] at hchange
  generalize hafter : (b.applyAt reading newNonce call).state.tenure? key = after at hchange
  cases hchange with
  | keep => exact ⟨t, hafter, howned, httl, hending, hregular⟩
  | take claim _ _ hfree =>
    have hexpired := hfree t rfl
    omega
  | free otherLease nonce _ hother => exact absurd (hother.2.symm.trans howned.2) (hforeign rfl)
  | extend otherLease nonce _ _ hother => exact absurd (hother.2.symm.trans howned.2) (hforeign rfl)
  | drop => exact hforeign.elim

theorem Keeps.purgeAt (hkeeps : b.Keeps key leaseId h) (hsound : b.Sound) {reading : Int}
    (hlt : b.reads reading < h.ending) : (b.purgeAt reading).Keeps key leaseId h := by
  obtain ⟨t, htenure, howned, httl, hending, hregular⟩ := hkeeps
  obtain hsame | ⟨old, hold, hexpired, -⟩ := tenure?_purgeAt hsound reading key
  · exact ⟨t, hsame.trans htenure, howned, httl, hending, hregular⟩
  · cases hold.symm.trans htenure
    omega

theorem Keeps.visit (hkeeps : b.Keeps key leaseId h) (hsound : b.Sound) (v : Visit)
    (hlt : b.reads v.reading < h.ending) (hforeign : v.IsForeign key h.nonce) :
    (b.visit v).Keeps key leaseId h := by
  obtain ⟨service, reading, newNonce⟩ := v
  cases service with
  | call call => exact hkeeps.applyAt hsound newNonce call hlt hforeign
  | purge => exact hkeeps.purgeAt hsound hlt

theorem Keeps.renewed (hkeeps : b.Keeps key leaseId h) (hsound : b.Sound) {reading : Int}
    {ttl : Span} (newNonce : String) (httl : ttl.IsWholeTtl) (hfits : Fits reading ttl)
    (hfirst : b.firstReading ≤ reading) (hearly : b.reads reading < h.ending - h.margin) :
    (∃ validUntil, (b.applyAt reading newNonce (.renew key leaseId h.nonce ttl)).outcome =
        .ok (some ⟨validUntil, newNonce⟩)) ∧
      (b.applyAt reading newNonce (.renew key leaseId h.nonce ttl)).state.Keeps key leaseId
        ⟨newNonce, b.reads reading, ttl⟩ := by
  obtain ⟨t, htenure, howned, hsame, hending, hregular⟩ := hkeeps
  obtain ⟨ms, hwhole, hmillis, hmax⟩ := httl.range
  have hmargin : t.margin = h.margin := by
    rw [Tenure.margin, hsame]
    rfl
  have hrenewed : ∃ validUntil, (b.applyAt reading newNonce
      (.renew key leaseId h.nonce ttl)).outcome = .ok (some ⟨validUntil, newNonce⟩) :=
    renew_of_lt hsound htenure howned hregular (by omega) hfirst hfits
  refine ⟨hrenewed, ?_⟩
  obtain ⟨validUntil, houtcome⟩ := hrenewed
  obtain ⟨old, hold, hownedOld, -, -, hafter⟩ := renew_renewed hsound houtcome
  cases hold.symm.trans htenure
  have hterm := term_of_whole b httl
  have hreads := b.reads_le reading
  obtain ⟨-, -, hlow, hhigh⟩ := hregular
  simp only [Fits] at hfits
  refine ⟨_, hafter, ⟨howned.1, rfl⟩, rfl, ?_, Int.natCast_nonneg _, ?_, ?_, ?_⟩
  · simp only [Hold.ending, Tenure.renewed]
    omega
  · simp only [Tenure.renewed, hmillis]
    omega
  · exact Int.le_trans hlow (Int.le_max_left _ _)
  · simp only [Tenure.renewed]
    omega

theorem Keeps.after {grain : Int} (hkeeps : b.Keeps key leaseId h) (hsound : b.Sound)
    (hgrain : b.grain = grain) (turns : List Turn) (htimely : h.IsTimely grain key turns)
    (hordered : turns.Pairwise fun turn later => turn.reading ≤ later.reading)
    (hfirst : ∀ turn ∈ turns, b.firstReading ≤ turn.reading)
    (hfits : ∀ reading ttl newNonce, .renewal reading ttl newNonce ∈ turns → Fits reading ttl)
    (hwindow : ∀ turn ∈ turns, floorTo grain turn.reading < (h.after grain turns).ending) :
    (b.after (h.visits grain key leaseId turns)).Keeps key leaseId (h.after grain turns) := by
  induction turns generalizing b h with
  | nil => exact hkeeps
  | cons turn rest ih =>
    have hrest := (List.pairwise_cons.mp hordered).2
    have hlater := Turn.reading_le hordered
    have hbefore : floorTo grain turn.reading < h.ending :=
      Hold.lt_ending_of_after (hgrain ▸ b.grain_pos) _ htimely hlater
        (hwindow turn List.mem_cons_self)
    subst hgrain
    have hstep : (b.visit (turn.visit key leaseId h)).Keeps key leaseId (h.next b.grain turn) ∧
        (h.next b.grain turn).IsTimely b.grain key rest := by
      cases turn with
      | other v =>
        obtain ⟨hforeign, hrest⟩ := htimely
        exact ⟨hkeeps.visit hsound v hbefore hforeign, hrest⟩
      | renewal reading ttl newNonce =>
        obtain ⟨⟨httl, hearly⟩, hrest⟩ := htimely
        have hfit := hfits reading ttl newNonce List.mem_cons_self
        exact ⟨(hkeeps.renewed hsound newNonce httl hfit (hfirst _ List.mem_cons_self) hearly).2, hrest⟩
    apply ih hstep.1 (hsound.visit _) (grain_visit b _) hstep.2 hrest
    · intro t ht
      rw [firstReading_visit]
      exact hfirst t (List.mem_cons_of_mem _ ht)
    · intro reading ttl newNonce ht
      exact hfits reading ttl newNonce (List.mem_cons_of_mem _ ht)
    · intro t ht
      exact hwindow t (List.mem_cons_of_mem _ ht)

def Upholds (b : Backing) (key leaseId : String) (ending : Int) (h : Hold) : Turn → Prop
  | .renewal reading ttl newNonce =>
    ∃ validUntil, (b.applyAt reading newNonce (.renew key leaseId h.nonce ttl)).outcome =
      .ok (some ⟨validUntil, newNonce⟩)
  | .other v => b.reads v.reading < ending →
    (∀ claim, v.service = .call (.acquire claim) → claim.key = key → Fits v.reading claim.ttl →
      (b.applyAt v.reading v.newNonce (.acquire claim)).outcome = .ok .contended) ∧
    (v.service = .call (.isHeld key) →
      ∃ remaining, (b.applyAt v.reading v.newNonce (.isHeld key)).outcome = .ok ⟨true, remaining⟩)

theorem Keeps.upholds {grain : Int} (hkeeps : b.Keeps key leaseId h) (hsound : b.Sound)
    (hgrain : b.grain = grain) {turn : Turn} {rest : List Turn}
    (htimely : h.IsTimely grain key (turn :: rest))
    (hlater : ∀ t ∈ turn :: rest, turn.reading ≤ t.reading) (hfirst : b.firstReading ≤ turn.reading)
    (hfits : ∀ reading ttl newNonce, turn = .renewal reading ttl newNonce → Fits reading ttl) :
    b.Upholds key leaseId (h.after grain (turn :: rest)).ending h turn := by
  subst hgrain
  cases turn with
  | renewal reading ttl newNonce =>
    obtain ⟨⟨httl, hearly⟩, -⟩ := htimely
    exact (hkeeps.renewed hsound newNonce httl (hfits _ _ _ rfl) hfirst hearly).1
  | other v =>
    intro hwindow
    have hbefore := Hold.lt_ending_of_after b.grain_pos _ htimely hlater hwindow
    obtain ⟨t, htenure, -, -, hending, hregular⟩ := hkeeps
    have hlt : b.reads v.reading < t.validUntil := Int.lt_of_lt_of_le hbefore hending
    constructor
    · rintro claim - rfl hfit
      exact acquire_contended hsound htenure hlt hfirst hfit
    · intro _
      exact isHeld_of_lt hsound htenure hregular hfirst hlt

theorem upholds_of_keeps {grain start : Int} {turns earlier later : List Turn} {turn : Turn}
    (hkeeps : b.Keeps key leaseId h) (hsound : b.Sound) (hgrain : b.grain = grain)
    (hstart : b.firstReading ≤ start)
    (hordered : (start :: turns.map Turn.reading).Pairwise (· ≤ ·))
    (htimely : h.IsTimely grain key turns)
    (hfits : ∀ reading ttl newNonce, .renewal reading ttl newNonce ∈ turns → Fits reading ttl)
    (hturns : turns = earlier ++ turn :: later) :
    (b.after (h.visits grain key leaseId earlier)).Upholds key leaseId
      (h.after grain turns).ending (h.after grain earlier) turn := by
  subst hturns
  obtain ⟨hfirst, hordered⟩ := List.pairwise_cons.mp hordered
  obtain ⟨hearlier, hrest, hbetween⟩ := List.pairwise_append.mp (List.pairwise_map.mp hordered)
  obtain ⟨htimelyEarlier, htimelyRest⟩ := Hold.isTimely_append htimely
  have hlater := Turn.reading_le hrest
  have hfirst : ∀ t ∈ earlier ++ turn :: later, b.firstReading ≤ t.reading := fun t ht =>
    Int.le_trans hstart (hfirst _ (List.mem_map_of_mem ht))
  have hpos : 0 < grain := hgrain ▸ b.grain_pos
  have hreached := (grain_after b (h.visits grain key leaseId earlier)).trans hgrain
  rw [Hold.after_append]
  -- a turn beyond the end of what is held is a visit of another, and comes too late to matter
  by_cases hbefore : floorTo grain turn.reading < (h.after grain earlier).ending
  · have hkept := hkeeps.after hsound hgrain earlier htimelyEarlier hearlier
      (fun t ht => hfirst t (List.mem_append_left _ ht))
      (fun reading ttl newNonce ht => hfits reading ttl newNonce (List.mem_append_left _ ht))
      (fun t ht => Int.lt_of_le_of_lt
        (floorTo_mono hpos (hbetween t ht turn List.mem_cons_self)) hbefore)
    refine hkept.upholds (hsound.after _) hreached htimelyRest hlater ?_ ?_
    · rw [firstReading_after]
      exact hfirst turn (by simp)
    · rintro reading ttl newNonce rfl
      exact hfits reading ttl newNonce (by simp)
  · cases turn with
    | renewal reading ttl newNonce =>
      have hearly := htimelyRest.1.2
      have hmargin := Hold.margin_nonneg (h.after grain earlier)
      simp only [Turn.reading] at hbefore
      omega
    | other v =>
      intro hwindow
      rw [reads, hreached] at hwindow
      exact absurd (Hold.lt_ending_of_after hpos _ htimelyRest hlater hwindow) hbefore

/-- After a grant, every turn of a run in order and in time gives what it should. -/
theorem upholds_of_timely (hopened : b.IsOpened) (before : List Visit) {reading : Int}
    {newNonce : String} {claim : Claim} {validUntil : Instant} (httl : claim.ttl.IsWholeTtl)
    (hgranted : ((b.after before).applyAt reading newNonce (.acquire claim)).outcome =
      .ok (.granted validUntil))
    (turns : List Turn) (hordered : (reading :: turns.map Turn.reading).Pairwise (· ≤ ·))
    (htimely : (Hold.ofGrant b.grain reading claim).IsTimely b.grain claim.key turns)
    (hfits : ∀ reading ttl newNonce, .renewal reading ttl newNonce ∈ turns → Fits reading ttl)
    (earlier later : List Turn) (turn : Turn) (hturns : turns = earlier ++ turn :: later) :
    (b.after (before ++ ⟨.call (.acquire claim), reading, newNonce⟩ ::
        (Hold.ofGrant b.grain reading claim).visits b.grain claim.key claim.leaseId earlier)).Upholds
      claim.key claim.leaseId ((Hold.ofGrant b.grain reading claim).after b.grain turns).ending
      ((Hold.ofGrant b.grain reading claim).after b.grain earlier) turn := by
  have hsound := hopened.sound.after before
  have hgrain := grain_after b before
  have hkeeps := keeps_of_granted hsound httl hgranted
  have hfirst := firstReading_le_of_granted hsound httl hgranted
  rw [hgrain] at hkeeps
  rw [after_append]
  refine upholds_of_keeps (b := (b.after before).visit ⟨.call (.acquire claim), reading, newNonce⟩)
    hkeeps (hsound.visit _) ?_ ?_ hordered htimely hfits hturns
  · rw [grain_visit, hgrain]
  · rw [firstReading_visit]
    exact hfirst

def jobClaim (leaseId : String) (ttl : Span) : Claim := ⟨"job", leaseId, leaseId, ttl, ""⟩

def jobAttempt (reading : Int) (ttl : Span) : Turn :=
  .other ⟨.call (.acquire (jobClaim "second" ttl)), reading, ""⟩

def jobTurns : List Turn :=
  [jobAttempt 859999999 (.ofMillis 1000), .renewal 859999999 (.ofMillis 2000) "renewed",
    jobAttempt 2869999998 (.ofMillis 1000)]

theorem upholds_of_timely_job :
    ∃ validUntil, ((memory .new).applyAt 0 "" (.acquire (jobClaim "first" (.ofMillis 1000)))).outcome =
        .ok (.granted validUntil) ∧
      ((0 : Int) :: jobTurns.map Turn.reading).Pairwise (· ≤ ·) ∧
      (Hold.ofGrant 1 0 (jobClaim "first" (.ofMillis 1000))).IsTimely 1 "job" jobTurns ∧
      (∀ reading ttl newNonce, .renewal reading ttl newNonce ∈ jobTurns → Fits reading ttl) ∧
      (((memory .new).after ([] ++ ⟨.call (.acquire (jobClaim "first" (.ofMillis 1000))), 0, ""⟩ ::
          (Hold.ofGrant 1 0 (jobClaim "first" (.ofMillis 1000))).visits 1 "job" "first"
            (jobTurns.take 2))).Upholds "job" "first"
        ((Hold.ofGrant 1 0 (jobClaim "first" (.ofMillis 1000))).after 1 jobTurns).ending
        ((Hold.ofGrant 1 0 (jobClaim "first" (.ofMillis 1000))).after 1 (jobTurns.take 2))
        (jobAttempt 2869999998 (.ofMillis 1000))) := by
  have httl : (jobClaim "first" (.ofMillis 1000)).ttl.IsWholeTtl := by
    constructor <;> decide
  have hgranted : ((memory .new).applyAt 0 ""
      (.acquire (jobClaim "first" (.ofMillis 1000)))).outcome =
        .ok (.granted ⟨1, 10000000, by decide, by decide⟩) := by decide
  have hordered : ((0 : Int) :: jobTurns.map Turn.reading).Pairwise (· ≤ ·) := by decide
  have htimely : (Hold.ofGrant 1 0 (jobClaim "first" (.ofMillis 1000))).IsTimely 1 "job" jobTurns :=
    ⟨trivial, ⟨⟨by decide, by decide⟩, by decide⟩, trivial, trivial⟩
  have hfits : ∀ reading ttl newNonce, .renewal reading ttl newNonce ∈ jobTurns →
      Fits reading ttl := by
    intro reading ttl newNonce hmem
    simp only [jobTurns, jobAttempt, List.mem_cons, reduceCtorEq, false_or, List.not_mem_nil,
      or_false, Turn.renewal.injEq] at hmem
    obtain ⟨rfl, rfl, -⟩ := hmem
    decide
  exact ⟨_, hgranted, hordered, htimely, hfits,
    upholds_of_timely (b := memory .new) rfl [] httl hgranted jobTurns hordered htimely hfits
      (jobTurns.take 2) [] _ rfl⟩

/-- An attempt with an endless time to live is not told that the key is taken, and close to the end
of the calendar a renewal in time is not carried out. -/
theorem not_upheld_beyond_calendar :
    let holder := Hold.ofGrant 1 0 (jobClaim "first" (.ofMillis 1000))
    let endless : Claim := jobClaim "second" (.ofSeconds 9223372036854776)
    let start := ((memory .new).applyAt 0 "" (.acquire (jobClaim "first" (.ofMillis 1000)))).state
    let dusk := Instant.latest.nanos - 2000000000
    let last := ((memory .new).applyAt dusk "" (.acquire (jobClaim "first" (.ofMillis 1000)))).state
    let lastHolder := Hold.ofGrant 1 dusk (jobClaim "first" (.ofMillis 1000))
    (∃ validUntil, ((memory .new).applyAt 0 ""
        (.acquire (jobClaim "first" (.ofMillis 1000)))).outcome = .ok (.granted validUntil)) ∧
      holder.IsTimely 1 "job" [jobAttempt 0 (.ofSeconds 9223372036854776)] ∧
      start.reads 0 < holder.ending ∧
      (start.applyAt 0 "" (.acquire endless)).outcome ≠ .ok .contended ∧
      (∃ validUntil, ((memory .new).applyAt dusk ""
        (.acquire (jobClaim "first" (.ofMillis 1000)))).outcome = .ok (.granted validUntil)) ∧
      lastHolder.IsTimely 1 "job" [.renewal dusk (.ofMillis 600000) "renewed"] ∧
      ¬last.Upholds "job" "first" lastHolder.ending lastHolder
        (.renewal dusk (.ofMillis 600000) "renewed") := by
  refine ⟨⟨⟨1, 10000000, by decide, by decide⟩, by decide⟩, ⟨trivial, trivial⟩, by decide, by decide,
    ⟨⟨8210266876799, 9999999, by decide, by decide⟩, by decide⟩,
    ⟨⟨⟨by decide, by decide⟩, by decide⟩, trivial⟩, ?_⟩
  rintro ⟨validUntil, houtcome⟩
  have hoverflow : (((memory .new).applyAt (Instant.latest.nanos - 2000000000) ""
      (.acquire (jobClaim "first" (.ofMillis 1000)))).state.applyAt
        (Instant.latest.nanos - 2000000000) "renewed"
        (.renew "job" "first" "first" (.ofMillis 600000))).outcome = .overflow := by decide
  cases hoverflow.symm.trans houtcome

end Backing

end LeaseLock
