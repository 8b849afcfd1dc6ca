import LeaseLock.Cli.Run
import LeaseLock.Proofs.Json.Record
import LeaseLock.Proofs.Time.InstantText
import LeaseLock.Proofs.Time.Span
import LeaseLock.Sql.Settings

namespace LeaseLock

theorem JsonNumber.toNatBelow?_ofNat {n bound : Nat} (h : n < bound) :
    (JsonNumber.ofNat n).toNatBelow? bound = some n := by
  simp only [toNatBelow?, toInt?, ofNat, isInteger, List.isEmpty_nil, Option.isNone_none,
    Bool.and_self, Bool.not_true, Bool.false_eq_true, if_false, ofDigits_toDigits]
  exact if_pos h

namespace JsonRecord.Holds

variable {r : JsonRecord} {fields : List (String × Json)} (h : r.Holds fields)

include h

theorem nat {n bound : Nat} (hn : n < bound) (name : String) (hmem : (name, .ofNat n) ∈ fields) :
    r.require? name (Json.toNatBelow? bound) = some n := by
  apply h.require? hmem
  rintro found hfound
  rw [hfound.of_nat]
  exact JsonNumber.toNatBelow?_ofNat hn

theorem text (s name : String) (hmem : (name, .ofString s) ∈ fields) :
    r.require? name Json.toText? = some s := by
  apply h.require? hmem
  rintro found hfound
  rw [hfound.of_string]
  rfl

theorem textD (s name default : String) (hmem : (name, .ofString s) ∈ fields) :
    r.getD? name Json.toText? default = some s := by
  apply h.getD? hmem
  rintro found hfound
  rw [hfound.of_string]
  rfl

theorem instant {t : Instant} (ht : t.IsOrdinary) (name : String) (hmem : (name, t.toJson) ∈ fields) :
    r.require? name Instant.ofJson? = some t := by
  apply h.require? hmem
  rintro found hfound
  rw [Instant.ofJson?, Json.Reordered.of_string hfound, Json.ofString, Json.toText?, Option.bind_some,
    Instant.ofText?_text ht]

end JsonRecord.Holds

namespace Span

variable (s : Span)

theorem ofJson?_of_reordered {json : Json} (h : s.toJson.Reordered json) :
    Span.ofJson? json = some s := by
  obtain ⟨r, hr, hfields⟩ := JsonRecord.ofJson?_reordered (by simp) h true
  have hsecs := hfields.nat s.seconds_lt "secs" (by simp)
  have hbelow : s.fraction < UInt32.size := Nat.lt_trans s.fraction_lt (by decide)
  have hnanos := hfields.nat hbelow "nanos" (by simp)
  simp only [List.map_cons, List.map_nil] at hr
  -- The kernel must not compute with the nanoseconds of a second, so the binds go one by one.
  rw [ofJson?, Option.bind_eq_bind, hr, Option.bind_some, hsecs, Option.bind_eq_bind,
    Option.bind_some, hnanos, Option.bind_some, seconds_mul_add_fraction,
    ofNanos?_eq_some_iff.mpr rfl]

end Span

theorem JsonRecord.Holds.span {r : JsonRecord} {fields : List (String × Json)} (h : r.Holds fields)
    (s : Span) (name : String) (hmem : (name, s.toJson) ∈ fields) :
    r.require? name Span.ofJson? = some s :=
  h.require? hmem fun _ => s.ofJson?_of_reordered

variable {json : Json}

theorem Token.ofJson?_of_extends {t : Token} (ht : t.validUntil.IsOrdinary)
    (h : t.toJson.Extends json) : Token.ofJson? json = some t := by
  obtain ⟨r, hr, hfields⟩ := JsonRecord.ofJson?_extends (by simp) h
  have hkey := hfields.text t.key "key" (by simp)
  have hleaseId := hfields.text t.leaseId "leaseId" (by simp)
  have hvalidUntil := hfields.instant ht "validUntil" (by simp)
  have hnonce := hfields.text t.nonce "serverNonce" (by simp)
  simp only [List.map_cons, List.map_nil] at hr
  simp [ofJson?, hr, hkey, hleaseId, hvalidUntil, hnonce]

theorem Lease.ofJson?_of_extends {l : Lease} (hvalid : l.validUntil.IsOrdinary)
    (hcreated : l.createdAt.IsOrdinary) (hupdated : l.updatedAt.IsOrdinary)
    (h : l.toJson.Extends json) : Lease.ofJson? json = some l := by
  obtain ⟨r, hr, hfields⟩ := JsonRecord.ofJson?_extends (by simp) h
  have hkey := hfields.text l.key "key" (by simp)
  have hleaseId := hfields.text l.leaseId "leaseId" (by simp)
  have hnonce := hfields.text l.nonce "serverNonce" (by simp)
  have hvalidUntil := hfields.instant hvalid "validUntil" (by simp)
  have httl := hfields.span l.ttl "ttl" (by simp)
  have hmetadata := hfields.text l.metadata "metadata" (by simp)
  have hcreatedAt := hfields.instant hcreated "createdAt" (by simp)
  have hupdatedAt := hfields.instant hupdated "updatedAt" (by simp)
  simp only [List.map_cons, List.map_nil] at hr
  simp [ofJson?, hr, hkey, hleaseId, hnonce, hvalidUntil, httl, hmetadata, hcreatedAt, hupdatedAt]

theorem Sql.Settings.ofJson?_of_extends {s : Sql.Settings} (h : s.toJson.Extends json) :
    Sql.Settings.ofJson? json = some s := by
  obtain ⟨r, hr, hfields⟩ := JsonRecord.ofJson?_extends (by simp) h
  have hlockSchema := hfields.textD s.lockSchema "lockSchema" standard.lockSchema (by simp)
  have hlockTable := hfields.textD s.lockTable "lockTable" standard.lockTable (by simp)
  have hmigrationSchema :=
    hfields.textD s.migrationSchema "migrationSchema" standard.migrationSchema (by simp)
  have hmigrationTable :=
    hfields.textD s.migrationTable "migrationTable" standard.migrationTable (by simp)
  simp only [List.map_cons, List.map_nil] at hr
  simp [ofJson?, hr, hlockSchema, hlockTable, hmigrationSchema, hmigrationTable]

/-- A value is read back from the compact text of its form, from the texts with sorted members, and
from every other text that carries the form. -/
structure ReadsBack (ofText? : String → Option α) (form : Json) (a : α) : Prop where
  compact : ofText? form.text = some a
  sorted : ofText? form.inNameOrder.text = some a
  lines : ofText? (form.inNameOrder.linesText 0) = some a
  carried : ∀ text, form.IsCarriedBy text → ofText? text = some a

theorem readsBack_record {fields : List (String × Json)} (hwritable : ∀ m ∈ fields, m.2.IsWritable)
    {ofJson? : Json → Option α} {a : α}
    (hread : ∀ json, (Json.record fields).Extends json → ofJson? json = some a) :
    ReadsBack (fun text => (Json.ofText? text).bind ofJson?) (.record fields) a := by
  have hcarried : ∀ text, (Json.record fields).IsCarriedBy text →
      (Json.ofText? text).bind ofJson? = some a := by
    rintro text ⟨json, hextends, htext⟩
    rw [htext.ofText?_eq, Option.bind_some, hread json hextends]
  obtain ⟨hsorted, hlines⟩ := Json.isCarriedBy_inNameOrder hwritable
  have hcompact := Json.isCarriedBy_text hwritable
  exact ⟨hcarried _ hcompact, hcarried _ hsorted, hcarried _ hlines, hcarried⟩

theorem isWritable_instant (t : Instant) : t.toJson.IsWritable := Json.isWritable_string t.text

theorem isWritable_span (s : Span) : s.toJson.IsWritable := by
  apply Json.isWritable_record
  simp [Json.isWritable_nat]

/-- Tokens, leases and settings come back from their forms, whatever their strings and at any instant
outside leap seconds; so a command that is given a token's form acts on that token. -/
theorem forms_read_back :
    (∀ t : Token, t.validUntil.IsOrdinary → ReadsBack Token.ofText? (Cli.Answer.token t).toJson t ∧
      ∀ text, t.toJson.IsCarriedBy text → ∀ c : Coordinator,
        (Cli.Command.release text).run c =
            (do return .ofOutcome (fun _ => .released t.key) (← c.release t)) ∧
          (∀ ttl, (Cli.Command.refresh text ttl).run c =
            (do return .ofOutcome .token (← c.renew t (.ofMillis ttl)))) ∧
          (Cli.Command.status text).run c =
            (do return .ofOutcome (.status t.key) (← c.isHeld t))) ∧
      (∀ l : Lease, l.validUntil.IsOrdinary → l.createdAt.IsOrdinary → l.updatedAt.IsOrdinary →
        ReadsBack Lease.ofText? l.toJson l) ∧
      ∀ s : Sql.Settings, ReadsBack Sql.Settings.ofText? s.toJson s := by
  refine ⟨fun t ht => ?_, fun l hvalid hcreated hupdated => ?_, fun s => ?_⟩
  · have hback : ReadsBack Token.ofText? t.toJson t := readsBack_record
      (by simp [Json.isWritable_string, isWritable_instant]) fun _ => Token.ofJson?_of_extends ht
    refine ⟨hback, fun text htext c => ?_⟩
    have hread := hback.carried text htext
    simp [Cli.Command.run, Cli.withToken, hread]
  · exact readsBack_record (by simp [Json.isWritable_string, isWritable_instant, isWritable_span])
      fun _ => Lease.ofJson?_of_extends hvalid hcreated hupdated
  · exact readsBack_record (by simp [Json.isWritable_string]) fun _ =>
      Sql.Settings.ofJson?_of_extends

def distantToken : Token :=
  ⟨"job \"7\"\x01\n😀", "lease", { Instant.earliest with fraction := 1, inSecond := by decide }, "né"⟩

def distantFields : List (String × Json) :=
  [("key", .ofString distantToken.key), ("leaseId", .ofString "lease"),
    ("validUntil", distantToken.validUntil.toJson), ("serverNonce", .ofString "né")]

def distantLease : Lease :=
  ⟨"job", "lease", "nonce", .latest, .longest, "\x7b\x7d", distantToken.validUntil, .epoch⟩

def distantText : String :=
  "\x7b\n  \"note\": [\n    null,\n    -0.5e3\n  ],\n  \"serverNonce\": \"né\",\n  " ++
    "\"validUntil\": \"-262143-01-01T00:00:00.000000001Z\",\n  \"leaseId\": \"lease\",\n  " ++
    "\"key\": \"job \\\"7\\\"\\u0001\\n😀\"\n\x7d"

def distantNote : String × Json := ("note", .array [.null, .number ⟨true, ['0'], ['5'], some 3⟩])

theorem distantText_eq :
    (Json.record (distantNote :: distantFields.reverse)).linesText 0 = distantText := by
  decide +kernel

theorem isCarriedBy_distantText : distantToken.toJson.IsCarriedBy distantText := by
  have hnote : distantNote.2.IsWritable := by
    rintro t ht
    simp only [distantNote, Json.tokens, Json.itemTokens, List.mem_cons, List.mem_append,
      List.not_mem_nil, or_false] at ht
    rcases ht with rfl | (rfl | rfl | rfl) | rfl
    case inr.inl.inr.inr => exact ⟨.zero, by simp [isDigit, digit?]⟩
    all_goals trivial
  have hwritable : ∀ m ∈ distantNote :: distantFields.reverse, m.2.IsWritable := by
    simp [hnote, distantFields, Json.isWritable_string, isWritable_instant]
  have hp : (distantNote :: distantFields.reverse).Perm (distantFields ++ [distantNote]) :=
    ((List.reverse_perm _).cons _).trans (List.perm_append_singleton _ _).symm
  refine ⟨.record (distantNote :: distantFields.reverse), ?_, ?_⟩
  · exact .record (JsonRecord.forall₂_same distantFields) (by simp [distantNote]) hp
  · rw [← distantText_eq]
    exact (Json.isWritable_record hwritable).isTextOf_linesText 0

theorem forms_read_back_distant :
    distantToken.validUntil.IsOrdinary ∧ distantToken.toJson.IsCarriedBy distantText ∧
      Token.ofText? distantText = some distantToken ∧
      (Cli.Command.status distantText).run .standard = (do
        return .ofOutcome (.status distantToken.key) (← Coordinator.standard.isHeld distantToken)) ∧
      distantLease.validUntil.IsOrdinary ∧ distantLease.createdAt.IsOrdinary ∧
      distantLease.updatedAt.IsOrdinary ∧ Lease.ofText? distantLease.text = some distantLease ∧
      Sql.Settings.ofText? Sql.Settings.standard.text = some .standard := by
  have hordinary : distantToken.validUntil.IsOrdinary := by
    unfold Instant.IsOrdinary
    decide
  have hlatest : distantLease.validUntil.IsOrdinary := by
    unfold Instant.IsOrdinary
    decide
  have hepoch : distantLease.updatedAt.IsOrdinary := by
    unfold Instant.IsOrdinary
    decide
  obtain ⟨hback, hruns⟩ := forms_read_back.1 distantToken hordinary
  obtain ⟨-, -, hstatus⟩ := hruns distantText isCarriedBy_distantText .standard
  have hlease := forms_read_back.2.1 distantLease hlatest hordinary hepoch
  have hsettings := forms_read_back.2.2 .standard
  exact ⟨hordinary, isCarriedBy_distantText, hback.carried _ isCarriedBy_distantText, hstatus, hlatest,
    hordinary, hepoch, hlease.compact, hsettings.compact⟩

end LeaseLock
