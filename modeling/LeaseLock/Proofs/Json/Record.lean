import LeaseLock.Json.Record
import LeaseLock.Proofs.Json.Printer
import Mathlib.Data.List.Forall2
import Mathlib.Data.List.Nodup

namespace LeaseLock

namespace Json

inductive Reordered : Json → Json → Prop
  | same (value : Json) : Reordered value value
  | record {fields members : List (String × Json)} (hp : members.Perm fields) :
    Reordered (.record fields) (.record members)

/-- A record that has the members of another one in any order, those of inner records as well, and may
have more under other names. -/
inductive Extends : Json → Json → Prop
  | record {fields arranged more members : List (String × Json)}
    (hf : List.Forall₂ (fun a b => a.1 = b.1 ∧ Reordered a.2 b.2) fields arranged)
    (hmore : ∀ m ∈ more, m.1 ∉ fields.map Prod.fst) (hp : members.Perm (arranged ++ more)) :
    Extends (.record fields) (.record members)

theorem record_injective : Function.Injective record := by
  intro fields members h
  rw [record, record, Json.object.injEq] at h
  exact List.map_injective_iff.mpr (fun a b hab => by simp_all [Prod.ext_iff]) h

end Json

namespace JsonRecord

variable {fields members : List (String × Json)} {name : String} {r : JsonRecord}

theorem namedMembers?_map (members : List (String × Json)) :
    namedMembers? (members.map fun (name, value) => (some name, value)) = some members := by
  induction members with
  | nil => rfl
  | cons m rest ih =>
    simp only [namedMembers?, List.map_cons] at ih ⊢
    simp [ih]

theorem count_eq (name : String) (members : List (String × Json)) :
    count name members = (members.map Prod.fst).count name := by
  rw [count, ← List.countP_eq_length_filter, List.count, List.countP_map]
  rfl

theorem lookup_eq_some_iff_mem {κ α : Type} [DecidableEq κ] {members : List (κ × α)} {name : κ}
    {value : α} (hnodup : (members.map Prod.fst).Nodup) :
    members.lookup name = some value ↔ (name, value) ∈ members := by
  induction members with
  | nil => simp
  | cons m rest ih =>
    obtain ⟨other, found⟩ := m
    rw [List.map_cons, List.nodup_cons] at hnodup
    rw [List.mem_cons, ← ih hnodup.2, List.lookup_cons]
    by_cases hsame : name = other
    · subst hsame
      have hlater : (name, value) ∉ rest := fun hrest =>
        hnodup.1 (List.mem_map.mpr ⟨_, hrest, rfl⟩)
      simp [ih hnodup.2, hlater, eq_comm]
    · simp [beq_false_of_ne hsame, hsame]

theorem lookup_eq_of_perm {κ α : Type} [DecidableEq κ] {first second : List (κ × α)}
    (hperm : first.Perm second) (hnodup : (first.map Prod.fst).Nodup) (name : κ) :
    first.lookup name = second.lookup name := by
  ext value
  rw [lookup_eq_some_iff_mem hnodup, hperm.mem_iff,
    lookup_eq_some_iff_mem ((hperm.map Prod.fst).nodup_iff.mp hnodup)]

def Holds (r : JsonRecord) (fields : List (String × Json)) : Prop :=
  ∀ name value, (name, value) ∈ fields → ∃ found, r.field? name = some found ∧ value.Reordered found

theorem map_fst_eq {arranged : List (String × Json)}
    (hf : List.Forall₂ (fun a b => a.1 = b.1 ∧ a.2.Reordered b.2) fields arranged) :
    arranged.map Prod.fst = fields.map Prod.fst := by
  induction hf with
  | nil => rfl
  | cons h _ ih => rw [List.map_cons, List.map_cons, h.1, ih]

theorem exists_arranged {arranged : List (String × Json)}
    (hf : List.Forall₂ (fun a b => a.1 = b.1 ∧ a.2.Reordered b.2) fields arranged) {value : Json}
    (h : (name, value) ∈ fields) : ∃ found, (name, found) ∈ arranged ∧ value.Reordered found := by
  induction hf with
  | nil => simp at h
  | @cons a b _ _ hab _ ih =>
    rcases List.mem_cons.mp h with rfl | hmem
    · obtain ⟨other, found⟩ := b
      obtain ⟨rfl, hsame⟩ := hab
      exact ⟨found, by simp, hsame⟩
    · obtain ⟨found, hfound, hsame⟩ := ih hmem
      exact ⟨found, by simp [hfound], hsame⟩

theorem ofJson?_record {arranged more : List (String × Json)} {closed : Bool}
    (hnodup : (fields.map Prod.fst).Nodup)
    (hf : List.Forall₂ (fun a b => a.1 = b.1 ∧ a.2.Reordered b.2) fields arranged)
    (hmore : ∀ m ∈ more, m.1 ∉ fields.map Prod.fst) (hclosed : closed = true → more = [])
    (hp : members.Perm (arranged ++ more)) :
    ∃ r, ofJson? (fields.map Prod.fst) closed (.record members) = some r ∧ r.Holds fields := by
  have hnames := map_fst_eq hf
  have hof : ∀ m ∈ arranged, m.1 ∈ fields.map Prod.fst := fun m hm =>
    hnames ▸ List.mem_map_of_mem hm
  have hextra : (closed && members.any fun m => !(fields.map Prod.fst).contains m.1) = false := by
    cases closed with
    | false => rfl
    | true =>
      rw [hclosed rfl, List.append_nil] at hp
      simpa using fun m hm => hof m (hp.mem_iff.mp hm)
  have honce : ((fields.map Prod.fst).any fun name => 1 < count name members) = false := by
    rw [List.any_eq_false]
    rintro name hname
    have hfresh : (more.map Prod.fst).count name = 0 := by
      rw [List.count_eq_zero]
      rintro hmem
      obtain ⟨m, hm, rfl⟩ := List.mem_map.mp hmem
      exact hmore m hm hname
    have hcount := List.nodup_iff_count_le_one.mp hnodup name
    rw [count_eq, (hp.map Prod.fst).count_eq, List.map_append, List.count_append, hfresh, hnames]
    simpa using hcount
  -- Left of the record are its fields in some order, without the members of other names.
  have hkept : (members.filter fun m => (fields.map Prod.fst).contains m.1).Perm arranged := by
    have hall : (arranged.filter fun m => (fields.map Prod.fst).contains m.1) = arranged :=
      List.filter_eq_self.mpr fun m hm => by simpa using hof m hm
    have hnone : (more.filter fun m => (fields.map Prod.fst).contains m.1) = [] :=
      List.filter_eq_nil_iff.mpr fun m hm => by simpa using hmore m hm
    have hfilter := hp.filter fun m => (fields.map Prod.fst).contains m.1
    rwa [List.filter_append, hall, hnone, List.append_nil] at hfilter
  refine ⟨⟨false, members.filter fun m => (fields.map Prod.fst).contains m.1⟩, ?_, ?_⟩
  · simp only [ofJson?, Json.record, namedMembers?_map, Option.bind_eq_bind, Option.bind_some, hextra,
      honce]
    rfl
  · rintro name value hmem
    obtain ⟨found, hfound, hsame⟩ := exists_arranged hf hmem
    refine ⟨found, (lookup_eq_some_iff_mem ?_).mpr (hkept.mem_iff.mpr hfound), hsame⟩
    exact (hkept.map Prod.fst).nodup_iff.mpr (hnames ▸ hnodup)

theorem forall₂_same (fields : List (String × Json)) :
    List.Forall₂ (fun a b => a.1 = b.1 ∧ a.2.Reordered b.2) fields fields :=
  List.forall₂_same.mpr fun _ _ => ⟨rfl, .same _⟩

theorem ofJson?_reordered {json : Json} (hnodup : (fields.map Prod.fst).Nodup)
    (h : (Json.record fields).Reordered json) (closed : Bool) :
    ∃ r, ofJson? (fields.map Prod.fst) closed json = some r ∧ r.Holds fields := by
  generalize hform : Json.record fields = form at h
  cases h with
  | same =>
    rw [← hform]
    exact ofJson?_record hnodup (forall₂_same fields) (by simp) (fun _ => rfl)
      (by rw [List.append_nil])
  | record hp =>
    obtain rfl := Json.record_injective hform
    exact ofJson?_record hnodup (forall₂_same fields) (by simp) (fun _ => rfl)
      (by rwa [List.append_nil])

theorem ofJson?_extends {json : Json} (hnodup : (fields.map Prod.fst).Nodup)
    (h : (Json.record fields).Extends json) :
    ∃ r, ofJson? (fields.map Prod.fst) false json = some r ∧ r.Holds fields := by
  generalize hform : Json.record fields = form at h
  obtain ⟨hf, hmore, hp⟩ := h
  obtain rfl := Json.record_injective hform
  exact ofJson?_record hnodup hf hmore (by simp) hp

variable {value : Json} {read : Json → Option α} {a : α}

theorem Holds.require? (h : r.Holds fields) (hmem : (name, value) ∈ fields)
    (hread : ∀ found, value.Reordered found → read found = some a) :
    r.require? name read = some a := by
  obtain ⟨found, hfound, hsame⟩ := h name value hmem
  rw [JsonRecord.require?, hfound, Option.bind_some, hread found hsame]

theorem Holds.getD? (h : r.Holds fields) (hmem : (name, value) ∈ fields)
    (hread : ∀ found, value.Reordered found → read found = some a) (default : α) :
    r.getD? name read default = some a := by
  obtain ⟨found, hfound, hsame⟩ := h name value hmem
  rw [JsonRecord.getD?, hfound]
  exact hread found hsame

end JsonRecord

namespace Json

theorem Reordered.of_string {s : String} {found : Json} (h : (ofString s).Reordered found) :
    found = ofString s := by
  generalize hform : ofString s = form at h
  cases h with
  | same => rfl
  | record hp => cases hform

theorem Reordered.of_nat {n : Nat} {found : Json} (h : (ofNat n).Reordered found) :
    found = ofNat n := by
  generalize hform : ofNat n = form at h
  cases h with
  | same => rfl
  | record hp => cases hform

theorem isWritable_members {members : List (String × Json)} (h : ∀ m ∈ members, m.2.IsWritable) :
    ∀ t ∈ memberTokens (members.map fun (name, value) => (some name, value)), t.IsWritable := by
  induction members with
  | nil => simp [memberTokens]
  | cons m rest ih =>
    have hvalue : ∀ t ∈ m.2.tokens, t.IsWritable := h m (by simp)
    have hrest := ih fun m hm => h m (by simp [hm])
    cases rest with
    | nil => simpa [memberTokens, JsonToken.IsWritable] using hvalue
    | cons next rest =>
      simp only [List.map_cons, memberTokens, List.mem_cons, List.mem_append] at hrest ⊢
      rintro t (rfl | rfl | ht | rfl | ht)
      · exact rfl
      · trivial
      · exact hvalue t ht
      · trivial
      · exact hrest t ht

theorem isWritable_record {fields : List (String × Json)} (h : ∀ m ∈ fields, m.2.IsWritable) :
    (record fields).IsWritable := by
  intro t ht
  simp only [record, tokens, List.mem_cons, List.mem_append, List.not_mem_nil, or_false] at ht
  rcases ht with rfl | ht | rfl
  · trivial
  · exact isWritable_members h t ht
  · trivial

theorem isWritable_string (s : String) : (ofString s).IsWritable := by
  simp [IsWritable, ofString, tokens, JsonToken.IsWritable]

theorem isWritable_nat (n : Nat) : (ofNat n).IsWritable := by
  simpa [IsWritable, ofNat, tokens, JsonToken.IsWritable] using JsonNumber.isWritable_ofNat n

def IsCarriedBy (form : Json) (text : String) : Prop := ∃ json, form.Extends json ∧ json.IsTextOf text

theorem exists_inNameOrder (fields : List (String × Json)) :
    ∃ members, (record fields).inNameOrder = record members ∧ members.Perm fields := by
  refine ⟨fields.mergeSort fun a b => a.1 ≤ b.1, ?_, List.mergeSort_perm _ _⟩
  rw [record, inNameOrder, record, List.map_mergeSort]
  simp

variable {fields members : List (String × Json)}

theorem extends_of_perm (h : members.Perm fields) : (record fields).Extends (record members) := by
  have hp : members.Perm (fields ++ []) := by simpa using h
  exact .record (JsonRecord.forall₂_same fields) (by simp) hp

theorem isCarriedBy_text (h : ∀ m ∈ fields, m.2.IsWritable) :
    (record fields).IsCarriedBy (record fields).text :=
  ⟨record fields, extends_of_perm (.refl _), (isWritable_record h).isTextOf_text⟩

theorem isCarriedBy_inNameOrder (h : ∀ m ∈ fields, m.2.IsWritable) :
    (record fields).IsCarriedBy (record fields).inNameOrder.text ∧
      (record fields).IsCarriedBy ((record fields).inNameOrder.linesText 0) := by
  obtain ⟨members, heq, hp⟩ := exists_inNameOrder fields
  have hwritable := isWritable_record fun m hm => h m (hp.mem_iff.mp hm)
  rw [heq]
  exact ⟨⟨_, extends_of_perm hp, hwritable.isTextOf_text⟩,
    ⟨_, extends_of_perm hp, hwritable.isTextOf_linesText 0⟩⟩

end Json

end LeaseLock
