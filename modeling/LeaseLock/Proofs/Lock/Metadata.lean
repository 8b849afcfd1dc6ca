import LeaseLock.Lock.Metadata
import LeaseLock.Proofs.Json.Record
import Mathlib.Data.String.Basic

namespace LeaseLock

def Json.IsMap (json : Json) (m : String → Option String) : Prop :=
  ∃ entries : List (String × String),
    json = .record (entries.map fun (name, value) => (name, .ofString value)) ∧
      (entries.map Prod.fst).Nodup ∧ ∀ name value, (name, value) ∈ entries ↔ m name = some value

namespace Metadata

variable {name value : String} {entries : List (String × String)}

theorem lookup_entry (name value other : String) (rest : List (String × String)) :
    ((name, value) :: rest).lookup other =
      if other = name then some value else rest.lookup other := by
  rw [List.lookup_cons]
  by_cases h : other = name
  · simp [h]
  · simp [h, beq_false_of_ne h]

theorem lookup_insertInto (name value other : String) (entries : List (String × String)) :
    (insertInto name value entries).lookup other =
      if other = name then some value else entries.lookup other := by
  induction entries with
  | nil => exact lookup_entry name value other []
  | cons first rest ih =>
    obtain ⟨n, v⟩ := first
    rw [insertInto]
    by_cases hsame : name = n
    · subst hsame
      by_cases h : other = name <;> simp [lookup_entry, h]
    · rw [if_neg hsame]
      by_cases hbefore : name < n
      · rw [if_pos hbefore, lookup_entry]
      · rw [if_neg hbefore, lookup_entry, lookup_entry, ih]
        by_cases h : other = n
        · have hne : n ≠ name := Ne.symm hsame
          simp [h, hne]
        · simp [h]

theorem get?_insert (m : Metadata) (name value other : String) :
    (m.insert name value).get? other = if other = name then some value else m.get? other :=
  lookup_insertInto name value other m.entries

theorem get?_foldl (entries : List (String × String)) (m : Metadata) (name : String) :
    (entries.foldl (fun m (name, value) => m.insert name value) m).get? name =
      (entries.reverse.lookup name).or (m.get? name) := by
  induction entries generalizing m with
  | nil => rfl
  | cons first rest ih =>
    obtain ⟨n, v⟩ := first
    rw [List.foldl_cons, ih, get?_insert, List.reverse_cons, List.lookup_append, Option.or_assoc]
    by_cases h : name = n <;> simp [h]

theorem get?_ofList (entries : List (String × String)) (name : String) :
    (ofList entries).get? name = entries.reverse.lookup name := by
  rw [ofList, get?_foldl]
  exact Option.or_none

theorem mem_insertInto {entry : String × String} (h : entry ∈ insertInto name value entries) :
    entry = (name, value) ∨ entry ∈ entries := by
  induction entries with
  | nil => exact .inl (List.mem_singleton.mp h)
  | cons first rest ih =>
    obtain ⟨n, v⟩ := first
    rw [insertInto] at h
    split_ifs at h
    · exact (List.mem_cons.mp h).imp_right (List.mem_cons_of_mem _)
    · exact List.mem_cons.mp h
    · obtain rfl | hrest := List.mem_cons.mp h
      · exact .inr List.mem_cons_self
      · exact (ih hrest).imp_right (List.mem_cons_of_mem _)

def Sorted (m : Metadata) : Prop := m.entries.Pairwise fun a b => a.1 < b.1

theorem pairwise_insertInto (h : entries.Pairwise fun a b => a.1 < b.1) :
    (insertInto name value entries).Pairwise fun a b => a.1 < b.1 := by
  induction entries with
  | nil => exact List.pairwise_singleton _ _
  | cons first rest ih =>
    obtain ⟨n, v⟩ := first
    obtain ⟨hfirst, hrest⟩ := List.pairwise_cons.mp h
    rw [insertInto]
    split_ifs with hsame hbefore
    · subst hsame
      exact List.pairwise_cons.mpr ⟨hfirst, hrest⟩
    · refine List.pairwise_cons.mpr ⟨fun entry hentry => ?_, h⟩
      obtain rfl | hlater := List.mem_cons.mp hentry
      · exact hbefore
      · exact hbefore.trans (hfirst entry hlater)
    · refine List.pairwise_cons.mpr ⟨fun entry hentry => ?_, ih hrest⟩
      obtain rfl | hlater := mem_insertInto hentry
      · exact lt_of_le_of_ne (not_lt.mp hbefore) (Ne.symm hsame)
      · exact hfirst entry hlater

theorem sorted_foldl {m : Metadata} (h : m.Sorted) (entries : List (String × String)) :
    (entries.foldl (fun m (name, value) => m.insert name value) m).Sorted := by
  induction entries generalizing m with
  | nil => exact h
  | cons first rest ih => exact ih (pairwise_insertInto h)

theorem sorted_ofList (entries : List (String × String)) : (ofList entries).Sorted :=
  sorted_foldl List.Pairwise.nil entries

def Distinct (m : Metadata) : Prop := (m.entries.map Prod.fst).Nodup

theorem distinct_ofList (entries : List (String × String)) : (ofList entries).Distinct :=
  List.pairwise_map.mpr ((sorted_ofList entries).imp fun hlt => ne_of_lt hlt)

theorem Distinct.ofText?_text {m : Metadata} (h : m.Distinct) :
    ∃ json, Json.ofText? m.text = some json ∧ json.IsMap m.get? := by
  have hwritable : m.toJson.IsWritable := by
    apply Json.isWritable_record
    intro member hmember
    obtain ⟨⟨name, value⟩, -, rfl⟩ := List.mem_map.mp hmember
    exact Json.isWritable_string value
  refine ⟨m.toJson, hwritable.isTextOf_text.ofText?_eq, m.entries, rfl, h, fun name value => ?_⟩
  exact (JsonRecord.lookup_eq_some_iff_mem h).symm

end Metadata

end LeaseLock
