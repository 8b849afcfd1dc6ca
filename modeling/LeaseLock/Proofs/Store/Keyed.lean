import LeaseLock.Store.Keyed
import Mathlib.Data.List.Basic

namespace LeaseLock.Keyed

variable {α β : Type} {t : Keyed α} {key other : String}

theorem find?_insert (t : Keyed α) (key other : String) (value : α) :
    (t.insert key value).find? other = if other = key then some value else t.find? other := by
  by_cases h : other = key
  · subst h
    simp
  · rw [find?_insert_ne t value h, if_neg h]

theorem find?_erase (t : Keyed α) (key other : String) :
    (t.erase key).find? other = if other = key then none else t.find? other := by
  by_cases h : other = key
  · subst h
    simp
  · rw [find?_erase_ne t h, if_neg h]

def Distinct (t : Keyed α) : Prop := (t.entries.map Prod.fst).Nodup

theorem distinct_empty : (empty : Keyed α).Distinct := List.nodup_nil

theorem mem_keys_insertInto (key : String) (value : α) (entries : List (String × α)) :
    other ∈ (insertInto key value entries).map Prod.fst ↔
      other = key ∨ other ∈ entries.map Prod.fst := by
  induction entries with
  | nil => simp [insertInto]
  | cons e rest ih =>
    by_cases h : key = e.1
    · simp [insertInto, ← h]
    · simp only [insertInto, h, if_false, List.map_cons, List.mem_cons, ih]
      exact or_left_comm

theorem Distinct.insert (h : t.Distinct) (key : String) (value : α) :
    (t.insert key value).Distinct := by
  obtain ⟨entries⟩ := t
  simp only [Distinct, Keyed.insert] at h ⊢
  induction entries with
  | nil => simp [insertInto]
  | cons e rest ih =>
    obtain ⟨hfirst, hrest⟩ := List.nodup_cons.mp h
    by_cases hk : key = e.1
    · simpa [insertInto, ← hk] using ⟨by simpa [hk] using hfirst, hrest⟩
    · simp only [insertInto, hk, if_false, List.map_cons, List.nodup_cons, mem_keys_insertInto]
      exact ⟨by rintro (he | he); exact hk he.symm; exact hfirst he, ih hrest⟩

theorem eraseIn_sublist (key : String) (entries : List (String × α)) :
    (eraseIn key entries).Sublist entries := by
  induction entries with
  | nil => exact .slnil
  | cons e rest ih =>
    by_cases h : key = e.1
    · simpa [eraseIn, ← h] using ih.cons e
    · simpa [eraseIn, h] using ih.cons_cons e

theorem Distinct.erase (h : t.Distinct) (key : String) : (t.erase key).Distinct :=
  ((eraseIn_sublist key t.entries).map Prod.fst).nodup h

theorem Distinct.filter (h : t.Distinct) (p : α → Bool) : (t.filter p).Distinct :=
  (List.filter_sublist.map Prod.fst).nodup h

theorem findIn_eq_none {entries : List (String × α)} (h : key ∉ entries.map Prod.fst) :
    findIn key entries = none := by
  induction entries with
  | nil => rfl
  | cons e rest ih =>
    simp only [List.map_cons, List.mem_cons, not_or] at h
    simp only [findIn, h.1, if_false]
    exact ih h.2

theorem find?_filter (h : t.Distinct) (p : α → Bool) (key : String) :
    (t.filter p).find? key = (t.find? key).filter p := by
  obtain ⟨entries⟩ := t
  simp only [Distinct, find?, Keyed.filter] at h ⊢
  induction entries with
  | nil => rfl
  | cons e rest ih =>
    obtain ⟨hfirst, hrest⟩ := List.nodup_cons.mp h
    by_cases hp : p e.2 = true <;> by_cases hk : key = e.1
    · simp [hp, findIn, ← hk, Option.filter]
    · simpa [hp, findIn, hk] using ih hrest
    · have hnone : findIn key rest = none := findIn_eq_none (hk ▸ hfirst)
      simpa [hp, findIn, ← hk, hnone, Option.filter] using ih hrest
    · simpa [hp, findIn, hk] using ih hrest

theorem size_insert_of_none (h : t.find? key = none) (value : α) :
    (t.insert key value).size = t.size + 1 := by
  obtain ⟨entries⟩ := t
  simp only [find?, size, insert] at h ⊢
  induction entries with
  | nil => rfl
  | cons e rest ih => by_cases hk : key = e.1 <;> simp_all [findIn, insertInto]

theorem size_insert_of_some {old : α} (h : t.find? key = some old) (value : α) :
    (t.insert key value).size = t.size := by
  obtain ⟨entries⟩ := t
  simp only [find?, size, insert] at h ⊢
  induction entries with
  | nil => cases h
  | cons e rest ih => by_cases hk : key = e.1 <;> simp_all [findIn, insertInto]

theorem eraseIn_of_not_mem {entries : List (String × α)} (h : key ∉ entries.map Prod.fst) :
    eraseIn key entries = entries := by
  induction entries with
  | nil => rfl
  | cons e rest ih => simp_all [eraseIn]

theorem size_erase (h : t.Distinct) {old : α} (hfind : t.find? key = some old) :
    (t.erase key).size + 1 = t.size := by
  obtain ⟨entries⟩ := t
  simp only [find?, size, erase, Distinct] at h hfind ⊢
  induction entries with
  | nil => cases hfind
  | cons e rest ih =>
    obtain ⟨hfirst, hrest⟩ := List.nodup_cons.mp h
    by_cases hk : key = e.1
    · subst hk
      simp [eraseIn, eraseIn_of_not_mem hfirst]
    · simp only [findIn, hk, if_false] at hfind
      simp [eraseIn, hk, ih hrest hfind]

def All (t : Keyed α) (p : α → Prop) : Prop := ∀ e ∈ t.entries, p e.2

theorem all_empty (p : α → Prop) : (empty : Keyed α).All p := by
  intro e he
  cases he

theorem All.mono {p q : α → Prop} (h : t.All p) (hpq : ∀ value, p value → q value) : t.All q :=
  fun e he => hpq e.2 (h e he)

theorem All.insert {p : α → Prop} (h : t.All p) (key : String) {value : α} (hvalue : p value) :
    (t.insert key value).All p := by
  obtain ⟨entries⟩ := t
  simp only [All, Keyed.insert] at h ⊢
  induction entries with
  | nil => simpa [insertInto] using hvalue
  | cons e rest ih =>
    obtain ⟨hfirst, hrest⟩ := List.forall_mem_cons.mp h
    by_cases hk : key = e.1
    · simp only [insertInto, hk, if_true]
      exact List.forall_mem_cons.mpr ⟨hvalue, hrest⟩
    · simp only [insertInto, hk, if_false]
      exact List.forall_mem_cons.mpr ⟨hfirst, ih hrest⟩

theorem All.erase {p : α → Prop} (h : t.All p) (key : String) : (t.erase key).All p :=
  fun e he => h e ((eraseIn_sublist key t.entries).subset he)

theorem All.filter {p : α → Prop} (h : t.All p) (keep : α → Bool) : (t.filter keep).All p :=
  fun e he => h e (List.mem_filter.mp he).1

theorem size_filter_le (t : Keyed α) (p : α → Bool) : (t.filter p).size ≤ t.size :=
  List.length_filter_le _ _

end LeaseLock.Keyed
