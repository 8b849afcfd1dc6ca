namespace LeaseLock

structure Keyed (α : Type) where
  entries : List (String × α)
  deriving DecidableEq, Repr

namespace Keyed

variable {α : Type}

def empty : Keyed α := ⟨[]⟩

instance : Inhabited (Keyed α) := ⟨empty⟩

def size (t : Keyed α) : Nat := t.entries.length

def findIn (key : String) : List (String × α) → Option α
  | [] => none
  | (k, v) :: rest => if key = k then some v else findIn key rest

def find? (t : Keyed α) (key : String) : Option α := findIn key t.entries

def insertInto (key : String) (value : α) : List (String × α) → List (String × α)
  | [] => [(key, value)]
  | (k, v) :: rest => if key = k then (key, value) :: rest else (k, v) :: insertInto key value rest

def insert (t : Keyed α) (key : String) (value : α) : Keyed α := ⟨insertInto key value t.entries⟩

def eraseIn (key : String) : List (String × α) → List (String × α)
  | [] => []
  | (k, v) :: rest => if key = k then eraseIn key rest else (k, v) :: eraseIn key rest

def erase (t : Keyed α) (key : String) : Keyed α := ⟨eraseIn key t.entries⟩

def filter (t : Keyed α) (p : α → Bool) : Keyed α := ⟨t.entries.filter fun e => p e.2⟩

@[simp] theorem find?_empty (key : String) : (empty : Keyed α).find? key = none := rfl

@[simp] theorem find?_insert_self (t : Keyed α) (key : String) (value : α) :
    (t.insert key value).find? key = some value := by
  simp only [find?, insert]
  induction t.entries with
  | nil => simp [insertInto, findIn]
  | cons e rest ih => by_cases h : key = e.1 <;> simp [insertInto, findIn, h, ih]

theorem find?_insert_ne (t : Keyed α) {key other : String} (value : α) (h : other ≠ key) :
    (t.insert key value).find? other = t.find? other := by
  simp only [find?, insert]
  induction t.entries with
  | nil => simp [insertInto, findIn, h]
  | cons e rest ih =>
    by_cases hk : key = e.1
    · simp [insertInto, findIn, ← hk, h]
    · simp only [insertInto, findIn, hk, if_false, ih]

@[simp] theorem find?_erase_self (t : Keyed α) (key : String) : (t.erase key).find? key = none := by
  simp only [find?, erase]
  induction t.entries with
  | nil => rfl
  | cons e rest ih =>
    by_cases h : key = e.1
    · simpa [eraseIn, ← h] using ih
    · simpa [eraseIn, findIn, h] using ih

theorem find?_erase_ne (t : Keyed α) {key other : String} (h : other ≠ key) :
    (t.erase key).find? other = t.find? other := by
  simp only [find?, erase]
  induction t.entries with
  | nil => rfl
  | cons e rest ih =>
    by_cases hk : key = e.1
    · simp [eraseIn, findIn, ← hk, h, ih]
    · simp only [eraseIn, findIn, hk, if_false, ih]

end Keyed

end LeaseLock
