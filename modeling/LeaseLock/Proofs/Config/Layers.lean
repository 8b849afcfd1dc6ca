import LeaseLock.Config.Configuration

namespace LeaseLock.Config

namespace Value

variable {name other : String} {value : Value} {members : List (String × Value)}

def isTable : Value → Bool
  | .table _ => true
  | _ => false

theorem overlay_of_not_table (h : value.isTable = false) (earlier : Option Value) :
    overlay earlier value = value := by
  cases value with
  | table members => cases h
  | _ => rw [overlay] <;> simp

theorem lookup_put_self (name : String) (value : Value) (members : List (String × Value)) :
    (put name value members).lookup name = some value := by
  induction members with
  | nil => simp [put]
  | cons m rest ih =>
    obtain ⟨first, inner⟩ := m
    by_cases hsame : name = first
    · simp [put, hsame]
    · simp [put, hsame, List.lookup_cons, beq_false_of_ne hsame, ih]

theorem lookup_put_of_ne (h : other ≠ name) (value : Value) (members : List (String × Value)) :
    (put name value members).lookup other = members.lookup other := by
  induction members with
  | nil => simp [put, List.lookup_cons, beq_false_of_ne h]
  | cons m rest ih =>
    obtain ⟨first, inner⟩ := m
    by_cases hsame : name = first
    · simp [put, hsame, List.lookup_cons, beq_false_of_ne (hsame ▸ h)]
    · simp [put, hsame, List.lookup_cons, ih]

end Value

namespace Path

def steps (name : String) : List PathStep :=
  match ofText? name with
  | some path => .member path.first :: path.rest
  | none => [.member name]

def Parts : List PathStep → List String → Prop
  | .member name :: steps, other :: names => name ≠ other ∨ Parts steps names
  | _, _ => False

instance decidableParts : (steps : List PathStep) → (names : List String) → Decidable (Parts steps names)
  | .member name :: steps, other :: names =>
    have := decidableParts steps names
    inferInstanceAs (Decidable (name ≠ other ∨ Parts steps names))
  | [], _ => .isFalse id
  | .index _ :: _, _ => .isFalse id
  | .member _ :: _, [] => .isFalse id

variable {value : Value} {steps : List PathStep} {names : List String}

theorem find?_setAt_self (h : value.isTable = false) (names : List String) (earlier : Option Value) :
    (setAt value (names.map .member) earlier).find? names = some value := by
  induction names generalizing earlier with
  | nil => rw [List.map_nil, setAt, Value.overlay_of_not_table h, Value.find?]
  | cons name rest ih =>
    simp only [List.map_cons, setAt, Value.find?, Value.member?, Value.members,
      Value.lookup_put_self, ih]

theorem find?_setAt_of_parts (h : Parts steps names) (value : Value) (earlier : Option Value) :
    (setAt value steps earlier).find? names = earlier.bind fun v => v.find? names := by
  induction steps generalizing names earlier with
  | nil => cases names <;> cases h
  | cons step steps ih =>
    cases step with
    | index position => cases names <;> cases h
    | member name =>
      cases names with
      | nil => cases h
      | cons other names =>
        have hmembers : earlier.bind (fun v => v.find? (other :: names)) =
            (((earlier.map Value.members).getD []).lookup other).bind fun v => v.find? names := by
          cases earlier with
          | none => rfl
          | some v =>
            simp only [Option.bind_some, Option.map_some, Option.getD_some, Value.find?,
              Value.member?]
            cases v.members.lookup other <;> rfl
        rw [hmembers]
        simp only [setAt, Value.find?, Value.member?, Value.members]
        by_cases hsame : name = other
        · subst hsame
          have hrest : Parts steps names := h.resolve_left (absurd rfl)
          rw [Value.lookup_put_self]
          exact ih hrest _
        · rw [Value.lookup_put_of_ne (Ne.symm hsame)]
          cases List.lookup other ((earlier.map Value.members).getD []) <;> rfl

end Path

namespace Environment

def Names (name : String) (key : Key) : Prop :=
  ∃ setting, key? name = some setting ∧ Path.steps setting = key.path.map .member

def Spares (name : String) (key : Key) : Prop :=
  ∀ setting, key? name = some setting → Path.Parts (Path.steps setting) key.path

instance (name : String) (key : Key) : Decidable (Spares name key) :=
  match h : key? name with
  | none => .isTrue fun _ hsetting => nomatch h.symm.trans hsetting
  | some setting => decidable_of_iff (Path.Parts (Path.steps setting) key.path)
    ⟨fun hparts _ hsetting => Option.some.inj (h.symm.trans hsetting) ▸ hparts,
      fun hspares => hspares setting h⟩

theorem isTable_value (text : String) : (value text).isTable = false := by
  simp only [value]
  split
  · rfl
  · split
    · rfl
    · cases readInt Value.greatest text with
      | ok n => rfl
      | error _ => cases Binary64.ofText text <;> rfl

theorem settings_append (first second : List (String × String)) :
    settings (first ++ second) = settings first ++ settings second := List.filterMap_append

theorem settings_cons (name text : String) (rest : List (String × String)) :
    settings ((name, text) :: rest) =
      ((key? name).map fun setting => (setting, value text)).toList ++ settings rest := by
  simp only [settings, List.filterMap_cons]
  cases key? name <;> rfl

end Environment

namespace Configuration

variable {c : Configuration} {key : Key}

theorem set_eq (c : Configuration) (name : String) (value : Value) :
    c.set name value = ⟨Path.setAt value (Path.steps name) (some c.root)⟩ := by
  rw [set, Path.steps]
  cases Path.ofText? name <;> rfl

theorem find?_set_self {name : String} (h : Path.steps name = key.path.map .member) {value : Value}
    (hvalue : value.isTable = false) : (c.set name value).find? key = some value := by
  rw [set_eq, h]
  exact Path.find?_setAt_self hvalue _ _

theorem find?_set_of_parts {name : String} (h : Path.Parts (Path.steps name) key.path)
    (value : Value) : (c.set name value).find? key = c.find? key := by
  rw [set_eq]
  exact Path.find?_setAt_of_parts h value _

theorem setAll_append (c : Configuration) (first second : List (String × Value)) :
    c.setAll (first ++ second) = (c.setAll first).setAll second := List.foldl_append

theorem find?_setAll_of_parts {settings : List (String × Value)}
    (h : ∀ s ∈ settings, Path.Parts (Path.steps s.1) key.path) :
    (c.setAll settings).find? key = c.find? key := by
  induction settings generalizing c with
  | nil => rfl
  | cons s rest ih =>
    obtain ⟨hs, hrest⟩ := List.forall_mem_cons.mp h
    exact (ih hrest).trans (find?_set_of_parts hs s.2)

theorem find?_setAll_of_spares {environment : List (String × String)}
    (h : ∀ v ∈ environment, Environment.Spares v.1 key) :
    (c.setAll (Environment.settings environment)).find? key = c.find? key := by
  refine find?_setAll_of_parts fun s hs => ?_
  obtain ⟨v, hv, hs⟩ := List.mem_filterMap.mp hs
  obtain ⟨setting, hsetting, rfl⟩ := Option.map_eq_some_iff.mp hs
  exact h v hv setting hsetting

theorem find?_setAll_of_names {name : String} (h : Environment.Names name key) (text : String)
    (before : List (String × String)) {after : List (String × String)}
    (hafter : ∀ v ∈ after, Environment.Spares v.1 key) :
    (c.setAll (Environment.settings (before ++ (name, text) :: after))).find? key =
      some (Environment.value text) := by
  obtain ⟨setting, hsetting, hsteps⟩ := h
  rw [Environment.settings_append, Environment.settings_cons, hsetting, setAll_append,
    setAll_append, find?_setAll_of_spares hafter]
  exact find?_set_self hsteps (Environment.isTable_value text)

end Configuration

end LeaseLock.Config
