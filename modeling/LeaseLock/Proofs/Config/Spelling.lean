import LeaseLock.Proofs.Config.Environment
import LeaseLock.Proofs.Number.Digits

namespace LeaseLock.Config

variable {name : String} {c : Char} {rest : List Char}

def lowered (name : String) : String := String.ofList (lowerAscii name.toList)

def respelled (name : String) : String :=
  if lowered name = "true" then "true"
  else if lowered name = "false" then "false"
  else if lowered name = "nan" then "NaN"
  else if lowered name = "inf" ∨ lowered name = "infinity" then "inf"
  else name

def valueWords : List String := ["true", "false", "inf", "infinity", "nan"]

def writtenWords : List String := ["true", "false", "inf", "NaN"]

theorem respelled_eq_self_iff (name : String) : respelled name = name ↔
    (lowered name ∈ valueWords → name ∈ writtenWords) := by
  constructor
  · intro hself hword
    simp only [valueWords, List.mem_cons, List.not_mem_nil, or_false] at hword
    rw [← hself, respelled]
    obtain h | h | h | h | h := hword <;> simp [h, writtenWords]
  · intro h
    by_cases hword : lowered name ∈ valueWords
    · have hwritten := h hword
      simp only [writtenWords, List.mem_cons, List.not_mem_nil, or_false] at hwritten
      obtain rfl | rfl | rfl | rfl := hwritten <;> decide +kernel
    · simp only [valueWords, List.mem_cons, List.not_mem_nil, or_false, not_or] at hword
      simp [respelled, hword]

theorem not_isDigit_of_isNameStart (h : Sql.Settings.isNameStart c = true) : isDigit c = false := by
  rw [← Bool.not_eq_true, isDigit_iff]
  rintro ⟨-, hnine⟩
  obtain hlower | hupper | rfl := of_decide_eq_true h
  · exact absurd (Char.le_trans hlower.1 hnine) (by decide)
  · exact absurd (Char.le_trans hupper.1 hnine) (by decide)
  · exact absurd hnine (by decide)

theorem ne_of_isNameStart {d : Char} (h : Sql.Settings.isNameStart c = true)
    (hd : Sql.Settings.isNameStart d = false) : c ≠ d := by
  rintro rfl
  exact absurd h (Bool.eq_false_iff.mp hd)

theorem readInt_of_isNameStart (hname : name.toList = c :: rest)
    (h : Sql.Settings.isNameStart c = true) (greatest : Nat) :
    readInt greatest name = .error .invalidDigit := by
  have hplus : c ≠ '+' := ne_of_isNameStart h (by decide)
  have hminus : c ≠ '-' := ne_of_isNameStart h (by decide)
  have hdigit : digit? c = none :=
    Option.isNone_iff_eq_none.mp (Option.isSome_eq_false_iff.mp (not_isDigit_of_isNameStart h))
  rw [readInt, hname]
  simp [hplus, hminus, readMagnitude, readDigits, hdigit, Except.map]

theorem ofText_of_isNameStart (hname : name.toList = c :: rest)
    (h : Sql.Settings.isNameStart c = true) :
    Binary64.ofText name =
      if lowered name = "nan" then .ok .nan
      else if lowered name = "inf" ∨ lowered name = "infinity" then .ok (.infinite false)
      else .error .invalid := by
  have hplus : c ≠ '+' := ne_of_isNameStart h (by decide)
  have hminus : c ≠ '-' := ne_of_isNameStart h (by decide)
  have hpoint : c ≠ '.' := ne_of_isNameStart h (by decide)
  have hdecimal : Decimal.ofUnsignedText? false (c :: rest) = none := by
    simp [Decimal.ofUnsignedText?, not_isDigit_of_isNameStart h, hpoint]
  have hlowered : String.ofList (lowerAscii (c :: rest)) = lowered name := by rw [lowered, hname]
  have hunsigned : Binary64.ofUnsignedText? false (c :: rest) =
      if lowered name = "nan" then some .nan
      else if lowered name = "inf" ∨ lowered name = "infinity" then some (.infinite false)
      else none := by
    simp only [Binary64.ofUnsignedText?, hdecimal, hlowered, Option.map_none]
  by_cases hnan : lowered name = "nan"
  · simp [Binary64.ofText, hname, hplus, hminus, hunsigned, hnan]
  · by_cases hinf : lowered name = "inf" ∨ lowered name = "infinity"
    · simp [Binary64.ofText, hname, hplus, hminus, hunsigned, hnan, hinf]
    · simp [Binary64.ofText, hname, hplus, hminus, hunsigned, hnan, hinf]

theorem value_of_isName (h : Sql.Settings.isName name = true) :
    Environment.value name =
      if lowered name = "true" then .bool true
      else if lowered name = "false" then .bool false
      else if lowered name = "nan" then .float .nan
      else if lowered name = "inf" ∨ lowered name = "infinity" then .float (.infinite false)
      else .text name := by
  obtain ⟨c, rest, hname, hstart⟩ : ∃ c rest, name.toList = c :: rest ∧
      Sql.Settings.isNameStart c = true := by
    rw [Sql.Settings.isName] at h
    cases hchars : name.toList with
    | nil =>
      rw [hchars] at h
      cases h
    | cons c rest =>
      simp only [hchars, Bool.and_eq_true] at h
      exact ⟨c, rest, rfl, h.1.1⟩
  simp only [Environment.value, readInt_of_isNameStart hname hstart,
    ofText_of_isNameStart hname hstart]
  rw [← lowered]
  by_cases hnan : lowered name = "nan"
  · simp only [hnan, if_true]
  · by_cases hinf : lowered name = "inf" ∨ lowered name = "infinity"
    · simp only [hnan, hinf, if_true, if_false]
    · simp only [hnan, hinf, if_false]

theorem text_nan : Binary64.nan.text = "NaN" := rfl

theorem text_infinite : (Binary64.infinite false).text = "inf" := rfl

theorem toText?_value (h : Sql.Settings.isName name = true) :
    (Environment.value name).toText? = some (respelled name) := by
  rw [value_of_isName h, respelled]
  by_cases htrue : lowered name = "true"
  · simp [htrue, Value.toText?]
  by_cases hfalse : lowered name = "false"
  · simp [hfalse, Value.toText?]
  by_cases hnan : lowered name = "nan"
  · simp [hnan, Value.toText?, text_nan]
  by_cases hinf : lowered name = "inf" ∨ lowered name = "infinity"
  · simp [htrue, hfalse, hnan, hinf, Value.toText?, text_infinite]
  · simp [htrue, hfalse, hnan, hinf, Value.toText?]

def Key.field? : Key → Option (Sql.Settings → String)
  | .lockSchema => some Sql.Settings.lockSchema
  | .lockTable => some Sql.Settings.lockTable
  | .migrationSchema => some Sql.Settings.migrationSchema
  | .migrationTable => some Sql.Settings.migrationTable
  | _ => none

namespace Configuration

variable {file : File} {settings : List (String × Value)} {environment : List (String × String)}
  {key : Key} {field : Sql.Settings → String}

theorem field_storeSettings {c : Configuration} {text : String} (hfield : key.field? = some field)
    (htext : c.text? key = some text) : field c.storeSettings = text := by
  cases key <;> cases hfield <;> simp [storeSettings, htext]

/-- A name that a variable holds reaches its field as it is, unless it spells a value in some case
other than the one in which that value is written. -/
theorem storeSettings_of_variable (hfile : file.settings? = some settings)
    (hdistinct : (environment.map Prod.fst).Nodup) {variableName name : String}
    (hmem : (variableName, name) ∈ environment) (hnames : Environment.Names variableName key)
    (hspares : ∀ v ∈ environment, v.1 ≠ variableName → Environment.Spares v.1 key)
    (hfield : key.field? = some field) (hname : Sql.Settings.isName name = true)
    (url : Option String) :
    ∃ c, load? file environment url = some c ∧ field c.storeSettings = respelled name ∧
      (field c.storeSettings = name ↔
        (lowered name ∈ valueWords → name ∈ writtenWords)) := by
  have hne : key ≠ .databaseUrl := by
    rintro rfl
    cases hfield
  obtain ⟨c, hload, hfind⟩ := find?_of_variable hfile hdistinct hmem hnames hspares
    url (.inr hne)
  have htext : c.text? key = some (respelled name) := by
    rw [text?, hfind]
    exact toText?_value hname
  have hgiven := field_storeSettings hfield htext
  refine ⟨c, hload, hgiven, ?_⟩
  rw [hgiven]
  exact respelled_eq_self_iff name

def jobsInLocking : List (String × String) :=
  [("leasehold__lock__table", "True_jobs"), ("LEASEHOLD__LOCK__SCHEMA", "locking")]

theorem storeSettings_of_variable_longer_name :
    ∃ c, load? ⟨"leasehold.yml", none⟩ jobsInLocking (some "sqlite::memory:") = some c ∧
      c.storeSettings.lockTable = "True_jobs" := by
  have hfile : File.settings? ⟨"leasehold.yml", none⟩ = some [] := rfl
  have hmem : ("leasehold__lock__table", "True_jobs") ∈ jobsInLocking := List.mem_cons_self
  have hnames : Environment.Names "leasehold__lock__table" .lockTable := ⟨"lock.table", rfl, rfl⟩
  have hfield : Key.lockTable.field? = some Sql.Settings.lockTable := rfl
  obtain ⟨c, hload, -, hkept⟩ := storeSettings_of_variable hfile (by decide) hmem hnames
    (by decide +kernel) hfield (by decide) (some "sqlite::memory:")
  exact ⟨c, hload, hkept.mpr (by decide +kernel)⟩

/-- Names that spell a truth and an infinity come back changed. -/
theorem names_respelled :
    Sql.Settings.isName "True" = true ∧ Sql.Settings.isName "Infinity" = true ∧
    (load? ⟨"leasehold.yml", none⟩
      [("LEASEHOLD__LOCK__TABLE", "True"), ("LEASEHOLD__LOCK__SCHEMA", "Infinity")] none).map
        storeSettings = some { Sql.Settings.standard with lockTable := "true", lockSchema := "inf" } := by
  decide +kernel

end Configuration

end LeaseLock.Config
