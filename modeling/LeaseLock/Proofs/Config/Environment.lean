import LeaseLock.Proofs.Config.Layers

namespace LeaseLock.Config

def Key.documentedName (key : Key) : String := ("leasehold_" ++ "__".intercalate key.path).toUpper

namespace Environment

def isLower (name : String) : Bool := name.toList.all fun c => lowerChar c.toUpper = c

theorem key?_toUpper {name : String} (h : isLower name = true) :
    key? name.toUpper =
      if start.toList.isPrefixOf name.toList then
        some (String.ofList (separated (name.toList.drop start.length)))
      else none := by
  have hlower : name.toUpper.toList.map lowerChar = name.toList := by
    rw [String.toUpper, String.toList_map, List.map_map]
    have hsame : ∀ c ∈ name.toList, (lowerChar ∘ Char.toUpper) c = id c := fun c hc =>
      of_decide_eq_true (List.all_eq_true.mp h c hc)
    rw [List.map_congr_left hsame, List.map_id]
  rw [key?, hlower]

theorem isLower_append {front : String} (hfront : isLower front = true) (key : Key) :
    isLower (front ++ "__".intercalate key.path) = true := by
  rw [isLower, String.toList_append, List.all_append, Bool.and_eq_true]
  refine ⟨hfront, ?_⟩
  rw [String.toList_intercalate]
  cases key <;> decide

theorem key?_documentedName (key : Key) : key? key.documentedName = none := by
  rw [Key.documentedName, key?_toUpper (isLower_append (by decide) key), String.toList_append,
    String.toList_intercalate]
  cases key <;> rfl

theorem key?_variableName (key : Key) : key? (variableName key.path) = some key.name := by
  rw [variableName, key?_toUpper (isLower_append (by decide) key), String.toList_append,
    String.toList_intercalate]
  cases key <;> rfl

theorem steps_name (key : Key) : Path.steps key.name = key.path.map .member := by
  cases key <;> rfl

theorem names_variableName (key : Key) : Names (variableName key.path) key :=
  ⟨key.name, key?_variableName key, steps_name key⟩

theorem parts_of_ne {key other : Key} (h : other ≠ key) :
    Path.Parts (other.path.map .member) key.path := by
  revert h
  cases other <;> cases key <;> decide

theorem Names.spares {name : String} {key other : Key} (h : Names name other) (hne : other ≠ key) :
    Spares name key := by
  obtain ⟨found, hfound, hsteps⟩ := h
  intro setting hsetting
  obtain rfl := Option.some.inj (hfound.symm.trans hsetting)
  rw [hsteps]
  exact parts_of_ne hne

theorem settings_of_documentedName (key : Key) (text : String)
    (before after : List (String × String)) :
    settings (before ++ (key.documentedName, text) :: after) = settings (before ++ after) := by
  rw [settings_append, settings_append, settings_cons, key?_documentedName]
  rfl

end Environment

namespace Configuration

variable {file : File} {settings : List (String × Value)} {environment : List (String × String)}
  {key : Key}

theorem load?_of_settings_eq {other : List (String × String)}
    (h : Environment.settings environment = Environment.settings other) (file : File)
    (url : Option String) : load? file environment url = load? file other url := by
  simp only [load?, h]

theorem exists_load? (hfile : file.settings? = some settings)
    (environment : List (String × String)) {url : Option String}
    (hurl : url = none ∨ key ≠ .databaseUrl) : ∃ c, load? file environment url = some c ∧
      c.find? key =
        ((empty.setAll settings).setAll (Environment.settings environment)).find? key := by
  simp only [load?, hfile, Option.bind_eq_bind, Option.bind_some]
  cases url with
  | none => exact ⟨_, rfl, rfl⟩
  | some url =>
    have hne := hurl.resolve_left (Option.some_ne_none url)
    refine ⟨_, rfl, find?_set_of_parts ?_ _⟩
    rw [Environment.steps_name]
    exact Environment.parts_of_ne hne.symm

theorem find?_of_variable (hfile : file.settings? = some settings)
    (hdistinct : (environment.map Prod.fst).Nodup) {name text : String}
    (hmem : (name, text) ∈ environment) (hnames : Environment.Names name key)
    (hspares : ∀ v ∈ environment, v.1 ≠ name → Environment.Spares v.1 key) (url : Option String)
    (hurl : url = none ∨ key ≠ .databaseUrl) : ∃ c, load? file environment url = some c ∧
      c.find? key = some (Environment.value text) := by
  obtain ⟨before, after, rfl⟩ := List.append_of_mem hmem
  obtain ⟨c, hload, hfind⟩ := exists_load? hfile (before ++ (name, text) :: after) hurl
  refine ⟨c, hload, hfind.trans (find?_setAll_of_names hnames text before fun v hv => ?_)⟩
  refine hspares v (List.mem_append_right _ (List.mem_cons_of_mem _ hv)) ?_
  rintro rfl
  simp only [List.map_append, List.map_cons] at hdistinct
  exact (List.nodup_cons.mp (List.nodup_append.mp hdistinct).2.1).1 (List.mem_map_of_mem hv)

/-- A variable under its documented name changes nothing. Under the name with two underscores after
the program's name it gives its setting the value, whatever is in the file, if no other variable is
for the same setting, for one above it or for one below it. -/
theorem load?_of_variables (hfile : file.settings? = some settings)
    (hdistinct : (environment.map Prod.fst).Nodup) (key : Key) (text : String) :
    (∀ before after, environment = before ++ (key.documentedName, text) :: after →
      ∀ url, load? file environment url = load? file (before ++ after) url) ∧
    ((Environment.variableName key.path, text) ∈ environment →
      (∀ v ∈ environment, v.1 ≠ Environment.variableName key.path → Environment.Spares v.1 key) →
      ∀ url, (url = none ∨ key ≠ .databaseUrl) → ∃ c, load? file environment url = some c ∧
        c.find? key = some (Environment.value text)) := by
  constructor
  · rintro before after rfl url
    exact load?_of_settings_eq (Environment.settings_of_documentedName key text before after) file url
  · intro hmem hspares url hurl
    exact find?_of_variable hfile hdistinct hmem (Environment.names_variableName key) hspares url
      hurl

def poolOfSeven : File := ⟨"leasehold.yml", some "db:\n  pool:\n    max_connections: 7\n"⟩

def bothKindsOfNames : List (String × String) :=
  [("LEASEHOLD_DB__POOL__MAX_CONNECTIONS", "3"), ("LEASEHOLD__DB__POOL__MIN_CONNECTIONS", "4"),
    ("PATH", "/bin")]

theorem load?_of_variables_both_kinds :
    (∀ url, load? poolOfSeven bothKindsOfNames url = load? poolOfSeven bothKindsOfNames.tail url) ∧
    ∃ c, load? poolOfSeven bothKindsOfNames none = some c ∧
      c.find? .minConnections = some (.integer 4) := by
  obtain ⟨settings, hfile⟩ : ∃ settings, poolOfSeven.settings? = some settings :=
    Option.isSome_iff_exists.mp (by decide +kernel)
  have hdistinct : (bothKindsOfNames.map Prod.fst).Nodup := by decide
  constructor
  · have hfirst : bothKindsOfNames =
        [] ++ (Key.maxConnections.documentedName, "3") :: bothKindsOfNames.tail := by decide +kernel
    exact (load?_of_variables hfile hdistinct .maxConnections "3").1 [] _ hfirst
  · have hmem : (Environment.variableName Key.minConnections.path, "4") ∈ bothKindsOfNames := by
      decide +kernel
    have hset := (load?_of_variables hfile hdistinct .minConnections "4").2 hmem (by decide +kernel)
    exact hset none (.inl rfl)

/-- A variable as the documentation has it leaves the default. -/
theorem documented_variable_ignored :
    Key.maxConnections.documentedName = "LEASEHOLD_DB__POOL__MAX_CONNECTIONS" ∧
    ∃ c, load? ⟨"leasehold.yml", none⟩ [("LEASEHOLD_DB__POOL__MAX_CONNECTIONS", "3")] none = some c ∧
      c.find? .maxConnections = none ∧ c.maxConnections = 10 :=
  ⟨by decide +kernel, _, rfl, rfl, rfl⟩

end Configuration

end LeaseLock.Config
