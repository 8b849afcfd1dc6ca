import LeaseLock.Proofs.Config.Environment
import Mathlib.Data.List.Induction

namespace LeaseLock.Config

namespace Value

mutual

def isMap : Value → Bool
  | .table members => decide (members.map Prod.fst).Nodup && areMaps members
  | _ => true

def areMaps : List (String × Value) → Bool
  | [] => true
  | (_, value) :: rest => value.isMap && areMaps rest

end

variable {name : String} {earlier members : List (String × Value)}

theorem lookup_of_not_mem (h : name ∉ earlier.map Prod.fst) : earlier.lookup name = none := by
  rw [List.lookup_eq_none_iff]
  intro m hm
  rw [bne_iff_ne]
  rintro rfl
  exact h (List.mem_map_of_mem hm)

theorem put_of_not_mem (h : name ∉ earlier.map Prod.fst) (value : Value) :
    put name value earlier = earlier ++ [(name, value)] := by
  induction earlier with
  | nil => rfl
  | cons m rest ih =>
    obtain ⟨first, inner⟩ := m
    simp only [List.map_cons, List.mem_cons, not_or] at h
    rw [put, if_neg h.1, ih h.2]
    rfl

mutual

theorem overlay_none : (value : Value) → value.isMap = true → overlay none value = value
  | .table [], _ => by
    rw [overlay]
    rfl
  | .table (m :: members), h => by
    simp only [isMap, Bool.and_eq_true, decide_eq_true_eq] at h
    rw [overlay]
    · exact congrArg Value.table (overlayMembers_of_distinct (m :: members) [] h.2 h.1)
    · simp
  | .nil, _ | .bool _, _ | .integer _, _ | .float _, _ | .text _, _ | .list _, _ =>
    overlay_of_not_table rfl none

theorem overlayMembers_of_distinct : (members earlier : List (String × Value)) →
    areMaps members = true → ((earlier ++ members).map Prod.fst).Nodup →
      overlayMembers earlier members = earlier ++ members
  | [], earlier, _, _ => by rw [overlayMembers, List.append_nil]
  | (name, value) :: rest, earlier, hmaps, hdistinct => by
    simp only [areMaps, Bool.and_eq_true] at hmaps
    have hnew : name ∉ earlier.map Prod.fst := by
      rw [List.map_append, List.map_cons] at hdistinct
      intro hmem
      exact (List.nodup_append.mp hdistinct).2.2 name hmem name List.mem_cons_self rfl
    rw [overlayMembers, lookup_of_not_mem hnew, overlay_none value hmaps.1, put_of_not_mem hnew,
      overlayMembers_of_distinct rest _ hmaps.2 (by rwa [List.append_assoc]), List.append_assoc]
    rfl

end

end Value

namespace Environment

variable {name : String} {key : Key} {environment : List (String × String)}

instance (name : String) (key : Key) : Decidable (Names name key) :=
  decidable_of_iff ((key? name).map Path.steps = some (key.path.map .member))
    Option.map_eq_some_iff

def IsKnown (name : String) : Prop := key? name = none ∨ ∃ key ∈ Key.all, Names name key

instance (name : String) : Decidable (IsKnown name) :=
  inferInstanceAs (Decidable (_ ∨ ∃ key ∈ Key.all, Names name key))

def text? (environment : List (String × String)) (key : Key) : Option String :=
  (environment.reverse.find? fun v => decide (Names v.1 key)).map Prod.snd

theorem IsKnown.spares (h : IsKnown name) (hnot : ¬Names name key) : Spares name key := by
  obtain hnone | ⟨other, -, hnames⟩ := h
  · intro setting hsetting
    cases hnone.symm.trans hsetting
  · apply hnames.spares
    rintro rfl
    exact hnot hnames

theorem text?_concat (environment : List (String × String)) (name text : String) (key : Key) :
    text? (environment ++ [(name, text)]) key =
      if Names name key then some text else text? environment key := by
  rw [text?, List.reverse_concat, List.find?_cons]
  by_cases h : Names name key
  · simp only [h, decide_true, if_true, Option.map_some]
  · simp only [h, decide_false, if_false, text?]

end Environment

namespace Configuration

variable {file : File} {settings : List (String × Value)} {environment : List (String × String)}
  {c : Configuration} {key : Key}

theorem find?_setAll_environment (c : Configuration) (key : Key)
    (h : ∀ v ∈ environment, Environment.IsKnown v.1) :
    (c.setAll (Environment.settings environment)).find? key =
      ((Environment.text? environment key).map Environment.value).or (c.find? key) := by
  induction environment using List.reverseRecOn with
  | nil => rfl
  | append_singleton before v ih =>
    obtain ⟨name, text⟩ := v
    obtain ⟨hbefore, hlast⟩ := List.forall_mem_append.mp h
    rw [Environment.text?_concat]
    by_cases hnames : Environment.Names name key
    · have hafter : ∀ v ∈ ([] : List (String × String)), Environment.Spares v.1 key := nofun
      rw [if_pos hnames]
      exact find?_setAll_of_names hnames text before hafter
    · have hspares : Environment.Spares name key :=
        (hlast _ List.mem_cons_self).spares hnames
      rw [if_neg hnames, Environment.settings_append, setAll_append,
        find?_setAll_of_spares (by simpa using hspares)]
      exact ih hbefore

theorem root_setAll_of_plain (hplain : ∀ s ∈ settings, Path.steps s.1 = [.member s.1])
    {members : List (String × Value)} (hroot : c.root = .table members) :
    (c.setAll settings).root = .table (Value.overlayMembers members settings) := by
  induction settings generalizing c members with
  | nil => rw [Value.overlayMembers]; exact hroot
  | cons s rest ih =>
    obtain ⟨name, value⟩ := s
    obtain ⟨hname, hrest⟩ := List.forall_mem_cons.mp hplain
    have hset : (c.set name value).root =
        .table (Value.put name (Value.overlay (members.lookup name) value) members) := by
      rw [set_eq, hname, hroot]
      rfl
    rw [Value.overlayMembers]
    exact ih hrest hset

theorem root_setAll_of_isMap (hplain : ∀ s ∈ settings, Path.steps s.1 = [.member s.1])
    (hmap : (Value.table settings).isMap = true) :
    (empty.setAll settings).root = .table settings := by
  simp only [Value.isMap, Bool.and_eq_true, decide_eq_true_eq] at hmap
  have hempty : empty.root = .table [] := rfl
  rw [root_setAll_of_plain hplain hempty,
    Value.overlayMembers_of_distinct settings [] hmap.2 hmap.1, List.nil_append]

def layered (alone : Configuration) (environment : List (String × String)) (url : Option String)
    (key : Key) : Option Value :=
  (if key = .databaseUrl then url.map Value.text else none).or
    (((Environment.text? environment key).map Environment.value).or (alone.find? key))

/-- Each setting as the program reads it, given the value seen for it: what that converts to, or its
default if there is no value or it does not convert. -/
structure Shows (c : Configuration) (seen : Key → Option Value) : Prop where
  databaseUrl : c.databaseUrl = ((seen .databaseUrl).bind Value.toText?).filter (!·.isEmpty)
  logLevel : c.logLevel = ((seen .logLevel).bind Value.toText?).getD "info"
  maxConnections : c.maxConnections =
    (((seen .maxConnections).bind Value.toInt?).map UInt32.ofInt).getD 10
  minConnections : c.minConnections =
    (((seen .minConnections).bind Value.toInt?).map UInt32.ofInt).getD 1
  connectTimeout : c.connectTimeout =
    .ofSeconds ((((seen .connectTimeout).bind Value.toInt?).map UInt64.ofInt).getD 10)
  acquireTimeout : c.acquireTimeout =
    .ofSeconds ((((seen .acquireTimeout).bind Value.toInt?).map UInt64.ofInt).getD 5)
  logsStatements : c.logsStatements = ((seen .statementLogging).bind Value.toBool?).getD false
  storeSettings : c.storeSettings =
    { lockSchema := ((seen .lockSchema).bind Value.toText?).getD "public"
      lockTable := ((seen .lockTable).bind Value.toText?).getD "locker_locks"
      migrationSchema := ((seen .migrationSchema).bind Value.toText?).getD "public"
      migrationTable := ((seen .migrationTable).bind Value.toText?).getD "locker_migrations" }

theorem connections_eq (c : Configuration) (key : Key) (default : UInt32) :
    c.connections key default = ((c.int? key).map UInt32.ofInt).getD default := by
  rw [connections]
  cases c.int? key <;> rfl

theorem timeout_eq (c : Configuration) (key : Key) (default : UInt64) :
    c.timeout key default = .ofSeconds (((c.int? key).map UInt64.ofInt).getD default) := by
  rw [timeout]
  cases c.int? key <;> rfl

theorem shows_find? (c : Configuration) : c.Shows c.find? where
  databaseUrl := rfl
  logLevel := rfl
  maxConnections := c.connections_eq .maxConnections 10
  minConnections := c.connections_eq .minConnections 1
  connectTimeout := c.timeout_eq .connectTimeout 10
  acquireTimeout := c.timeout_eq .acquireTimeout 5
  logsStatements := rfl
  storeSettings := rfl

theorem find?_set_databaseUrl (c : Configuration) (url : String) (key : Key) :
    (c.set Key.databaseUrl.name (.text url)).find? key =
      if key = .databaseUrl then some (.text url) else c.find? key := by
  by_cases h : key = .databaseUrl
  · subst h
    rw [if_pos rfl, find?_set_self (Environment.steps_name _) rfl]
  · rw [if_neg h, find?_set_of_parts]
    rw [Environment.steps_name]
    exact Environment.parts_of_ne (Ne.symm h)

/-- Every setting is seen in the highest layer that has it, whatever stands beside it in any layer,
and is read as what is seen converts to, or as its default. A file that is a map with plain names at
the top is by itself what is loaded. -/
theorem load?_layered (hfile : file.settings? = some settings)
    (henvironment : ∀ v ∈ environment, Environment.IsKnown v.1) (url : Option String) :
    ∃ alone c, load? file [] none = some alone ∧
      ((∀ s ∈ settings, Path.steps s.1 = [.member s.1]) → (Value.table settings).isMap = true →
        alone.root = .table settings) ∧
      load? file environment url = some c ∧
      (∀ key, c.find? key = layered alone environment url key) ∧
      c.Shows (layered alone environment url) := by
  obtain ⟨c, hload, hfind⟩ : ∃ c, load? file environment url = some c ∧
      ∀ key, c.find? key = layered (empty.setAll settings) environment url key := by
    simp only [load?, hfile, Option.bind_eq_bind, Option.bind_some]
    cases url with
    | none =>
      refine ⟨_, rfl, fun key => ?_⟩
      rw [find?_setAll_environment _ key henvironment, layered]
      simp
    | some url =>
      refine ⟨_, rfl, fun key => ?_⟩
      rw [find?_set_databaseUrl, find?_setAll_environment _ key henvironment, layered]
      by_cases h : key = .databaseUrl <;> simp [h]
  have halone : load? file [] none = some (empty.setAll settings) := by
    simp only [load?, hfile]
    rfl
  refine ⟨_, c, halone, root_setAll_of_isMap, hload, hfind, ?_⟩
  rw [← funext hfind]
  exact c.shows_find?

def poolAndNumber : File :=
  ⟨"leasehold.yml", some "db:\n  url: sqlite:jobs.db\n  pool:\n    max_connections: 7\nlock: 5\n"⟩

def besideAndAbove : List (String × String) :=
  [("LEASEHOLD__DB__POOL__MIN_CONNECTIONS", "4"), ("PATH", "/bin"), ("leasehold__db__url", ""),
    ("LEASEHOLD__LOCK__TABLE", "jobs")]

theorem load?_layered_beside_and_above :
    ∃ c, load? poolAndNumber besideAndAbove none = some c ∧ c.maxConnections = 7 ∧
      c.minConnections = 4 ∧ c.databaseUrl = none ∧ c.storeSettings.lockTable = "jobs" ∧
      c.storeSettings.lockSchema = "public" := by
  obtain ⟨settings, hfile⟩ : ∃ settings, poolAndNumber.settings? = some settings :=
    Option.isSome_iff_exists.mp (by decide +kernel)
  have henvironment : ∀ v ∈ besideAndAbove, Environment.IsKnown v.1 := by decide +kernel
  obtain ⟨alone, c, halone, -, hload, -, hshows⟩ := load?_layered hfile henvironment none
  have hofFile (key : Key) (h : Environment.text? besideAndAbove key = none) :
      layered alone besideAndAbove none key = alone.find? key := by
    rw [layered, h]
    split <;> rfl
  have hofVariable (key : Key) (text : String)
      (h : Environment.text? besideAndAbove key = some text) :
      layered alone besideAndAbove none key = some (Environment.value text) := by
    rw [layered, h]
    split <;> rfl
  have hread : (load? poolAndNumber [] none).map
      (fun alone => (alone.int? .maxConnections, alone.text? .lockSchema)) =
        some (some 7, none) := by
    decide +kernel
  rw [halone, Option.map_some, Option.some.injEq, Prod.mk.injEq] at hread
  refine ⟨c, hload, ?_, ?_, ?_, ?_, ?_⟩
  · rw [hshows.maxConnections, hofFile .maxConnections (by decide +kernel), ← int?, hread.1]
    rfl
  · rw [hshows.minConnections, hofVariable .minConnections "4" (by decide +kernel)]
    rfl
  · rw [hshows.databaseUrl, hofVariable .databaseUrl "" (by decide +kernel)]
    rfl
  · rw [hshows.storeSettings, hofVariable .lockTable "jobs" (by decide +kernel)]
    rfl
  · rw [hshows.storeSettings, hofFile .lockSchema (by decide +kernel), ← text?, hread.2]
    rfl

end Configuration

end LeaseLock.Config
