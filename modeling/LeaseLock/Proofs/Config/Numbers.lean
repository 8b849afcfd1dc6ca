import LeaseLock.Config.Pool
import LeaseLock.Proofs.Number.Integer
import Mathlib.Algebra.Group.Int.Defs

namespace LeaseLock.Config

namespace Value

theorem roundFloat_mem (x : Binary64) :
    -(greatest : Int) - 1 ≤ roundFloat x ∧ roundFloat x ≤ greatest := by
  have hgreatest : (0 : Int) ≤ greatest := Int.natCast_nonneg _
  rw [roundFloat]
  split
  · omega
  · split
    · split <;> omega
    · omega

theorem toInt?_mem {v : Value} {n : Int} (h : v.toInt? = some n) : -2 ^ 63 ≤ n ∧ n < 2 ^ 63 := by
  have hgreatest : (greatest : Int) = 2 ^ 63 - 1 := by decide
  suffices hmem : -(greatest : Int) - 1 ≤ n ∧ n ≤ greatest by
    omega
  cases v with
  | bool b =>
    cases h
    cases b <;> decide
  | integer i =>
    simp only [toInt?, Option.ite_none_right_eq_some, Option.some.injEq] at h
    obtain ⟨hrange, rfl⟩ := h
    exact hrange
  | float x =>
    cases h
    exact roundFloat_mem x
  | text s =>
    simp only [toInt?] at h
    split at h
    · cases h
      decide
    · split at h
      · cases h
        decide
      · cases hread : readInt greatest s with
        | error _ => rw [hread] at h; cases h
        | ok i =>
          rw [hread] at h
          cases h
          exact readInt_mem hread
  | nil => cases h
  | list items => cases h
  | table members => cases h

end Value

/-- What is given for an integer in a field of so many values: the default if there is none, and else
the remainder, which is the integer itself just if it is one of those values. -/
def Reduced (values default : Int) (asked : Option Int) (given : Int) : Prop :=
  match asked with
  | none => given = default
  | some n => given = n % values ∧ (given = n ↔ 0 ≤ n ∧ n < values)

theorem emod_eq_self_iff {n values : Int} (h : 0 < values) : n % values = n ↔ 0 ≤ n ∧ n < values := by
  constructor
  · intro hself
    rw [← hself]
    exact ⟨Int.emod_nonneg n (Int.ne_of_gt h), Int.emod_lt_of_pos n h⟩
  · rintro ⟨hnonneg, hlt⟩
    exact Int.emod_eq_of_lt hnonneg hlt

theorem reduced_emod {values : Int} (h : 0 < values) (default n : Int) :
    Reduced values default (some n) (n % values) := ⟨rfl, emod_eq_self_iff h⟩

namespace Configuration

theorem connections_reduced (c : Configuration) (key : Key) (default : UInt32) :
    Reduced (2 ^ 32) default.toNat (c.int? key) (c.connections key default).toNat := by
  rw [connections]
  cases c.int? key with
  | none => rfl
  | some n =>
    have hword : ((UInt32.ofNat (n % UInt32.size).toNat).toNat : Int) = n % 2 ^ 32 := by
      rw [UInt32.toNat_ofNat', show (UInt32.size : Int) = 2 ^ 32 from rfl]
      omega
    simp only [hword]
    exact reduced_emod (by decide) _ n

theorem timeout_reduced (c : Configuration) (key : Key) (default : UInt64) :
    ∃ seconds, c.timeout key default = .ofSeconds seconds ∧
      Reduced (2 ^ 64) default.toNat (c.int? key) seconds.toNat := by
  rw [timeout]
  cases c.int? key with
  | none => exact ⟨default, rfl, rfl⟩
  | some n =>
    have hword : ((UInt64.ofNat (n % UInt64.size).toNat).toNat : Int) = n % 2 ^ 64 := by
      rw [UInt64.toNat_ofNat', show (UInt64.size : Int) = 2 ^ 64 from rfl]
      omega
    refine ⟨_, rfl, ?_⟩
    rw [hword]
    exact reduced_emod (by decide) _ n

end Configuration

namespace Pool

variable {c : Configuration} {pool : Pool}

theorem eq_ofConfiguration_of_open? (h : open? c = .ok pool) :
    ∃ dialect, pool = ofConfiguration c dialect := by
  rw [open?] at h
  cases hurl : c.databaseUrl with
  | none =>
    rw [hurl] at h
    cases h
  | some url =>
    simp only [hurl] at h
    cases hdialect : dialect? url with
    | none =>
      simp only [hdialect] at h
      cases h
    | some dialect =>
      simp only [hdialect] at h
      cases dialect with
      | sqlite =>
        cases hdatabase : Sql.Embedded.ofUrl? url with
        | none =>
          simp only [hdatabase] at h
          cases h
        | some database =>
          simp only [hdatabase] at h
          refine ⟨.sqlite, ?_⟩
          split at h
          · cases h
          · split at h
            · exact (Except.ok.inj h).symm
            · cases h
      | _ => cases h

/-- A number of connections is as it was set if it is at least zero and below 2 ^ 32, a number of
seconds if it is not negative. Of any other integer the remainder is taken. The pool has the number
for its maximum, and for its minimum the smaller of both. -/
theorem numbers_of_configuration (c : Configuration) :
    Reduced (2 ^ 32) 10 (c.int? .maxConnections) c.maxConnections.toNat ∧
    Reduced (2 ^ 32) 1 (c.int? .minConnections) c.minConnections.toNat ∧
    (∃ seconds, c.connectTimeout = .ofSeconds seconds ∧
      Reduced (2 ^ 64) 10 (c.int? .connectTimeout) seconds.toNat) ∧
    (∃ seconds, c.acquireTimeout = .ofSeconds seconds ∧
      Reduced (2 ^ 64) 5 (c.int? .acquireTimeout) seconds.toNat) ∧
    (∀ key n, c.int? key = some n → -2 ^ 63 ≤ n ∧ n < 2 ^ 63) ∧
    (∀ pool, open? c = .ok pool → ∃ dialect, pool = ofConfiguration c dialect) ∧
    ∀ dialect, (ofConfiguration c dialect).maxConnections = c.maxConnections ∧
      (ofConfiguration c dialect).minConnections = min c.minConnections c.maxConnections := by
  refine ⟨c.connections_reduced .maxConnections 10, c.connections_reduced .minConnections 1,
    c.timeout_reduced .connectTimeout 10, c.timeout_reduced .acquireTimeout 5, ?_,
    fun _ => eq_ofConfiguration_of_open?, fun _ => ⟨rfl, rfl⟩⟩
  intro key n hn
  obtain ⟨v, -, hv⟩ := Option.bind_eq_some_iff.mp hn
  exact Value.toInt?_mem hv

def crowded : List (String × String) :=
  [("LEASEHOLD__DB__URL", "sqlite::memory:"), ("LEASEHOLD__DB__POOL__MAX_CONNECTIONS", "4294967297"),
    ("LEASEHOLD__DB__POOL__CONNECT_TIMEOUT_SECS", "-1")]

/-- A maximum beyond the field leaves a pool of one connection, and a negative time to wait is the
longest one. -/
theorem crowded_pool_of_one :
    (Configuration.load? ⟨"leasehold.yml", none⟩ crowded none).map (fun c =>
        (c.int? .maxConnections, c.maxConnections, c.int? .connectTimeout, c.connectTimeout.seconds)) =
      some (some 4294967297, 1, some (-1), 18446744073709551615) ∧
    ((Configuration.load? ⟨"leasehold.yml", none⟩ crowded none).bind fun c =>
        (open? c).toOption.map Pool.maxConnections) = some 1 := by
  decide +kernel

end Pool

end LeaseLock.Config
