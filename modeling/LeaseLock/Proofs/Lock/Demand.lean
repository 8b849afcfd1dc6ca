import LeaseLock.Lock.Terms
import LeaseLock.Proofs.Number.Binary64

namespace LeaseLock

structure Demand where
  met : Prop
  fault : Fault

def Enforces (check : Except Fault Unit) : List Demand → Prop
  | [] => check = .ok ()
  | d :: later => (d.met → Enforces check later) ∧ (¬d.met → check = .error d.fault)

section

variable {check first second : Except Fault Unit} {d : Demand} {demands later : List Demand}

theorem enforces_one {p met : Prop} [Decidable p] {fault : Fault} (h : p ↔ met) :
    Enforces (if p then .ok () else .error fault) [⟨met, fault⟩] := by
  constructor
  · intro hmet
    exact if_pos (h.mpr hmet)
  · intro hmet
    exact if_neg (mt h.mp hmet)

theorem enforces_cons {p met : Prop} [Decidable p] {fault : Fault} (h : p ↔ ¬met)
    (hlater : Enforces check later) :
    Enforces (if p then .error fault else check) (⟨met, fault⟩ :: later) := by
  constructor
  · intro hmet
    rw [if_neg fun hp => h.mp hp hmet]
    exact hlater
  · intro hmet
    exact if_pos (h.mpr hmet)

theorem Enforces.seq (hfirst : Enforces first demands) (hsecond : Enforces second later) :
    Enforces (do first; second) (demands ++ later) := by
  induction demands with
  | nil =>
    rw [show first = .ok () from hfirst]
    exact hsecond
  | cons d demands ih =>
    constructor
    · intro hmet
      exact ih (hfirst.1 hmet)
    · intro hmet
      rw [hfirst.2 hmet]
      rfl

theorem Enforces.ok_iff (h : Enforces check demands) : check = .ok () ↔ ∀ d ∈ demands, d.met := by
  induction demands with
  | nil =>
    rw [show check = .ok () from h]
    simp
  | cons d demands ih =>
    by_cases hmet : d.met
    · rw [ih (h.1 hmet)]
      simp [hmet]
    · rw [h.2 hmet]
      simp [hmet]

theorem Enforces.error_of_first {before after : List Demand}
    (h : Enforces check (before ++ d :: after)) (hbefore : ∀ e ∈ before, e.met) (hd : ¬d.met) :
    check = .error d.fault := by
  induction before with
  | nil => exact h.2 hd
  | cons e before ih =>
    apply ih (h.1 (hbefore e List.mem_cons_self))
    exact fun e he => hbefore e (List.mem_cons_of_mem _ he)

end

def keyDemand (key : String) : Demand where
  met := 1 ≤ key.length ∧ key.length ≤ 256 ∧
    ∀ c ∈ key.toList, c.isAlphanum = true ∨ c = '_' ∨ c = '-'
  fault := .invalidKey key

def ttlDemand (ttl : Span) : Demand where
  met := 1 * nanosPerMilli ≤ ttl.nanos ∧ ttl.nanos ≤ 600 * nanosPerSecond
  fault := .invalidTtl ttl

theorem isKeyChar_iff (c : Char) : isKeyChar c = true ↔ c.isAlphanum = true ∨ c = '_' ∨ c = '-' := by
  have hranges : c.isAlphanum = (decide ('A' ≤ c ∧ c ≤ 'Z') ||
      (decide ('a' ≤ c) && decide (c ≤ 'z')) || (decide ('0' ≤ c) && decide (c ≤ '9'))) := rfl
  rw [hranges]
  simp only [isKeyChar, decide_eq_true_eq, Bool.or_eq_true, Bool.and_eq_true, or_assoc]
  exact or_left_comm

theorem enforces_checkKey (key : String) : Enforces (checkKey key) [keyDemand key] := by
  apply enforces_one
  simp only [isValidKey, Bool.and_eq_true, decide_eq_true_eq, List.all_eq_true, isKeyChar_iff,
    and_assoc]
  exact Iff.rfl

theorem enforces_checkTtl (ttl : Span) : Enforces (checkTtl ttl) [ttlDemand ttl] := by
  apply enforces_one
  rw [isValidTtl, decide_eq_true_eq]
  exact Iff.rfl

namespace Backoff

def demands (b : Backoff) : List Demand :=
  [⟨0 < b.base.nanos, .invalidBackoff "base delay must be > 0"⟩,
    ⟨b.base.nanos ≤ b.cap.nanos, .invalidBackoff "max delay must be ≥ base delay"⟩,
    ⟨b.jitter.isFinite = true ∧ 0 ≤ b.jitter.value ∧ b.jitter.value ≤ Binary64.one,
      .invalidBackoff "jitter factor must be [0.0, 1.0]"⟩,
    ⟨b.growth.isFinite = true ∧ Binary64.one ≤ b.growth.value,
      .invalidBackoff "backoff factor must be ≥ 1"⟩]

theorem enforces_check (b : Backoff) : Enforces b.check b.demands := by
  rw [check, demands]
  apply enforces_cons
  · simp [Span.isZero]
  apply enforces_cons
  · exact Nat.not_le.symm
  apply enforces_cons
  · rw [Bool.not_eq_true', Bool.eq_false_iff, Ne, Binary64.between_zero_one_iff]
  apply enforces_cons
  · rw [Bool.not_eq_true', Bool.eq_false_iff, Ne, Binary64.one_le_iff]
  exact rfl

end Backoff

theorem Terms.enforces_check (t : Terms) : Enforces t.check (ttlDemand t.ttl :: t.backoff.demands) :=
  (enforces_checkTtl t.ttl).seq t.backoff.enforces_check

theorem Terms.check_backoff {t : Terms} (h : t.check = .ok ()) : t.backoff.check = .ok () := by
  have hmet := t.enforces_check.ok_iff.mp h
  exact t.backoff.enforces_check.ok_iff.mpr fun d hd => hmet d (List.mem_cons_of_mem _ hd)

end LeaseLock
