import LeaseLock.Proofs.Store.Database

namespace LeaseLock.Sql

inductive Statement
  | acquire
  | release
  | renew
  | isHeld
  deriving DecidableEq, Repr

inductive Value
  | text (text : String)
  | integer (n : Int)
  deriving DecidableEq, Repr

def Statements.text (s : Statements) : Statement → String
  | .acquire => s.acquire
  | .release => s.release
  | .renew => s.renew
  | .isHeld => s.isHeld

def Statement.arity : Statement → Nat
  | .acquire => 6
  | .release => 3
  | .renew => 6
  | .isHeld => 1

def Statement.ofCall? : Call → Option Statement
  | .acquire _ => some .acquire
  | .release _ _ _ => some .release
  | .renew _ _ _ _ => some .renew
  | .isHeld _ => some .isHeld
  | .probe | .close => none

def LeaseTable.execute (t : LeaseTable) (now : Int) : Statement → List Value → LeaseTable
  | .acquire, [.text key, .text leaseId, .text nonce, .integer padded, .integer ttl,
      .text metadata] => (t.acquire now ⟨key, leaseId, nonce, .zero, metadata⟩ padded ttl).2
  | .release, [.text key, .text leaseId, .text nonce] => (t.release key leaseId nonce).2
  | .renew, [.integer padded, .integer ttl, .text newNonce, .text key, .text leaseId,
      .text nonce] => (t.renew now key leaseId nonce padded ttl newNonce).2
  | _, _ => t

namespace Store

def values (newNonce : String) : Call → Outcome (List Value)
  | .acquire claim => do
    let (padded, ttl) ← spans claim.ttl
    return [.text claim.key, .text claim.leaseId, .text claim.nonce, .integer padded, .integer ttl,
      .text claim.metadata]
  | .release key leaseId nonce => return [.text key, .text leaseId, .text nonce]
  | .renew key leaseId nonce ttl => do
    let (padded, ttl) ← spans ttl
    return [.integer padded, .integer ttl, .text newNonce, .text key, .text leaseId, .text nonce]
  | .isHeld key => return [.text key]
  | .probe | .close => return []

theorem values_acquire {claim : Claim} {newNonce : String} {vs : List Value}
    (h : values newNonce (.acquire claim) = .ok vs) :
    ∃ padded ttl, spans claim.ttl = .ok (padded, ttl) ∧
      vs = [.text claim.key, .text claim.leaseId, .text claim.nonce, .integer padded, .integer ttl,
        .text claim.metadata] := by
  obtain ⟨⟨padded, ttl⟩, hspans, h⟩ := Outcome.bind_eq_ok.mp h
  cases h
  exact ⟨padded, ttl, hspans, rfl⟩

theorem values_renew {key leaseId nonce newNonce : String} {ttl : Span} {vs : List Value}
    (h : values newNonce (.renew key leaseId nonce ttl) = .ok vs) :
    ∃ padded whole, spans ttl = .ok (padded, whole) ∧
      vs = [.integer padded, .integer whole, .text newNonce, .text key, .text leaseId,
        .text nonce] := by
  obtain ⟨⟨padded, whole⟩, hspans, h⟩ := Outcome.bind_eq_ok.mp h
  cases h
  exact ⟨padded, whole, hspans, rfl⟩

variable {call : Call} {newNonce : String} {statement : Statement} {vs : List Value}

theorem length_values (hcall : Statement.ofCall? call = some statement)
    (h : values newNonce call = .ok vs) : vs.length = statement.arity := by
  cases call with
  | acquire claim =>
    obtain ⟨padded, ttl, -, rfl⟩ := values_acquire h
    cases hcall
    rfl
  | renew key leaseId nonce ttl =>
    obtain ⟨padded, whole, -, rfl⟩ := values_renew h
    cases hcall
    rfl
  | release key leaseId nonce | isHeld key =>
    cases h
    cases hcall
    rfl
  | probe | close => cases hcall

theorem state_applyAt {s : Store} {t : LeaseTable} (now : Int) (htable : s.table = .ok t)
    (hcall : Statement.ofCall? call = some statement) (h : values newNonce call = .ok vs) :
    (s.applyAt now newNonce call).state = s.withTable (t.execute now statement vs) := by
  cases call with
  | acquire claim =>
    obtain ⟨padded, ttl, hspans, rfl⟩ := values_acquire h
    cases hcall
    have hprepared : s.prepared claim.ttl = .ok ((padded, ttl), t) :=
      prepared_eq_ok.mpr ⟨hspans, htable⟩
    change _ = s.withTable (t.acquire now claim padded ttl).2
    rw [applyAt, acquire, hprepared, attempt_ok]
    dsimp only
    rcases t.acquire now claim padded ttl with ⟨_ | validUntil, table⟩ <;> rfl
  | release key leaseId nonce =>
    cases h
    cases hcall
    rw [applyAt, release, htable, attempt_ok]
    rfl
  | renew key leaseId nonce ttl =>
    obtain ⟨padded, whole, hspans, rfl⟩ := values_renew h
    cases hcall
    have hprepared : s.prepared ttl = .ok ((padded, whole), t) :=
      prepared_eq_ok.mpr ⟨hspans, htable⟩
    change _ = s.withTable (t.renew now key leaseId nonce padded whole newNonce).2
    rw [applyAt, renew, hprepared, attempt_ok]
    dsimp only
    rcases t.renew now key leaseId nonce padded whole newNonce with ⟨_ | validUntil, table⟩ <;> rfl
  | isHeld key =>
    cases h
    cases hcall
    exact (withTable_self htable).symm
  | probe | close => cases hcall

end Store

end LeaseLock.Sql
