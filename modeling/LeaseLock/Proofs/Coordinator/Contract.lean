import LeaseLock.Interaction

/-!
What a program keeps to whatever the replies are. A contract says which questions may be asked in a
state, which replies are reckoned with, and to which state a reply leads.
-/

namespace LeaseLock

structure Contract (Effect : Type) (Reply : Effect → Type) (σ : Type) where
  permits : σ → Effect → Prop
  allows : (effect : Effect) → Reply effect → Prop
  next : σ → (effect : Effect) → Reply effect → σ

namespace Interaction

variable {Effect : Type} {Reply : Effect → Type} {σ α β : Type} {C : Contract Effect Reply σ}
  {post last : σ → α → Prop} {s : σ}

/-- Asks only what the contract permits, and ends with an answer that fits the state. -/
def Keeps (C : Contract Effect Reply σ) (post : σ → α → Prop) :
    σ → Interaction Effect Reply α → Prop
  | s, .done answer => post s answer
  | s, .ask effect next => C.permits s effect ∧
      ∀ reply, C.allows effect reply → Keeps C post (C.next s effect reply) (next reply)

theorem keeps_done {a : α} : Keeps C post s (done a) ↔ post s a := Iff.rfl

theorem keeps_ask {effect : Effect} {next : Reply effect → Interaction Effect Reply α} :
    Keeps C post s (ask effect next) ↔ C.permits s effect ∧
      ∀ reply, C.allows effect reply → Keeps C post (C.next s effect reply) (next reply) := Iff.rfl

-- comparing programs by evaluation would run their arithmetic
attribute [irreducible] Keeps

theorem keeps_pure {a : α} (h : post s a) : Keeps C post s (pure a) := keeps_done.mpr h

theorem keeps_query {effect : Effect} {f : Reply effect → Interaction Effect Reply α}
    (hpermits : C.permits s effect)
    (hnext : ∀ reply, C.allows effect reply → Keeps C post (C.next s effect reply) (f reply)) :
    Keeps C post s (query effect >>= f) := keeps_ask.mpr ⟨hpermits, hnext⟩

theorem Keeps.bind {x : Interaction Effect Reply α} {f : α → Interaction Effect Reply β}
    {last : σ → β → Prop} (h : Keeps C (fun t a => Keeps C last t (f a)) s x) :
    Keeps C last s (x >>= f) := by
  induction x generalizing s with
  | done a =>
    have hnext := keeps_done.mp h
    exact hnext
  | ask effect next ih =>
    obtain ⟨hpermits, hnext⟩ := keeps_ask.mp h
    exact keeps_ask.mpr ⟨hpermits, fun reply hallows => ih reply (hnext reply hallows)⟩

theorem Keeps.imp {x : Interaction Effect Reply α} (h : Keeps C post s x)
    (himp : ∀ t a, post t a → last t a) : Keeps C last s x := by
  induction x generalizing s with
  | done a => exact keeps_done.mpr (himp s a (keeps_done.mp h))
  | ask effect next ih =>
    obtain ⟨hpermits, hnext⟩ := keeps_ask.mp h
    exact keeps_ask.mpr ⟨hpermits, fun reply hallows => ih reply (hnext reply hallows)⟩

end Interaction

end LeaseLock
