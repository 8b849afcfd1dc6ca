/-!
Programs that ask an environment for effects: a finite tree on every path, which goes on according
to the reply to each question.
-/

namespace LeaseLock

inductive Interaction (Effect : Type) (Reply : Effect → Type) (α : Type)
  | done (answer : α)
  | ask (effect : Effect) (next : Reply effect → Interaction Effect Reply α)

namespace Interaction

variable {Effect : Type} {Reply : Effect → Type} {α β : Type}

def bind : Interaction Effect Reply α → (α → Interaction Effect Reply β) →
    Interaction Effect Reply β
  | .done a, f => f a
  | .ask effect next, f => .ask effect fun reply => (next reply).bind f

instance : Monad (Interaction Effect Reply) where
  pure := .done
  bind := bind

def query (effect : Effect) : Interaction Effect Reply (Reply effect) := .ask effect .done

@[simp] theorem bind_done (a : α) (f : α → Interaction Effect Reply β) :
    (done a : Interaction Effect Reply α).bind f = f a := rfl

end Interaction

end LeaseLock
