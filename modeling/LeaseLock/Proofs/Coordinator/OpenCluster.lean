import LeaseLock.Coordinator.Basic
import LeaseLock.Proofs.Store.Refusal

/-!
Operations of any number of coordinators side by side on one store. Each move starts an operation,
answers the next question of one, or purges the store. No coordinator is closed.
-/

namespace LeaseLock

inductive Request
  | acquire (key : String) (terms : Terms)
  | release (token : Token)
  | renew (token : Token) (ttl : Span)
  | isHeld (token : Token)

namespace Request

@[reducible] def Answer : Request → Type
  | .acquire _ _ => Token
  | .release _ => Unit
  | .renew _ _ => Token
  | .isHeld _ => Holding

def program (c : Coordinator) : (r : Request) → Program (Outcome r.Answer)
  | .acquire key terms => Coordinator.acquire key terms
  | .release token => c.release token
  | .renew token ttl => c.renew token ttl
  | .isHeld token => c.isHeld token

end Request

structure Task where
  request : Request
  rest : Program (Outcome request.Answer)

/-- How a call on the store goes: it is answered within its limit, or given up after or before it took
effect. -/
inductive Delivery
  | answered
  | lost
  | dropped

/-- What one question meets. The identifier is minted by an operation or by the store. -/
structure EffectInput where
  reading : Int
  inCalendar : Instant.earliest.nanos ≤ reading ∧ reading ≤ Instant.latest.nanos
  id : String
  word : UInt64
  ticks : Int
  delivery : Delivery

def Backing.respond (b : Backing) (w : EffectInput) : (effect : Effect) → effect.Reply × Backing
  | .call _ call =>
    let result := b.applyAt w.reading w.id call
    match w.delivery with
    | .answered => (.answered result.outcome, result.state)
    | .lost => (.timedOut, result.state)
    | .dropped => (.timedOut, b)
  | .mint => (w.id, b)
  | .drawWord => (w.word, b)
  | .readClock => (w.ticks, b)
  | .isClosed => (false, b)
  | .markClosed => (false, b)
  | .pause _ => ((), b)
  | .count _ => ((), b)
  | .recordDuration _ => ((), b)
  | .report _ => ((), b)

namespace Backing

variable {b : Backing}

theorem respond_state (b : Backing) (w : EffectInput) (effect : Effect) :
    (b.respond w effect).2 = b ∨ ∃ limit call, effect = .call limit call ∧
      (b.respond w effect).2 = (b.applyAt w.reading w.id call).state := by
  cases effect with
  | call limit call =>
    unfold respond
    cases w.delivery with
    | answered => exact .inr ⟨limit, call, rfl, rfl⟩
    | lost => exact .inr ⟨limit, call, rfl, rfl⟩
    | dropped => exact .inl rfl
  | mint => exact .inl rfl
  | pause delay => exact .inl rfl
  | drawWord => exact .inl rfl
  | readClock => exact .inl rfl
  | count counter => exact .inl rfl
  | recordDuration seconds => exact .inl rfl
  | report event => exact .inl rfl
  | isClosed => exact .inl rfl
  | markClosed => exact .inl rfl

theorem Sound.respond (hsound : b.Sound) (w : EffectInput) (effect : Effect) :
    (b.respond w effect).2.Sound := by
  obtain hsame | ⟨_, call, -, hstate⟩ := respond_state b w effect
  · rw [hsame]
    exact hsound
  · rw [hstate]
    exact hsound.applyAt _ _ _

end Backing

namespace Task

def start (c : Coordinator) (request : Request) : Task := ⟨request, request.program c⟩

def advance (t : Task) (b : Backing) (w : EffectInput) : Task × Backing :=
  match t with
  | ⟨_, .done _⟩ => (t, b)
  | ⟨request, Interaction.ask effect next⟩ =>
    (⟨request, next (b.respond w effect).1⟩, (b.respond w effect).2)

def token? : Task → Option Token
  | ⟨.acquire _ _, .done (.ok token)⟩ => some token
  | ⟨.renew _ _, .done (.ok token)⟩ => some token
  | _ => none

end Task

structure OpenCluster where
  store : Backing
  tasks : List Task

inductive Move
  | start (c : Coordinator) (request : Request)
  | advance (task : Nat) (w : EffectInput)
  | purge (reading : Int)

def Move.id? : Move → Option String
  | .advance _ w => some w.id
  | _ => none

def Move.task? : Move → Option Nat
  | .advance i _ => some i
  | _ => none

theorem Move.eq_advance_of_task? {m : Move} {n : Nat} (h : m.task? = some n) :
    ∃ w, m = .advance n w := by
  cases m with
  | start c request => cases h
  | purge reading => cases h
  | advance i w =>
    cases h
    exact ⟨w, rfl⟩

theorem count_filterMap_own {α : Type} {f : α → Option Nat} {a : α} {n : Nat} (h : f a = some n)
    (rest : List α) : ((a :: rest).filterMap f).count n = (rest.filterMap f).count n + 1 := by
  rw [List.filterMap_cons_some h, List.count_cons_self]

theorem count_filterMap_other {α : Type} {f : α → Option Nat} {a : α} {n : Nat} (h : f a ≠ some n)
    (rest : List α) : ((a :: rest).filterMap f).count n = (rest.filterMap f).count n := by
  cases ha : f a with
  | none => rw [List.filterMap_cons_none ha]
  | some m =>
    rw [List.filterMap_cons_some ha, List.count_cons_of_ne]
    rintro rfl
    exact h ha

namespace OpenCluster

def opened (b : Backing) : OpenCluster := ⟨b, []⟩

def step (s : OpenCluster) : Move → OpenCluster
  | .start c request => { s with tasks := s.tasks ++ [.start c request] }
  | .advance i w =>
    match s.tasks[i]? with
    | none => s
    | some t => ⟨(t.advance s.store w).2, s.tasks.set i (t.advance s.store w).1⟩
  | .purge reading => { s with store := s.store.purgeAt reading }

def run (s : OpenCluster) (moves : List Move) : OpenCluster := moves.foldl step s

def Issued (s : OpenCluster) (i : Nat) (token : Token) : Prop :=
  ∃ t, s.tasks[i]? = some t ∧ t.token? = some token

theorem started (s : OpenCluster) (c : Coordinator) (request : Request) :
    (s.step (.start c request)).tasks[s.tasks.length]? = some ⟨request, request.program c⟩ := by
  simp only [step]
  rw [List.getElem?_append_right (Nat.le_refl _), Nat.sub_self]
  rfl

theorem run_append (s : OpenCluster) (first second : List Move) :
    s.run (first ++ second) = (s.run first).run second := List.foldl_append

end OpenCluster

end LeaseLock
