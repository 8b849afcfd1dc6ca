import LeaseLock.Proofs.Coordinator.Contract
import LeaseLock.Proofs.Coordinator.OpenCluster
import Mathlib.Data.Sigma.Basic

/-!
Coordinators that can be closed, with their operations side by side on one store which others use as
well. Every operation keeps what it has heard.
-/

namespace LeaseLock

open Interaction

deriving instance DecidableEq for Request

inductive Operation
  | request (r : Request)
  | health
  | close
  deriving DecidableEq

namespace Operation

@[reducible] def Answer : Operation → Type
  | .request r => r.Answer
  | .health => HealthReport
  | .close => Unit

def program (c : Coordinator) : (o : Operation) → Program (Outcome o.Answer)
  | .request r => r.program c
  | .health => Coordinator.health
  | .close => Coordinator.close

end Operation

instance (o : Operation) : DecidableEq o.Answer :=
  match o with
  | .request (.acquire _ _) => inferInstanceAs (DecidableEq Token)
  | .request (.release _) => inferInstanceAs (DecidableEq Unit)
  | .request (.renew _ _) => inferInstanceAs (DecidableEq Token)
  | .request (.isHeld _) => inferInstanceAs (DecidableEq Holding)
  | .health => inferInstanceAs (DecidableEq HealthReport)
  | .close => inferInstanceAs (DecidableEq Unit)

theorem flatMap_set_perm {α β : Type} {f : α → List β} {l : List α} {i : Nat} {a b : α}
    {more : List β} (h : l[i]? = some a) (hf : f b = more ++ f a) :
    ((l.set i b).flatMap f).Perm (more ++ l.flatMap f) := by
  induction l generalizing i with
  | nil => cases h
  | cons x rest ih =>
    cases i with
    | zero =>
      cases h
      simp [hf]
    | succ i =>
      simp only [List.set_cons_succ, List.flatMap_cons]
      have hrest := ih (by simpa using h)
      exact (hrest.append_left (f x)).trans (List.perm_append_comm_assoc (f x) more _)

structure Exchange where
  effect : Effect
  reply : effect.Reply

inductive Leads (p : Program α) : List Exchange → Program α → Prop
  | start : Leads p [] p
  | hear {heard : List Exchange} {effect : Effect} {next : effect.Reply → Program α}
      (h : Leads p heard (Interaction.ask effect next)) (reply : effect.Reply) :
      Leads p (heard ++ [⟨effect, reply⟩]) (next reply)

def Contract.heard {σ : Type} (C : Contract Effect Effect.Reply σ) (s : σ) (exchanges : List Exchange) :
    σ :=
  exchanges.foldl (fun s e => C.next s e.effect e.reply) s

theorem Leads.keeps_of_allowed {σ : Type} {C : Contract Effect Effect.Reply σ} {post : σ → α → Prop}
    {s : σ} {p rest : Program α} {heard : List Exchange} (h : Leads p heard rest)
    (hallows : ∀ e ∈ heard, C.allows e.effect e.reply) (hkeeps : Keeps C post s p) :
    Keeps C post (C.heard s heard) rest := by
  induction h with
  | start => exact hkeeps
  | hear _ reply ih =>
    rw [Contract.heard, List.foldl_append]
    obtain ⟨-, hnext⟩ := keeps_ask.mp (ih fun e he => hallows e (List.mem_append_left _ he))
    exact hnext reply (hallows _ (List.mem_append_right _ List.mem_cons_self))

theorem Leads.keeps {σ : Type} {C : Contract Effect Effect.Reply σ} {post : σ → α → Prop} {s : σ}
    {p rest : Program α} {heard : List Exchange} (h : Leads p heard rest)
    (hallows : ∀ effect reply, C.allows effect reply) (hkeeps : Keeps C post s p) :
    Keeps C post (C.heard s heard) rest :=
  h.keeps_of_allowed (fun e _ => hallows e.effect e.reply) hkeeps

theorem Leads.eq_of_done {answer : α} {heard : List Exchange} {rest : Program α}
    (h : Leads (.done answer) heard rest) : rest = .done answer := by
  induction h with
  | start => rfl
  | hear _ _ ih => cases ih

structure Job where
  owner : Nat
  operation : Operation
  heard : List Exchange
  rest : Program (Outcome operation.Answer)

instance (b : Backing) : Decidable b.IsClosed := by
  cases b with
  | memory registry => exact inferInstanceAs (Decidable (registry.closed = true))
  | sql store => exact inferInstanceAs (Decidable (store.connection = .closed))

structure Cluster where
  members : Nat → Coordinator
  store : Backing
  closed : Nat → Bool
  jobs : List Job

namespace Cluster

inductive Move
  | start (owner : Nat) (operation : Operation)
  | advance (job : Nat) (w : EffectInput)
  /-- A use of the store past the coordinators. -/
  | visit (v : Visit)

def Move.job? : Move → Option Nat
  | .advance i _ => some i
  | _ => none

theorem Move.eq_advance_of_job? {m : Move} {i : Nat} (h : m.job? = some i) : ∃ w, m = .advance i w := by
  cases m with
  | start owner operation => cases h
  | visit v => cases h
  | advance j w =>
    cases h
    exact ⟨w, rfl⟩

def opened (members : Nat → Coordinator) (b : Backing) : Cluster := ⟨members, b, fun _ => false, []⟩

/-- What a question meets: a closed store answers at once, and what has no limit is waited for. -/
def input (s : Cluster) (w : EffectInput) : Effect → EffectInput
  | .call (some _) _ => if s.store.IsClosed then { w with delivery := .answered } else w
  | _ => { w with delivery := .answered }

def respond (s : Cluster) (owner : Nat) (w : EffectInput) (effect : Effect) : effect.Reply × Cluster :=
  match effect with
  | .isClosed => (s.closed owner, s)
  | .markClosed => (s.closed owner, { s with closed := Function.update s.closed owner true })
  | effect =>
    let result := s.store.respond (s.input w effect) effect
    (result.1, { s with store := result.2 })

def answer (s : Cluster) (w : EffectInput) : Job → Job × Cluster
  | ⟨owner, operation, heard, Interaction.ask effect next⟩ =>
    let result := s.respond owner w effect
    (⟨owner, operation, heard ++ [⟨effect, result.1⟩], next result.1⟩, result.2)
  | job => (job, s)

def step (s : Cluster) : Move → Cluster
  | .start owner operation =>
    { s with jobs := s.jobs ++ [⟨owner, operation, [], operation.program (s.members owner)⟩] }
  | .advance i w =>
    match s.jobs[i]? with
    | none => s
    | some job => { (s.answer w job).2 with jobs := s.jobs.set i (s.answer w job).1 }
  | .visit v => { s with store := s.store.visit v }

def run (s : Cluster) (moves : List Move) : Cluster := moves.foldl step s

def Ended (s : Cluster) (i : Nat) (operation : Operation) (outcome : Outcome operation.Answer) :
    Prop :=
  ∃ owner heard, s.jobs[i]? = some ⟨owner, operation, heard, .done outcome⟩

variable {s : Cluster} {i owner : Nat} {job : Job} {w : EffectInput}

theorem run_nil (s : Cluster) : s.run [] = s := rfl

theorem run_append (s : Cluster) (first second : List Move) :
    s.run (first ++ second) = (s.run first).run second := List.foldl_append

theorem members_respond (s : Cluster) (owner : Nat) (w : EffectInput) (effect : Effect) :
    (s.respond owner w effect).2.members = s.members := by
  cases effect <;> rfl

theorem step_none (h : s.jobs[i]? = none) (w : EffectInput) : s.step (.advance i w) = s := by
  simp only [step, h]

theorem step_done {operation : Operation} {heard : List Exchange} {outcome : Outcome operation.Answer}
    (h : s.jobs[i]? = some ⟨owner, operation, heard, .done outcome⟩) (w : EffectInput) :
    s.step (.advance i w) = s := by
  obtain ⟨hi, hget⟩ := List.getElem?_eq_some_iff.mp h
  simp only [step, h, answer]
  rw [← hget, List.set_getElem_self]

theorem step_ask {operation : Operation} {heard : List Exchange} {effect : Effect}
    {next : effect.Reply → Program (Outcome operation.Answer)}
    (h : s.jobs[i]? = some ⟨owner, operation, heard, Interaction.ask effect next⟩) (w : EffectInput) :
    s.step (.advance i w) = { (s.respond owner w effect).2 with
      jobs := s.jobs.set i ⟨owner, operation, heard ++ [⟨effect, (s.respond owner w effect).1⟩],
        next (s.respond owner w effect).1⟩ } := by
  simp only [step, h, answer]

theorem step_other {m : Move} (hjob : s.jobs[i]? = some job) (hother : m.job? ≠ some i) :
    (s.step m).jobs[i]? = some job := by
  have hi : i < s.jobs.length := (List.getElem?_eq_some_iff.mp hjob).1
  cases m with
  | start owner operation =>
    simp only [step]
    rw [List.getElem?_append_left hi]
    exact hjob
  | visit v => exact hjob
  | advance j w =>
    simp only [step]
    split
    · exact hjob
    · have hj : j ≠ i := fun h => hother (congrArg some h)
      rw [List.getElem?_set_ne hj]
      exact hjob

theorem step_own (hjob : s.jobs[i]? = some job) (w : EffectInput) :
    (s.step (.advance i w)).jobs[i]? = some (s.answer w job).1 := by
  have hi : i < s.jobs.length := (List.getElem?_eq_some_iff.mp hjob).1
  simp only [step, hjob]
  exact List.getElem?_set_self hi

theorem store_respond (s : Cluster) (owner : Nat) (w : EffectInput) (effect : Effect) :
    (s.respond owner w effect).2.store = (s.store.respond (s.input w effect) effect).2 := by
  cases effect <;> rfl

structure Consistent (s : Cluster) : Prop where
  sound : s.store.Sound
  leads : ∀ job ∈ s.jobs, Leads (job.operation.program (s.members job.owner)) job.heard job.rest

theorem consistent_opened {b : Backing} (h : b.IsOpened) (members : Nat → Coordinator) :
    (opened members b).Consistent where
  sound := h.sound
  leads _ hjob := (List.not_mem_nil hjob).elim

namespace Consistent

theorem start (h : s.Consistent) (owner : Nat) (operation : Operation) :
    (s.step (.start owner operation)).Consistent where
  sound := h.sound
  leads job hjob := by
    obtain hold | hnew := List.mem_append.mp hjob
    · exact h.leads job hold
    · obtain rfl := List.mem_singleton.mp hnew
      exact .start

theorem advance (h : s.Consistent) (i : Nat) (w : EffectInput) : (s.step (.advance i w)).Consistent := by
  cases hjob : s.jobs[i]? with
  | none =>
    rw [step_none hjob]
    exact h
  | some job =>
    have hmem : job ∈ s.jobs := List.mem_of_getElem? hjob
    obtain ⟨owner, operation, heard, rest⟩ := job
    cases rest with
    | done outcome =>
      rw [step_done hjob]
      exact h
    | ask effect next =>
      have hleads := h.leads _ hmem
      rw [step_ask hjob]
      refine ⟨?_, ?_⟩
      · rw [store_respond]
        exact h.sound.respond _ effect
      · intro job hnew
        rw [members_respond]
        obtain hold | rfl := List.mem_or_eq_of_mem_set hnew
        · exact h.leads job hold
        · exact hleads.hear _

theorem step (h : s.Consistent) (m : Move) : (s.step m).Consistent := by
  cases m with
  | start owner operation => exact h.start owner operation
  | advance i w => exact h.advance i w
  | visit v => exact ⟨h.sound.visit v, h.leads⟩

theorem run (h : s.Consistent) (moves : List Move) : (s.run moves).Consistent := by
  induction moves generalizing s with
  | nil => exact h
  | cons m later ih => exact ih (h.step m)

end Consistent

def blank : Cluster := opened (fun _ => .standard) (.memory .new)

end Cluster

end LeaseLock
