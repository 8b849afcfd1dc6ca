import LeaseLock.Proofs.Coordinator.Credential
import LeaseLock.Proofs.Coordinator.OpenCluster

namespace LeaseLock

open Interaction

def refusal (token : Token) : Contract Effect Effect.Reply Nat where
  permits left effect := 0 < left ∧
    match effect with
    | .call _ call => call = .release token.key token.leaseId token.nonce ∨
      ∃ ttl, isValidTtl ttl = true ∧ call = .renew token.key token.leaseId token.nonce ttl
    | _ => True
  allows effect reply :=
    match effect, reply with
    | .call _ (.release _ _ _), reply => reply = .answered (.ok 0)
    | .call _ (.renew _ _ _ _), reply => reply = .answered (.ok none)
    | .isClosed, closed => closed = false
    | _, _ => True
  next left _ _ := left - 1

namespace Coordinator

variable {α : Type} {token : Token}

theorem checkKey_of_isValidKey {key : String} (h : isValidKey key = true) : checkKey key = .ok () := by
  rw [checkKey, if_pos h]

theorem checkTtl_of_isValidTtl {ttl : Span} (h : isValidTtl ttl = true) : checkTtl ttl = .ok () := by
  rw [checkTtl, if_pos h]

theorem reject_rejected (left : Nat) (message : String) (fault : Fault) :
    Keeps (refusal token) (fun _ (o : Outcome α) => o = .failed fault) (left + 2)
      (reject message fault) := by
  unfold reject Program.report
  refine keeps_query ⟨Nat.succ_pos _, trivial⟩ ?_
  intro _ _
  refine keeps_query ⟨Nat.succ_pos _, trivial⟩ ?_
  intro _ _
  exact keeps_pure rfl

theorem release_rejected (c : Coordinator) (hkey : isValidKey token.key = true) :
    Keeps (refusal token) (fun _ o => o = .failed .notOwner) 4 (c.release token) := by
  rw [release, checkKey_of_isValidKey hkey]
  refine keeps_query ⟨Nat.succ_pos _, trivial⟩ ?_
  intro closed hopen
  cases hopen
  refine Keeps.bind ?_
  refine keeps_query ⟨Nat.succ_pos _, .inl rfl⟩ ?_
  intro reply hreply
  cases hreply
  exact keeps_pure (reject_rejected 0 _ _)

theorem renew_rejected (c : Coordinator) (hkey : isValidKey token.key = true) {ttl : Span}
    (httl : isValidTtl ttl = true) :
    Keeps (refusal token) (fun _ o => o = .failed .tooLate) 4 (c.renew token ttl) := by
  rw [renew, checkKey_of_isValidKey hkey, checkTtl_of_isValidTtl httl]
  refine keeps_query ⟨Nat.succ_pos _, trivial⟩ ?_
  intro closed hopen
  cases hopen
  refine Keeps.bind ?_
  refine keeps_query ⟨Nat.succ_pos _, .inr ⟨ttl, httl, rfl⟩⟩ ?_
  intro reply hreply
  cases hreply
  exact keeps_pure (reject_rejected 0 _ _)

end Coordinator

theorem Backing.refuses {b : Backing} {token : Token} (hready : b.IsReady)
    (hdead : ¬b.Matches token) {w : EffectInput} (hanswered : w.delivery = .answered) {left : Nat}
    {effect : Effect} (hpermits : (refusal token).permits left effect) :
    (refusal token).allows effect (b.respond w effect).1 ∧ (b.respond w effect).2 = b := by
  cases effect with
  | call limit call =>
    simp only [respond, hanswered]
    obtain ⟨-, rfl | ⟨ttl, httl, rfl⟩⟩ := hpermits
    · obtain ⟨houtcome, hstate⟩ := release_of_not_matches hready hdead
      exact ⟨congrArg CallReply.answered houtcome, hstate⟩
    · obtain ⟨houtcome, hstate⟩ :=
        renew_of_not_matches hready hdead httl w.inCalendar.1 w.inCalendar.2
      exact ⟨congrArg CallReply.answered houtcome, hstate⟩
  | isClosed => exact ⟨rfl, rfl⟩
  | mint => exact ⟨trivial, rfl⟩
  | pause delay => exact ⟨trivial, rfl⟩
  | drawWord => exact ⟨trivial, rfl⟩
  | readClock => exact ⟨trivial, rfl⟩
  | count counter => exact ⟨trivial, rfl⟩
  | recordDuration seconds => exact ⟨trivial, rfl⟩
  | report event => exact ⟨trivial, rfl⟩
  | markClosed => exact ⟨trivial, rfl⟩

namespace OpenCluster

variable {s : OpenCluster} {n : Nat}

theorem step_other {m : Move} {t : Task} (ht : s.tasks[n]? = some t) (hother : m.task? ≠ some n) :
    (s.step m).tasks[n]? = some t := by
  have hn : n < s.tasks.length := (List.getElem?_eq_some_iff.mp ht).1
  cases m with
  | start c request =>
    simp only [step]
    rw [List.getElem?_append_left hn]
    exact ht
  | purge reading => exact ht
  | advance i w =>
    simp only [step]
    split
    · exact ht
    · have hi : i ≠ n := fun h => hother (congrArg some h)
      rw [List.getElem?_set_ne hi]
      exact ht

theorem step_rejected {token : Token} {request : Request} {fault : Fault} {left : Nat}
    {rest : Program (Outcome request.Answer)} (hready : s.store.IsReady)
    (hdead : ¬s.store.Matches token) (ht : s.tasks[n]? = some ⟨request, rest⟩)
    (hkeeps : Keeps (refusal token) (fun _ o => o = .failed fault) left rest) {w : EffectInput}
    (hanswered : w.delivery = .answered) :
    (s.step (.advance n w)).store = s.store ∧
      ∃ next, (s.step (.advance n w)).tasks[n]? = some ⟨request, next⟩ ∧
        Keeps (refusal token) (fun _ o => o = .failed fault) (left - 1) next := by
  have hn : n < s.tasks.length := (List.getElem?_eq_some_iff.mp ht).1
  simp only [step, ht, List.getElem?_set_self hn]
  cases rest with
  | done outcome =>
    have hfailed := keeps_done.mp hkeeps
    exact ⟨rfl, _, rfl, keeps_done.mpr hfailed⟩
  | ask effect next =>
    obtain ⟨hpermits, hnext⟩ := keeps_ask.mp hkeeps
    obtain ⟨hallows, hstore⟩ := Backing.refuses hready hdead hanswered hpermits
    exact ⟨hstore, _, rfl, hnext _ hallows⟩

end OpenCluster

end LeaseLock
