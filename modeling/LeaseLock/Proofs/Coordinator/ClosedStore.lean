import LeaseLock.Proofs.Coordinator.Closing
import LeaseLock.Proofs.Coordinator.ConcurrentCluster
import LeaseLock.Proofs.Coordinator.SingleUse
import Mathlib.Data.List.Perm.Basic

/-!
Once a close of the store has begun, no call begins any more, whichever coordinator is asked. Only
calls that are under way can still change the store, and an acquisition between its attempts ends
without a token.
-/

namespace LeaseLock

open Interaction

def Backoff.HasWaits (b : Backoff) : Prop :=
  ∀ attempt < b.retries.toNat, ∀ word, (b.jittered? attempt word).isSome

namespace ConcurrentJob

def hasClosed : ConcurrentJob → Bool
  | ⟨_, .close, heard, .ready (.done _)⟩ => heard.any Exchange.marks
  | _ => false

def pending? : ConcurrentJob → Option (String × Terms × List (CallReply Grant))
  | ⟨_, .request (.acquire key terms), heard, .ready (Interaction.ask _ _)⟩ =>
    some (key, terms, heard.filterMap Exchange.attempt?)
  | _ => none

end ConcurrentJob

namespace ConcurrentCluster

variable {s : ConcurrentCluster} {i owner left : Nat} {operation : Operation} {job : ConcurrentJob}
  {heard : List Exchange} {rest : Program (Outcome operation.Answer)}
  {P : Outcome operation.Answer → Prop}

theorem refusing_respond (s : ConcurrentCluster) (owner : Nat) (w : EffectInput) (effect : Effect) :
    refusing.allows effect (s.respond owner w effect).1 := by
  cases effect with
  | call limit call => rfl
  | _ => trivial

structure Consistent (s : ConcurrentCluster) : Prop where
  leads : ∀ job ∈ s.jobs, Leads (job.operation.program (s.members job.owner)) job.heard job.state.rest
  closes : ∀ job ∈ s.jobs, ClosesStore job.heard ∨ Call.close ∈ job.calls → s.refuses = true

theorem consistent_opened (members : Nat → Coordinator) (b : Backing) :
    (opened members b).Consistent where
  leads _ hjob := (List.not_mem_nil hjob).elim
  closes _ hjob := (List.not_mem_nil hjob).elim

theorem refuses_begin (h : s.refuses = true) (call : Call) : (s.begin call).refuses = true := by
  cases call with
  | close => rfl
  | _ => exact h

theorem refuses_answer (h : s.refuses = true) (w : EffectInput) (job : ConcurrentJob) :
    (s.answer w job).2.refuses = true := by
  obtain ⟨owner, operation, heard, state⟩ := job
  cases state with
  | calling limit call next => exact h
  | ready rest =>
    cases rest with
    | done outcome => exact h
    | ask effect next =>
      rw [answer_ask h]
      exact (refuses_respond s owner w effect).trans h

theorem refuses_step (h : s.refuses = true) (m : Move) : (s.step m).refuses = true := by
  cases m with
  | start owner operation => exact h
  | advance i w =>
    simp only [step]
    split
    · exact h
    · exact refuses_answer h w _
  | interrupt i fails =>
    simp only [step]
    split <;> exact h
  | begin call => simp only [step, h, if_true]
  | finish k reading newNonce =>
    simp only [step]
    split <;> exact h
  | purge reading => exact h

theorem refuses_run (h : s.refuses = true) (moves : List Move) : (s.run moves).refuses = true := by
  induction moves generalizing s with
  | nil => exact h
  | cons m later ih => exact ih (refuses_step h m)

theorem closesStore_append {heard : List Exchange} {e : Exchange} (h : ClosesStore (heard ++ [e])) :
    ClosesStore heard ∨ e.effect = .call none .close := by
  obtain ⟨reply, hreply⟩ := h
  obtain hearlier | hlast := List.mem_append.mp hreply
  · exact .inl ⟨reply, hearlier⟩
  · obtain rfl := List.mem_singleton.mp hlast
    exact .inr rfl

namespace Consistent

theorem set (h : s.Consistent) {t : ConcurrentCluster} {new : ConcurrentJob}
    (hmembers : t.members = s.members) (hjobs : t.jobs = s.jobs.set i new)
    (hrefuses : s.refuses = true → t.refuses = true)
    (hleads : Leads (new.operation.program (s.members new.owner)) new.heard new.state.rest)
    (hcloses : ClosesStore new.heard ∨ Call.close ∈ new.calls → t.refuses = true) : t.Consistent := by
  constructor
  · intro job hjob
    rw [hjobs] at hjob
    rw [hmembers]
    obtain hold | rfl := List.mem_or_eq_of_mem_set hjob
    · exact h.leads job hold
    · exact hleads
  · intro job hjob
    rw [hjobs] at hjob
    obtain hold | rfl := List.mem_or_eq_of_mem_set hjob
    · exact fun hcalls => hrefuses (h.closes job hold hcalls)
    · exact hcloses

theorem hear (h : s.Consistent) {t : ConcurrentCluster} {state : JobState (Outcome operation.Answer)}
    {effect : Effect} {next : effect.Reply → Program (Outcome operation.Answer)} {reply : effect.Reply}
    (hjob : s.jobs[i]? = some ⟨owner, operation, heard, state⟩)
    (hstate : state.rest = Interaction.ask effect next)
    (hcall : effect = .call none .close → s.refuses = true) (hmembers : t.members = s.members)
    (hjobs : t.jobs = s.jobs.set i (.hear owner operation heard effect next reply))
    (hrefuses : s.refuses = true → t.refuses = true) : t.Consistent := by
  have hmem := List.mem_of_getElem? hjob
  have hleads := h.leads _ hmem
  rw [hstate] at hleads
  refine h.set hmembers hjobs hrefuses (hleads.hear reply) ?_
  rintro (hcloses | hnone)
  · obtain hearlier | hclose := closesStore_append hcloses
    · exact hrefuses (h.closes _ hmem (.inl hearlier))
    · exact hrefuses (hcall hclose)
  · cases hnone

theorem start (h : s.Consistent) (owner : Nat) (operation : Operation) :
    (s.step (.start owner operation)).Consistent where
  leads job hjob := by
    obtain hold | hnew := List.mem_append.mp hjob
    · exact h.leads job hold
    · obtain rfl := List.mem_singleton.mp hnew
      exact .start
  closes job hjob hcalls := by
    obtain hold | hnew := List.mem_append.mp hjob
    · exact h.closes job hold hcalls
    · obtain rfl := List.mem_singleton.mp hnew
      obtain ⟨_, hnone⟩ | hnone := hcalls
      · cases hnone
      · cases hnone

theorem refuses_of_calling (h : s.Consistent) {limit : Option Span} {call : Call}
    {next : CallReply call.Answer → Program (Outcome operation.Answer)}
    (hjob : s.jobs[i]? = some ⟨owner, operation, heard, .calling limit call next⟩)
    (hclose : Effect.call limit call = .call none .close) : s.refuses = true := by
  have hcall : call = .close := (Effect.call.inj hclose).2
  exact h.closes _ (List.mem_of_getElem? hjob) (.inr (List.mem_singleton.mpr hcall.symm))

theorem advance (h : s.Consistent) (i : Nat) (w : EffectInput) :
    (s.step (.advance i w)).Consistent := by
  cases hjob : s.jobs[i]? with
  | none =>
    simp only [step, hjob]
    exact h
  | some job =>
    simp only [step, hjob]
    obtain ⟨owner, operation, heard, state⟩ := job
    have hmem := List.mem_of_getElem? hjob
    cases state with
    | calling limit call next =>
      exact h.hear hjob rfl (h.refuses_of_calling hjob) rfl rfl id
    | ready rest =>
      cases rest with
      | done outcome => exact h.set rfl rfl id (h.leads _ hmem) (h.closes _ hmem)
      | ask effect next =>
        cases hrefuses : s.refuses with
        | true =>
          rw [answer_ask hrefuses]
          exact h.hear hjob rfl (fun _ => hrefuses) (members_respond s owner w effect) rfl
            ((refuses_respond s owner w effect).trans ·)
        | false =>
          cases effect with
          | call limit call =>
            have hleads := h.leads _ hmem
            simp only [answer, hrefuses]
            refine h.set (members_begin s call) rfl (refuses_begin · call) hleads ?_
            rintro (hcloses | hcalling)
            · exact refuses_begin (h.closes _ hmem (.inl hcloses)) call
            · obtain rfl := List.mem_singleton.mp hcalling
              rfl
          | _ => exact h.hear hjob rfl Effect.noConfusion rfl rfl id

theorem interrupt (h : s.Consistent) (i : Nat) (fails : Bool) :
    (s.step (.interrupt i fails)).Consistent := by
  cases hjob : s.jobs[i]? with
  | none =>
    simp only [step, hjob]
    exact h
  | some job =>
    simp only [step, hjob]
    have hmem := List.mem_of_getElem? hjob
    obtain ⟨owner, operation, heard, state⟩ := job
    cases state with
    | ready rest => exact h.set rfl rfl id (h.leads _ hmem) (h.closes _ hmem)
    | calling limit call next =>
      simp only [ConcurrentCluster.interrupt]
      split
      · exact h.hear hjob rfl (h.refuses_of_calling hjob) rfl rfl id
      · exact h.set rfl rfl id (h.leads _ hmem) (h.closes _ hmem)

theorem step (h : s.Consistent) (m : Move) : (s.step m).Consistent := by
  cases m with
  | start owner operation => exact h.start owner operation
  | advance i w => exact h.advance i w
  | interrupt i fails => exact h.interrupt i fails
  | begin call =>
    simp only [ConcurrentCluster.step]
    split
    · exact h
    · refine ⟨?_, ?_⟩
      · rw [jobs_begin, members_begin]
        exact h.leads
      · rw [jobs_begin]
        exact fun job hjob hcalls => refuses_begin (h.closes job hjob hcalls) call
  | finish k reading newNonce =>
    simp only [ConcurrentCluster.step]
    split
    · exact h
    · exact ⟨h.leads, h.closes⟩
  | purge reading => exact ⟨h.leads, h.closes⟩

theorem run (h : s.Consistent) (moves : List Move) : (s.run moves).Consistent := by
  induction moves generalizing s with
  | nil => exact h
  | cons m later ih => exact ih (h.step m)

end Consistent

theorem step_other {rest : Program (Outcome operation.Answer)} {m : Move}
    (hjob : s.jobs[i]? = some ⟨owner, operation, heard, .ready rest⟩) (hother : m.job? ≠ some i) :
    (s.step m).jobs[i]? = some ⟨owner, operation, heard, .ready rest⟩ := by
  have hi : i < s.jobs.length := (List.getElem?_eq_some_iff.mp hjob).1
  cases m with
  | start owner operation =>
    simp only [step]
    rw [List.getElem?_append_left hi]
    exact hjob
  | advance j w =>
    simp only [step]
    split
    · exact hjob
    · have hj : j ≠ i := fun h => hother (congrArg some h)
      rw [List.getElem?_set_ne hj]
      exact hjob
  | interrupt j fails =>
    simp only [step]
    split
    · exact hjob
    · rename_i job hold
      by_cases hj : j = i
      · subst hj
        cases hold.symm.trans hjob
        exact List.getElem?_set_self hi
      · rw [List.getElem?_set_ne hj]
        exact hjob
  | begin call =>
    simp only [step]
    split
    · exact hjob
    · rw [jobs_begin]
      exact hjob
  | finish k reading newNonce =>
    simp only [step]
    split <;> exact hjob
  | purge reading => exact hjob

theorem step_refused (h : s.refuses = true)
    (hjob : s.jobs[i]? = some ⟨owner, operation, heard, .ready rest⟩)
    (hkeeps : Keeps refusing (fun _ => P) left rest) (w : EffectInput) :
    ∃ more last, (s.step (.advance i w)).jobs[i]? = some ⟨owner, operation, more, .ready last⟩ ∧
      Keeps refusing (fun _ => P) (left - 1) last := by
  have hi : i < s.jobs.length := (List.getElem?_eq_some_iff.mp hjob).1
  simp only [step, hjob]
  rw [List.getElem?_set_self hi]
  cases rest with
  | done outcome =>
    have hpost := keeps_done.mp hkeeps
    exact ⟨heard, _, rfl, keeps_done.mpr hpost⟩
  | ask effect next =>
    rw [answer_ask h]
    have hnext := (keeps_ask.mp hkeeps).2
    exact ⟨_, _, rfl, hnext _ (refusing_respond s owner w effect)⟩

theorem run_refused (h : s.refuses = true)
    (hjob : s.jobs[i]? = some ⟨owner, operation, heard, .ready rest⟩)
    (hkeeps : Keeps refusing (fun _ => P) left rest) (moves : List Move) :
    ∃ more last, (s.run moves).jobs[i]? = some ⟨owner, operation, more, .ready last⟩ ∧
      Keeps refusing (fun _ => P) (left - share i moves) last := by
  -- calls stay refused on the way, so each question of the operation is answered at once
  induction moves generalizing s left heard rest with
  | nil => exact ⟨heard, rest, hjob, hkeeps⟩
  | cons m later ih =>
    have hstill := refuses_step h m
    by_cases hown : m.job? = some i
    · obtain ⟨w, rfl⟩ := Move.eq_advance_of_job? hown
      obtain ⟨more, last, hlast, hkeepsLast⟩ := step_refused h hjob hkeeps w
      have hcount : left - share i (.advance i w :: later) = left - 1 - share i later := by
        rw [share_own hown]
        omega
      rw [hcount]
      exact ih hstill hlast hkeepsLast
    · rw [share_other hown]
      exact ih hstill (step_other hjob hown) hkeeps

/-- What becomes of an operation: it has ended after eight questions, and only as it should. -/
structure Settles (s : ConcurrentCluster) (i : Nat) (operation : Operation)
    (P : Outcome operation.Answer → Prop) (moves : List Move) : Prop where
  ends : 8 ≤ share i moves → ∃ outcome, (s.run moves).Ended i operation outcome
  only : ∀ outcome, (s.run moves).Ended i operation outcome → P outcome

theorem settles (h : s.refuses = true)
    (hjob : s.jobs[i]? = some ⟨owner, operation, heard, .ready rest⟩) (hleft : left ≤ 8)
    (hkeeps : Keeps refusing (fun _ => P) left rest) (moves : List Move) :
    s.Settles i operation P moves := by
  obtain ⟨more, last, hlast, hkeepsLast⟩ := run_refused h hjob hkeeps moves
  constructor
  · intro height
    rw [Nat.sub_eq_zero_of_le (Nat.le_trans hleft height)] at hkeepsLast
    cases last with
    | done outcome => exact ⟨outcome, owner, more, hlast⟩
    | ask effect next => exact absurd (keeps_ask.mp hkeepsLast).1 (Nat.lt_irrefl 0)
  · rintro outcome ⟨other, heard', hdone⟩
    rw [hlast] at hdone
    cases hdone
    have hpost := keeps_done.mp hkeepsLast
    exact hpost

def Contends (s : ConcurrentCluster) (i : Nat) (key : String) (terms : Terms) (met : Nat) : Prop :=
  ∃ owner heard effect next,
    s.jobs[i]? =
        some ⟨owner, .request (.acquire key terms), heard, .ready (Interaction.ask effect next)⟩ ∧
      heard.filterMap Exchange.attempt? = .replicate met (.answered (.ok .contended))

theorem contends_iff {key : String} {terms : Terms} {met : Nat} :
    s.Contends i key terms met ↔ s.jobs[i]?.bind ConcurrentJob.pending? =
      some (key, terms, .replicate met (.answered (.ok .contended))) := by
  constructor
  · rintro ⟨owner, heard, effect, next, hjob, hheard⟩
    simp only [hjob, Option.bind_some, ConcurrentJob.pending?, hheard]
  · intro h
    obtain ⟨⟨owner, operation, heard, state⟩, hjob, hpending⟩ := Option.bind_eq_some_iff.mp h
    unfold ConcurrentJob.pending? at hpending
    split at hpending
    · rename_i hsame
      cases hsame
      obtain ⟨rfl, rfl, hheard⟩ : _ = key ∧ _ = terms ∧ _ := by simpa using hpending
      exact ⟨_, _, _, _, hjob, hheard⟩
    · cases hpending

instance (s : ConcurrentCluster) (i : Nat) (key : String) (terms : Terms) (met : Nat) :
    Decidable (s.Contends i key terms met) := decidable_of_iff' _ contends_iff

def lateOutcome (key : String) (b : Backoff) (met : Nat) : Outcome Token :=
  if met = b.retries.toNat + 1 then .failed (.exhausted key b.attempts) else .failed .closed

theorem Consistent.settles_contended (h : s.Consistent) (hrefuses : s.refuses = true) {key : String}
    {terms : Terms} {met : Nat} (hcontends : s.Contends i key terms met)
    (hwaits : terms.backoff.HasWaits) (moves : List Move) :
    s.Settles i (.request (.acquire key terms)) (· = lateOutcome key terms.backoff met) moves := by
  obtain ⟨owner, heard, effect, next, hjob, hheard⟩ := hcontends
  have hleads := h.leads _ (List.mem_of_getElem? hjob)
  cases hcheck : (Request.acquire key terms).check with
  | error fault =>
    -- it would have ended before its first question
    have hdone := Request.program_of_error (c := s.members owner) hcheck
    rw [Operation.program, hdone] at hleads
    cases hleads.eq_of_done
  | ok _ =>
    have hkeeps := hleads.keeps (fun _ _ => trivial) (Coordinator.keeps_acquire_retrying hcheck)
    obtain ⟨left, hleft, hclean⟩ : ∃ left ≤ 6,
        (retrying terms.backoff.retries.toNat).heard (.clean 0 6) heard =
          .clean (0 + (heard.filterMap Exchange.attempt?).length) left :=
      heard_clean (Nat.le_refl 6) fun reply hreply => List.eq_of_mem_replicate (hheard ▸ hreply)
    rw [hclean, hheard, List.length_replicate, Nat.zero_add] at hkeeps
    refine settles hrefuses hjob (Nat.add_le_add_right hleft 2) ?_ moves
    apply (refusing_of_clean hkeeps).imp
    rintro _ outcome (⟨hmet, rfl⟩ | ⟨hmet, rfl⟩ | ⟨hpositive, hmet, -, word, hnone⟩)
    · rw [lateOutcome, if_pos hmet]
    · rw [lateOutcome, if_neg (by omega)]
    · have hwait := hwaits (met - 1) (by omega) word
      rw [hnone] at hwait
      cases hwait

theorem underway_set (more : List Call) (new : ConcurrentJob) (hjob : s.jobs[i]? = some job)
    (hcalls : job.calls = more ++ new.calls) :
    s.underway.Perm (more ++ ((s.jobs.set i new).flatMap ConcurrentJob.calls ++ s.detached)) := by
  obtain ⟨hi, rfl⟩ := List.getElem?_eq_some_iff.mp hjob
  have hback := flatMap_set_perm (l := s.jobs.set i new) (List.getElem?_set_self hi) hcalls
  rw [List.set_set, List.set_getElem_self] at hback
  exact (hback.append_right s.detached).trans (.of_eq (List.append_assoc ..))

/-- The visits have made the second state's store of the first one's, with the calls that are under way
in the first state and not in the second. -/
def Concludes (s : ConcurrentCluster) (visits : List Visit) (t : ConcurrentCluster) : Prop :=
  t.store = visits.foldl Backing.conclude s.store ∧
    s.underway.Perm (visits.filterMap Visit.call? ++ t.underway)

theorem Concludes.trans {t u : ConcurrentCluster} {first second : List Visit}
    (h : s.Concludes first t) (hlater : t.Concludes second u) : s.Concludes (first ++ second) u := by
  constructor
  · rw [List.foldl_append, ← h.1]
    exact hlater.1
  · rw [List.filterMap_append, List.append_assoc]
    exact h.2.trans (hlater.2.append_left _)

theorem concludes_nil {t : ConcurrentCluster} (hstore : t.store = s.store)
    (hunderway : s.underway.Perm t.underway) : s.Concludes [] t := ⟨hstore, hunderway⟩

theorem store_respond (s : ConcurrentCluster) (owner : Nat) (w : EffectInput) (effect : Effect) :
    (s.respond owner w effect).2.store = s.store := by
  cases effect <;> rfl

theorem detached_respond (s : ConcurrentCluster) (owner : Nat) (w : EffectInput) (effect : Effect) :
    (s.respond owner w effect).2.detached = s.detached := by
  cases effect <;> rfl

theorem exists_concludes_advance (h : s.refuses = true) (i : Nat) (w : EffectInput) :
    ∃ visits, s.Concludes visits (s.step (.advance i w)) := by
  cases hjob : s.jobs[i]? with
  | none =>
    simp only [step, hjob]
    exact ⟨[], concludes_nil rfl (.refl _)⟩
  | some job =>
    simp only [step, hjob]
    obtain ⟨owner, operation, heard, state⟩ := job
    cases state with
    | calling limit call next =>
      exact ⟨[⟨.call call, w.reading, w.id⟩], rfl, underway_set [call] _ hjob rfl⟩
    | ready rest =>
      cases rest with
      | done outcome => exact ⟨[], concludes_nil rfl (underway_set [] _ hjob rfl)⟩
      | ask effect next =>
        rw [answer_ask h]
        refine ⟨[], concludes_nil (store_respond s owner w effect) ?_⟩
        have hset := underway_set []
          (.hear owner operation heard effect next (s.respond owner w effect).1) hjob rfl
        rw [← detached_respond s owner w effect] at hset
        exact hset

theorem concludes_interrupt (s : ConcurrentCluster) (i : Nat) (fails : Bool) :
    s.Concludes [] (s.step (.interrupt i fails)) := by
  cases hjob : s.jobs[i]? with
  | none =>
    simp only [step, hjob]
    exact concludes_nil rfl (.refl _)
  | some job =>
    simp only [step, hjob]
    refine concludes_nil rfl ?_
    have hcalls : job.calls = (s.interrupt fails job).2 ++ (s.interrupt fails job).1.calls := by
      obtain ⟨owner, operation, heard, state⟩ := job
      cases state with
      | ready rest => rfl
      | calling limit call next =>
        simp only [interrupt]
        split <;> rfl
    refine (underway_set _ _ hjob hcalls).trans ?_
    refine List.perm_append_comm.trans ?_
    rw [List.append_assoc]
    exact .refl _

theorem concludes_finish {call : Call} (hcall : s.detached[i]? = some call) (reading : Int)
    (newNonce : String) :
    s.Concludes [⟨.call call, reading, newNonce⟩] (s.step (.finish i reading newNonce)) := by
  simp only [step, hcall]
  refine ⟨rfl, ?_⟩
  obtain ⟨hi, rfl⟩ := List.getElem?_eq_some_iff.mp hcall
  have herase := (List.getElem_cons_eraseIdx_perm hi).symm
  exact (herase.append_left _).trans List.perm_middle

theorem exists_concludes_step (h : s.refuses = true) (m : Move) :
    ∃ visits, s.Concludes visits (s.step m) := by
  cases m with
  | start owner operation =>
    refine ⟨[], concludes_nil rfl (.of_eq ?_)⟩
    simp [underway, step, ConcurrentJob.calls]
  | advance i w => exact exists_concludes_advance h i w
  | interrupt i fails => exact ⟨[], concludes_interrupt s i fails⟩
  | begin call =>
    simp only [step, h, if_true]
    exact ⟨[], concludes_nil rfl (.refl _)⟩
  | finish k reading newNonce =>
    cases hcall : s.detached[k]? with
    | none =>
      simp only [step, hcall]
      exact ⟨[], concludes_nil rfl (.refl _)⟩
    | some call => exact ⟨_, concludes_finish hcall reading newNonce⟩
  | purge reading => exact ⟨[⟨.purge, reading, ""⟩], rfl, .refl _⟩

theorem exists_concludes_run (h : s.refuses = true) (moves : List Move) :
    ∃ visits, s.Concludes visits (s.run moves) := by
  induction moves generalizing s with
  | nil => exact ⟨[], concludes_nil rfl (.refl _)⟩
  | cons m later ih =>
    obtain ⟨first, hfirst⟩ := exists_concludes_step h m
    obtain ⟨second, hsecond⟩ := ih (refuses_step h m)
    exact ⟨first ++ second, hfirst.trans hsecond⟩

def Move.closesStore : Move → Bool
  | .begin .close => true
  | _ => false

/-- The store's own close has begun, or the first close of a coordinator has completed. -/
def HasClosed (s : ConcurrentCluster) (moves : List Move) : Prop :=
  (∃ m ∈ moves, m.closesStore = true) ∨ ∃ job ∈ (s.run moves).jobs, job.hasClosed = true

instance (s : ConcurrentCluster) (moves : List Move) : Decidable (s.HasClosed moves) :=
  inferInstanceAs (Decidable (_ ∨ _))

theorem refuses_of_closesStore (s : ConcurrentCluster) {m : Move} (h : m.closesStore = true) :
    (s.step m).refuses = true := by
  unfold Move.closesStore at h
  split at h
  · simp only [step]
    split
    · assumption
    · rfl
  · cases h

theorem Consistent.refuses_of_job (h : s.Consistent) (hmem : job ∈ s.jobs)
    (hcloses : job.hasClosed = true) : s.refuses = true := by
  unfold ConcurrentJob.hasClosed at hcloses
  split at hcloses
  · have hkeeps := (h.leads _ hmem).keeps (fun _ _ => trivial) Coordinator.keeps_close_closing
    have howes := keeps_done.mp hkeeps
    exact h.closes _ hmem (.inl (closesStore_of_owed howes (.inr (List.any_eq_true.mp hcloses))))
  · cases hcloses

theorem HasClosed.refuses {moves : List Move} (h : s.HasClosed moves) (hs : s.Consistent) :
    (s.run moves).refuses = true := by
  obtain ⟨m, hm, hcloses⟩ | ⟨job, hjob, hcloses⟩ := h
  · obtain ⟨earlier, later, rfl⟩ := List.append_of_mem hm
    rw [run_append]
    exact refuses_run (refuses_of_closesStore (s.run earlier) hcloses) later
  · exact (hs.run moves).refuses_of_job hjob hcloses

/-- What a close leaves behind for good. -/
structure Shut (s : ConcurrentCluster) : Prop where
  /-- The store changes by purges and by the calls that are under way now, each at most once. -/
  leaves : ∀ later, ∃ visits, s.Concludes visits (s.run later)
  /-- An operation that starts now or later ends as it does at a closed store. -/
  refuses : ∀ earlier owner operation later,
    ((s.run earlier).step (.start owner operation)).Settles (s.run earlier).jobs.length operation
      operation.EndsClosed later
  /-- An acquisition between two attempts that has met other holders only ends without a token, if its
  waits can be computed. -/
  exhausts : ∀ i key terms met, s.Contends i key terms met → terms.backoff.HasWaits →
    ∀ later, s.Settles i (.request (.acquire key terms)) (· = lateOutcome key terms.backoff met) later

/-- After a close only calls that are under way change the store, and nothing else is granted:
operations that start later are refused, and an acquisition between two attempts ends without a
token. -/
theorem shut_of_hasClosed (members : Nat → Coordinator) (b : Backing) {moves : List Move}
    (hclosed : (opened members b).HasClosed moves) : ((opened members b).run moves).Shut := by
  have hstart := consistent_opened members b
  have hrefuses := hclosed.refuses hstart
  refine ⟨exists_concludes_run hrefuses, ?_, ?_⟩
  · intro earlier owner operation later
    have hlater := refuses_step (refuses_run hrefuses earlier) (.start owner operation)
    exact settles hlater (started _ owner operation) (Nat.le_refl 8) (operation.refusing _) later
  · intro i key terms met hcontends hwaits later
    exact (hstart.run moves).settles_contended hrefuses hcontends hwaits later

def blank : ConcurrentCluster := opened (fun _ => .standard) (.memory .new)

def turns (i n : Nat) : List Move :=
  (["a", "b", "c", "d", "e", "f", "g", "h", "i", "j"].take n).map fun id =>
    .advance i (OpenCluster.ordinaryInput id .answered)

def visit (call : Call) : List Move :=
  [.begin call, .finish 0 1700000000000000000 "z"]

def contest (terms : Terms) : List Move :=
  visit (.acquire ⟨"job", "other", "o", defaultTtl, ""⟩) ++
    .start 1 (.request (.acquire "job" terms)) :: turns 0 7

def steady : Terms :=
  { Terms.standard with backoff := { Backoff.standard with retries := 1, jitter := 0 } }

def steep : Terms :=
  { Terms.standard with backoff := { Backoff.standard with
    retries := 1
    base := .longest
    cap := .longest
    jitter := .ofRatio false 1 100000000000000000000 } }

def closedMidway : List Move := contest steady ++ .start 0 .close :: turns 1 4

theorem hasWaits_steady : steady.backoff.HasWaits := by
  intro attempt h word
  obtain rfl : attempt = 0 := Nat.lt_one_iff.mp h
  have hwait : steady.backoff.wait 0 = .steady (.ofMillis 100) := by decide +kernel
  rw [Backoff.jittered?, hwait]
  rfl

theorem shut_of_hasClosed_midway :
    blank.HasClosed closedMidway ∧ (blank.run closedMidway).Contends 0 "job" steady 1 ∧
      ((blank.run closedMidway).run (turns 0 8)).Ended 0 (.request (.acquire "job" steady))
        (.failed .closed) ∧
      (((blank.run closedMidway).step (.start 2 (.request (.acquire "job" .standard)))).run
        (turns 2 8)).Ended 2 (.request (.acquire "job" .standard)) (.failed .closed) := by
  have hclosed : blank.HasClosed closedMidway := by decide +kernel
  have hcontends : (blank.run closedMidway).Contends 0 "job" steady 1 := by decide +kernel
  have hshut : (blank.run closedMidway).Shut :=
    shut_of_hasClosed (fun _ => .standard) (.memory .new) hclosed
  have hlate := hshut.exhausts 0 "job" steady 1 hcontends hasWaits_steady (turns 0 8)
  have hlength : (blank.run closedMidway).jobs.length = 2 := by decide +kernel
  have hrefused := hshut.refuses [] 2 (.request (.acquire "job" .standard)) (turns 2 8)
  rw [run_nil, hlength] at hrefused
  obtain ⟨outcome, hended⟩ := hlate.ends (by decide)
  obtain rfl := hlate.only outcome hended
  obtain ⟨other, hother⟩ := hrefused.ends (by decide)
  have hrefusal : other = (Request.acquire "job" .standard).refusal := hrefused.only other hother
  have hfault : (Request.acquire "job" .standard).refusal = .failed .closed := by decide +kernel
  rw [hrefusal, hfault] at hother
  exact ⟨hclosed, hcontends, hended, hother⟩

/-- A lock is granted after a close: to an acquisition whose attempt the close overtakes, and past a
second close of a coordinator, which returns before the first has reached the store. An acquisition
whose wait cannot be computed overflows. -/
theorem granted_after_close :
    let acquire := Operation.request (.acquire "job" .standard)
    let overtaken := blank.run (.start 0 acquire :: turns 0 6 ++ .start 1 .close :: turns 1 4)
    let twice := blank.run (.start 0 .close :: turns 0 1 ++ .start 0 .close :: turns 1 1)
    let late := blank.run (contest steep ++ visit .close)
    overtaken.Ended 1 .close (.ok ()) ∧
      (overtaken.run (turns 0 10)).Ended 0 acquire (.ok OpenCluster.jobToken) ∧
      twice.Ended 1 .close (.ok ()) ∧
      (twice.run (.start 1 acquire :: turns 2 10 ++ turns 2 2)).Ended 2 acquire
        (.ok OpenCluster.jobToken) ∧
      late.Contends 0 "job" steep 1 ∧
      (late.run (turns 0 8)).Ended 0 (.request (.acquire "job" steep)) .overflow := by
  decide +kernel

end ConcurrentCluster

end LeaseLock
