import LeaseLock.Proofs.Coordinator.Rejection
import LeaseLock.Proofs.Coordinator.Tokens

namespace LeaseLock

open Interaction

namespace OpenCluster

variable {known : String → Prop} {s : OpenCluster} {standing : Nat → Standing}

def AnswersInTime (n : Nat) (moves : List Move) : Prop :=
  ∀ w, .advance n w ∈ moves → w.delivery = .answered

def share (n : Nat) (moves : List Move) : Nat := (moves.filterMap Move.task?).count n

theorem share_own {n : Nat} {m : Move} (hown : m.task? = some n) (later : List Move) :
    share n (m :: later) = share n later + 1 := count_filterMap_own hown later

theorem share_other {n : Nat} {m : Move} (hother : m.task? ≠ some n) (later : List Move) :
    share n (m :: later) = share n later := count_filterMap_other hother later

theorem Kept.run_rejected (h : Kept known s standing) {i : Nat} {token : Token}
    (hheld : standing i = .holding token) (hdead : ¬s.store.Matches token) {moves : List Move}
    (hfresh : Fresh known moves) {n : Nat} (hanswered : AnswersInTime n moves) {request : Request}
    {fault : Fault} {left : Nat} {rest : Program (Outcome request.Answer)}
    (ht : s.tasks[n]? = some ⟨request, rest⟩)
    (hkeeps : Keeps (refusal token) (fun _ o => o = .failed fault) left rest) :
    ∃ last, (s.run moves).tasks[n]? = some ⟨request, last⟩ ∧
      Keeps (refusal token) (fun _ o => o = .failed fault) (left - share n moves) last := by
  -- the token is never revived on the way, so each of the operation's questions is refused
  induction moves generalizing known s standing left rest with
  | nil => exact ⟨rest, ht, hkeeps⟩
  | cons m later ih =>
    have hsplit : Fresh known ([m] ++ later) := hfresh
    obtain ⟨hm, hlater⟩ := hsplit.append
    obtain ⟨middle, hmiddle, hevolves⟩ := h.step m hm
    have hstill : middle i = .holding token := hevolves.stays i token hheld
    have hstale : ¬(s.step m).store.Matches token := hevolves.expires i token hheld hdead
    have hintime : AnswersInTime n later := fun w hw => hanswered w (List.mem_cons_of_mem m hw)
    by_cases hown : m.task? = some n
    · obtain ⟨w, rfl⟩ := Move.eq_advance_of_task? hown
      obtain ⟨-, next, hnext, hkeepsNext⟩ :=
        step_rejected h.ready hdead ht hkeeps (hanswered w (List.mem_cons_self ..))
      have hcount : left - share n (.advance n w :: later) = left - 1 - share n later := by
        rw [share_own hown]
        omega
      rw [hcount]
      exact ih hmiddle hstill hstale hlater hintime hnext hkeepsNext
    · rw [share_other hown]
      exact ih hmiddle hstill hstale hlater hintime (step_other ht hown) hkeeps

/-- What becomes of an operation that starts here and is refused: it has ended after four questions,
only with the fault, and none of its questions changes the store. -/
structure Rejects (s : OpenCluster) (c : Coordinator) (request : Request) (fault : Fault)
    (moves : List Move) : Prop where
  ends : 4 ≤ share s.tasks.length moves →
    ((s.step (.start c request)).run moves).tasks[s.tasks.length]? =
      some ⟨request, .done (.failed fault)⟩
  only : ∀ outcome, ((s.step (.start c request)).run moves).tasks[s.tasks.length]? =
    some ⟨request, .done outcome⟩ → outcome = .failed fault
  leaves : ∀ earlier w later, moves = earlier ++ .advance s.tasks.length w :: later →
    ((s.step (.start c request)).run (earlier ++ [.advance s.tasks.length w])).store =
      ((s.step (.start c request)).run earlier).store

theorem Kept.rejects (h : Kept known s standing) {i : Nat} {token : Token}
    (hheld : standing i = .holding token) (hdead : ¬s.store.Matches token) {moves : List Move}
    (hfresh : Fresh known moves) (hanswered : AnswersInTime s.tasks.length moves) {c : Coordinator}
    {request : Request} {fault : Fault}
    (hkeeps : Keeps (refusal token) (fun _ o => o = .failed fault) 4 (request.program c)) :
    s.Rejects c request fault moves := by
  have hstarted := h.start c request
  have ht := started s c request
  obtain ⟨last, hlast, hkeepsLast⟩ :=
    hstarted.run_rejected hheld hdead hfresh hanswered ht hkeeps
  refine ⟨?_, ?_, ?_⟩
  · intro hfour
    rw [Nat.sub_eq_zero_of_le hfour] at hkeepsLast
    rw [hlast]
    cases last with
    | done outcome => rw [keeps_done.mp hkeepsLast]
    | ask effect next => exact absurd (keeps_ask.mp hkeepsLast).1.1 (Nat.lt_irrefl 0)
  · intro outcome hdone
    rw [hlast] at hdone
    cases hdone
    have hfailed := keeps_done.mp hkeepsLast
    exact hfailed
  · rintro earlier w later rfl
    obtain ⟨hbefore, -⟩ := hfresh.append
    obtain ⟨next, hkept, hevolves⟩ := hstarted.run hbefore
    have hstale := hevolves.expires i token hheld hdead
    have hintime : AnswersInTime s.tasks.length earlier :=
      fun v hv => hanswered v (List.mem_append_left _ hv)
    obtain ⟨_, hrest, hkeepsRest⟩ :=
      hstarted.run_rejected hheld hdead hbefore hintime ht hkeeps
    have hown : w.delivery = .answered :=
      hanswered w (List.mem_append_right _ (List.mem_cons_self ..))
    rw [run_append]
    exact (step_rejected hkept.ready hstale hrest hkeepsRest hown).1

theorem Kept.eq_of_matches (h : Kept known s standing) {i j : Nat} {token other : Token}
    (hi : s.Issued i token) (hj : s.Issued j other) (hkey : token.key = other.key)
    (hmatches : s.store.Matches token) (hother : s.store.Matches other) : i = j ∧ token = other := by
  obtain ⟨t, ht, howned⟩ := hmatches
  obtain ⟨u, hu, howns⟩ := hother
  have hiHeld := h.holding_of_issued hi
  have hjHeld := h.holding_of_issued hj
  rw [← hkey, ht] at hu
  cases hu
  have hsame : i = j := by
    apply h.account.distinct i j t.nonce
    · rw [hiHeld, howned.2]
      rfl
    · rw [hjHeld, howns.2]
      rfl
  subst hsame
  exact ⟨rfl, Standing.holding.inj (hiHeld.symm.trans hjHeld)⟩

theorem Kept.used_up (h : Kept known s standing) {i : Nat} {token : Token}
    (hissued : s.Issued i token) (hdead : ¬s.store.Matches token) {later : List Move}
    (hfresh : Fresh known later) :
    ¬(s.run later).store.Matches token ∧
      ∀ c rest, AnswersInTime (s.run later).tasks.length rest → Fresh known (later ++ rest) →
        (s.run later).Rejects c (.release token) .notOwner rest ∧
        ∀ ttl, isValidTtl ttl = true →
          (s.run later).Rejects c (.renew token ttl) .tooLate rest := by
  have hheld := h.holding_of_issued hissued
  have hkey := h.account.valid i token hheld
  obtain ⟨last, hlast, hevolves⟩ := h.run hfresh
  have hstill := hevolves.stays i token hheld
  have hstale := hevolves.expires i token hheld hdead
  refine ⟨hstale, ?_⟩
  intro c rest hanswered hmore
  have hrest := hmore.append.2
  constructor
  · exact hlast.rejects hstill hstale hrest hanswered (Coordinator.release_rejected c hkey)
  · intro ttl httl
    exact hlast.rejects hstill hstale hrest hanswered (Coordinator.renew_rejected c hkey httl)

/-- Every token is granted once, in agreement with the record; no two tokens of one key match at a
time; a token that does not match any more never does, and is refused from then on. -/
theorem tokens_single_use {b : Backing} (hopened : b.IsOpened) (hready : b.IsReady)
    {moves : List Move} (hfresh : Fresh b.Records moves) :
    (∀ i token, ((opened b).run moves).Issued i token → (opened b).Grants moves i token) ∧
    (∀ i j token other, ((opened b).run moves).Issued i token →
      ((opened b).run moves).Issued j other → token.key = other.key →
      ((opened b).run moves).store.Matches token → ((opened b).run moves).store.Matches other →
      i = j ∧ token = other) ∧
    ∀ earlier later, moves = earlier ++ later → ∀ i token,
      ((opened b).run earlier).Issued i token → ¬((opened b).run earlier).store.Matches token →
      ¬((opened b).run moves).store.Matches token ∧
      ∀ c rest, AnswersInTime ((opened b).run moves).tasks.length rest →
        Fresh b.Records (moves ++ rest) →
        ((opened b).run moves).Rejects c (.release token) .notOwner rest ∧
        ∀ ttl, isValidTtl ttl = true →
          ((opened b).run moves).Rejects c (.renew token ttl) .tooLate rest := by
  have hstart := kept_opened hopened hready
  obtain ⟨standing, hkept, hevolves⟩ := hstart.run hfresh
  refine ⟨?_, ?_, ?_⟩
  · intro i token hissued
    obtain hheld | hgrants := hevolves.grants i token (hkept.holding_of_issued hissued)
    · cases hheld
    · exact hgrants
  · intro i j token other hi hj hkey hmatches hother
    exact hkept.eq_of_matches hi hj hkey hmatches hother
  · rintro earlier later rfl i token hissued hdead
    obtain ⟨hbefore, hafter⟩ := hfresh.append
    obtain ⟨middle, hmiddle, -⟩ := hstart.run hbefore
    obtain ⟨hstale, hrejects⟩ := hmiddle.used_up hissued hdead hafter
    rw [run_append]
    refine ⟨hstale, ?_⟩
    intro c rest hanswered hmore
    rw [List.append_assoc] at hmore
    exact hrejects c rest hanswered hmore.append.2

def ordinaryInput (id : String) (delivery : Delivery) : EffectInput :=
  ⟨1700000000000000000, by decide, id, 0, 0, delivery⟩

def turns (i : Nat) (ids : List String) : List Move :=
  ids.map fun id => .advance i (ordinaryInput id .answered)

def jobToken : Token := ⟨"job", "b", ⟨1700000015, 10000000, by decide, by decide⟩, "c"⟩

def handback : List Move :=
  .start .standard (.acquire "job" .standard) ::
    turns 0 ["a", "b", "c", "d", "e", "f", "g", "h", "i", "j"] ++
  .start .standard (.release jobToken) :: turns 1 ["k", "l", "m", "n"]

theorem records_new (id : String) : ¬(Backing.memory .new).Records id := by
  rintro ⟨key, t, ht, -⟩
  cases ht

theorem issued_handback : ((opened (.memory .new)).run handback).Issued 0 jobToken := by
  have htoken : ((opened (.memory .new)).run handback).tasks[0]?.bind Task.token? = some jobToken := by
    decide +kernel
  exact Option.bind_eq_some_iff.mp htoken

theorem not_matches_handback : ¬((opened (.memory .new)).run handback).store.Matches jobToken := by
  rintro ⟨t, ht, -⟩
  have hnone : ((opened (.memory .new)).run handback).store.tenure? "job" = none := by
    decide +kernel
  cases hnone.symm.trans ht

theorem tokens_single_use_handback :
    ((opened (.memory .new)).run handback).Issued 0 jobToken ∧
      ¬((opened (.memory .new)).run handback).store.Matches jobToken ∧
      ((((opened (.memory .new)).run handback).step
        (.start .standard (.renew jobToken (.ofSeconds 1)))).run
          (turns 2 ["o", "p", "q", "r"])).tasks[2]? =
        some ⟨.renew jobToken (.ofSeconds 1), .done (.failed .tooLate)⟩ := by
  have hfresh : Fresh (Backing.memory .new).Records handback :=
    ⟨by decide, fun id _ => records_new id⟩
  have hmore : Fresh (Backing.memory .new).Records (handback ++ turns 2 ["o", "p", "q", "r"]) :=
    ⟨by decide, fun id _ => records_new id⟩
  have hanswered : AnswersInTime 2 (turns 2 ["o", "p", "q", "r"]) := by
    intro w hw
    obtain ⟨id, -, hmove⟩ := List.mem_map.mp hw
    cases hmove
    rfl
  obtain ⟨-, -, hused⟩ := tokens_single_use (b := .memory .new) rfl rfl hfresh
  obtain ⟨-, hrefused⟩ := hused handback [] (List.append_nil _).symm 0 jobToken issued_handback
    not_matches_handback
  obtain ⟨-, hrenew⟩ := hrefused .standard (turns 2 ["o", "p", "q", "r"]) hanswered hmore
  refine ⟨issued_handback, not_matches_handback, ?_⟩
  exact (hrenew (.ofSeconds 1) (by decide)).ends (by decide)

/-- A renewal for no time at all is answered by a fault of its own, though the token is used up, and
so is a release whose call on the store takes too long. -/
theorem used_token_other_faults :
    let moves := handback ++ [.start .standard (.renew jobToken .zero),
      .start .standard (.release jobToken), .advance 3 (ordinaryInput "o" .answered),
      .advance 3 (ordinaryInput "p" .dropped)]
    (Backing.memory .new).IsOpened ∧ (Backing.memory .new).IsReady ∧
      Fresh (Backing.memory .new).Records moves ∧
      ((opened (.memory .new)).run handback).Issued 0 jobToken ∧
      ¬((opened (.memory .new)).run handback).store.Matches jobToken ∧
      ((opened (.memory .new)).run moves).tasks[2]? =
        some ⟨.renew jobToken .zero, .done (.failed (.invalidTtl .zero))⟩ ∧
      ((opened (.memory .new)).run moves).tasks[3]? =
        some ⟨.release jobToken, .done (.failed (.timedOut defaultCallLimit))⟩ :=
  ⟨rfl, rfl, ⟨by decide, fun id _ => records_new id⟩, issued_handback, not_matches_handback, rfl, rfl⟩

end OpenCluster

end LeaseLock
