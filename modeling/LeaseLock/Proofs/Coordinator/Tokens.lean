import LeaseLock.Proofs.Coordinator.Account

namespace LeaseLock

open Interaction

namespace Request

def Post : (r : Request) → Standing → Outcome r.Answer → Prop
  | .acquire _ _ => Standing.Returns
  | .release _ => fun _ _ => True
  | .renew _ _ => Standing.Returns
  | .isHeld _ => fun _ _ => True

end Request

namespace Task

def Follows (t : Task) (st : Standing) : Prop := Keeps credential t.request.Post st t.rest

def question? (t : Task) : Option Effect :=
  match t.rest with
  | .done _ => none
  | Interaction.ask effect _ => some effect

theorem follows_start (c : Coordinator) (request : Request) : (start c request).Follows .fresh := by
  cases request with
  | acquire key terms => exact Coordinator.keeps_acquire key terms
  | release token => exact Coordinator.keeps_release c token
  | renew token ttl => exact Coordinator.keeps_renew c token ttl
  | isHeld token => exact Coordinator.keeps_isHeld c token

theorem holding_of_token? {t : Task} {st : Standing} {token : Token} (h : t.Follows st)
    (htoken : t.token? = some token) : st = .holding token := by
  unfold token? at htoken
  split at htoken
  · cases htoken
    exact keeps_done.mp h _ rfl
  · cases htoken
    exact keeps_done.mp h _ rfl
  · cases htoken

theorem advance_none {t : Task} (h : t.question? = none) (b : Backing) (w : EffectInput) :
    t.advance b w = (t, b) := by
  obtain ⟨request, rest⟩ := t
  cases rest with
  | done outcome => rfl
  | ask effect next => cases h

theorem advance_some {t : Task} {effect : Effect} (h : t.question? = some effect) (b : Backing)
    (w : EffectInput) : (t.advance b w).2 = (b.respond w effect).2 := by
  obtain ⟨request, rest⟩ := t
  cases rest with
  | done outcome => cases h
  | ask asked next =>
    cases h
    rfl

theorem Follows.advance {t : Task} {st : Standing} {effect : Effect} (h : t.Follows st)
    (hquestion : t.question? = some effect) (b : Backing) (w : EffectInput) :
    credential.permits st effect ∧
      (t.advance b w).1.Follows (credential.next st effect (b.respond w effect).1) := by
  obtain ⟨request, rest⟩ := t
  cases rest with
  | done outcome => cases hquestion
  | ask asked next =>
    cases hquestion
    obtain ⟨hpermits, hnext⟩ := keeps_ask.mp h
    exact ⟨hpermits, hnext _ trivial⟩

end Task

namespace OpenCluster

variable {known : String → Prop} {s : OpenCluster} {standing : Nat → Standing}

structure Kept (known : String → Prop) (s : OpenCluster) (standing : Nat → Standing) : Prop where
  account : Account known s.store standing
  ready : s.store.IsReady
  follows : ∀ (i : Nat) (t : Task), s.tasks[i]? = some t → t.Follows (standing i)
  unstarted : ∀ i, s.tasks.length ≤ i → standing i = .fresh

def Grants (s : OpenCluster) (moves : List Move) (i : Nat) (token : Token) : Prop :=
  ∃ earlier w later, moves = earlier ++ .advance i w :: later ∧
    ¬(s.run earlier).store.Matches token ∧
    (s.run (earlier ++ [.advance i w])).store.Agrees token

/-- What moves do to the tokens held: those there are stay, and one that does not match does not come
to match; a new one is granted by one of the moves. -/
structure Evolves (s : OpenCluster) (moves : List Move) (standing next : Nat → Standing) : Prop where
  stays : ∀ i token, standing i = .holding token → next i = .holding token
  expires : ∀ i token, standing i = .holding token → ¬s.store.Matches token →
    ¬(s.run moves).store.Matches token
  grants : ∀ i token, next i = .holding token → standing i = .holding token ∨ s.Grants moves i token

theorem Evolves.same {moves : List Move}
    (h : ∀ token, (s.run moves).store.Matches token → s.store.Matches token) :
    Evolves s moves standing standing :=
  ⟨fun _ _ hheld => hheld, fun _ token _ hdead hmatches => hdead (h token hmatches),
    fun _ _ hheld => .inl hheld⟩

theorem Grants.append_left {first : List Move} {i : Nat} {token : Token}
    (h : s.Grants first i token) (second : List Move) : s.Grants (first ++ second) i token := by
  obtain ⟨earlier, w, later, rfl, hgrants⟩ := h
  refine ⟨earlier, w, later ++ second, ?_, hgrants⟩
  rw [List.append_assoc, List.cons_append]

theorem Grants.append_right {first second : List Move} {i : Nat} {token : Token}
    (h : (s.run first).Grants second i token) : s.Grants (first ++ second) i token := by
  obtain ⟨earlier, w, later, rfl, hbefore, hafter⟩ := h
  refine ⟨first ++ earlier, w, later, (List.append_assoc _ _ _).symm, ?_, ?_⟩
  · rw [run_append]
    exact hbefore
  · rw [List.append_assoc, run_append]
    exact hafter

theorem Evolves.append {first second : List Move} {middle last : Nat → Standing}
    (hfirst : Evolves s first standing middle) (hsecond : Evolves (s.run first) second middle last) :
    Evolves s (first ++ second) standing last := by
  refine ⟨?_, ?_, ?_⟩
  · intro i token hheld
    exact hsecond.stays i token (hfirst.stays i token hheld)
  · intro i token hheld hdead
    rw [run_append]
    apply hsecond.expires i token (hfirst.stays i token hheld)
    exact hfirst.expires i token hheld hdead
  · intro i token hlast
    obtain hmiddle | hgrants := hsecond.grants i token hlast
    · obtain hheld | hgrants := hfirst.grants i token hmiddle
      · exact .inl hheld
      · exact .inr (hgrants.append_left second)
    · exact .inr hgrants.append_right

theorem Kept.mono {wider : String → Prop} (h : Kept known s standing)
    (himp : ∀ nonce, known nonce → wider nonce) : Kept wider s standing :=
  ⟨h.account.mono himp, h.ready, h.follows, h.unstarted⟩

theorem Kept.start (h : Kept known s standing) (c : Coordinator) (request : Request) :
    Kept known (s.step (.start c request)) standing := by
  refine ⟨h.account, h.ready, ?_, ?_⟩
  · intro i t ht
    simp only [step] at ht
    by_cases hi : i < s.tasks.length
    · rw [List.getElem?_append_left hi] at ht
      exact h.follows i t ht
    · rw [List.getElem?_append_right (by omega), List.getElem?_singleton] at ht
      obtain ⟨-, hnew⟩ := Option.ite_none_right_eq_some.mp ht
      cases hnew
      rw [h.unstarted i (by omega)]
      exact Task.follows_start c request
  · intro i hi
    simp only [step, List.length_append, List.length_singleton] at hi
    exact h.unstarted i (by omega)

theorem Kept.purge (h : Kept known s standing) (reading : Int) :
    Kept known (s.step (.purge reading)) standing :=
  ⟨h.account.purge reading, h.ready.purgeAt reading, h.follows, h.unstarted⟩

theorem Kept.advance (h : Kept known s standing) {i : Nat} {w : EffectInput} (hfresh : ¬known w.id)
    {t : Task} (ht : s.tasks[i]? = some t) {effect : Effect} (hquestion : t.question? = some effect) :
    Kept (fun nonce => known nonce ∨ nonce = w.id) (s.step (.advance i w))
      (Function.update standing i
        (credential.next (standing i) effect (s.store.respond w effect).1)) := by
  obtain ⟨hpermits, hfollows⟩ := (h.follows i t ht).advance hquestion s.store w
  have hi : i < s.tasks.length := (List.getElem?_eq_some_iff.mp ht).1
  simp only [step, ht, Task.advance_some hquestion]
  refine ⟨h.account.respond hpermits hfresh, ?_, ?_, ?_⟩
  · exact Backing.IsReady.respond h.ready w hpermits
  · intro j u hu
    by_cases hj : j = i
    · subst hj
      rw [List.getElem?_set_self hi] at hu
      cases hu
      rw [Function.update_self]
      exact hfollows
    · rw [List.getElem?_set_ne (Ne.symm hj)] at hu
      rw [Function.update_of_ne hj]
      exact h.follows j u hu
  · intro j hj
    rw [List.length_set] at hj
    rw [Function.update_of_ne (by omega)]
    exact h.unstarted j hj

theorem step_advance_none {i : Nat} {w : EffectInput} {t : Task} (ht : s.tasks[i]? = some t)
    (hquestion : t.question? = none) : s.step (.advance i w) = s := by
  obtain ⟨hi, rfl⟩ := List.getElem?_eq_some_iff.mp ht
  simp only [step, ht, Task.advance_none hquestion, List.set_getElem_self]

theorem step_advance_missing {i : Nat} {w : EffectInput} (ht : s.tasks[i]? = none) :
    s.step (.advance i w) = s := by
  simp only [step, ht]

theorem Kept.evolves_advance (h : Kept known s standing) {i : Nat} {w : EffectInput}
    (hfresh : ¬known w.id) {t : Task} (ht : s.tasks[i]? = some t) {effect : Effect}
    (hquestion : t.question? = some effect) :
    Evolves s [.advance i w] standing (Function.update standing i
      (credential.next (standing i) effect (s.store.respond w effect).1)) := by
  obtain ⟨hpermits, -⟩ := (h.follows i t ht).advance hquestion s.store w
  have hstore : (s.run [.advance i w]).store = (s.store.respond w effect).2 := by
    simp only [run, List.foldl, step, ht, Task.advance_some hquestion]
  refine ⟨?_, ?_, ?_⟩
  · intro j token hheld
    by_cases hj : j = i
    · subst hj
      rw [Function.update_self, hheld]
      exact Standing.next_holding token effect (hheld ▸ hpermits) _
    · rw [Function.update_of_ne hj]
      exact hheld
  · intro j token hheld hdead
    rw [hstore]
    exact h.account.not_matches_respond hpermits hfresh hheld hdead
  · intro j token hnext
    obtain ⟨rfl, hnext⟩ | ⟨-, hold⟩ := Standing.of_update hnext
    · by_cases hheld : standing j = .holding token
      · exact .inl hheld
      · obtain ⟨hbefore, hafter⟩ := h.account.agrees_respond hpermits hfresh hheld hnext
        refine .inr ⟨[], w, [], rfl, hbefore, ?_⟩
        rw [← hstore] at hafter
        exact hafter
    · exact .inl hold

def Seen (known : String → Prop) (moves : List Move) (nonce : String) : Prop :=
  known nonce ∨ nonce ∈ moves.filterMap Move.id?

/-- Every identifier minted differs from the known ones and from all earlier ones. -/
def Fresh (known : String → Prop) (moves : List Move) : Prop :=
  (moves.filterMap Move.id?).Nodup ∧ ∀ id ∈ moves.filterMap Move.id?, ¬known id

theorem Fresh.append {first second : List Move} (h : Fresh known (first ++ second)) :
    Fresh known first ∧ Fresh (Seen known first) second := by
  obtain ⟨hdistinct, hnew⟩ := h
  rw [List.filterMap_append] at hdistinct hnew
  obtain ⟨hfirst, hsecond, hapart⟩ := List.nodup_append.mp hdistinct
  refine ⟨⟨hfirst, ?_⟩, hsecond, ?_⟩
  · intro id hid
    exact hnew id (List.mem_append_left _ hid)
  · rintro id hid (hknown | hseen)
    · exact hnew id (List.mem_append_right _ hid) hknown
    · exact hapart id hseen id hid rfl

theorem seen_append {first second : List Move} {nonce : String}
    (h : Seen (Seen known first) second nonce) : Seen known (first ++ second) nonce := by
  unfold Seen at h ⊢
  rw [List.filterMap_append, List.mem_append]
  exact or_assoc.mp h

theorem Kept.step (h : Kept known s standing) (m : Move) (hfresh : Fresh known [m]) :
    ∃ next, Kept (Seen known [m]) (s.step m) next ∧ Evolves s [m] standing next := by
  cases m with
  | start c request => exact ⟨standing, (h.start c request).mono fun _ => .inl, .same fun _ => id⟩
  | purge reading =>
    refine ⟨standing, (h.purge reading).mono fun _ => .inl, .same ?_⟩
    rintro token ⟨t, ht, howned⟩
    exact ⟨t, Backing.tenure?_of_purgeAt h.account.sound ht, howned⟩
  | advance i w =>
    have hunknown : ¬known w.id := hfresh.2 w.id (List.mem_singleton_self _)
    -- a move of an operation that has ended, or that there is none of, changes nothing
    have hidle (hsame : s.step (.advance i w) = s) :
        ∃ next, Kept (Seen known [.advance i w]) (s.step (.advance i w)) next ∧
          Evolves s [.advance i w] standing next := by
      refine ⟨standing, ?_, .same ?_⟩
      · rw [hsame]
        exact h.mono fun _ => .inl
      · intro token
        simp only [run, List.foldl, hsame]
        exact id
    cases ht : s.tasks[i]? with
    | none => exact hidle (step_advance_missing ht)
    | some t =>
      cases hquestion : t.question? with
      | none => exact hidle (step_advance_none ht hquestion)
      | some effect =>
        refine ⟨_, (h.advance hunknown ht hquestion).mono ?_,
          h.evolves_advance hunknown ht hquestion⟩
        rintro nonce (hknown | rfl)
        · exact .inl hknown
        · exact .inr (List.mem_singleton_self _)

theorem Kept.run (h : Kept known s standing) {moves : List Move} (hfresh : Fresh known moves) :
    ∃ next, Kept (Seen known moves) (s.run moves) next ∧ Evolves s moves standing next := by
  induction moves generalizing known s standing with
  | nil => exact ⟨standing, h.mono fun _ => .inl, .same fun _ => id⟩
  | cons m rest ih =>
    have hsplit : Fresh known ([m] ++ rest) := hfresh
    obtain ⟨hm, hrest⟩ := hsplit.append
    obtain ⟨middle, hmiddle, hfirst⟩ := h.step m hm
    obtain ⟨last, hlast, hsecond⟩ := ih hmiddle hrest
    exact ⟨last, hlast.mono fun _ => seen_append, hfirst.append hsecond⟩

theorem kept_opened {b : Backing} (hopened : b.IsOpened) (hready : b.IsReady) :
    Kept b.Records (opened b) fun _ => .fresh := by
  refine ⟨⟨hopened.sound, ?_, ?_, ?_, ?_, ?_⟩, hready, ?_, fun _ _ => rfl⟩
  · intro i j nonce hi
    cases hi
  · intro i nonce hi
    cases hi
  · intro key t ht
    exact ⟨key, t, ht, rfl⟩
  · intro i leaseId nonce hi
    cases hi
  · intro i token hi
    cases hi
  · intro i t ht
    cases ht

theorem Kept.holding_of_issued (h : Kept known s standing) {i : Nat} {token : Token}
    (hissued : s.Issued i token) : standing i = .holding token := by
  obtain ⟨t, ht, htoken⟩ := hissued
  exact Task.holding_of_token? (h.follows i t ht) htoken

end OpenCluster

end LeaseLock
