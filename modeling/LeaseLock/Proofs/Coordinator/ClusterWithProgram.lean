import LeaseLock.Proofs.Coordinator.Grant

namespace LeaseLock

open Interaction

structure ClusterWithProgram (α : Type) where
  cluster : Cluster
  owner : Nat
  rest : Program α

namespace ClusterWithProgram

inductive Move
  | other (m : Cluster.Move)
  | advance (w : EffectInput)

variable {α : Type} {s : ClusterWithProgram α} {t : Cluster}

def opened (members : Nat → Coordinator) (b : Backing) (owner : Nat) (program : Program α) :
    ClusterWithProgram α := ⟨.opened members b, owner, program⟩

def step (s : ClusterWithProgram α) : Move → ClusterWithProgram α
  | .other m => { s with cluster := s.cluster.step m }
  | .advance w =>
    match s.rest with
    | .done _ => s
    | Interaction.ask effect next =>
      let result := s.cluster.respond s.owner w effect
      { s with cluster := result.2, rest := next result.1 }

def run (s : ClusterWithProgram α) (moves : List Move) : ClusterWithProgram α := moves.foldl step s

def answer? (s : ClusterWithProgram α) : Option α :=
  match s.rest with
  | .done answer => some answer
  | _ => none

theorem answer?_eq_some_iff {a : α} : s.answer? = some a ↔ s.rest = .done a := by
  unfold answer?
  split
  · rename_i b hrest
    rw [hrest]
    exact ⟨fun h => congrArg _ (Option.some.inj h), fun h => congrArg _ (Interaction.done.inj h)⟩
  · rename_i hnot
    constructor
    · intro h
      cases h
    · intro h
      exact absurd h (hnot a)

def Move.shifted : Move → Cluster.Move
  | .other (.start owner operation) => .start owner operation
  | .other (.advance i w) => .advance (i + 1) w
  | .other (.visit v) => .visit v
  | .advance w => .advance 0 w

theorem Move.eq_advance_of_shifted {m : Move} {w : EffectInput} (h : m.shifted = .advance 0 w) :
    m = .advance w := by
  cases m with
  | advance w => cases h; rfl
  | other m => cases m <;> cases h

def Extends (s : ClusterWithProgram α) (operation : Operation)
    (answer : Outcome operation.Answer → α) (t : Cluster) : Prop :=
  ∃ heard rest, t = { s.cluster with jobs := ⟨s.owner, operation, heard, rest⟩ :: s.cluster.jobs } ∧
    s.rest = rest.bind fun outcome => .done (answer outcome)

theorem respond_jobs (t : Cluster) (jobs : List Job) (owner : Nat) (w : EffectInput)
    (effect : Effect) :
    ({ t with jobs := jobs } : Cluster).respond owner w effect =
      ((t.respond owner w effect).1, { (t.respond owner w effect).2 with jobs := jobs }) := by
  cases effect <;> rfl

theorem jobs_respond (t : Cluster) (owner : Nat) (w : EffectInput) (effect : Effect) :
    (t.respond owner w effect).2.jobs = t.jobs := by
  cases effect <;> rfl

variable {operation : Operation} {answer : Outcome operation.Answer → α}

theorem Extends.step (h : s.Extends operation answer t) (m : Move) :
    (s.step m).Extends operation answer (t.step m.shifted) := by
  obtain ⟨heard, rest, rfl, hrest⟩ := h
  cases m with
  | other m =>
    cases m with
    | start owner other => exact ⟨heard, rest, rfl, hrest⟩
    | visit v => exact ⟨heard, rest, rfl, hrest⟩
    | advance i w =>
      refine ⟨heard, rest, ?_, hrest⟩
      simp only [Move.shifted, ClusterWithProgram.step, Cluster.step, List.getElem?_cons_succ]
      cases hjob : s.cluster.jobs[i]? with
      | none => rfl
      | some job =>
        obtain ⟨owner, other, past, left⟩ := job
        cases left with
        | done outcome => rfl
        | ask effect next => simp only [Cluster.answer, respond_jobs, List.set_cons_succ]
  | advance w =>
    cases rest with
    | done outcome =>
      simp only [ClusterWithProgram.step, hrest, Interaction.bind_done]
      exact ⟨heard, .done outcome, rfl, hrest⟩
    | ask effect next =>
      simp only [ClusterWithProgram.step, hrest, Interaction.bind]
      refine ⟨heard ++ [⟨effect, (s.cluster.respond s.owner w effect).1⟩],
        next (s.cluster.respond s.owner w effect).1, ?_, rfl⟩
      simp only [Move.shifted, Cluster.step, List.getElem?_cons_zero, Cluster.answer, respond_jobs,
        List.set_cons_zero, jobs_respond]

theorem Extends.run (h : s.Extends operation answer t) (moves : List Move) :
    (s.run moves).Extends operation answer (t.run (moves.map Move.shifted)) := by
  induction moves generalizing s t with
  | nil => exact h
  | cons m later ih => exact ih (h.step m)

theorem Extends.store_eq (h : s.Extends operation answer t) : t.store = s.cluster.store := by
  obtain ⟨heard, rest, rfl, -⟩ := h
  rfl

theorem Extends.ended (h : s.Extends operation answer t) {a : α} (hdone : s.rest = .done a) :
    ∃ outcome, answer outcome = a ∧ t.Ended 0 operation outcome := by
  obtain ⟨heard, rest, rfl, hrest⟩ := h
  rw [hdone] at hrest
  cases rest with
  | done outcome => exact ⟨outcome, (Interaction.done.inj hrest).symm, s.owner, heard, rfl⟩
  | ask effect next => cases hrest

theorem extends_opened (members : Nat → Coordinator) (b : Backing) (owner : Nat)
    (operation : Operation) (answer : Outcome operation.Answer → α) :
    (opened members b owner ((operation.program (members owner)).bind fun outcome =>
      .done (answer outcome))).Extends operation answer
        ((Cluster.opened members b).step (.start owner operation)) :=
  ⟨[], operation.program (members owner), rfl, rfl⟩

theorem recorded_of_answered {b : Backing} (hopened : b.IsOpened) {members : Nat → Coordinator}
    {owner : Nat} {key : String} {terms : Terms} (answer : Outcome Token → α) {token : Token}
    {program : Program α} {moves : List Move}
    (hprogram : program = (Coordinator.acquire key terms).bind fun outcome => .done (answer outcome))
    (hanswer : ∀ outcome, answer outcome = answer (.ok token) → outcome = .ok token)
    (hanswered : ((opened members b owner program).run moves).answer? = some (answer (.ok token))) :
    token.key = key ∧ ∃ earlier w later lease, moves = earlier ++ .advance w :: later ∧
      ((opened members b owner program).run (earlier ++ [.advance w])).cluster.store.tenure? key =
        some lease ∧
      lease.IsOwnedBy token.leaseId token.nonce ∧ lease.ttl = terms.ttl.millis ∧
      lease.metadata = terms.metadata.text := by
  have hextends := extends_opened members b owner (.request (.acquire key terms)) answer
  change (opened members b owner ((Coordinator.acquire key terms).bind _)).Extends _ _ _ at hextends
  rw [← hprogram] at hextends
  obtain ⟨outcome, houtcome, hended⟩ := (hextends.run moves).ended (answer?_eq_some_iff.mp hanswered)
  obtain rfl := hanswer outcome houtcome
  have hwhole : ((Cluster.opened members b).run (.start owner (.request (.acquire key terms)) ::
    moves.map Move.shifted)).Ended 0 (.request (.acquire key terms)) (.ok token) := hended
  obtain ⟨hkey, earlier, w, later, lease, hmoves, hlease, howned, -, httl, hmetadata⟩ :=
    Cluster.recorded_of_ended hopened members hwhole
  -- the first of these moves starts the operation, so the grant is among the others
  cases earlier with
  | nil => cases hmoves
  | cons start before =>
    obtain ⟨rfl, hafter⟩ := List.cons.inj hmoves
    obtain ⟨first, rest, rfl, rfl, hrest⟩ := List.map_eq_append_iff.mp hafter
    obtain ⟨m, last, rfl, hm, rfl⟩ := List.map_eq_cons_iff.mp hrest
    obtain rfl := Move.eq_advance_of_shifted hm
    refine ⟨hkey, first, w, last, lease, rfl, ?_, howned, httl, hmetadata⟩
    have hstore := (hextends.run (first ++ [.advance w])).store_eq
    rw [← hstore, List.map_append]
    exact hlease

end ClusterWithProgram

end LeaseLock
