import LeaseLock.Proofs.Coordinator.ConcurrentCluster
import LeaseLock.Proofs.Coordinator.Limits

/-!
The three ways to run coordinators side by side, each a special case of the next: none of them is
closed; calls on the store take effect as they are made; calls overlap.
-/

namespace LeaseLock

open Interaction

theorem exists_foldl_of_step {σ τ α β : Type} {f : σ → α → σ} {g : τ → β → τ} {R : σ → τ → Prop}
    (hstep : ∀ s t a, R s t → ∃ bs : List β, R (f s a) (bs.foldl g t)) {s : σ} {t : τ} (h : R s t)
    (as : List α) : ∃ bs : List β, R (as.foldl f s) (bs.foldl g t) := by
  induction as generalizing s t with
  | nil => exact ⟨[], h⟩
  | cons a later ih =>
    obtain ⟨first, hfirst⟩ := hstep s t a h
    obtain ⟨second, hsecond⟩ := ih hfirst
    rw [← List.foldl_append] at hsecond
    exact ⟨first ++ second, hsecond⟩

theorem Backing.IsReady.not_isClosed {b : Backing} (h : b.IsReady) : ¬b.IsClosed := by
  intro hclosed
  cases b with
  | memory registry =>
    have hopen : registry.closed = false := h
    have hshut : registry.closed = true := hclosed
    cases hopen.symm.trans hshut
  | sql store =>
    obtain ⟨table, htable⟩ := h
    have hshut : store.connection = .closed := hclosed
    simp only [Sql.Store.table, hshut] at htable
    cases htable

/-- Coordinators with every limit on calls that there can be. -/
def Coordinator.ofLimit (n : Nat) : Coordinator := ⟨.clamp n⟩

theorem Coordinator.surjective_ofLimit : Function.Surjective ofLimit := by
  rintro ⟨limit⟩
  refine ⟨limit.nanos, congrArg Coordinator.mk ?_⟩
  rw [Span.clamp, Span.ofNanos?_eq_some_iff.mpr rfl, Option.getD_some]

def Task.outline (t : Task) : Σ o : Operation, Program (Outcome o.Answer) :=
  ⟨.request t.request, t.rest⟩

def Job.outline (j : Job) : Σ o : Operation, Program (Outcome o.Answer) := ⟨j.operation, j.rest⟩

namespace OpenCluster

/-- A cluster with the same store and operations, whose coordinators have not been closed. -/
structure Mirrors (s : OpenCluster) (c : Cluster) : Prop where
  store : c.store = s.store
  outlines : c.jobs.map Job.outline = s.tasks.map Task.outline
  closed : ∀ owner, c.closed owner = false

structure Embeds (members : Nat → Coordinator) (s : OpenCluster) (c : Cluster) : Prop
    extends Mirrors s c where
  members : c.members = members
  ready : s.store.IsReady
  limited : ∀ t ∈ s.tasks, t.rest.IsLimited false

variable {s : OpenCluster} {c : Cluster} {members : Nat → Coordinator}

theorem Embeds.respond_eq (h : Embeds members s c) (owner : Nat) (w : EffectInput) {effect : Effect}
    (hpermits : (limiting false).permits () effect) :
    c.respond owner w effect =
      ((s.store.respond w effect).1, { c with store := (s.store.respond w effect).2 }) := by
  have hopen : ¬c.store.IsClosed := h.store ▸ h.ready.not_isClosed
  rw [← h.store]
  cases effect with
  | call limit call =>
    cases limit with
    | none => cases hpermits.2
    | some limit => simp only [Cluster.respond, Cluster.input, hopen, if_false]
  | isClosed => simp only [Cluster.respond, Backing.respond, h.closed]
  | markClosed => cases hpermits
  | _ => rfl

theorem ready_respond {b : Backing} (h : b.IsReady) (w : EffectInput) {effect : Effect}
    (hpermits : (limiting false).permits () effect) : (b.respond w effect).2.IsReady := by
  obtain hsame | ⟨limit, call, rfl, hstate⟩ := b.respond_state w effect
  · rw [hsame]
    exact h
  · rw [hstate]
    cases limit with
    | none => cases hpermits.2
    | some limit => exact h.applyAt w.reading w.id hpermits

theorem Embeds.exists_job (h : Embeds members s c) {i : Nat} {t : Task} (ht : s.tasks[i]? = some t) :
    ∃ owner heard, c.jobs[i]? = some ⟨owner, .request t.request, heard, t.rest⟩ := by
  have houtline : (c.jobs.map Job.outline)[i]? = some t.outline := by
    rw [h.outlines, List.getElem?_map, ht]
    rfl
  rw [List.getElem?_map] at houtline
  obtain ⟨⟨owner, operation, heard, rest⟩, hjob, hsame⟩ := Option.map_eq_some_iff.mp houtline
  cases hsame
  exact ⟨owner, heard, hjob⟩

theorem Embeds.exists_step (h : Embeds members s c) (hmembers : members.Surjective) (m : Move) :
    ∃ moves, Embeds members (s.step m) (c.run moves) := by
  cases m with
  | start coordinator request =>
    obtain ⟨owner, rfl⟩ := hmembers coordinator
    refine ⟨[.start owner (.request request)], ⟨h.store, ?_, h.closed⟩, h.members, h.ready, ?_⟩
    · simp only [Cluster.run, Cluster.step, List.foldl_cons, List.foldl_nil, step, List.map_append,
        h.outlines, h.members]
      rfl
    · intro t ht
      obtain hold | hnew := List.mem_append.mp ht
      · exact h.limited t hold
      · obtain rfl := List.mem_singleton.mp hnew
        exact request.isLimited _
  | purge reading =>
    refine ⟨[.visit ⟨.purge, reading, ""⟩], ⟨?_, h.outlines, h.closed⟩, h.members,
      h.ready.purgeAt reading, h.limited⟩
    exact congrArg (Backing.purgeAt · reading) h.store
  | advance i w =>
    cases ht : s.tasks[i]? with
    | none =>
      simp only [step, ht]
      exact ⟨[], h⟩
    | some t =>
      obtain ⟨request, rest⟩ := t
      obtain ⟨owner, heard, hjob⟩ := h.exists_job ht
      simp only [step, ht]
      cases rest with
      | done outcome =>
        obtain ⟨hi, hsame⟩ := List.getElem?_eq_some_iff.mp ht
        simp only [Task.advance]
        rw [← hsame, List.set_getElem_self]
        exact ⟨[], h⟩
      | ask effect next =>
        have hlimited := h.limited _ (List.mem_of_getElem? ht)
        have hpermits := hlimited.permits
        refine ⟨[.advance i w], ⟨?_, ?_, ?_⟩, ?_, ready_respond h.ready w hpermits, ?_⟩
        all_goals simp only [Cluster.run, List.foldl_cons, List.foldl_nil, Cluster.step_ask hjob,
          h.respond_eq owner w hpermits, Task.advance]
        · simp only [List.map_set, h.outlines]
          rfl
        · exact h.closed
        · exact h.members
        · intro t hmem
          obtain hold | rfl := List.mem_or_eq_of_mem_set hmem
          · exact h.limited t hold
          · exact hlimited.next _

/-- Operations of coordinators that are not closed run side by side as in a cluster, where those with
one limit can share a coordinator. -/
theorem exists_mirrors {b : Backing} (h : b.IsReady) (moves : List Move) :
    ∃ more, ((opened b).run moves).Mirrors ((Cluster.opened .ofLimit b).run more) := by
  have hstart : Embeds .ofLimit (opened b) (.opened .ofLimit b) :=
    ⟨⟨rfl, rfl, fun _ => rfl⟩, rfl, h, fun _ ht => (List.not_mem_nil ht).elim⟩
  obtain ⟨more, hmore⟩ := exists_foldl_of_step
    (fun _ _ m h => h.exists_step Coordinator.surjective_ofLimit m) hstart moves
  exact ⟨more, hmore.toMirrors⟩

end OpenCluster

namespace Backing

variable {b : Backing}

def marked : Backing → Backing
  | .memory registry => .memory { registry with closed := true }
  | .sql store => .sql { store with connection := .closed }

theorem not_isClosed_applyAt (h : ¬b.IsClosed) (reading : Int) (newNonce : String) {call : Call}
    (hcall : call ≠ .close) : ¬(b.applyAt reading newNonce call).state.IsClosed := by
  cases b with
  | memory registry =>
    have hopen : registry.closed = false := Bool.not_eq_true _ ▸ h
    have hstill := registry.open_apply hopen reading newNonce hcall
    exact ne_true_of_eq_false hstill
  | sql store => exact store.not_closed_applyAt h (reading / nanosPerMilli) newNonce hcall

theorem applyAt_close (h : ¬b.IsClosed) (reading : Int) (newNonce : String) :
    (b.applyAt reading newNonce .close).outcome = .ok () ∧
      (b.applyAt reading newNonce .close).state = b.emptied.marked := by
  cases b with
  | memory registry =>
    have hopen : registry.closed = false := Bool.not_eq_true _ ▸ h
    simp [applyAt, Registry.apply, Registry.close, emptied, marked, hopen]
  | sql store =>
    have hopen : store.connection ≠ .closed := h
    cases hconnection : store.connection <;>
      simp_all [applyAt, Sql.Store.applyAt, Sql.Store.close, emptied, marked]

theorem isClosed_marked (b : Backing) : b.marked.IsClosed := by
  cases b <;> rfl

theorem marked_of_isClosed (h : b.IsClosed) : b.marked = b := by
  cases b with
  | memory registry =>
    have hclosed : registry.closed = true := h
    simp only [marked, ← hclosed]
  | sql store =>
    have hclosed : store.connection = .closed := h
    simp only [marked, ← hclosed]

theorem marked_purgeAt (b : Backing) (reading : Int) :
    (b.purgeAt reading).marked = b.marked.purgeAt reading := by
  cases b with
  | memory registry =>
    simp only [purgeAt, marked]
    cases Instant.ofNanos? reading <;> rfl
  | sql store => rfl

theorem isClosed_purgeAt (b : Backing) (reading : Int) :
    (b.purgeAt reading).IsClosed ↔ b.IsClosed := by
  cases b with
  | memory registry =>
    simp only [purgeAt]
    cases Instant.ofNanos? reading <;> rfl
  | sql store => rfl

theorem finish_of_ne {call : Call} (hcall : call ≠ .close) (reading : Int) (newNonce : String) :
    b.finish reading newNonce call =
      ((b.applyAt reading newNonce call).outcome, (b.applyAt reading newNonce call).state) := by
  cases call with
  | close => exact absurd rfl hcall
  | _ => rfl

end Backing

def Job.ready : Job → ConcurrentJob
  | ⟨owner, operation, heard, rest⟩ => ⟨owner, operation, heard, .ready rest⟩

namespace Cluster

/-- A cluster with the same store and operations in which calls may overlap, at a moment when no
operation waits for one. -/
structure Mirrors (c : Cluster) (s : ConcurrentCluster) : Prop where
  store : c.store = if s.refuses then s.store.marked else s.store
  jobs : s.jobs = c.jobs.map Job.ready
  closed : s.closed = c.closed

structure Embeds (c : Cluster) (s : ConcurrentCluster) : Prop extends Mirrors c s where
  members : s.members = c.members
  ready : s.refuses = false → ¬c.store.IsClosed
  limited : ∀ job ∈ c.jobs, job.rest.IsLimited true

variable {c : Cluster} {s : ConcurrentCluster} {i owner : Nat} {operation : Operation}
  {heard : List Exchange} {effect : Effect}
  {next : effect.Reply → Program (Outcome operation.Answer)}

theorem Embeds.isClosed_iff (h : Embeds c s) : c.store.IsClosed ↔ s.refuses = true := by
  cases hrefuses : s.refuses with
  | false => simp only [h.ready hrefuses, Bool.false_eq_true]
  | true =>
    rw [h.store, hrefuses, if_pos rfl]
    exact iff_of_true (Backing.isClosed_marked _) rfl

theorem Embeds.store_eq (h : Embeds c s) (hrefuses : s.refuses = false) : c.store = s.store := by
  rw [h.store, hrefuses]
  rfl

theorem Embeds.getElem? (h : Embeds c s) {job : Job} (hjob : c.jobs[i]? = some job) :
    s.jobs[i]? = some job.ready := by
  rw [h.jobs, List.getElem?_map, hjob]
  rfl

theorem Embeds.hear (h : Embeds c s) {c' : Cluster} {s' : ConcurrentCluster} {reply : effect.Reply}
    (hjob : c.jobs[i]? = some ⟨owner, operation, heard, Interaction.ask effect next⟩)
    (hc : c'.jobs = c.jobs.set i ⟨owner, operation, heard ++ [⟨effect, reply⟩], next reply⟩)
    (hs : s'.jobs = s.jobs.set i (.hear owner operation heard effect next reply))
    (hstore : c'.store = if s'.refuses then s'.store.marked else s'.store)
    (hclosed : s'.closed = c'.closed) (hmembers : s'.members = c'.members)
    (hready : s'.refuses = false → ¬c'.store.IsClosed) : Embeds c' s' := by
  refine ⟨⟨hstore, ?_, hclosed⟩, hmembers, hready, ?_⟩
  · rw [hs, hc, h.jobs, List.map_set]
    rfl
  · intro job hmem
    rw [hc] at hmem
    obtain hold | rfl := List.mem_or_eq_of_mem_set hmem
    · exact h.limited job hold
    · exact (h.limited _ (List.mem_of_getElem? hjob)).next reply

theorem Embeds.answer (h : Embeds c s)
    (hjob : c.jobs[i]? = some ⟨owner, operation, heard, Interaction.ask effect next⟩)
    (hcall : ∀ limit call, effect ≠ .call limit call) (w : EffectInput) :
    Embeds (c.step (.advance i w)) (s.step (.advance i w)) := by
  rw [step_ask hjob]
  simp only [ConcurrentCluster.step, h.getElem? hjob, Job.ready]
  cases effect with
  | call limit call => exact absurd rfl (hcall limit call)
  | isClosed =>
    simp only [ConcurrentCluster.answer, ConcurrentCluster.respond, respond, h.closed]
    exact h.hear hjob rfl rfl h.store rfl h.members h.ready
  | markClosed =>
    simp only [ConcurrentCluster.answer, ConcurrentCluster.respond, respond, h.closed]
    exact h.hear hjob rfl rfl h.store rfl h.members h.ready
  | _ => exact h.hear hjob rfl rfl h.store h.closed h.members h.ready

theorem Embeds.refused (h : Embeds c s) (hrefuses : s.refuses = true) {limit : Option Span}
    {call : Call} {next : CallReply call.Answer → Program (Outcome operation.Answer)}
    (hjob : c.jobs[i]? = some ⟨owner, operation, heard, Interaction.ask (.call limit call) next⟩)
    (w : EffectInput) : Embeds (c.step (.advance i w)) (s.step (.advance i w)) := by
  have hclosed := h.isClosed_iff.mpr hrefuses
  have hanswered : (c.input w (.call limit call)).delivery = .answered := by
    cases limit with
    | none => rfl
    | some limit => simp only [input, hclosed, if_true]
  have hrespond : c.respond owner w (.call limit call) =
      (.answered (Backing.closedOutcome call), c) := by
    simp only [respond, Backing.respond, hanswered, hclosed.applyAt_eq]
  rw [step_ask hjob, hrespond]
  simp only [ConcurrentCluster.step, h.getElem? hjob, Job.ready]
  rw [ConcurrentCluster.answer_ask hrefuses]
  exact h.hear hjob rfl rfl h.store h.closed h.members h.ready

theorem Embeds.closing (h : Embeds c s) (hrefuses : s.refuses = false)
    {next : CallReply Unit → Program (Outcome operation.Answer)}
    (hjob : c.jobs[i]? = some ⟨owner, operation, heard, Interaction.ask (.call none .close) next⟩)
    (w : EffectInput) :
    Embeds (c.step (.advance i w)) (s.run [.advance i w, .advance i w]) := by
  have hopen := h.ready hrefuses
  have hstore := h.store_eq hrefuses
  obtain ⟨houtcome, hstate⟩ := Backing.applyAt_close hopen w.reading w.id
  have hrespond : c.respond owner w (.call none .close) =
      (.answered (.ok ()), { c with store := c.store.emptied.marked }) := by
    simp only [respond, Backing.respond, input, houtcome, hstate]
  rw [step_ask hjob, hrespond]
  have hready := h.getElem? hjob
  have hi := (List.getElem?_eq_some_iff.mp hready).1
  simp only [ConcurrentCluster.run, List.foldl_cons, List.foldl_nil]
  rw [ConcurrentCluster.step_begin hrefuses hready,
    ConcurrentCluster.step_end (List.getElem?_set_self hi)]
  refine h.hear hjob rfl (List.set_set ..) ?_ h.closed h.members Bool.noConfusion
  exact congrArg (fun b : Backing => b.emptied.marked) hstore

theorem Embeds.exists_limited (h : Embeds c s) (hrefuses : s.refuses = false) {limit : Span}
    {call : Call} {next : CallReply call.Answer → Program (Outcome operation.Answer)}
    (hjob : c.jobs[i]? =
      some ⟨owner, operation, heard, Interaction.ask (.call (some limit) call) next⟩)
    (hcall : call ≠ .close) (w : EffectInput) :
    ∃ moves, Embeds (c.step (.advance i w)) (s.run (.advance i w :: moves)) := by
  have hopen := h.ready hrefuses
  have hstore := h.store_eq hrefuses
  have hready := h.getElem? hjob
  have hi := (List.getElem?_eq_some_iff.mp hready).1
  have hinput : c.input w (.call (some limit) call) = w := by simp only [input, hopen, if_false]
  simp only [ConcurrentCluster.run, List.foldl_cons]
  rw [step_ask hjob, ConcurrentCluster.step_begin hrefuses hready,
    s.begin_of_ne hcall]
  have hcalling : ({ s with jobs := s.jobs.set i ⟨owner, operation, heard,
      .calling (some limit) call next⟩ } : ConcurrentCluster).jobs[i]? =
        some ⟨owner, operation, heard, .calling (some limit) call next⟩ := List.getElem?_set_self hi
  have hended := Backing.not_isClosed_applyAt hopen w.reading w.id hcall
  have hfinish := Backing.finish_of_ne (b := c.store) hcall w.reading w.id
  rw [hstore] at hfinish
  simp only [respond, Backing.respond, hinput]
  cases w.delivery with
  | answered =>
    refine ⟨[.advance i w], ?_⟩
    rw [List.foldl_cons, List.foldl_nil, ConcurrentCluster.step_end hcalling]
    simp only [hfinish, List.set_set]
    refine h.hear hjob (hstore ▸ rfl) rfl ?_ h.closed h.members fun _ => hended
    rw [hrefuses, hstore]
    rfl
  | lost =>
    refine ⟨[.interrupt i false, .finish s.detached.length w.reading w.id], ?_⟩
    rw [List.foldl_cons, List.foldl_cons, List.foldl_nil, ConcurrentCluster.step_giveUp hcalling,
      ConcurrentCluster.step_finish List.getElem?_concat_length]
    simp only [hfinish, List.set_set]
    refine h.hear hjob rfl rfl ?_ h.closed h.members fun _ => hended
    rw [hrefuses, hstore]
    rfl
  | dropped =>
    refine ⟨[.interrupt i false], ?_⟩
    rw [List.foldl_cons, List.foldl_nil, ConcurrentCluster.step_giveUp hcalling]
    exact h.hear hjob rfl (List.set_set ..) h.store h.closed h.members h.ready

theorem Embeds.exists_advance (h : Embeds c s) (i : Nat) (w : EffectInput) :
    ∃ moves, Embeds (c.step (.advance i w)) (s.run moves) := by
  cases hjob : c.jobs[i]? with
  | none =>
    rw [step_none hjob]
    exact ⟨[], h⟩
  | some job =>
    have hmem := List.mem_of_getElem? hjob
    obtain ⟨owner, operation, heard, rest⟩ := job
    cases rest with
    | done outcome =>
      rw [step_done hjob]
      exact ⟨[], h⟩
    | ask effect next =>
      have hpermits := (h.limited _ hmem).permits
      cases effect with
      | call limit call =>
        cases hrefuses : s.refuses with
        | true => exact ⟨[.advance i w], h.refused hrefuses hjob w⟩
        | false =>
          cases limit with
          | none =>
            obtain ⟨rfl, -⟩ := hpermits
            exact ⟨_, h.closing hrefuses hjob w⟩
          | some limit =>
            obtain ⟨moves, hmoves⟩ := h.exists_limited hrefuses hjob hpermits w
            exact ⟨_, hmoves⟩
      | _ => exact ⟨[.advance i w], h.answer hjob (fun _ _ => Effect.noConfusion) w⟩

theorem Embeds.exists_visit (h : Embeds c s) (call : Call) (reading : Int) (newNonce : String) :
    ∃ moves, Embeds (c.step (.visit ⟨.call call, reading, newNonce⟩)) (s.run moves) := by
  cases hrefuses : s.refuses with
  | true =>
    refine ⟨[], ?_⟩
    have hsame : c.store.visit ⟨.call call, reading, newNonce⟩ = c.store := by
      simp only [Backing.visit, (h.isClosed_iff.mpr hrefuses).applyAt_eq]
    simp only [step, hsame]
    exact h
  | false =>
    have hopen := h.ready hrefuses
    have hstore := h.store_eq hrefuses
    refine ⟨[.begin call, .finish s.detached.length reading newNonce], ?_⟩
    rw [ConcurrentCluster.run_visit hrefuses]
    simp only [step, Backing.visit]
    by_cases hcall : call = .close
    · subst hcall
      rw [(Backing.applyAt_close hopen reading newNonce).2, hstore]
      exact ⟨⟨rfl, h.jobs, h.closed⟩, h.members, Bool.noConfusion, h.limited⟩
    · rw [s.begin_of_ne hcall, hstore, Backing.finish_of_ne hcall]
      refine ⟨⟨?_, h.jobs, h.closed⟩, h.members, fun _ => ?_, h.limited⟩
      · simp only [hrefuses, Bool.false_eq_true, if_false]
      · exact Backing.not_isClosed_applyAt (hstore ▸ hopen) reading newNonce hcall

theorem Embeds.exists_step (h : Embeds c s) (m : Move) :
    ∃ moves, Embeds (c.step m) (s.run moves) := by
  cases m with
  | start owner operation =>
    refine ⟨[.start owner operation], ⟨h.store, ?_, h.closed⟩, h.members, h.ready, ?_⟩
    · simp only [ConcurrentCluster.run, List.foldl_cons, List.foldl_nil, ConcurrentCluster.step, step,
        List.map_append, h.jobs, h.members]
      rfl
    · intro job hmem
      obtain hold | hnew := List.mem_append.mp hmem
      · exact h.limited job hold
      · obtain rfl := List.mem_singleton.mp hnew
        exact operation.isLimited _
  | advance i w => exact h.exists_advance i w
  | visit v =>
    obtain ⟨service, reading, newNonce⟩ := v
    cases service with
    | call call => exact h.exists_visit call reading newNonce
    | purge =>
      refine ⟨[.purge reading], ⟨?_, h.jobs, h.closed⟩, h.members, fun hrefuses => ?_, h.limited⟩
      · change c.store.purgeAt reading =
          if s.refuses then (s.store.purgeAt reading).marked else s.store.purgeAt reading
        rw [h.store, Backing.marked_purgeAt]
        split <;> rfl
      · exact (Backing.isClosed_purgeAt c.store reading).not.mpr (h.ready hrefuses)

/-- Operations whose calls take effect as they are made run as in a cluster where calls may overlap. -/
theorem exists_mirrors (members : Nat → Coordinator) (b : Backing) (moves : List Move) :
    ∃ more, ((opened members b).run moves).Mirrors ((ConcurrentCluster.opened members b).run more) := by
  have hstart : Embeds (opened members b) (.opened members b) := by
    refine ⟨⟨?_, rfl, rfl⟩, rfl, of_decide_eq_false, fun _ hjob => (List.not_mem_nil hjob).elim⟩
    by_cases hclosed : b.IsClosed
    · simp [opened, ConcurrentCluster.opened, hclosed, Backing.marked_of_isClosed]
    · simp [opened, ConcurrentCluster.opened, hclosed]
  obtain ⟨more, hmore⟩ := exists_foldl_of_step (fun _ _ m h => h.exists_step m) hstart moves
  exact ⟨more, hmore.toMirrors⟩

end Cluster

end LeaseLock
