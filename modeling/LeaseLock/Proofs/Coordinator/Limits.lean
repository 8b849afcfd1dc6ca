import LeaseLock.Proofs.Coordinator.Cluster

namespace LeaseLock

open Interaction

def limiting (closes : Bool) : Contract Effect Effect.Reply Unit where
  permits _ effect :=
    match effect with
    | .call (some _) call => call ≠ .close
    | .call none call => call = .close ∧ closes = true
    | .markClosed => closes = true
    | _ => True
  allows _ _ := True
  next _ _ _ := ()

def Program.IsLimited {α : Type} (closes : Bool) (p : Program α) : Prop :=
  Keeps (limiting closes) (fun _ _ => True) () p

namespace Program

variable {α β : Type} {closes : Bool} {effect : Effect}

theorem isLimited_done (a : α) : IsLimited closes (.done a) := keeps_done.mpr trivial

theorem isLimited_query {f : effect.Reply → Program α} (hpermits : (limiting closes).permits () effect)
    (hnext : ∀ reply, IsLimited closes (f reply)) : IsLimited closes (query effect >>= f) :=
  keeps_query hpermits fun reply _ => hnext reply

theorem IsLimited.permits {next : effect.Reply → Program α}
    (h : IsLimited closes (Interaction.ask effect next)) : (limiting closes).permits () effect :=
  (keeps_ask.mp h).1

theorem IsLimited.next {next : effect.Reply → Program α}
    (h : IsLimited closes (Interaction.ask effect next)) (reply : effect.Reply) :
    (next reply).IsLimited closes :=
  (keeps_ask.mp h).2 reply trivial

theorem IsLimited.bind {x : Program α} {f : α → Program β} (h : x.IsLimited closes)
    (hnext : ∀ a, (f a).IsLimited closes) : (x >>= f).IsLimited closes :=
  Keeps.bind (Keeps.imp h fun _ a _ => hnext a)

theorem isLimited_guarded {check : Except Fault Unit} {next : Program (Outcome α)}
    (h : next.IsLimited closes) : (guarded check next).IsLimited closes := by
  cases check with
  | error fault => exact isLimited_done _
  | ok _ => exact h

theorem isLimited_whenOpen {next : Program (Outcome α)} (h : next.IsLimited closes) :
    (whenOpen next).IsLimited closes := by
  refine isLimited_query trivial fun closed => ?_
  split
  · exact isLimited_done _
  · exact h

end Program

namespace Acquisition

open Program

variable {closes : Bool}

theorem isLimited_recordDuration (a : Acquisition) : a.recordDuration.IsLimited closes :=
  isLimited_query trivial fun _ => isLimited_query trivial fun _ => isLimited_done _

theorem isLimited_giveUp (a : Acquisition) : a.giveUp.IsLimited closes := by
  refine isLimited_query trivial fun _ => ?_
  refine a.isLimited_recordDuration.bind fun _ => ?_
  exact isLimited_query trivial fun _ => isLimited_done _

theorem isLimited_settle (a : Acquisition) (attempt : Nat) {retry : Program (Outcome Token)}
    (h : retry.IsLimited closes) (met : Attempt) : (a.settle attempt retry met).IsLimited closes := by
  cases met with
  | granted validUntil =>
    refine isLimited_query trivial fun _ => ?_
    refine a.isLimited_recordDuration.bind fun _ => ?_
    exact isLimited_query trivial fun _ => isLimited_done _
  | contended => exact isLimited_query trivial fun _ => h
  | failed fault => exact isLimited_query trivial fun _ => isLimited_query trivial fun _ => isLimited_done _
  | timedOut => exact isLimited_query trivial fun _ => isLimited_query trivial fun _ => isLimited_done _
  | overflow => exact isLimited_done _

theorem isLimited_backOff (a : Acquisition) (attempt : Nat) : (a.backOff attempt).IsLimited closes := by
  have hchoose : (a.chooseWait attempt).IsLimited closes := by
    simp only [chooseWait]
    split
    · exact isLimited_query trivial fun _ => isLimited_done _
    · exact isLimited_done _
  refine hchoose.bind fun wait => ?_
  cases wait with
  | none => exact isLimited_done _
  | some delay => exact isLimited_query trivial fun _ => isLimited_query trivial fun _ => isLimited_done _

theorem isLimited_tryOnce (a : Acquisition) : a.tryOnce.IsLimited closes :=
  isLimited_query trivial fun _ => isLimited_query Call.noConfusion fun _ => isLimited_done _

theorem isLimited_run (a : Acquisition) (attempt left : Nat) : (a.run attempt left).IsLimited closes := by
  induction left generalizing attempt with
  | zero =>
    rw [run]
    exact a.isLimited_tryOnce.bind (a.isLimited_settle attempt a.isLimited_giveUp)
  | succ left ih =>
    rw [run]
    refine a.isLimited_tryOnce.bind (a.isLimited_settle attempt ?_)
    refine (a.isLimited_backOff attempt).bind fun outcome => ?_
    cases outcome with
    | ok _ => exact ih (attempt + 1)
    | failed fault => exact isLimited_done _
    | overflow => exact isLimited_done _

end Acquisition

namespace Coordinator

open Program

variable {closes : Bool} {α : Type}

theorem isLimited_bounded (c : Coordinator) {call : Call} (hcall : call ≠ .close) :
    (c.bounded call).IsLimited closes := by
  refine isLimited_query hcall fun reply => ?_
  cases reply <;> exact isLimited_done _

theorem isLimited_answering (c : Coordinator) {call : Call} (hcall : call ≠ .close)
    {next : call.Answer → Program (Outcome α)} (h : ∀ answer, (next answer).IsLimited closes) :
    (c.answering call next).IsLimited closes := by
  refine (c.isLimited_bounded hcall).bind fun outcome => ?_
  cases outcome with
  | ok answer => exact h answer
  | failed fault => exact isLimited_done _
  | overflow => exact isLimited_done _

theorem isLimited_reject (message : String) (fault : Fault) :
    (reject message fault : Program (Outcome α)).IsLimited closes :=
  isLimited_query trivial fun _ => isLimited_query trivial fun _ => isLimited_done _

theorem isLimited_health : health.IsLimited closes := by
  refine isLimited_query trivial fun closed => ?_
  split
  · exact isLimited_done _
  · refine isLimited_query trivial fun started => ?_
    refine isLimited_query Call.noConfusion fun reply => ?_
    refine IsLimited.bind (isLimited_query trivial fun _ => isLimited_done _) fun latency => ?_
    cases reply with
    | timedOut => exact isLimited_query trivial fun _ => isLimited_done _
    | answered outcome =>
      cases outcome with
      | overflow => exact isLimited_done _
      | failed fault => exact isLimited_query trivial fun _ => isLimited_done _
      | ok use =>
        refine IsLimited.bind ?_ fun _ => isLimited_done _
        simp only [describeProbe]
        split
        · exact isLimited_query trivial fun _ => isLimited_done _
        · exact isLimited_done _

end Coordinator

open Program

theorem Request.isLimited {closes : Bool} (c : Coordinator) (r : Request) :
    (r.program c).IsLimited closes := by
  cases r with
  | acquire key terms =>
    refine isLimited_guarded (isLimited_guarded (isLimited_whenOpen ?_))
    refine isLimited_query trivial fun leaseId => ?_
    refine isLimited_query trivial fun nonce => ?_
    refine isLimited_query trivial fun started => ?_
    exact Acquisition.isLimited_run _ _ _
  | release token =>
    refine isLimited_guarded (isLimited_whenOpen ?_)
    refine c.isLimited_answering Call.noConfusion fun removed => ?_
    split
    · exact Coordinator.isLimited_reject _ _
    · exact isLimited_query trivial fun _ => isLimited_query trivial fun _ => isLimited_done _
  | renew token ttl =>
    refine isLimited_guarded (isLimited_guarded (isLimited_whenOpen ?_))
    refine c.isLimited_answering Call.noConfusion fun renewal? => ?_
    cases renewal? with
    | none => exact Coordinator.isLimited_reject _ _
    | some renewal => exact isLimited_query trivial fun _ => isLimited_query trivial fun _ => isLimited_done _
  | isHeld token =>
    exact isLimited_guarded (isLimited_whenOpen (c.isLimited_bounded Call.noConfusion))

theorem Operation.isLimited (c : Coordinator) (o : Operation) : (o.program c).IsLimited true := by
  cases o with
  | request r => exact r.isLimited c
  | health => exact Coordinator.isLimited_health
  | close =>
    refine isLimited_query rfl fun closed => ?_
    split
    · exact isLimited_done _
    · refine isLimited_query trivial fun _ => ?_
      refine isLimited_query ⟨rfl, rfl⟩ fun reply => ?_
      cases reply <;> exact isLimited_done _

end LeaseLock
