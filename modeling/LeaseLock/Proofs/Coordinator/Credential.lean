import LeaseLock.Coordinator.Basic
import LeaseLock.Proofs.Coordinator.Contract

namespace LeaseLock

open Interaction

inductive Standing
  | fresh
  | half (leaseId : String)
  | named (leaseId nonce : String)
  | holding (token : Token)
  /-- Its nonce may be on record, but it has no token and makes no further claim. -/
  | spent

namespace Standing

def nonce? : Standing → Option String
  | .named _ nonce => some nonce
  | .holding token => some token.nonce
  | _ => none

def minted : Standing → String → Standing
  | .fresh, id => .half id
  | .half leaseId, id => .named leaseId id
  | s, _ => s

def ofAttempt (claim : Claim) : CallReply Grant → Standing
  | .answered (.ok (.granted validUntil)) =>
    .holding ⟨claim.key, claim.leaseId, validUntil, claim.nonce⟩
  | .answered (.ok .contended) => .named claim.leaseId claim.nonce
  | _ => .spent

def ofRenewal (key leaseId : String) : CallReply (Option Renewal) → Standing
  | .answered (.ok (some renewal)) => .holding ⟨key, leaseId, renewal.validUntil, renewal.nonce⟩
  | _ => .fresh

def Returns (s : Standing) (outcome : Outcome Token) : Prop :=
  ∀ token, outcome = .ok token → s = .holding token

end Standing

def credential : Contract Effect Effect.Reply Standing where
  permits s effect :=
    match effect with
    | .call _ (.acquire claim) => s = .named claim.leaseId claim.nonce ∧ isValidKey claim.key = true
    | .call _ (.renew key _ _ _) => s = .fresh ∧ isValidKey key = true
    | .call _ .close => False
    | .call _ _ => s = .fresh
    | _ => True
  allows _ _ := True
  next s effect reply :=
    match effect, reply with
    | .call _ (.acquire claim), reply => .ofAttempt claim reply
    | .call _ (.renew key leaseId _ _), reply => .ofRenewal key leaseId reply
    | .mint, id => s.minted id
    | _, _ => s

theorem Standing.next_holding (token : Token) (effect : Effect)
    (hpermits : credential.permits (.holding token) effect) (reply : effect.Reply) :
    credential.next (.holding token) effect reply = .holding token := by
  cases effect with
  | call limit call =>
    cases call with
    | acquire claim => cases hpermits.1
    | renew key leaseId nonce ttl => cases hpermits.1
    | release key leaseId nonce => rfl
    | isHeld key => rfl
    | probe => rfl
    | close => rfl
  | mint => rfl
  | pause delay => rfl
  | drawWord => rfl
  | readClock => rfl
  | count counter => rfl
  | recordDuration seconds => rfl
  | report event => rfl
  | isClosed => rfl
  | markClosed => rfl

def Effect.IsQuiet : Effect → Prop
  | .call _ _ | .mint => False
  | _ => True

section

variable {α : Type} {post : Standing → α → Prop} {s : Standing} {effect : Effect}

theorem keeps_quiet {f : effect.Reply → Program α} (hquiet : effect.IsQuiet)
    (hnext : ∀ reply, Keeps credential post s (f reply)) :
    Keeps credential post s (Program.ask effect >>= f) := by
  refine keeps_query ?_ ?_
  · cases effect <;> trivial
  · intro reply _
    cases effect <;> first | exact hnext reply | exact hquiet.elim

theorem keeps_report {level : Level} {message : String} {fields : List (String × String)}
    {f : Unit → Program α} (hnext : ∀ reply, Keeps credential post s (f reply)) :
    Keeps credential post s (Program.report level message fields >>= f) := by
  unfold Program.report
  exact keeps_quiet trivial hnext

end

theorem keeps_failed {s : Standing} {fault : Fault} :
    Keeps credential Standing.Returns s (pure (.failed fault)) :=
  keeps_pure fun _ h => by cases h

theorem keeps_overflow {s : Standing} : Keeps credential Standing.Returns s (pure .overflow) :=
  keeps_pure fun _ h => by cases h

namespace Acquisition

variable {a : Acquisition}

theorem keeps_recordDuration (s : Standing) :
    Keeps credential (fun t _ => t = s) s a.recordDuration := by
  refine keeps_quiet trivial ?_
  intro now
  exact keeps_quiet trivial fun _ => keeps_pure rfl

theorem keeps_succeed (attempt : Nat) (validUntil : Instant) :
    Keeps credential Standing.Returns (.holding (a.token validUntil))
      (a.succeed attempt validUntil) := by
  refine keeps_quiet trivial ?_
  intro _
  refine Keeps.bind ?_
  refine (keeps_recordDuration _).imp ?_
  rintro t _ rfl
  refine keeps_report ?_
  intro _
  refine keeps_pure ?_
  rintro token htoken
  cases htoken
  rfl

theorem keeps_settle (attempt : Nat) (retry : Program (Outcome Token))
    (hretry : Keeps credential Standing.Returns (.named a.claim.leaseId a.claim.nonce) retry)
    (reply : CallReply Grant) :
    Keeps credential Standing.Returns (.ofAttempt a.claim reply)
      (a.settle attempt retry (.ofReply reply)) := by
  cases reply with
  | timedOut =>
    refine keeps_report ?_
    intro _
    exact keeps_quiet trivial fun _ => keeps_failed
  | answered outcome =>
    cases outcome with
    | failed fault =>
      refine keeps_report ?_
      intro _
      exact keeps_quiet trivial fun _ => keeps_failed
    | overflow => exact keeps_overflow
    | ok grant =>
      cases grant with
      | contended => exact keeps_quiet trivial fun _ => hretry
      | granted validUntil => exact keeps_succeed attempt validUntil

theorem keeps_tryOnce (a : Acquisition) (attempt : Nat) (retry : Program (Outcome Token))
    (hkey : isValidKey a.claim.key = true)
    (hretry : Keeps credential Standing.Returns (.named a.claim.leaseId a.claim.nonce) retry) :
    Keeps credential Standing.Returns (.named a.claim.leaseId a.claim.nonce)
      (a.tryOnce.bind (a.settle attempt retry)) := by
  refine keeps_quiet trivial ?_
  intro _
  refine keeps_query ⟨rfl, hkey⟩ ?_
  intro reply _
  exact keeps_settle attempt retry hretry reply

theorem keeps_giveUp (a : Acquisition) (s : Standing) :
    Keeps credential Standing.Returns s a.giveUp := by
  refine keeps_quiet trivial ?_
  intro _
  refine Keeps.bind ?_
  refine (keeps_recordDuration _).imp ?_
  rintro t _ rfl
  exact keeps_report fun _ => keeps_failed

theorem keeps_chooseWait (a : Acquisition) (attempt : Nat) (s : Standing) :
    Keeps credential (fun t _ => t = s) s (a.chooseWait attempt) := by
  simp only [chooseWait]
  split
  · exact keeps_quiet trivial fun _ => keeps_pure rfl
  · exact keeps_pure rfl

theorem keeps_backOff (a : Acquisition) (attempt : Nat) (s : Standing) :
    Keeps credential (fun t _ => t = s) s (a.backOff attempt) := by
  refine Keeps.bind ?_
  refine (keeps_chooseWait a attempt s).imp ?_
  rintro t wait rfl
  cases wait with
  | none => exact keeps_pure rfl
  | some delay =>
    refine keeps_report ?_
    intro _
    exact keeps_quiet trivial fun _ => keeps_pure rfl

theorem keeps_run (a : Acquisition) (hkey : isValidKey a.claim.key = true) (attempt left : Nat) :
    Keeps credential Standing.Returns (.named a.claim.leaseId a.claim.nonce)
      (a.run attempt left) := by
  induction left generalizing attempt with
  | zero =>
    rw [run]
    exact keeps_tryOnce a attempt _ hkey (keeps_giveUp a _)
  | succ left ih =>
    rw [run]
    refine keeps_tryOnce a attempt _ hkey ?_
    refine Keeps.bind ?_
    refine (keeps_backOff a attempt _).imp ?_
    rintro t outcome rfl
    cases outcome with
    | ok _ => exact ih (attempt + 1)
    | failed fault => exact keeps_failed
    | overflow => exact keeps_overflow

end Acquisition

namespace Coordinator

variable {α : Type} {post : Standing → Outcome α → Prop} {s : Standing}

theorem keeps_guarded {check : Except Fault Unit} {next : Program (Outcome α)}
    (hfailed : ∀ fault, post s (.failed fault))
    (hnext : check = .ok () → Keeps credential post s next) :
    Keeps credential post s (Program.guarded check next) := by
  cases check with
  | ok _ => exact hnext rfl
  | error fault => exact keeps_pure (hfailed fault)

theorem keeps_whenOpen {next : Program (Outcome α)} (hfailed : post s (.failed .closed))
    (hnext : Keeps credential post s next) : Keeps credential post s (Program.whenOpen next) := by
  refine keeps_quiet trivial ?_
  intro closed
  split
  · exact keeps_pure hfailed
  · exact hnext

theorem isValidKey_of_checkKey {key : String} (h : checkKey key = .ok ()) :
    isValidKey key = true := by
  unfold checkKey at h
  split at h
  · assumption
  · cases h

theorem failed_returns {s : Standing} (fault : Fault) : s.Returns (.failed fault) :=
  fun _ h => by cases h

theorem keeps_acquire (key : String) (terms : Terms) :
    Keeps credential Standing.Returns .fresh (acquire key terms) := by
  refine keeps_guarded failed_returns fun hkey => ?_
  refine keeps_guarded failed_returns fun _ => ?_
  refine keeps_whenOpen (failed_returns _) ?_
  refine keeps_query trivial fun leaseId _ => ?_
  refine keeps_query trivial fun nonce _ => ?_
  refine keeps_quiet trivial fun started => ?_
  have hnamed : credential.next (credential.next .fresh .mint leaseId) .mint nonce =
      .named leaseId nonce := rfl
  rw [hnamed]
  exact Acquisition.keeps_run ⟨⟨key, leaseId, nonce, terms.ttl, terms.metadata.text⟩, terms.backoff,
    terms.effectiveLimit, started⟩ (isValidKey_of_checkKey hkey) 0 terms.backoff.retries.toNat

theorem keeps_answering {c : Coordinator} {call : Call} {next : call.Answer → Program (Outcome α)}
    (hpermits : credential.permits s (.call (some c.callLimit) call))
    (hfailed : ∀ t fault, post t (.failed fault)) (hoverflow : ∀ t, post t .overflow)
    (hnext : ∀ answer, Keeps credential post
      (credential.next s (.call (some c.callLimit) call) (.answered (.ok answer))) (next answer)) :
    Keeps credential post s (c.answering call next) := by
  refine Keeps.bind ?_
  refine keeps_query hpermits ?_
  intro reply _
  cases reply with
  | timedOut => exact keeps_pure (keeps_pure (hfailed _ _))
  | answered outcome =>
    cases outcome with
    | ok answer => exact keeps_pure (hnext answer)
    | failed fault => exact keeps_pure (keeps_pure (hfailed _ _))
    | overflow => exact keeps_pure (keeps_pure (hoverflow _))

theorem keeps_reject {message : String} {fault : Fault} (hfailed : post s (.failed fault)) :
    Keeps credential post s (reject message fault) := by
  refine keeps_quiet trivial ?_
  intro _
  refine keeps_report ?_
  intro _
  exact keeps_pure hfailed

theorem keeps_renew (c : Coordinator) (token : Token) (ttl : Span) :
    Keeps credential Standing.Returns .fresh (c.renew token ttl) := by
  refine keeps_guarded failed_returns fun hkey => ?_
  refine keeps_guarded failed_returns fun _ => ?_
  refine keeps_whenOpen (failed_returns _) ?_
  refine keeps_answering ⟨rfl, isValidKey_of_checkKey hkey⟩ (fun _ fault => failed_returns fault)
    (fun _ _ h => by cases h) ?_
  intro answer
  cases answer with
  | none => exact keeps_reject (failed_returns _)
  | some renewal =>
    refine keeps_quiet trivial ?_
    intro _
    refine keeps_report ?_
    intro _
    refine keeps_pure ?_
    rintro token htoken
    cases htoken
    rfl

theorem keeps_release (c : Coordinator) (token : Token) :
    Keeps credential (fun _ _ => True) .fresh (c.release token) := by
  refine keeps_guarded (fun _ => trivial) fun _ => ?_
  refine keeps_whenOpen trivial ?_
  refine keeps_answering rfl (fun _ _ => trivial) (fun _ => trivial) ?_
  intro removed
  split
  · exact keeps_reject trivial
  · refine keeps_quiet trivial ?_
    intro _
    refine keeps_report ?_
    intro _
    exact keeps_pure trivial

theorem keeps_isHeld (c : Coordinator) (token : Token) :
    Keeps credential (fun _ _ => True) .fresh (c.isHeld token) := by
  refine keeps_guarded (fun _ => trivial) fun _ => ?_
  refine keeps_whenOpen trivial ?_
  refine keeps_query rfl ?_
  intro reply _
  cases reply with
  | timedOut => exact keeps_pure trivial
  | answered outcome => exact keeps_pure trivial

end Coordinator

end LeaseLock
