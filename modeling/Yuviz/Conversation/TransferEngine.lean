import Yuviz.Python.Str

/-!
# The transfer decision engine

`TransferDecisionEngine.evaluate` decides whether a trigger (a directive of the
model, an escalation, the workflow, an outside request) starts a transfer. It
checks that a destination is there, not that it can be dialled: an accepted
request is sound only if the trigger was vetted before (`sound_iff`).
-/

namespace Yuviz.Conversation

open Python

/-! ## The destination check of the session setup -/

/-- What `transfer_destination_problem` diagnoses. -/
inductive DestinationProblem
  | empty
  | malformedSipUri (destination : List Char)
  | unroutable (destination : List Char)
  deriving DecidableEq

/-- What follows the scheme, if `d.lower().startswith(("sip:", "sips:"))`: no
    other characters have `s`, `i` or `p` as their lower case. -/
def afterScheme (d : List Char) : Option (List Char) :=
  match d.map Char.toLower with
  | 's' :: 'i' :: 'p' :: ':' :: _ => some (d.drop 4)
  | 's' :: 'i' :: 'p' :: 's' :: ':' :: _ => some (d.drop 5)
  | _ => none

/-- `_SIP_URI_RE` after its scheme, `[^@\s]+@[^\s]+$`, on a stripped string: the
    first `@` ends the user. -/
def userAtHost (d : List Char) : Bool :=
  let user := d.takeWhile (· ≠ '@')
  let host := (d.dropWhile (· ≠ '@')).drop 1
  user ≠ [] ∧ user.all (!isspace ·) ∧ host ≠ [] ∧ host.all (!isspace ·)

/-- `_PHONE_RE`, `^\+?\d{2,15}$`, on a stripped string. -/
def isPhone (d : List Char) : Bool :=
  let digits := if d.head? = some '+' then d.drop 1 else d
  digits.all isdecimal ∧ 2 ≤ digits.length ∧ digits.length ≤ 15

/-- `pipeline.transfer_destination_problem`. -/
def transferDestinationProblem (destination : Option String) : Option DestinationProblem :=
  match destination with
  | none => some .empty
  | some s =>
    let d := strip s.toList
    if d = [] then some .empty
    else
      match afterScheme d with
      | some rest => if userAtHost rest then none else some (.malformedSipUri d)
      | none => if isPhone d then none else some (.unroutable d)

example : transferDestinationProblem (some "SIPS:agent@host.tld") = none ∧
    transferDestinationProblem (some "sip:x") = some (.malformedSipUri "sip:x".toList) := by
  decide

/-! ## Requests -/

inductive TransferType
  | warm
  | cold
  | none
  deriving DecidableEq, Repr

def coerceTransferType (raw : String) : TransferType :=
  match raw with
  | "warm" => .warm
  | "cold" => .cold
  | _ => .none

/-- A `[[TRANSFER ..]]` tag of the model's reply. -/
structure TransferDirective where
  transferType : TransferType
  destination : String
  reason : String
  deriving DecidableEq, Repr

/-- `DirectiveParser._build` on a `TRANSFER` tag with the attributes `attrs`. -/
def TransferDirective.build (attrs : String → Option String) : TransferDirective where
  transferType := coerceTransferType ((attrs "type").getD "none")
  destination := (attrs "destination").getD ""
  reason := (attrs "reason").getD ""

structure TransferRequest where
  sessionId : String
  tenantId : String
  callId : String
  transferType : TransferType
  destination : String
  reason : String
  trigger : String
  transferId : String
  callerId : String
  waitingExperience : String
  deriving DecidableEq, Repr

inductive TransferReason
  | customerRequest
  | escalationThreshold
  | workflowPolicy
  | systemRequest
  deriving DecidableEq

def TransferReason.wireTrigger : TransferReason → String
  | .customerRequest => "llm_directive"
  | .escalationThreshold => "escalation_threshold"
  | .workflowPolicy => "workflow_policy"
  | .systemRequest => "system_request"

/-! ## Decisions -/

inductive TriggerType
  | llmDirective
  | escalation
  | workflow
  | external
  deriving DecidableEq

structure TransferTrigger where
  type : TriggerType
  directive : Option TransferDirective := none
  violationCount : Option Int := none
  workflowReason : Option String := none
  externalReason : Option String := none

structure DecisionContext where
  sessionId : String
  tenantId : String
  callId : String
  /-- The agent's own transfer type: `none`, `cold` or `warm`. -/
  transferType : String
  transferDestination : Option String
  escalationThreshold : Option Int
  alreadyRequested : Bool := false
  callerIdPolicy : String := "original"
  platformDid : Option String := none
  customCallerId : Option String := none
  callerNumber : String := ""
  waitingExperience : String := "announcement_moh"

structure Decision where
  accepted : Bool
  request : Option TransferRequest := none
  rejectionReason : Option String := none

def resolveCallerId (ctx : DecisionContext) : String :=
  if ctx.callerIdPolicy = "platform" ∧ orElse ctx.platformDid "" ≠ "" then
    orElse ctx.platformDid ""
  else if ctx.callerIdPolicy = "custom" ∧ orElse ctx.customCallerId "" ≠ "" then
    orElse ctx.customCallerId ""
  else ctx.callerNumber

/-- The locals `evaluate` fills for every kind of trigger. -/
structure Terms where
  transferReason : TransferReason
  transferType : TransferType
  destination : String
  freeReason : String

/-- The terms of a trigger, or why it is turned down. -/
def terms (ctx : DecisionContext) (trigger : TransferTrigger) : Except String Terms :=
  match trigger.type with
  | .llmDirective =>
    match trigger.directive with
    | none => .error "missing_directive_payload"
    | some d => .ok ⟨.customerRequest, d.transferType, d.destination, d.reason⟩
  | .escalation =>
    match trigger.violationCount, ctx.escalationThreshold with
    | none, _ => .error "missing_violation_count"
    | some _, none => .error "threshold_not_reached"
    | some n, some threshold =>
      if n ≤ threshold then .error "threshold_not_reached"
      else .ok ⟨.escalationThreshold, coerceTransferType ctx.transferType,
        orElse ctx.transferDestination "", s!"escalation_threshold_exceeded (violations={n})"⟩
  | .workflow => .ok ⟨.workflowPolicy, coerceTransferType ctx.transferType,
      orElse ctx.transferDestination "", orElse trigger.workflowReason "workflow_policy"⟩
  | .external => .ok ⟨.systemRequest, coerceTransferType ctx.transferType,
      orElse ctx.transferDestination "", orElse trigger.externalReason "system_request"⟩

def reject (rejectionReason : String) : Decision where
  accepted := false
  rejectionReason := some rejectionReason

/-- The request on the terms `t`. -/
def Terms.request (transferId : String) (ctx : DecisionContext) (t : Terms) : TransferRequest where
  sessionId := ctx.sessionId
  tenantId := ctx.tenantId
  callId := ctx.callId
  transferType := t.transferType
  destination := t.destination
  reason := t.freeReason
  trigger := t.transferReason.wireTrigger
  transferId := transferId
  callerId := resolveCallerId ctx
  waitingExperience := ctx.waitingExperience

/-- `TransferDecisionEngine.evaluate`, where `transferId` is the fresh id of the
    request. -/
def evaluate (transferId : String) (ctx : DecisionContext) (trigger : TransferTrigger) : Decision :=
  if ctx.alreadyRequested then reject "already_transferring"
  else
    match terms ctx trigger with
    | .error e => reject e
    | .ok t =>
      if t.transferType = .none then reject "transfer_disabled"
      else if t.destination = "" then reject "no_destination_configured"
      else { accepted := true, request := some (t.request transferId ctx) }

variable {transferId : String} {ctx : DecisionContext} {trigger : TransferTrigger} {t : Terms}

/-- The transfer asked for on the terms `t` can be dialled: the agent transfers
    calls, and the destination passes the check of the session setup. -/
def Dialable (ctx : DecisionContext) (destination : String) : Prop :=
  coerceTransferType ctx.transferType ≠ .none ∧
    transferDestinationProblem (some destination) = none

instance (ctx : DecisionContext) (destination : String) : Decidable (Dialable ctx destination) :=
  inferInstanceAs (Decidable (_ ∧ _))

/-- An accepted decision is sound: no transfer was requested before, and its
    request can be dialled. -/
def Decision.Sound (ctx : DecisionContext) (d : Decision) : Prop :=
  d.accepted = true → ctx.alreadyRequested = false ∧
    ∃ r, d.request = some r ∧ Dialable ctx r.destination

/-- A trigger is turned down by its payload alone. -/
theorem evaluate_of_error {e : String} (h : terms ctx trigger = .error e) :
    (evaluate transferId ctx trigger).accepted = false := by
  rw [evaluate]
  split_ifs
  · rfl
  · rw [h]
    rfl

/-- What `evaluate` checks of the terms of a trigger. -/
theorem evaluate_accepted (h : terms ctx trigger = .ok t) :
    (evaluate transferId ctx trigger).accepted = true ↔
      ctx.alreadyRequested = false ∧ t.transferType ≠ .none ∧ t.destination ≠ "" := by
  rw [evaluate, h]
  by_cases hr : ctx.alreadyRequested = true
  · simp [hr, reject]
  · by_cases ht : t.transferType = .none
    · simp [hr, ht, reject]
    · by_cases hd : t.destination = "" <;> simp [hr, ht, hd, reject]

theorem evaluate_request (h : terms ctx trigger = .ok t)
    (ha : (evaluate transferId ctx trigger).accepted = true) :
    (evaluate transferId ctx trigger).request = some (t.request transferId ctx) := by
  obtain ⟨hr, ht, hd⟩ := (evaluate_accepted h).1 ha
  rw [evaluate, h]
  simp [hr, ht, hd]

/-- An accepted decision comes with a request that has a destination. -/
theorem evaluate_spec (ha : (evaluate transferId ctx trigger).accepted = true) :
    ctx.alreadyRequested = false ∧
      ∃ r, (evaluate transferId ctx trigger).request = some r ∧ r.destination ≠ "" := by
  rcases ht : terms ctx trigger with e | t
  · rw [evaluate_of_error ht] at ha
    cases ha
  · obtain ⟨hr, -, hd⟩ := (evaluate_accepted ht).1 ha
    exact ⟨hr, _, evaluate_request ht ha, hd⟩

/-- Soundness is what the engine leaves to its callers. -/
theorem sound_iff_of_terms (h : terms ctx trigger = .ok t) :
    (evaluate transferId ctx trigger).Sound ctx ↔
      (ctx.alreadyRequested = false → t.transferType ≠ .none → t.destination ≠ "" →
        Dialable ctx t.destination) := by
  refine ⟨fun hs hr ht hd => ?_, fun hs ha => ?_⟩
  · have ha : (evaluate transferId ctx trigger).accepted = true :=
      (evaluate_accepted h).2 ⟨hr, ht, hd⟩
    obtain ⟨-, r, hr, hp⟩ := hs ha
    rw [evaluate_request h ha, Option.some_inj] at hr
    subst hr
    exact hp
  · obtain ⟨hr, ht, hd⟩ := (evaluate_accepted h).1 ha
    exact ⟨hr, _, evaluate_request h ha, hs hr ht hd⟩

/-- The agent's own transfer is switched off, not configured, or can be dialled. -/
def Configured (ctx : DecisionContext) : Prop :=
  coerceTransferType ctx.transferType ≠ .none → orElse ctx.transferDestination "" ≠ "" →
    Dialable ctx (orElse ctx.transferDestination "")

/-- The trigger was vetted before it reached the engine: a directive asks for
    no transfer or for one that can be dialled, and any other trigger finds the
    agent's own transfer in order, unless it is an escalation that has not
    crossed the threshold. -/
def Vetted (ctx : DecisionContext) (trigger : TransferTrigger) : Prop :=
  match trigger.type with
  | .llmDirective => ∀ d ∈ trigger.directive, d.transferType ≠ .none → d.destination ≠ "" →
      Dialable ctx d.destination
  | .escalation => ∀ n ∈ trigger.violationCount, ∀ threshold ∈ ctx.escalationThreshold,
      threshold < n → Configured ctx
  | .workflow | .external => Configured ctx

/-- The terms of a vetted trigger. -/
theorem vetted_iff : Vetted ctx trigger ↔ ∀ t, terms ctx trigger = .ok t →
    t.transferType ≠ .none → t.destination ≠ "" → Dialable ctx t.destination := by
  obtain ⟨type, directive, violationCount, workflowReason, externalReason⟩ := trigger
  rcases type with _ | _ | _ | _
  · rcases directive with _ | d <;> simp [Vetted, terms]
  · rcases violationCount with _ | n
    · simp [Vetted, terms]
    · rcases hth : ctx.escalationThreshold with _ | threshold
      · simp [Vetted, terms, hth]
      · by_cases hn : n ≤ threshold
        · simp [Vetted, terms, hth, hn, Int.not_lt.2 hn]
        · simp [Vetted, terms, hth, hn, Configured, Int.not_le.1 hn]
  · simp [Vetted, terms, Configured]
  · simp [Vetted, terms, Configured]

theorem terms_cases (ctx : DecisionContext) (trigger : TransferTrigger) :
    (∃ e, terms ctx trigger = .error e) ∨ ∃ t, terms ctx trigger = .ok t := by
  rcases terms ctx trigger with e | t
  · exact .inl ⟨e, rfl⟩
  · exact .inr ⟨t, rfl⟩

/-- A decision is sound if and only if the trigger was vetted, or another
    transfer is under way. -/
theorem sound_iff : (evaluate transferId ctx trigger).Sound ctx ↔
    (ctx.alreadyRequested = false → Vetted ctx trigger) := by
  rw [vetted_iff]
  rcases terms_cases ctx trigger with ⟨e, he⟩ | ⟨t, ht⟩
  · refine ⟨fun _ _ t ht => ?_, fun _ ha => ?_⟩
    · rw [he] at ht
      cases ht
    · rw [evaluate_of_error he] at ha
      cases ha
  · rw [sound_iff_of_terms ht]
    refine forall_congr' fun _ => ⟨fun h t' ht' => ?_, fun h => h t ht⟩
    rw [ht, Except.ok.injEq] at ht'
    subst ht'
    exact h

end Yuviz.Conversation
