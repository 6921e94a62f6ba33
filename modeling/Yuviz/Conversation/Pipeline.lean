import Yuviz.Conversation.TransferEngine
import Yuviz.Conversation.Workflow

/-!
# The transfers of the pipeline

`PipelineConversationHandler` asks the transfer engine at three places: for a
directive of the model, for an escalation, and for a transfer node of the
workflow. Only the last checks the destination first (`decisions_sound`).
-/

namespace Yuviz.Conversation

open Python

/-- What the handler reads of its configuration. -/
structure HandlerConfig where
  sessionId : String
  tenantId : String
  callId : String
  transferTypeDefault : String
  transferDestinationDefault : Option String
  escalationThreshold : Option Int
  callerIdPolicy : String := "original"
  platformDid : Option String := none
  customCallerId : Option String := none
  callerNumber : String := ""
  waitingExperience : String := "announcement_moh"

/-- The state of the handler, as far as transfers go. -/
structure Pipeline where
  /-- The latch: a transfer was requested and has not failed. -/
  transferRequested : Bool := false
  /-- An accepted escalation, which the end of a turn emits. -/
  pendingTransfer : Option TransferRequest := none
  fabricationTriggeredTransfer : Bool := false
  /-- The cancel event of the turn. -/
  cancelled : Bool := false
  guardrailCount : ℕ := 0
  bookingFabricationCount : ℕ := 0
  lastReportedNodeId : Option String := none
  workflow : WorkflowRunner

variable {cfg : HandlerConfig} {p : Pipeline} {id : String}

namespace Pipeline

/-- `_decision_context`: the destination of a transfer node replaces the agent's. -/
def decisionContext (cfg : HandlerConfig) (p : Pipeline) (destinationOverride : Option String) :
    DecisionContext where
  sessionId := cfg.sessionId
  tenantId := cfg.tenantId
  callId := cfg.callId
  transferType := cfg.transferTypeDefault
  transferDestination :=
    if orElse destinationOverride "" = "" then cfg.transferDestinationDefault
    else destinationOverride
  escalationThreshold := cfg.escalationThreshold
  alreadyRequested := p.transferRequested
  callerIdPolicy := cfg.callerIdPolicy
  platformDid := cfg.platformDid
  customCallerId := cfg.customCallerId
  callerNumber := cfg.callerNumber
  waitingExperience := cfg.waitingExperience

/-- The decision on a directive of the model, in `_run_turn`. -/
def directiveDecision (id : String) (cfg : HandlerConfig) (p : Pipeline) (d : TransferDirective) :
    Decision :=
  evaluate id (p.decisionContext cfg none) { type := .llmDirective, directive := some d }

/-- The decision on `count` violations in a row, in `_evaluate_escalation`. -/
def escalationDecision (id : String) (cfg : HandlerConfig) (p : Pipeline) (count : ℕ) : Decision :=
  evaluate id (p.decisionContext cfg none) { type := .escalation, violationCount := some count }

/-- The destination of a transfer node, as rendered with the variables of the call. -/
def nodeDestination (render : String → String) (node : Node) : Option String :=
  let destination := render (orElse node.transferDestination "")
  if destination = "" then none else some destination

/-- The decision on a transfer node, in `_workflow_transfer`, if the destination
    passes the check. -/
def workflowDecision (id : String) (cfg : HandlerConfig) (p : Pipeline) (render : String → String)
    (node : Node) : Option Decision :=
  let destination := nodeDestination render node
  match transferDestinationProblem destination with
  | some _ => none
  | none => some (evaluate id (p.decisionContext cfg destination)
      { type := .workflow, workflowReason := some s!"workflow_node:{node.name}" })

variable {render : String → String} {node : Node} {d : Decision}

/-- A rendered destination that passes the check is the one of the context. -/
theorem destination_of_override {s : String} (h : transferDestinationProblem (some s) = none) :
    (p.decisionContext cfg (some s)).transferDestination = some s := by
  have hs : s ≠ "" := by
    rintro rfl
    cases h
  simp [decisionContext, orElse, hs]

/-- The handler vets the transfer nodes of the workflow itself. -/
theorem workflowDecision_sound (h : d ∈ p.workflowDecision id cfg render node) :
    d.Sound (p.decisionContext cfg (nodeDestination render node)) := by
  simp only [workflowDecision] at h
  rcases hp : transferDestinationProblem (nodeDestination render node) with _ | e
  · rw [hp, Option.mem_some_iff] at h
    rw [← h, sound_iff]
    intro _ ht hd
    rcases hn : nodeDestination render node with _ | s
    · rw [hn] at hp
      cases hp
    · rw [hn] at hp ht hd
      have hs : orElse (some s) "" = s := by simp +contextual [orElse]
      rw [destination_of_override hp, hs]
      exact ⟨ht, hp⟩
  · rw [hp] at h
    cases h

/-- The decisions of the engine are sound exactly on vetted triggers, and so are
    those of the handler: on a directive if it can be dialled, on an escalation
    if the agent's own transfer can, and on every transfer node. -/
theorem decisions_sound_iff (id : String) :
    (∀ ctx trigger, (evaluate id ctx trigger).Sound ctx ↔
      (ctx.alreadyRequested = false → Vetted ctx trigger)) ∧
    ∀ (cfg : HandlerConfig) (p : Pipeline),
      (∀ d, (p.directiveDecision id cfg d).Sound (p.decisionContext cfg none) ↔
        (p.transferRequested = false → d.transferType ≠ .none → d.destination ≠ "" →
          Dialable (p.decisionContext cfg none) d.destination)) ∧
      (∀ count : ℕ, (p.escalationDecision id cfg count).Sound (p.decisionContext cfg none) ↔
        (p.transferRequested = false → ∀ threshold ∈ cfg.escalationThreshold,
          threshold < count → Configured (p.decisionContext cfg none))) ∧
      ∀ render node, ∀ d ∈ p.workflowDecision id cfg render node,
        d.Sound (p.decisionContext cfg (nodeDestination render node)) := by
  refine ⟨fun ctx trigger => sound_iff, fun cfg p => ⟨fun d => ?_, fun count => ?_, ?_⟩⟩
  · rw [directiveDecision, sound_iff]
    simp [Vetted, decisionContext]
  · rw [escalationDecision, sound_iff]
    simp [Vetted, decisionContext]
  · intro render node d hd
    exact workflowDecision_sound hd

/-- An agent with the transfer type and the destination given. -/
private def agent (transferType : String) (destination : Option String) : HandlerConfig where
  sessionId := "s1"
  tenantId := "t1"
  callId := "c1"
  transferTypeDefault := transferType
  transferDestinationDefault := destination
  escalationThreshold := none

/-- The attributes of `[[TRANSFER type="cold" destination=..]]`. -/
private def cold (destination : String) : String → Option String
  | "type" => some "cold"
  | "destination" => some destination
  | _ => none

/-- The handler of a call that has just begun. -/
private def justBegun : Pipeline where
  workflow := { node := { id := "start", type := .start, name := "greeting" }, visited := ["greeting"] }

/-- A directive is accepted to whatever destination the model writes, and even
    if the agent transfers no calls. -/
theorem not_directiveDecision_sound :
    (¬(justBegun.directiveDecision "x1" (agent "cold" (some "1001")) (.build (cold "call me"))).Sound
      (justBegun.decisionContext (agent "cold" (some "1001")) none)) ∧
    ¬(justBegun.directiveDecision "x1" (agent "none" none) (.build (cold "1001"))).Sound
      (justBegun.decisionContext (agent "none" none) none) := by
  constructor
  · intro h
    obtain ⟨-, r, hr, -, hdestination⟩ := h rfl
    cases hr
    exact absurd hdestination (by decide)
  · intro h
    obtain ⟨-, r, hr, htype, -⟩ := h rfl
    exact htype rfl

end Pipeline

end Yuviz.Conversation
