import Yuviz.Conversation.Pipeline
import Yuviz.Conversation.Session

/-!
# A turn of the pipeline

The generators of the handler, `on_speech_ended` (or `on_text`) and
`on_transfer_failed`, as a machine on their program points (`Gen`): what the
speech recognition, the model and its tools answer is the environment, given by
the steps (`Pipeline.Step`).

An accepted transfer passes through the hands of the handler: an escalation is
kept as pending until the end of some turn, and at the end of a turn the
transfer to be made is chosen and yielded, at most one.
-/

namespace Yuviz.Conversation

/-- Where a generator of the handler is. -/
inductive Gen
  | idle
  /-- The utterance is being transcribed. -/
  | hearing
  | heard
  /-- The call has lasted too long: the goodbye is spoken, and the call ended. -/
  | wrappingUp
  /-- The model streams its reply, with the transfers it has asked for. -/
  | generating (directives : List TransferDirective) (endCall : Bool)
  /-- The reply is complete, and the active node is to be reported. -/
  | generated (directives : List TransferDirective) (endCall : Bool)
  | deciding (directives : List TransferDirective) (endCall : Bool)
  /-- A goodbye is spoken, if there was none, and the call ended. -/
  | ending
  /-- An accepted transfer is announced, and yielded. -/
  | announcing (tr : TransferRequest) (spoken : Bool)
  /-- The apology for a failed transfer. -/
  | recovering
  | finished
  deriving DecidableEq

namespace Pipeline

/-- What the generator does next, as its environment has it. -/
inductive Step
  | stt (text : String) (confidence : Int)
  /-- The turn begins: whether the guardrails are violated, and whether the call
      has lasted too long. -/
  | start (violation tooLong : Bool) (transferId : String)
  | directive (d : TransferDirective)
  | markEnd
  | transition (e : Edge)
  | audio (payload : Bytes)
  /-- The reply ends; whether it claims a booking that was never made. -/
  | stop (fabricated : Bool) (transferId : String)
  /-- The text of the reply, in a text chat. -/
  | reply (text : String)
  | report
  | decide (transferId workflowId : String)
  | endCall (gracePeriodMs : ℕ)
  | emit
  deriving DecidableEq

variable (cfg : HandlerConfig) (graph : WorkflowGraph) (render : String → String)

def evaluateEscalation (transferId : String) (count : ℕ) (p : Pipeline) :
    Pipeline × Option TransferRequest :=
  let decision := p.escalationDecision transferId cfg count
  if decision.accepted then
    ({ p with transferRequested := true, pendingTransfer := decision.request }, decision.request)
  else (p, none)

def recordGuardrailViolation (transferId : String) (p : Pipeline) : Pipeline :=
  let count := p.guardrailCount + 1
  (evaluateEscalation cfg transferId count { p with guardrailCount := count }).1

def recordBookingFabrication (transferId : String) (p : Pipeline) : Pipeline :=
  let count := p.bookingFabricationCount + 1
  let (p', request) :=
    evaluateEscalation cfg transferId count { p with bookingFabricationCount := count }
  if request.isSome then { p' with fabricationTriggeredTransfer := true } else p'

/-- The transfer of a directive, if it is accepted. -/
def directiveTransfer (transferId : String) (d : TransferDirective) (p : Pipeline) :
    Pipeline × Option TransferRequest :=
  let decision := p.directiveDecision transferId cfg d
  if decision.accepted then ({ p with transferRequested := true }, decision.request)
  else (p, none)

/-- `_workflow_transfer`: a transfer node that does not lead to a transfer is left. -/
def workflowTransfer (transferId : String) (p : Pipeline) : Pipeline × Option TransferRequest :=
  match p.workflow.pendingTransfer with
  | none => (p, none)
  | some node =>
    let p' := { p with workflow := { p.workflow with pendingTransfer := none } }
    match p'.workflowDecision transferId cfg render node with
    | some decision =>
      if decision.accepted then ({ p' with transferRequested := true }, decision.request)
      else ({ p' with workflow := p'.workflow.abandonTransfer }, none)
    | none => ({ p' with workflow := p'.workflow.abandonTransfer }, none)

/-- The transfer to be made at the end of a turn: that of the model's first
    directive, of the transfer node, or the pending one. -/
def chooseTransfer (transferId workflowId : String) (directives : List TransferDirective)
    (p : Pipeline) : Pipeline × Option TransferRequest :=
  if p.cancelled then (p, none)
  else
    let asked := match directives with
      | d :: _ => directiveTransfer cfg transferId d p
      | [] => (p, none)
    match asked with
    | (p', some tr) => (p', some tr)
    | (p', none) =>
      match workflowTransfer cfg render workflowId p' with
      | (p'', some tr) => (p'', some tr)
      | (p'', none) => ({ p'' with pendingTransfer := none }, p''.pendingTransfer)

/-- The end of a turn: a transfer goes before the end of the call. -/
def decide (transferId workflowId : String) (directives : List TransferDirective) (endCall : Bool)
    (p : Pipeline) : Pipeline × Gen :=
  let w := { p.workflow with
    endedOffGraph := p.workflow.endedOffGraph || (!p.workflow.pendingEnd && endCall) }
  match chooseTransfer cfg render transferId workflowId directives { p with workflow := w } with
  | (p', some tr) =>
    ({ p' with fabricationTriggeredTransfer := false },
      .announcing tr p'.fabricationTriggeredTransfer)
  | (p', none) =>
    (p', if (p.workflow.pendingEnd || endCall) && !p.cancelled then .ending else .finished)

/-- `_take_node_changed`. -/
def takeNodeChanged (p : Pipeline) : Pipeline × Option NodeChanged :=
  let node := p.workflow.node
  if p.lastReportedNodeId = some node.id then (p, none)
  else ({ p with lastReportedNodeId := some node.id },
    some ⟨node.id, node.name, node.type, p.workflow.lastTransition⟩)

def audioResponse (payload : Bytes) : HandlerResponse := { ttsPayloads := [payload] }

/-- A step of a generator, and the response it yields. -/
def step (p : Pipeline) : Gen → Step → Option (Pipeline × Gen × Option HandlerResponse)
  | .hearing, .stt text confidence =>
    -- nothing was said, or the transcription failed
    if text = "" then some (p, .finished, none)
    else some (p, .heard, some { sttText := text, sttConfidence := confidence })
  | .heard, .start violation tooLong transferId =>
    let p' := if violation then recordGuardrailViolation cfg transferId p
      else { p with guardrailCount := 0 }
    some (p', if tooLong then .wrappingUp else .generating [] false, none)
  | .wrappingUp, .audio payload => some (p, .wrappingUp, some (audioResponse payload))
  | .wrappingUp, .endCall gracePeriodMs =>
    some (p, .finished, some { endCall := true, endCallGracePeriodMs := gracePeriodMs })
  | .generating directives endCall, .directive d =>
    if p.cancelled then none else some (p, .generating (directives ++ [d]) endCall, none)
  | .generating directives _, .markEnd =>
    if p.cancelled then none else some (p, .generating directives true, none)
  | .generating directives endCall, .transition e =>
    if p.cancelled then none
    else (p.workflow.transition graph e).map fun w =>
      ({ p with workflow := w }, .generating directives endCall, none)
  | .generating directives endCall, .audio payload =>
    if p.cancelled then none
    else some (p, .generating directives endCall, some (audioResponse payload))
  | .generating directives endCall, .stop fabricated transferId =>
    let p' := if fabricated ∧ p.cancelled = false then recordBookingFabrication cfg transferId p
      else p
    some (p', .generated directives endCall, none)
  | .generated directives endCall, .reply text =>
    if p.cancelled then none
    else some (p, .generated directives endCall,
      some { agentText := text, turnComplete := true })
  | .generated directives endCall, .report =>
    let (p', node) := takeNodeChanged p
    some (p', .deciding directives endCall,
      node.map fun node => { nodeChanged := some node })
  | .deciding directives endCall, .decide transferId workflowId =>
    let (p', gen) := decide cfg render transferId workflowId directives endCall p
    some (p', gen, none)
  | .ending, .audio payload => some (p, .ending, some (audioResponse payload))
  | .ending, .endCall gracePeriodMs =>
    some (p, .finished, some { endCall := true, endCallGracePeriodMs := gracePeriodMs })
  | .announcing tr true, .audio payload =>
    some (p, .announcing tr true, some (audioResponse payload))
  | .announcing tr _, .emit => some (p, .finished, some { transferRequest := some tr })
  | .recovering, .transition e =>
    (p.workflow.transition graph e).map fun w => ({ p with workflow := w }, .recovering, none)
  | .recovering, .audio payload => some (p, .recovering, some (audioResponse payload))
  | .recovering, .stop _ _ => some (p, .finished, none)
  | _, _ => none

/-- What a call of the session does to the handler, and to its generator. -/
def call (c : HandlerCall) (x : Pipeline × Gen) : Pipeline × Gen :=
  match c with
  | .onSpeechEnded .. | .onText _ => ({ x.1 with cancelled := false }, .hearing)
  | .onCancel => ({ x.1 with cancelled := true }, x.2)
  | .onTransferFailed .. =>
    ({ x.1 with
        cancelled := false, transferRequested := false
        workflow := x.1.workflow.abandonTransfer }, .recovering)
  | .onTransferCancelled =>
    ({ x.1 with transferRequested := false, workflow := x.1.workflow.abandonTransfer }, x.2)
  | .onAudio _ | .startFinalization | .finalizeSession _ | .onSessionEnd .. => x

end Pipeline

end Yuviz.Conversation
