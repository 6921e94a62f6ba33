import Yuviz.Conversation.Directives
import Yuviz.Conversation.Messages
import Yuviz.Conversation.Workflow.Runner
import Yuviz.Python.Regex

/-!
# The turns of a conversation

A turn refreshes the prompt, appends what the caller said and asks the model for
a reply. The model may call tools, each of which ends the generation; the call
and its result are appended, and the model is asked again. At the end the reply
is appended, unless the caller interrupted the turn, or there is none.

A turn whose question is augmented with what was found in the knowledge base
works on a copy of the history, and so does the turn after a failed transfer,
which begins with a notice instead of a question. In between, the history is
summarized in the background.

What the model, the tools, the speech synthesis and the caller do is in the
labels of the steps.
-/

namespace Yuviz.Conversation.Messages

open Python
open Yuviz.Conversation.Workflow (Runner transitionToolName)

variable [Runtime]

/-- What the handler is set up with. -/
structure Settings where
  graph : Config.WorkflowGraph
  /-- What is appended to every prompt. -/
  suffix : String
  /-- The turns of the history that are kept. -/
  maxHistory : ℕ := 10
  maxHistory_pos : 0 < maxHistory := by decide
  /-- A chat: nothing is spoken. -/
  textOnly : Bool := false
  hasBookingTool : Bool := false
  /-- `json.dumps`. -/
  dumps : Json → String
  /-- The characters of `\w`. -/
  isWord : Char → Bool

/-! ### The summarizer -/

inductive SummaryTask
  | scheduled
  /-- The messages the summary is being made of. -/
  | running (dropIds : List ℕ)

structure ContextSummarizer where
  deferred : Bool := false
  task : Option SummaryTask := none

namespace ContextSummarizer

def maybeSummarize (maxHistory : ℕ) (history : List Message) (z : ContextSummarizer) :
    ContextSummarizer :=
  if history.length ≤ summaryThresholdFor maxHistory then z else { z with deferred := true }

omit [Runtime] in
@[simp] theorem maybeSummarize_task (maxHistory : ℕ) (history : List Message)
    (z : ContextSummarizer) : (z.maybeSummarize maxHistory history).task = z.task := by
  rw [maybeSummarize]
  split_ifs <;> rfl

def startDeferred (z : ContextSummarizer) : ContextSummarizer :=
  if z.deferred then { deferred := false, task := some .scheduled } else z

def interruptForLiveTurn (z : ContextSummarizer) : ContextSummarizer :=
  if z.task.isSome then { deferred := true, task := none } else z

omit [Runtime] in
@[simp] theorem interruptForLiveTurn_task (z : ContextSummarizer) :
    z.interruptForLiveTurn.task = none := by
  rw [interruptForLiveTurn]
  split_ifs with h
  · rfl
  · simpa using h

def cancel (_ : ContextSummarizer) : ContextSummarizer := {}

end ContextSummarizer

/-! ### The state -/

/-- Where a turn is. -/
inductive Stage
  /-- The model is about to be asked. -/
  | ready
  | streaming
  /-- A transition was made, and its line is being spoken. -/
  | speaking (call : ToolCall)
  | awaiting (call : ToolCall)
  /-- The stream is over; what is left is spoken. -/
  | closing
  /-- The turn was interrupted, and the stream is not read any further. -/
  | done

structure Turn where
  stage : Stage := .ready
  /-- The messages of the turn, where they are not the history itself. -/
  copy : Option (List Message) := none
  isRecovery : Bool := false
  cancelled : Bool := false
  /-- The model, or a tool, has raised an exception. -/
  failed : Bool := false
  /-- `full_response`: the text of each chunk, and if there was audio with it. -/
  collected : List (String × Bool) := []
  /-- The calls made so far and their results. -/
  folded : List Message := []
  /-- The tools that were called. -/
  toolCallsMade : List String := []

/-- A list of messages the model is given, and the node that is active then. -/
structure Generation where
  messages : List Message
  node : Config.Node

structure State where
  runner : Runner
  history : History := {}
  summarizer : ContextSummarizer := {}
  turn : Option Turn := none
  generations : List Generation := []

/-- What happens. A call has the arguments the tool was called with. -/
inductive Event
  /-- The greeting was spoken. -/
  | greeting
  /-- The caller said something; `augmented` is the question with what was retrieved. -/
  | question (text : String) (augmented : Option String)
  | generate
  | token (text : String)
  /-- A piece of a line is spoken (of a chat, the whole line); `text` is what is recorded of it. -/
  | chunk (text : String)
  /-- The model takes an edge out of the active node. -/
  | transition (call : ToolCall) (edge : Config.Edge)
  /-- The line of a transition has been spoken. -/
  | resume
  | remote (call : ToolCall)
  | result (result : ToolResult)
  /-- A call that is not carried out: its date is rejected, it is one too many, or it is a
      transition that was interrupted. -/
  | refuse (call : ToolCall) (result : ToolResult)
  | endOfStream
  | raise
  | cancel
  /-- The turn is over. It is `fabricated` if the reply claims a booking, unless it tells again
      of one that was made. -/
  | finish (fabricated : Bool)
  | transferFailed (notice : String)
  | recovered
  | transferCancelled
  | workflowTransfer
  | extracted (values : Dict String Json)
  | summarize
  | summarized (summary : String)
  | summaryFailed

/-- A call and its result are appended. -/
def Event.Folds : Event → Prop
  | .resume | .result _ | .refuse _ _ => True
  | _ => False

/-- Something is recorded of the reply, if the caller does not interrupt. -/
def Event.Speaks (cfg : Settings) : Event → Prop
  | .token _ | .chunk _ => True
  | .result r | .refuse _ r => r.deterministicResponse.isSome
  | .raise => cfg.textOnly = true
  | _ => False

/-! ### The texts -/

def systemMessage (content : String) : ChatMessage := { role := .system, content := content }

def userMessage (content : String) : ChatMessage := { role := .user, content := content }

def assistantMessage (content : String) : ChatMessage := { role := .assistant, content := content }

/-- `_FALLBACK_LLM_ERROR`. -/
def fallbackLlmError : String :=
  "Sorry, I'm having a little trouble right now. Could you say that again?"

/-- `_TRANSFER_FAILED_FALLBACK`. -/
def transferFailedFallback : String :=
  "I'm sorry, I couldn't connect you to an agent right now."

/-- What the model is told when it claims a booking it did not make. -/
def correction : ChatMessage := systemMessage
  ("Correction: nothing was actually booked, rescheduled, or confirmed just " ++
    "now — you did not call book_appointment or reschedule_appointment. If the " ++
    "caller still wants that, call the correct tool for real before saying " ++
    "anything is booked, moved, or confirmed.")

/-- `_BOOKING_CLAIM_RE`. -/
def bookingClaimRe : Regex :=
  .all [.boundary, .any [.word "booked", .word "rebooked", .word "confirmed", .word "scheduled",
    .word "rescheduled", .word "all set"], .boundary]

/-- `_BOOKING_SUBJECT_RE`. -/
def bookingSubjectRe : Regex :=
  .all [.boundary, .any [.word "appointment", .word "demo", .word "booking", .word "meeting",
    .word "slot"], .boundary]

/-- `_CALENDAR_MUTATION_TOOLS`. -/
def calendarMutationTools : List String := ["book_appointment", "reschedule_appointment"]

def claimsBookingWithoutToolCall (isWord : Char → Bool) (text : String) : Bool :=
  bookingClaimRe.search isWord text.toList && bookingSubjectRe.search isWord text.toList

/-- The reply, without its directives. -/
def assistantText (cfg : Settings) (collected : List (String × Bool)) : String :=
  String.ofList (strip
    (Directives.parse cfg.isWord (collected.flatMap fun chunk => chunk.1.toList)).cleanText)

namespace State

/-- The prompt of the active node. -/
def prompt (cfg : Settings) (s : State) : ChatMessage :=
  systemMessage (s.runner.systemPrompt cfg.graph cfg.suffix)

/-- The messages of the turn. -/
def messages (s : State) (t : Turn) : List Message := t.copy.getD s.history.messages

/-! ### The beginning of a turn -/

def question (cfg : Settings) (s : State) (text : String) (augmented : Option String) : State :=
  let history := (s.history.refresh (s.prompt cfg)).extend [userMessage text]
  match augmented with
  | none =>
    { s with
      history := history
      summarizer := s.summarizer.interruptForLiveTurn
      turn := some {} }
  | some content =>
    let copy := history.messages.dropLast ++ allocate history.next [userMessage content]
    { s with
      history := history.skip 1
      summarizer := s.summarizer.interruptForLiveTurn
      turn := some { copy := some copy } }

def transferFailed (cfg : Settings) (s : State) (notice : String) : State :=
  let s' := { s with runner := s.runner.abandonTransfer }
  let history := s'.history.refresh (s'.prompt cfg)
  let copy := history.messages ++ allocate history.next [userMessage notice]
  { s' with
    history := history.skip 1
    turn := some { copy := some copy, isRecovery := true } }

/-! ### Tools -/

/-- Swaps the prompt of the messages of the turn, and of the history. -/
def swapPrompt (cfg : Settings) (s : State) (t : Turn) : State :=
  let new : Message := { s.prompt cfg with ref := s.history.next }
  { s with
    history := (s.history.skip (if t.copy.isSome then 1 else 0)).swapPrompt (s.prompt cfg)
    turn := some { t with copy := t.copy.map (Messages.swapPrompt new) } }

/-- A transition is made. The stream is not read any further if the caller has interrupted. -/
def transition (cfg : Settings) (s : State) (t : Turn) (call : ToolCall) (edge : Config.Edge) :
    Option State :=
  (s.runner.transition cfg.graph edge).map fun runner =>
    let s' := swapPrompt cfg { s with runner := runner }
      { t with stage := if t.cancelled then .done else .speaking call }
    { s' with
      runner := { runner with pendingSpeech := none }
      summarizer := s'.summarizer.maybeSummarize cfg.maxHistory s'.history.messages }

/-- A call and its result are appended to the messages of the turn. -/
def fold (cfg : Settings) (s : State) (t : Turn) (call : ToolCall) (result : ToolResult) : State :=
  let ms := foldToolResult cfg.dumps call result
  let new := allocate s.history.next ms
  { s with
    history := if t.copy.isSome then s.history.skip ms.length else s.history.extend ms
    turn := some { t with copy := t.copy.map (· ++ new), folded := t.folded ++ new } }

/-- How a turn goes on after a tool: a text that is to be spoken as it is ends it. -/
def afterTool (t : Turn) (result : ToolResult) : Turn :=
  match result.deterministicResponse with
  | some text =>
    if t.cancelled then { t with stage := .done }
    else { t with stage := .closing, collected := t.collected ++ [(text, false)] }
  | none => { t with stage := if result.IsCancelled then .closing else .ready }

/-! ### The end of a turn -/

/-- The reply claims a booking, and no tool was called that makes one. -/
def claimsBooking (cfg : Settings) (t : Turn) : Bool :=
  cfg.hasBookingTool && t.toolCallsMade.all (· ∉ calendarMutationTools) &&
    claimsBookingWithoutToolCall cfg.isWord (assistantText cfg t.collected)

/-- The messages a turn leaves. -/
def reply (cfg : Settings) (t : Turn) (fabricated : Bool) : List ChatMessage :=
  assistantMessage (assistantText cfg t.collected) :: if fabricated then [correction] else []

def finish (cfg : Settings) (s : State) (t : Turn) (fabricated : Bool) : State :=
  { s with
    summarizer := s.summarizer.startDeferred
    history := if t.collected ≠ [] ∧ ¬ t.cancelled then
        (s.history.extend (reply cfg t fabricated)).trim cfg.maxHistory
      else s.history.popUser
    turn := none }

/-- The apology after a failed transfer, if there is one. -/
def apology (cfg : Settings) (t : Turn) : List ChatMessage :=
  let text := assistantText cfg t.collected
  if t.cancelled then []
  else if text ≠ "" then [assistantMessage text]
  else if t.collected.any Prod.snd then []
  else [assistantMessage transferFailedFallback]

def recovered (cfg : Settings) (s : State) (t : Turn) : State :=
  { s with
    history := if apology cfg t = [] then s.history
      else (s.history.extend (apology cfg t)).trim cfg.maxHistory
    turn := none }

/-! ### Steps -/

/-- A step of a turn. -/
def turnStep (cfg : Settings) (s : State) (t : Turn) : Event → Option State
  | .generate => match t.stage with
    | .ready => some { s with
        generations := s.generations ++ [⟨s.messages t, s.runner.node⟩]
        turn := some { t with stage := .streaming } }
    | _ => none
  | .token text => match t.stage with
    | .streaming => some (if t.cancelled then
        { s with
          runner := { s.runner with pendingSpeech := none }
          turn := some { t with stage := .done } }
      else { s with turn := some { t with collected := t.collected ++ [(text, false)] } })
    | _ => none
  | .chunk text =>
    let speaks := match t.stage with
      | .speaking _ => true
      | .streaming | .awaiting _ | .closing => !cfg.textOnly
      | .ready | .done => false
    if speaks then
      some { s with turn := some { t with
        stage := if t.cancelled then .done else t.stage
        collected := t.collected ++ [(text, !cfg.textOnly)] } }
    else none
  | .transition call edge => match t.stage with
    | .streaming =>
      if edge ∈ s.runner.node.outEdges ∧ call.name = transitionToolName edge then
        s.transition cfg t call edge
      else none
    | _ => none
  | .resume => match t.stage with
    | .speaking call => some (s.fold cfg { t with stage := .ready } call transitionResult)
    | _ => none
  | .remote call => match t.stage with
    | .streaming => some { s with
        turn := some { t with
          stage := if t.cancelled then .done else .awaiting call
          toolCallsMade := t.toolCallsMade ++ [call.name] } }
    | _ => none
  | .result result => match t.stage with
    | .awaiting call => some (s.fold cfg (afterTool t result) call result)
    | _ => none
  | .refuse call result => match t.stage with
    | .streaming => some (s.fold cfg (afterTool t result) call result)
    | _ => none
  | .endOfStream => match t.stage with
    | .streaming => some { s with turn := some { t with stage := .closing } }
    | _ => none
  | .raise => match t.stage with
    | .closing | .done => none
    | _ => some { s with turn := some { t with
        stage := .closing
        failed := true
        collected := if cfg.textOnly ∧ ¬ t.cancelled then
            t.collected ++ [(fallbackLlmError, false)]
          else t.collected } }
  | .finish fabricated => match t.stage, t.isRecovery with
    | .closing, false | .done, false =>
      if fabricated ∧ ¬ claimsBooking cfg t then none else some (s.finish cfg t fabricated)
    | _, _ => none
  | .recovered => match t.stage, t.isRecovery with
    | .closing, true | .done, true => some (s.recovered cfg t)
    | _, _ => none
  | _ => none

/-- A step between the turns. -/
def idleStep (cfg : Settings) (s : State) : Event → Option State
  | .greeting => (cfg.graph.node? cfg.graph.startNodeId).bind fun start =>
    let text := Config.render (start.greeting.getD "") s.runner.vars
    if text = "" then none else some { s with history := s.history.extend [assistantMessage text] }
  | .question text augmented => some (s.question cfg text augmented)
  | .transferFailed notice => some (s.transferFailed cfg notice)
  | .workflowTransfer => s.runner.pendingTransfer.map fun _ => { s with
      runner := { s.runner with pendingTransfer := none }
      summarizer := s.summarizer.cancel }
  | _ => none

/-- A step at any time. -/
def backgroundStep (s : State) : Event → Option State
  | .cancel => some { s with
      runner := { s.runner with pendingSpeech := none }
      summarizer := s.summarizer.interruptForLiveTurn
      turn := s.turn.map fun t => { t with cancelled := true } }
  | .transferCancelled => some { s with runner := s.runner.abandonTransfer }
  | .extracted values => some { s with runner := s.runner.updateVariables values }
  | .summarize => match s.summarizer.task with
    | some .scheduled => some { s with
        summarizer := { s.summarizer with
          task := (toReplace s.history.messages).map fun l => .running (l.map Message.ref) } }
    | _ => none
  | .summarized summary => match s.summarizer.task with
    | some (.running dropIds) => some { s with
        summarizer := { s.summarizer with task := none }
        history := if stripStr summary = "" then s.history
          else s.history.splice dropIds
            (userMessage ("[Earlier in this call]\n" ++ stripStr summary)) }
    | _ => none
  | .summaryFailed =>
    if s.summarizer.task.isSome then
      some { s with summarizer := { s.summarizer with task := none } }
    else none
  | _ => none

def step (cfg : Settings) (s : State) (e : Event) : Option State :=
  s.backgroundStep e <|> match s.turn with
    | some t => s.turnStep cfg t e
    | none => s.idleStep cfg e

/-! ### What a step does -/

variable {cfg : Settings} {s s' : State} {t : Turn} {e : Event}

/-- What is recorded of the reply in a step, if the caller has not interrupted. -/
def Records (cfg : Settings) (t : Turn) (e : Event) (collected : List (String × Bool)) : Prop :=
  t.cancelled = false → e.Speaks cfg ∧ collected ≠ [] ∨ ¬ e.Speaks cfg ∧ collected = t.collected

omit [Runtime] in
theorem afterTool_cases (cfg : Settings) (t : Turn) (result : ToolResult)
    (he : e.Speaks cfg ↔ result.deterministicResponse.isSome) : ∃ stage collected,
      afterTool t result = { t with stage := stage, collected := collected } ∧
      Records cfg t e collected := by
  rw [afterTool]
  split
  · rename_i text htext
    split_ifs with hcancelled
    · exact ⟨_, _, rfl, fun h => absurd (h.symm.trans hcancelled) nofun⟩
    · exact ⟨_, _, rfl, fun _ => .inl ⟨he.2 (by simp [htext]), by simp⟩⟩
  · rename_i hnone
    exact ⟨_, _, rfl, fun _ => .inr ⟨fun h => by simpa [hnone] using he.1 h, rfl⟩⟩

/-- What a step of a turn does to the messages: it asks the model, goes on, makes a
    transition, appends a call and its result, or ends the turn. -/
theorem turnStep_cases (h : s.turnStep cfg t e = some s') :
    (e = .generate ∧ s' = { s with
      generations := s.generations ++ [⟨s.messages t, s.runner.node⟩]
      turn := some { t with stage := .streaming } }) ∨
    (¬ e.Folds ∧ ∃ speech stage failed collected made, Records cfg t e collected ∧ s' = { s with
      runner := { s.runner with pendingSpeech := speech }
      turn := some { t with
        stage := stage
        failed := failed
        collected := collected
        toolCallsMade := made } }) ∨
    (∃ call edge, e = .transition call edge ∧ s.transition cfg t call edge = some s') ∨
    (e.Folds ∧ ∃ stage collected call result, Records cfg t e collected ∧
      s' = s.fold cfg { t with stage := stage, collected := collected } call result) ∨
    (∃ fabricated, e = .finish fabricated ∧ t.isRecovery = false ∧
      s' = s.finish cfg t fabricated) ∨
    (e = .recovered ∧ t.isRecovery = true ∧ s' = s.recovered cfg t) := by
  cases e with
  | generate =>
    rw [turnStep] at h
    split at h
    · exact .inl ⟨rfl, (Option.some.inj h).symm⟩
    · simp at h
  | token text =>
    rw [turnStep] at h
    split at h
    · rw [← Option.some.inj h]
      split_ifs with hcancelled
      · exact .inr (.inl ⟨id, _, _, _, _, _, fun h => absurd (h.symm.trans hcancelled) nofun, rfl⟩)
      · exact .inr (.inl ⟨id, _, _, _, _, _, fun _ => .inl ⟨trivial, by simp⟩, rfl⟩)
    · simp at h
  | chunk text =>
    obtain ⟨-, h⟩ := Option.ite_none_right_eq_some.1 h
    exact .inr (.inl ⟨id, _, _, _, _, _, fun _ => .inl ⟨trivial, by simp⟩, (Option.some.inj h).symm⟩)
  | transition call edge =>
    rw [turnStep] at h
    split at h
    · obtain ⟨-, h⟩ := Option.ite_none_right_eq_some.1 h
      exact .inr (.inr (.inl ⟨call, edge, rfl, h⟩))
    · simp at h
  | resume =>
    rw [turnStep] at h
    split at h
    · exact .inr (.inr (.inr (.inl ⟨trivial, _, t.collected, _, _, fun _ => .inr ⟨id, rfl⟩,
        (Option.some.inj h).symm⟩)))
    · simp at h
  | remote call =>
    rw [turnStep] at h
    split at h
    · exact .inr (.inl ⟨id, _, _, _, t.collected, _, fun _ => .inr ⟨id, rfl⟩,
        (Option.some.inj h).symm⟩)
    · simp at h
  | result result =>
    rw [turnStep] at h
    split at h
    · obtain ⟨stage, collected, ht, hrecords⟩ :=
        afterTool_cases (e := .result result) cfg t result Iff.rfl
      exact .inr (.inr (.inr (.inl ⟨trivial, _, _, _, _, hrecords,
        ht ▸ (Option.some.inj h).symm⟩)))
    · simp at h
  | refuse call result =>
    rw [turnStep] at h
    split at h
    · obtain ⟨stage, collected, ht, hrecords⟩ :=
        afterTool_cases (e := .refuse call result) cfg t result Iff.rfl
      exact .inr (.inr (.inr (.inl ⟨trivial, _, _, _, _, hrecords,
        ht ▸ (Option.some.inj h).symm⟩)))
    · simp at h
  | endOfStream =>
    rw [turnStep] at h
    split at h
    · exact .inr (.inl ⟨id, _, _, _, t.collected, _, fun _ => .inr ⟨id, rfl⟩,
        (Option.some.inj h).symm⟩)
    · simp at h
  | raise =>
    rw [turnStep] at h
    split at h
    · simp at h
    · simp at h
    · refine .inr (.inl ⟨id, _, _, _, _, _, fun hcancelled => ?_, (Option.some.inj h).symm⟩)
      by_cases htext : cfg.textOnly = true
      · exact .inl ⟨htext, by simp [htext, hcancelled]⟩
      · exact .inr ⟨htext, by simp [htext]⟩
  | finish fabricated =>
    rw [turnStep] at h
    split at h
    · obtain ⟨-, h⟩ := Option.ite_none_left_eq_some.1 h
      exact .inr (.inr (.inr (.inr (.inl ⟨_, rfl, ‹_›, (Option.some.inj h).symm⟩))))
    · obtain ⟨-, h⟩ := Option.ite_none_left_eq_some.1 h
      exact .inr (.inr (.inr (.inr (.inl ⟨_, rfl, ‹_›, (Option.some.inj h).symm⟩))))
    · simp at h
  | recovered =>
    rw [turnStep] at h
    split at h
    · exact .inr (.inr (.inr (.inr (.inr ⟨rfl, ‹_›, (Option.some.inj h).symm⟩))))
    · exact .inr (.inr (.inr (.inr (.inr ⟨rfl, ‹_›, (Option.some.inj h).symm⟩))))
    · simp at h
  | _ => simp [turnStep] at h

omit [Runtime] in
/-- What a step at any time does: the caller interrupts, the runner is told something, or the
    summarizer goes on. -/
theorem backgroundStep_cases (h : s.backgroundStep e = some s') :
    (e = .cancel ∧ s' = { s with
      runner := { s.runner with pendingSpeech := none }
      summarizer := s.summarizer.interruptForLiveTurn
      turn := s.turn.map fun t => { t with cancelled := true } }) ∨
    (e = .transferCancelled ∧ s' = { s with runner := s.runner.abandonTransfer }) ∨
    (∃ values, e = .extracted values ∧ s' = { s with runner := s.runner.updateVariables values }) ∨
    (s.summarizer.task = some .scheduled ∧ s' = { s with
      summarizer := { s.summarizer with
        task := (toReplace s.history.messages).map fun l => .running (l.map Message.ref) } }) ∨
    (∃ dropIds content, s.summarizer.task = some (.running dropIds) ∧ content ≠ "" ∧ s' = { s with
      summarizer := { s.summarizer with task := none }
      history := s.history.splice dropIds (userMessage content) }) ∨
    (s.summarizer.task.isSome ∧ s' = { s with
      summarizer := { s.summarizer with task := none } }) := by
  cases e with
  | cancel => exact .inl ⟨rfl, (Option.some.inj h).symm⟩
  | transferCancelled => exact .inr (.inl ⟨rfl, (Option.some.inj h).symm⟩)
  | extracted values => exact .inr (.inr (.inl ⟨values, rfl, (Option.some.inj h).symm⟩))
  | summarize =>
    rw [backgroundStep] at h
    split at h
    · exact .inr (.inr (.inr (.inl ⟨‹_›, (Option.some.inj h).symm⟩)))
    · simp at h
  | summarized summary =>
    rw [backgroundStep] at h
    split at h
    · rename_i dropIds htask
      rw [← Option.some.inj h]
      split_ifs
      · exact .inr (.inr (.inr (.inr (.inr ⟨by simp [htask], rfl⟩))))
      · have hcontent (text : String) : "[Earlier in this call]\n" ++ text ≠ "" := fun hnil =>
          absurd (congrArg String.length hnil) (by rw [String.length_append]; simp)
        exact .inr (.inr (.inr (.inr (.inl ⟨dropIds, _, htask, hcontent _, rfl⟩))))
    · simp at h
  | summaryFailed =>
    obtain ⟨htask, h⟩ := Option.ite_none_right_eq_some.1 h
    exact .inr (.inr (.inr (.inr (.inr ⟨htask, (Option.some.inj h).symm⟩))))
  | _ => simp [backgroundStep] at h

theorem step_of_turnStep (ht : s.turn = some t) (h : s.turnStep cfg t e = some s') :
    s.step cfg e = some s' := by
  rw [step, ht]
  rcases e with _ | _
  any_goals exact h
  all_goals simp [turnStep] at h

theorem step_cases (h : s.step cfg e = some s') :
    s.backgroundStep e = some s' ∨ (∃ t, s.turn = some t ∧ s.turnStep cfg t e = some s') ∨
      s.turn = none ∧ s.idleStep cfg e = some s' := by
  rw [step] at h
  rcases hbackground : s.backgroundStep e with _ | s''
  · rw [hbackground] at h
    rcases hturn : s.turn with _ | t
    · exact .inr (.inr ⟨rfl, by simpa [hturn] using h⟩)
    · exact .inr (.inl ⟨t, rfl, by simpa [hturn] using h⟩)
  · rw [hbackground] at h
    exact .inl h

end State

/-- The conversations of an agent. -/
def conversations (cfg : Settings) (start : Config.Node) (vars : Dict String Json) :
    System State Event where
  init := { runner := .init start vars }
  step := State.step cfg

end Yuviz.Conversation.Messages
