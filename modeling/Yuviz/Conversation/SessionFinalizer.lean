import Yuviz.Conversation.Messages
import Yuviz.Distinct
import Yuviz.Python.Str
import Yuviz.System

/-!
# The finalization of the sessions

`finalize` runs the steps of a session in turn and keeps the result, which it
returns from then on. The steps but for the summary run without awaiting
anything; the summary is awaited, from the language model or from the task that
`start_summary_early` has created, unless `discard_pending_summary` has dropped it.

The result is kept only when the last step is over, so a second `finalize` that is
called before then runs the steps again. Where each one is called when the earlier
ones of its session have returned, the steps run once, and all of them return
the same.
-/

namespace Yuviz.Conversation.SessionFinalizer

open Python Messages

/-- A step of `_default_steps`. -/
inductive Step
  | stopRuntime
  | stopToolExecutor
  | cancelTimers
  | memoryFlush
  | summary
  | persistSummary
  | metrics
  | tracing
  | providerCleanup
  deriving DecidableEq

inductive Effect
  | setCancelEvent
  | generate (messages : List ChatMessage)
  | recordTurn (callerText aiResponse : String)
  | increment (name : String)
  | observe (name : String)

def Effect.name : Effect → String
  | setCancelEvent => "set"
  | generate _ => "generate"
  | recordTurn _ _ => "record_turn"
  | increment name | observe name => name

inductive FinalizationStatus
  | running
  | completed
  | timedOut
  | failed
  deriving DecidableEq

structure FinalizationContext where
  history : List ChatMessage
  /-- Whether there is a language model. -/
  llm : Bool
  cancelEvent : Bool
  precomputedSummaryTask : Option ℕ
  summary : String := ""
  summaryGenerated : Bool := false
  transcriptWritten : Bool := false
  timedOut : Bool := false

structure FinalizationResult where
  summary : String
  summaryGenerated : Bool
  transcriptWritten : Bool
  status : FinalizationStatus
  deriving DecidableEq

def summaryPrompt : String :=
  "Summarize this conversation in 1-2 sentences for an internal call log. " ++
    "Focus on what the caller wanted and how it was resolved (or why it " ++
    "wasn't). Do not address the caller — this is an internal note, not a " ++
    "reply to them."

def fallback : String := "Conversation summary unavailable (generation timed out)."

/-- The text of a generation. -/
def join (chunks : List String) : String := stripStr (String.join chunks)

/-! ## Steps -/

namespace FinalizationContext

variable (ctx : FinalizationContext)

/-- The steps that do not await anything. The transcript may raise. -/
def run (transcripts raises : Bool) : Step → FinalizationContext × List Effect
  | .stopRuntime => (ctx, if ctx.cancelEvent then [.setCancelEvent] else [])
  | .persistSummary =>
    if !transcripts || ctx.summary = "" || raises then (ctx, [])
    else ({ ctx with transcriptWritten := true }, [.recordTurn "[session_summary]" ctx.summary])
  | .metrics =>
    (ctx, [.increment "conversation_finalize_success_total",
      .observe "conversation_finalize_latency_ms"])
  | _ => (ctx, [])

def runSteps (transcripts raises : Bool) :
    FinalizationContext → List Step → FinalizationContext × List Effect
  | ctx, [] => (ctx, [])
  | ctx, step :: steps =>
    let first := ctx.run transcripts raises step
    let rest := runSteps transcripts raises first.1 steps
    (rest.1, first.2 ++ rest.2)

/-- Whether the summary step generates one itself. -/
def generates : Bool :=
  ctx.precomputedSummaryTask.isNone && !ctx.history.isEmpty && ctx.llm

def awaits : Bool := ctx.precomputedSummaryTask.isSome || ctx.generates

def request : List Effect :=
  if ctx.generates then
    [.generate (ctx.history ++ [{ role := .user, content := summaryPrompt }])]
  else []

/-- What the summary step gets. -/
inductive Awaited
  | value (summary : String)
  | timedOut
  | raised

/-- The rest of the summary step. -/
def summarize : Awaited → FinalizationContext × List Effect
  | .value summary => ({ ctx with summary := summary, summaryGenerated := summary ≠ "" }, [])
  | .timedOut =>
    ({ ctx with summary := fallback, summaryGenerated := false, timedOut := true },
      [.increment "conversation_finalize_timeout_total"])
  | .raised =>
    if ctx.precomputedSummaryTask.isSome then
      ({ ctx with summary := fallback, summaryGenerated := false }, [])
    else (ctx, [])

def result : FinalizationResult :=
  ⟨ctx.summary, ctx.summaryGenerated, ctx.transcriptWritten,
    if ctx.timedOut then .timedOut else .completed⟩

end FinalizationContext

def stepsBefore : List Step := [.stopRuntime, .stopToolExecutor, .cancelTimers, .memoryFlush]

def stepsAfter : List Step := [.persistSummary, .metrics, .tracing, .providerCleanup]

def defaultSteps : List Step := stepsBefore ++ .summary :: stepsAfter

/-! ## The finalizer -/

inductive TaskPhase
  | running
  | done (summary : String)
  | cancelled
  deriving DecidableEq

/-- A task of `start_summary_early`. -/
structure SummaryTask where
  phase : TaskPhase
  /-- Whether it has been discarded. -/
  discarded : Bool
  deriving DecidableEq

inductive CallPhase
  | awaiting (ctx : FinalizationContext)
  | returned (result : FinalizationResult)
  | cancelled

/-- A call of `finalize`. -/
structure Call where
  sessionId : String
  /-- The task that it takes its summary from. -/
  precomputedSummaryTask : Option ℕ
  phase : CallPhase

def Call.result? (call : Call) : Option FinalizationResult :=
  match call.phase with
  | .returned result => some result
  | _ => none

structure Finalizer where
  /-- Whether there is a transcript builder. -/
  transcripts : Bool
  results : Dict String FinalizationResult
  statuses : Dict String FinalizationStatus
  pendingSummaryTasks : Dict String ℕ
  tasks : List SummaryTask
  calls : List Call
  /-- The steps that have been run, with their sessions. -/
  log : List (String × Step)
  effects : List (String × Effect)

namespace Finalizer

variable (f : Finalizer)

def startSummaryEarly (sessionId : String) (history : List ChatMessage) (llm : Bool) : Finalizer :=
  if (f.pendingSummaryTasks.get? sessionId).isSome || history.isEmpty || !llm then f
  else
    { f with
      pendingSummaryTasks := Dict.set f.pendingSummaryTasks sessionId f.tasks.length
      tasks := f.tasks ++ [⟨.running, false⟩] }

/-- `_generate_safe` is over: it has generated chunks, or raised. -/
def generated (k : ℕ) (chunks : Option (List String)) : Option Finalizer :=
  match f.tasks[k]? with
  | some task =>
    if task.phase = .running then
      some { f with
        tasks := f.tasks.set k { task with phase := .done ((chunks.map join).getD "") } }
    else none
  | none => none

def discardPendingSummary (sessionId : String) : Finalizer :=
  match f.pendingSummaryTasks.get? sessionId with
  | some k =>
    { f with
      pendingSummaryTasks := Dict.del f.pendingSummaryTasks sessionId
      tasks := f.tasks.modify k fun task =>
        ⟨if task.phase = .running then .cancelled else task.phase, true⟩ }
  | none => f

def emit (sessionId : String) (steps : List Step) (effects : List Effect) : Finalizer :=
  { f with
    log := f.log ++ steps.map fun step => (sessionId, step)
    effects := f.effects ++ effects.map fun effect => (sessionId, effect) }

def addCall (call : Call) : Finalizer := { f with calls := f.calls ++ [call] }

/-- The context of a call, when it has run the steps before the summary. -/
def begun (sessionId : String) (history : List ChatMessage) (llm cancelEvent : Bool) :
    FinalizationContext × List Effect :=
  FinalizationContext.runSteps f.transcripts false
    { history := history, llm := llm, cancelEvent := cancelEvent
      precomputedSummaryTask := f.pendingSummaryTasks.get? sessionId } stepsBefore

/-- `finalize`, until the summary is awaited. -/
def start (sessionId : String) (history : List ChatMessage) (llm cancelEvent : Bool) : Finalizer :=
  let begun := f.begun sessionId history llm cancelEvent
  { f with
    statuses := Dict.set f.statuses sessionId .running
    pendingSummaryTasks := Dict.del f.pendingSummaryTasks sessionId }.emit sessionId
      (stepsBefore ++ [Step.summary]) (begun.2 ++ begun.1.request)

/-- The steps after the summary. -/
def complete (sessionId : String) (ctx : FinalizationContext) (raises : Bool) :
    Finalizer × FinalizationResult :=
  let ended := ctx.runSteps f.transcripts raises stepsAfter
  ({ f with
    statuses := Dict.set f.statuses sessionId ended.1.result.status
    results := Dict.set f.results sessionId ended.1.result }.emit sessionId stepsAfter ended.2,
    ended.1.result)

def finalize (sessionId : String) (history : List ChatMessage) (llm cancelEvent : Bool) :
    Finalizer :=
  match f.results.get? sessionId with
  | some result => f.addCall ⟨sessionId, none, .returned result⟩
  | none =>
    let ctx := (f.begun sessionId history llm cancelEvent).1
    let f' := f.start sessionId history llm cancelEvent
    if ctx.awaits then f'.addCall ⟨sessionId, ctx.precomputedSummaryTask, .awaiting ctx⟩
    else
      let ended := f'.complete sessionId ctx false
      ended.1.addCall ⟨sessionId, ctx.precomputedSummaryTask, .returned ended.2⟩

end Finalizer

/-- How the awaiting of a summary ends. -/
inductive Outcome
  /-- The call's own generation. -/
  | generated (chunks : List String)
  /-- The task of `start_summary_early`. -/
  | ready
  | timedOut
  | raised

namespace Finalizer

variable (f : Finalizer)

open FinalizationContext in
def awaited (ctx : FinalizationContext) : Outcome → Option Awaited
  | .generated chunks =>
    if ctx.precomputedSummaryTask.isNone then some (.value (join chunks)) else none
  | .ready =>
    match ctx.precomputedSummaryTask.bind (f.tasks[·]?) with
    | some ⟨.done summary, _⟩ => some (.value summary)
    | _ => none
  | .timedOut => some .timedOut
  | .raised => if ctx.precomputedSummaryTask.isNone then some .raised else none

/-- A call goes on when its summary is there. -/
def resume (i : ℕ) (outcome : Outcome) (raises : Bool) : Option Finalizer :=
  match f.calls[i]? with
  | some ⟨sessionId, task, .awaiting ctx⟩ =>
    (f.awaited ctx outcome).map fun awaited =>
      let summarized := ctx.summarize awaited
      let ended := (f.emit sessionId [] summarized.2).complete sessionId summarized.1 raises
      { ended.1 with calls := f.calls.set i ⟨sessionId, task, .returned ended.2⟩ }
  | _ => none

/-- The caller is cancelled while it awaits the summary. -/
def cancel (i : ℕ) : Option Finalizer :=
  match f.calls[i]? with
  | some ⟨sessionId, task, .awaiting _⟩ =>
    some { f with calls := f.calls.set i ⟨sessionId, task, .cancelled⟩ }
  | _ => none

end Finalizer

inductive Label
  | startSummaryEarly (sessionId : String) (history : List ChatMessage) (llm : Bool)
  | generated (k : ℕ) (chunks : Option (List String))
  | discardPendingSummary (sessionId : String)
  | finalize (sessionId : String) (history : List ChatMessage) (llm cancelEvent : Bool)
  | resume (i : ℕ) (outcome : Outcome) (raises : Bool)
  | cancel (i : ℕ)

def step (f : Finalizer) : Label → Option Finalizer
  | .startSummaryEarly sessionId history llm => some (f.startSummaryEarly sessionId history llm)
  | .generated k chunks => f.generated k chunks
  | .discardPendingSummary sessionId => some (f.discardPendingSummary sessionId)
  | .finalize sessionId history llm cancelEvent =>
    some (f.finalize sessionId history llm cancelEvent)
  | .resume i outcome raises => f.resume i outcome raises
  | .cancel i => f.cancel i

def system (transcripts : Bool) : System Finalizer Label where
  init := ⟨transcripts, [], [], [], [], [], [], []⟩
  step := step

/-- A call of `finalize` finds the earlier ones of its session returned. -/
def Sequential (f : Finalizer) : Label → Prop
  | .finalize sessionId _ _ _ =>
    ∀ call ∈ f.calls, call.sessionId = sessionId → call.result?.isSome = true
  | _ => True

instance (f : Finalizer) (l : Label) : Decidable (Sequential f l) :=
  match l with
  | .finalize sessionId _ _ _ => inferInstanceAs
    (Decidable (∀ call ∈ f.calls, call.sessionId = sessionId → call.result?.isSome = true))
  | .startSummaryEarly _ _ _ | .generated _ _ | .discardPendingSummary _ | .resume _ _ _
  | .cancel _ => isTrue trivial

/-! ## What has been done -/

namespace Finalizer

variable (f : Finalizer) (sessionId : String)

/-- The steps that have been run for a session. -/
def ran : List Step := (f.log.filter (·.1 = sessionId)).map Prod.snd

/-- The effects that these had, by name. -/
def emitted : List String := (f.effects.filter (·.1 = sessionId)).map (·.2.name)

/-- Every session is finalized once. -/
structure FinalizedOnce : Prop where
  ran : ∀ sessionId, (f.ran sessionId).Nodup
  emitted : ∀ sessionId, (f.emitted sessionId).Nodup
  same : ∀ call ∈ f.calls, ∀ call' ∈ f.calls, call.sessionId = call'.sessionId →
    ∀ result result', call.result? = some result → call'.result? = some result' → result = result'
  undiscarded : ∀ call ∈ f.calls, ∀ k, call.precomputedSummaryTask = some k →
    ∀ task, f.tasks[k]? = some task → task.discarded = false

/-! ### Calls that go on -/

variable {f} {f' : Finalizer} {i : ℕ} {outcome : Outcome} {raises : Bool}

theorem of_resume (hst : f.resume i outcome raises = some f') : ∃ sessionId task ctx awaited,
    f.calls[i]? = some ⟨sessionId, task, .awaiting ctx⟩ ∧ f.awaited ctx outcome = some awaited ∧
      f' = { ((f.emit sessionId [] (ctx.summarize awaited).2).complete sessionId
          (ctx.summarize awaited).1 raises).1 with
        calls := f.calls.set i ⟨sessionId, task,
          .returned ((f.emit sessionId [] (ctx.summarize awaited).2).complete sessionId
            (ctx.summarize awaited).1 raises).2⟩ } := by
  rw [resume] at hst
  split at hst
  · next sessionId task ctx hcall =>
    obtain ⟨awaited, hawaited, hf'⟩ := Option.map_eq_some_iff.1 hst
    exact ⟨sessionId, task, ctx, awaited, hcall, hawaited, hf'.symm⟩
  · exact nomatch hst

theorem of_cancel (hst : f.cancel i = some f') : ∃ sessionId task ctx,
    f.calls[i]? = some ⟨sessionId, task, .awaiting ctx⟩ ∧
      f' = { f with calls := f.calls.set i ⟨sessionId, task, .cancelled⟩ } := by
  rw [cancel] at hst
  split at hst
  · next sessionId task ctx hcall => exact ⟨sessionId, task, ctx, hcall, (Option.some.inj hst).symm⟩
  · exact nomatch hst

end Finalizer

end Yuviz.Conversation.SessionFinalizer
