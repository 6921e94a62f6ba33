import Yuviz.Conversation.Pipeline.Accepted
import Yuviz.Conversation.Servicer

/-!
# A call of the service

The servicer and the handler it drives: what the servicer calls the session for
goes to the handler, and its generator is advanced while the servicer waits for
it. The gateway, the recognition, the model and its tools are the environment.

With the call goes the transfer that set the latch, and those the gateway was
asked for and has not resolved; neither is read.
-/

namespace Yuviz.Conversation

structure Service where
  servicer : Servicer
  pipeline : Pipeline
  gen : Gen := .idle
  /-- The transfer that set the latch. -/
  accepted : Option TransferRequest := none
  /-- The transfers the gateway was asked for, and has not resolved. -/
  outstanding : List TransferRequest := []

/-- The servicer waits for a generator of the handler. -/
def Pc.awaits : Pc → Bool
  | .speech _ .awaiting | .text _ | .recovery _ => true
  | _ => false

/-- The call is over, or as good as over. -/
def Servicer.over (s : Servicer) : Bool :=
  s.pc = .closed ∨ s.session.fsm.isOver

namespace Service

inductive Label
  | servicer (l : Servicer.Label)
  /-- The generator of the handler takes a step. -/
  | handler (x : Pipeline.Step)
  /-- It ends. -/
  | exhaust

/-- What an output of the servicer comes to. -/
def output (s : Service) : Output → Service
  | .call c =>
    let (pipeline, gen) := Pipeline.call c (s.pipeline, s.gen)
    { s with pipeline := pipeline, gen := gen }
  | .send (.transferRequest tr) => { s with outstanding := s.outstanding ++ [tr] }
  | .send _ => s

/-- The servicer takes a step. -/
def follow (s : Service) (x : Servicer × List Output) : Service :=
  x.2.foldl output { s with servicer := x.1 }

/-- The transfer a message of the gateway resolves. -/
def resolved : Option GatewayMessage → Option String
  | some (.transferCompleted _ transferId) | some (.transferFailed _ _ transferId) =>
    some transferId
  | _ => none

/-- A message about a transfer is received. -/
def resolve (s : Service) : Servicer.Label → Service
  | .take =>
    let transferId := s.servicer.queue.head?.bind fun m => resolved m.1
    { s with outstanding := s.outstanding.filter fun tr => transferId ≠ some tr.transferId }
  | _ => s

/-- The handler moves on, and takes note of the transfer that sets the latch. -/
def advance (s : Service) (pipeline : Pipeline) (gen : Gen) : Service :=
  { s with
    pipeline := pipeline, gen := gen
    accepted := if s.pipeline.transferRequested = false ∧ pipeline.transferRequested = true then
      gen.transfer.or pipeline.pendingTransfer else s.accepted }

def step (cfg : HandlerConfig) (graph : WorkflowGraph) (render : String → String) (s : Service) :
    Label → Option Service
  -- the handler answers for itself
  | .servicer (.respond _) | .servicer .exhaust => none
  | .servicer l => (s.servicer.step l).map (s.resolve l).follow
  | .handler x =>
    if s.servicer.pc.awaits then
      (Pipeline.step cfg graph render s.pipeline s.gen x).bind fun (pipeline, gen, response) =>
        match response with
        | none => some (s.advance pipeline gen)
        | some r => (s.servicer.respond r).map (s.advance pipeline gen).follow
    else none
  | .exhaust =>
    if s.gen = .finished then s.servicer.exhaust.map ({ s with gen := .idle } : Service).follow
    else none

def system (cfg : HandlerConfig) (graph : WorkflowGraph) (render : String → String)
    (textOnly : Bool) : System Service Label where
  init := { servicer := { textOnly := textOnly }, pipeline := { workflow := .init graph } }
  step := step cfg graph render

variable {s : Service} {x : Servicer × List Output} {tr : TransferRequest}

/-- The output has nothing to do with transfers, or with the turns of the handler. -/
def quiet : Output → Bool
  | .call (.onAudio _) | .call .startFinalization | .call (.finalizeSession _)
  | .call (.onSessionEnd ..) => true
  | .call _ | .send (.transferRequest _) => false
  | .send _ => true

theorem foldl_output_quiet {os : List Output} (h : ∀ o ∈ os, quiet o = true) (s : Service) :
    os.foldl output s = s := by
  induction os generalizing s with
  | nil => rfl
  | cons o os ih =>
    have ho : s.output o = s := by
      have hq := h o List.mem_cons_self
      rcases o with m | c
      · cases m <;> first | rfl | cases hq
      · cases c <;> first | rfl | cases hq
    rw [List.foldl_cons, ho]
    exact ih (fun o ho => h o (List.mem_cons_of_mem _ ho)) s

theorem follow_quiet (h : ∀ o ∈ x.2, quiet o = true) :
    s.follow x = { s with servicer := x.1 } :=
  foldl_output_quiet h _

/-- A transfer that is sent is with the gateway. -/
theorem follow_sends (sv : Servicer) {os : List Output} (h : ∀ o ∈ os, quiet o = true)
    (request : Option TransferRequest) :
    s.follow (sv, os ++ (request.map fun tr => Output.send (.transferRequest tr)).toList) =
      { s with servicer := sv, outstanding := s.outstanding ++ request.toList } := by
  rw [follow, List.foldl_append, foldl_output_quiet h]
  rcases request with _ | tr
  · simp
  · rfl

theorem quiet_textOutputs (r : HandlerResponse) :
    ∀ o ∈ Servicer.textOutputs r, quiet o = true := by
  intro o ho
  rw [Servicer.textOutputs, List.mem_append, Option.mem_toList, Option.map_eq_some_iff] at ho
  rcases ho with ⟨node, -, rfl⟩ | ho
  · rfl
  · split_ifs at ho
    · rw [List.mem_singleton.1 ho]
      rfl
    · cases ho

theorem quiet_ttsOutputs (started : Bool) (payloads : List Bytes) :
    ∀ o ∈ Servicer.ttsOutputs started payloads, quiet o = true := by
  intro o ho
  rw [Servicer.ttsOutputs] at ho
  split_ifs at ho
  · cases ho
  · obtain ⟨payload, -, rfl⟩ := List.mem_map.1 ho
    rfl
  · rcases List.mem_append.1 ho with ho | ho
    · rw [List.mem_singleton.1 ho]
      rfl
    · obtain ⟨payload, -, rfl⟩ := List.mem_map.1 ho
      rfl

theorem quiet_tailOutputs (t : SpeechTurn) : ∀ o ∈ Servicer.tailOutputs t, quiet o = true := by
  intro o ho
  simp only [Servicer.tailOutputs, List.mem_append] at ho
  rcases ho with (ho | ho) | ho <;> split_ifs at ho <;> cases ho <;> first | rfl | contradiction

theorem quiet_greetingOutputs (payloads : List Bytes) :
    ∀ o ∈ Servicer.greetingOutputs payloads, quiet o = true := by
  intro o ho
  rcases payloads with _ | ⟨payload, payloads⟩
  · cases ho
  · rcases List.mem_cons.1 ho with rfl | ho
    · rfl
    · obtain ⟨i, hi, rfl⟩ := List.mem_mapIdx.1 ho
      rfl

end Service

namespace ConversationSession

variable {s : ConversationSession}

/-- A session that is over takes nothing in. -/
theorem fsm_of_isOver (h : s.fsm.isOver = true) :
    s.acceptsSpeech = false ∧ (∀ payload, (s.pushAudio payload).1.fsm = s.fsm) ∧
    (∀ interrupted, (s.onPlaybackFinished interrupted).fsm = s.fsm) ∧ s.cancel.1.fsm = s.fsm ∧
    s.onTransferInitiated.1.fsm = s.fsm ∧ s.onTransferCompleted.1.fsm = s.fsm ∧
    (∀ destination reason, (s.beginRecovery destination reason).1.fsm = s.fsm) ∧
    (∀ anyAudio r, (s.respondRecovery anyAudio r).fsm = s.fsm) ∧
    (∀ anyAudio, (s.endRecovery anyAudio).fsm = s.fsm) ∧ s.endTurn.fsm = s.fsm ∧
    (∀ kind r firstTts, (Turn.respond kind r { session := s, firstTts := firstTts }).session.fsm =
      s.fsm) ∧ ∀ reason, (s.close reason).1.fsm.isOver = true := by
  obtain ⟨-, hstt, htext, hfirst, -, hcancel, hinit, hcompleted, hfinal, hfailed, hrecovery, hmid⟩ :=
    CallFsmState.eq_of_isOver h false true
  refine ⟨?_, fun payload => pushAudio_fsm, fun interrupted => ?_, hcancel, hinit, ?_,
    fun _ _ => hfailed, fun anyAudio r => ?_, fun anyAudio => ?_, ?_, fun kind r firstTts => ?_,
    fun reason => ?_⟩
  · obtain ⟨fsm, audioBuffer, outcome⟩ := s
    rcases fsm <;> first | rfl | cases h
  · exact (CallFsmState.eq_of_isOver h interrupted true).2.2.2.2.1
  · rw [onTransferCompleted, hcompleted, hfinal]
  · rw [respondRecovery]
    split_ifs
    · exact hrecovery
    · rfl
  · rw [endRecovery]
    split_ifs
    · rfl
    · dsimp only
      rw [hrecovery]
      exact (CallFsmState.eq_of_isOver h false true).2.2.2.2.1
  · rw [endTurn, hmid]
    rfl
  · simp only [Turn.respond, hstt, ite_self, htext, hfirst]
    split_ifs <;> rfl
  · rw [close]
    dsimp only
    split_ifs
    · exact h
    · exact CallFsmState.isOver_onSessionClose h

end ConversationSession

namespace Servicer

variable {s : Servicer} {l : Label} {x : Servicer × List Output}

theorem playbackFinished_session (interrupted : Bool) (s : Servicer) :
    (s.playbackFinished interrupted).1.session.fsm =
      (s.session.onPlaybackFinished interrupted).fsm := by
  simp only [playbackFinished]
  split
  · rfl
  · split
    · rfl
    · split_ifs <;> rfl

/-- A call that is over stays over. -/
theorem step_over (h : s.step l = some x) (ho : s.over = true) : x.1.over = true := by
  simp only [Servicer.over, Bool.decide_or, Bool.decide_eq_true, Bool.or_eq_true, decide_eq_true_eq] at ho ⊢
  rcases ho with hpc | hfsm
  · -- only the reader goes on once the call is closed
    rcases l with payloads | m | _ | r | _ | _ | _ | _ <;>
      simp only [step, respond, exhaust, hpc, reduceCtorEq, if_false, if_true] at h
    split_ifs at h
    obtain rfl := Option.some.inj h
    exact .inl rfl
  · right
    obtain ⟨hspeech, hpush, hplayback, hcancel, hinit, hcompleted, hbegin, hrespond, hend, hturn,
      hresponse, hclose⟩ := ConversationSession.fsm_of_isOver hfsm
    rcases l with payloads | m | _ | r | _ | _ | _ | _
    · simp only [step] at h
      split_ifs at h
      obtain rfl := Option.some.inj h
      exact hfsm
    · simp only [step] at h
      split_ifs at h
      obtain rfl := Option.some.inj h
      exact hfsm
    · simp only [step] at h
      split at h
      case h_1 m queue hpc hq =>
        obtain rfl := Option.some.inj h
        obtain ⟨m, n⟩ := m
        rcases m with _ | m
        · exact hclose "stream_ended"
        · cases m
          case audioChunk payload => simpa only [receive, hpush] using hfsm
          case speechEnded durationMs energyDb =>
            simp only [receive, hspeech]
            rw [if_neg (by simp), (finishTurn_frame _ _).2.2.2]
            exact hfsm
          case cancelGeneration traceId => simpa only [receive, hcancel] using hfsm
          case playbackFinished interrupted =>
            rw [receive, playbackFinished_session, hplayback]
            exact hfsm
          case transferInitiated => simpa only [receive, hinit] using hfsm
          case transferCompleted => simpa only [receive, hcompleted] using hfsm
          case transferFailed destination reason transferId =>
            simpa only [receive, hbegin] using hfsm
          case textInput text =>
            simp only [receive, hspeech]
            rw [if_neg (by simp)]
            exact hfsm
          case other => exact hfsm
      case h_2 => cases h
    · simp only [step, respond] at h
      split at h
      · obtain rfl := Option.some.inj h
        simpa only [hresponse] using hfsm
      · obtain rfl := Option.some.inj h
        simpa only [respondText, hresponse] using hfsm
      · obtain rfl := Option.some.inj h
        simpa only [hrespond] using hfsm
      · cases h
    · simp only [step] at h
      split at h
      case h_1 t r m queue hpc hq =>
        obtain rfl := Option.some.inj h
        obtain ⟨m, n⟩ := m
        rcases m with _ | m
        · simpa only [drainOne, hcancel] using hfsm
        · cases m
          case audioChunk payload =>
            simp only [drainOne]
            split_ifs
            · simpa only [hpush] using hfsm
            · exact hfsm
          case cancelGeneration traceId => simpa only [drainOne, hcancel] using hfsm
          case playbackFinished interrupted =>
            rw [drainOne, playbackFinished_session, hplayback]
            exact hfsm
          all_goals exact hfsm
      case h_2 => cases h
    · simp only [step] at h
      split at h
      · split_ifs at h
        obtain rfl := Option.some.inj h
        rw [deliver_frame]
        exact hfsm
      · obtain rfl := Option.some.inj h
        rw [deliver_frame]
        exact hfsm
      · cases h
    · simp only [step, exhaust] at h
      split at h
      · obtain rfl := Option.some.inj h
        rw [(finishTurn_frame _ _).2.2.2]
        simpa only [hturn] using hfsm
      · obtain rfl := Option.some.inj h
        simpa only [hturn] using hfsm
      · obtain rfl := Option.some.inj h
        simpa only [hend] using hfsm
      · cases h
    · simp only [step] at h
      split_ifs at h
      obtain rfl := Option.some.inj h
      exact hclose "stream_ended"

end Servicer

end Yuviz.Conversation
