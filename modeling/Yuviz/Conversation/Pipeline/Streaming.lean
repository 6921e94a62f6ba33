import Yuviz.Conversation.Session
import Yuviz.Log
import Yuviz.System

/-!
# What the transcription hears

The audio of an utterance is kept twice: the session accumulates it in a buffer,
and every chunk is fed to the provider's live stream at once. At the end of the
utterance the session hands its buffer over, and the stream is finalized. It is
not when the utterance is too short, and a cancel clears the buffer alone: what
was fed until then stays in the stream (`heard_eq`), and is heard with the next
utterance.

So the stream hears just the utterance if and only if nothing was dropped since
it was last finalized or cancelled (`heardExactly_iff`).
-/

namespace Yuviz.Conversation.Streaming

open ConversationSession (TurnKind)

/-- What the provider is asked, and what the session drops without telling it. -/
inductive Entry
  | fed (chunk : Bytes)
  | finalized (audio : Bytes)
  | cancelled
  | dropped (audio : Bytes)
  deriving DecidableEq

/-- 1000 ms of samples of two bytes. -/
def minBytes (sampleRate : ℕ) : ℕ := sampleRate * 2

/-- What the pipeline's handler does in a call of a session with the given buffer. -/
def entries (sampleRate : ℕ) (buffer : Bytes) : HandlerCall → List Entry
  | .onAudio payload => [.fed payload]
  | .onSpeechEnded audio _ _ =>
    if audio.length < minBytes sampleRate then [.dropped audio] else [.finalized audio]
  | .onCancel => [.dropped buffer]
  | .onSessionEnd _ _ => [.cancelled]
  | _ => []

/-! ### The live stream -/

/-- What becomes of a chunk. -/
inductive FeedOutcome
  | sent
  | openFailed
  | sendFailed
  deriving DecidableEq

/-- What was sent over the connection of the session, if there is one. -/
abbrev LiveStream := Option Bytes

/-- `DeepgramSTT.feed_stream`. -/
def feedStream (chunk : Bytes) (outcome : FeedOutcome) (stream : LiveStream) : LiveStream :=
  if chunk = [] then stream
  else
    match stream, outcome with
    | none, .openFailed => none
    | none, .sendFailed => some []
    | none, .sent => some chunk
    | some sent, .sent => some (sent ++ chunk)
    | some sent, _ => some sent

/-- `finalize_stream` and `cancel_stream` both take the stream out. -/
def LiveStream.after (outcome : FeedOutcome) (stream : LiveStream) : Entry → LiveStream
  | .fed chunk => feedStream chunk outcome stream
  | .finalized _ | .cancelled => none
  | .dropped _ => stream

/-! ### A call -/

structure State where
  session : ConversationSession := {}
  /-- There was no audio in the turn yet. -/
  firstTts : Bool := true
  stream : LiveStream := none
  log : List Entry := []

inductive Label
  | sessionReady
  | pushAudio (payload : Bytes) (outcome : FeedOutcome)
  /-- The beginning of a turn, up to the first response. -/
  | speechEnded (durationMs : ℕ) (energyDb : Int)
  | textInput
  | respond (kind : TurnKind) (r : HandlerResponse)
  | endTurn
  | playbackFinished (interrupted : Bool)
  | cancel
  | transferInitiated
  | transferCompleted
  | transferCancelled
  | beginRecovery (destination reason : String)
  | respondRecovery (anyAudio : Bool) (r : HandlerResponse)
  | endRecovery (anyAudio : Bool)
  /-- The end of the session; the workflow may fail to finish with an exception. -/
  | close (reason : String) (raised : Bool)

/-- The state after a call of the session, with what it calls in the handler. -/
def State.after (sampleRate : ℕ) (s : State) (outcome : FeedOutcome) (session : ConversationSession)
    (calls : List HandlerCall) : State :=
  let new := calls.flatMap (entries sampleRate s.session.audioBuffer)
  { s with
    session := session
    stream := new.foldl (LiveStream.after outcome) s.stream
    log := s.log ++ new }

def step (sampleRate : ℕ) (s : State) : Label → State
  | .sessionReady => { s with session := s.session.sessionReady }
  | .pushAudio payload outcome =>
    s.after sampleRate outcome (s.session.pushAudio payload).1 (s.session.pushAudio payload).2
  | .speechEnded durationMs energyDb =>
    if s.session.acceptsSpeech then
      { s.after sampleRate .sent (s.session.beginTurn .speech)
          [.onSpeechEnded s.session.audioBuffer durationMs energyDb] with firstTts := true }
    else s
  | .textInput =>
    if s.session.acceptsSpeech then
      { s with session := s.session.beginTurn .text, firstTts := true }
    else s
  | .respond kind r =>
    let t := ConversationSession.Turn.respond kind r ⟨s.session, s.firstTts⟩
    { s with session := t.session, firstTts := t.firstTts }
  | .endTurn => { s with session := s.session.endTurn }
  | .playbackFinished interrupted =>
    { s with session := s.session.onPlaybackFinished interrupted }
  | .cancel => s.after sampleRate .sent s.session.cancel.1 s.session.cancel.2
  | .transferInitiated => { s with session := s.session.onTransferInitiated.1 }
  | .transferCompleted => { s with session := s.session.onTransferCompleted.1 }
  | .transferCancelled => { s with session := s.session.onTransferCancelled.1 }
  | .beginRecovery destination reason =>
    { s with session := (s.session.beginRecovery destination reason).1 }
  | .respondRecovery anyAudio r => { s with session := s.session.respondRecovery anyAudio r }
  | .endRecovery anyAudio => { s with session := s.session.endRecovery anyAudio }
  | .close reason raised =>
    if raised then
      -- The stream is not cancelled.
      { s with
        session := (s.session.close reason).1
        log := s.log ++ [.dropped s.session.audioBuffer] }
    else s.after sampleRate .sent (s.session.close reason).1 (s.session.close reason).2

/-- A call, where the gateway may call the session in any order. -/
def system (sampleRate : ℕ) : System State Label := ⟨{}, fun s l => some (step sampleRate s l)⟩

/-! ### What is heard -/

/-- What was fed since the stream was last finalized or cancelled. -/
def heardAfter (heard : Bytes) : Entry → Bytes
  | .fed chunk => heard ++ chunk
  | .finalized _ | .cancelled => []
  | .dropped _ => heard

def heard (log : List Entry) : Bytes := log.foldl heardAfter []

/-- What was dropped since then. -/
def droppedAfter (dropped : Bytes) : Entry → Bytes
  | .fed _ => dropped
  | .finalized _ | .cancelled => []
  | .dropped audio => dropped ++ audio

def dropped (log : List Entry) : Bytes := log.foldl droppedAfter []

/-- A stream that is finalized has been fed the utterance. -/
def HeardExactly (before : List Entry) : Entry → Prop
  | .finalized audio => heard before = audio
  | _ => True

/-- Nothing has been dropped when a stream is finalized. -/
def NothingDropped (before : List Entry) : Entry → Prop
  | .finalized _ => dropped before = []
  | _ => True

@[simp] theorem heard_concat (log : List Entry) (e : Entry) :
    heard (log ++ [e]) = heardAfter (heard log) e :=
  List.foldl_concat ..

@[simp] theorem dropped_concat (log : List Entry) (e : Entry) :
    dropped (log ++ [e]) = droppedAfter (dropped log) e :=
  List.foldl_concat ..

/-- The stream has been fed what was dropped, and then what is in the buffer. -/
structure InStep (s : State) : Prop where
  heard : heard s.log = dropped s.log ++ s.session.audioBuffer
  exactly_iff : Throughout HeardExactly s.log ↔ Throughout NothingDropped s.log

/-- A step that does not touch the audio. -/
theorem InStep.frame {s s' : State} (hs : InStep s)
    (hbuffer : s'.session.audioBuffer = s.session.audioBuffer) (hlog : s'.log = s.log) :
    InStep s' :=
  ⟨by rw [hbuffer, hlog, hs.heard], by rw [hlog, hs.exactly_iff]⟩

/-- A step with an entry that is no end of an utterance. -/
theorem InStep.concat {s s' : State} {e : Entry} (hs : InStep s) (hlog : s'.log = s.log ++ [e])
    (he : ∀ audio, e ≠ .finalized audio)
    (hheard : heardAfter (Streaming.heard s.log) e =
      droppedAfter (dropped s.log) e ++ s'.session.audioBuffer) : InStep s' := by
  refine ⟨by rw [hlog, heard_concat, dropped_concat, hheard], ?_⟩
  have htrue : HeardExactly s.log e ∧ NothingDropped s.log e := by
    rcases e with _ | audio | _ | _
    · exact ⟨trivial, trivial⟩
    · exact absurd rfl (he audio)
    · exact ⟨trivial, trivial⟩
    · exact ⟨trivial, trivial⟩
  rw [hlog, throughout_concat, throughout_concat, hs.exactly_iff, iff_true_intro htrue.1,
    iff_true_intro htrue.2]

/-- The session drops its buffer. -/
theorem InStep.drop {s s' : State} (hs : InStep s)
    (hlog : s'.log = s.log ++ [.dropped s.session.audioBuffer])
    (hbuffer : s'.session.audioBuffer = []) : InStep s' :=
  hs.concat hlog nofun (by rw [hbuffer, List.append_nil]; exact hs.heard)

/-- The end of an utterance. -/
theorem InStep.finalize {s s' : State} (hs : InStep s)
    (hlog : s'.log = s.log ++ [.finalized s.session.audioBuffer])
    (hbuffer : s'.session.audioBuffer = []) : InStep s' := by
  refine ⟨?_, ?_⟩
  · rw [hlog, heard_concat, dropped_concat, hbuffer]
    rfl
  · have hiff : HeardExactly s.log (.finalized s.session.audioBuffer) ↔
        NothingDropped s.log (.finalized s.session.audioBuffer) := by
      change Streaming.heard s.log = s.session.audioBuffer ↔ dropped s.log = []
      rw [hs.heard]
      exact List.append_left_eq_self
    rw [hlog, throughout_concat, throughout_concat, hs.exactly_iff, hiff]

theorem inStep_step (sampleRate : ℕ) {s : State} (hs : InStep s) (l : Label) :
    InStep (step sampleRate s l) := by
  rcases l with _ | ⟨payload, outcome⟩ | ⟨durationMs, energyDb⟩ | _ | ⟨kind, r⟩ | _ | interrupted |
    _ | _ | _ | _ | ⟨destination, reason⟩ | ⟨anyAudio, r⟩ | anyAudio | ⟨reason, raised⟩
  case pushAudio =>
    unfold step ConversationSession.pushAudio
    dsimp only
    split_ifs
    · refine hs.concat rfl nofun ?_
      change heard s.log ++ payload = dropped s.log ++ (s.session.audioBuffer ++ payload)
      rw [hs.heard, List.append_assoc]
    · exact hs.frame rfl (List.append_nil _)
  case speechEnded =>
    unfold step
    dsimp only
    split_ifs
    · by_cases hshort : s.session.audioBuffer.length < minBytes sampleRate
      · refine hs.drop ?_ rfl
        simp [State.after, entries, hshort]
      · refine hs.finalize ?_ rfl
        simp [State.after, entries, hshort]
    · exact hs
  case cancel => exact hs.drop rfl rfl
  case close =>
    unfold step
    dsimp only
    split_ifs
    · exact hs.drop rfl rfl
    · exact hs.concat rfl nofun rfl
  case textInput =>
    unfold step
    dsimp only
    split_ifs
    · exact hs.frame rfl rfl
    · exact hs
  case respond =>
    refine hs.frame ?_ rfl
    unfold step ConversationSession.Turn.respond
    dsimp only
    split_ifs <;> rfl
  case endTurn =>
    refine hs.frame ?_ rfl
    unfold step ConversationSession.endTurn
    dsimp only
    split_ifs <;> rfl
  case respondRecovery =>
    refine hs.frame ?_ rfl
    unfold step ConversationSession.respondRecovery
    dsimp only
    split_ifs <;> rfl
  case endRecovery =>
    refine hs.frame ?_ rfl
    unfold step ConversationSession.endRecovery
    dsimp only
    split_ifs <;> rfl
  all_goals exact hs.frame rfl rfl

theorem inStep {sampleRate : ℕ} {s : State} (hs : (system sampleRate).Reachable s) : InStep s := by
  refine hs.invariant (I := InStep) ⟨rfl, by simp [system]⟩ ?_
  rintro s l _ h ⟨⟩
  exact inStep_step sampleRate h l

/-- Every utterance is heard exactly if and only if nothing was dropped before it,
    since the end of the one before. -/
theorem heardExactly_iff {sampleRate : ℕ} {s : State} (hs : (system sampleRate).Reachable s) :
    Throughout HeardExactly s.log ↔ Throughout NothingDropped s.log :=
  (inStep hs).exactly_iff

/-! ### What the connection was sent -/

/-- No chunk fails. -/
def Sends (_ : State) : Label → Prop
  | .pushAudio _ outcome => outcome = .sent
  | _ => True

/-- The stream takes part in every step with an entry. -/
theorem step_stream (sampleRate : ℕ) (s : State) (l : Label) :
    ∃ outcome new, (step sampleRate s l).stream = new.foldl (LiveStream.after outcome) s.stream ∧
      (step sampleRate s l).log = s.log ++ new ∧ (Sends s l → outcome = .sent) := by
  have hsame {s' : State} (hstream : s'.stream = s.stream) (hlog : s'.log = s.log) :
      ∃ outcome new, s'.stream = new.foldl (LiveStream.after outcome) s.stream ∧
        s'.log = s.log ++ new ∧ (Sends s l → outcome = .sent) :=
    ⟨.sent, [], hstream, by rw [hlog, List.append_nil], fun _ => rfl⟩
  rcases l with _ | ⟨payload, outcome⟩ | ⟨durationMs, energyDb⟩ | _ | ⟨kind, r⟩ | _ | interrupted |
    _ | _ | _ | _ | ⟨destination, reason⟩ | ⟨anyAudio, r⟩ | anyAudio | ⟨reason, raised⟩
  case pushAudio => exact ⟨outcome, _, rfl, rfl, id⟩
  case speechEnded =>
    unfold step
    dsimp only
    split_ifs
    · exact ⟨.sent, _, rfl, rfl, fun _ => rfl⟩
    · exact hsame rfl rfl
  case textInput =>
    unfold step
    dsimp only
    split_ifs <;> exact hsame rfl rfl
  case cancel => exact ⟨.sent, _, rfl, rfl, fun _ => rfl⟩
  case close =>
    unfold step
    dsimp only
    split_ifs
    · exact ⟨.sent, [.dropped s.session.audioBuffer], rfl, rfl, fun _ => rfl⟩
    · exact ⟨.sent, _, rfl, rfl, fun _ => rfl⟩
  all_goals exact hsame rfl rfl

theorem after_sublist {heard : Bytes} {stream : LiveStream} (h : (stream.getD []).Sublist heard)
    (outcome : FeedOutcome) (e : Entry) :
    ((stream.after outcome e).getD []).Sublist (heardAfter heard e) := by
  rcases e with chunk | audio | _ | audio
  · unfold LiveStream.after feedStream heardAfter
    dsimp only
    split_ifs with hchunk
    · exact h.trans (List.sublist_append_left _ _)
    · rcases stream with _ | sent <;> rcases outcome with _ | _ | _
      · exact List.sublist_append_right _ _
      · exact List.nil_sublist _
      · exact List.nil_sublist _
      · exact h.append (List.Sublist.refl _)
      · exact h.trans (List.sublist_append_left _ _)
      · exact h.trans (List.sublist_append_left _ _)
  · exact List.nil_sublist _
  · exact List.nil_sublist _
  · exact h

theorem after_sent {heard : Bytes} {stream : LiveStream} (h : stream.getD [] = heard) (e : Entry) :
    (stream.after .sent e).getD [] = heardAfter heard e := by
  rcases e with chunk | audio | _ | audio
  · unfold LiveStream.after feedStream heardAfter
    dsimp only
    split_ifs with hchunk
    · rw [hchunk, List.append_nil, h]
    · rcases stream with _ | sent
      · rw [← h]
        rfl
      · rw [← h]
        rfl
  · rfl
  · rfl
  · exact h

/-- Entry by entry, a relation of the stream to what was heard is kept. -/
theorem foldl_after {R : Bytes → Bytes → Prop} {outcome : FeedOutcome}
    (hafter : ∀ {heard : Bytes} {stream : LiveStream}, R (stream.getD []) heard →
      ∀ e, R ((stream.after outcome e).getD []) (heardAfter heard e))
    (new log : List Entry) {stream : LiveStream} (h : R (stream.getD []) (heard log)) :
    R ((new.foldl (LiveStream.after outcome) stream).getD []) (heard (log ++ new)) := by
  induction new generalizing log stream with
  | nil => rwa [List.append_nil]
  | cons e new ih =>
    rw [List.foldl_cons, List.append_cons]
    exact ih (log ++ [e]) (by rw [heard_concat]; exact hafter h e)

/-- The connection was sent nothing but what the stream has been fed, -/
theorem stream_sublist {sampleRate : ℕ} {s : State} (hs : (system sampleRate).Reachable s) :
    (s.stream.getD []).Sublist (heard s.log) := by
  refine hs.invariant (I := fun s => (s.stream.getD []).Sublist (heard s.log))
    (List.Sublist.refl _) ?_
  rintro s l _ h ⟨⟩
  obtain ⟨outcome, new, hstream, hlog, -⟩ := step_stream sampleRate s l
  rw [hstream, hlog]
  exact foldl_after (R := List.Sublist) (fun h e => after_sublist h outcome e) new s.log h

/-- and all of it, if no chunk fails. -/
theorem stream_eq {sampleRate : ℕ} {s : State} (hs : (system sampleRate).ReachableIf Sends s) :
    s.stream.getD [] = heard s.log := by
  refine hs.invariant (I := fun s => s.stream.getD [] = heard s.log) rfl ?_
  rintro s l _ h hsends ⟨⟩
  obtain ⟨outcome, new, hstream, hlog, hsent⟩ := step_stream sampleRate s l
  rw [hstream, hlog, hsent hsends]
  exact foldl_after (R := Eq) after_sent new s.log h

/-! ### A noise before the utterance -/

/-- A noise of the length of a chunk, and then an utterance of a second. -/
def noise (sampleRate : ℕ) : List Label :=
  let second : Bytes := List.replicate (minBytes sampleRate) 0
  [.sessionReady, .pushAudio [1, 1] .sent, .speechEnded 20 0, .endTurn, .pushAudio second .sent,
    .speechEnded 1000 0]

theorem step_speechEnded {s : State} (sampleRate : ℕ) (hs : s.session.acceptsSpeech = true)
    (durationMs : ℕ) (energyDb : Int) :
    (step sampleRate s (.speechEnded durationMs energyDb)).session = s.session.beginTurn .speech ∧
      (step sampleRate s (.speechEnded durationMs energyDb)).log = s.log ++
        [if s.session.audioBuffer.length < minBytes sampleRate then .dropped s.session.audioBuffer
          else .finalized s.session.audioBuffer] := by
  unfold step
  dsimp only
  rw [if_pos hs]
  refine ⟨rfl, ?_⟩
  rw [State.after, List.flatMap_singleton, entries]
  split_ifs <;> rfl

/-- The noise is dropped, and then the stream that is finalized has heard it. -/
theorem exec_noise {sampleRate : ℕ} (h : 1 < sampleRate) :
    ∃ s, (system sampleRate).exec {} (noise sampleRate) = some s ∧
      s.log = [.fed [1, 1], .dropped [1, 1], .fed (List.replicate (minBytes sampleRate) 0),
        .finalized (List.replicate (minBytes sampleRate) 0)] := by
  have hshort : ([1, 1] : Bytes).length < minBytes sampleRate := by
    rw [minBytes, List.length_cons, List.length_singleton]
    omega
  have hlong : ¬ (List.replicate (minBytes sampleRate) (0 : UInt8)).length < minBytes sampleRate := by
    rw [List.length_replicate]
    exact lt_irrefl _
  rw [noise]
  generalize List.replicate (minBytes sampleRate) (0 : UInt8) = second at hlong ⊢
  -- The noise goes into the buffer and the stream, and is dropped from the buffer.
  let s₁ := step sampleRate (step sampleRate {} .sessionReady) (.pushAudio [1, 1] .sent)
  obtain ⟨hsession₂, hlog₂⟩ := step_speechEnded (s := s₁) sampleRate rfl 20 0
  let s₂ := step sampleRate (step sampleRate s₁ (.speechEnded 20 0)) .endTurn
  replace hsession₂ : s₂.session = { fsm := .listening } :=
    congrArg ConversationSession.endTurn hsession₂
  replace hlog₂ : s₂.log = [.fed [1, 1], .dropped [1, 1]] :=
    hlog₂.trans (congrArg (s₁.log ++ [·]) (if_pos hshort))
  -- The utterance is heard after it.
  let s₃ := step sampleRate s₂ (.pushAudio second .sent)
  have hsession₃ : s₃.session = { fsm := .listening, audioBuffer := second } := by
    change (s₂.session.pushAudio second).1 = _
    rw [hsession₂]
    rfl
  have hlog₃ : s₃.log = [.fed [1, 1], .dropped [1, 1], .fed second] := by
    change s₂.log ++ (s₂.session.pushAudio second).2.flatMap _ = _
    rw [hsession₂, hlog₂]
    rfl
  obtain ⟨-, hlog₄⟩ := step_speechEnded (s := s₃) sampleRate (by rw [hsession₃]; rfl) 1000 0
  refine ⟨_, rfl, ?_⟩
  rw [hsession₃, if_neg hlong, hlog₃] at hlog₄
  exact hlog₄

theorem heardExactly_iff_noise :
    ∃ s, (system 8000).exec {} (noise 8000) = some s ∧
      (Throughout HeardExactly s.log ↔ Throughout NothingDropped s.log) := by
  obtain ⟨s, hs, -⟩ := exec_noise (show 1 < 8000 by decide)
  exact ⟨s, hs, heardExactly_iff (System.Reachable.exec .init hs)⟩

/-- The transcript of the utterance is one of the noise as well. -/
theorem not_heardExactly :
    ∃ s, (system 8000).Reachable s ∧ ¬ Throughout HeardExactly s.log := by
  obtain ⟨s, hs, hlog⟩ := exec_noise (show 1 < 8000 by decide)
  refine ⟨s, System.Reachable.exec .init hs, fun h => ?_⟩
  let second : Bytes := List.replicate (minBytes 8000) 0
  have hfinal : [1, 1] ++ second = second :=
    h [.fed [1, 1], .dropped [1, 1], .fed second] (.finalized second) [] hlog
  exact absurd (List.append_left_eq_self.1 hfinal) (List.cons_ne_nil _ _)

end Yuviz.Conversation.Streaming
