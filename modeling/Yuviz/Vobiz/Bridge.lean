import Mathlib.Data.Int.Notation
import Mathlib.Data.List.Basic
import Yuviz.System

/-!
# The bridge of a Vobiz call

Five tasks of one event loop share the state of a call: one reads the media
events of the caller and runs the VAD on them, one reads the stream of the
Conversation Service, the pacer plays what is in the playback queue, a pump
holds the audio of the caller for a while, and a writer writes to the stream.
What a task does between two awaits is one step. A put to a queue without a
bound is not an await that lets another task run. A task that has returned or
raised is one that takes no more steps, and the run may end at any moment.

The times are in milliseconds. What the VAD says of each window, and when the
sends and writes are over, is in the labels.

What is not in the program is the turn of each sample, and the *log*: what was
sent to the caller, the barge-ins, and the turns that were resolved by a final
marker.
-/

namespace Yuviz.Vobiz

/-- A `VADEvent`. -/
inductive VadEvent
  | none
  | speechStart
  | speechEnd
  deriving DecidableEq

/-- A byte of mu-law speech. The turns are counted by the `speech_ended`
    notifications, and the greeting is of turn 0. -/
structure Sample where
  turn : ℕ
  byte : UInt8
  deriving DecidableEq

/-- An item of the playback queue. -/
inductive Item
  | frame (samples : List Sample)
  /-- The `_FINAL_MARKER`, of a turn. -/
  | final (turn : ℕ)
  deriving DecidableEq

def Item.isFrame : Item → Bool
  | frame _ => true
  | final _ => false

/-- An `audio_chunk` of the caller. -/
structure AudioChunk where
  sequenceNum : ℕ
  payload : List UInt8
  deriving DecidableEq

/-- A message to the Conversation Service. -/
inductive Message
  | audioChunk (chunk : AudioChunk)
  /-- With the chunks that were in the delay buffer at the `SPEECH_START`. -/
  | cancelGeneration (held : List AudioChunk)
  /-- With the chunks that had been received at the `SPEECH_END`, and those of them
      that were held. -/
  | speechEnded (received held : List AudioChunk)
  deriving DecidableEq

def Message.chunk? : Message → Option AudioChunk
  | audioChunk chunk => some chunk
  | _ => none

/-- A message of the Conversation Service. The audio is converted to mu-law. -/
inductive Response
  | ttsChunk (turn : ℕ) (ulaw : List UInt8) (isFinal : Bool)
  | cancelAck
  | error (fatal : Bool)
  | endCall

/-- An entry of the log. -/
inductive Event
  | playAudio (frame : List Sample)
  | clearAudio
  /-- A barge-in when so many turns had begun, and whether the pacer held a frame. -/
  | bargeIn (generation : ℕ) (holding : Bool)
  | resolved (turn : ℕ)
  deriving DecidableEq

/-- Where `_playback_pacer` is. -/
inductive Pacer
  | waiting
  | sleeping (frame : List Sample) (target : ℤ)
  | sending (frame : List Sample)

/-- The frame that the pacer holds. -/
def Pacer.frame? : Pacer → Option (List Sample)
  | waiting => none
  | sleeping frame _ => some frame
  | sending frame => some frame

/-- Where `_vobiz_to_grpc` is. -/
inductive Media
  | reading
  /-- It sends `clearAudio`, with the chunks that were held at the `SPEECH_START`
      and what the VAD says of the windows that are left. -/
  | clearing (held : List AudioChunk) (events : List VadEvent)

/-- The chunks that were held at the `SPEECH_START` of a barge-in. -/
def Media.held? : Media → Option (List AudioChunk)
  | reading => none
  | clearing held _ => some held

/-- What the VAD says of the windows that are left. -/
def Media.events : Media → List VadEvent
  | reading => []
  | clearing _ events => events

structure Bridge where
  speaking : Bool
  playingTts : Bool
  turnActive : Bool
  turnGeneration : ℕ
  /-- The task of the watchdog: its turn, and when it fires. -/
  turnWatchdog : Option (ℕ × ℤ)
  playQueue : List Item
  playBuf : List Sample
  playbackStartedAt : Option ℤ
  framesSent : ℕ
  pacer : Pacer
  media : Media
  /-- The length of `_vad_buf`. -/
  vadBuf : ℕ
  sequenceNum : ℕ
  /-- The chunks that are held, and since when. -/
  audioDelayBuf : List (ℤ × AudioChunk)
  grpcWriteQueue : List Message
  /-- The message that `_grpc_writer_loop` is writing. -/
  writer : Option Message
  written : List Message
  /-- `time.monotonic()` -/
  now : ℤ
  received : List AudioChunk
  log : List Event
  /-- The turns below have been cancelled. -/
  cancelled : ℕ
  /-- Whether the turn of the frame that the pacer holds was cancelled since it took it. -/
  cut : Bool

def windowBytes : ℕ := 1024

def ulawFrameBytes : ℕ := 160

def frameMs : ℤ := 20

def playbackLeadMs : ℤ := 100

def audioDelayMs : ℤ := 150

def turnWatchdogMs : ℤ := 12000

inductive Label
  | tick (elapsed : ℕ)
  /-- A `media` event, and what the VAD says of the windows it completes. -/
  | media (payload : List UInt8) (events : List VadEvent)
  /-- `clearAudio` has been sent. -/
  | clearAudio
  | receive (msg : Response)
  /-- The pacer takes an item, -/
  | take
  /-- wakes up, -/
  | wake
  /-- and has sent its frame. -/
  | sent
  | pump
  /-- The writer takes a message, -/
  | write
  /-- and has written it. -/
  | wrote
  | watchdog

namespace Bridge

variable (s : Bridge)

def clearPlaybackQueue : Bridge :=
  { s with playQueue := [], playBuf := [], playbackStartedAt := none, framesSent := 0 }

def flushPendingAudioNow : Bridge :=
  { s with
    grpcWriteQueue := s.grpcWriteQueue ++ s.audioDelayBuf.map fun held => .audioChunk held.2
    audioDelayBuf := [] }

def resolveTurn : Bridge := { s with turnActive := false, turnWatchdog := none }

def startTurn : Bridge :=
  { s with
    turnActive := true
    turnGeneration := s.turnGeneration + 1
    turnWatchdog := some (s.turnGeneration + 1, s.now + turnWatchdogMs) }

def turnWatchdogFire : Option Bridge :=
  match s.turnWatchdog with
  | some (gen, due) =>
    if s.now < due then none
    else if s.turnActive ∧ gen = s.turnGeneration then some s.resolveTurn
    else some { s with turnWatchdog := none }
  | none => none

/-! ### The caller -/

def heldChunks : List AudioChunk := s.audioDelayBuf.map (·.2)

def bargeIn : Bridge :=
  { s.resolveTurn.clearPlaybackQueue with
    playingTts := false
    cancelled := s.turnGeneration + 1
    cut := s.pacer.frame?.isSome
    log := s.log ++ [.bargeIn s.turnGeneration s.pacer.frame?.isSome] }

/-- `cancel_generation` is queued, and what is held after it. -/
def cancelGeneration (held : List AudioChunk) : Bridge :=
  flushPendingAudioNow { s with grpcWriteQueue := s.grpcWriteQueue ++ [.cancelGeneration held] }

def speechEnded : Bridge :=
  { s.startTurn with
    speaking := false
    grpcWriteQueue := s.grpcWriteQueue ++ [.speechEnded s.received s.heldChunks] }

/-- `_run_vad`, up to its end or the await of `clearAudio`. -/
def runVad (s : Bridge) : List VadEvent → Bridge
  | [] => { s with media := .reading }
  | .none :: events => s.runVad events
  | .speechStart :: events =>
    if s.turnActive then
      if s.playingTts then
        { s.bargeIn with speaking := true, media := .clearing s.heldChunks events }
      else ({ s.bargeIn with speaking := true }.cancelGeneration s.heldChunks).runVad events
    else { s with speaking := true }.runVad events
  | .speechEnd :: events =>
    if s.speaking then s.speechEnded.runVad events else s.runVad events

/-- The audio of a `media` event is held, and what it completes of the windows
    of the VAD is cut off. -/
def hold (payload : List UInt8) : Bridge :=
  let chunk : AudioChunk := ⟨s.sequenceNum + 1, payload⟩
  { s with
    sequenceNum := s.sequenceNum + 1
    audioDelayBuf := s.audioDelayBuf ++ [(s.now, chunk)]
    received := s.received ++ [chunk]
    vadBuf := (s.vadBuf + payload.length) % windowBytes }

def onMedia (payload : List UInt8) (events : List VadEvent) : Option Bridge :=
  match s.media with
  | .reading =>
    if events.length = (s.vadBuf + payload.length) / windowBytes then
      some ((s.hold payload).runVad events)
    else none
  | .clearing _ _ => none

def onClearAudio : Option Bridge :=
  match s.media with
  | .reading => none
  | .clearing held events =>
    some (({ s with log := s.log ++ [Event.clearAudio] }.cancelGeneration held).runVad events)

def audioDelayPump : Option Bridge :=
  match s.audioDelayBuf with
  | [] => none
  | (enqueuedAt, chunk) :: rest =>
    if audioDelayMs - (s.now - enqueuedAt) > 0 then none
    else some
      { s with
        audioDelayBuf := rest
        grpcWriteQueue := s.grpcWriteQueue ++ [.audioChunk chunk] }

def write : Option Bridge :=
  match s.writer, s.grpcWriteQueue with
  | none, msg :: rest => some { s with writer := some msg, grpcWriteQueue := rest }
  | _, _ => none

def wrote : Option Bridge :=
  s.writer.map fun msg => { s with writer := none, written := s.written ++ [msg] }

/-- What every part of `_run_vad` preserves, it does. -/
theorem runVad_invariant {I : Bridge → Prop} {s : Bridge} (events : List VadEvent) (hs : I s)
    (hspeaking : ∀ s b, I s → I { s with speaking := b })
    (hreading : ∀ s, I s → I { s with media := .reading })
    (hclearing : ∀ s events, I s → I { s with media := .clearing s.heldChunks events })
    (hbargeIn : ∀ s, I s → I s.bargeIn)
    (hcancel : ∀ s, I s → I (s.cancelGeneration s.heldChunks))
    (hended : ∀ s, I s → I s.speechEnded) : I (s.runVad events) := by
  induction events generalizing s with
  | nil => exact hreading s hs
  | cons event events ih =>
    cases event with
    | none => exact ih hs
    | speechStart =>
      rw [runVad]
      have hbarged := hspeaking _ true (hbargeIn s hs)
      split_ifs
      · exact hclearing _ events hbarged
      · exact ih (hcancel _ hbarged)
      · exact ih (hspeaking s true hs)
    | speechEnd =>
      rw [runVad]
      split_ifs
      · exact ih (hended s hs)
      · exact ih hs

/-! ### The service -/

/-- The frames that are cut off a buffer of speech, and the rest of it. The first
    argument is a bound of their number. -/
def cutFrames : ℕ → List Sample → List Item × List Sample
  | 0, buf => ([], buf)
  | n + 1, buf =>
    if ulawFrameBytes ≤ buf.length then
      let (items, rest) := cutFrames n (buf.drop ulawFrameBytes)
      (.frame (buf.take ulawFrameBytes) :: items, rest)
    else ([], buf)

/-- What a chunk of speech puts on the playback queue, and what it leaves in the buffer. -/
def ttsItems (turn : ℕ) (ulaw : List UInt8) (isFinal : Bool) : List Item × List Sample :=
  let buf := s.playBuf ++ ulaw.map (⟨turn, ·⟩)
  let (items, rest) := cutFrames buf.length buf
  if isFinal then
    (items ++ (if rest = [] then [] else [.frame rest]) ++ [.final turn], [])
  else (items, rest)

/-- The speech of a turn arrives after the turn has begun. -/
def receive : Response → Option Bridge
  | .ttsChunk turn ulaw isFinal =>
    if turn ≤ s.turnGeneration then
      let (items, rest) := s.ttsItems turn ulaw isFinal
      some { s with playQueue := s.playQueue ++ items, playBuf := rest }
    else none
  | .cancelAck => some s
  | .error _ => some { s.clearPlaybackQueue.resolveTurn with playingTts := false }
  | .endCall => some s

/-! ### The pacer -/

/-- When the playback began, and how many frames have been sent since. -/
def pace : ℤ × ℕ :=
  match s.playbackStartedAt with
  | some startedAt => (startedAt, s.framesSent)
  | none => (s.now - playbackLeadMs, 0)

/-- The frame has its time, and is sent when it has come. -/
def play (frame : List Sample) : Bridge :=
  let target := s.pace.1 + s.pace.2 * frameMs
  if target > s.now then
    { s with
      playingTts := true
      playbackStartedAt := some s.pace.1
      framesSent := s.pace.2
      pacer := .sleeping frame target
      cut := false }
  else
    { s with
      playingTts := true
      playbackStartedAt := some s.pace.1
      framesSent := s.pace.2 + 1
      pacer := .sending frame
      cut := false }

def take : Option Bridge :=
  match s.pacer, s.playQueue with
  | .waiting, .final turn :: rest => some
    { s.resolveTurn with
      playQueue := rest
      playingTts := false
      playbackStartedAt := none
      framesSent := 0
      log := s.log ++ [.resolved turn] }
  | .waiting, .frame samples :: rest => some ({ s with playQueue := rest }.play samples)
  | _, _ => none

def wake : Option Bridge :=
  match s.pacer with
  | .sleeping frame target =>
    if s.now < target then none
    else some { s with framesSent := s.framesSent + 1, pacer := .sending frame }
  | _ => none

def sent : Option Bridge :=
  match s.pacer with
  | .sending frame => some { s with pacer := .waiting, log := s.log ++ [.playAudio frame] }
  | _ => none

def step (s : Bridge) : Label → Option Bridge
  | .tick elapsed => some { s with now := s.now + elapsed }
  | .media payload events => s.onMedia payload events
  | .clearAudio => s.onClearAudio
  | .receive msg => s.receive msg
  | .take => s.take
  | .wake => s.wake
  | .sent => s.sent
  | .pump => s.audioDelayPump
  | .write => s.write
  | .wrote => s.wrote
  | .watchdog => s.turnWatchdogFire

def system (now : ℤ) : System Bridge Label where
  init :=
    { speaking := false, playingTts := false, turnActive := false, turnGeneration := 0,
      turnWatchdog := none, playQueue := [], playBuf := [], playbackStartedAt := none,
      framesSent := 0, pacer := .waiting, media := .reading, vadBuf := 0, sequenceNum := 0,
      audioDelayBuf := [], grpcWriteQueue := [], writer := none, written := [], now := now,
      received := [], log := [], cancelled := 0, cut := false }
  step := step

/-! ### Steps -/

/-- What a step does. -/
inductive Moves (s : Bridge) : Label → Bridge → Prop
  | tick (elapsed : ℕ) : Moves s (.tick elapsed) { s with now := s.now + elapsed }
  | media (payload : List UInt8) (events : List VadEvent) :
    Moves s (.media payload events) ((s.hold payload).runVad events)
  | clearAudio {held : List AudioChunk} {events : List VadEvent}
      (hmedia : s.media = .clearing held events) : Moves s .clearAudio
      (runVad (cancelGeneration { s with log := s.log ++ [Event.clearAudio] } held) events)
  | ttsChunk {turn : ℕ} (ulaw : List UInt8) (isFinal : Bool) (hturn : turn ≤ s.turnGeneration) :
    Moves s (.receive (.ttsChunk turn ulaw isFinal))
      { s with
        playQueue := s.playQueue ++ (s.ttsItems turn ulaw isFinal).1
        playBuf := (s.ttsItems turn ulaw isFinal).2 }
  | cancelAck : Moves s (.receive .cancelAck) s
  | error (fatal : Bool) :
    Moves s (.receive (.error fatal)) { s.clearPlaybackQueue.resolveTurn with playingTts := false }
  | endCall : Moves s (.receive .endCall) s
  | final {turn : ℕ} {rest : List Item} (hpacer : s.pacer = .waiting)
      (hqueue : s.playQueue = .final turn :: rest) : Moves s .take
      { s.resolveTurn with
        playQueue := rest
        playingTts := false
        playbackStartedAt := none
        framesSent := 0
        log := s.log ++ [.resolved turn] }
  | frame {samples : List Sample} {rest : List Item} (hpacer : s.pacer = .waiting)
      (hqueue : s.playQueue = .frame samples :: rest) :
    Moves s .take ({ s with playQueue := rest }.play samples)
  | wake {frame : List Sample} {target : ℤ} (hpacer : s.pacer = .sleeping frame target) :
    Moves s .wake { s with framesSent := s.framesSent + 1, pacer := .sending frame }
  | sent {frame : List Sample} (hpacer : s.pacer = .sending frame) :
    Moves s .sent { s with pacer := .waiting, log := s.log ++ [.playAudio frame] }
  | pump {since : ℤ} {chunk : AudioChunk} {rest : List (ℤ × AudioChunk)}
      (hbuf : s.audioDelayBuf = (since, chunk) :: rest) : Moves s .pump
      { s with
        audioDelayBuf := rest
        grpcWriteQueue := s.grpcWriteQueue ++ [.audioChunk chunk] }
  | write {msg : Message} {rest : List Message} (hwriter : s.writer = none)
      (hqueue : s.grpcWriteQueue = msg :: rest) :
    Moves s .write { s with writer := some msg, grpcWriteQueue := rest }
  | wrote {msg : Message} (hwriter : s.writer = some msg) :
    Moves s .wrote { s with writer := none, written := s.written ++ [msg] }
  | resolve : Moves s .watchdog s.resolveTurn
  | expire : Moves s .watchdog { s with turnWatchdog := none }

theorem moves_of_step {s s' : Bridge} {l : Label} (hst : s.step l = some s') : s.Moves l s' := by
  cases l with
  | tick elapsed => exact Option.some.inj hst ▸ .tick elapsed
  | media payload events =>
    rw [step, onMedia] at hst
    split at hst
    · split_ifs at hst
      exact Option.some.inj hst ▸ .media payload events
    · cases hst
  | clearAudio =>
    rw [step, onClearAudio] at hst
    split at hst
    · cases hst
    · rename_i held events hmedia
      exact Option.some.inj hst ▸ .clearAudio hmedia
  | receive msg =>
    cases msg with
    | ttsChunk turn ulaw isFinal =>
      simp only [step, receive] at hst
      split_ifs at hst with hturn
      exact Option.some.inj hst ▸ .ttsChunk ulaw isFinal hturn
    | cancelAck => exact Option.some.inj hst ▸ .cancelAck
    | error fatal => exact Option.some.inj hst ▸ .error fatal
    | endCall => exact Option.some.inj hst ▸ .endCall
  | take =>
    rw [step, take] at hst
    split at hst
    · rename_i turn rest hpacer hqueue
      exact Option.some.inj hst ▸ .final hpacer hqueue
    · rename_i samples rest hpacer hqueue
      exact Option.some.inj hst ▸ .frame hpacer hqueue
    · cases hst
  | wake =>
    rw [step, wake] at hst
    split at hst
    · rename_i frame target hpacer
      split_ifs at hst
      exact Option.some.inj hst ▸ .wake hpacer
    · cases hst
  | sent =>
    rw [step, sent] at hst
    split at hst
    · rename_i frame hpacer
      exact Option.some.inj hst ▸ .sent hpacer
    · cases hst
  | pump =>
    rw [step, audioDelayPump] at hst
    split at hst
    · cases hst
    · rename_i since chunk rest hbuf
      split_ifs at hst
      exact Option.some.inj hst ▸ .pump hbuf
  | write =>
    rw [step, write] at hst
    split at hst
    · rename_i msg rest hwriter hqueue
      exact Option.some.inj hst ▸ .write hwriter hqueue
    · cases hst
  | wrote =>
    obtain ⟨msg, hwriter, rfl⟩ := Option.map_eq_some_iff.1 hst
    exact .wrote hwriter
  | watchdog =>
    rw [step, turnWatchdogFire] at hst
    split at hst
    · split_ifs at hst
      · exact Option.some.inj hst ▸ .resolve
      · exact Option.some.inj hst ▸ .expire
    · cases hst

/-- The pacer has taken the frame, and has it. -/
theorem play_eq (s : Bridge) (frame : List Sample) :
    ∃ startedAt framesSent pacer, pacer.frame? = some frame ∧ s.play frame =
      { s with
        playingTts := true
        playbackStartedAt := startedAt
        framesSent := framesSent
        pacer := pacer
        cut := false } := by
  rw [play]
  split_ifs
  · exact ⟨_, _, .sleeping frame _, rfl, rfl⟩
  · exact ⟨_, _, .sending frame, rfl, rfl⟩

/-! ### A call -/

/-- What completes a window of the VAD, and what the VAD says of it. -/
def window (event : VadEvent) : Label := .media (List.replicate windowBytes 0) [event]

def windowChunk (n : ℕ) : AudioChunk := ⟨n, List.replicate windowBytes 0⟩

/-- The caller speaks for three windows and is silent for 32. All that is old
    enough has been let go when the speech ends. -/
def utterance : List Label :=
  [window .none, window .none, window .speechStart] ++ List.replicate 31 (window .none) ++
    [.tick 150] ++ List.replicate 34 .pump ++ [window .speechEnd]

end Bridge

end Yuviz.Vobiz
