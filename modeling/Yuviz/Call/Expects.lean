import Mathlib
import Yuviz.Call
import Yuviz.Conversation.Servicer.Deferral

/-!
# What the service expects

The service does not listen while it `Expects` something of the gateway: the
outcome of a transfer that was initiated, or the end of the playback of its
apology for one that failed. A message it receives may add to that or put an end
to it, and nothing else adds to it (`serves_step`), if a turn does not put the
messages about a transfer back behind others that matter, and no interrupted
playback is received while the service speaks (`InOrder`).
-/

namespace Yuviz

open Conversation

/-- What the service expects of the gateway. -/
inductive Expects
  | nothing
  /-- The outcome of a transfer. -/
  | outcome
  /-- The end of the playback of its apology. -/
  | playback
  deriving DecidableEq, Repr

namespace Expects

/-- A cancel, or the end of a playback. -/
def released (x : Expects) : Expects := if x = .playback then .nothing else x

/-- What is expected after a message. -/
def received (x : Expects) : Option GatewayMessage → Expects
  | some (.transferInitiated ..) => .outcome
  | some (.transferFailed ..) => .playback
  | some (.cancelGeneration _) | some (.playbackFinished _) => x.released
  | _ => x

/-- The first message means something else if it comes behind the second. -/
def conflicts : Option GatewayMessage → Option GatewayMessage → Bool
  | some (.transferInitiated ..), some (.transferFailed ..)
  | some (.transferFailed ..), some (.transferInitiated ..)
  | some (.transferFailed ..), some (.cancelGeneration _)
  | some (.transferFailed ..), some (.playbackFinished _) => true
  | _, _ => false

/-- No more is expected. -/
def AtMost (x y : Expects) : Prop := x = .nothing ∨ x = y

instance (x y : Expects) : Decidable (x.AtMost y) := inferInstanceAs (Decidable (_ ∨ _))

variable {x y z : Expects} {m : Option GatewayMessage} {ms : List (Option GatewayMessage)}

theorem AtMost.refl (x : Expects) : x.AtMost x := .inr rfl

theorem AtMost.trans (h : x.AtMost y) (h' : y.AtMost z) : x.AtMost z := by
  rcases h with rfl | rfl
  · exact .inl rfl
  · exact h'

theorem atMost_released (x : Expects) : x.released.AtMost x := by
  cases x <;> decide

theorem AtMost.received (h : x.AtMost y) (m : Option GatewayMessage) :
    (x.received m).AtMost (y.received m) := by
  rcases h with rfl | rfl
  · rcases m with _ | m
    · exact .inl rfl
    · cases m <;> first | exact .inl rfl | exact .inr rfl
  · exact .refl _

theorem AtMost.foldl (h : x.AtMost y) (ms : List (Option GatewayMessage)) :
    (ms.foldl Expects.received x).AtMost (ms.foldl Expects.received y) := by
  induction ms generalizing x y with
  | nil => exact h
  | cons m ms ih => exact ih (h.received m)

theorem foldl_of_fixed (h : ∀ m ∈ ms, x.received m = x) : ms.foldl Expects.received x = x := by
  induction ms with
  | nil => rfl
  | cons m ms ih =>
    rw [List.forall_mem_cons] at h
    rw [List.foldl_cons, h.1, ih h.2]

/-- A message that is put back behind others. -/
theorem foldl_putBack (ha : Servicer.isAside m = true) (h : ∀ m' ∈ ms, conflicts m m' = false) :
    (ms ++ [m]).foldl Expects.received x = (m :: ms).foldl Expects.received x := by
  rw [List.foldl_append, List.foldl_cons, List.foldl_nil, List.foldl_cons]
  have hfixed (hm : ∀ y : Expects, y.received m = x.received m)
      (hc : ∀ m', conflicts m m' = false → (x.received m).received m' = x.received m) :
      (ms.foldl Expects.received x).received m = ms.foldl Expects.received (x.received m) := by
    rw [foldl_of_fixed fun m' hm' => hc m' (h m' hm'), hm]
  rcases m with _ | m
  · rfl
  · cases m
    case audioChunk | cancelGeneration | playbackFinished => cases ha
    case transferInitiated =>
      refine hfixed (fun _ => rfl) fun m' hm' => ?_
      rcases m' with _ | m'
      · rfl
      · cases m' <;> first | rfl | cases hm'
    case transferFailed =>
      refine hfixed (fun _ => rfl) fun m' hm' => ?_
      rcases m' with _ | m'
      · rfl
      · cases m' <;> first | rfl | cases hm'
    all_goals rfl

end Expects

namespace Conversation

/-- What the servicer is doing. -/
inductive Activity
  | greeting
  | receiving
  | speech
  | text
  | recovery (anyAudio : Bool)
  | closed
  deriving DecidableEq, Repr

def Pc.activity : Pc → Activity
  | .greeting => .greeting
  | .receiving => .receiving
  | .speech .. => .speech
  | .text _ => .text
  | .recovery anyAudio => .recovery anyAudio
  | .closed => .closed

namespace Activity

/-- What the service expects, given the state of its machine: a turn puts the
    machine back by itself. -/
def expects (a : Activity) (fsm : CallFsmState) : Expects :=
  match a with
  | .recovery _ => .playback
  | .speech => .nothing
  | _ => if fsm = .transferring then .outcome else if fsm = .speaking then .playback else .nothing

/-- The states the machine may be in. -/
def states : Activity → List CallFsmState
  | .greeting => [.listening]
  | .receiving => [.listening, .speaking, .transferring, .closing, .closed]
  | .speech => [.listening, .recognizing, .thinking, .synthesizing, .speaking]
  | .text => []
  | .recovery false => [.listening, .recovering, .speaking, .closing, .closed]
  | .recovery true => [.listening, .speaking, .closing, .closed]
  | .closed => [.closed]

/-- Out of a turn, a service that expects nothing listens, unless the call is over. -/
theorem eq_listening {a : Activity} {fsm : CallFsmState} (hs : fsm ∈ a.states)
    (hn : a.expects fsm = .nothing) (ht : a ≠ .speech) (ho : ¬fsm.isOver = true) :
    fsm = .listening := by
  have h : ∀ a ∈ [greeting, receiving, text, recovery false, recovery true, closed],
      ∀ fsm ∈ a.states, a.expects fsm = .nothing → ¬fsm.isOver = true → fsm = .listening := by
    decide
  refine h a ?_ fsm hs hn ho
  rcases a with _ | _ | _ | _ | anyAudio | _
  case speech => exact absurd rfl ht
  case recovery => cases anyAudio <;> decide
  all_goals decide

end Activity

/-- The machine after the close of the session. -/
def CallFsmState.onClose (fsm : CallFsmState) : CallFsmState :=
  if fsm.isTerminal then fsm else fsm.onSessionClose.onCloseAcknowledged

/-- The machine after the end of a playback that was not interrupted while it spoke. -/
def CallFsmState.hush (fsm : CallFsmState) : CallFsmState :=
  if fsm = .speaking then .listening else fsm

namespace Servicer

def expects (s : Servicer) : Expects := s.pc.activity.expects s.session.fsm

/-- No interrupted playback is received while the service speaks, and in the
    middle of a turn no message is put back behind one it conflicts with. -/
def Orderly (s : Servicer) (l : Label) : Prop :=
  (l = .take ∨ l = .drain) → ∀ m ∈ s.queue.head?,
    (m.1 = some (.playbackFinished true) → s.session.fsm ≠ .speaking) ∧
      (s.pc.isTurn = true → ∀ m' ∈ s.queue, Expects.conflicts m.1 m'.1 = false)

instance (s : Servicer) (l : Label) : Decidable (Orderly s l) :=
  inferInstanceAs (Decidable (_ → ∀ m ∈ s.queue.head?, _ ∧ _))

/-- The message ends the call. -/
def ends : Option GatewayMessage → Bool
  | none | some (.transferCompleted ..) => true
  | _ => false

/-- What comes of an action: the machine is in a state that fits, no more is
    expected than `x`, and the call is over only if it was or if it is `ended`. -/
structure Serves (s s' : Servicer) (x : Expects) (ended : Bool) : Prop where
  fits : s'.session.fsm ∈ s'.pc.activity.states
  expects : s'.expects.AtMost x
  isOver : s'.session.fsm.isOver = true → s.session.fsm.isOver = true ∨ ended = true
  textOnly : s'.textOnly = s.textOnly

variable {s s' : Servicer} {a b : Activity} {f : CallFsmState → CallFsmState}
  {g : Expects → Expects}

/-- An action that drives the machine by `f`. -/
theorem Serves.of (ended : Bool) (ha : s.pc.activity = a) (hb : s'.pc.activity = b)
    (hs : s.session.fsm ∈ s.pc.activity.states) (hf : s'.session.fsm = f s.session.fsm)
    (ht : s'.textOnly = s.textOnly)
    (h : ∀ fsm ∈ a.states, f fsm ∈ b.states ∧ (b.expects (f fsm)).AtMost (g (a.expects fsm)) ∧
      ((f fsm).isOver = true → fsm.isOver = true ∨ ended = true)) :
    Serves s s' (g s.expects) ended := by
  rw [ha] at hs
  obtain ⟨hstates, hexpects, hover⟩ := h s.session.fsm hs
  refine ⟨?_, ?_, ?_, ht⟩
  · rw [hb, hf]
    exact hstates
  · rw [Servicer.expects, Servicer.expects, ha, hb, hf]
    exact hexpects
  · rw [hf]
    exact hover

theorem playbackFinished_fsm (interrupted : Bool) (s : Servicer) :
    (s.playbackFinished interrupted).1.session.fsm = s.session.fsm.onPlaybackFinished interrupted ∧
      (s.playbackFinished interrupted).1.textOnly = s.textOnly := by
  simp only [playbackFinished]
  split
  · exact ⟨rfl, rfl⟩
  · split
    · exact ⟨rfl, rfl⟩
    · split_ifs <;> exact ⟨rfl, rfl⟩

/-- The end of a playback. -/
theorem playbackFinished_serves (ha : s.pc.activity = a)
    (hs : s.session.fsm ∈ s.pc.activity.states) {interrupted : Bool}
    (hi : interrupted = true → s.session.fsm ≠ .speaking)
    (h : ∀ fsm ∈ a.states, fsm.hush ∈ a.states ∧
      (a.expects fsm.hush).AtMost (g (a.expects fsm)) ∧
        (fsm.hush.isOver = true → fsm.isOver = true ∨ false = true)) :
    Serves s (s.playbackFinished interrupted).1 (g s.expects) false := by
  obtain ⟨hfsm, htext⟩ := playbackFinished_fsm interrupted s
  refine Serves.of (f := CallFsmState.hush) false ha ?_ hs ?_ htext h
  · rw [(playbackFinished_frame _ _).2.2, ha]
  · rw [hfsm, CallFsmState.onPlaybackFinished_eq, CallFsmState.hush]
    split_ifs with hspeaking hint
    · exact absurd hspeaking (hi hint)
    · rfl
    · rfl

theorem finishTurn_textOnly (t : SpeechTurn) (s : Servicer) :
    (s.finishTurn t).1.textOnly = s.textOnly := by
  rcases h : t.turnTransfer with _ | tr <;> simp only [finishTurn, h] <;> split_ifs <;> rfl

/-- The machine stays within a turn. -/
theorem speech_states_within {fsm fsm' : CallFsmState} (hs : fsm ∈ Activity.speech.states)
    (h : fsm.Within fsm') : fsm' ∈ Activity.speech.states ∧ ¬fsm'.isOver = true := by
  have hmid : ∀ fsm : CallFsmState, fsm.midTurn = true → fsm ∈ Activity.speech.states := by
    intro fsm
    cases fsm <;> decide
  have hover : ∀ fsm ∈ Activity.speech.states, ¬fsm.isOver = true := by decide
  rcases h with rfl | ⟨-, hm⟩
  · exact ⟨hs, hover _ hs⟩
  · exact ⟨hmid _ hm, hover _ (hmid _ hm)⟩

/-- The outer loop receives a message. -/
theorem receive_serves (hpc : s.pc = .receiving) (hs : s.session.fsm ∈ s.pc.activity.states)
    (htext : s.textOnly = false) (m : Option GatewayMessage)
    (hm : m = some (.playbackFinished true) → s.session.fsm ≠ .speaking) :
    Serves s (s.receive m).1 (s.expects.received m) (ends m) := by
  have ha : s.pc.activity = .receiving := by rw [hpc]; rfl
  rcases m with _ | m
  · exact .of (b := .closed) (f := CallFsmState.onClose) (g := id) true ha rfl hs rfl rfl
      (by decide)
  · cases m
    case audioChunk payload =>
      refine .of (f := id) (g := id) false ha ha hs ?_ ?_ (by decide)
      · exact ConversationSession.pushAudio_fsm
      · rfl
    case speechEnded durationMs energyDb =>
      simp only [receive]
      split_ifs with haccepts
      · -- of the states it may be in, the machine only takes an utterance in `listening`
        refine .of (b := .speech) (f := fun _ => .recognizing) (g := id) false ha rfl hs ?_ rfl
          (by decide)
        have hlistening : s.session.fsm = .listening := by
          rw [ha] at hs
          revert hs haccepts
          simp only [ConversationSession.acceptsSpeech]
          generalize s.session.fsm = fsm
          revert fsm
          decide
        simp only [ConversationSession.beginTurn, hlistening]
        rfl
      · obtain ⟨-, -, hp, hsession⟩ := finishTurn_frame {} s
        refine .of (b := .receiving) (f := id) (g := id) false ha ?_ hs ?_ ?_ (by decide)
        · rw [hp]
          rfl
        · rw [hsession]
          rfl
        · rfl
    case cancelGeneration traceId =>
      exact .of (f := CallFsmState.onCancel) (g := Expects.released) false ha ha hs rfl rfl
        (by decide)
    case playbackFinished interrupted =>
      exact playbackFinished_serves (g := Expects.released) ha hs (fun hi => hm (by rw [hi]))
        (by decide)
    case transferInitiated =>
      exact .of (f := CallFsmState.onTransferRequested) (g := fun _ => .outcome) false ha ha hs rfl
        rfl (by decide)
    case transferCompleted =>
      exact .of (f := fun fsm => (fsm.onTransferCompleted true).onSessionFinalized) (g := id) true
        ha ha hs rfl rfl (by decide)
    case transferFailed destination reason transferId =>
      exact .of (b := .recovery false) (f := CallFsmState.onTransferFailedEvent)
        (g := fun _ => .playback) false ha rfl hs rfl rfl (by decide)
    case textInput text =>
      have hsame : (s.receive (some (.textInput text))).1 = s := by
        simp [receive, htext]
      rw [hsame]
      exact .of (f := id) (g := id) false ha ha hs rfl rfl (by decide)
    case other =>
      exact .of (f := id) (g := id) false ha ha hs rfl rfl (by decide)

/-- A spoken turn takes a message. -/
theorem drainOne_serves {t : SpeechTurn} {r : HandlerResponse}
    (hpc : s.pc = .speech t (.draining r)) (hs : s.session.fsm ∈ s.pc.activity.states) (m : Option GatewayMessage × ℕ)
    (hm : m.1 = some (.playbackFinished true) → s.session.fsm ≠ .speaking) :
    Serves s (s.drainOne t r m).1 s.expects false := by
  have ha : s.pc.activity = .speech := by rw [hpc]; rfl
  obtain ⟨m, n⟩ := m
  rcases m with _ | m
  · exact .of (b := .speech) (f := CallFsmState.onCancel) (g := id) false ha rfl hs rfl rfl
      (by decide)
  · cases m
    case audioChunk payload =>
      simp only [drainOne]
      split_ifs
      · refine .of (f := id) (g := id) false ha ha hs ?_ rfl (by decide)
        exact ConversationSession.pushAudio_fsm
      · exact .of (f := id) (g := id) false ha ha hs rfl rfl (by decide)
    case cancelGeneration traceId =>
      exact .of (b := .speech) (f := CallFsmState.onCancel) (g := id) false ha rfl hs rfl rfl
        (by decide)
    case playbackFinished interrupted =>
      exact playbackFinished_serves (g := id) ha hs (fun hi => hm (by rw [hi])) (by decide)
    case textInput | other => exact .of (f := id) (g := id) false ha ha hs rfl rfl (by decide)
    all_goals exact .of (b := .speech) (f := id) (g := id) false ha rfl hs rfl rfl (by decide)

/-- The handler yields a response. -/
theorem respond_serves {r : HandlerResponse} {x : Servicer × List Output}
    (hs : s.session.fsm ∈ s.pc.activity.states) (h : s.respond r = some x) :
    Serves s x.1 s.expects false := by
  simp only [respond] at h
  split at h
  · next t hpc =>
    have ha : s.pc.activity = .speech := by rw [hpc]; rfl
    cases h
    obtain ⟨hfits, hover⟩ := speech_states_within (ha ▸ hs)
      (ConversationSession.respond_within .speech r
        { session := s.session, firstTts := t.firstTts })
    exact ⟨hfits, .inl rfl, fun ho => absurd ho hover, rfl⟩
  · next endCall hpc =>
    rw [hpc] at hs
    cases hs
  · next anyAudio hpc =>
    cases h
    simp only [ConversationSession.respondRecovery]
    rcases anyAudio with _ | _
    · have ha : s.pc.activity = .recovery false := by rw [hpc]; rfl
      by_cases hr : r.ttsPayloads = []
      · simp only [hr, ne_eq, not_true_eq_false, false_and, if_false]
        exact .of (b := .recovery false) (f := id) (g := id) false ha rfl hs rfl rfl (by decide)
      · simp only [hr, ne_eq, not_false_eq_true, and_self, if_true, decide_true]
        exact .of (b := .recovery true) (f := CallFsmState.onRecoveryResponseReady) (g := id) false
          ha rfl hs rfl rfl (by decide)
    · have ha : s.pc.activity = .recovery true := by rw [hpc]; rfl
      simp only [Bool.true_eq_false, and_false, if_false]
      exact .of (b := .recovery true) (f := id) (g := id) false ha rfl hs rfl rfl (by decide)
  · cases h

/-- The generator of the handler ends. -/
theorem exhaust_serves {x : Servicer × List Output} (hs : s.session.fsm ∈ s.pc.activity.states)
    (h : s.exhaust = some x) : Serves s x.1 s.expects false := by
  simp only [exhaust] at h
  split at h
  · next t hpc =>
    have ha : s.pc.activity = .speech := by rw [hpc]; rfl
    cases h
    obtain ⟨-, -, hp, hsession⟩ := finishTurn_frame t { s with session := s.session.endTurn }
    refine .of (b := .receiving) (f := fun _ => .listening) (g := id) false ha ?_ hs ?_ ?_
      (by decide)
    · rw [hp]
      rfl
    · rw [hsession, ConversationSession.endTurn_fsm]
      rw [ha] at hs
      generalize s.session.fsm = fsm at hs
      revert fsm
      decide
    · exact finishTurn_textOnly _ _
  · next endCall hpc =>
    rw [hpc] at hs
    cases hs
  · next anyAudio hpc =>
    cases h
    cases anyAudio
    · have ha : s.pc.activity = .recovery false := by rw [hpc]; rfl
      exact .of (b := .receiving)
        (f := fun fsm => fsm.onRecoveryResponseReady.onPlaybackFinished false) (g := id) false ha
        rfl hs rfl rfl (by decide)
    · have ha : s.pc.activity = .recovery true := by rw [hpc]; rfl
      exact .of (b := .receiving) (f := id) (g := id) false ha rfl hs rfl rfl (by decide)
  · cases h

/-! ## Steps -/

/-- What is expected once the messages in the queue, and those behind it, are received. -/
def awaits (s : Servicer) (up : List (Option GatewayMessage)) : Expects :=
  (s.queue.map Prod.fst ++ up).foldl Expects.received s.expects

/-- What comes of a step that does not put a message in the queue. -/
structure Advances (s : Servicer) (x : Servicer × List Output) : Prop where
  fits : x.1.session.fsm ∈ x.1.pc.activity.states
  awaits (up : List (Option GatewayMessage)) : (x.1.awaits up).AtMost (s.awaits up)
  isOver : x.1.session.fsm.isOver = true → s.session.fsm.isOver = true ∨
    (∃ m ∈ s.queue, ends m.1 = true) ∨ .send .error ∈ x.2
  queue : ∀ m ∈ x.1.queue, m ∈ s.queue
  textOnly : x.1.textOnly = s.textOnly

variable {x : Servicer × List Output} {l : Label}

/-- A step that leaves the queue alone. -/
theorem Serves.advances {ended : Bool} (h : Serves s x.1 s.expects ended)
    (hq : x.1.queue = s.queue) (he : ended = true → .send .error ∈ x.2) : Advances s x := by
  refine ⟨h.fits, fun up => ?_, fun hover => ?_, fun m hm => hq ▸ hm, h.textOnly⟩
  · rw [awaits, awaits, hq]
    exact h.expects.foldl _
  · rcases h.isOver hover with hover | hended
    · exact .inl hover
    · exact .inr (.inr (he hended))

/-- A message is received. -/
theorem receive_advances {m : Option GatewayMessage × ℕ}
    {queue : List (Option GatewayMessage × ℕ)} (hq : s.queue = m :: queue) (hpc : s.pc = .receiving)
    (hs : s.session.fsm ∈ s.pc.activity.states) (ht : s.textOnly = false)
    (hm : m.1 = some (.playbackFinished true) → s.session.fsm ≠ .speaking) :
    Advances s (receive m.1 { s with queue := queue }) := by
  have h : Serves { s with queue := queue } (receive m.1 { s with queue := queue }).1
      (s.expects.received m.1) (ends m.1) :=
    receive_serves (s := { s with queue := queue }) hpc hs ht m.1 hm
  have hrest : (receive m.1 { s with queue := queue }).1.queue = queue := (receive_frame _ _).1
  refine ⟨h.fits, fun up => ?_, fun hover => ?_, fun m' hm' => ?_, h.textOnly⟩
  · rw [awaits, awaits, hq, hrest]
    exact h.expects.foldl _
  · rcases h.isOver hover with hover | hended
    · exact .inl hover
    · exact .inr (.inl ⟨m, by rw [hq]; exact List.mem_cons_self, hended⟩)
  · rw [hq]
    exact List.mem_cons_of_mem _ (hrest ▸ hm')

/-- What a spoken turn puts back, if anything. -/
theorem drainOne_queue {t : SpeechTurn} {r : HandlerResponse} (m : Option GatewayMessage × ℕ) :
    (s.drainOne t r m).1.queue = s.queue ∨
      isAside m.1 = true ∧ (s.drainOne t r m).1.queue = s.queue ++ [m] := by
  obtain ⟨m, n⟩ := m
  rcases m with _ | m
  · exact .inr ⟨rfl, rfl⟩
  · cases m
    case playbackFinished interrupted => exact .inl (playbackFinished_frame interrupted s).1
    case audioChunk payload =>
      simp only [drainOne]
      split_ifs <;> exact .inl rfl
    all_goals first | exact .inl rfl | exact .inr ⟨rfl, rfl⟩

/-- A message is taken in the middle of a turn. -/
theorem drain_advances {m : Option GatewayMessage × ℕ} {queue : List (Option GatewayMessage × ℕ)}
    {t : SpeechTurn} {r : HandlerResponse} (hq : s.queue = m :: queue)
    (hpc : s.pc = .speech t (.draining r)) (hs : s.session.fsm ∈ s.pc.activity.states)
    (hm : m.1 = some (.playbackFinished true) → s.session.fsm ≠ .speaking)
    (hc : ∀ m' ∈ queue, Expects.conflicts m.1 m'.1 = false) :
    Advances s (drainOne t r m { s with queue := queue }) := by
  have h : Serves { s with queue := queue } (drainOne t r m { s with queue := queue }).1 s.expects
      false :=
    drainOne_serves (s := { s with queue := queue }) hpc hs m hm
  have hnothing : s.expects = .nothing := by rw [expects, hpc]; rfl
  have hover (hover : (drainOne t r m { s with queue := queue }).1.session.fsm.isOver = true) :
      s.session.fsm.isOver = true :=
    (h.isOver hover).resolve_right Bool.false_ne_true
  rcases drainOne_queue (s := { s with queue := queue }) (t := t) (r := r) m with
    hrest | ⟨ha, hrest⟩
  · refine ⟨h.fits, fun up => ?_, fun ho => .inl (hover ho), fun m' hm' => ?_, h.textOnly⟩
    · rw [awaits, awaits, hq, hrest, List.map_cons, List.cons_append, List.foldl_cons]
      refine Expects.AtMost.foldl ?_ _
      rcases h.expects with he | he
      · exact .inl he
      · exact .inl (he.trans hnothing)
    · rw [hrest] at hm'
      rw [hq]
      exact List.mem_cons_of_mem _ hm'
  · refine ⟨h.fits, fun up => ?_, fun ho => .inl (hover ho), fun m' hm' => ?_, h.textOnly⟩
    · rw [awaits, awaits, hq, hrest, List.map_append, List.map_singleton, List.foldl_append,
        Expects.foldl_putBack ha (by simpa using fun m' n hm' => hc (m', n) hm'),
        ← List.foldl_append]
      exact h.expects.foldl _
    · rw [hrest, List.mem_append, List.mem_singleton] at hm'
      rw [hq, List.mem_cons]
      exact hm'.symm

theorem step_advances (h : s.step l = some x) (hl : ∀ m, l ≠ .arrive m) (ho : Orderly s l)
    (hs : s.session.fsm ∈ s.pc.activity.states) (ht : s.textOnly = false) : Advances s x := by
  cases l with
  | greet payloads =>
    simp only [step] at h
    split_ifs at h with hpc
    cases h
    have ha : s.pc.activity = .greeting := by rw [hpc]; rfl
    exact Serves.advances (.of (b := .receiving) (f := id) (g := id) false ha rfl hs rfl rfl
      (by decide)) rfl (by simp)
  | arrive m => exact absurd rfl (hl m)
  | take =>
    simp only [step] at h
    split at h
    · next m queue hpc hq =>
      cases h
      exact receive_advances hq hpc hs ht (ho (.inl rfl) m (by rw [hq]; rfl)).1
    · cases h
  | respond r => exact (respond_serves hs h).advances (respond_frame h).1 (by simp)
  | drain =>
    simp only [step] at h
    split at h
    · next t r m queue hpc hq =>
      cases h
      obtain ⟨hm, hc⟩ := ho (.inr rfl) m (by rw [hq]; rfl)
      refine drain_advances hq hpc hs hm fun m' hm' => hc (by rw [hpc]; rfl) m' ?_
      rw [hq]
      exact List.mem_cons_of_mem _ hm'
    · cases h
  | deliver =>
    have hdeliver (t : SpeechTurn) (r : HandlerResponse) (ha : s.pc.activity = .speech) :
        Advances s (s.deliver t r) := by
      have hd := deliver_frame t r s
      have hserves : Serves s (s.deliver t r).1 (id s.expects) false :=
        .of (b := .speech) (f := id) false ha (by rw [hd]; rfl) hs (by rw [hd]; rfl)
          (by rw [hd]) (by decide)
      exact hserves.advances (by rw [hd]) (by simp)
    simp only [step] at h
    split at h
    · next t r hpc =>
      split_ifs at h
      cases h
      exact hdeliver t r (by rw [hpc]; rfl)
    · next t r hpc =>
      cases h
      exact hdeliver t r (by rw [hpc]; rfl)
    · cases h
  | exhaust => exact (exhaust_serves hs h).advances (exhaust_frame h).1 (by simp)
  | fail =>
    simp only [step] at h
    split_ifs at h
    cases h
    have hserves : Serves s s.teardown.1 (id s.expects) true := by
      rcases ha : s.pc.activity with _ | _ | _ | _ | anyAudio | _
      case recovery =>
        cases anyAudio <;>
          exact .of (b := .closed) (f := CallFsmState.onClose) true ha rfl hs rfl rfl (by decide)
      all_goals
        exact .of (b := .closed) (f := CallFsmState.onClose) true ha rfl hs rfl rfl (by decide)
    exact Serves.advances (x := (s.teardown.1, .send .error :: s.teardown.2)) hserves rfl
      fun _ => List.mem_cons_self

end Servicer

end Conversation

end Yuviz
