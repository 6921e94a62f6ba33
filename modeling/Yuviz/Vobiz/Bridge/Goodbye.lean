import Mathlib.Order.Nat
import Yuviz.Vobiz.Bridge

/-!
# The end of a call

A `BridgeRun` is `run`: it waits until one of the tasks is done, and then cancels the
others, the pacer among them. The task that reads the stream of the service is done when
it gets an `end_call`, and no task waits for the playback.

What has arrived of a turn that the caller does not interrupt is what was sent of it, what
the pacer holds, what is queued, and what is left in the buffer, in this order (`Keeps`). So
when the bridge is torn down, the speech of such a turn has been sent if and only if
nothing of it is left (`goodbye`).
-/

namespace Yuviz.Vobiz

/-- The speech that the message carries. -/
def Response.samples : Response → List Sample
  | ttsChunk turn ulaw _ => ulaw.map (⟨turn, ·⟩)
  | _ => []

/-- It is the last chunk of the turn. -/
def Response.completes (turn : ℕ) : Response → Bool
  | ttsChunk t _ true => t = turn
  | _ => false

/-- The task that reads the stream is done when it gets the message. -/
def Response.ends : Response → Bool
  | error fatal => fatal
  | endCall => true
  | _ => false

def Item.samples : Item → List Sample
  | frame samples => samples
  | final _ => []

/-- The speech that has been sent. -/
def Event.samples : Event → List Sample
  | playAudio frame => frame
  | _ => []

/-- The caller speaks when the turn has begun. -/
def Event.interrupts (turn : ℕ) : Event → Bool
  | bargeIn generation _ => turn ≤ generation
  | _ => false

def onTurn (turn : ℕ) (speech : List Sample) : List Sample := speech.filter (·.turn = turn)

namespace Bridge

variable (s : Bridge)

def played : List Sample := s.log.flatMap Event.samples

/-- The speech that is on the queue, and in the buffer. -/
def queued : List Sample := s.playQueue.flatMap Item.samples ++ s.playBuf

/-- The speech that has not been sent. -/
def pending : List Sample := s.pacer.frame?.getD [] ++ s.queued

def Interrupted (turn : ℕ) : Prop := ∃ e ∈ s.log, e.interrupts turn = true

instance (turn : ℕ) : Decidable (s.Interrupted turn) := inferInstanceAs (Decidable (∃ _ ∈ _, _))

end Bridge

structure BridgeRun where
  bridge : Bridge
  /-- What `_grpc_to_vobiz` has got of the stream. -/
  responses : List Response
  /-- `_grpc_to_vobiz` has not returned. -/
  reading : Bool
  /-- `_vobiz_to_grpc` has not returned. -/
  listening : Bool
  /-- One of the tasks is done. -/
  done : Bool
  tornDown : Bool

namespace BridgeRun

inductive Label
  /-- A step of a task. -/
  | task (l : Vobiz.Label)
  /-- The caller disconnects. -/
  | disconnect
  /-- A task is done otherwise: the stream ends, or a send or a write fails. -/
  | finish
  | tearDown

variable (s : BridgeRun)

/-- A task takes a step while it is not done, and the bridge not torn down. -/
def task (l : Vobiz.Label) : Option BridgeRun :=
  match l with
  | .receive msg =>
    if s.reading then (s.bridge.step l).map fun bridge =>
      { s with
        bridge := bridge
        responses := s.responses ++ [msg]
        reading := !msg.ends
        done := s.done || msg.ends }
    else none
  | .media _ _ | .clearAudio =>
    if s.listening then (s.bridge.step l).map fun bridge => { s with bridge := bridge } else none
  | _ => (s.bridge.step l).map fun bridge => { s with bridge := bridge }

def step (s : BridgeRun) (l : Label) : Option BridgeRun :=
  if s.tornDown then none
  else match l with
    | .task l => s.task l
    | .disconnect => some { s with listening := false, done := true }
    | .finish => some { s with done := true }
    | .tearDown => if s.done then some { s with tornDown := true } else none

def system (now : ℤ) : System BridgeRun Label where
  init := ⟨(Bridge.system now).init, [], true, true, false, false⟩
  step := step

/-! ### What is heard of a turn -/

/-- The speech that has arrived. -/
def arrived : List Sample := s.responses.flatMap Response.samples

/-- The whole speech of the turn has arrived. -/
def Complete (turn : ℕ) : Prop := ∃ msg ∈ s.responses, msg.completes turn = true

instance (turn : ℕ) : Decidable (s.Complete turn) := inferInstanceAs (Decidable (∃ _ ∈ _, _))

/-- The service has ended the call, and the caller has not. -/
def Ended : Prop := (∃ msg ∈ s.responses, msg matches .endCall) ∧ s.listening = true

instance : Decidable s.Ended := inferInstanceAs (Decidable ((∃ _ ∈ _, _) ∧ _))

/-- The speech of a turn that the caller has not interrupted has been sent, in order. -/
def Goodbye : Prop :=
  s.tornDown = true → s.Ended → ∀ turn, s.Complete turn → ¬ s.bridge.Interrupted turn →
    onTurn turn s.bridge.played = onTurn turn s.arrived

/-- When the service has ended the call, the bridge is torn down after the speech of the turns
    has been sent. And there is none of it on the queue when an error clears it. -/
def Drained : Label → Prop
  | .tearDown => s.Ended → ∀ x ∈ s.bridge.pending, s.Complete x.turn →
      s.bridge.Interrupted x.turn
  | .task (.receive (.error _)) => ∀ x ∈ s.bridge.queued, s.bridge.Interrupted x.turn
  | _ => True

instance : DecidablePred s.Drained
  | .tearDown => inferInstanceAs (Decidable (s.Ended → ∀ x ∈ s.bridge.pending, s.Complete x.turn →
      s.bridge.Interrupted x.turn))
  | .task (.receive (.error _)) =>
    inferInstanceAs (Decidable (∀ x ∈ s.bridge.queued, s.bridge.Interrupted x.turn))
  | .task (.receive (.ttsChunk ..)) | .task (.receive .cancelAck) | .task (.receive .endCall)
  | .task (.tick _) | .task (.media ..) | .task .clearAudio | .task .take | .task .wake
  | .task .sent | .task .pump | .task .write | .task .wrote | .task .watchdog
  | .disconnect | .finish => inferInstanceAs (Decidable True)

end BridgeRun

/-! ### Speech is kept -/

namespace Bridge

variable {s s' : Bridge} {l : Label} {arrived : List Sample} {turn : ℕ}

theorem samples_cutFrames (n : ℕ) (buf : List Sample) :
    (cutFrames n buf).1.flatMap Item.samples ++ (cutFrames n buf).2 = buf := by
  induction n generalizing buf with
  | zero => rfl
  | succ n ih =>
    rw [cutFrames]
    split_ifs
    · have hdrop := ih (buf.drop ulawFrameBytes)
      simp only [List.flatMap_cons, List.append_assoc, hdrop]
      exact List.take_append_drop ulawFrameBytes buf
    · rfl

/-- At the end of a turn nothing is left in the buffer. -/
theorem samples_final (items : List Item) (rest : List Sample) (turn : ℕ) :
    (items ++ (if rest = [] then [] else [Item.frame rest]) ++ [Item.final turn]).flatMap
      Item.samples = items.flatMap Item.samples ++ rest := by
  split_ifs with hrest
  · simp [hrest, Item.samples]
  · simp [Item.samples]

/-- A chunk of speech is put on the queue after what was in the buffer. -/
theorem samples_ttsItems (s : Bridge) (turn : ℕ) (ulaw : List UInt8) (isFinal : Bool) :
    (s.ttsItems turn ulaw isFinal).1.flatMap Item.samples ++ (s.ttsItems turn ulaw isFinal).2 =
      s.playBuf ++ ulaw.map (Sample.mk turn) := by
  cases isFinal with
  | false => exact samples_cutFrames _ _
  | true =>
    refine (List.append_nil _).trans ?_
    exact (samples_final _ _ turn).trans (samples_cutFrames _ _)

/-- What was sent of the turns that the caller does not interrupt, and what has not been, is
    what has arrived of them. -/
structure Keeps (arrived : List Sample) (s : Bridge) : Prop where
  begun : ∀ x ∈ arrived, x.turn ≤ s.turnGeneration
  kept : ∀ turn, ¬ s.Interrupted turn →
    onTurn turn s.played ++ onTurn turn s.pending = onTurn turn arrived

theorem onTurn_append (turn : ℕ) (speech speech' : List Sample) :
    onTurn turn (speech ++ speech') = onTurn turn speech ++ onTurn turn speech' :=
  List.filter_append ..

theorem onTurn_eq_nil_iff {speech : List Sample} :
    onTurn turn speech = [] ↔ ∀ x ∈ speech, x.turn ≠ turn := by
  simp [onTurn]

/-- No speech is lost, and no interruption forgotten. -/
theorem Keeps.of_eq (h : s.Keeps arrived) (hgen : s.turnGeneration ≤ s'.turnGeneration)
    (hlog : ∀ turn, s.Interrupted turn → s'.Interrupted turn)
    (hspeech : s'.played ++ s'.pending = s.played ++ s.pending) : s'.Keeps arrived where
  begun x hx := (h.begun x hx).trans hgen
  kept turn hturn := by
    rw [← onTurn_append, hspeech, onTurn_append]
    exact h.kept turn fun hs => hturn (hlog turn hs)

theorem played_of_log {e : Event} (hlog : s'.log = s.log ++ [e]) :
    s'.played = s.played ++ e.samples := by
  rw [played, hlog, List.flatMap_append, List.flatMap_singleton]
  rfl

theorem Interrupted.of_log {e : Event} (h : s.Interrupted turn) (hlog : s'.log = s.log ++ [e]) :
    s'.Interrupted turn := by
  obtain ⟨e, he, hint⟩ := h
  exact ⟨e, hlog ▸ List.mem_append_left _ he, hint⟩

theorem Keeps.bargeIn (h : s.Keeps arrived) : s.bargeIn.Keeps arrived where
  begun := h.begun
  kept turn hturn := by
    -- Nothing has arrived of the turns to come.
    have hlt : s.turnGeneration < turn := by
      by_contra hle
      refine hturn ⟨.bargeIn s.turnGeneration s.pacer.frame?.isSome, ?_, ?_⟩
      · exact List.mem_append_right _ List.mem_cons_self
      · exact decide_eq_true (not_lt.1 hle)
    have harrived : onTurn turn arrived = [] :=
      onTurn_eq_nil_iff.2 fun x hx heq => absurd (h.begun x hx) (by omega)
    have hkept := h.kept turn fun hs => hturn (hs.of_log rfl)
    rw [harrived, ← onTurn_append, onTurn_eq_nil_iff] at hkept
    rw [harrived, ← onTurn_append, onTurn_eq_nil_iff, played_of_log (s := s) rfl]
    intro x hx
    refine hkept x ((List.mem_append.1 hx).elim (fun hx => ?_) fun hx => ?_)
    · exact List.mem_append_left _ ((List.mem_append.1 hx).resolve_right List.not_mem_nil)
    · -- What the pacer holds is still to be sent.
      exact List.mem_append_right _ (List.mem_append_left _
        ((List.mem_append.1 hx).resolve_right List.not_mem_nil))

theorem Keeps.runVad (h : s.Keeps arrived) (events : List VadEvent) :
    (s.runVad events).Keeps arrived :=
  runVad_invariant events h (fun _ _ h => { h with }) (fun _ h => { h with })
    (fun _ _ h => { h with }) (fun _ h => h.bargeIn) (fun _ h => { h with })
    fun _ h => h.of_eq (Nat.le_succ _) (fun _ => id) rfl

/-- A step that does not read the stream. -/
theorem Keeps.step (h : s.Keeps arrived) (hl : ∀ msg, l ≠ .receive msg)
    (hst : s.step l = some s') : s'.Keeps arrived := by
  cases moves_of_step hst with
  | tick | pump | write | wrote | resolve | expire => exact { h with }
  | media payload events =>
    have hhold : (s.hold payload).Keeps arrived := { h with }
    exact hhold.runVad events
  | @clearAudio held events =>
    have hcleared : Keeps arrived { s with log := s.log ++ [Event.clearAudio] } := by
      refine h.of_eq le_rfl (fun _ hs => hs.of_log rfl) ?_
      rw [played_of_log (s := s) rfl]
      exact congrArg (· ++ s.pending) (List.append_nil s.played)
    have hcancel : Keeps arrived
        (cancelGeneration { s with log := s.log ++ [Event.clearAudio] } held) := { hcleared with }
    exact hcancel.runVad events
  | ttsChunk | cancelAck | error | endCall => exact absurd rfl (hl _)
  | @final t rest hpacer hqueue =>
    refine h.of_eq le_rfl (fun _ hs => hs.of_log rfl) ?_
    rw [played_of_log (s := s) rfl]
    simp [pending, queued, hpacer, hqueue, Pacer.frame?, Item.samples, Event.samples, resolveTurn]
  | @frame samples rest hpacer hqueue =>
    obtain ⟨startedAt, framesSent, pacer, hframe, heq⟩ :=
      play_eq { s with playQueue := rest } samples
    have hwaiting : s.pacer.frame? = none := by rw [hpacer]; rfl
    rw [heq]
    refine h.of_eq le_rfl (fun _ => id) ?_
    simp [played, pending, queued, hqueue, hframe, hwaiting, Item.samples]
  | @wake frame target hpacer =>
    refine h.of_eq le_rfl (fun _ => id) ?_
    simp [played, pending, queued, hpacer, Pacer.frame?]
  | @sent frame hpacer =>
    refine h.of_eq le_rfl (fun _ hs => hs.of_log rfl) ?_
    rw [played_of_log (s := s) rfl]
    simp [pending, queued, hpacer, Pacer.frame?, Event.samples]

/-- A chunk of speech arrives. -/
theorem Keeps.ttsChunk (h : s.Keeps arrived) {t : ℕ} (ulaw : List UInt8) (isFinal : Bool)
    (hturn : t ≤ s.turnGeneration) :
    Keeps (arrived ++ ulaw.map (Sample.mk t))
      { s with
        playQueue := s.playQueue ++ (s.ttsItems t ulaw isFinal).1
        playBuf := (s.ttsItems t ulaw isFinal).2 } where
  begun x hx := by
    rcases List.mem_append.1 hx with hx | hx
    · exact h.begun x hx
    · obtain ⟨byte, -, rfl⟩ := List.mem_map.1 hx
      exact hturn
  kept turn hint := by
    have hitems := samples_ttsItems s t ulaw isFinal
    have hspeech : played
        { s with
          playQueue := s.playQueue ++ (s.ttsItems t ulaw isFinal).1
          playBuf := (s.ttsItems t ulaw isFinal).2 } ++ pending
        { s with
          playQueue := s.playQueue ++ (s.ttsItems t ulaw isFinal).1
          playBuf := (s.ttsItems t ulaw isFinal).2 } =
        s.played ++ s.pending ++ ulaw.map (Sample.mk t) := by
      simp only [played, pending, queued, List.flatMap_append, List.append_assoc, hitems]
    rw [← onTurn_append, hspeech, onTurn_append, onTurn_append, h.kept turn hint,
      ← onTurn_append]

/-- An error clears the queue. -/
theorem Keeps.error (h : s.Keeps arrived) (hqueued : ∀ x ∈ s.queued, s.Interrupted x.turn) :
    Keeps arrived { s.clearPlaybackQueue.resolveTurn with playingTts := false } where
  begun := h.begun
  kept turn hturn := by
    have hnone : onTurn turn s.queued = [] :=
      onTurn_eq_nil_iff.2 fun x hx heq => hturn (heq ▸ hqueued x hx)
    have hkept := h.kept turn hturn
    rw [pending, onTurn_append, hnone] at hkept
    rw [← hkept]
    congr 1
    exact (onTurn_append ..)

end Bridge

namespace BridgeRun

open Bridge (Keeps)

variable {s s' : BridgeRun}

theorem task_eq_some {l : Vobiz.Label} (h : s.task l = some s') :
    ∃ bridge, s.bridge.step l = some bridge ∧
      ((∃ msg, l = .receive msg ∧ s' =
        { s with
          bridge := bridge
          responses := s.responses ++ [msg]
          reading := !msg.ends
          done := s.done || msg.ends }) ∨
      (∀ msg, l ≠ .receive msg) ∧ s' = { s with bridge := bridge }) := by
  rw [task.eq_def] at h
  split at h
  · split_ifs at h
    obtain ⟨bridge, hst, rfl⟩ := Option.map_eq_some_iff.1 h
    exact ⟨bridge, hst, .inl ⟨_, rfl, rfl⟩⟩
  · split_ifs at h
    obtain ⟨bridge, hst, rfl⟩ := Option.map_eq_some_iff.1 h
    exact ⟨bridge, hst, .inr ⟨nofun, rfl⟩⟩
  · split_ifs at h
    obtain ⟨bridge, hst, rfl⟩ := Option.map_eq_some_iff.1 h
    exact ⟨bridge, hst, .inr ⟨nofun, rfl⟩⟩
  · rename_i hne _ _
    obtain ⟨bridge, hst, rfl⟩ := Option.map_eq_some_iff.1 h
    exact ⟨bridge, hst, .inr ⟨hne, rfl⟩⟩

theorem arrived_concat (msg : Response) :
    arrived { s with responses := s.responses ++ [msg] } = s.arrived ++ msg.samples := by
  rw [arrived, List.flatMap_append, List.flatMap_singleton]
  rfl

/-- What arrives of the stream is kept. -/
theorem keeps_receive {msg : Response} {bridge : Bridge} (h : s.bridge.Keeps s.arrived)
    (hg : s.Drained (.task (.receive msg))) (hst : s.bridge.step (.receive msg) = some bridge) :
    bridge.Keeps (s.arrived ++ msg.samples) := by
  cases Bridge.moves_of_step hst with
  | ttsChunk ulaw isFinal hturn => exact h.ttsChunk ulaw isFinal hturn
  | cancelAck | endCall => exact (List.append_nil s.arrived).symm ▸ h
  | error fatal => exact (List.append_nil s.arrived).symm ▸ h.error hg

/-- A step of a task, the end of one, or the end of the bridge. -/
theorem step_eq_some {l : Label} (hst : s.step l = some s') : s.tornDown = false ∧
    ((∃ l', l = .task l' ∧ s.task l' = some s') ∨
      (l ≠ .tearDown ∧ s'.bridge = s.bridge ∧ s'.responses = s.responses ∧
        s'.tornDown = s.tornDown) ∨
      l = .tearDown ∧ s' = { s with tornDown := true }) := by
  cases htorn : s.tornDown with
  | true =>
    rw [step.eq_def, if_pos htorn] at hst
    cases hst
  | false =>
    rw [step.eq_def, if_neg (by simp [htorn])] at hst
    refine ⟨rfl, ?_⟩
    cases l with
    | task l => exact .inl ⟨l, rfl, hst⟩
    | disconnect | finish =>
      obtain rfl := Option.some.inj hst
      exact .inr (.inl ⟨nofun, rfl, rfl, htorn⟩)
    | tearDown =>
      dsimp only at hst
      split_ifs at hst
      exact .inr (.inr ⟨rfl, (Option.some.inj hst).symm⟩)

theorem keeps_step {l : Label} (h : s.bridge.Keeps s.arrived) (hg : s.Drained l)
    (hst : s.step l = some s') : s'.bridge.Keeps s'.arrived := by
  rcases (step_eq_some hst).2 with ⟨l, rfl, htask⟩ | ⟨-, hbridge, hresponses, -⟩ | ⟨-, rfl⟩
  · obtain ⟨bridge, hstep, ⟨msg, rfl, rfl⟩ | ⟨hl, rfl⟩⟩ := task_eq_some htask
    · exact (arrived_concat msg).symm ▸ keeps_receive h hg hstep
    · exact h.step hl hstep
  · rw [arrived, hbridge, hresponses]
    exact h
  · exact h

/-- The bridge is torn down, and it is then that the speech has been sent or not. -/
theorem goodbye_iff (h : s.bridge.Keeps s.arrived) :
    Goodbye { s with tornDown := true } ↔ s.Drained .tearDown := by
  refine ⟨fun hsent hended x hx hcomplete => ?_, fun hdrained _ hended turn hcomplete hint => ?_⟩
  · by_contra hint
    have hplayed : onTurn x.turn s.bridge.played = onTurn x.turn s.arrived :=
      hsent rfl hended x.turn hcomplete hint
    have hkept := h.kept x.turn hint
    rw [← hplayed, List.append_right_eq_self, Bridge.onTurn_eq_nil_iff] at hkept
    exact hkept x hx rfl
  · have hnone : onTurn turn s.bridge.pending = [] :=
      Bridge.onTurn_eq_nil_iff.2 fun x hx heq => hint (heq ▸ hdrained hended x hx (heq ▸ hcomplete))
    have hkept := h.kept turn hint
    rwa [hnone, List.append_nil] at hkept

theorem step_tearDown (hst : s.step .tearDown = some s') : s' = { s with tornDown := true } := by
  rcases (step_eq_some hst).2 with ⟨l, heq, -⟩ | ⟨hne, -⟩ | ⟨-, heq⟩
  · cases heq
  · exact absurd rfl hne
  · exact heq

theorem tornDown_of_ne {l : Label} (hl : l ≠ .tearDown) (hst : s.step l = some s') :
    s'.tornDown = false := by
  obtain ⟨htorn, ⟨l, rfl, htask⟩ | ⟨-, -, -, heq⟩ | ⟨heq, -⟩⟩ := step_eq_some hst
  · obtain ⟨bridge, -, ⟨msg, -, rfl⟩ | ⟨-, rfl⟩⟩ := task_eq_some htask
    · exact htorn
    · exact htorn
  · exact heq.trans htorn
  · exact absurd heq hl

theorem keeps_of_reachable {now : ℤ} (hs : (system now).ReachableIf Drained s) :
    s.bridge.Keeps s.arrived :=
  hs.invariant (I := fun s => s.bridge.Keeps s.arrived) ⟨nofun, fun _ _ => rfl⟩
    fun _ _ _ => keeps_step

/-- In the runs where nothing is left of the speech of the turns that the caller has not
    interrupted when the bridge is torn down, it has been sent, in order. And after such a run it
    has been sent when the bridge is torn down only if nothing is left of it. -/
theorem goodbye {now : ℤ} (hs : (system now).ReachableIf Drained s) :
    s.Goodbye ∧ ∀ s', s.step .tearDown = some s' → (s'.Goodbye ↔ s.Drained .tearDown) := by
  refine ⟨?_, fun s' hst => step_tearDown hst ▸ goodbye_iff (keeps_of_reachable hs)⟩
  cases hs with
  | init => exact nofun
  | @step s _ l hs hg hst =>
    by_cases hl : l = .tearDown
    · subst hl
      rw [step_tearDown hst]
      exact (goodbye_iff (keeps_of_reachable hs)).2 hg
    · intro htorn
      cases (tornDown_of_ne hl hst).symm.trans htorn

/-- The service speaks for two frames, and ends the call. -/
def farewell : List Label :=
  [.task (.receive (.ttsChunk 0 (List.replicate 320 0) true)), .task (.receive .endCall)]

/-- The bridge is torn down at once. -/
theorem not_goodbye : ¬ ∀ s, (system 0).Reachable s → s.Goodbye := by
  intro h
  have hrun : ((system 0).exec (system 0).init (farewell ++ ([.tearDown] : List Label))).map
      (fun s => (s.tornDown, decide (s.Ended ∧ s.Complete 0 ∧ ¬ s.bridge.Interrupted 0),
        s.bridge.played.length, (onTurn 0 s.arrived).length)) = some (true, true, 0, 320) := by
    decide +kernel
  obtain ⟨s, hs, heq⟩ := Option.map_eq_some_iff.1 hrun
  simp only [Prod.mk.injEq] at heq
  obtain ⟨htorn, hcond, hplayed, harrived⟩ := heq
  obtain ⟨hended, hcomplete, hint⟩ := of_decide_eq_true hcond
  have hsent := h s (.exec .init hs) htorn hended 0 hcomplete hint
  rw [List.length_eq_zero_iff.1 hplayed] at hsent
  rw [← hsent] at harrived
  cases harrived

/-- The frames are sent, and the bridge is torn down when the final marker has been taken. -/
def unhurried : List Label :=
  farewell ++ ([.task .take, .task .sent, .task .take, .task .sent, .task .take, .tearDown] :
    List Label)

theorem goodbye_unhurried : ∃ s, (system 0).ReachableIf Drained s ∧ s.tornDown = true ∧
    s.Ended ∧ s.bridge.played.length = 320 ∧ s.Goodbye := by
  have hrun : ((system 0).execIf Drained (system 0).init unhurried).map
      (fun s => (s.tornDown, decide s.Ended, s.bridge.played.length)) = some (true, true, 320) := by
    decide +kernel
  obtain ⟨s, hs, heq⟩ := Option.map_eq_some_iff.1 hrun
  simp only [Prod.mk.injEq] at heq
  obtain ⟨htorn, hended, hplayed⟩ := heq
  have hreach : (system 0).ReachableIf Drained s := .execIf .init hs
  exact ⟨s, hreach, htorn, of_decide_eq_true hended, hplayed, (goodbye hreach).1⟩

end BridgeRun

end Yuviz.Vobiz
