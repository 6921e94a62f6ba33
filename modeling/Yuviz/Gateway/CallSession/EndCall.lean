import Yuviz.Gateway.CallSession.BargeIn

/-!
# The end of a call

The Conversation Service ends a call with a turn. The session keeps a flag, which
the next playback to finish consumes. A monitor knows the turns the service has
ended the call with, and the turn that is being spoken: in the runs where the
message of a turn is processed while it is being spoken, the machine waits for
the hangup just when the playback of that turn finishes (`reachable_bound`).
-/

namespace Yuviz.Gateway

namespace CallSession

variable {cfg : CallFsmTimerConfig} {playing : Bool} {item : SessionItem} {x : Exec}
  {s : CallSession}

/-- The machine starts to wait for the hangup when a playback finishes, and the
    call has been ended. -/
theorem process_waitingForHangup (hw : x.session.fsm.state ≠ .waitingForHangup) :
    (process cfg playing item x).session.fsm.state = .waitingForHangup ↔
      x.session.fsm.state = .speaking ∧ x.session.pendingEndCall = true ∧
        ∃ turn, item = .playbackFinished turn := by
  rcases process_state cfg playing item x with
    hn | ⟨hb, hr⟩
  · rw [hn]
    constructor
    · intro h
      rcases nextState_cases x.session item with hs | ⟨e, he, hv, ht⟩
      · exact absurd (hs.symm.trans h) hw
      · rw [h] at ht
        obtain ⟨timeout, rfl⟩ := CallFSM.Event.eq_of_target_waitingForHangup ht
        obtain ⟨hp, hitem⟩ := eq_of_event.2.1 _ _ he
        exact ⟨of_decide_eq_true hv, hp, hitem⟩
    · rintro ⟨hs, hp, turn, rfl⟩
      simp [nextState, SessionItem.event?, CallFSM.Event.next, CallFSM.Event.valid,
        CallFSM.Event.target?, hs, hp]
  · constructor
    · intro h
      rcases hr with hr | hr <;> cases hr.symm.trans h
    · rintro ⟨hs, -⟩
      cases hb.symm.trans hs

/-- The playback is over, be it finished or cancelled. -/
def endsPlayback : SessionItem → Bool
  | .playbackFinished _ | .playbackCancelled => true
  | _ => false

theorem process_state_of_speaking (h : x.session.fsm.state = .speaking) :
    (process cfg playing item x).session.fsm.state = nextState x.session item := by
  rcases process_state cfg playing item x with
    hn | ⟨hb, -⟩
  · exact hn
  · cases hb.symm.trans h

/-- The end of the playback is a way out of `speaking`. -/
theorem process_of_endsPlayback (h : x.session.fsm.state = .speaking)
    (hi : endsPlayback item = true) : (process cfg playing item x).session.fsm.state ≠ .speaking := by
  rw [process_state_of_speaking h]
  cases item <;> cases hi
  · cases hp : x.session.pendingEndCall <;>
      simp [nextState, SessionItem.event?, CallFSM.Event.next, CallFSM.Event.valid,
        CallFSM.Event.target?, h, hp]
  · simp [nextState, SessionItem.event?, CallFSM.Event.next, CallFSM.Event.valid,
      CallFSM.Event.target?, h]

/-- The other ways out of `speaking`. -/
theorem process_of_speaking (cfg : CallFsmTimerConfig) (playing : Bool)
    (h : x.session.fsm.state = .speaking) (hi : endsPlayback item = false) :
    (process cfg playing item x).session.fsm.state = .speaking ∨
      (process cfg playing item x).session.fsm.state = .closing ∨
        ∃ request, item = .transferRequest request := by
  rw [process_state_of_speaking h]
  cases he : item.event? x.session with
  | none =>
    rw [nextState_of_no_event he]
    exact .inl h
  | some e =>
    rw [nextState_of_event he]
    rcases CallFSM.Event.next_of_speaking (e := e) h with hn | hn | ⟨i, c, t, rfl⟩ | ⟨q, r, rfl⟩
    · exact .inl hn
    · exact .inr (.inl hn)
    · cases i with
      | false =>
        obtain ⟨-, turn, rfl⟩ := eq_of_event.2.1 _ _ he
        cases hi
      | true =>
        obtain rfl := eq_of_event.2.2.1 _ _ he
        cases hi
    · exact .inr (.inr (eq_of_event.2.2.2 _ _ he))

theorem process_of_closing (h : x.session.fsm.state = .closing ∨ x.session.fsm.state = .closed) :
    (process cfg playing item x).session.fsm.state = .closing ∨
      (process cfg playing item x).session.fsm.state = .closed := by
  rcases process_state cfg playing item x with
    hn | ⟨hb, -⟩
  · rw [hn]
    cases he : item.event? x.session with
    | none => rwa [nextState_of_no_event he]
    | some e =>
      rw [nextState_of_event he]
      exact CallFSM.Event.next_of_closing h
  · rcases h with h | h <;> cases hb.symm.trans h

/-! ## The flag -/

/-- The flag is set by the message, and cleared by the end of the playback. -/
theorem process_pendingEndCall : (process cfg playing item x).session.pendingEndCall =
    match item with
    | .endCall .. => true
    | .playbackFinished _ | .playbackCancelled => false
    | _ => x.session.pendingEndCall := by
  by_cases hc : Completes x.session item
  · obtain ⟨⟨f, n, hs, -⟩, -⟩ := process_of_completes cfg playing hc
    rw [hs]
    rcases hc.2.2 with rfl | rfl <;> rfl
  · obtain ⟨⟨f, n, hs, -⟩, -⟩ := process_of_not_completes cfg playing hc
    rw [hs]
    cases item
    case audioFrame frame =>
      simp only [prepare, onAudioFrame]
      split_ifs <;> rfl
    case transferBody destination reason =>
      simp only [prepare]
      split_ifs <;> rfl
    case speechStarted energyDb =>
      cases playing <;> simp only [prepare] <;> split <;> rfl
    case speechEnded =>
      simp only [prepare]
      split_ifs <;> rfl
    all_goals rfl

end CallSession

namespace SessionThreads

open CallSession

section

variable {cfg : CallFsmTimerConfig} {playing : Bool} {item : SessionItem} {x : Exec}

/-- An onset that starts a capture from `speaking` posts the cancel of the playback. -/
theorem posted_of_isOnset (hs : x.session.fsm.state = .speaking) (ho : isOnset item = true) :
    .playbackCancelled ∈ (process cfg playing item x).effects.filterMap posted := by
  have hc : ¬Completes x.session item := by simp [Completes, hs]
  rw [(process_of_not_completes _ _ hc).2]
  cases item <;> cases ho
  simp [prepare, hs, emit, posted]

end

/-! ## The turns -/

/-- The turn whose speech the item starts. -/
def startedTurn? : SessionItem → Option ℕ
  | .ttsStarted turn => some turn
  | _ => none

/-- The turn the item ends the call with. -/
def endedTurn? : SessionItem → Option ℕ
  | .endCall turn _ => some turn
  | _ => none

/-- The turn whose playback the item reports to be finished. -/
def finishedTurn? : SessionItem → Option ℕ
  | .playbackFinished turn => some turn
  | _ => none

def isTransferRequest : SessionItem → Bool
  | .transferRequest _ => true
  | _ => false

/-- The session closes, or is closed. -/
def Closes (t : CallSession) : Prop := t.fsm.state = .closing ∨ t.fsm.state = .closed

instance (t : CallSession) : Decidable (Closes t) := inferInstanceAs (Decidable (_ ∨ _))

/-- What a monitor knows of the turns: the turn whose speech was last started,
    whether the caller has barged in since, and the turns that end the call. -/
structure Turns where
  turn : Option ℕ := none
  interrupted : Bool := false
  sent : List ℕ := []
  deriving DecidableEq, Repr

/-- An item starts the speech of a turn, or interrupts it. -/
def Turns.take (t : CallSession) (item : SessionItem) (m : Turns) : Turns :=
  match item with
  | .ttsStarted turn =>
    if t.fsm.state = .thinking then { m with turn := some turn, interrupted := false } else m
  | _ => if StartsCapture t item then { m with interrupted := true } else m

def Turns.update (m : Turns) (s : SessionThreads) : Label → Turns
  | .message item => { m with sent := (endedTurn? item).toList ++ m.sent }
  | .control => s.queue.head?.elim m fun item => m.take s.session item
  | _ => m

/-- The message that ends the call finds its turn being spoken, or cancelled by a
    barge-in. -/
def EndsInTurn (t : CallSession) (m : Turns) (rest : List SessionItem) (turn : ℕ) : Prop :=
  Closes t ∨ m.turn = some turn ∧
    (t.fsm.state = .speaking ∨ m.interrupted = true ∧ .playbackCancelled ∈ rest)

/-- The playback that finishes is that of the turn that ends the call, and does
    not leave its message behind. -/
def FinishesInTurn (t : CallSession) (m : Turns) (rest : List SessionItem) (turn : ℕ) : Prop :=
  t.fsm.state = .speaking →
    (t.pendingEndCall = true → m.turn = some turn ∧ .playbackCancelled ∉ rest) ∧
      (t.pendingEndCall = false → m.turn = some turn → m.interrupted = false →
        turn ∉ rest.filterMap endedTurn?)

instance (t : CallSession) (m : Turns) (rest : List SessionItem) (turn : ℕ) :
    Decidable (EndsInTurn t m rest turn) := inferInstanceAs (Decidable (_ ∨ _ ∧ (_ ∨ _ ∧ _)))

instance (t : CallSession) (m : Turns) (rest : List SessionItem) (turn : ℕ) :
    Decidable (FinishesInTurn t m rest turn) :=
  inferInstanceAs (Decidable (_ → (_ → _ ∧ ¬_) ∧ (_ → _ → _ → ¬_)))

/-- An item is bound to the turn it belongs to. -/
def Binds (t : CallSession) (m : Turns) (rest : List SessionItem) (item : SessionItem) : Prop :=
  (∀ turn ∈ endedTurn? item, EndsInTurn t m rest turn) ∧
    (∀ turn ∈ finishedTurn? item, FinishesInTurn t m rest turn) ∧
      (isTransferRequest item = true → t.fsm.state = .speaking → t.pendingEndCall = true →
        .playbackCancelled ∈ rest)

instance (t : CallSession) (m : Turns) (rest : List SessionItem) (item : SessionItem) :
    Decidable (Binds t m rest item) := inferInstanceAs (Decidable (_ ∧ _ ∧ _))

/-- The steps that process items bound to their turns. -/
def BindsNext (s : SessionThreads × Turns) (l : Label) : Prop :=
  l = .control → ∀ item ∈ s.1.queue.head?, Binds s.1.session s.2 s.1.queue.tail item

instance (s : SessionThreads × Turns) (l : Label) : Decidable (BindsNext s l) :=
  inferInstanceAs (Decidable (_ → _))

/-- What holds of the turns. -/
structure TurnInv (s : SessionThreads) (m : Turns) : Prop where
  /-- The turns are started in order. -/
  order : (m.turn.toList ++ s.queue.filterMap startedTurn?).Pairwise (· < ·)
  bound : ∀ n ∈ m.turn.toList ++ s.queue.filterMap startedTurn?, n ≤ s.turns
  queued : ∀ n ∈ s.queue.filterMap endedTurn?, n ∈ m.sent
  /-- A turn that ends the call is to be spoken yet, is being spoken, or is over. -/
  sent : ∀ n ∈ m.sent, n ∈ s.queue.filterMap endedTurn? ∨ Closes s.session ∨
    ∃ k ∈ m.turn, n ≤ k ∧ (n = k → m.interrupted = true ∨
      s.session.fsm.state ∉ [CallFsmState.synthesizing, .speaking] ∨
      s.session.fsm.state = .speaking ∧ s.session.pendingEndCall = true)
  /-- The flag is that of the turn being spoken, or about to be cleared. -/
  pending : s.session.pendingEndCall = true → Closes s.session ∨ .playbackCancelled ∈ s.queue ∨
    s.session.fsm.state = .speaking ∧ ∃ n ∈ m.turn, n ∈ m.sent
  /-- A turn that is interrupted is about to be cancelled. -/
  interrupted : m.interrupted = true → s.session.fsm.state ≠ .synthesizing ∧
    (s.session.fsm.state = .speaking → .playbackCancelled ∈ s.queue)

section

variable {cfg : CallFsmTimerConfig} {maxFrames : ℕ} {callId callerDid : String}
  {s s' : SessionThreads} {m : Turns}

/-- A step that only posts items that are not about the turns. -/
theorem TurnInv.quiet (h : TurnInv s m) {items : List SessionItem}
    (hq : s'.queue = s.queue ++ items)
    (hi : ∀ i ∈ items, startedTurn? i = none ∧ endedTurn? i = none)
    (hfsm : s'.session.fsm = s.session.fsm)
    (hp : s'.session.pendingEndCall = s.session.pendingEndCall) (ht : s'.turns = s.turns) :
    TurnInv s' m := by
  have hstarted : s'.queue.filterMap startedTurn? = s.queue.filterMap startedTurn? := by
    rw [hq, List.filterMap_append, List.filterMap_eq_nil_iff.2 fun i h => (hi i h).1,
      List.append_nil]
  have hended : s'.queue.filterMap endedTurn? = s.queue.filterMap endedTurn? := by
    rw [hq, List.filterMap_append, List.filterMap_eq_nil_iff.2 fun i h => (hi i h).2,
      List.append_nil]
  have hmem {i : SessionItem} (h : i ∈ s.queue) : i ∈ s'.queue := hq ▸ List.mem_append_left _ h
  have hclose : Closes s'.session = Closes s.session := by simp only [Closes, hfsm]
  obtain ⟨ho, hb, hqd, hsent, hpend, hint⟩ := h
  refine ⟨hstarted ▸ ho, ?_, hended ▸ hqd, ?_, ?_, ?_⟩
  · rw [hstarted, ht]
    exact hb
  · rw [hended, hclose, hfsm, hp]
    exact hsent
  · rw [hclose, hfsm, hp]
    exact fun h => (hpend h).imp_right (Or.imp_left hmem)
  · rw [hfsm]
    exact fun h => ⟨(hint h).1, fun hs => hmem ((hint h).2 hs)⟩

/-- A message is posted. -/
theorem TurnInv.message (h : TurnInv s m) {item : SessionItem}
    (hst : step cfg maxFrames s (.message item) = some s') :
    TurnInv s' (m.update s (.message item)) := by
  obtain ⟨-, hq, hsess, -, -, ht⟩ := message_cases hst
  have hended : s'.queue.filterMap endedTurn? =
      s.queue.filterMap endedTurn? ++ (endedTurn? item).toList := by
    rw [hq, List.filterMap_append]
    cases hi : endedTurn? item <;> simp [hi]
  have hstarted : s'.queue.filterMap startedTurn? =
      s.queue.filterMap startedTurn? ++ (startedTurn? item).toList := by
    rw [hq, List.filterMap_append]
    cases hi : startedTurn? item <;> simp [hi]
  have hmem {i : SessionItem} (h : i ∈ s.queue) : i ∈ s'.queue := hq ▸ List.mem_append_left _ h
  have hfresh : ∀ n ∈ startedTurn? item, s.turns < n ∧ n ≤ s'.turns := by
    rintro n hn
    rcases ht with ⟨turn, rfl, hturn, ht⟩ | ⟨hne, -⟩
    · cases hn
      omega
    · cases item <;> cases hn
      exact absurd rfl (hne n)
  have hturns : s.turns ≤ s'.turns := by
    rcases ht with ⟨turn, -, hturn, ht⟩ | ⟨-, ht⟩ <;> omega
  obtain ⟨ho, hb, hqd, hsent, hpend, hint⟩ := h
  refine ⟨?_, ?_, ?_, ?_, ?_, ?_⟩
  · rw [hstarted, ← List.append_assoc]
    refine List.pairwise_append.2 ⟨ho, ?_, fun k hk n hn => ?_⟩
    · cases startedTurn? item <;> simp
    · exact Nat.lt_of_le_of_lt (hb k hk) (hfresh n (Option.mem_toList.1 hn)).1
  · rw [hstarted, ← List.append_assoc]
    intro n hn
    rcases List.mem_append.1 hn with hn | hn
    · exact Nat.le_trans (hb n hn) hturns
    · exact (hfresh n (Option.mem_toList.1 hn)).2
  · rw [hended]
    intro n hn
    rcases List.mem_append.1 hn with hn | hn
    · exact List.mem_append_right _ (hqd n hn)
    · exact List.mem_append_left _ hn
  · rw [hended, hsess]
    intro n hn
    rcases List.mem_append.1 hn with hn | hn
    · exact .inl (List.mem_append_right _ hn)
    · exact (hsent n hn).imp_left (List.mem_append_left _)
  · rw [hsess]
    intro hp
    rcases hpend hp with hc | hc | ⟨hs, n, hn, hn'⟩
    · exact .inl hc
    · exact .inr (.inl (hmem hc))
    · exact .inr (.inr ⟨hs, n, hn, List.mem_append_right _ hn'⟩)
  · rw [hsess]
    exact fun h => ⟨(hint h).1, fun hs => hmem ((hint h).2 hs)⟩

/-! ## The control thread -/

/-- An item starts a turn, interrupts it, or is not about it. -/
theorem Turns.take_cases (t : CallSession) (item : SessionItem) (m : Turns) :
    (∃ n, item = .ttsStarted n ∧ t.fsm.state = .thinking ∧
        m.take t item = { m with turn := some n, interrupted := false }) ∨
      (StartsCapture t item ∧ m.take t item = { m with interrupted := true }) ∨
        ¬StartsCapture t item ∧ (∀ n, item = .ttsStarted n → t.fsm.state ≠ .thinking) ∧
          m.take t item = m := by
  by_cases hc : StartsCapture t item
  · refine .inr (.inl ⟨hc, ?_⟩)
    obtain ⟨ho, hs⟩ := hc
    cases item <;> cases ho
    exact if_pos ⟨rfl, hs⟩
  · -- Only an onset starts a capture.
    cases item
    case ttsStarted turn =>
      by_cases hs : t.fsm.state = .thinking
      · exact .inl ⟨turn, rfl, hs, if_pos hs⟩
      · exact .inr (.inr ⟨hc, fun _ _ => hs, if_neg hs⟩)
    all_goals exact .inr (.inr ⟨hc, by simp, by simp [Turns.take, hc]⟩)

section

variable {item : SessionItem} {rest : List SessionItem}

/-- No turn is being spoken once the item is processed, if none was. -/
theorem not_mem_of_process
    (hs : s.session.fsm.state ∉ [CallFsmState.synthesizing, .speaking])
    (ht : ∀ n, item = .ttsStarted n → s.session.fsm.state ≠ .thinking) :
    (processed cfg s item).session.fsm.state ∉ [CallFsmState.synthesizing, .speaking] := by
  simp only [List.mem_cons, List.not_mem_nil, or_false, not_or] at hs ⊢
  refine ⟨fun h => ?_, fun h => ?_⟩
  · rcases process_synthesizing h with h | ⟨hth, n, rfl⟩
    · exact hs.1 h
    · exact ht n rfl hth
  · rcases process_speaking h with h | h
    · exact hs.2 h
    · exact hs.1 h

/-- A turn that ends the call stays due once the item is processed. -/
theorem TurnInv.sent_control (h : TurnInv s m) (hq : s.queue = item :: rest)
    (hb : Binds s.session m rest item) {n : ℕ} (hn : n ∈ m.sent) :
    n ∈ rest.filterMap endedTurn? ∨ Closes (processed cfg s item).session ∨
      ∃ k ∈ (m.take s.session item).turn, n ≤ k ∧
        (n = k → (m.take s.session item).interrupted = true ∨
          (processed cfg s item).session.fsm.state ∉ [CallFsmState.synthesizing, .speaking] ∨
            (processed cfg s item).session.fsm.state = .speaking ∧
              (processed cfg s item).session.pendingEndCall = true) := by
  rcases h.sent n hn with hmem | hc | ⟨k, hk, hle, hover⟩
  · rw [hq] at hmem
    cases item
    case endCall turn gracePeriodMs =>
      rcases List.mem_cons.1 hmem with rfl | hmem
      · rcases hb.1 n rfl with hc | ⟨hturn, hs | ⟨hint, -⟩⟩
        · exact .inr (.inl (process_of_closing hc))
        · exact .inr (.inr ⟨n, hturn, Nat.le_refl n, fun _ => .inr (.inr ⟨hs, rfl⟩)⟩)
        · exact .inr (.inr ⟨n, hturn, Nat.le_refl n, fun _ => .inl hint⟩)
      · exact .inl hmem
    all_goals exact .inl hmem
  · exact .inr (.inl (process_of_closing hc))
  · refine .inr (.inr ?_)
    rcases Turns.take_cases s.session item m with ⟨j, rfl, -, hm⟩ | ⟨-, hm⟩ | ⟨-, ht, hm⟩ <;> rw [hm]
    · -- A new turn has a greater number.
      have hlt : k < j := by
        have ho := h.order
        rw [hq] at ho
        exact (List.pairwise_append.1 ho).2.2 k (Option.mem_toList.2 hk) j List.mem_cons_self
      exact ⟨j, rfl, by omega, fun heq => absurd heq (by omega)⟩
    · exact ⟨k, hk, hle, fun _ => .inl rfl⟩
    · refine ⟨k, hk, hle, fun heq => ?_⟩
      rcases hover heq with hint | hs | ⟨hs, hp⟩
      · exact .inl hint
      · exact .inr (.inl (not_mem_of_process hs ht))
      · by_cases hsp : (processed cfg s item).session.fsm.state = .speaking
        · refine .inr (.inr ⟨hsp, ?_⟩)
          have hep : endsPlayback item ≠ true := fun hep =>
            process_of_endsPlayback (x := ⟨s.session, []⟩) hs hep hsp
          rw [processed, process_pendingEndCall]
          cases item <;> first | exact hp | rfl | exact absurd rfl hep
        · refine .inr (.inl ?_)
          simp only [List.mem_cons, List.not_mem_nil, or_false, not_or]
          refine ⟨fun hsy => ?_, hsp⟩
          rcases process_synthesizing hsy with h | ⟨h, -⟩ <;> cases hs.symm.trans h

/-- The flag stays that of the turn, or about to be cleared. -/
theorem TurnInv.pending_control (h : TurnInv s m) (hq : s.queue = item :: rest)
    (hb : Binds s.session m rest item)
    (hp : (processed cfg s item).session.pendingEndCall = true) :
    Closes (processed cfg s item).session ∨ .playbackCancelled ∈ rest ∨
      (processed cfg s item).session.fsm.state = .speaking ∧
        ∃ n ∈ (m.take s.session item).turn, n ∈ m.sent := by
  rw [processed, process_pendingEndCall] at hp
  by_cases hi : endedTurn? item = none
  · have hep : endsPlayback item = false ∧ s.session.pendingEndCall = true := by
      cases item <;> first | exact ⟨rfl, hp⟩ | simp_all [endedTurn?]
    rcases h.pending hep.2 with hc | hc | ⟨hs, n, hn, hn'⟩
    · exact .inl (process_of_closing hc)
    · rw [hq] at hc
      rcases List.mem_cons.1 hc with rfl | hc
      · cases hep.1
      · exact .inr (.inl hc)
    · rcases process_of_speaking cfg s.media.playbackActive
        (x := ⟨s.session, []⟩) hs hep.1 with hs' | hs' | ⟨request, rfl⟩
      · refine .inr (.inr ⟨hs', n, ?_, hn'⟩)
        rcases Turns.take_cases s.session item m with ⟨j, -, ht, -⟩ | ⟨-, hm⟩ | ⟨-, -, hm⟩
        · cases hs.symm.trans ht
        · rwa [hm]
        · rwa [hm]
      · exact .inl (.inl hs')
      · exact .inr (.inl (hb.2.2 rfl hs hep.2))
  · cases item
    case endCall turn gracePeriodMs =>
      rcases hb.1 turn rfl with hc | ⟨hturn, hs | ⟨-, hmem⟩⟩
      · exact .inl (process_of_closing hc)
      · exact .inr (.inr ⟨hs, turn, hturn, h.queued turn (by rw [hq]; exact List.mem_cons_self)⟩)
      · exact .inr (.inl hmem)
    all_goals exact absurd rfl hi

theorem TurnInv.interrupted_control (h : TurnInv s m) (hq : s.queue = item :: rest)
    (hi : (m.take s.session item).interrupted = true) :
    (processed cfg s item).session.fsm.state ≠ .synthesizing ∧
      ((processed cfg s item).session.fsm.state = .speaking →
        .playbackCancelled ∈ rest ++ (processed cfg s item).effects.filterMap posted) := by
  rcases Turns.take_cases s.session item m with ⟨j, -, -, hm⟩ | ⟨hst, hm⟩ | ⟨-, ht, hm⟩
  · rw [hm] at hi
    cases hi
  · -- The barge-in of a turn that is spoken cancels its playback.
    have hn : (processed cfg s item).session.fsm.state = nextState s.session item := by
      rcases process_state cfg s.media.playbackActive item ⟨s.session, []⟩ with hn | ⟨hbar, -⟩
      · exact hn
      · have hmem := hst.2
        rw [show s.session.fsm.state = .bargeIn from hbar] at hmem
        simp at hmem
    rw [hn]
    rcases nextState_of_startsCapture hst with hb | ⟨hs, hsp⟩
    · rw [hb]
      exact ⟨by decide, nofun⟩
    · rw [hsp]
      exact ⟨by decide, fun _ => List.mem_append_right _
        (posted_of_isOnset (x := ⟨s.session, []⟩) hs hst.1)⟩
  · rw [hm] at hi
    obtain ⟨hsy, hsp⟩ := h.interrupted hi
    refine ⟨fun h => ?_, fun h => ?_⟩
    · rcases process_synthesizing h with h | ⟨hth, n, rfl⟩
      · exact hsy h
      · exact ht n rfl hth
    · rcases process_speaking h with hs | hs
      · have hc := hsp hs
        rw [hq] at hc
        rcases List.mem_cons.1 hc with rfl | hc
        · exact absurd h (process_of_endsPlayback (x := ⟨s.session, []⟩) hs rfl)
        · exact List.mem_append_left _ hc
      · exact absurd hs hsy

/-- An item is processed. -/
theorem TurnInv.control (h : TurnInv s m) (hst : step cfg maxFrames s .control = some s')
    (hb : BindsNext (s, m) .control) : TurnInv s' (m.update s .control) := by
  obtain ⟨item, rest, hq, -, rfl⟩ := control_cases hst
  have hupdate : m.update s .control = m.take s.session item := by
    simp [Turns.update, hq]
  have hb : Binds s.session m rest item := by
    simpa [BindsNext, hq] using hb rfl
  have hposted (i : SessionItem)
      (hi : i ∈ (processed cfg s item).effects.filterMap posted) :
      startedTurn? i = none ∧ endedTurn? i = none := by
    rcases posted_process rfl i hi with rfl | ⟨destination, reason, rfl⟩ <;> exact ⟨rfl, rfl⟩
  have hstarted : (rest ++ (processed cfg s item).effects.filterMap posted).filterMap startedTurn? =
      rest.filterMap startedTurn? := by
    rw [List.filterMap_append, List.filterMap_eq_nil_iff.2 fun i hi => (hposted i hi).1,
      List.append_nil]
  have hended : (rest ++ (processed cfg s item).effects.filterMap posted).filterMap endedTurn? =
      rest.filterMap endedTurn? := by
    rw [List.filterMap_append, List.filterMap_eq_nil_iff.2 fun i hi => (hposted i hi).2,
      List.append_nil]
  have hsent : (m.take s.session item).sent = m.sent := by
    rcases Turns.take_cases s.session item m with ⟨n, -, -, hm⟩ | ⟨-, hm⟩ | ⟨-, -, hm⟩ <;> rw [hm]
  -- The turns that are left are in order as they were.
  have hsub : ((m.take s.session item).turn.toList ++ rest.filterMap startedTurn?).Sublist
      (m.turn.toList ++ s.queue.filterMap startedTurn?) := by
    rw [hq, List.filterMap_cons]
    rcases Turns.take_cases s.session item m with ⟨n, rfl, -, hm⟩ | ⟨-, hm⟩ | ⟨-, -, hm⟩ <;> rw [hm]
    · exact List.sublist_append_right _ _
    · exact (List.Sublist.refl _).append (by split <;> simp)
    · exact (List.Sublist.refl _).append (by split <;> simp)
  rw [hupdate]
  refine ⟨?_, ?_, ?_, ?_, ?_, ?_⟩
  · rw [foldl_apply_queue, hstarted]
    exact h.order.sublist hsub
  · rw [foldl_apply_queue, hstarted, foldl_apply_turns]
    exact fun n hn => h.bound n (hsub.subset hn)
  · rw [foldl_apply_queue, hended, hsent]
    intro n hn
    refine h.queued n ?_
    rw [hq, List.filterMap_cons]
    split
    · exact hn
    · exact List.mem_cons_of_mem _ hn
  · rw [foldl_apply_queue, hended, foldl_apply_session, hsent]
    exact fun n hn => h.sent_control hq hb hn
  · rw [foldl_apply_queue, foldl_apply_session, hsent]
    exact fun hp => (h.pending_control hq hb hp).imp_right (Or.imp_left (List.mem_append_left _))
  · rw [foldl_apply_queue, foldl_apply_session]
    exact h.interrupted_control hq

end

/-- The other steps are not about the turns. -/
theorem TurnInv.step (h : TurnInv s m) {l : Label} (hst : step cfg maxFrames s l = some s')
    (hb : BindsNext (s, m) l) : TurnInv s' (m.update s l) := by
  by_cases hc : l = .control
  · subst hc
    exact h.control hst hb
  by_cases hm : ∃ item, l = .message item
  · obtain ⟨item, rfl⟩ := hm
    exact h.message hst
  have hsame : m.update s l = m := by
    cases l <;> first | rfl | exact absurd rfl hc | exact absurd ⟨_, rfl⟩ hm
  rw [hsame]
  by_cases ht : ∃ t, l = .telephony t
  · obtain ⟨t, rfl⟩ := ht
    obtain ⟨-, -, c, -, rfl⟩ := telephony_cases hst
    obtain ⟨hq, hturns, -⟩ := foldl_callback_queue (s := { s with coordinators := c })
      (c.log.drop s.coordinators.log.length)
    obtain ⟨b, hsess⟩ := foldl_callback_session (s := { s with coordinators := c })
      (c.log.drop s.coordinators.log.length)
    refine h.quiet hq (fun i hi => ?_) (by rw [hsess]) (by rw [hsess]) hturns
    obtain ⟨e, -, he⟩ := List.mem_filterMap.1 hi
    unfold outcome at he
    split at he <;> cases he
    exact ⟨rfl, rfl⟩
  · obtain ⟨⟨items, hq, hi⟩, hsess, -, -, hturns⟩ :=
      other_cases hst hc (not_exists.1 hm) (not_exists.1 ht)
    refine h.quiet hq (fun i h => ?_) (by rw [hsess]) (by rw [hsess]) hturns
    have hi := hi i h
    cases i <;> first | exact ⟨rfl, rfl⟩ | cases hi

theorem reachable_turnInv
    (hs : ((system cfg maxFrames callId callerDid).monitored {} Turns.update).ReachableIf
      BindsNext (s, m)) : TurnInv s m := by
  refine hs.invariant (I := fun s => TurnInv s.1 s.2) ?_ fun s l s' h hb hst => ?_
  · exact ⟨List.Pairwise.nil, fun _ hn => absurd hn List.not_mem_nil,
      fun _ hn => absurd hn List.not_mem_nil, nofun, nofun, nofun⟩
  · obtain ⟨t, hst', rfl⟩ := Option.map_eq_some_iff.1 hst
    exact h.step hst' hb

/-- The machine starts to wait for the hangup just when the playback of a turn
    that ends the call finishes, and the caller has not interrupted it. -/
def Bound (cfg : CallFsmTimerConfig) (s : SessionThreads) (m : Turns) : Prop :=
  s.session.fsm.state ≠ .waitingForHangup → ∀ item ∈ s.queue.head?,
    ((processed cfg s item).session.fsm.state = .waitingForHangup ↔
      s.session.fsm.state = .speaking ∧ m.interrupted = false ∧
        ∃ n ∈ m.turn, item = .playbackFinished n ∧ n ∈ m.sent)

/-- A barge-in clears the flag, at the latest when its cancel is processed. -/
def Cleared (s : SessionThreads) (m : Turns) : Prop :=
  m.interrupted = true → s.session.pendingEndCall = true →
    Closes s.session ∨ .playbackCancelled ∈ s.queue

/-- In every run that processes the items bound to their turns, a turn ends the
    call just when it is spoken to its end. -/
theorem reachable_bound
    (hs : ((system cfg maxFrames callId callerDid).monitored {} Turns.update).ReachableIf
      BindsNext (s, m)) (hb : BindsNext (s, m) .control) : Bound cfg s m ∧ Cleared s m := by
  have h : TurnInv s m := reachable_turnInv hs
  refine ⟨fun hw item hitem => ?_, fun hint hp => ?_⟩
  · obtain ⟨rest, hq⟩ : ∃ rest, s.queue = item :: rest := List.head?_eq_some_iff.1 hitem
    have hb : Binds s.session m rest item := by
      simpa [BindsNext, hq] using hb rfl
    refine (process_waitingForHangup (x := ⟨s.session, []⟩) hw).trans ⟨?_, ?_⟩
    · rintro ⟨hsp, hp, turn, rfl⟩
      obtain ⟨hturn, hnc⟩ := (hb.2.1 turn rfl hsp).1 hp
      have hnq : .playbackCancelled ∉ s.queue := by
        rw [hq, List.mem_cons, not_or]
        exact ⟨by simp, hnc⟩
      refine ⟨hsp, ?_, turn, hturn, rfl, ?_⟩
      · by_contra hint
        exact hnq ((h.interrupted (by simpa using hint)).2 hsp)
      · rcases h.pending hp with hc | hc | ⟨-, n, hn, hn'⟩
        · rcases hc with hc | hc <;> cases hsp.symm.trans hc
        · exact absurd hc hnq
        · rwa [Option.some.inj (hturn.symm.trans hn)]
    · rintro ⟨hsp, hint, n, hn, rfl, hsent⟩
      refine ⟨hsp, ?_, n, rfl⟩
      by_contra hp
      rcases h.sent n hsent with hmem | hc | ⟨k, hk, hle, hover⟩
      · rw [hq] at hmem
        exact (hb.2.1 n rfl hsp).2 (by simpa using hp) hn hint hmem
      · rcases hc with hc | hc <;> cases hsp.symm.trans hc
      · rcases hover (Option.some.inj (hn.symm.trans hk)) with hi | hs | ⟨-, hp'⟩
        · exact absurd (hint.symm.trans hi) (by decide)
        · exact hs (by simp [hsp])
        · exact hp hp'
  · rcases h.pending hp with hc | hc | ⟨hsp, -⟩
    · exact .inl hc
    · exact .inr hc
    · exact .inr ((h.interrupted hint).2 hsp)

/-- The goodbye is heard to its end. -/
theorem reachable_bound_goodbye :
    ∃ s m, (system {} 100 "call" "caller").Reachable s ∧
      s.queue.head? = some (.playbackFinished 1) ∧ m = ⟨some 1, false, [1]⟩ ∧
        Bound {} s m ∧ Cleared s m := by
  have hexec : (((system {} 100 "call" "caller").monitored {} Turns.update).execIf BindsNext
      ((system {} 100 "call" "caller").monitored {} Turns.update).init
      (firstTurn ++ ([.message (.endCall 1 2500), .control, .pop, .drained] : List Label))).map
        (fun s => (decide (BindsNext s .control), s.1.queue.head?, s.2)) =
      some (true, some (.playbackFinished 1), ⟨some 1, false, [1]⟩) := by
    decide
  obtain ⟨⟨s, m⟩, hs, hr⟩ := Option.map_eq_some_iff.1 hexec
  simp only [Prod.mk.injEq] at hr
  obtain ⟨hb, hq, hm⟩ := hr
  have hs : ((system {} 100 "call" "caller").monitored {} Turns.update).ReachableIf BindsNext (s, m) :=
    System.ReachableIf.execIf .init hs
  refine ⟨s, m, ?_, hq, hm, reachable_bound hs (of_decide_eq_true hb)⟩
  exact System.ReachableIf.of_monitored (g := fun _ _ => True) hs.reachable

/-- The goodbye has been heard when the message comes, and the next turn ends
    the call. -/
theorem not_reachable_bound :
    ¬∀ s m, ((system {} 100 "call" "caller").monitored {} Turns.update).Reachable (s, m) →
      Bound {} s m ∧ Cleared s m := by
  intro h
  have hexec : (((system {} 100 "call" "caller").monitored {} Turns.update).exec
      ((system {} 100 "call" "caller").monitored {} Turns.update).init
      (firstTurn ++ ([.pop, .drained, .message (.endCall 1 2500), .control, .control,
        .event (.speechStarted 0), .control, .message (.sttResult "yes" 1), .control,
        .message (.ttsStarted 2), .control, .ttsChunk 2 0 true, .push, .push, .control,
        .pop, .drained] : List Label))).map
        (fun s => (s.1.session.fsm.state, s.1.queue.head?,
          (processed {} s.1 (.playbackFinished 2)).session.fsm.state, s.2)) =
      some (.speaking, some (.playbackFinished 2), .waitingForHangup, ⟨some 2, false, [1]⟩) := by
    decide
  obtain ⟨⟨s, m⟩, hs, hr⟩ := Option.map_eq_some_iff.1 hexec
  simp only [Prod.mk.injEq] at hr
  obtain ⟨hsp, hq, hw, rfl⟩ := hr
  obtain ⟨hb, -⟩ := h s _ (System.Reachable.exec .init hs)
  obtain ⟨-, -, n, hn, heq, hmem⟩ := (hb (by rw [hsp]; decide) _ hq).1 hw
  cases heq
  exact absurd hmem (by decide)

end

end SessionThreads

end Yuviz.Gateway
