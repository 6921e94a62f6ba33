import Yuviz.Call.Answers
import Yuviz.Gateway.CallSession.EndCall

/-!
# The two machines of a call agree

The service listens whenever the gateway does and nothing is under way
(`reachable_agree`), in the runs that are `Careful`: the gateway does not time
out while the service is about to speak after a failed transfer, starts a
transfer only where it awaits its outcome, and the service receives in order
what the gateway sends (`Servicer.Orderly`).

The invariant (`InStep`) is about what the service is going to expect once it has
received all that is in flight: the gateway is in a state that is to answer it.
Apart from it, a service whose call is over has told the gateway, or been told.
-/

namespace Yuviz

open Gateway (CallSession SessionThreads SessionEffect SessionItem CallFsmTimerConfig)
open Conversation (Servicer GatewayMessage Bytes)

namespace Call

/-- What the service is to expect once it has received everything. -/
def expects (s : Call) : Expects := s.service.awaits s.up

/-- The session does not give up what the service expects, and the service
    receives in order. -/
def Careful (s : Call) : Label → Prop
  | .gateway .control => ∀ item ∈ s.gateway.queue.head?, s.expects.Answers s.gateway.session item
  | .service l => s.service.Orderly l
  | _ => True

instance (s : Call) : DecidablePred (Careful s) := fun l => by
  unfold Careful
  split <;> infer_instance

/-- The gateway has been told that the call is over, or is told next. -/
def Told (s : Call) : Prop :=
  s.gateway.session.fsm.state.leaves = true ∨ .error ∈ s.down ∨
    ∃ reason, SessionItem.terminate reason ∈ s.gateway.queue

structure InStep (s : Call) : Prop where
  fits : s.service.session.fsm ∈ s.service.pc.activity.states
  textOnly : s.service.textOnly = false
  met : s.expects.MetIn s.gateway.session.fsm.state
  ended : s.ended = true →
    s.gateway.session.fsm.state = .closing ∨ s.gateway.session.fsm.state = .closed
  started : s.gateway.session.fsm.state = .idle →
    s.gateway.queue.head? = some .sessionStart
  told : (s.service.session.fsm.isOver = true ∨
    ∃ m ∈ s.service.queue.map Prod.fst ++ s.up, Servicer.ends m = true) → s.Told

variable {cfg : CallFsmTimerConfig} {maxFrames : ℕ} {samples : Gateway.AudioFrame → Bytes}
  {callId callerDid : String} {s s' : Call} {t : SessionThreads} {l : Label}

/-! ## What is sent -/

theorem expects_concat (m : Option GatewayMessage) (up : List (Option GatewayMessage)) :
    s.service.awaits (up ++ [m]) = (s.service.awaits up).received m := by
  rw [Servicer.awaits, Servicer.awaits, ← List.append_assoc, List.foldl_append]
  rfl

/-- What comes of the effects `es`: they only touch the stream to the service. -/
structure Sends (s s' : Call) (es : List SessionEffect) : Prop where
  gateway : s'.gateway = s.gateway
  service : s'.service = s.service
  down : s'.down = s.down
  expects : s'.ended = true ∨ s'.expects = es.foldl Expects.sent s.expects
  stays : s.ended = true → s'.ended = true
  ended : s'.ended = true → s.ended = true ∨ .closeSession ∈ es
  ends : ∀ m ∈ s'.up, Servicer.ends m = true →
    m ∈ s.up ∨ ∃ e ∈ es, ∃ state, Gateway.CallSession.endOf? e = some state

theorem sends_send (s : Call) (e : SessionEffect) : Sends s (send samples s e) [e] := by
  rw [send]
  split_ifs with hended hclose
  · exact ⟨rfl, rfl, rfl, .inl hended, id, .inl, fun m hm _ => .inl hm⟩
  · subst hclose
    refine ⟨rfl, rfl, rfl, .inl rfl, fun _ => rfl, fun _ => .inr List.mem_cons_self,
      fun m hm _ => ?_⟩
    exact (List.mem_append.1 hm).imp_right fun _ => ⟨_, List.mem_cons_self, _, rfl⟩
  · refine ⟨rfl, rfl, rfl, .inr ?_, id, .inl, fun m hm hends => ?_⟩
    · have hwire : s.service.awaits (s.up ++ ((wire? samples e).map some).toList) =
          s.expects.sent e := by
        cases e
        all_goals first
          | exact expects_concat _ _
          | exact congrArg s.service.awaits (List.append_nil _)
      exact hwire
    · rcases List.mem_append.1 hm with hm | hm
      · exact .inl hm
      · refine .inr ⟨e, List.mem_cons_self, ?_⟩
        cases e
        case sendTransferCompleted => exact ⟨_, rfl⟩
        case closeSession => exact absurd rfl hclose
        all_goals first
          | exact absurd hm List.not_mem_nil
          | obtain rfl := List.mem_singleton.1 hm
            cases hends

theorem sends_foldl (es : List SessionEffect) (s : Call) :
    Sends s (es.foldl (send samples) s) es := by
  induction es generalizing s with
  | nil => exact ⟨rfl, rfl, rfl, .inr rfl, id, .inl, fun m hm _ => .inl hm⟩
  | cons e es ih =>
    have h : Sends s (send samples s e) [e] := sends_send s e
    have hs : Sends (send samples s e) (es.foldl (send samples) (send samples s e)) es := ih _
    rw [List.foldl_cons]
    refine ⟨hs.gateway.trans h.gateway, hs.service.trans h.service, hs.down.trans h.down, ?_,
      fun he => hs.stays (h.stays he), fun he => ?_, fun m hm hends => ?_⟩
    · rcases h.expects with he | he
      · exact .inl (hs.stays he)
      · rcases hs.expects with he' | he'
        · exact .inl he'
        · exact .inr (by rw [he', he]; rfl)
    · rcases hs.ended he with he | he
      · refine (h.ended he).imp_right fun hmem => ?_
        rw [List.mem_singleton.1 hmem]
        exact List.mem_cons_self
      · exact .inr (List.mem_cons_of_mem _ he)
    · rcases hs.ends m hm hends with hm | ⟨e', he', hstate⟩
      · rcases h.ends m hm hends with hm | ⟨e', he', hstate⟩
        · exact .inl hm
        · exact .inr ⟨e', by rw [List.mem_singleton.1 he']; exact List.mem_cons_self, hstate⟩
      · exact .inr ⟨e', List.mem_cons_of_mem _ he', hstate⟩

/-! ## Steps of the gateway -/

/-- A step of the session, other than one that processes an item, only posts. -/
theorem gateway_cases {l : SessionThreads.Label}
    (h : SessionThreads.step cfg maxFrames s.gateway l = some t) (hl : l ≠ .control) :
    t.session.fsm = s.gateway.session.fsm ∧ ∃ items, t.queue = s.gateway.queue ++ items := by
  obtain ⟨b, hb⟩ := SessionThreads.step_session h hl
  refine ⟨by rw [hb], ?_⟩
  by_cases hm : ∃ item, l = .message item
  · obtain ⟨item, rfl⟩ := hm
    exact ⟨_, (SessionThreads.message_cases h).2.1⟩
  · by_cases ht : ∃ t, l = .telephony t
    · obtain ⟨t, rfl⟩ := ht
      obtain ⟨-, -, c, -, rfl⟩ := SessionThreads.telephony_cases h
      exact ⟨_, (SessionThreads.foldl_callback_queue _).1⟩
    · obtain ⟨⟨items, hq, -⟩, -⟩ :=
        SessionThreads.other_cases h hl (not_exists.1 hm) (not_exists.1 ht)
      exact ⟨items, hq⟩

/-- A step that only posts, of the session and its reader. -/
theorem InStep.posts (h : InStep s) (items : List SessionItem)
    (hfsm : t.session.fsm = s.gateway.session.fsm) (hq : t.queue = s.gateway.queue ++ items)
    {down : List Conversation.ServiceMessage} {ready : Bool}
    (hdown : .error ∈ s.down →
      .error ∈ down ∨ ∃ reason, SessionItem.terminate reason ∈ t.queue) :
    InStep { s with gateway := t, down := down, ready := ready } := by
  refine ⟨h.fits, h.textOnly, ?_, fun he => ?_, fun hidle => ?_, fun hover => ?_⟩
  · show s.expects.MetIn t.session.fsm.state
    rw [hfsm]
    exact h.met
  · show t.session.fsm.state = .closing ∨ t.session.fsm.state = .closed
    rw [hfsm]
    exact h.ended he
  · have hs : s.gateway.queue.head? = some .sessionStart := h.started (hfsm ▸ hidle)
    show t.queue.head? = some .sessionStart
    rw [hq, List.head?_append, hs]
    rfl
  · rcases h.told hover with hleaves | herror | ⟨reason, hr⟩
    · refine .inl ?_
      show t.session.fsm.state.leaves = true
      rw [hfsm]
      exact hleaves
    · exact .inr (hdown herror)
    · refine .inr (.inr ⟨reason, ?_⟩)
      show SessionItem.terminate reason ∈ t.queue
      rw [hq]
      exact List.mem_append_left _ hr

/-- The session processes an item. -/
theorem InStep.control (h : InStep s) (hc : Careful s (.gateway .control))
    (hst : gatewayStep cfg maxFrames samples .control s = some s') : InStep s' := by
  obtain ⟨t, ht, rfl⟩ := Option.map_eq_some_iff.1 hst
  obtain ⟨item, rest, hq, -, rfl⟩ := SessionThreads.control_cases ht
  have hitem : s.gateway.queue.head? = some item := by rw [hq]; rfl
  let x := SessionThreads.processed cfg s.gateway item
  let t : SessionThreads :=
    x.effects.foldl SessionThreads.apply { s.gateway with session := x.session, queue := rest }
  have hs : Sends { s with gateway := t } ((s.gateway.queue.head?.toList.flatMap fun item =>
      (SessionThreads.processed cfg s.gateway item).effects).foldl (send samples)
        { s with gateway := t }) x.effects := by
    rw [hitem, Option.toList_some, List.flatMap_singleton]
    exact sends_foldl _ _
  generalize (s.gateway.queue.head?.toList.flatMap fun item =>
      (SessionThreads.processed cfg s.gateway item).effects).foldl (send samples)
        { s with gateway := t } = s' at hs
  have hsession : s'.gateway.session = x.session := by
    rw [hs.gateway]
    exact SessionThreads.foldl_apply_session _
  have hqueue : s'.gateway.queue = rest ++ x.effects.filterMap SessionThreads.posted := by
    rw [hs.gateway]
    exact SessionThreads.foldl_apply_queue _
  have hended (he : s'.ended = true) :
      x.session.fsm.state = .closing ∨ x.session.fsm.state = .closed := by
    rcases hs.ended he with he | he
    · exact CallSession.process_of_closing (h.ended he)
    · exact .inl (CallSession.process_endOf he rfl)
  have htold (ht : s.Told) : s'.Told := by
    rcases ht with hleaves | herror | ⟨reason, hr⟩
    · exact .inl (by rw [hsession]; exact CallSession.process_leaves hleaves)
    · exact .inr (.inl (by rw [hs.down]; exact herror))
    · rw [hq, List.mem_cons] at hr
      rcases hr with rfl | hr
      · refine .inl ?_
        rw [hsession]
        refine CallSession.process_terminate (fun hidle => ?_) reason
        rw [h.started hidle] at hitem
        cases hitem
      · exact .inr (.inr ⟨reason, by rw [hqueue]; exact List.mem_append_left _ hr⟩)
  refine ⟨by rw [hs.service]; exact h.fits, by rw [hs.service]; exact h.textOnly, ?_,
    fun he => by rw [hsession]; exact hended he, fun hidle => ?_, fun hover => ?_⟩
  · rw [hsession]
    rcases hs.expects with he | he
    · refine Expects.metIn_of_mem ?_
      rcases hended he with hstate | hstate <;> rw [hstate] <;> decide
    · rw [he]
      exact Expects.process_metIn h.met (hc item hitem)
  · rw [hsession] at hidle
    refine absurd hidle (CallSession.process_ne_idle fun hidle => ?_)
    rw [h.started hidle] at hitem
    exact (Option.some.inj hitem).symm
  · rw [hs.service] at hover
    rcases hover with hover | ⟨m, hm, hends⟩
    · exact htold (h.told (.inl hover))
    · rcases List.mem_append.1 hm with hm | hm
      · exact htold (h.told (.inr ⟨m, List.mem_append_left _ hm, hends⟩))
      · rcases hs.ends m hm hends with hm | ⟨e, he, state, hstate⟩
        · exact htold (h.told (.inr ⟨m, List.mem_append_right _ hm, hends⟩))
        · have hend : x.session.fsm.state = state := CallSession.process_endOf he hstate
          refine .inl ?_
          rw [hsession, hend]
          cases e <;> cases hstate <;> rfl

/-- The reader of the transport takes a message. -/
theorem InStep.receive (h : InStep s) (hst : receive cfg maxFrames s = some s') : InStep s' := by
  simp only [Call.receive] at hst
  split_ifs at hst with hincoming hready
  · obtain ⟨t, ht, rfl⟩ := Option.map_eq_some_iff.1 hst
    obtain ⟨hfsm, items, hq⟩ := gateway_cases ht nofun
    exact h.posts items hfsm hq .inl
  · split at hst
    · next m down hdown =>
      split at hst
      · next l hl =>
        obtain ⟨t, ht, rfl⟩ := Option.map_eq_some_iff.1 hst
        have hcontrol : l ≠ .control := by
          rintro rfl
          cases m <;> simp [incoming?] at hl
        obtain ⟨hfsm, items, hq⟩ := gateway_cases ht hcontrol
        refine h.posts items hfsm hq fun herror => ?_
        rw [hdown, List.mem_cons] at herror
        rcases herror with rfl | herror
        · -- the reader reports it to the session
          cases hl
          simp only [SessionThreads.step] at ht
          split_ifs at ht
          cases ht
          exact .inr ⟨_, List.mem_append_right _ (List.mem_singleton.2 rfl)⟩
        · exact .inl herror
      · next hl =>
        cases hst
        refine h.posts [] rfl (List.append_nil _).symm fun herror => .inl ?_
        rw [hdown, List.mem_cons] at herror
        rcases herror with rfl | herror
        · cases hl
        · exact herror
    · cases hst

/-! ## Steps of the service -/

/-- The reader of the service takes a message. -/
theorem InStep.arrive (h : InStep s) (hst : arrive s = some s') : InStep s' := by
  simp only [Call.arrive] at hst
  split at hst
  · next m up hup =>
    obtain ⟨x, hx, rfl⟩ := Option.map_eq_some_iff.1 hst
    simp only [Servicer.step] at hx
    split_ifs at hx
    cases hx
    have hmove : (s.service.queue ++ [(m, s.service.arrived.length)]).map Prod.fst ++ up =
        s.service.queue.map Prod.fst ++ s.up := by
      simp [hup]
    refine ⟨h.fits, h.textOnly, ?_, h.ended, h.started, fun hover => ?_⟩
    · have hmet := h.met
      rw [Call.expects, Servicer.awaits, ← hmove] at hmet
      exact hmet
    · refine h.told ?_
      rw [← hmove]
      exact hover
  · cases hst

theorem InStep.service (h : InStep s) {l : Servicer.Label} (hc : Careful s (.service l))
    (hst : serviceStep l s = some s') : InStep s' := by
  have hl : ∀ m, l ≠ .arrive m := by
    rintro m rfl
    cases hst
  have hst : (s.service.step l).map (fun x => { s with
      service := x.1, down := s.down ++ x.2.filterMap sent? }) = some s' := by
    cases l <;> first | exact hst | exact absurd rfl (hl _)
  obtain ⟨x, hx, rfl⟩ := Option.map_eq_some_iff.1 hst
  have ha : s.service.Advances x := Servicer.step_advances hx hl hc h.fits h.textOnly
  refine ⟨ha.fits, ha.textOnly.trans h.textOnly, h.met.of_atMost (ha.awaits _), h.ended, h.started,
    fun hover => ?_⟩
  have htold (h : s.Told) :
      Told { s with service := x.1, down := s.down ++ x.2.filterMap sent? } :=
    h.imp_right fun h => h.imp_left (List.mem_append_left _)
  rcases hover with hover | ⟨m, hm, hends⟩
  · rcases ha.isOver hover with hover | ⟨m, hm, hends⟩ | herror
    · exact htold (h.told (.inl hover))
    · exact htold (h.told (.inr ⟨m.1, List.mem_append_left _ (List.mem_map_of_mem hm), hends⟩))
    · exact .inr (.inl (List.mem_append_right _ (List.mem_filterMap.2 ⟨_, herror, rfl⟩)))
  · refine htold (h.told (.inr ⟨m, ?_, hends⟩))
    rcases List.mem_append.1 hm with hm | hm
    · obtain ⟨m', hm', rfl⟩ := List.mem_map.1 hm
      exact List.mem_append_left _ (List.mem_map_of_mem (ha.queue m' hm'))
    · exact List.mem_append_right _ hm

theorem InStep.step (h : InStep s) (hc : Careful s l)
    (hst : step cfg maxFrames samples s l = some s') : InStep s' := by
  cases l with
  | gateway l =>
    by_cases hl : l = .control
    · subst hl
      exact h.control hc hst
    · have hst : (SessionThreads.step cfg maxFrames s.gateway l).map
          (fun t => { s with gateway := t }) = some s' := by
        cases l <;> first | exact hst | exact absurd rfl hl | cases hst
      obtain ⟨t, ht, rfl⟩ := Option.map_eq_some_iff.1 hst
      obtain ⟨hfsm, items, hq⟩ := gateway_cases ht hl
      exact h.posts items hfsm hq .inl
  | receive => exact h.receive hst
  | arrive => exact h.arrive hst
  | service l => exact h.service hc hst

theorem reachable_inStep
    (hs : (system cfg maxFrames samples callId callerDid).ReachableIf Careful s) : InStep s := by
  refine hs.invariant ?_ fun s l s' h hc hst => h.step hc hst
  refine ⟨List.mem_cons_self, rfl, trivial, nofun, fun _ => rfl, ?_⟩
  rintro (hover | ⟨m, hm, -⟩)
  · cases hover
  · cases hm

/-! ## Agreement -/

/-- Nothing is under way between the gateway and the service, and no turn is running. -/
structure Quiet (s : Call) : Prop where
  up : s.up = []
  down : s.down = []
  incoming : s.gateway.incoming = []
  control : s.gateway.queue = []
  playback : s.gateway.media.playbackQueue = []
  queue : s.service.queue = []
  turn : s.service.pc.isTurn = false

instance (s : Call) : Decidable (Quiet s) :=
  decidable_of_iff (s.up = [] ∧ s.down = [] ∧ s.gateway.incoming = [] ∧ s.gateway.queue = [] ∧
      s.gateway.media.playbackQueue = [] ∧ s.service.queue = [] ∧ s.service.pc.isTurn = false)
    ⟨fun ⟨hu, hd, hi, hc, hp, hq, ht⟩ => ⟨hu, hd, hi, hc, hp, hq, ht⟩,
      fun h => ⟨h.up, h.down, h.incoming, h.control, h.playback, h.queue, h.turn⟩⟩

/-- The service listens when the gateway does. -/
theorem reachable_agree
    (hs : (system cfg maxFrames samples callId callerDid).ReachableIf Careful s) (hq : Quiet s)
    (hl : s.gateway.session.fsm.state = .listening) :
    s.service.session.fsm = .listening ∧ s.service.session.acceptsSpeech = true := by
  have h : InStep s := reachable_inStep hs
  have hnothing : s.service.expects = .nothing := by
    have hmet := h.met
    rw [hl, Call.expects, Servicer.awaits, hq.queue, hq.up] at hmet
    cases he : s.service.expects
    · rfl
    · exact absurd hmet (by rw [List.map_nil, List.nil_append, List.foldl_nil, he]; decide)
    · exact absurd hmet (by rw [List.map_nil, List.nil_append, List.foldl_nil, he]; decide)
  have hover : ¬s.service.session.fsm.isOver = true := by
    intro hover
    rcases h.told (.inl hover) with hleaves | herror | ⟨reason, hr⟩
    · rw [hl] at hleaves
      cases hleaves
    · rw [hq.down] at herror
      cases herror
    · rw [hq.control] at hr
      cases hr
  have hfsm : s.service.session.fsm = .listening := by
    have hturn : s.service.pc.activity ≠ .speech := by
      intro ha
      have ht := hq.turn
      revert ha ht
      cases s.service.pc <;> simp [Conversation.Pc.activity, Conversation.Pc.isTurn]
    exact Conversation.Activity.eq_listening h.fits hnothing hturn hover
  exact ⟨hfsm, by simp [Conversation.ConversationSession.acceptsSpeech, hfsm]⟩

/-- A request of the caller for an agent. -/
def agentRequest : Conversation.TransferRequest where
  sessionId := "session"
  tenantId := "tenant"
  callId := "call"
  transferType := .cold
  destination := "1001"
  reason := "asked"
  trigger := "customer_request"
  transferId := "x1"
  callerId := "caller"
  waitingExperience := "hold_music"

/-- The caller asks for an agent, who rejects the call: the service is told, and
    apologizes. -/
def rejected : List Label :=
  ([.gateway .control, .receive, .gateway .control, .service (.greet []),
    .gateway (.event (.speechStarted 0)), .gateway .control,
    .gateway (.event (.speechEnded 800 0)), .gateway .control, .arrive, .service .take,
    .service (.respond { sttText := "agent", transferRequest := some agentRequest }),
    .service .deliver, .service .exhaust, .receive, .gateway .control, .receive,
    .gateway .control, .gateway .control] : List Label) ++
  (List.replicate 5 (.gateway (.telephony (.control (.error "rejected")))) : List Label) ++
  ([.gateway .control] : List Label) ++
  (List.replicate 2 (.gateway (.telephony (.control (.ok "")))) : List Label) ++
  ([.arrive, .service .take, .arrive, .service .take, .service (.respond { ttsPayloads := [[0]] }),
    .service .exhaust] : List Label)

/-- The apology is played. -/
def played : List Label :=
  [.receive, .gateway .control, .receive, .gateway .push, .gateway .push, .receive,
    .gateway .push, .gateway .push, .gateway .control, .gateway .pop, .gateway .pop,
    .gateway .drained, .gateway .control]

/-- After the apology, the caller is heard again. -/
theorem reachable_agree_rejected :
    ∃ s, (system {} 100 (fun _ => [0]) "call" "caller").Reachable s ∧
      s.gateway.session.fsm.state = .listening ∧ s.service.session.acceptsSpeech = true := by
  have hexec : ((system {} 100 (fun _ => [0]) "call" "caller").execIf Careful
      (system {} 100 (fun _ => [0]) "call" "caller").init
      (rejected ++ played ++ [.arrive, .service .take])).map
        (fun s => decide (Quiet s ∧ s.gateway.session.fsm.state = .listening)) = some true := by
    decide
  obtain ⟨s, hs, hr⟩ := Option.map_eq_some_iff.1 hexec
  obtain ⟨hq, hl⟩ := of_decide_eq_true hr
  have hs : (system {} 100 (fun _ => [0]) "call" "caller").ReachableIf Careful s :=
    System.ReachableIf.execIf .init hs
  exact ⟨s, hs.reachable, hl, (reachable_agree hs hq hl).2⟩

/-- The gateway has given up waiting for the apology when it is played: the
    service waits for the end of the playback for good. -/
theorem not_reachable_agree :
    ¬∀ s, (system {} 100 (fun _ => [0]) "call" "caller").Reachable s → Quiet s →
      s.gateway.session.fsm.state = .listening → s.service.session.fsm = .listening := by
  intro h
  have hexec : ((system {} 100 (fun _ => [0]) "call" "caller").exec
      (system {} 100 (fun _ => [0]) "call" "caller").init
      (rejected ++ [.gateway (.event (.timerFired .llmTimeout)), .gateway .control] ++
        played)).map
        (fun s => decide (Quiet s ∧ s.gateway.session.fsm.state = .listening ∧
          s.service.session.fsm = .speaking)) = some true := by
    decide
  obtain ⟨s, hs, hr⟩ := Option.map_eq_some_iff.1 hexec
  obtain ⟨hq, hl, hspeaking⟩ := of_decide_eq_true hr
  have hlistening := h s (System.Reachable.exec .init hs) hq hl
  rw [hspeaking] at hlistening
  cases hlistening

end Call

end Yuviz
