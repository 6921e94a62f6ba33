import Mathlib
import Yuviz.Conversation.Service

/-!
# The transfers of a call

A transfer that is accepted sets the latch, and changes hands until the gateway
has resolved it: from the handler to the turn, from there to the slot where it
waits for the end of playback, and to the gateway. A turn drops the transfer it
has in hand when it is cancelled (`Careful`). Apart from that, while the latch is
set one of them holds the transfer that set it (`reachable_held`).
-/

namespace Yuviz.Conversation

/-- The transfer of the response a spoken turn is about to send. -/
def Phase.transfer : Phase → Option TransferRequest
  | .awaiting => none
  | .draining r | .delivering r => r.transferRequest

/-- The transfers in the hands of a turn. -/
def Pc.transfers : Pc → List TransferRequest
  | .speech t phase => phase.transfer.toList ++ t.turnTransfer.toList
  | _ => []

/-- The turn ends with a transfer to be held until its speech has played. -/
def Pc.defers : Pc → Bool
  | .speech t _ => t.turnTransfer.isSome && t.ttsStartedSent && !t.cancelled
  | _ => false

namespace Service

/-- The transfer is in the hands of the handler or of the servicer, or of the gateway. -/
def Holds (s : Service) (tr : TransferRequest) : Prop :=
  tr ∈ s.pipeline.pendingTransfer ∨ tr ∈ s.gen.transfer ∨ tr ∈ s.servicer.pc.transfers ∨
    tr ∈ s.servicer.pendingTransfer ∨ tr ∈ s.outstanding

/-- A cancel, or the end of the stream. -/
def isCancel : Option GatewayMessage → Bool
  | none | some (.cancelGeneration _) => true
  | _ => false

def isCompleted : Option GatewayMessage → Bool
  | some (.transferCompleted ..) => true
  | _ => false

/-- A turn that has chosen its transfer is not cancelled before it ends, a turn
    does not end with a transfer to be held while another one is, and the news
    that a transfer has completed is that of the call being transferred. -/
def Careful (s : Service) : Label → Prop
  | .servicer .drain => ∀ m ∈ s.servicer.queue.head?, isCancel m.1 = true →
      s.gen.transfer = none ∧ s.servicer.pc.transfers = []
  | .servicer .take => ∀ m ∈ s.servicer.queue.head?, isCompleted m.1 = true →
      (∀ tr ∈ s.outstanding, resolved m.1 ≠ some tr.transferId) ∨
        s.servicer.session.fsm = .transferring
  | .exhaust => s.servicer.pc.defers = true → s.servicer.pendingTransfer = none
  | _ => True

instance (s : Service) : (l : Label) → Decidable (Careful s l)
  | .servicer .drain => inferInstanceAs (Decidable (∀ m ∈ s.servicer.queue.head?, _ → _ ∧ _))
  | .servicer .take => inferInstanceAs
      (Decidable (∀ m ∈ s.servicer.queue.head?, _ → (∀ tr ∈ s.outstanding, _) ∨ _))
  | .exhaust => inferInstanceAs (Decidable (_ → _))
  | .servicer (.greet _) | .servicer (.arrive _) | .servicer (.respond _) | .servicer .deliver
  | .servicer .exhaust | .servicer .fail | .handler _ => inferInstanceAs (Decidable True)

variable {cfg : HandlerConfig} {graph : WorkflowGraph} {render : String → String}
  {textOnly : Bool} {s s' : Service} {l : Label} {x : Servicer × List Output}
  {tr : TransferRequest} {interrupted : Bool}

/-- Where the generator of the handler is, and what it may still yield. -/
def Located (p : Pipeline) (gen : Gen) : Pc → Prop
  | .greeting | .receiving => gen = .idle
  | .speech t phase =>
    -- a turn that was cancelled has nothing in hand
    (t.cancelled = true → p.cancelled = true ∧ gen.transfer = none ∧
      (Pc.speech t phase).transfers = []) ∧
    ((Pc.speech t phase).transfers ≠ [] → gen = .finished) ∧
    (t.turnTransfer ≠ none → phase = .awaiting)
  | .recovery _ => gen = .recovering ∨ gen = .finished
  | .text _ | .closed => True

/-- Whoever holds a transfer can send it, and the one that set the latch is held. -/
structure Kept (graph : WorkflowGraph) (s : Service) : Prop where
  proper : s.pipeline.Proper graph
  located : Located s.pipeline s.gen s.servicer.pc
  destination : ∀ tr, tr ∈ s.gen.transfer ∨ tr ∈ s.servicer.pc.transfers ∨
    tr ∈ s.servicer.pendingTransfer → tr.destination ≠ ""
  latched : s.servicer.over = false → s.pipeline.transferRequested = true →
    ∃ tr ∈ s.accepted, s.Holds tr

/-- The step sets no latch, and drops nothing. -/
theorem Kept.latched_of (h : Kept graph s)
    (hover : s.servicer.over = true → s'.servicer.over = true)
    (hl : s'.pipeline.transferRequested = true → s.pipeline.transferRequested = true)
    (ha : s'.accepted = s.accepted) (hh : ∀ tr, s.Holds tr → s'.Holds tr) :
    s'.servicer.over = false → s'.pipeline.transferRequested = true →
      ∃ tr ∈ s'.accepted, s'.Holds tr := by
  intro ho hl'
  have ho' : s.servicer.over = false := by
    rw [Bool.eq_false_iff]
    intro h
    rw [hover h] at ho
    cases ho
  obtain ⟨tr, htr, hold⟩ := h.latched ho' (hl hl')
  exact ⟨tr, ha ▸ htr, hh tr hold⟩

/-- The servicer moves on with the same in hand. -/
theorem Kept.frame (h : Kept graph s) (sv : Servicer) (hpc : sv.pc = s.servicer.pc)
    (hp : sv.pendingTransfer = s.servicer.pendingTransfer)
    (hover : s.servicer.over = true → sv.over = true) :
    Kept graph { s with servicer := sv } := by
  refine ⟨h.proper, ?_, ?_, h.latched_of hover id rfl fun tr htr => ?_⟩
  · simpa only [hpc] using h.located
  · simpa only [hpc, hp] using h.destination
  · simpa only [Holds, hpc, hp] using htr

/-- What comes of a transfer that was held for the end of playback. -/
theorem consumePendingTransfer_cases (h : tr.destination ≠ "") (interrupted : Bool) :
    consumePendingTransfer tr interrupted = some (.transferRequest tr) ∨
      interrupted = true ∧ consumePendingTransfer tr interrupted = none := by
  rw [consumePendingTransfer]
  split_ifs with hi
  · exact .inr ⟨hi.1, rfl⟩
  · exact .inl rfl

theorem consumePendingTransfer_false (h : tr.destination ≠ "") :
    consumePendingTransfer tr false = some (.transferRequest tr) := by
  rcases consumePendingTransfer_cases h false with hc | ⟨hf, -⟩
  · exact hc
  · cases hf

/-- The end of a playback leaves no transfer held: the one that was is sent, or
    given up. -/
theorem playbackFinished_outputs (interrupted : Bool) (sv : Servicer)
    (h : ∀ tr ∈ sv.pendingTransfer, tr.destination ≠ "") :
    (sv.playbackFinished interrupted).1.pendingTransfer = none ∧
    ((sv.playbackFinished interrupted).2 =
        (sv.pendingTransfer.map fun tr => Output.send (.transferRequest tr)).toList ∨
      (sv.playbackFinished interrupted).2 = [.call .onTransferCancelled]) := by
  rcases hp : sv.pendingTransfer with _ | tr
  · simp only [Servicer.playbackFinished, hp]
    exact ⟨trivial, .inl rfl⟩
  · rcases consumePendingTransfer_cases (h tr hp) interrupted with hc | ⟨rfl, hc⟩
    · simp only [Servicer.playbackFinished, hp, hc]
      exact ⟨trivial, .inl rfl⟩
    · simp only [Servicer.playbackFinished, hp, hc, if_true]
      exact ⟨trivial, .inr rfl⟩

/-- A transfer is given up. -/
theorem proper_abandon {p : Pipeline} (hp : p.Proper graph) :
    ({ p with transferRequested := false, workflow := p.workflow.abandonTransfer } :
      Pipeline).Proper graph :=
  ⟨hp.workflow.abandonTransfer.1, hp.destination,
    fun h => absurd h.1 hp.workflow.abandonTransfer.2⟩

theorem Kept.playbackFinished (h : Kept graph s) {sv : Servicer} (hpc : sv.pc = s.servicer.pc)
    (hp : sv.pendingTransfer = s.servicer.pendingTransfer)
    (hover : s.servicer.over = true → (sv.playbackFinished interrupted).1.over = true) :
    Kept graph (s.follow (sv.playbackFinished interrupted)) := by
  have hpc' : (sv.playbackFinished interrupted).1.pc = s.servicer.pc :=
    (Servicer.playbackFinished_frame interrupted sv).2.2.trans hpc
  have hdest : ∀ tr ∈ sv.pendingTransfer, tr.destination ≠ "" :=
    fun tr htr => h.destination tr (.inr (.inr (hp ▸ htr)))
  obtain ⟨hnone, hout⟩ := playbackFinished_outputs interrupted sv hdest
  generalize sv.playbackFinished interrupted = x at *
  obtain ⟨sv', os⟩ := x
  dsimp only at *
  have hdest' : ∀ tr, tr ∈ s.gen.transfer ∨ tr ∈ sv'.pc.transfers ∨ tr ∈ sv'.pendingTransfer →
      tr.destination ≠ "" := by
    rintro tr (htr | htr | htr)
    · exact h.destination tr (.inl htr)
    · exact h.destination tr (.inr (.inl (hpc' ▸ htr)))
    · rw [hnone] at htr
      cases htr
  rcases hout with rfl | rfl
  · have hs := follow_sends (s := s) sv' (List.forall_mem_nil _) sv.pendingTransfer
    rw [List.nil_append] at hs
    rw [hs]
    refine ⟨h.proper, ?_, hdest', h.latched_of hover id rfl fun tr htr => ?_⟩
    · simpa only [hpc'] using h.located
    · -- what was held is with the gateway now
      simp only [Holds, hpc', hnone, hp, List.mem_append, Option.mem_toList] at htr ⊢
      rcases htr with htr | htr | htr | htr | htr
      · exact .inl htr
      · exact .inr (.inl htr)
      · exact .inr (.inr (.inl htr))
      · exact .inr (.inr (.inr (.inr (.inr htr))))
      · exact .inr (.inr (.inr (.inr (.inl htr))))
  · refine ⟨proper_abandon h.proper, ?_, hdest', fun _ hl => ?_⟩
    · have hloc := h.located
      rw [← hpc'] at hloc
      show Located _ s.gen sv'.pc
      rcases hsv : sv'.pc with _ | _ | ⟨t, phase⟩ | _ | _ | _ <;> rw [hsv] at hloc <;> exact hloc
    · cases hl


/-- The call is over. -/
theorem Kept.closed (h : Kept graph s) (sv : Servicer) (hpc : sv.pc = .closed)
    (hp : sv.pendingTransfer = s.servicer.pendingTransfer) (outstanding : List TransferRequest) :
    Kept graph { s with servicer := sv, outstanding := outstanding } := by
  refine ⟨h.proper, ?_, ?_, fun ho => ?_⟩
  · rw [hpc]
    trivial
  · rintro tr (htr | htr | htr)
    · exact h.destination tr (.inl htr)
    · rw [hpc] at htr
      cases htr
    · exact h.destination tr (.inr (.inr (hp ▸ htr)))
  · simp [Servicer.over, hpc] at ho

/-- A turn begins, with nothing in hand. -/
theorem Kept.beginTurn (h : Kept graph s) (sv : Servicer) (hgen : s.gen.transfer = none)
    (htransfers : s.servicer.pc.transfers = [])
    (hpc : sv.pc = .speech {} .awaiting ∨ sv.pc = .text none)
    (hp : sv.pendingTransfer = s.servicer.pendingTransfer)
    (hover : s.servicer.over = true → sv.over = true) :
    Kept graph { s with
      servicer := sv, pipeline := { s.pipeline with cancelled := false }, gen := .hearing } := by
  have htransfers' : sv.pc.transfers = [] := by rcases hpc with hpc | hpc <;> rw [hpc] <;> rfl
  refine ⟨⟨h.proper.workflow, h.proper.destination, h.proper.latched⟩, ?_, ?_,
    h.latched_of hover id rfl fun tr htr => ?_⟩
  · rcases hpc with hpc | hpc <;> dsimp only <;> rw [hpc]
    · exact ⟨nofun, fun h => absurd rfl h, fun h => absurd rfl h⟩
    · trivial
  · rintro tr (htr | htr | htr)
    · cases htr
    · rw [htransfers'] at htr
      cases htr
    · exact h.destination tr (.inr (.inr (hp ▸ htr)))
  · have hhearing : Gen.hearing.transfer = none := rfl
    simpa only [Holds, hgen, hhearing, htransfers, htransfers', hp] using htr

/-- The servicer receives a message. -/
theorem Kept.receive (h : Kept graph s) {m : Option GatewayMessage × ℕ}
    {queue : List (Option GatewayMessage × ℕ)} (hpc : s.servicer.pc = .receiving)
    (hq : s.servicer.queue = m :: queue) (hg : Careful s (.servicer .take))
    (hover : s.servicer.over = true →
      (Servicer.receive m.1 { s.servicer with queue := queue }).1.over = true) :
    Kept graph ((s.resolve .take).follow
      (Servicer.receive m.1 { s.servicer with queue := queue })) := by
  have hgen : s.gen = .idle := by simpa only [Located, hpc] using h.located
  have hnone : s.gen.transfer = none := by rw [hgen]; rfl
  have htransfers : s.servicer.pc.transfers = [] := by rw [hpc]; rfl
  have hres : s.resolve .take = { s with
      outstanding := s.outstanding.filter fun tr => resolved m.1 ≠ some tr.transferId } := by
    simp [resolve, hq]
  have hsame (hm : resolved m.1 = none) : s.resolve .take = s := by
    rw [hres, hm]
    simp
  obtain ⟨m, n⟩ := m
  rcases m with _ | m
  · rw [hsame rfl]
    exact h.closed (Servicer.teardown { s.servicer with queue := queue }).1 rfl rfl s.outstanding
  · cases m
    case audioChunk payload =>
      rw [hsame rfl, follow_quiet]
      · exact h.frame _ rfl rfl hover
      · simp only [Servicer.receive, ConversationSession.pushAudio]
        split_ifs <;> simp [Servicer.calls, quiet]
    case speechEnded durationMs energyDb =>
      rw [hsame rfl]
      simp only [Servicer.receive] at hover ⊢
      split_ifs at hover ⊢ with hacc
      · exact h.beginTurn _ hnone htransfers (.inl rfl) rfl hover
      · exact h.frame (Servicer.finishTurn {} { s.servicer with queue := queue }).1 hpc.symm rfl hover
    case cancelGeneration traceId =>
      rw [hsame rfl]
      have hp : ({ s.pipeline with cancelled := true } : Pipeline).Proper graph :=
        ⟨h.proper.workflow, h.proper.destination, h.proper.latched⟩
      refine ⟨hp, ?_, h.destination, h.latched_of hover id rfl fun tr htr => htr⟩
      show Located _ s.gen s.servicer.pc
      rw [hpc]
      exact hgen
    case playbackFinished interrupted =>
      rw [hsame rfl]
      exact h.playbackFinished rfl rfl hover
    case transferInitiated =>
      rw [hsame rfl]
      exact h.frame _ rfl rfl hover
    case transferCompleted destination transferId =>
      -- the call is over, or the transfer was none of this call
      rcases hg _ (by rw [hq]; rfl) rfl with hnone' | hfsm
      · have hfilter : s.resolve .take = s := by
          rw [hres, List.filter_eq_self.2 (by simpa using hnone')]
        rw [hfilter]
        exact h.frame _ rfl rfl hover
      · have hover' : ({ s.servicer with
            queue := queue, session := s.servicer.session.onTransferCompleted.1 } :
            Servicer).over = true := by
          simp only [Servicer.over, ConversationSession.onTransferCompleted, hfsm]
          exact decide_eq_true (.inr rfl)
        refine ⟨h.proper, h.located, h.destination, fun ho => ?_⟩
        rw [Bool.eq_false_iff] at ho
        exact absurd hover' ho
    case transferFailed destination reason transferId =>
      refine ⟨?_, .inl rfl, ?_, fun _ hl => ?_⟩
      · exact ⟨h.proper.workflow.abandonTransfer.1, h.proper.destination,
          fun h' => absurd h'.1 h.proper.workflow.abandonTransfer.2⟩
      · rintro tr (htr | htr | htr)
        · cases htr
        · cases htr
        · exact h.destination tr (.inr (.inr htr))
      · cases hl
    case textInput text =>
      rw [hsame rfl]
      simp only [Servicer.receive] at hover ⊢
      split_ifs at hover ⊢ with hacc
      · exact h.beginTurn _ hnone htransfers (.inr rfl) rfl hover
      · exact h.frame _ rfl rfl hover
    case other =>
      rw [hsame rfl]
      exact h.frame _ rfl rfl hover


/-- A spoken turn moves on with the same transfers in hand. -/
theorem Kept.speech (h : Kept graph s) {t t' : SpeechTurn} {phase phase' : Phase} (sv : Servicer)
    (hpc : s.servicer.pc = .speech t phase) (hpc' : sv.pc = .speech t' phase')
    (ht : (Pc.speech t' phase').transfers = (Pc.speech t phase).transfers)
    (hc : t'.cancelled = t.cancelled) (hturn : t'.turnTransfer ≠ none → phase' = .awaiting)
    (hp : sv.pendingTransfer = s.servicer.pendingTransfer)
    (hover : s.servicer.over = true → sv.over = true) :
    Kept graph { s with servicer := sv } := by
  have htransfers : sv.pc.transfers = s.servicer.pc.transfers := by rw [hpc, hpc', ht]
  obtain ⟨hcancelled, hfinished, -⟩ : Located s.pipeline s.gen (.speech t phase) := hpc ▸ h.located
  refine ⟨h.proper, ?_, ?_, h.latched_of hover id rfl fun tr htr => ?_⟩
  · rw [← ht] at hcancelled hfinished
    rw [← hc] at hcancelled
    dsimp only
    rw [hpc']
    exact ⟨hcancelled, hfinished, hturn⟩
  · simpa only [htransfers, hp] using h.destination
  · simpa only [Holds, htransfers, hp] using htr

/-- A spoken turn is cancelled, with nothing in hand. -/
theorem Kept.cancel (h : Kept graph s) {t : SpeechTurn} {phase : Phase} (sv : Servicer)
    (hpc : sv.pc = .speech t phase) (hgen : s.gen.transfer = none)
    (hs : s.servicer.pc.transfers = []) (ht : (Pc.speech t phase).transfers = [])
    (hp : sv.pendingTransfer = s.servicer.pendingTransfer)
    (hover : s.servicer.over = true → sv.over = true) :
    Kept graph { s with servicer := sv, pipeline := { s.pipeline with cancelled := true } } := by
  refine ⟨⟨h.proper.workflow, h.proper.destination, h.proper.latched⟩, ?_, ?_,
    h.latched_of hover id rfl fun tr htr => ?_⟩
  · dsimp only
    rw [hpc]
    refine ⟨fun _ => ⟨rfl, hgen, ht⟩, fun h => absurd ht h, fun h => ?_⟩
    have hturn : t.turnTransfer = none := by simp_all [Pc.transfers]
    exact absurd hturn h
  · simpa only [hpc, ht, hs, hp] using h.destination
  · simpa only [Holds, hpc, ht, hs, hp] using htr

/-- A turn that is streaming takes a message. -/
theorem Kept.drain (h : Kept graph s) {t : SpeechTurn} {r : HandlerResponse}
    {m : Option GatewayMessage × ℕ} {queue : List (Option GatewayMessage × ℕ)}
    (hpc : s.servicer.pc = .speech t (.draining r)) (hq : s.servicer.queue = m :: queue)
    (hg : Careful s (.servicer .drain))
    (hover : s.servicer.over = true →
      (Servicer.drainOne t r m { s.servicer with queue := queue }).1.over = true) :
    Kept graph (s.follow (Servicer.drainOne t r m { s.servicer with queue := queue })) := by
  have hturn : t.turnTransfer ≠ none → Phase.delivering r = .awaiting := by
    intro hne
    have hloc : Located s.pipeline s.gen (.speech t (.draining r)) := hpc ▸ h.located
    cases hloc.2.2 hne
  have hcancel (hm : isCancel m.1 = true) : s.gen.transfer = none ∧ s.servicer.pc.transfers = [] :=
    hg m (by rw [hq]; rfl) hm
  obtain ⟨m, n⟩ := m
  rcases m with _ | m
  · obtain ⟨hgen, hs⟩ := hcancel rfl
    exact h.cancel _ rfl hgen hs (by rw [hpc] at hs; exact hs) rfl hover
  · cases m
    case cancelGeneration traceId =>
      obtain ⟨hgen, hs⟩ := hcancel rfl
      exact h.cancel _ rfl hgen hs (by rw [hpc] at hs; exact hs) rfl hover
    case playbackFinished interrupted => exact h.playbackFinished rfl rfl hover
    case audioChunk payload =>
      rw [follow_quiet]
      · simp only [Servicer.drainOne] at hover ⊢
        split_ifs at hover ⊢
        · exact h.frame _ rfl rfl hover
        · exact h.frame _ rfl rfl hover
      · simp only [Servicer.drainOne, ConversationSession.pushAudio]
        split_ifs <;> simp [Servicer.calls, quiet]
    case textInput text => exact h.frame _ rfl rfl hover
    case other => exact h.frame _ rfl rfl hover
    -- the rest is put back for the outer loop
    all_goals exact h.speech _ hpc rfl rfl rfl hturn rfl hover

/-- A response is sent, and its transfer, unless the turn is cancelled, is the one
    of the turn. -/
theorem Kept.deliver (h : Kept graph s) {t : SpeechTurn} {r : HandlerResponse} {phase : Phase}
    (hphase : phase = .draining r ∨ phase = .delivering r)
    (hpc : s.servicer.pc = .speech t phase)
    (hover : s.servicer.over = true → (Servicer.deliver t r s.servicer).1.over = true) :
    Kept graph (s.follow (Servicer.deliver t r s.servicer)) := by
  have hr : phase.transfer = r.transferRequest := by rcases hphase with rfl | rfl <;> rfl
  obtain ⟨hcancelled, -, hturn⟩ : Located s.pipeline s.gen (.speech t phase) := hpc ▸ h.located
  have hnone : t.turnTransfer = none := by
    by_contra hne
    rcases hphase with rfl | rfl <;> cases hturn hne
  rw [follow_quiet]
  · rw [Servicer.deliver_frame] at hover ⊢
    refine h.speech _ hpc rfl ?_ ?_ (fun _ => rfl) rfl hover
    · split_ifs with hc
      · have ht := (hcancelled hc).2.2
        simp_all [Pc.transfers, Phase.transfer]
      · have hawaiting : Phase.awaiting.transfer = none := rfl
        simp [Pc.transfers, hawaiting, SpeechTurn.note, hnone, hr]
    · split_ifs <;> rfl
  · rw [Servicer.deliver]
    split_ifs
    · simp
    · intro o ho
      rcases List.mem_append.1 ho with ho | ho
      · exact quiet_textOutputs _ _ ho
      · exact quiet_ttsOutputs _ _ _ ho

/-- The servicer takes a step of its own. -/
theorem Kept.servicer (h : Kept graph s) {l : Servicer.Label} {x : Servicer × List Output}
    (hl : (∀ r, l ≠ .respond r) ∧ l ≠ .exhaust) (hg : Careful s (.servicer l))
    (hst : s.servicer.step l = some x) : Kept graph ((s.resolve l).follow x) := by
  have hover := Servicer.step_over hst
  rcases l with payloads | m | _ | r | _ | _ | _ | _
  · simp only [Servicer.step] at hst
    split_ifs at hst with hpc
    obtain rfl := Option.some.inj hst
    rw [follow_quiet (quiet_greetingOutputs payloads)]
    have hgen : s.gen = .idle := by simpa only [Located, hpc] using h.located
    have htransfers : Pc.receiving.transfers = s.servicer.pc.transfers := by rw [hpc]; rfl
    refine ⟨h.proper, hgen, ?_, h.latched_of hover id rfl fun tr htr => ?_⟩
    · dsimp only
      rw [htransfers]
      exact h.destination
    · show tr ∈ s.pipeline.pendingTransfer ∨ tr ∈ s.gen.transfer ∨ tr ∈ Pc.receiving.transfers ∨ _
      rw [htransfers]
      exact htr
  · simp only [Servicer.step] at hst
    split_ifs at hst
    obtain rfl := Option.some.inj hst
    exact h.frame _ rfl rfl hover
  · simp only [Servicer.step] at hst
    split at hst
    case h_1 m queue hpc hq =>
      obtain rfl := Option.some.inj hst
      exact h.receive hpc hq hg hover
    case h_2 => cases hst
  · exact absurd rfl (hl.1 r)
  · simp only [Servicer.step] at hst
    split at hst
    case h_1 t r m queue hpc hq =>
      obtain rfl := Option.some.inj hst
      exact h.drain hpc hq hg hover
    case h_2 => cases hst
  · simp only [Servicer.step] at hst
    split at hst
    case h_1 t r hpc =>
      split_ifs at hst
      obtain rfl := Option.some.inj hst
      exact h.deliver (.inl rfl) hpc hover
    case h_2 t r hpc =>
      obtain rfl := Option.some.inj hst
      exact h.deliver (.inr rfl) hpc hover
    case h_3 => cases hst
  · exact absurd rfl hl.2
  · simp only [Servicer.step] at hst
    split_ifs at hst
    obtain rfl := Option.some.inj hst
    exact h.closed s.servicer.teardown.1 rfl rfl s.outstanding


/-- The handler moves on: what it held is held, or yielded. -/
theorem Kept.latched_advance (h : Kept graph s) {p : Pipeline} {gen : Gen}
    {response : Option HandlerResponse}
    (hadv : Pipeline.Advances graph s.pipeline s.gen p gen response)
    (hover : s.servicer.over = true → s'.servicer.over = true)
    (hp : s'.pipeline = p) (hgen : s'.gen = gen) (ha : s'.accepted = (s.advance p gen).accepted)
    (hh : ∀ tr, tr ∈ s.servicer.pc.transfers ∨ tr ∈ s.servicer.pendingTransfer ∨
      tr ∈ s.outstanding ∨ (∃ r ∈ response, tr ∈ r.transferRequest) → s'.Holds tr) :
    s'.servicer.over = false → s'.pipeline.transferRequested = true →
      ∃ tr ∈ s'.accepted, s'.Holds tr := by
  intro ho hl
  subst hp hgen
  by_cases hl' : s.pipeline.transferRequested = true
  · have ha' : s'.accepted = s.accepted := by rw [ha, advance]; simp [hl']
    have ho' : s.servicer.over = false := by
      rw [Bool.eq_false_iff]
      intro h
      rw [hover h] at ho
      cases ho
    obtain ⟨tr, htr, hold⟩ := h.latched ho' hl'
    refine ⟨tr, ha' ▸ htr, ?_⟩
    rcases hold with hold | hold | hold | hold | hold
    · rcases hadv.kept hl' tr hold with hold | hold
      · exact .inl hold
      · exact .inr (.inl hold)
    · rcases hadv.announced tr hold with ⟨hold, -⟩ | ⟨-, r, hr, hrt⟩
      · exact .inr (.inl hold)
      · exact hh tr (.inr (.inr (.inr ⟨r, hr, hrt⟩)))
    · exact hh tr (.inl hold)
    · exact hh tr (.inr (.inl hold))
    · exact hh tr (.inr (.inr (.inl hold)))
  · rcases hadv.latched hl with hl | ⟨tr, htr⟩
    · exact absurd hl hl'
    · refine ⟨tr, ?_, ?_⟩
      · rw [ha, advance]
        simpa [hl', hl] using htr
      · rcases Option.or_eq_some_iff.1 htr with htr | ⟨-, htr⟩
        · exact .inr (.inl htr)
        · exact .inl htr

/-- The handler takes a step, and yields no response. -/
theorem Kept.advance (h : Kept graph s) (hpc : s.servicer.pc.awaits = true) {p : Pipeline} {gen : Gen}
    (hadv : Pipeline.Advances graph s.pipeline s.gen p gen none) :
    Kept graph (s.advance p gen) := by
  have hchosen : ∀ tr ∈ gen.transfer, tr ∈ s.gen.transfer ∨
      tr.destination ≠ "" ∧ s.pipeline.cancelled = false := hadv.chosen
  refine ⟨hadv.proper, ?_, ?_, h.latched_advance hadv id rfl rfl rfl fun tr htr => ?_⟩
  · show Located p gen s.servicer.pc
    have hloc := h.located
    rcases hsv : s.servicer.pc with _ | _ | ⟨t, phase⟩ | _ | _ | _ <;> rw [hsv] at hloc hpc
    · cases hpc
    · cases hpc
    · obtain ⟨hcancelled, hfinished, hturn⟩ := hloc
      refine ⟨fun hc => ?_, fun ht => absurd (hfinished ht) hadv.unfinished.2, hturn⟩
      obtain ⟨hpc', hgen, ht⟩ := hcancelled hc
      refine ⟨hadv.cancelled.trans hpc', ?_, ht⟩
      rcases hg : gen.transfer with _ | tr
      · rfl
      · rcases hchosen tr hg with htr | ⟨-, hc⟩
        · rw [hgen] at htr
          cases htr
        · rw [hpc'] at hc
          cases hc
    · trivial
    · rcases hloc with hloc | hloc
      · exact hadv.recovering hloc
      · exact absurd hloc hadv.unfinished.2
    · cases hpc
  · rintro tr (htr | htr)
    · rcases hchosen tr htr with htr | ⟨hd, -⟩
      · exact h.destination tr (.inl htr)
      · exact hd
    · exact h.destination tr (.inr htr)
  · rcases htr with htr | htr | htr | ⟨r, hr, -⟩
    · exact .inr (.inr (.inl htr))
    · exact .inr (.inr (.inr (.inl htr)))
    · exact .inr (.inr (.inr (.inr htr)))
    · cases hr


/-- It yields a response. -/
theorem Kept.respond (h : Kept graph s) {p : Pipeline} {gen : Gen} {r : HandlerResponse}
    (hadv : Pipeline.Advances graph s.pipeline s.gen p gen (some r))
    (hr : s.servicer.respond r = some x)
    (hover : s.servicer.over = true → x.1.over = true) :
    Kept graph ((s.advance p gen).follow x) := by
  have hchosen : ∀ tr ∈ gen.transfer, tr ∈ s.gen.transfer ∨
      tr.destination ≠ "" ∧ s.pipeline.cancelled = false := hadv.chosen
  -- the transfer that is yielded is the one that was announced
  have hyield : ∀ tr ∈ r.transferRequest, tr ∈ s.gen.transfer ∧ gen = .finished := by
    intro tr htr
    rcases hgen : s.gen.transfer with _ | tr'
    · have hnone := hadv.silent hgen r rfl
      rw [hnone] at htr
      cases htr
    · rcases hadv.announced tr' hgen with ⟨-, hnone⟩ | ⟨hfin, r', hr', htr'⟩
      · rw [hnone r rfl] at htr
        cases htr
      · rw [← Option.some.inj hr', htr] at htr'
        exact ⟨htr'.symm, hfin⟩
  have hgendest : ∀ tr ∈ gen.transfer, tr.destination ≠ "" := by
    intro tr htr
    rcases hchosen tr htr with htr | ⟨hd, -⟩
    · exact h.destination tr (.inl htr)
    · exact hd
  have hyielddest : ∀ tr ∈ r.transferRequest, tr.destination ≠ "" :=
    fun tr htr => h.destination tr (.inl (hyield tr htr).1)
  have hloc := h.located
  simp only [Servicer.respond] at hr
  split at hr
  case h_1 t hpc =>
    obtain rfl := Option.some.inj hr
    rw [hpc] at hloc
    obtain ⟨hcancelled, hfinished, -⟩ := hloc
    have hnone : t.turnTransfer = none := by
      by_contra hne
      refine hadv.unfinished.2 (hfinished ?_)
      simpa [Pc.transfers] using fun _ => hne
    have htransfers : s.servicer.pc.transfers = [] := by
      rw [hpc]
      simp [Pc.transfers, Phase.transfer, hnone]
    refine ⟨hadv.proper, ⟨fun hc => ?_, fun ht => ?_, fun ht => absurd hnone ht⟩, ?_,
      h.latched_advance hadv hover rfl rfl rfl fun tr htr => ?_⟩
    · obtain ⟨hpc', hgen, -⟩ := hcancelled hc
      have hgen' : gen.transfer = none := by
        rcases hg : gen.transfer with _ | tr
        · rfl
        · rcases hchosen tr hg with htr | ⟨-, hc⟩
          · rw [hgen] at htr
            cases htr
          · rw [hpc'] at hc
            cases hc
      refine ⟨hadv.cancelled.trans hpc', hgen', ?_⟩
      rcases hrt : r.transferRequest with _ | tr
      · simp [Pc.transfers, Phase.transfer, hnone, hrt]
      · have htr := (hyield tr hrt).1
        rw [hgen] at htr
        cases htr
    · rcases hrt : r.transferRequest with _ | tr
      · exact absurd (by simp [Pc.transfers, Phase.transfer, hnone, hrt]) ht
      · exact (hyield tr hrt).2
    · rintro tr (htr | htr | htr)
      · exact hgendest tr htr
      · have htr' : tr ∈ r.transferRequest := by
          simpa [follow, advance, Pc.transfers, Phase.transfer, hnone] using htr
        exact hyielddest tr htr'
      · exact h.destination tr (.inr (.inr htr))
    · rcases htr with htr | htr | htr | ⟨r', hr', htr⟩
      · rw [htransfers] at htr
        cases htr
      · exact .inr (.inr (.inr (.inl htr)))
      · exact .inr (.inr (.inr (.inr htr)))
      · obtain rfl := Option.some.inj hr'
        refine .inr (.inr (.inl ?_))
        simpa [follow, advance, Pc.transfers, Phase.transfer, hnone] using htr
  case h_2 endCall hpc =>
    obtain rfl := Option.some.inj hr
    have hsends : (r.transferRequest.bind fun tr => consumePendingTransfer tr false).map Output.send =
        r.transferRequest.map fun tr => Output.send (.transferRequest tr) := by
      rcases hrt : r.transferRequest with _ | tr
      · rfl
      · simp [consumePendingTransfer_false (hyielddest tr hrt)]
    have hquiet : ∀ o ∈ Servicer.textOutputs r ++ (if r.agentText ≠ "" ∨ r.turnComplete then
        [Output.send (.agentText r.agentText)] else []), quiet o = true := by
      intro o ho
      rcases List.mem_append.1 ho with ho | ho
      · exact quiet_textOutputs r o ho
      · split_ifs at ho <;> cases ho
        · rfl
        · contradiction
    simp only [Servicer.respondText] at hover ⊢
    rw [hsends, follow_sends _ hquiet]
    refine ⟨hadv.proper, trivial, ?_, h.latched_advance hadv hover rfl rfl rfl fun tr htr => ?_⟩
    · rintro tr (htr | htr | htr)
      · exact hgendest tr htr
      · cases htr
      · exact h.destination tr (.inr (.inr htr))
    · rcases htr with htr | htr | htr | ⟨r', hr', htr⟩
      · rw [hpc] at htr
        cases htr
      · exact .inr (.inr (.inr (.inl htr)))
      · exact .inr (.inr (.inr (.inr (List.mem_append_left _ htr))))
      · obtain rfl := Option.some.inj hr'
        exact .inr (.inr (.inr (.inr (List.mem_append_right _ (Option.mem_toList.2 htr)))))
  case h_3 anyAudio hpc =>
    obtain rfl := Option.some.inj hr
    rw [hpc] at hloc
    have hrec : s.gen = .recovering := by
      rcases hloc with hloc | hloc
      · exact hloc
      · exact absurd hloc hadv.unfinished.2
    have hnone : r.transferRequest = none := by
      have hgen : s.gen.transfer = none := by rw [hrec]; rfl
      exact hadv.silent hgen r rfl
    rw [follow_quiet (quiet_ttsOutputs _ _)]
    refine ⟨hadv.proper, hadv.recovering hrec, ?_,
      h.latched_advance hadv hover rfl rfl rfl fun tr htr => ?_⟩
    · rintro tr (htr | htr | htr)
      · exact hgendest tr htr
      · cases htr
      · exact h.destination tr (.inr (.inr htr))
    · rcases htr with htr | htr | htr | ⟨r', hr', htr⟩
      · rw [hpc] at htr
        cases htr
      · exact .inr (.inr (.inr (.inl htr)))
      · exact .inr (.inr (.inr (.inr htr)))
      · rw [← Option.some.inj hr', hnone] at htr
        cases htr
  case h_4 => cases hr

/-- A generator has ended, and what its turn had in hand is held or sent. -/
theorem Kept.finish (h : Kept graph s) (hgen : s.gen.transfer = none) (sv : Servicer)
    (hpc : sv.pc = .receiving) (outstanding : List TransferRequest)
    (hdest : ∀ tr ∈ sv.pendingTransfer, tr.destination ≠ "")
    (hh : ∀ tr, tr ∈ s.servicer.pc.transfers ∨ tr ∈ s.servicer.pendingTransfer ∨
      tr ∈ s.outstanding → tr ∈ sv.pendingTransfer ∨ tr ∈ outstanding)
    (hover : s.servicer.over = true → sv.over = true) :
    Kept graph { s with servicer := sv, gen := .idle, outstanding := outstanding } := by
  refine ⟨h.proper, ?_, ?_, h.latched_of hover id rfl fun tr htr => ?_⟩
  · dsimp only
    rw [hpc]
    rfl
  · rintro tr (htr | htr | htr)
    · cases htr
    · dsimp only at htr
      rw [hpc] at htr
      cases htr
    · exact hdest tr htr
  · rcases htr with htr | htr | htr
    · exact .inl htr
    · rw [hgen] at htr
      cases htr
    · exact .inr (.inr (.inr (hh tr htr)))

/-- A spoken turn ends. -/
theorem Kept.finishTurn (h : Kept graph s) (hgen : s.gen = .finished) {t : SpeechTurn}
    (hpc : s.servicer.pc = .speech t .awaiting) (hg : Careful s .exhaust)
    (session : ConversationSession)
    (hover : s.servicer.over = true →
      (Servicer.finishTurn t { s.servicer with session := session }).1.over = true) :
    Kept graph (({ s with gen := .idle } : Service).follow
      (Servicer.finishTurn t { s.servicer with session := session })) := by
  have hnone : s.gen.transfer = none := by rw [hgen]; rfl
  have hpend : ∀ tr ∈ s.servicer.pendingTransfer, tr.destination ≠ "" :=
    fun tr htr => h.destination tr (.inr (.inr htr))
  have htransfers : s.servicer.pc.transfers = t.turnTransfer.toList := by
    rw [hpc]
    rfl
  have hsame (hturn : t.turnTransfer = none) : ∀ tr, tr ∈ s.servicer.pc.transfers ∨
      tr ∈ s.servicer.pendingTransfer ∨ tr ∈ s.outstanding →
        tr ∈ s.servicer.pendingTransfer ∨ tr ∈ s.outstanding := by
    rintro tr (htr | htr)
    · rw [htransfers, hturn] at htr
      cases htr
    · exact htr
  by_cases hc : t.cancelled = true
  · obtain ⟨hcancelled, -, -⟩ : Located s.pipeline s.gen (.speech t .awaiting) := hpc ▸ h.located
    have hturn : t.turnTransfer = none := by simpa [Pc.transfers, Phase.transfer] using (hcancelled hc).2.2
    simp only [Servicer.finishTurn, hc, if_true] at hover ⊢
    exact h.finish hnone _ rfl s.outstanding hpend (hsame hturn) hover
  · rcases hturn : t.turnTransfer with _ | tr
    · simp only [Servicer.finishTurn, hc, hturn] at hover ⊢
      rw [follow_quiet (quiet_tailOutputs t)]
      exact h.finish hnone _ rfl s.outstanding hpend (hsame hturn) hover
    · have hdest : tr.destination ≠ "" :=
        h.destination tr (.inr (.inl (by rw [htransfers, hturn]; exact List.mem_singleton_self tr)))
      by_cases htts : t.ttsStartedSent = true
      · -- the slot is free
        have hfree : s.servicer.pendingTransfer = none := by
          refine hg ?_
          rw [hpc]
          simp [Pc.defers, hturn, htts, hc]
        simp only [Servicer.finishTurn, hc, hturn, htts, if_true] at hover ⊢
        rw [follow_quiet (quiet_tailOutputs t)]
        refine h.finish hnone _ rfl s.outstanding (fun tr' htr => Option.some.inj htr ▸ hdest) ?_ hover
        rintro tr' (htr | htr | htr)
        · rw [htransfers, hturn] at htr
          exact .inl (Option.mem_toList.1 htr)
        · rw [hfree] at htr
          cases htr
        · exact .inr htr
      · simp only [Servicer.finishTurn, hc, hturn, htts, Bool.false_eq_true, if_false,
          consumePendingTransfer_false hdest] at hover ⊢
        show Kept graph (Service.follow _ (_, Servicer.tailOutputs t ++
          ((some tr).map fun tr => Output.send (.transferRequest tr)).toList))
        rw [follow_sends _ (quiet_tailOutputs t)]
        refine h.finish hnone _ rfl (s.outstanding ++ (some tr).toList) hpend ?_ hover
        rintro tr' (htr | htr | htr)
        · rw [htransfers, hturn] at htr
          exact .inr (List.mem_append_right _ htr)
        · exact .inl htr
        · exact .inr (List.mem_append_left _ htr)

theorem Kept.exhaust (h : Kept graph s) (hgen : s.gen = .finished) (hg : Careful s .exhaust)
    (hx : s.servicer.exhaust = some x) (hover : s.servicer.over = true → x.1.over = true) :
    Kept graph (({ s with gen := .idle } : Service).follow x) := by
  have hnone : s.gen.transfer = none := by rw [hgen]; rfl
  have hpend : ∀ tr ∈ s.servicer.pendingTransfer, tr.destination ≠ "" :=
    fun tr htr => h.destination tr (.inr (.inr htr))
  have hsame (htransfers : s.servicer.pc.transfers = []) : ∀ tr, tr ∈ s.servicer.pc.transfers ∨
      tr ∈ s.servicer.pendingTransfer ∨ tr ∈ s.outstanding →
        tr ∈ s.servicer.pendingTransfer ∨ tr ∈ s.outstanding := by
    rintro tr (htr | htr)
    · rw [htransfers] at htr
      cases htr
    · exact htr
  simp only [Servicer.exhaust] at hx
  split at hx
  case h_1 t hpc =>
    obtain rfl := Option.some.inj hx
    exact h.finishTurn hgen hpc hg _ hover
  case h_2 endCall hpc =>
    obtain rfl := Option.some.inj hx
    rw [follow_quiet]
    · exact h.finish hnone _ rfl s.outstanding hpend (hsame (by rw [hpc]; rfl)) hover
    · rcases endCall with _ | gracePeriodMs <;> simp [quiet]
  case h_3 anyAudio hpc =>
    obtain rfl := Option.some.inj hx
    rw [follow_quiet]
    · exact h.finish hnone _ rfl s.outstanding hpend (hsame (by rw [hpc]; rfl)) hover
    · cases anyAudio <;> simp [quiet]
  case h_4 => cases hx

/-- A step that meets the guard drops no transfer. -/
theorem Kept.step (h : Kept graph s) (hg : Careful s l)
    (hst : Service.step cfg graph render s l = some s') : Kept graph s' := by
  rcases l with l | x | _
  · have hl : (∀ r, l ≠ .respond r) ∧ l ≠ .exhaust := by
      constructor
      · rintro r rfl
        cases hst
      · rintro rfl
        cases hst
    have hst' : (s.servicer.step l).map (s.resolve l).follow = some s' := by
      cases l <;> first | exact hst | cases hst
    obtain ⟨x, hx, rfl⟩ := Option.map_eq_some_iff.1 hst'
    exact h.servicer hl hg hx
  · simp only [Service.step] at hst
    split_ifs at hst with hpc
    obtain ⟨⟨p, gen, response⟩, hp, hst⟩ := Option.bind_eq_some_iff.1 hst
    have hadv := Pipeline.step_advances h.proper hp
    rcases response with _ | r
    · obtain rfl := Option.some.inj hst
      exact h.advance hpc hadv
    · obtain ⟨x, hx, rfl⟩ := Option.map_eq_some_iff.1 hst
      exact h.respond hadv hx (Servicer.step_over (l := .respond r) hx)
  · simp only [Service.step] at hst
    split_ifs at hst with hgen
    obtain ⟨x, hx, rfl⟩ := Option.map_eq_some_iff.1 hst
    exact h.exhaust hgen hg hx (Servicer.step_over (l := .exhaust) hx)

theorem kept_init : Kept graph (system cfg graph render textOnly).init := by
  refine ⟨⟨WorkflowRunner.proper_init graph, Pipeline.absent, fun hp => ?_⟩, rfl, ?_, fun _ hl => ?_⟩
  · have ht : graph.start.type = .transfer := hp.1
    rw [graph.start_type] at ht
    cases ht
  · rintro tr (htr | htr | htr) <;> cases htr
  · cases hl

/-- In a call whose steps all meet the guard, and until it is over, the transfer
    that set the latch is held by the handler, the servicer or the gateway; while
    none is, the latch is clear, and the caller does not wait on a transfer node. -/
theorem reachable_held (hs : (system cfg graph render textOnly).ReachableIf Careful s)
    (hover : s.servicer.over = false) :
    (s.pipeline.transferRequested = true → ∃ tr ∈ s.accepted, s.Holds tr) ∧
    ((∀ tr, ¬s.Holds tr) → s.pipeline.transferRequested = false ∧ ¬s.pipeline.Parked) := by
  have h : Kept graph s :=
    hs.invariant (I := Kept graph) kept_init fun _ _ _ hk hg hst => hk.step hg hst
  have hlatched := h.latched hover
  refine ⟨hlatched, fun hnone => ?_⟩
  have hl : ¬s.pipeline.transferRequested = true := by
    intro hl
    obtain ⟨tr, -, hold⟩ := hlatched hl
    exact hnone tr hold
  exact ⟨by simpa using hl, fun hp => hl (h.proper.latched hp)⟩


/-- An agent that transfers calls, and a conversation of a single step. -/
private def desk : HandlerConfig where
  sessionId := "s1"
  tenantId := "t1"
  callId := "c1"
  transferTypeDefault := "cold"
  transferDestinationDefault := some "1001"
  escalationThreshold := none

private def greeting : WorkflowGraph where
  nodes := [{ id := "start", type := .start, name := "greeting" }]
  start := { id := "start", type := .start, name := "greeting" }
  start_mem := List.mem_singleton_self _
  start_type := rfl
  outEdges_of_isTerminal := by
    intro n hn _
    rw [List.mem_singleton.1 hn]

private def deskSystem : System Service Label := system desk greeting id false

/-- The caller asks for a human, and the model, after a word if it `speaks`, for
    a transfer; the turn is about to yield it. -/
private def asked (speaks : Bool) : List Label :=
  ([.servicer (.greet []), .servicer (.arrive (some (.speechEnded 900 0))), .servicer .take,
    .handler (.stt "a human, please" 1), .servicer .deliver, .handler (.start false false "x0"),
    .handler (.directive ⟨.cold, "1001", "caller asked"⟩)] : List Label) ++
  (if speaks then [.handler (.audio [0]), .servicer .deliver] else [] : List Label) ++
  ([.handler (.stop false "x0"), .handler .report, .servicer .deliver,
    .handler (.decide "x1" "w1"), .handler .emit] : List Label)

/-- The transfer waits for the end of playback. -/
theorem reachable_held_waiting : ∃ s, deskSystem.Reachable s ∧
    s.pipeline.transferRequested = true ∧ s.servicer.pendingTransfer ≠ none ∧
    ∃ tr ∈ s.accepted, s.Holds tr := by
  have hexec : (deskSystem.execIf Careful deskSystem.init
      (asked true ++ ([.servicer .deliver, .exhaust] : List Label))).map (fun s => decide
        (s.servicer.over = false ∧ s.pipeline.transferRequested = true ∧
          s.servicer.pendingTransfer ≠ none)) = some true := by
    decide
  obtain ⟨s, hs, hr⟩ := Option.map_eq_some_iff.1 hexec
  have hs : deskSystem.ReachableIf Careful s := System.ReachableIf.execIf .init hs
  obtain ⟨hover, hl, hp⟩ := of_decide_eq_true hr
  exact ⟨s, hs.reachable, hl, hp, (reachable_held hs hover).1 hl⟩

/-- The caller speaks just before the transfer that was chosen is taken note of:
    it is dropped, and the latch turns down any other. -/
theorem not_reachable_held : ¬∀ s, deskSystem.Reachable s → s.servicer.over = false →
    s.pipeline.transferRequested = true → ∃ tr ∈ s.accepted, s.Holds tr := by
  intro h
  have hexec : (deskSystem.exec deskSystem.init (asked false ++
      ([.servicer (.arrive (some (.cancelGeneration "t1"))), .servicer .drain, .servicer .deliver,
        .exhaust] : List Label))).map (fun s => decide
        (s.servicer.over = false ∧ s.pipeline.transferRequested = true ∧
          s.pipeline.pendingTransfer = none ∧ s.gen = .idle ∧ s.servicer.pc = .receiving ∧
          s.servicer.pendingTransfer = none ∧ s.outstanding = [])) = some true := by
    decide
  obtain ⟨s, hs, hr⟩ := Option.map_eq_some_iff.1 hexec
  obtain ⟨hover, hl, hpending, hgen, hpc, hheld, hout⟩ := of_decide_eq_true hr
  obtain ⟨tr, -, hold⟩ := h s (System.Reachable.exec .init hs) hover hl
  rw [Holds, hpending, hgen, hpc, hheld, hout] at hold
  rcases hold with hold | hold | hold | hold | hold <;> cases hold

end Service

end Yuviz.Conversation
