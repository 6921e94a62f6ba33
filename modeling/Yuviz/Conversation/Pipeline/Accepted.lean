import Mathlib
import Yuviz.Conversation.Pipeline.Turn

/-!
# What the pipeline does with accepted transfers

An accepted transfer sets the latch, and is kept by the handler (as pending, or
by its generator) until it is yielded: a step of a turn keeps it
(`Pipeline.Advances`).
-/

namespace Yuviz.Conversation

/-- The transfer a generator is about to yield. -/
def Gen.transfer : Gen → Option TransferRequest
  | .announcing tr _ => some tr
  | _ => none

namespace Pipeline

/-- The workflow waits on a transfer node, with nothing to be done about it. -/
def Parked (p : Pipeline) : Prop :=
  p.workflow.node.type = .transfer ∧ p.workflow.pendingTransfer = none

instance (p : Pipeline) : Decidable p.Parked := inferInstanceAs (Decidable (_ ∧ _))

/-- The handler of a call: what it keeps can be sent, and it only waits on a
    transfer node for an accepted transfer. -/
structure Proper (graph : WorkflowGraph) (p : Pipeline) : Prop where
  workflow : p.workflow.Proper graph
  destination : ∀ tr ∈ p.pendingTransfer, tr.destination ≠ ""
  latched : p.Parked → p.transferRequested = true

variable {cfg : HandlerConfig} {graph : WorkflowGraph} {render : String → String}
  {p p' : Pipeline} {gen gen' : Gen} {x : Step} {response : Option HandlerResponse}
  {request : Option TransferRequest} {transferId workflowId : String}

/-- The transfers that are accepted or come up between `p` and `p'`, one of which
    may be `request`. -/
structure Accepts (graph : WorkflowGraph) (p p' : Pipeline) (request : Option TransferRequest) :
    Prop where
  proper : p'.Proper graph
  cancelled : p'.cancelled = p.cancelled
  mono : p.transferRequested = true → p'.transferRequested = true
  /-- What is pending is not displaced while the latch is set. -/
  kept : p.transferRequested = true → ∀ tr ∈ p.pendingTransfer,
    tr ∈ p'.pendingTransfer ∨ tr ∈ request
  latched : p'.transferRequested = true → p.transferRequested = true ∨
    ∃ tr, request.or p'.pendingTransfer = some tr
  destination : ∀ tr ∈ request, tr.destination ≠ ""

/-- Nothing is said of what is not there. -/
theorem absent {α : Type*} {P : α → Prop} : ∀ a ∈ (none : Option α), P a :=
  fun _ h => nomatch h

/-- Nothing is accepted. -/
theorem Accepts.of_eq (hp : p'.Proper graph) (hc : p'.cancelled = p.cancelled)
    (hl : p'.transferRequested = p.transferRequested)
    (hq : p'.pendingTransfer = p.pendingTransfer) : Accepts graph p p' none :=
  ⟨hp, hc, fun h => hl ▸ h, fun _ _ htr => .inl (hq ▸ htr), fun h => .inl (hl ▸ h), absent⟩

/-- A transfer is accepted, which is only done with the latch clear. -/
theorem Accepts.of_accepted (tr : TransferRequest) (hp : p'.Proper graph)
    (hc : p'.cancelled = p.cancelled) (hl : p.transferRequested = false)
    (hr : request.or p'.pendingTransfer = some tr) (hd : ∀ tr ∈ request, tr.destination ≠ "") :
    Accepts graph p p' request :=
  ⟨hp, hc, fun h => absurd h (by simp [hl]), fun h => absurd h (by simp [hl]),
    fun _ => .inr ⟨tr, hr⟩, hd⟩

/-- The second of two attempts may yield what the first left pending. -/
theorem Accepts.trans {p'' : Pipeline} (h : Accepts graph p p' none)
    (h' : Accepts graph p' p'' request) : Accepts graph p p'' request := by
  refine ⟨h'.proper, h'.cancelled.trans h.cancelled, fun hl => h'.mono (h.mono hl),
    fun hl tr htr => ?_, fun hl => ?_, h'.destination⟩
  · rcases h.kept hl tr htr with htr | htr
    · exact h'.kept (h.mono hl) tr htr
    · cases htr
  · rcases h'.latched hl with hl' | hr
    · rcases h.latched hl' with hl | ⟨tr, htr⟩
      · exact .inl hl
      · rcases h'.kept hl' tr htr with htr' | htr'
        · rcases request with _ | r
          · exact .inr ⟨tr, htr'⟩
          · exact .inr ⟨r, rfl⟩
        · exact .inr ⟨tr, by rw [htr']; rfl⟩
    · exact .inr hr

theorem evaluateEscalation_accepts (cfg : HandlerConfig) (hp : p.Proper graph) (transferId : String) (count : ℕ) :
    Accepts graph p (evaluateEscalation cfg transferId count p).1 none ∧
      (evaluateEscalation cfg transferId count p).1.workflow = p.workflow := by
  rw [evaluateEscalation]
  split_ifs with ha
  · obtain ⟨hr, r, hreq, hd⟩ := evaluate_spec ha
    refine ⟨.of_accepted _ ⟨hp.workflow, fun tr htr => ?_, fun _ => rfl⟩ rfl hr hreq absent, rfl⟩
    have htr : r = tr := Option.some.inj (hreq.symm.trans htr)
    exact htr ▸ hd
  · exact ⟨.of_eq hp rfl rfl rfl, rfl⟩

theorem recordGuardrailViolation_accepts (hp : p.Proper graph) :
    Accepts graph p (recordGuardrailViolation cfg transferId p) none := by
  obtain ⟨h, -⟩ := evaluateEscalation_accepts cfg
    (p := { p with guardrailCount := p.guardrailCount + 1 })
    ⟨hp.workflow, hp.destination, hp.latched⟩ transferId (p.guardrailCount + 1)
  exact ⟨h.proper, h.cancelled, h.mono, h.kept, h.latched, h.destination⟩

theorem recordBookingFabrication_accepts (hp : p.Proper graph) :
    Accepts graph p (recordBookingFabrication cfg transferId p) none := by
  obtain ⟨h, -⟩ := evaluateEscalation_accepts cfg
    (p := { p with bookingFabricationCount := p.bookingFabricationCount + 1 })
    ⟨hp.workflow, hp.destination, hp.latched⟩ transferId (p.bookingFabricationCount + 1)
  simp only [recordBookingFabrication]
  split_ifs
  · exact ⟨⟨h.proper.workflow, h.proper.destination, h.proper.latched⟩, h.cancelled, h.mono,
      h.kept, h.latched, h.destination⟩
  · exact ⟨h.proper, h.cancelled, h.mono, h.kept, h.latched, h.destination⟩

theorem directiveTransfer_accepts (cfg : HandlerConfig) (transferId : String)
    (hp : p.Proper graph) (d : TransferDirective) :
    Accepts graph p (directiveTransfer cfg transferId d p).1
      (directiveTransfer cfg transferId d p).2 := by
  simp only [directiveTransfer]
  split_ifs with ha
  · obtain ⟨hl, r, hreq, hd⟩ := evaluate_spec ha
    have hr : (p.directiveDecision transferId cfg d).request = some r := hreq
    refine .of_accepted r ⟨hp.workflow, hp.destination, fun _ => rfl⟩ rfl hl ?_ ?_
    · rw [hr]
      rfl
    · rw [hr]
      exact fun tr htr => Option.some.inj htr ▸ hd
  · exact .of_eq hp rfl rfl rfl

/-- A transfer node is left, or its transfer accepted. -/
theorem workflowTransfer_accepts (cfg : HandlerConfig) (render : String → String)
    (transferId : String) (hp : p.Proper graph) :
    Accepts graph p (workflowTransfer cfg render transferId p).1
      (workflowTransfer cfg render transferId p).2 := by
  rcases hw : p.workflow.pendingTransfer with _ | node
  · simp only [workflowTransfer, hw]
    exact .of_eq hp rfl rfl rfl
  · have hwf : ({ p.workflow with pendingTransfer := none } : WorkflowRunner).Proper graph :=
      ⟨hp.workflow.node_mem, hp.workflow.source, hp.workflow.isSome⟩
    have habandon : Accepts graph p { p with
        workflow := ({ p.workflow with pendingTransfer := none } : WorkflowRunner).abandonTransfer }
        none :=
      .of_eq ⟨hwf.abandonTransfer.1, hp.destination,
        fun h => absurd h.1 hwf.abandonTransfer.2⟩ rfl rfl rfl
    simp only [workflowTransfer, hw]
    rcases hd : workflowDecision transferId cfg
      { p with workflow := { p.workflow with pendingTransfer := none } } render node with _ | decision
    · exact habandon
    · dsimp only
      split_ifs with ha
      · simp only [workflowDecision] at hd
        split at hd
        · cases hd
        · rw [Option.some_inj] at hd
          subst hd
          obtain ⟨hl, r, hr, hdest⟩ := evaluate_spec ha
          refine .of_accepted r ⟨hwf, hp.destination, fun _ => rfl⟩ rfl hl ?_ ?_
          · rw [hr]
            rfl
          · rw [hr]
            exact fun tr htr => Option.some.inj htr ▸ hdest
      · exact habandon

/-- The pending transfer is yielded. -/
theorem pendingTransfer_accepts (hp : p.Proper graph) :
    Accepts graph p { p with pendingTransfer := none } p.pendingTransfer :=
  ⟨⟨hp.workflow, absent, hp.latched⟩, rfl, id, fun _ _ htr => .inr htr, fun h => .inl h,
    hp.destination⟩

/-- What is left when no directive asked for a transfer: the node entered, then
    the transfer that is pending. -/
theorem enteredTransfer_accepts (cfg : HandlerConfig) (render : String → String)
    (workflowId : String) {p' : Pipeline} (ha : Accepts graph p p' none) :
    let chosen : Pipeline × Option TransferRequest :=
      match workflowTransfer cfg render workflowId p' with
      | (p'', some tr) => (p'', some tr)
      | (p'', none) => ({ p'' with pendingTransfer := none }, p''.pendingTransfer)
    Accepts graph p chosen.1 chosen.2 := by
  have hw := ha.trans (workflowTransfer_accepts cfg render workflowId ha.proper)
  generalize workflowTransfer cfg render workflowId p' = entered at hw ⊢
  obtain ⟨p'', entered⟩ := entered
  rcases entered with _ | tr
  · exact hw.trans (pendingTransfer_accepts hw.proper)
  · exact hw

/-- The transfer of a turn is chosen: none once the turn is cancelled. -/
theorem chooseTransfer_accepts (cfg : HandlerConfig) (render : String → String)
    (transferId workflowId : String) (hp : p.Proper graph) (directives : List TransferDirective) :
    Accepts graph p (chooseTransfer cfg render transferId workflowId directives p).1
      (chooseTransfer cfg render transferId workflowId directives p).2 ∧
    (p.cancelled = true →
      (chooseTransfer cfg render transferId workflowId directives p).2 = none) := by
  unfold chooseTransfer
  split_ifs with hc
  · exact ⟨.of_eq hp rfl rfl rfl, fun _ => rfl⟩
  · refine ⟨?_, fun h => absurd h hc⟩
    rcases directives with _ | ⟨d, directives⟩
    · exact enteredTransfer_accepts cfg render workflowId (.of_eq hp rfl rfl rfl)
    · have ha := directiveTransfer_accepts cfg transferId hp d
      dsimp only
      generalize directiveTransfer cfg transferId d p = asked at ha ⊢
      obtain ⟨p', asked⟩ := asked
      rcases asked with _ | tr
      · exact enteredTransfer_accepts cfg render workflowId ha
      · exact ha

/-- A step of a generator keeps the transfers the handler is about to yield, and
    only yields one from a turn that was not cancelled when it was chosen. -/
structure Advances (graph : WorkflowGraph) (p : Pipeline) (gen : Gen) (p' : Pipeline) (gen' : Gen)
    (response : Option HandlerResponse) : Prop where
  proper : p'.Proper graph
  cancelled : p'.cancelled = p.cancelled
  unfinished : gen ≠ .idle ∧ gen ≠ .finished
  recovering : gen = .recovering → gen' = .recovering ∨ gen' = .finished
  working : gen' ≠ .idle
  kept : p.transferRequested = true → ∀ tr ∈ p.pendingTransfer,
    tr ∈ p'.pendingTransfer ∨ tr ∈ gen'.transfer
  latched : p'.transferRequested = true → p.transferRequested = true ∨
    ∃ tr, gen'.transfer.or p'.pendingTransfer = some tr
  chosen : ∀ tr ∈ gen'.transfer, tr ∈ gen.transfer ∨ tr.destination ≠ "" ∧ p.cancelled = false
  /-- A transfer that was chosen is announced, and then yielded. -/
  announced : ∀ tr ∈ gen.transfer, (tr ∈ gen'.transfer ∧
    ∀ r ∈ response, r.transferRequest = none) ∨
      gen' = .finished ∧ ∃ r, response = some r ∧ r.transferRequest = some tr
  silent : gen.transfer = none → ∀ r ∈ response, r.transferRequest = none

/-- A step that has no transfer to choose. -/
theorem Accepts.advances (h : Accepts graph p p' none) (hi : gen ≠ .idle ∧ gen ≠ .finished)
    (hrec : gen = .recovering → gen' = .recovering ∨ gen' = .finished) (hw : gen' ≠ .idle)
    (ht : gen.transfer = none ∧ gen'.transfer = none)
    (hr : ∀ r ∈ response, r.transferRequest = none) :
    Advances graph p gen p' gen' response := by
  refine ⟨h.proper, h.cancelled, hi, hrec, hw, fun hl tr htr => ?_, fun hl => ?_, ?_, ?_,
    fun _ => hr⟩
  · rcases h.kept hl tr htr with htr | htr
    · exact .inl htr
    · cases htr
  · rw [ht.2]
    exact h.latched hl
  · rw [ht.2]
    exact absent
  · rw [ht.1]
    exact absent

theorem decide_advances (hp : p.Proper graph) (directives : List TransferDirective)
    (endCall : Bool) :
    Advances graph p (.deciding directives endCall)
      (decide cfg render transferId workflowId directives endCall p).1
      (decide cfg render transferId workflowId directives endCall p).2 none := by
  have hp' : ({ p with workflow := { p.workflow with
      endedOffGraph := p.workflow.endedOffGraph || (!p.workflow.pendingEnd && endCall) } } :
      Pipeline).Proper graph :=
    ⟨⟨hp.workflow.node_mem, hp.workflow.source, hp.workflow.isSome⟩, hp.destination, hp.latched⟩
  obtain ⟨h, hcancelled⟩ := chooseTransfer_accepts cfg render transferId workflowId hp' directives
  simp only [decide]
  generalize chooseTransfer cfg render transferId workflowId directives _ = chosen at h hcancelled ⊢
  obtain ⟨p', request⟩ := chosen
  rcases request with _ | tr
  · have hgen (gen' : Gen) (hw : gen' = .ending ∨ gen' = .finished) :
        Advances graph p (.deciding directives endCall) p' gen' none :=
      Accepts.advances ⟨h.proper, h.cancelled, h.mono, h.kept, h.latched, absent⟩ ⟨nofun, nofun⟩ nofun
        (by rcases hw with rfl | rfl <;> nofun)
        (by rcases hw with rfl | rfl <;> exact ⟨rfl, rfl⟩) absent
    dsimp only
    split_ifs
    · exact hgen _ (.inl rfl)
    · exact hgen _ (.inr rfl)
  · refine ⟨⟨h.proper.workflow, h.proper.destination, h.proper.latched⟩, h.cancelled,
      ⟨nofun, nofun⟩, nofun, nofun, ?_, ?_, fun tr' htr => .inr ⟨?_, ?_⟩, (fun _ htr => nomatch htr), fun _ => absent⟩
    · exact h.kept
    · exact h.latched
    · exact h.destination tr' htr
    · by_contra hc
      exact absurd (hcancelled (by simpa using hc)) nofun

theorem takeNodeChanged_accepts (hp : p.Proper graph) :
    Accepts graph p (takeNodeChanged p).1 none := by
  simp only [takeNodeChanged]
  split_ifs
  · exact .of_eq hp rfl rfl rfl
  · exact .of_eq ⟨hp.workflow, hp.destination, hp.latched⟩ rfl rfl rfl

/-- The model follows an edge, which leaves something to be done at a transfer node. -/
theorem transition_accepts (hp : p.Proper graph) {w : WorkflowRunner} {e : Edge}
    (h : p.workflow.transition graph e = some w) :
    Accepts graph p { p with workflow := w } none := by
  refine .of_eq ⟨hp.workflow.transition h, hp.destination, fun hparked => ?_⟩ rfl rfl rfl
  exact absurd hparked.2 (WorkflowRunner.transition_pendingTransfer h hparked.1)

/-- What a step of a generator does to transfers. -/
theorem step_advances (hp : p.Proper graph)
    (h : step cfg graph render p gen x = some (p', gen', response)) :
    Advances graph p gen p' gen' response := by
  have hrefl : Accepts graph p p none := .of_eq hp rfl rfl rfl
  have silent {r : HandlerResponse} (hr : r.transferRequest = none) :
      ∀ r' ∈ some r, r'.transferRequest = none := fun r' hr' => Option.some.inj hr' ▸ hr
  unfold step at h
  split at h
  case h_1 text confidence =>
    split_ifs at h <;> cases h
    · exact hrefl.advances ⟨nofun, nofun⟩ nofun nofun ⟨rfl, rfl⟩ absent
    · exact hrefl.advances ⟨nofun, nofun⟩ nofun nofun ⟨rfl, rfl⟩ (silent rfl)
  case h_2 violation tooLong transferId =>
    -- only a violation can escalate
    have hv : Accepts graph p (if violation = true then recordGuardrailViolation cfg transferId p
        else { p with guardrailCount := 0 }) none := by
      split_ifs
      · exact recordGuardrailViolation_accepts hp
      · exact .of_eq ⟨hp.workflow, hp.destination, hp.latched⟩ rfl rfl rfl
    cases h
    refine hv.advances ⟨nofun, nofun⟩ nofun ?_ ⟨rfl, ?_⟩ absent
    · split_ifs <;> nofun
    · split_ifs <;> rfl
  case h_7 e =>
    split_ifs at h
    obtain ⟨w, hw, h⟩ := Option.map_eq_some_iff.1 h
    cases h
    exact (transition_accepts hp hw).advances ⟨nofun, nofun⟩ nofun nofun ⟨rfl, rfl⟩ absent
  case h_9 fabricated transferId =>
    have hf : Accepts graph p (if fabricated = true ∧ p.cancelled = false then
        recordBookingFabrication cfg transferId p else p) none := by
      split_ifs
      · exact recordBookingFabrication_accepts hp
      · exact hrefl
    cases h
    exact hf.advances ⟨nofun, nofun⟩ nofun nofun ⟨rfl, rfl⟩ absent
  case h_11 directives endCall =>
    cases h
    refine (takeNodeChanged_accepts hp).advances ⟨nofun, nofun⟩ nofun nofun ⟨rfl, rfl⟩ fun r hr => ?_
    obtain ⟨node, -, rfl⟩ := Option.map_eq_some_iff.1 hr
    rfl
  case h_12 directives endCall transferId workflowId =>
    cases h
    exact decide_advances hp directives endCall
  case h_15 tr payload =>
    cases h
    exact ⟨hp, rfl, ⟨nofun, nofun⟩, nofun, nofun, fun _ _ htr => .inl htr, fun hl => .inl hl,
      fun _ htr => .inl htr, fun _ htr => .inl ⟨htr, silent rfl⟩, fun h => nomatch h⟩
  case h_16 tr spoken =>
    cases h
    refine ⟨hp, rfl, ⟨nofun, nofun⟩, nofun, nofun, fun _ _ htr => .inl htr, fun hl => .inl hl, absent,
      fun tr' htr => .inr ⟨rfl, _, rfl, htr⟩, fun h => nomatch h⟩
  case h_17 e =>
    obtain ⟨w, hw, h⟩ := Option.map_eq_some_iff.1 h
    cases h
    exact (transition_accepts hp hw).advances ⟨nofun, nofun⟩ (fun _ => .inl rfl) nofun ⟨rfl, rfl⟩
      absent
  case h_18 payload =>
    cases h
    exact hrefl.advances ⟨nofun, nofun⟩ (fun _ => .inl rfl) nofun ⟨rfl, rfl⟩ (silent rfl)
  case h_19 =>
    cases h
    exact hrefl.advances ⟨nofun, nofun⟩ (fun _ => .inr rfl) nofun ⟨rfl, rfl⟩ absent
  case h_20 => cases h
  -- what is left speaks, or takes note of a token of the model
  all_goals
    try split_ifs at h
    cases h
    first
    | exact hrefl.advances ⟨nofun, nofun⟩ nofun nofun ⟨rfl, rfl⟩ (silent rfl)
    | exact hrefl.advances ⟨nofun, nofun⟩ nofun nofun ⟨rfl, rfl⟩ absent

end Pipeline

end Yuviz.Conversation
