import Mathlib
import Yuviz.Gateway.Telephony.Completion

/-!
# The hold of the customer

A warm attempt puts the customer on hold while it calls the agent, unless the
customer is to wait in silence. Whoever ends the attempt without a bridge has to
take the customer off hold first.

* `reachable_unheld`: in the runs in which no attempt with music is rejected, or
  shut down before its handler has taken the customer off hold, no leg is on
  hold whenever an attempt ends without a bridge.
* `not_reachable_unheld`: a rejected attempt leaves the customer on hold.
-/

namespace Yuviz.Gateway

namespace WarmTransferCoordinator

/-- The customer waits with music: the attempt puts its leg on hold. -/
def WithMusic (w : WarmTransferCoordinator) : Prop := w.waitingExperience ≠ "announcement_silence"

/-- A point of a method that has taken the customer off hold, or should have. -/
def Pc.pastUnhold : Pc → Bool
  | .startHold | .startOriginate | .startWatch | .originateFailed _ | .agentAnswered _
  | .answeredUnhold | .cancelHangup | .cancelUnhold => false
  | _ => true

end WarmTransferCoordinator

namespace Coordinators

/-! ## The contract -/

/-- Whether the leg `u` is on hold after an action, from whether it was before. -/
def heldBy (u : String) (before : Bool) : CoordinatorAction → Bool
  | .esl (.hold u') _ => before || u = u'
  | .esl (.unhold u') _ => before && u ≠ u'
  | _ => before

/-- The hold of the leg `u` has been issued, and no unhold since. -/
def held (log : List Entry) (u : String) : Bool :=
  log.foldl (fun before e => match e with
    | .acted _ action => heldBy u before action
    | _ => before) false

/-- The entry ends a warm attempt without a bridge. -/
def endsUnbridged : Entry → Bool
  | .acted .warm (.onTransferCompleted _ success _ _) => !success
  | .shutdown .warm state => state = .active
  | _ => false

/-- Whenever a warm attempt ends without a bridge, no leg is on hold. -/
def Unheld (log : List Entry) : Prop :=
  Throughout (fun before e => endsUnbridged e = true → ∀ u, held before u = false) log

/-- The attempts end where the customer is taken off hold:
    * an attempt is started when the one before is over, and no handler runs;
    * an attempt with music is not rejected;
    * it is not shut down before its handler has taken the customer off hold. -/
def Unholds (s : Coordinators) : Label → Prop
  | .start type _ => type = .warm → s.state .warm ≠ .active ∧ ¬s.handles .warm
  | .control reply => s.control = some (.warm .startOriginate) → s.tel.warm.WithMusic →
    ∃ job, reply = .ok job ∧ job ≠ ""
  | .shutdown type => type = .warm → s.state .warm = .active → s.tel.warm.WithMusic →
    ∃ pc, s.esl = some (.warm pc) ∧ pc.pastUnhold = true
  | _ => True

end Coordinators

/-! ## The attempt and the hold -/

namespace WarmTransferCoordinator

/-- The points of the control thread: an attempt that is starting has no watch
    yet, and one that has ended none any more. -/
def ControlAt (t : Telephony) (esl : Option Pc) : Pc → Prop
  | .startHold => Unwatched t.jobs ∧ esl = none ∧ t.warm.state = .active ∧ t.warm.WithMusic
  | .startOriginate => Unwatched t.jobs ∧ esl = none ∧ t.warm.state = .active
  | .startWatch =>
    Unwatched t.jobs ∧ esl = none ∧ t.warm.state = .active ∧ t.warm.jobUuid ≠ ""
  | .finishLeg .. | .finishCallback .. | .shutdownLeg | .shutdownState => Unwatched t.jobs
  | .cancelHangup | .cancelUnhold | .finish .. | .finishJob .. | .shutdownJob => True
  | _ => False

/-- What holds of an attempt and of the legs on hold, whichever threads are
    about to end the attempt. -/
structure Holding (t : Telephony) (control esl : Option Pc) (held : String → Bool) : Prop where
  watches : Watches t.warm t.jobs
  controlAt : ∀ pc, control = some pc → ControlAt t esl pc
  handlerAt : ∀ pc, esl = some pc → pc.ofHandler = true ∧ Unwatched t.jobs
  inactive : t.warm.state ≠ .active →
    (∀ success destination detail, control ≠ some (.finishJob success destination detail)) →
    Unwatched t.jobs
  onHold : ∀ u, held u = true → u = t.warm.customerUuid ∧ t.warm.state = .active ∧
    t.warm.WithMusic ∧ ∀ pc, control = some pc ∨ esl = some pc → pc.pastUnhold = false

variable {t : Telephony} {pc pc' : Pc} {control esl : Option Pc} {held : String → Bool}

/-- The legs on hold after some actions. -/
def heldAfter (held : String → Bool) (acts : List CoordinatorAction) (u : String) : Bool :=
  acts.foldl (Coordinators.heldBy u) (held u)

@[simp] theorem heldAfter_nil : heldAfter held [] = held := rfl

theorem heldAfter_of_forall {acts : List CoordinatorAction}
    (h : ∀ act ∈ acts, ∀ u b, Coordinators.heldBy u b act = b) : heldAfter held acts = held := by
  funext u
  unfold heldAfter
  induction acts with
  | nil => rfl
  | cons act acts ih =>
    rw [List.foldl_cons, h act (by simp)]
    exact ih fun act hact => h act (by simp [hact])

theorem heldAfter_callbacks (callbacks : Option ℕ) (f : ℕ → CoordinatorAction)
    (hf : ∀ a u b, Coordinators.heldBy u b (f a) = b) :
    heldAfter held (callbacks.toList.map f) = held :=
  heldAfter_of_forall fun act hact => by
    obtain ⟨a, -, rfl⟩ := List.mem_map.1 hact
    exact hf a

/-- The cold coordinator does not interfere. -/
theorem Holding.congr {t' : Telephony} (h : Holding t control esl held) (hw : t'.warm = t.warm)
    (hj : t'.jobs = t.jobs) : Holding t' control esl held := by
  have hc (pc : Pc) (hc : ControlAt t esl pc) : ControlAt t' esl pc := by
    unfold ControlAt at hc ⊢
    rwa [hw, hj]
  refine ⟨?_, fun pc hpc => hc pc (h.controlAt pc hpc), ?_, ?_, ?_⟩
  · rw [hw, hj]
    exact h.watches
  · rw [hj]
    exact h.handlerAt
  · rw [hw, hj]
    exact h.inactive
  · rw [hw]
    exact h.onHold

/-- No leg is on hold at a point past the unhold. -/
theorem Holding.unheld (h : Holding t control esl held)
    (hpc : ∃ pc, (control = some pc ∨ esl = some pc) ∧ pc.pastUnhold = true) (u : String) :
    held u = false := by
  obtain ⟨pc, hpc, hp⟩ := hpc
  by_contra hu
  have hn := (h.onHold u (by simpa using hu)).2.2.2 pc hpc
  simp [hp] at hn

/-- The legs on hold after the customer has been taken off hold. -/
theorem Holding.unhold (h : Holding t control esl held) (reply : EslReply) (u : String) :
    heldAfter held [.esl (.unhold t.warm.customerUuid) reply] u = false := by
  by_contra hu
  have hu : held u = true ∧ u ≠ t.warm.customerUuid := by
    simpa [heldAfter, Coordinators.heldBy] using hu
  exact hu.2 (h.onHold u hu.1).1

/-- The step of an attempt that has ended, or that ends without a hold. -/
theorem Holding.of_unheld {t' : Telephony} {control' : Option Pc} {held' : String → Bool}
    (h : Holding t control esl held) (hheld : ∀ u, held' u = false)
    (hw : Watches t'.warm t'.jobs) (hc : ∀ pc, control' = some pc → ControlAt t' esl pc)
    (hj : ∀ u, t'.jobs.pending u ≠ none → t.jobs.pending u ≠ none)
    (ho : t'.warm.state ≠ .active →
      (∀ success destination detail, control' ≠ some (.finishJob success destination detail)) →
      Unwatched t'.jobs) :
    Holding t' control' esl held' := by
  refine ⟨hw, hc, fun pc hpc => ?_, ho, fun u hh => by simp [hheld u] at hh⟩
  obtain ⟨hh, hu⟩ := h.handlerAt pc hpc
  exact ⟨hh, fun u => not_not.1 fun hne => hj u hne (hu u)⟩

theorem Unwatched.of_cancelJob (h : Unwatched t.jobs) : Unwatched (cancelJob t).jobs :=
  Watches.cancelJob h.watches

theorem Holding.stepControl {reply : EslReply} (h : Holding t (some pc) esl held)
    (hg : pc = .startOriginate → t.warm.WithMusic → ∃ job, reply = .ok job ∧ job ≠ "") :
    Holding (step pc reply t).1 (step pc reply t).2.2 esl
      (heldAfter held (step pc reply t).2.1) := by
  have hc := h.controlAt pc rfl
  have hun (hp : pc.pastUnhold = true) (u : String) : held u = false :=
    h.unheld ⟨pc, .inl rfl, hp⟩ u
  cases pc <;> simp only [ControlAt] at hc
  case startHold =>
    obtain ⟨hu, rfl, hs, hm⟩ := hc
    refine ⟨h.watches, ?_, (by simp), fun hn => absurd hs hn, fun u hh => ?_⟩
    · rintro _ ⟨⟩
      exact ⟨hu, rfl, hs⟩
    · refine ⟨?_, hs, hm, by simp [step, Pc.pastUnhold]⟩
      rcases (by simpa [step, heldAfter, Coordinators.heldBy] using hh) with hh | rfl
      · exact (h.onHold u hh).1
      · rfl
  case startOriginate =>
    obtain ⟨hu, rfl, hs⟩ := hc
    have hrej (hn : ¬∃ job, reply = .ok job ∧ job ≠ "") (act : CoordinatorAction)
        (hact : ∀ u b, Coordinators.heldBy u b act = b) (error : String) :
        Holding t (some (.finish false t.warm.destination error)) none
          (heldAfter held [act]) := by
      refine h.of_unheld (fun u => ?_) h.watches ?_ (fun _ => id) fun hn => absurd hs hn
      · by_contra hh
        exact hn (hg rfl (h.onHold u (by simpa [heldAfter, hact] using hh)).2.2.1)
      · rintro _ ⟨⟩
        trivial
    simp only [step]
    split
    · split
      · exact hrej (by simp_all) _ (fun _ _ => rfl) _
      · next job hne =>
        refine ⟨hu.watches, ?_, (by simp), fun hn => absurd hs hn, fun u hh => ?_⟩
        · rintro _ ⟨⟩
          exact ⟨hu, rfl, hs, hne⟩
        · obtain ⟨hcu, hs, hm, -⟩ := h.onHold u hh
          exact ⟨hcu, hs, hm, by simp [Pc.pastUnhold]⟩
    · exact hrej (by simp) _ (fun _ _ => rfl) _
  case startWatch =>
    obtain ⟨hu, rfl, hs, hj⟩ := hc
    refine ⟨hu.watch hj, (by rintro _ ⟨⟩), (by simp), fun hn => absurd hs hn, fun u hh => ?_⟩
    obtain ⟨hcu, hs, hm, -⟩ := h.onHold u hh
    exact ⟨hcu, hs, hm, by simp [step]⟩
  case cancelHangup =>
    have hheld : heldAfter held (step .cancelHangup reply t).2.1 = held := by
      simp only [step]
      split <;> rfl
    rw [hheld]
    refine ⟨h.watches, ?_, h.handlerAt, fun hn _ => h.inactive hn (by simp), fun u hh => ?_⟩
    · rintro _ ⟨⟩
      trivial
    · obtain ⟨hcu, hs, hm, hp⟩ := h.onHold u hh
      refine ⟨hcu, hs, hm, ?_⟩
      rintro pc (⟨⟨⟩⟩ | hpc)
      · rfl
      · exact hp pc (.inr hpc)
  case cancelUnhold =>
    refine h.of_unheld (h.unhold reply) h.watches ?_ (fun _ => id)
      fun hn _ => h.inactive hn (by simp)
    rintro _ ⟨⟩
    trivial
  case finish =>
    refine h.of_unheld (hun rfl) h.watches ?_ (fun _ => id) fun _ hne => absurd rfl (hne _ _ _)
    rintro _ ⟨⟩
    trivial
  case finishJob =>
    have hu := h.watches.cancelJob
    refine h.of_unheld (hun rfl) hu.watches ?_ (fun u hne => absurd (hu u) hne) fun _ _ => hu
    rintro _ ⟨⟩
    exact hu
  case finishLeg =>
    have hu : Unwatched (cancelLeg t).jobs := by simpa using hc
    refine h.of_unheld (hun rfl) hu.watches ?_ (fun u hne => absurd (hu u) hne) fun _ _ => hu
    rintro _ ⟨⟩
    exact hu
  case finishCallback =>
    refine h.of_unheld ?_ h.watches (by rintro _ ⟨⟩) (fun _ => id) fun _ _ => hc
    rw [step, heldAfter_callbacks _ _ fun _ _ _ => rfl]
    exact hun rfl
  case shutdownJob =>
    have hu := h.watches.cancelJob
    refine h.of_unheld (hun rfl) hu.watches ?_ (fun u hne => absurd (hu u) hne) fun _ _ => hu
    rintro _ ⟨⟩
    exact hu
  case shutdownLeg =>
    have hu : Unwatched (cancelLeg t).jobs := by simpa using hc
    refine h.of_unheld (hun rfl) hu.watches ?_ (fun u hne => absurd (hu u) hne) fun _ _ => hu
    rintro _ ⟨⟩
    exact hu
  case shutdownState =>
    exact h.of_unheld (hun rfl) h.watches (by rintro _ ⟨⟩) (fun _ => id) fun _ _ => hc

/-- A point of the control thread once there is a handler. -/
theorem ControlAt.of_handler {t' : Telephony} {esl' : Option Pc} (h : ControlAt t (some pc') pc)
    (hj : Unwatched t'.jobs) : ControlAt t' esl' pc := by
  cases pc <;> simp_all [ControlAt]

/-- The step of a handler once the customer is off hold. -/
theorem Holding.of_handler {t' : Telephony} {esl' : Option Pc} {held' : String → Bool}
    (h : Holding t control (some pc) held) (hheld : ∀ u, held' u = false) (hj : Unwatched t'.jobs)
    (hh : ∀ pc', esl' = some pc' → pc'.ofHandler = true) : Holding t' control esl' held' :=
  ⟨hj.watches, fun pc' hpc => (h.controlAt pc' hpc).of_handler hj, fun pc' hpc => ⟨hh pc' hpc, hj⟩,
    fun _ _ => hj, fun u hu => by simp [hheld u] at hu⟩

theorem Holding.stepEsl (reply : EslReply) (h : Holding t control (some pc) held) :
    Holding (step pc reply t).1 control (step pc reply t).2.2
      (heldAfter held (step pc reply t).2.1) := by
  obtain ⟨hpc, hj⟩ := h.handlerAt pc rfl
  have hun (hp : pc.pastUnhold = true) (u : String) : held u = false :=
    h.unheld ⟨pc, .inr rfl, hp⟩ u
  cases pc <;> simp only [Pc.ofHandler, Bool.false_eq_true] at hpc
  case originateFailed | answeredUnhold =>
    refine h.of_handler (h.unhold reply) hj ?_
    rintro _ ⟨⟩
    rfl
  case agentAnswered =>
    refine ⟨hj.watches, fun pc' hpc => (h.controlAt pc' hpc).of_handler hj, ?_, fun _ _ => hj,
      fun u hu => ?_⟩
    · rintro _ ⟨⟩
      exact ⟨rfl, hj⟩
    · obtain ⟨hcu, hs, hm, hp⟩ := h.onHold u hu
      refine ⟨hcu, hs, hm, ?_⟩
      rintro pc' (hpc | ⟨⟨⟩⟩)
      · exact hp pc' (.inl hpc)
      · rfl
  case answeredHandoff =>
    refine h.of_handler ?_ hj ?_
    · rw [step, heldAfter_callbacks _ _ fun _ _ _ => rfl]
      exact hun rfl
    · rintro _ ⟨⟩
      rfl
  case answeredBridge =>
    simp only [step]
    split <;> refine h.of_handler (hun rfl) hj ?_ <;> rintro _ ⟨⟩ <;> rfl
  case answeredStopFork | bridgeFailed | finish =>
    refine h.of_handler (hun rfl) hj ?_
    rintro _ ⟨⟩
    rfl
  case finishJob =>
    refine h.of_handler (hun rfl) hj.of_cancelJob ?_
    rintro _ ⟨⟩
    rfl
  case finishLeg =>
    refine h.of_handler (hun rfl) (by simpa [step] using hj) ?_
    rintro _ ⟨⟩
    rfl
  case finishCallback =>
    refine h.of_handler ?_ hj (by rintro _ ⟨⟩)
    rw [step, heldAfter_callbacks _ _ fun _ _ _ => rfl]
    exact hun rfl

/-- A handler is taken out of the correlator. -/
theorem Holding.take {u result : String} {ok : Bool} (h : Holding t control none held)
    (hu : t.jobs.pending u ≠ none) :
    Holding { t with jobs := t.jobs.cancel u } control (some (onJobResolved ok result)) held := by
  obtain ⟨rfl, -⟩ := h.watches u hu
  have hj : Unwatched (t.jobs.cancel t.warm.jobUuid) := h.watches.cancel
  have hh : (onJobResolved ok result).ofHandler = true ∧
      (onJobResolved ok result).pastUnhold = false := by
    cases ok <;> exact ⟨rfl, rfl⟩
  refine ⟨hj.watches, fun pc hpc => ?_, ?_, fun _ _ => hj, fun v hv => ?_⟩
  · -- A method that is starting has no watch to be taken.
    have hc := h.controlAt pc hpc
    cases pc <;> simp only [ControlAt] at hc ⊢
    case startHold | startOriginate | startWatch => exact absurd (hc.1 _) hu
    all_goals exact hj
  · rintro _ ⟨⟩
    exact ⟨hh.1, hj⟩
  · obtain ⟨hcu, hs, hm, hp⟩ := h.onHold v hv
    refine ⟨hcu, hs, hm, ?_⟩
    rintro pc (hpc | ⟨⟨⟩⟩)
    · exact hp pc (.inl hpc)
    · exact hh.2

theorem Holding.start (ctx : TransferCoordinatorContext) (attempt : ℕ)
    (h : Holding t none none held) (hs : t.warm.state ≠ .active) :
    Holding (start ctx attempt t).1 (some (start ctx attempt t).2) none held := by
  have hj : Unwatched t.jobs := h.inactive hs nofun
  have hheld (u : String) : held u = false := by
    by_contra hu
    exact hs (h.onHold u (by simpa using hu)).2.1
  refine h.of_unheld hheld hj.watches ?_ (fun _ => id) fun hn => absurd rfl hn
  rintro _ ⟨⟩
  unfold WarmTransferCoordinator.start
  dsimp only
  split
  · next hm => exact ⟨hj, rfl, rfl, hm⟩
  · exact ⟨hj, rfl, rfl⟩

theorem Holding.cancel (h : Holding t none esl held) : Holding t (cancel t) esl held := by
  unfold WarmTransferCoordinator.cancel
  split
  · exact h
  · next hs =>
    refine ⟨h.watches, ?_, h.handlerAt, fun hn => absurd hn hs, fun u hu => ?_⟩
    · rintro _ ⟨⟩
      trivial
    · obtain ⟨hcu, hs, hm, hp⟩ := h.onHold u hu
      refine ⟨hcu, hs, hm, ?_⟩
      rintro pc (⟨⟨⟩⟩ | hpc)
      · rfl
      · exact hp pc (.inr hpc)

/-- An attempt that is shut down has no leg on hold. -/
theorem Holding.unheld_of_shutdown (h : Holding t none esl held)
    (hg : t.warm.state = .active → t.warm.WithMusic → ∃ pc, esl = some pc ∧ pc.pastUnhold = true)
    (u : String) : held u = false := by
  by_contra hu
  obtain ⟨-, hs, hm, -⟩ := h.onHold u (by simpa using hu)
  obtain ⟨pc, hpc, hp⟩ := hg hs hm
  exact hu (by simpa using h.unheld ⟨pc, .inr hpc, hp⟩ u)

theorem Holding.shutdown (h : Holding t none esl held) (hheld : ∀ u, held u = false) :
    Holding t (shutdown t) esl held := by
  refine h.of_unheld hheld h.watches ?_ (fun _ => id) fun hn _ => h.inactive hn nofun
  unfold WarmTransferCoordinator.shutdown
  split
  · nofun
  · rintro _ ⟨⟩
    trivial

/-- A step acts at most once, and completes the attempt past the unhold only. -/
theorem step_acts (pc : Pc) (reply : EslReply) (t : Telephony) :
    (step pc reply t).2.1 = [] ∨ ∃ act, (step pc reply t).2.1 = [act] ∧
      (pc.pastUnhold = false → Coordinators.endsUnbridged (.acted .warm act) = false) := by
  cases pc
  case startOriginate | answeredBridge =>
    simp only [step]
    split <;> first | split | skip
    all_goals exact .inr ⟨_, rfl, fun _ => rfl⟩
  case cancelHangup =>
    simp only [step]
    split
    · exact .inr ⟨_, rfl, fun _ => rfl⟩
    · exact .inl rfl
  case answeredHandoff | finishCallback =>
    simp only [step]
    rcases t.warm.callbacks with _ | a
    · exact .inl rfl
    · exact .inr ⟨_, rfl, (by rintro ⟨⟩)⟩
  all_goals first | exact .inl rfl | exact .inr ⟨_, rfl, fun _ => rfl⟩

end WarmTransferCoordinator

/-- The cold coordinator puts no leg on hold. -/
theorem ColdTransferCoordinator.heldBy_step {pc : ColdTransferCoordinator.Pc} {reply : EslReply}
    {t : Telephony} {u : String} {b : Bool} {act : CoordinatorAction}
    (h : act ∈ (ColdTransferCoordinator.step pc reply t).2.1) : Coordinators.heldBy u b act = b := by
  cases pc <;> simp only [ColdTransferCoordinator.step] at h
  case startTransfer =>
    split at h
    all_goals
      obtain rfl := List.mem_singleton.1 h
      rfl
  case acceptedHandoff | rejectedCallback | resolvedCallback =>
    obtain ⟨a, -, rfl⟩ := List.mem_map.1 h
    rfl
  all_goals cases h

namespace Coordinators

/-! ## Runs -/

variable {s s' : Coordinators} {log : List Entry} {type : TransferType}

theorem held_acted (log : List Entry) (type : TransferType) (acts : List CoordinatorAction) :
    held (log ++ acts.map (.acted type)) = WarmTransferCoordinator.heldAfter (held log) acts := by
  funext u
  rw [held, List.foldl_append, List.foldl_map]
  rfl

/-- The entry is an action. -/
def isAction : Entry → Bool
  | .acted .. => true
  | _ => false

theorem held_entry {e : Entry} (he : isAction e = false) : held (log ++ [e]) = held log := by
  funext u
  rw [held, List.foldl_append]
  cases e <;> first | rfl | cases he

theorem held_returned (log : List Entry) (pc : Pc) : held (log ++ returned pc) = held log := by
  unfold returned
  split
  · exact held_entry rfl
  · exact held_entry rfl
  · rw [List.append_nil]

theorem Unheld.returned (h : Unheld log) (pc : Pc) : Unheld (log ++ returned pc) := by
  unfold Coordinators.returned
  split
  · exact throughout_concat.2 ⟨h, nofun⟩
  · exact throughout_concat.2 ⟨h, nofun⟩
  · rwa [List.append_nil]

/-- What holds of the runs whose attempts end where the customer is taken off hold. -/
structure HoldInv (s : Coordinators) : Prop where
  holding : WarmTransferCoordinator.Holding s.tel (warmAt s.control) (warmAt s.esl) (held s.log)
  unheld : Unheld s.log

theorem holdInv_init : HoldInv {} where
  holding := ⟨fun _ hu => absurd rfl hu, nofun, nofun, fun _ _ _ => rfl, nofun⟩
  unheld := throughout_nil

/-- A step of the warm coordinator, on either thread. -/
theorem HoldInv.advance_warm (h : HoldInv s) {pc : WarmTransferCoordinator.Pc} {reply : EslReply}
    {control' esl' : Option Pc}
    (hpc : warmAt s.control = some pc ∨ warmAt s.esl = some pc)
    (hh : WarmTransferCoordinator.Holding (WarmTransferCoordinator.step pc reply s.tel).1
      (warmAt control') (warmAt esl') (WarmTransferCoordinator.heldAfter (held s.log)
        (WarmTransferCoordinator.step pc reply s.tel).2.1)) :
    HoldInv { s.advance (.warm pc) reply with control := control', esl := esl' } := by
  refine ⟨?_, Unheld.returned ?_ (.warm pc)⟩
  · rw [← held_acted _ .warm, ← held_returned _ (.warm pc)] at hh
    exact hh
  · change Unheld (s.log ++ (WarmTransferCoordinator.step pc reply s.tel).2.1.map (.acted .warm))
    rcases WarmTransferCoordinator.step_acts pc reply s.tel with hacts | ⟨act, hacts, hend⟩
    · simpa [hacts] using h.unheld
    · rw [hacts]
      refine throughout_concat.2 ⟨h.unheld, fun he u => h.holding.unheld ⟨pc, hpc, ?_⟩ u⟩
      by_contra hp
      rw [hend (by simpa using hp)] at he
      cases he

/-- A step of the cold coordinator, on either thread. -/
theorem HoldInv.advance_cold (h : HoldInv s) {pc : ColdTransferCoordinator.Pc} {reply : EslReply}
    {control' esl' : Option Pc} (hcontrol : warmAt control' = warmAt s.control)
    (hesl : warmAt esl' = warmAt s.esl) :
    HoldInv { s.advance (.cold pc) reply with control := control', esl := esl' } := by
  obtain ⟨hwarm, hjobs, -⟩ := ColdTransferCoordinator.step_frame s.tel reply pc
  have hheld : held (s.log ++ (ColdTransferCoordinator.step pc reply s.tel).2.1.map
      (.acted .cold) ++ returned (.cold pc)) = held s.log := by
    rw [held_returned, held_acted]
    exact WarmTransferCoordinator.heldAfter_of_forall fun act hact _ _ =>
      ColdTransferCoordinator.heldBy_step hact
  refine ⟨?_, Unheld.returned ?_ (.cold pc)⟩
  · have hh := h.holding.congr hwarm hjobs
    rw [← hcontrol, ← hesl, ← hheld] at hh
    exact hh
  · refine h.unheld.append (throughout_of_forall fun e he before hend => ?_)
    obtain ⟨act, -, rfl⟩ := List.mem_map.1 he
    cases hend

theorem HoldInv.control (h : HoldInv s) {reply : EslReply} (hg : Unholds s (.control reply))
    (hst : s.step (.control reply) = some s') : HoldInv s' := by
  obtain ⟨pc, hpc, rfl⟩ := Option.map_eq_some_iff.1 hst
  rcases pc with pc | pc
  · have hwarm : warmAt s.control = some pc := by rw [hpc]; rfl
    have hh := h.holding
    rw [hwarm] at hh
    refine h.advance_warm (.inl hwarm) ?_
    have hh := hh.stepControl (fun he => hg (by rw [hpc, he]))
    rwa [← warmAt_map (WarmTransferCoordinator.step pc reply s.tel).2.2] at hh
  · exact h.advance_cold (by rw [hpc]; exact warmAt_map_cold _) rfl

theorem HoldInv.esl (h : HoldInv s) {reply : EslReply} (hst : s.step (.esl reply) = some s') :
    HoldInv s' := by
  obtain ⟨pc, hpc, rfl⟩ := Option.map_eq_some_iff.1 hst
  rcases pc with pc | pc
  · have hwarm : warmAt s.esl = some pc := by rw [hpc]; rfl
    have hh := h.holding
    rw [hwarm] at hh
    refine h.advance_warm (.inr hwarm) ?_
    have hh := hh.stepEsl reply
    rwa [← warmAt_map (WarmTransferCoordinator.step pc reply s.tel).2.2] at hh
  · exact h.advance_cold rfl (by rw [hpc]; exact warmAt_map_cold _)

/-- An entry that does not end an attempt, and is not an action. -/
theorem HoldInv.note (h : HoldInv s) {e : Entry} (he : isAction e = false)
    (hend : endsUnbridged e = true → ∀ u, held s.log u = false) :
    HoldInv { s with log := s.log ++ [e] } := by
  refine ⟨?_, throughout_concat.2 ⟨h.unheld, hend⟩⟩
  have hh := h.holding
  rwa [← held_entry he] at hh

theorem HoldInv.event (h : HoldInv s) {e : EslEvent} (hst : s.step (.event e) = some s') :
    HoldInv s' := by
  simp only [Coordinators.step] at hst
  split at hst
  case isFalse => cases hst
  case isTrue hesl =>
  obtain rfl := Option.some.inj hst
  have h' : HoldInv { s with log := s.log ++ answered e } := by
    unfold answered
    split
    · split
      · exact h.note rfl (by rintro ⟨⟩)
      · rwa [List.append_nil]
    · rwa [List.append_nil]
  have hleg {uuid : String} {ok : Bool} {detail : String} {tel : Telephony} {pc : Pc}
      (hr : resolve.leg s.tel uuid ok detail = some (tel, pc)) :
      HoldInv { s with log := s.log ++ answered e, tel := tel, esl := some pc } := by
    obtain ⟨destination, -, heq⟩ := Option.map_eq_some_iff.1 hr
    obtain ⟨rfl, rfl⟩ := Prod.mk.inj heq
    refine ⟨?_, h'.unheld⟩
    have hh : WarmTransferCoordinator.Holding _ _ (warmAt s.esl) _ := h'.holding
    rw [hesl] at hh
    exact hh.congr rfl rfl
  split
  · next tel pc hr =>
    rcases e with ⟨uuid, result⟩ | uuid | uuid | uuid
    · obtain ⟨_, hu, heq⟩ := Option.map_eq_some_iff.1 hr
      obtain ⟨rfl, rfl⟩ := Prod.mk.inj heq
      refine ⟨?_, h'.unheld⟩
      have hh := h'.holding
      change WarmTransferCoordinator.Holding _ _ (warmAt s.esl) _ at hh
      rw [hesl] at hh
      exact hh.take (by simp [hu])
    all_goals exact hleg hr
  · exact h'

theorem HoldInv.start (h : HoldInv s) {ctx : TransferCoordinatorContext}
    (hg : Unholds s (.start type ctx)) (hst : s.step (.start type ctx) = some s') :
    HoldInv s' := by
  simp only [Coordinators.step] at hst
  split at hst
  case isFalse => cases hst
  case isTrue hc =>
  obtain rfl := Option.some.inj hst
  have h' : HoldInv { s with log := s.log ++ [.started type s.attempts ctx.callId] } :=
    h.note rfl (by rintro ⟨⟩)
  have hh := h'.holding
  have hcW : warmAt s.control = none := by rw [hc]; rfl
  change WarmTransferCoordinator.Holding s.tel (warmAt s.control) (warmAt s.esl) _ at hh
  rw [hcW] at hh
  refine ⟨?_, h'.unheld⟩
  rcases type
  · obtain ⟨hs, hn⟩ := hg rfl
    change WarmTransferCoordinator.Holding _ _ (warmAt s.esl) _
    rw [warmAt_eq_none hn] at hh ⊢
    exact hh.start ctx s.attempts hs
  · exact hh.congr rfl rfl

theorem HoldInv.cancel (h : HoldInv s) (hst : s.step (.cancel type) = some s') : HoldInv s' := by
  simp only [Coordinators.step] at hst
  split at hst
  case isFalse => cases hst
  case isTrue hc =>
  obtain rfl := Option.some.inj hst
  have hh := h.holding
  have hcW : warmAt s.control = none := by rw [hc]; rfl
  rw [hcW] at hh
  refine ⟨?_, by rcases type <;> exact h.unheld⟩
  rcases type
  · have hh := hh.cancel
    rwa [← warmAt_map (WarmTransferCoordinator.cancel s.tel)] at hh
  · exact hh

theorem shutdown_log (s : Coordinators) (type : TransferType) :
    (s.shutdown type).log = s.log ++ [.shutdown type (s.state type)] ∨
      (s.shutdown type).log = s.log ++ [.shutdown type (s.state type)] ++ [.shutDown type] := by
  simp only [Coordinators.shutdown]
  split <;> split <;> simp

theorem HoldInv.shutdown (h : HoldInv s) (hg : Unholds s (.shutdown type))
    (hst : s.step (.shutdown type) = some s') : HoldInv s' := by
  simp only [Coordinators.step] at hst
  split at hst
  case isFalse => cases hst
  case isTrue hc =>
  obtain rfl := Option.some.inj hst
  have hcW : warmAt s.control = none := by rw [hc]; rfl
  have hh := h.holding
  rw [hcW] at hh
  have hheld (ht : type = .warm) : ∀ u, held s.log u = false := by
    refine hh.unheld_of_shutdown fun hs hm => ?_
    obtain ⟨pc, hpc, hp⟩ := hg ht hs hm
    exact ⟨pc, by rw [hpc]; rfl, hp⟩
  have h' : HoldInv { s with log := s.log ++ [.shutdown type (s.state type)] } :=
    h.note rfl fun hend => hheld (by rcases type <;> [rfl; cases hend])
  have hlog : held (s.shutdown type).log = held s.log ∧ Unheld (s.shutdown type).log := by
    rcases shutdown_log s type with hl | hl <;> rw [hl]
    · rw [held_entry rfl]
      exact ⟨rfl, h'.unheld⟩
    · rw [held_entry rfl, held_entry rfl]
      exact ⟨rfl, throughout_concat.2 ⟨h'.unheld, (by rintro ⟨⟩)⟩⟩
  refine ⟨?_, hlog.2⟩
  rw [hlog.1]
  rcases type
  · have hh := hh.shutdown (hheld rfl)
    rwa [← warmAt_map (WarmTransferCoordinator.shutdown s.tel)] at hh
  · rwa [← warmAt_map_cold (ColdTransferCoordinator.shutdown s.tel)] at hh

theorem HoldInv.step (h : HoldInv s) {l : Label} (hg : Unholds s l) (hst : s.step l = some s') :
    HoldInv s' := by
  cases l with
  | start => exact h.start hg hst
  | cancel => exact h.cancel hst
  | shutdown => exact h.shutdown hg hst
  | control => exact h.control hg hst
  | event => exact h.event hst
  | esl => exact h.esl hst

/-- As long as the attempts end where the customer is taken off hold, the
    customer is off hold whenever an attempt ends without a bridge. -/
theorem reachable_unheld (h : system.ReachableIf Unholds s) : Unheld s.log :=
  have hI : HoldInv s := h.invariant holdInv_init fun _ _ _ hI hg => hI.step hg
  hI.unheld

/-- The agent is busy: the customer, on hold, is taken off it. -/
theorem reachable_unheld_busy :
    ∃ s, system.Reachable s ∧ s.log.any endsUnbridged = true ∧ Unheld s.log := by
  let ctx : TransferCoordinatorContext := ⟨"call", "agent", "", "id", "", "moh"⟩
  have h₁ : system.ReachableIf Unholds _ :=
    .step (l := .start .warm ctx) .init (fun _ => ⟨nofun, nofun⟩) rfl
  have h₂ : system.ReachableIf Unholds _ :=
    .step (l := .control (.ok "")) h₁ (fun h => absurd h (by decide)) rfl
  have h₃ : system.ReachableIf Unholds _ :=
    .step (l := .control (.ok "job")) h₂ (fun _ _ => ⟨"job", rfl, by decide⟩) rfl
  have h₄ : system.ReachableIf Unholds _ :=
    .step (l := .control (.ok "")) h₃ (fun h => absurd h (by decide)) rfl
  have h₅ : system.ReachableIf Unholds _ :=
    .step (l := .event (.backgroundJob "job" "")) h₄ trivial rfl
  have h₆ : system.ReachableIf Unholds _ := .step (l := .esl (.ok "")) h₅ trivial rfl
  have h₇ : system.ReachableIf Unholds _ := .step (l := .esl (.ok "")) h₆ trivial rfl
  have h₈ : system.ReachableIf Unholds _ := .step (l := .esl (.ok "")) h₇ trivial rfl
  have h₉ : system.ReachableIf Unholds _ := .step (l := .esl (.ok "")) h₈ trivial rfl
  have h₁₀ : system.ReachableIf Unholds _ := .step (l := .esl (.ok "")) h₉ trivial rfl
  exact ⟨_, h₁₀.reachable, by decide, reachable_unheld h₁₀⟩

/-- The call of the agent is rejected, and the customer stays on hold. -/
theorem not_reachable_unheld : ¬∀ s, system.Reachable s → Unheld s.log := by
  intro h
  let ctx : TransferCoordinatorContext := ⟨"call", "agent", "", "id", "", "moh"⟩
  have hexec : (system.exec {} [.start .warm ctx, .control (.ok ""), .control (.error "busy"),
      .control (.ok ""), .control (.ok ""), .control (.ok ""), .control (.ok "")]).map
        (fun s => s.log) = some ([.started .warm 0 "call", .acted .warm (.esl (.hold "call") (.ok "")),
          .acted .warm (.esl (.originateAsync "agent" "") (.error "busy"))] ++
          [.acted .warm (.onTransferCompleted 0 false "agent" "busy")]) := by decide
  obtain ⟨s, hs, hlog⟩ := Option.map_eq_some_iff.1 hexec
  have hn := h s (System.Reachable.exec .init hs) _ _ [] hlog rfl "call"
  exact absurd hn (by decide)

end Coordinators

end Yuviz.Gateway
