import Yuviz.Gateway.Telephony.Coordinators
import Yuviz.Log

/-!
# The completion of an attempt

An attempt is completed by the thread that has it: the control thread while it
starts or cancels it, the ESL thread once it has taken its handler out of the
correlator. The `Phase` of a coordinator tells which one it is. To cancel the
watch of an attempt does nothing to a handler that is already out.

* `reachable_completions`: as long as the runs are `Orderly`, an attempt
  completes at most once, and a coordinator does nothing once `shutdown` has
  returned.
* `not_reachable_completions`: a transfer that is cancelled while its handler is
  running completes twice.
-/

namespace Yuviz.Gateway

namespace Coordinators

/-! ## The contract -/

/-- The entry is the completion of the attempt `a`. -/
def isCompletion (a : ℕ) : Entry → Bool
  | .acted _ (.onTransferCompleted a' _ _ _) => a = a'
  | _ => false

/-- How often the attempt `a` has completed. -/
def completions (a : ℕ) (log : List Entry) : ℕ := log.countP (isCompletion a)

/-- Whether a coordinator is shut down after an entry, from whether it was before. -/
def shutDownBy (type : TransferType) (before : Bool) : Entry → Bool
  | .shutDown type' => before || type = type'
  | .started type' _ _ => before && type ≠ type'
  | _ => before

/-- The last call of `shutdown` has returned, and no attempt was started since. -/
def isShutDown (type : TransferType) (log : List Entry) : Bool :=
  log.foldl (shutDownBy type) false

/-- No coordinator has acted after the return of `shutdown`. -/
def Quiet (log : List Entry) : Prop :=
  Throughout (fun before e => ∀ type action, e = .acted type action → isShutDown type before = false)
    log

/-- The ESL thread runs a handler of the coordinator. -/
def handles (s : Coordinators) (type : TransferType) : Prop := s.esl.map Pc.type = some type

/-- At this point of a method, the watch of the attempt is about to be cancelled
    and its failure reported. -/
def fails : Pc → Bool
  | .warm .cancelHangup | .warm .cancelUnhold | .warm (.finish ..) | .warm (.finishJob ..) => true
  | .cold (.rejectedCancel ..) => true
  | _ => false

/-- The methods and the handlers of a coordinator do not get in each other's way:
    * an attempt is started when the one before is over, and no handler runs;
    * an attempt is cancelled while no handler has taken it over;
    * no handler is running when `shutdown` returns;
    * a transfer is rejected while no handler has taken it over;
    * no handler is taken out of a correlator while the attempt is failing. -/
def Orderly (s : Coordinators) : Label → Prop
  | .start type _ => s.state type ≠ .active ∧ ¬s.handles type
  | .cancel type => type = .warm → ¬(s.state type = .active ∧ s.handles type)
  | .shutdown _ => True
  | .control reply =>
    (s.control = some (.warm .shutdownState) → ¬s.handles .warm) ∧
    (s.control = some (.cold .shutdownState) → ¬s.handles .cold) ∧
    ∀ ctx, s.control = some (.cold (.startTransfer ctx)) → reply matches .error _ →
      s.state .cold = .active ∧ ¬s.handles .cold
  | .event e => ∀ tel pc, resolve s.tel e = some (tel, pc) →
    ∀ pc', s.control = some pc' → pc'.type = pc.type → fails pc' = false
  | .esl _ => True

end Coordinators

/-- The effect of a step on the completion of the attempt: it completes the
    attempt that was to be completed, or no attempt. -/
inductive Completes (callbacks : Option ℕ) (acts : List CoordinatorAction) :
    Bool → Bool → Prop
  | completes (success : Bool) (destination detail : String) :
      acts = callbacks.toList.map
        (fun a => .onTransferCompleted a success destination detail) →
      Completes callbacks acts true false
  | nothing {live live' : Bool} :
      (∀ act ∈ acts, ¬act matches .onTransferCompleted ..) → (live' = true → live = true) →
      Completes callbacks acts live live'

theorem Completes.of_not_live {callbacks : Option ℕ} {acts : List CoordinatorAction} {live' : Bool}
    (h : Completes callbacks acts false live') :
    live' = false := by
  cases h with
  | nothing _ h => cases live' <;> simp_all

/-! ## The phases of the warm coordinator -/

namespace WarmTransferCoordinator

/-- Only the job of the attempt is watched. -/
def Watches (w : WarmTransferCoordinator) (jobs : TransferCorrelator Unit) : Prop :=
  ∀ u, jobs.pending u ≠ none → u = w.jobUuid ∧ u ≠ ""

/-- No job is watched. -/
def Unwatched (jobs : TransferCorrelator Unit) : Prop := ∀ u, jobs.pending u = none

namespace Pc

/-- A point of `shutdown`. -/
def ofShutdown : Pc → Bool
  | .shutdownJob | .shutdownLeg | .shutdownState => true
  | _ => false

/-- A point of `start`, before it fails. -/
def ofStart : Pc → Bool
  | .startHold | .startOriginate | .startWatch => true
  | _ => false

/-- A point of `cancel`, or of the end of an attempt. -/
def ofFinish : Pc → Bool
  | .cancelHangup | .cancelUnhold
  | .finish .. | .finishJob .. | .finishLeg .. | .finishCallback .. => true
  | _ => false

/-- A point of the handler of a job. -/
def ofHandler : Pc → Bool
  | .originateFailed _ | .agentAnswered _ | .answeredUnhold | .answeredHandoff
  | .answeredStopFork | .answeredBridge | .bridgeFailed _
  | .finish .. | .finishJob .. | .finishLeg .. | .finishCallback .. => true
  | _ => false

/-- A point at which the watch of the job has been cancelled. -/
def unwatched : Pc → Bool
  | .finishLeg .. | .finishCallback .. => true
  | _ => false

/-- A point at which the attempt has been marked as completed. -/
def completed : Pc → Bool
  | .finishJob .. | .finishLeg .. | .finishCallback .. => true
  | _ => false

end Pc

/-- The phases of an attempt: which of the threads is to complete it, if any.
    The last argument tells whether the attempt is still to be completed. -/
inductive Phase (w : WarmTransferCoordinator) (jobs : TransferCorrelator Unit) :
    Option Pc → Option Pc → Bool → Prop
  /-- No attempt is to be completed; it may just be shutting down. -/
  | resting {control : Option Pc} :
      Unwatched jobs → (∀ pc, control = some pc → pc.ofShutdown = true) →
      (control = none → w.state ≠ .active) → Phase w jobs control none false
  /-- The control thread is in the middle of `start`. -/
  | starting {pc : Pc} :
      Unwatched jobs → pc.ofStart = true → w.state = .active →
      (pc = .startWatch → w.jobUuid ≠ "") → Phase w jobs (some pc) none true
  /-- The control thread is cancelling the attempt, or its start has failed. -/
  | failing {pc : Pc} :
      Watches w jobs → pc.ofFinish = true → (pc.unwatched = true → Unwatched jobs) →
      w.state ≠ .idle → (pc.completed = true → w.state = .completed) →
      Phase w jobs (some pc) none true
  /-- The job is watched. -/
  | watching {control : Option Pc} :
      Watches w jobs → (∀ pc, control = some pc → pc = .shutdownJob) → w.state = .active →
      Phase w jobs control none true
  /-- The handler of the job is running. -/
  | handling {control : Option Pc} {pc : Pc} :
      Unwatched jobs → (∀ pc', control = some pc' → pc'.ofShutdown = true) →
      pc.ofHandler = true → w.state ≠ .idle → (pc.completed = true → w.state = .completed) →
      Phase w jobs control (some pc) true

variable {t : Telephony} {pc : Pc} {control esl : Option Pc} {live : Bool}

/-! ### The watch of the job -/

theorem Unwatched.cancel {jobs : TransferCorrelator Unit} (h : Unwatched jobs) (u : String) :
    Unwatched (jobs.cancel u) := by
  intro v
  by_cases hv : v = u <;> simp [TransferCorrelator.cancel, hv, h v]

theorem Unwatched.watches {w : WarmTransferCoordinator} {jobs : TransferCorrelator Unit}
    (h : Unwatched jobs) : Watches w jobs := fun u hu => absurd (h u) hu

theorem Watches.cancel {w : WarmTransferCoordinator} {jobs : TransferCorrelator Unit}
    (h : Watches w jobs) : Unwatched (jobs.cancel w.jobUuid) := by
  intro u
  by_cases hu : u = w.jobUuid
  · simp [TransferCorrelator.cancel, hu]
  · have hn : jobs.pending u = none := not_not.1 fun hne => hu (h u hne).1
    simp [TransferCorrelator.cancel, hu, hn]

/-- The job is not watched any more, whether it had a uuid or not. -/
theorem Watches.cancelJob (h : Watches t.warm t.jobs) : Unwatched (cancelJob t).jobs := by
  unfold WarmTransferCoordinator.cancelJob
  split
  · exact h.cancel
  · next hj => exact fun u => not_not.1 fun hne => (h u hne).2 ((h u hne).1.trans (not_not.1 hj))

theorem Unwatched.watch {w : WarmTransferCoordinator} {jobs : TransferCorrelator Unit}
    (h : Unwatched jobs) (hw : w.jobUuid ≠ "") : Watches w (jobs.watch w.jobUuid ()) := by
  intro u hu
  by_cases hj : u = w.jobUuid
  · exact ⟨hj, hj ▸ hw⟩
  · simp [TransferCorrelator.watch, hj, h u] at hu

/-! ### The steps -/

/-- A step of the control thread. -/
theorem Phase.stepControl (reply : EslReply) (h : Phase t.warm t.jobs (some pc) esl live)
    (hg : pc = .shutdownState → esl = none) :
    ∃ live', Phase (step pc reply t).1.warm (step pc reply t).1.jobs (step pc reply t).2.2 esl live' ∧
      Completes t.warm.callbacks (step pc reply t).2.1 live live' := by
  cases h with
  | resting hu hc hs =>
    have hpc := hc pc rfl
    cases pc <;> simp only [Pc.ofShutdown, Bool.false_eq_true] at hpc
    case shutdownJob =>
      exact ⟨false, .resting hu.watches.cancelJob (by simp [step, Pc.ofShutdown]) nofun,
        .nothing (by simp [step]) id⟩
    case shutdownLeg =>
      exact ⟨false, .resting (by simpa [step] using hu) (by simp [step, Pc.ofShutdown]) nofun,
        .nothing (by simp [step]) id⟩
    case shutdownState =>
      exact ⟨false, .resting hu nofun (fun _ => nofun), .nothing (by simp [step]) id⟩
  | starting hu hpc hs hj =>
    cases pc <;> simp only [Pc.ofStart, Bool.false_eq_true] at hpc
    case startHold => exact ⟨true, .starting hu rfl hs nofun, .nothing (by simp [step]) id⟩
    case startOriginate =>
      simp only [step]
      split
      · split
        · exact ⟨true, .failing hu.watches rfl nofun (by simp [hs]) nofun, .nothing (by simp) id⟩
        · next hne => exact ⟨true, .starting hu rfl hs fun _ => hne, .nothing (by simp) id⟩
      · exact ⟨true, .failing hu.watches rfl nofun (by simp [hs]) nofun, .nothing (by simp) id⟩
    case startWatch =>
      exact ⟨true, .watching (hu.watch (hj rfl)) nofun hs, .nothing (by simp [step]) id⟩
  | failing hw hpc hu hi hs =>
    cases pc <;> simp only [Pc.ofFinish, Bool.false_eq_true] at hpc
    case cancelHangup =>
      refine ⟨true, .failing hw rfl nofun hi nofun, .nothing ?_ id⟩
      simp only [step]
      split <;> simp
    case cancelUnhold =>
      exact ⟨true, .failing hw rfl nofun hi nofun, .nothing (by simp [step]) id⟩
    case finish =>
      exact ⟨true, .failing hw rfl nofun nofun (fun _ => rfl), .nothing (by simp [step]) id⟩
    case finishJob =>
      have hu := hw.cancelJob
      exact ⟨true, .failing hu.watches rfl (fun _ => hu) (by simpa [step] using hi)
        (fun _ => by simpa [step] using hs rfl), .nothing (by simp [step]) id⟩
    case finishLeg =>
      have hu := hu rfl
      exact ⟨true, .failing (by simpa [step] using hu.watches) rfl (fun _ => by simpa [step] using hu)
        (by simpa [step] using hi) (fun _ => by simpa [step] using hs rfl), .nothing (by simp [step]) id⟩
    case finishCallback success destination detail =>
      exact ⟨false, .resting (hu rfl) nofun (fun _ => by simp [step, hs rfl]),
        .completes success destination detail rfl⟩
  | watching hw hc hs =>
    obtain rfl := hc pc rfl
    exact ⟨false, .resting hw.cancelJob (by simp [step, Pc.ofShutdown]) nofun,
      .nothing (by simp [step]) nofun⟩
  | handling hu hc hpc hi hs =>
    have hpc' := hc pc rfl
    cases pc <;> simp only [Pc.ofShutdown, Bool.false_eq_true] at hpc'
    case shutdownJob =>
      exact ⟨true, .handling hu.watches.cancelJob (by simp [step, Pc.ofShutdown]) hpc
        (by simpa [step] using hi) (by simpa [step] using hs), .nothing (by simp [step]) id⟩
    case shutdownLeg =>
      exact ⟨true, .handling (by simpa [step] using hu) (by simp [step, Pc.ofShutdown]) hpc
        (by simpa [step] using hi) (by simpa [step] using hs), .nothing (by simp [step]) id⟩
    case shutdownState => cases hg rfl

/-- A step of the ESL thread. -/
theorem Phase.stepEsl (reply : EslReply) (h : Phase t.warm t.jobs control (some pc) live) :
    ∃ live', Phase (step pc reply t).1.warm (step pc reply t).1.jobs control (step pc reply t).2.2
        live' ∧
      Completes t.warm.callbacks (step pc reply t).2.1 live live' := by
  cases h with
  | handling hu hc hpc hi hs =>
    cases pc <;> simp only [Pc.ofHandler, Bool.false_eq_true] at hpc
    case originateFailed | answeredUnhold | answeredStopFork | bridgeFailed =>
      exact ⟨true, .handling hu hc rfl hi nofun, .nothing (by simp [step]) id⟩
    case agentAnswered =>
      exact ⟨true, .handling hu hc rfl hi nofun, .nothing (by simp [step]) id⟩
    case answeredHandoff =>
      exact ⟨true, .handling hu hc rfl hi nofun, .nothing (by simp [step]) id⟩
    case answeredBridge =>
      simp only [step]
      split
      · exact ⟨true, .handling hu hc rfl hi nofun, .nothing (by simp) id⟩
      · exact ⟨true, .handling hu hc rfl hi nofun, .nothing (by simp) id⟩
    case finish =>
      exact ⟨true, .handling hu hc rfl nofun (fun _ => rfl), .nothing (by simp [step]) id⟩
    case finishJob =>
      exact ⟨true, .handling hu.watches.cancelJob hc rfl (by simpa [step] using hi)
        (fun _ => by simpa [step] using hs rfl), .nothing (by simp [step]) id⟩
    case finishLeg =>
      exact ⟨true, .handling (by simpa [step] using hu) hc rfl (by simpa [step] using hi)
        (fun _ => by simpa [step] using hs rfl), .nothing (by simp [step]) id⟩
    case finishCallback success destination detail =>
      exact ⟨false, .resting hu hc (fun _ => by simp [step, hs rfl]),
        .completes success destination detail rfl⟩

/-- The attempt of a handler that is running is still to be completed. -/
theorem Phase.handling_live {w : WarmTransferCoordinator} {jobs : TransferCorrelator Unit}
    (h : Phase w jobs control (some pc) live) : live = true ∧ pc.ofHandler = true := by
  cases h with
  | handling _ _ hpc => exact ⟨rfl, hpc⟩

/-- A coordinator at the end of `shutdown` has no attempt to complete, unless a
    handler is still running. -/
theorem Phase.of_shutdownState {w : WarmTransferCoordinator} {jobs : TransferCorrelator Unit}
    (h : Phase w jobs (some .shutdownState) none live) : live = false := by
  cases h with
  | resting => rfl
  | starting _ hpc => cases hpc
  | failing _ hpc => cases hpc
  | watching _ hc => exact absurd (hc _ rfl) nofun

/-- The points of `shutdown` do nothing but to undo the watches. -/
theorem step_ofShutdown (h : pc.ofShutdown = true) (reply : EslReply) (t : Telephony) :
    (step pc reply t).2.1 = [] ∧ ∀ pc', (step pc reply t).2.2 = some pc' → pc'.ofShutdown = true := by
  cases pc <;> simp only [Pc.ofShutdown, Bool.false_eq_true] at h
  all_goals exact ⟨rfl, by simp [step, Pc.ofShutdown]⟩

/-- The handler of the job is taken out of the correlator. -/
theorem Phase.take {u result : String} {ok : Bool} (h : Phase t.warm t.jobs control none live)
    (hu : t.jobs.pending u ≠ none)
    (hg : ∀ pc, control = some pc → Coordinators.fails (.warm pc) = false) :
    Phase t.warm (t.jobs.cancel u) control (some (onJobResolved ok result)) live := by
  cases h with
  | resting h => exact absurd (h u) hu
  | starting h => exact absurd (h u) hu
  | @failing pc hw hpc hu' =>
    have hf := hg pc rfl
    cases pc <;> simp only [Pc.ofFinish, Coordinators.fails, Bool.true_eq_false,
      Bool.false_eq_true] at hpc hf
    all_goals exact absurd (hu' rfl u) hu
  | watching hw hc hs =>
    obtain ⟨rfl, -⟩ := hw u hu
    refine .handling hw.cancel (fun pc hpc => by rw [hc pc hpc]; rfl) ?_ (by simp [hs]) ?_ <;>
      cases ok <;> simp [onJobResolved, Pc.ofHandler, Pc.completed]

/-- An attempt is started when the one before is over. -/
theorem Phase.start (ctx : TransferCoordinatorContext) (attempt : ℕ)
    (h : Phase t.warm t.jobs none none live) (hs : t.warm.state ≠ .active) :
    Phase (start ctx attempt t).1.warm (start ctx attempt t).1.jobs (some (start ctx attempt t).2)
      none true := by
  cases h with
  | resting hu =>
    refine .starting hu ?_ rfl ?_ <;> unfold WarmTransferCoordinator.start <;> dsimp only <;>
      split <;> simp [Pc.ofStart]
  | watching _ _ hs' => exact absurd hs' hs

/-- An attempt is cancelled while no handler has taken it over. -/
theorem Phase.cancel (h : Phase t.warm t.jobs none esl live)
    (hg : t.warm.state = .active → esl = none) :
    Phase t.warm t.jobs (cancel t) esl live := by
  unfold WarmTransferCoordinator.cancel
  split
  · exact h
  · next hs =>
    obtain rfl := hg (not_not.1 hs)
    cases h with
    | resting _ _ hs' => exact absurd (not_not.1 hs) (hs' rfl)
    | watching hw _ hs' => exact .failing hw rfl nofun (by simp [hs']) nofun

theorem Phase.cancel_eq_none (h : Phase t.warm t.jobs none esl false) :
    WarmTransferCoordinator.cancel t = none := by
  cases h with
  | resting _ _ hs => simp [WarmTransferCoordinator.cancel, hs rfl]

theorem Phase.shutdown (h : Phase t.warm t.jobs none esl live) :
    Phase t.warm t.jobs (shutdown t) esl live ∧ (shutdown t = none → live = false ∧ esl = none) := by
  unfold WarmTransferCoordinator.shutdown
  split
  · next hs =>
    refine ⟨h, fun _ => ?_⟩
    cases h with
    | resting => exact ⟨rfl, rfl⟩
    | watching _ _ hs' => exact absurd (hs'.symm.trans hs) nofun
    | handling _ _ _ hi => exact absurd hs hi
  · refine ⟨?_, nofun⟩
    cases h with
    | resting hu => exact .resting hu (by simp [Pc.ofShutdown]) nofun
    | watching hw _ hs' => exact .watching hw (by simp) hs'
    | handling hu _ hpc hi hs' => exact .handling hu (by simp [Pc.ofShutdown]) hpc hi hs'

theorem shutdown_ofShutdown (h : shutdown t = some pc) : pc.ofShutdown = true := by
  unfold WarmTransferCoordinator.shutdown at h
  split at h <;> cases h
  rfl

end WarmTransferCoordinator

/-! ## The phases of the cold coordinator -/

namespace ColdTransferCoordinator

/-- Only the customer of the attempt is watched. -/
def Watches (c : ColdTransferCoordinator) (legs : TransferCorrelator String) : Prop :=
  ∀ u, legs.pending u ≠ none → u = c.activeCallId

/-- No leg is watched. -/
def Unwatched (legs : TransferCorrelator String) : Prop := ∀ u, legs.pending u = none

namespace Pc

/-- A point of `shutdown`. -/
def ofShutdown : Pc → Bool
  | .shutdownLeg | .shutdownState => true
  | _ => false

/-- A point of `start` at which the attempt has been handed over to the events. -/
def ofWait : Pc → Bool
  | .startTransfer _ | .acceptedHandoff => true
  | _ => false

/-- A point of `start` after the rejection of its command. -/
def ofReject : Pc → Bool
  | .rejectedCancel .. | .rejectedState .. | .rejectedCallback .. => true
  | _ => false

/-- A point of the handler of a leg. -/
def ofHandler : Pc → Bool
  | .resolvedState .. | .resolvedCallback .. => true
  | _ => false

/-- A point at which the attempt has been marked as completed. -/
def completed : Pc → Bool
  | .rejectedCallback .. | .resolvedCallback .. => true
  | _ => false

/-- The leg a point of `start` is about is the one of the coordinator. -/
def About (c : ColdTransferCoordinator) : Pc → Prop
  | .startWatch ctx | .startTransfer ctx | .rejectedCancel ctx _ => ctx.callId = c.activeCallId
  | _ => True

end Pc

/-- The phases of an attempt: which of the threads is to complete it, if any.
    The last argument tells whether the attempt is still to be completed. -/
inductive Phase (c : ColdTransferCoordinator) (legs : TransferCorrelator String) :
    Option Pc → Option Pc → Bool → Prop
  /-- No attempt is to be completed; it may still be starting, or shutting down. -/
  | resting {control : Option Pc} :
      Unwatched legs → (∀ pc, control = some pc → (pc.ofShutdown || pc.ofWait) = true) →
      ((∀ pc, control = some pc → pc.ofShutdown = false) → c.state ≠ .active) →
      Phase c legs control none false
  /-- The control thread is about to watch the leg. -/
  | starting {ctx : TransferCoordinatorContext} :
      Unwatched legs → ctx.callId = c.activeCallId → c.state = .active →
      Phase c legs (some (.startWatch ctx)) none true
  /-- The command has been rejected. -/
  | failing {pc : Pc} :
      Watches c legs → pc.ofReject = true → pc.About c →
      ((∀ ctx error, pc ≠ .rejectedCancel ctx error) → Unwatched legs) →
      c.state ≠ .idle → (pc.completed = true → c.state = .completed) →
      Phase c legs (some pc) none true
  /-- The leg is watched. -/
  | watching {control : Option Pc} :
      Watches c legs →
      (∀ pc, control = some pc → (pc = .shutdownLeg ∨ pc.ofWait = true) ∧ pc.About c) →
      c.state = .active → Phase c legs control none true
  /-- The handler of the leg is running. -/
  | handling {control : Option Pc} {pc : Pc} :
      Unwatched legs → (∀ pc', control = some pc' → (pc'.ofShutdown || pc'.ofWait) = true) →
      pc.ofHandler = true → c.state ≠ .idle → (pc.completed = true → c.state = .completed) →
      Phase c legs control (some pc) true

variable {t : Telephony} {pc : Pc} {control esl : Option Pc} {live : Bool}

/-! ### The watch of the leg -/

theorem Unwatched.watches {c : ColdTransferCoordinator} {legs : TransferCorrelator String}
    (h : Unwatched legs) : Watches c legs := fun u hu => absurd (h u) hu

theorem Watches.cancel {c : ColdTransferCoordinator} {legs : TransferCorrelator String}
    (h : Watches c legs) : Unwatched (legs.cancel c.activeCallId) := by
  intro u
  by_cases hu : u = c.activeCallId
  · simp [TransferCorrelator.cancel, hu]
  · have hn : legs.pending u = none := not_not.1 fun hne => hu (h u hne)
    simp [TransferCorrelator.cancel, hu, hn]

theorem Unwatched.watch {c : ColdTransferCoordinator} {legs : TransferCorrelator String}
    (h : Unwatched legs) (destination : String) :
    Watches c (legs.watch c.activeCallId destination) := by
  intro u hu
  by_contra hc
  simp [TransferCorrelator.watch, hc, h u] at hu

/-! ### The steps -/

/-- A step of the control thread. -/
theorem Phase.stepControl (reply : EslReply) (h : Phase t.cold t.legs (some pc) esl live)
    (hg : pc = .shutdownState → esl = none)
    (hr : ∀ ctx, pc = .startTransfer ctx → reply matches .error _ →
      t.cold.state = .active ∧ esl = none) :
    ∃ live', Phase (step pc reply t).1.cold (step pc reply t).1.legs (step pc reply t).2.2 esl live' ∧
      Completes t.cold.callbacks (step pc reply t).2.1 live live' := by
  cases h with
  | resting hu hc hs =>
    have hpc := hc pc rfl
    cases pc <;> simp only [Pc.ofShutdown, Pc.ofWait, Bool.or_self, Bool.false_eq_true] at hpc
    case startTransfer ctx =>
      have hs := hs (by simp [Pc.ofShutdown])
      cases reply with
      | ok =>
        exact ⟨false, .resting hu (by simp [step, Pc.ofWait]) fun _ => hs,
          .nothing (by simp [step]) id⟩
      | error error => exact absurd (hr ctx rfl rfl).1 hs
    case acceptedHandoff =>
      exact ⟨false, .resting hu nofun fun _ => hs (by simp [Pc.ofShutdown]),
        .nothing (by simp [step]) id⟩
    case shutdownLeg =>
      exact ⟨false, .resting hu.watches.cancel (by simp [step, Pc.ofShutdown])
        (by simp [step, Pc.ofShutdown]), .nothing (by simp [step]) id⟩
    case shutdownState =>
      exact ⟨false, .resting hu nofun (fun _ => nofun), .nothing (by simp [step]) id⟩
  | starting hu hctx hs =>
    refine ⟨true, .watching ?_ (by simp [step, Pc.ofWait, Pc.About, hctx]) hs,
      .nothing (by simp [step]) id⟩
    simp only [step]
    rw [hctx]
    exact hu.watch _
  | failing hw hpc habout hu hi hs =>
    cases pc <;> simp only [Pc.ofReject, Bool.false_eq_true] at hpc
    case rejectedCancel ctx error =>
      have hu : Unwatched (t.legs.cancel ctx.callId) := by
        rw [show ctx.callId = t.cold.activeCallId from habout]
        exact hw.cancel
      exact ⟨true, .failing hu.watches rfl trivial (fun _ => hu) hi nofun,
        .nothing (by simp [step]) id⟩
    case rejectedState ctx error =>
      exact ⟨true, .failing (hu nofun).watches rfl trivial (fun _ => hu nofun) nofun
        (fun _ => rfl), .nothing (by simp [step]) id⟩
    case rejectedCallback ctx error =>
      exact ⟨false, .resting (hu nofun) nofun (fun _ => by simp [step, hs rfl]),
        .completes false ctx.destination error rfl⟩
  | watching hw hc hs =>
    obtain ⟨rfl | hpc, habout⟩ := hc pc rfl
    · exact ⟨false, .resting hw.cancel (by simp [step, Pc.ofShutdown])
        (by simp [step, Pc.ofShutdown]), .nothing (by simp [step]) nofun⟩
    cases pc <;> simp only [Pc.ofWait, Bool.false_eq_true] at hpc
    case startTransfer ctx =>
      cases reply with
      | ok =>
        exact ⟨true, .watching hw (by simp [step, Pc.ofWait, Pc.About]) hs,
          .nothing (by simp [step]) id⟩
      | error error =>
        exact ⟨true, .failing hw rfl habout (fun h => absurd rfl (h ctx error)) (by simp [step, hs])
          nofun, .nothing (by simp [step]) id⟩
    case acceptedHandoff =>
      exact ⟨true, .watching hw nofun hs, .nothing (by simp [step]) id⟩
  | handling hu hc hpc hi hs =>
    have hpc' := hc pc rfl
    cases pc <;> simp only [Pc.ofShutdown, Pc.ofWait, Bool.or_self, Bool.false_eq_true] at hpc'
    case startTransfer ctx =>
      cases reply with
      | ok =>
        exact ⟨true, .handling hu (by simp [step, Pc.ofWait]) hpc hi hs,
          .nothing (by simp [step]) id⟩
      | error error => cases (hr ctx rfl rfl).2
    case acceptedHandoff =>
      exact ⟨true, .handling hu nofun hpc hi hs, .nothing (by simp [step]) id⟩
    case shutdownLeg =>
      exact ⟨true, .handling hu.watches.cancel (by simp [step, Pc.ofShutdown]) hpc hi hs,
        .nothing (by simp [step]) id⟩
    case shutdownState => cases hg rfl

/-- A step of the ESL thread. -/
theorem Phase.stepEsl (reply : EslReply) (h : Phase t.cold t.legs control (some pc) live) :
    ∃ live', Phase (step pc reply t).1.cold (step pc reply t).1.legs control (step pc reply t).2.2
        live' ∧
      Completes t.cold.callbacks (step pc reply t).2.1 live live' := by
  cases h with
  | handling hu hc hpc hi hs =>
    cases pc <;> simp only [Pc.ofHandler, Bool.false_eq_true] at hpc
    case resolvedState =>
      exact ⟨true, .handling hu hc rfl nofun (fun _ => rfl), .nothing (by simp [step]) id⟩
    case resolvedCallback success destination detail =>
      exact ⟨false, .resting hu hc (fun _ => by simp [step, hs rfl]),
        .completes success destination detail rfl⟩

theorem Phase.handling_live {c : ColdTransferCoordinator} {legs : TransferCorrelator String}
    (h : Phase c legs control (some pc) live) : live = true ∧ pc.ofHandler = true := by
  cases h with
  | handling _ _ hpc => exact ⟨rfl, hpc⟩

theorem Phase.of_shutdownState {c : ColdTransferCoordinator} {legs : TransferCorrelator String}
    (h : Phase c legs (some .shutdownState) none live) : live = false := by
  cases h with
  | resting => rfl
  | failing _ hpc => cases hpc
  | watching _ hc => exact absurd (hc _ rfl).1 (by simp [Pc.ofWait])

theorem step_ofShutdown (h : pc.ofShutdown = true) (reply : EslReply) (t : Telephony) :
    (step pc reply t).2.1 = [] ∧ ∀ pc', (step pc reply t).2.2 = some pc' → pc'.ofShutdown = true := by
  cases pc <;> simp only [Pc.ofShutdown, Bool.false_eq_true] at h
  all_goals exact ⟨rfl, by simp [step, Pc.ofShutdown]⟩

/-- The handler of the leg is taken out of the correlator. -/
theorem Phase.take {u destination detail : String} {success : Bool}
    (h : Phase t.cold t.legs control none live) (hu : t.legs.pending u ≠ none)
    (hg : ∀ pc, control = some pc → Coordinators.fails (.cold pc) = false) :
    Phase t.cold (t.legs.cancel u) control (some (.resolvedState success destination detail))
      live := by
  cases h with
  | resting h => exact absurd (h u) hu
  | starting h => exact absurd (h u) hu
  | @failing pc hw hpc _ hu' =>
    have hf := hg pc rfl
    refine absurd (hu' (fun ctx error he => ?_) u) hu
    subst he
    cases hf
  | watching hw hc hs =>
    obtain rfl := hw u hu
    refine .handling hw.cancel (fun pc hpc => ?_) rfl (by simp [hs]) nofun
    obtain ⟨rfl | hpc, -⟩ := hc pc hpc
    · rfl
    · simp [hpc]

/-- An attempt is started when the one before is over. -/
theorem Phase.start (ctx : TransferCoordinatorContext) (attempt : ℕ)
    (h : Phase t.cold t.legs none none live) (hs : t.cold.state ≠ .active) :
    Phase (start ctx attempt t).1.cold (start ctx attempt t).1.legs (some (start ctx attempt t).2)
      none true := by
  cases h with
  | resting hu => exact .starting hu rfl rfl
  | watching _ _ hs' => exact absurd hs' hs

theorem Phase.shutdown (h : Phase t.cold t.legs none esl live) :
    Phase t.cold t.legs (shutdown t) esl live ∧ (shutdown t = none → live = false ∧ esl = none) := by
  unfold ColdTransferCoordinator.shutdown
  split
  · next hs =>
    refine ⟨h, fun _ => ?_⟩
    cases h with
    | resting => exact ⟨rfl, rfl⟩
    | watching _ _ hs' => exact absurd (hs'.symm.trans hs) nofun
    | handling _ _ _ hi => exact absurd hs hi
  · refine ⟨?_, nofun⟩
    cases h with
    | resting hu => exact .resting hu (by simp [Pc.ofShutdown]) (by simp [Pc.ofShutdown])
    | watching hw _ hs' => exact .watching hw (by simp [Pc.About]) hs'
    | handling hu _ hpc hi hs' => exact .handling hu (by simp [Pc.ofShutdown]) hpc hi hs'

theorem shutdown_ofShutdown (h : shutdown t = some pc) : pc.ofShutdown = true := by
  unfold ColdTransferCoordinator.shutdown at h
  split at h <;> cases h
  rfl

end ColdTransferCoordinator

/-! ## The log -/

namespace Coordinators

section

variable (log : List Entry) (type : TransferType)

@[simp] theorem completions_append (a : ℕ) (log' : List Entry) :
    completions a (log ++ log') = completions a log + completions a log' := List.countP_append

theorem isShutDown_append (log' : List Entry) :
    isShutDown type (log ++ log') = log'.foldl (shutDownBy type) (isShutDown type log) :=
  List.foldl_append

@[simp] theorem isShutDown_acted (type' : TransferType) (acts : List CoordinatorAction) :
    isShutDown type (log ++ acts.map (.acted type')) = isShutDown type log := by
  rw [isShutDown_append]
  induction acts with
  | nil => rfl
  | cons act acts ih => exact ih

@[simp] theorem isShutDown_entry (e : Entry) :
    isShutDown type (log ++ [e]) = shutDownBy type (isShutDown type log) e :=
  isShutDown_append log type [e]

end

variable {log : List Entry} {type : TransferType} {acts : List CoordinatorAction}

theorem Quiet.append_entry (h : Quiet log) {e : Entry}
    (he : ∀ type action, e = .acted type action → isShutDown type log = false) :
    Quiet (log ++ [e]) :=
  throughout_concat.2 ⟨h, he⟩

theorem Quiet.append_acted (h : Quiet log) (hq : acts ≠ [] → isShutDown type log = false) :
    Quiet (log ++ acts.map (.acted type)) := by
  refine h.append ?_
  rintro before e after heq type' action rfl
  obtain ⟨acts₁, acts₂, rfl, rfl, hmap⟩ := List.map_eq_append_iff.1 heq
  obtain ⟨act, acts₃, rfl, hact, -⟩ := List.map_eq_cons_iff.1 hmap
  obtain ⟨rfl, rfl⟩ := Entry.acted.inj hact
  rw [isShutDown_acted]
  exact hq (by simp)

/-- The completions of a step. -/
theorem completions_acted {callbacks : Option ℕ} {live live' : Bool} (type : TransferType)
    (h : Completes callbacks acts live live') (a : ℕ) :
    completions a (acts.map (.acted type)) = 0 ∨
      live = true ∧ live' = false ∧ callbacks = some a ∧
        completions a (acts.map (.acted type)) = 1 := by
  cases h with
  | completes success destination detail he =>
    cases callbacks with
    | none => exact .inl (by simp [he, Coordinators.completions])
    | some b =>
      by_cases hb : a = b
      · exact .inr ⟨rfl, rfl, by rw [hb], by simp [he, Coordinators.completions, isCompletion, hb]⟩
      · exact .inl (by simp [he, Coordinators.completions, isCompletion, hb])
  | nothing hn =>
    refine .inl (List.countP_eq_zero.2 fun e he => ?_)
    obtain ⟨act, hact, rfl⟩ := List.mem_map.1 he
    have hna := hn act hact
    cases act <;> simp_all [isCompletion]

/-! ## Runs -/

/-- The point of the warm coordinator a thread is at. -/
def warmAt : Option Pc → Option WarmTransferCoordinator.Pc
  | some (.warm pc) => some pc
  | _ => none

/-- The point of the cold coordinator a thread is at. -/
def coldAt : Option Pc → Option ColdTransferCoordinator.Pc
  | some (.cold pc) => some pc
  | _ => none

/-- The attempt still to be completed has not been completed, and a coordinator
    that is shut down is calm. -/
structure Tracked (type : TransferType) (callbacks : Option ℕ) (live : Bool) (calm : Prop)
    (log : List Entry) : Prop where
  pending : live = true → ∃ a, callbacks = some a ∧ completions a log = 0
  shut : isShutDown type log = true → live = false ∧ calm

variable {callbacks : Option ℕ} {live live' : Bool} {calm calm' : Prop}

/-- A step of the coordinator itself. -/
theorem Tracked.step (h : Tracked type callbacks live calm log)
    (hc : Completes callbacks acts live live') (hcalm : live = false → calm → calm') :
    Tracked type callbacks live' calm' (log ++ acts.map (.acted type)) := by
  have hlive : live' = true → live = true := by
    intro hl
    cases hc with
    | completes => cases hl
    | nothing _ h => exact h hl
  refine ⟨fun hl => ?_, fun hs => ?_⟩
  · obtain ⟨a, ha, hn⟩ := h.pending (hlive hl)
    refine ⟨a, ha, ?_⟩
    obtain h0 | ⟨-, h1, -, -⟩ := completions_acted type hc a
    · rw [completions_append, hn, h0]
    · rw [hl] at h1
      cases h1
  · rw [isShutDown_acted] at hs
    obtain ⟨hl, hcm⟩ := h.shut hs
    refine ⟨?_, hcalm hl hcm⟩
    cases live' with
    | false => rfl
    | true => exact absurd (hlive rfl) (by simp [hl])

/-- A step of the other coordinator. -/
theorem Tracked.other {callbacks' : Option ℕ} (type' : TransferType) {live₁ live₂ : Bool}
    (h : Tracked type callbacks live calm log) (hc : Completes callbacks' acts live₁ live₂)
    (hne : ∀ a, callbacks = some a → callbacks' ≠ some a) :
    Tracked type callbacks live calm (log ++ acts.map (.acted type')) := by
  refine ⟨fun hl => ?_, fun hs => h.shut (by simpa using hs)⟩
  obtain ⟨a, ha, hn⟩ := h.pending hl
  refine ⟨a, ha, ?_⟩
  obtain h0 | ⟨-, -, h1, -⟩ := completions_acted type' hc a
  · rw [completions_append, hn, h0]
  · exact absurd h1 (hne a ha)

/-- A return from `shutdown`. -/
theorem Tracked.shutDown (h : Tracked type callbacks live calm log) {type' : TransferType}
    (hr : type = type' → live = false ∧ calm) :
    Tracked type callbacks live calm (log ++ [.shutDown type']) := by
  refine ⟨fun hl => ?_, fun hs => ?_⟩
  · obtain ⟨a, ha, hn⟩ := h.pending hl
    refine ⟨a, ha, ?_⟩
    rw [completions_append, hn]
    rfl
  · by_cases ht : type = type'
    · exact hr ht
    · exact h.shut (by simpa [shutDownBy, ht] using hs)

theorem returned_warm (pc : WarmTransferCoordinator.Pc) :
    returned (.warm pc) = [] ∨ pc = .shutdownState ∧ returned (.warm pc) = [.shutDown .warm] := by
  cases pc <;> simp [returned]

theorem returned_cold (pc : ColdTransferCoordinator.Pc) :
    returned (.cold pc) = [] ∨ pc = .shutdownState ∧ returned (.cold pc) = [.shutDown .cold] := by
  cases pc <;> simp [returned]

theorem Tracked.returned_warm (h : Tracked type callbacks live calm log)
    (pc : WarmTransferCoordinator.Pc)
    (hr : type = .warm → pc = .shutdownState → live = false ∧ calm) :
    Tracked type callbacks live calm (log ++ returned (.warm pc)) := by
  obtain he | ⟨hpc, he⟩ := Coordinators.returned_warm pc
  · simpa [he] using h
  · rw [he]
    exact h.shutDown fun ht => hr ht hpc

theorem Tracked.returned_cold (h : Tracked type callbacks live calm log)
    (pc : ColdTransferCoordinator.Pc)
    (hr : type = .cold → pc = .shutdownState → live = false ∧ calm) :
    Tracked type callbacks live calm (log ++ returned (.cold pc)) := by
  obtain he | ⟨hpc, he⟩ := Coordinators.returned_cold pc
  · simpa [he] using h
  · rw [he]
    exact h.shutDown fun ht => hr ht hpc

/-- The invariant of the orderly runs: every coordinator is in a phase, and what
    it tells of the completion is so. -/
structure Inv (s : Coordinators) : Prop where
  warm : ∃ live, s.tel.warm.Phase s.tel.jobs (warmAt s.control) (warmAt s.esl) live ∧
    Tracked .warm s.tel.warm.callbacks live
      (∀ pc, warmAt s.control = some pc → pc.ofShutdown = true) s.log
  cold : ∃ live, s.tel.cold.Phase s.tel.legs (coldAt s.control) (coldAt s.esl) live ∧
    Tracked .cold s.tel.cold.callbacks live
      (∀ pc, coldAt s.control = some pc → pc.ofShutdown = true) s.log
  distinct : ∀ a, s.tel.warm.callbacks = some a → s.tel.cold.callbacks ≠ some a
  attempts : ∀ a, s.tel.warm.callbacks = some a ∨ s.tel.cold.callbacks = some a → a < s.attempts
  unused : ∀ a, s.attempts ≤ a → completions a s.log = 0
  once : ∀ a, completions a s.log ≤ 1
  quiet : Quiet s.log

theorem inv_init : Inv {} where
  warm := ⟨false, .resting (fun _ => rfl) nofun fun _ => nofun, nofun, nofun⟩
  cold := ⟨false, .resting (fun _ => rfl) nofun fun _ => nofun, nofun, nofun⟩
  distinct := nofun
  attempts := by rintro a (h | h) <;> cases h
  unused := fun _ _ => rfl
  once := fun _ => Nat.zero_le 1
  quiet := throughout_nil

end Coordinators

/-! ### What the steps of one coordinator leave to the other -/

section

variable (t : Telephony) (reply : EslReply)

theorem WarmTransferCoordinator.step_frame (pc : WarmTransferCoordinator.Pc) :
    (WarmTransferCoordinator.step pc reply t).1.cold = t.cold ∧
      (WarmTransferCoordinator.step pc reply t).1.warm.callbacks = t.warm.callbacks ∧
      ∀ u, (WarmTransferCoordinator.step pc reply t).1.legs.pending u ≠ none →
        t.legs.pending u ≠ none := by
  cases pc <;> simp only [WarmTransferCoordinator.step, WarmTransferCoordinator.cancelJob_warm,
    WarmTransferCoordinator.cancelJob_cold, WarmTransferCoordinator.cancelJob_legs,
    WarmTransferCoordinator.cancelLeg_warm, WarmTransferCoordinator.cancelLeg_cold, true_and]
  case startOriginate =>
    split
    · split <;> simp
    · simp
  case answeredBridge => split <;> simp
  case finishLeg | shutdownLeg =>
    intro u hu
    unfold WarmTransferCoordinator.cancelLeg at hu
    split at hu
    · by_cases hua : u = t.warm.agentUuid <;>
        simp_all [TransferCorrelator.cancel]
    · exact hu
  all_goals exact fun _ h => h

theorem ColdTransferCoordinator.step_frame (pc : ColdTransferCoordinator.Pc) :
    (ColdTransferCoordinator.step pc reply t).1.warm = t.warm ∧
      (ColdTransferCoordinator.step pc reply t).1.jobs = t.jobs ∧
      (ColdTransferCoordinator.step pc reply t).1.cold.callbacks = t.cold.callbacks := by
  cases pc <;> simp only [ColdTransferCoordinator.step, and_self]
  case startTransfer => cases reply <;> simp

theorem ColdTransferCoordinator.Phase.mono {c : ColdTransferCoordinator}
    {legs legs' : TransferCorrelator String} {control esl : Option ColdTransferCoordinator.Pc}
    {live : Bool} (h : Phase c legs control esl live)
    (hle : ∀ u, legs'.pending u ≠ none → legs.pending u ≠ none) :
    Phase c legs' control esl live := by
  have hun (hu : Unwatched legs) : Unwatched legs' := fun u => not_not.1 fun hne => hle u hne (hu u)
  have hwa (hw : Watches c legs) : Watches c legs' := fun u hne => hw u (hle u hne)
  cases h with
  | resting hu hc hs => exact .resting (hun hu) hc hs
  | starting hu hctx hs => exact .starting (hun hu) hctx hs
  | failing hw hpc ha hu hi hs => exact .failing (hwa hw) hpc ha (fun h => hun (hu h)) hi hs
  | watching hw hc hs => exact .watching (hwa hw) hc hs
  | handling hu hc hpc hi hs => exact .handling (hun hu) hc hpc hi hs

end

namespace Coordinators

/-! ### The steps -/

variable {s s' : Coordinators} {type : TransferType} {callbacks : Option ℕ} {live live' : Bool}
  {calm : Prop} {acts : List CoordinatorAction}

theorem completions_returned (a : ℕ) (pc : Pc) : completions a (returned pc) = 0 := by
  unfold returned
  split <;> rfl

theorem Quiet.append_returned {log : List Entry} (h : Quiet log) (pc : Pc) :
    Quiet (log ++ returned pc) := by
  unfold returned
  split
  · exact h.append_entry nofun
  · exact h.append_entry nofun
  · simpa using h

/-- The log of a step keeps the contract. -/
theorem Inv.log (h : Inv s) (ht : Tracked type callbacks live calm s.log)
    (hc : Completes callbacks acts live live') (hcb : ∀ a, callbacks = some a → a < s.attempts)
    (hq : acts ≠ [] → isShutDown type s.log = false) (pc : Pc) :
    (∀ a, s.attempts ≤ a → completions a (s.log ++ acts.map (.acted type) ++ returned pc) = 0) ∧
      (∀ a, completions a (s.log ++ acts.map (.acted type) ++ returned pc) ≤ 1) ∧
      Quiet (s.log ++ acts.map (.acted type) ++ returned pc) := by
  refine ⟨fun a ha => ?_, fun a => ?_, (h.quiet.append_acted hq).append_returned pc⟩ <;>
    rw [completions_append, completions_append, completions_returned] <;>
    obtain h0 | ⟨hl, -, hcba, h1⟩ := completions_acted type hc a
  · rw [h.unused a ha, h0]
  · exact absurd (hcb a hcba) (Nat.not_lt.2 ha)
  · rw [h0]
    exact h.once a
  · obtain ⟨a', ha', hn⟩ := ht.pending hl
    obtain rfl := Option.some.inj (hcba.symm.trans ha')
    omega

theorem warmAt_map (o : Option WarmTransferCoordinator.Pc) : warmAt (o.map .warm) = o := by
  cases o <;> rfl

theorem coldAt_map (o : Option ColdTransferCoordinator.Pc) : coldAt (o.map .cold) = o := by
  cases o <;> rfl

theorem coldAt_map_warm (o : Option WarmTransferCoordinator.Pc) : coldAt (o.map .warm) = none := by
  cases o <;> rfl

theorem warmAt_map_cold (o : Option ColdTransferCoordinator.Pc) : warmAt (o.map .cold) = none := by
  cases o <;> rfl

theorem warmAt_eq_some {o : Option Pc} {pc : WarmTransferCoordinator.Pc} (h : warmAt o = some pc) :
    o = some (.warm pc) := by
  unfold warmAt at h
  split at h <;> simp_all

theorem coldAt_eq_some {o : Option Pc} {pc : ColdTransferCoordinator.Pc} (h : coldAt o = some pc) :
    o = some (.cold pc) := by
  unfold coldAt at h
  split at h <;> simp_all

/-- A coordinator runs no handler of the other one. -/
theorem warmAt_eq_none {o : Option Pc} (h : o.map Pc.type ≠ some .warm) : warmAt o = none := by
  cases o with
  | none => rfl
  | some pc =>
    cases pc with
    | warm pc => exact absurd rfl h
    | cold pc => rfl

theorem coldAt_eq_none {o : Option Pc} (h : o.map Pc.type ≠ some .cold) : coldAt o = none := by
  cases o with
  | none => rfl
  | some pc =>
    cases pc with
    | warm pc => rfl
    | cold pc => exact absurd rfl h

/-- A step of the warm coordinator, on either thread. -/
theorem Inv.advance_warm (h : Inv s) {pc : WarmTransferCoordinator.Pc} {reply : EslReply}
    {control' esl' : Option Pc}
    (hcontrol : coldAt control' = coldAt s.control) (hesl : coldAt esl' = coldAt s.esl)
    (ht : Tracked .warm s.tel.warm.callbacks live
      (∀ pc, warmAt s.control = some pc → pc.ofShutdown = true) s.log)
    (hp : (WarmTransferCoordinator.step pc reply s.tel).1.warm.Phase
      (WarmTransferCoordinator.step pc reply s.tel).1.jobs (warmAt control') (warmAt esl') live')
    (hc : Completes s.tel.warm.callbacks (WarmTransferCoordinator.step pc reply s.tel).2.1 live live')
    (hcalm : (∀ pc, warmAt s.control = some pc → pc.ofShutdown = true) →
      ∀ pc, warmAt control' = some pc → pc.ofShutdown = true)
    (hq : (WarmTransferCoordinator.step pc reply s.tel).2.1 ≠ [] → isShutDown .warm s.log = false)
    (hr : pc = .shutdownState → live' = false ∧
      ∀ pc, warmAt control' = some pc → pc.ofShutdown = true) :
    Inv { s.advance (.warm pc) reply with control := control', esl := esl' } := by
  obtain ⟨hcold, hcb, hlegs⟩ := WarmTransferCoordinator.step_frame s.tel reply pc
  obtain ⟨liveC, hpC, htC⟩ := h.cold
  obtain ⟨hunused, honce, hquiet⟩ :=
    h.log ht hc (fun a ha => h.attempts a (.inl ha)) hq (.warm pc)
  refine ⟨⟨live', hp, ?_⟩, ⟨liveC, ?_, ?_⟩, ?_, ?_, hunused, honce, hquiet⟩
  · have ht' := (ht.step hc fun _ => hcalm).returned_warm pc fun _ => hr
    simpa [advance, Pc.step, Pc.type, hcb] using ht'
  · simpa [advance, Pc.step, hcold, hcontrol, hesl] using hpC.mono hlegs
  · have ht' := (htC.other .warm hc fun a ha hw => h.distinct a hw ha).returned_warm pc nofun
    simpa [advance, Pc.step, Pc.type, hcold, hcontrol] using ht'
  · simpa [advance, Pc.step, hcold, hcb] using h.distinct
  · simpa [advance, Pc.step, hcold, hcb] using h.attempts

/-- A step of the cold coordinator, on either thread. -/
theorem Inv.advance_cold (h : Inv s) {pc : ColdTransferCoordinator.Pc} {reply : EslReply}
    {control' esl' : Option Pc}
    (hcontrol : warmAt control' = warmAt s.control) (hesl : warmAt esl' = warmAt s.esl)
    (ht : Tracked .cold s.tel.cold.callbacks live
      (∀ pc, coldAt s.control = some pc → pc.ofShutdown = true) s.log)
    (hp : (ColdTransferCoordinator.step pc reply s.tel).1.cold.Phase
      (ColdTransferCoordinator.step pc reply s.tel).1.legs (coldAt control') (coldAt esl') live')
    (hc : Completes s.tel.cold.callbacks (ColdTransferCoordinator.step pc reply s.tel).2.1 live live')
    (hcalm : (∀ pc, coldAt s.control = some pc → pc.ofShutdown = true) →
      ∀ pc, coldAt control' = some pc → pc.ofShutdown = true)
    (hq : (ColdTransferCoordinator.step pc reply s.tel).2.1 ≠ [] → isShutDown .cold s.log = false)
    (hr : pc = .shutdownState → live' = false ∧
      ∀ pc, coldAt control' = some pc → pc.ofShutdown = true) :
    Inv { s.advance (.cold pc) reply with control := control', esl := esl' } := by
  obtain ⟨hwarm, hjobs, hcb⟩ := ColdTransferCoordinator.step_frame s.tel reply pc
  obtain ⟨liveW, hpW, htW⟩ := h.warm
  obtain ⟨hunused, honce, hquiet⟩ :=
    h.log ht hc (fun a ha => h.attempts a (.inr ha)) hq (.cold pc)
  refine ⟨⟨liveW, ?_, ?_⟩, ⟨live', hp, ?_⟩, ?_, ?_, hunused, honce, hquiet⟩
  · simpa [advance, Pc.step, hwarm, hjobs, hcontrol, hesl] using hpW
  · have ht' := (htW.other .cold hc h.distinct).returned_cold pc nofun
    simpa [advance, Pc.step, Pc.type, hwarm, hcontrol] using ht'
  · have ht' := (ht.step hc fun _ => hcalm).returned_cold pc fun _ => hr
    simpa [advance, Pc.step, Pc.type, hcb] using ht'
  · simpa [advance, Pc.step, hwarm, hcb] using h.distinct
  · simpa [advance, Pc.step, hwarm, hcb] using h.attempts

/-- A coordinator that may act is not shut down. -/
theorem Tracked.not_isShutDown {log : List Entry} (h : Tracked type callbacks live calm log)
    (ha : live = false → ¬calm) : isShutDown type log = false := by
  by_contra hs
  obtain ⟨hl, hcalm⟩ := h.shut (by simpa using hs)
  exact ha hl hcalm

theorem Inv.control (h : Inv s) {reply : EslReply} (hg : Orderly s (.control reply))
    (hst : s.step (.control reply) = some s') : Inv s' := by
  obtain ⟨pc, hpc, rfl⟩ := Option.map_eq_some_iff.1 hst
  obtain ⟨hgw, hgc, hgr⟩ := hg
  cases pc with
  | warm pc =>
    obtain ⟨live, hp, ht⟩ := h.warm
    have hwarm : warmAt s.control = some pc := by rw [hpc]; rfl
    rw [hwarm] at hp
    have hesl (he : pc = .shutdownState) : warmAt s.esl = none :=
      warmAt_eq_none (hgw (by rw [hpc, he]))
    obtain ⟨live', hp', hc⟩ := hp.stepControl reply hesl
    have hcalm (h : ∀ pc', warmAt s.control = some pc' → pc'.ofShutdown = true) :=
      WarmTransferCoordinator.step_ofShutdown (h pc hwarm) reply s.tel
    rw [← warmAt_map (WarmTransferCoordinator.step pc reply s.tel).2.2] at hp' hcalm
    refine h.advance_warm (by rw [hpc]; exact coldAt_map_warm _) rfl ht hp' hc
      (fun h => (hcalm h).2) (fun hne => ht.not_isShutDown fun _ h => hne (hcalm h).1) ?_
    rintro rfl
    rw [hesl rfl] at hp
    obtain rfl := hp.of_shutdownState
    exact ⟨hc.of_not_live, nofun⟩
  | cold pc =>
    obtain ⟨live, hp, ht⟩ := h.cold
    have hcold : coldAt s.control = some pc := by rw [hpc]; rfl
    rw [hcold] at hp
    have hesl (he : pc = .shutdownState) : coldAt s.esl = none :=
      coldAt_eq_none (hgc (by rw [hpc, he]))
    obtain ⟨live', hp', hc⟩ := hp.stepControl reply hesl fun ctx he hr =>
      (hgr ctx (by rw [hpc, he]) hr).imp_right coldAt_eq_none
    have hcalm (h : ∀ pc', coldAt s.control = some pc' → pc'.ofShutdown = true) :=
      ColdTransferCoordinator.step_ofShutdown (h pc hcold) reply s.tel
    rw [← coldAt_map (ColdTransferCoordinator.step pc reply s.tel).2.2] at hp' hcalm
    refine h.advance_cold (by rw [hpc]; exact warmAt_map_cold _) rfl ht hp' hc
      (fun h => (hcalm h).2) (fun hne => ht.not_isShutDown fun _ h => hne (hcalm h).1) ?_
    rintro rfl
    rw [hesl rfl] at hp
    obtain rfl := hp.of_shutdownState
    exact ⟨hc.of_not_live, nofun⟩

theorem Inv.esl (h : Inv s) {reply : EslReply} (hst : s.step (.esl reply) = some s') : Inv s' := by
  obtain ⟨pc, hpc, rfl⟩ := Option.map_eq_some_iff.1 hst
  cases pc with
  | warm pc =>
    obtain ⟨live, hp, ht⟩ := h.warm
    have hwarm : warmAt s.esl = some pc := by rw [hpc]; rfl
    rw [hwarm] at hp
    have hl := hp.handling_live
    obtain ⟨live', hp', hc⟩ := hp.stepEsl reply
    rw [← warmAt_map (WarmTransferCoordinator.step pc reply s.tel).2.2] at hp'
    refine h.advance_warm rfl (by rw [hpc]; exact coldAt_map_warm _) ht hp' hc id
      (fun _ => ht.not_isShutDown fun h => by simp [hl.1] at h) fun he => ?_
    rw [he] at hl
    cases hl.2
  | cold pc =>
    obtain ⟨live, hp, ht⟩ := h.cold
    have hcold : coldAt s.esl = some pc := by rw [hpc]; rfl
    rw [hcold] at hp
    have hl := hp.handling_live
    obtain ⟨live', hp', hc⟩ := hp.stepEsl reply
    rw [← coldAt_map (ColdTransferCoordinator.step pc reply s.tel).2.2] at hp'
    refine h.advance_cold rfl (by rw [hpc]; exact warmAt_map_cold _) ht hp' hc id
      (fun _ => ht.not_isShutDown fun h => by simp [hl.1] at h) fun he => ?_
    rw [he] at hl
    cases hl.2

/-- An entry that is neither an action, nor about a start or the return of `shutdown`. -/
def isNote : Entry → Bool
  | .shutdown .. | .answered .. => true
  | _ => false

theorem Tracked.note {log : List Entry} (h : Tracked type callbacks live calm log) {e : Entry}
    (he : isNote e = true) : Tracked type callbacks live calm (log ++ [e]) := by
  refine ⟨fun hl => ?_, fun hs => h.shut ?_⟩
  · obtain ⟨a, ha, hn⟩ := h.pending hl
    refine ⟨a, ha, ?_⟩
    rw [completions_append, hn]
    cases e <;> simp_all [isNote, completions, isCompletion]
  · cases e <;> simp_all [isNote, shutDownBy]

theorem Inv.note (h : Inv s) {e : Entry} (he : isNote e = true) :
    Inv { s with log := s.log ++ [e] } := by
  obtain ⟨liveW, hpW, htW⟩ := h.warm
  obtain ⟨liveC, hpC, htC⟩ := h.cold
  have hn (a : ℕ) : completions a (s.log ++ [e]) = completions a s.log := by
    rw [completions_append]
    cases e <;> simp_all [isNote, completions, isCompletion]
  refine ⟨⟨liveW, hpW, htW.note he⟩, ⟨liveC, hpC, htC.note he⟩, h.distinct, h.attempts,
    fun a ha => (hn a).trans (h.unused a ha), fun a => (hn a).symm ▸ h.once a,
    h.quiet.append_entry ?_⟩
  rintro type action rfl
  cases he

/-- A handler is taken out of a correlator. -/
theorem Inv.take (h : Inv s) {e : EslEvent} {tel : Telephony} {pc : Pc} (hesl : s.esl = none)
    (hr : resolve s.tel e = some (tel, pc))
    (hg : ∀ pc', s.control = some pc' → pc'.type = pc.type → fails pc' = false) :
    Inv { s with tel := tel, esl := some pc } := by
  obtain ⟨liveW, hpW, htW⟩ := h.warm
  obtain ⟨liveC, hpC, htC⟩ := h.cold
  rw [hesl] at hpW hpC
  have hleg {u : String} {ok : Bool} {detail : String}
      (hr : resolve.leg s.tel u ok detail = some (tel, pc)) :
      Inv { s with tel := tel, esl := some pc } := by
    obtain ⟨destination, hu, heq⟩ := Option.map_eq_some_iff.1 hr
    obtain ⟨rfl, rfl⟩ := Prod.mk.inj heq
    refine ⟨⟨liveW, hpW, htW⟩, ⟨liveC, hpC.take (by simp [hu]) fun pc hpc => ?_, htC⟩, h.distinct,
      h.attempts, h.unused, h.once, h.quiet⟩
    exact hg (.cold pc) (coldAt_eq_some hpc) rfl
  cases e with
  | backgroundJob uuid result =>
    obtain ⟨_, hu, heq⟩ := Option.map_eq_some_iff.1 hr
    obtain ⟨rfl, rfl⟩ := Prod.mk.inj heq
    refine ⟨⟨liveW, hpW.take (by simp [hu]) fun pc hpc => ?_, htW⟩, ⟨liveC, hpC, htC⟩, h.distinct,
      h.attempts, h.unused, h.once, h.quiet⟩
    exact hg (.warm pc) (warmAt_eq_some hpc) rfl
  | channelBridge | channelAnswer | channelHangup => exact hleg hr

theorem Inv.event (h : Inv s) {e : EslEvent} (hg : Orderly s (.event e))
    (hst : s.step (.event e) = some s') : Inv s' := by
  simp only [step] at hst
  split at hst
  · next hesl =>
    obtain rfl := Option.some.inj hst
    have h' : Inv { s with log := s.log ++ answered e } := by
      unfold answered
      split
      · split
        · exact h.note rfl
        · simpa using h
      · simpa using h
    split
    · next tel pc hr => exact h'.take hesl hr (hg tel pc hr)
    · exact h'
  · cases hst

/-- The attempt that is started is to be completed. -/
theorem Tracked.start {log : List Entry} {a : ℕ} {callId : String}
    (ha : completions a log = 0) :
    Tracked type (some a) true calm (log ++ [.started type a callId]) := by
  refine ⟨fun _ => ⟨a, rfl, ?_⟩, fun hs => ?_⟩
  · rw [completions_append, ha]
    rfl
  · simp [shutDownBy] at hs

theorem Tracked.started_other {log : List Entry} {type' : TransferType}
    (h : Tracked type callbacks live calm log) (hne : type ≠ type') (a : ℕ)
    (callId : String) : Tracked type callbacks live calm (log ++ [.started type' a callId]) := by
  refine ⟨fun hl => ?_, fun hs => h.shut (by simpa [shutDownBy, hne] using hs)⟩
  obtain ⟨b, hb, hn⟩ := h.pending hl
  refine ⟨b, hb, ?_⟩
  rw [completions_append, hn]
  rfl

theorem Inv.start (h : Inv s) {ctx : TransferCoordinatorContext}
    (hg : Orderly s (.start type ctx)) (hst : s.step (.start type ctx) = some s') : Inv s' := by
  simp only [Coordinators.step] at hst
  split at hst
  case isFalse => cases hst
  case isTrue hc =>
  obtain rfl := Option.some.inj hst
  obtain ⟨hs, hh⟩ := hg
  obtain ⟨liveW, hpW, htW⟩ := h.warm
  obtain ⟨liveC, hpC, htC⟩ := h.cold
  have hcW : warmAt s.control = none := by rw [hc]; rfl
  have hcC : coldAt s.control = none := by rw [hc]; rfl
  rw [hcW] at hpW htW
  rw [hcC] at hpC htC
  have hn (a : ℕ) : completions a (s.log ++ [.started type s.attempts ctx.callId]) = completions a s.log := by
    rw [completions_append]
    rfl
  have hunused (a : ℕ) (ha : s.attempts + 1 ≤ a) :
      completions a (s.log ++ [.started type s.attempts ctx.callId]) = 0 :=
    (hn a).trans (h.unused a (Nat.le_of_succ_le ha))
  have honce (a : ℕ) : completions a (s.log ++ [.started type s.attempts ctx.callId]) ≤ 1 :=
    (hn a).symm ▸ h.once a
  have hquiet : Quiet (s.log ++ [.started type s.attempts ctx.callId]) := h.quiet.append_entry nofun
  have hnew := h.unused s.attempts (Nat.le_refl _)
  cases type with
  | warm =>
    rw [warmAt_eq_none hh] at hpW
    refine ⟨⟨true, ?_, .start hnew⟩, ⟨liveC, hpC, htC.started_other (by decide) s.attempts ctx.callId⟩, ?_, ?_, hunused,
      honce, hquiet⟩
    · change WarmTransferCoordinator.Phase _ _ _ (warmAt s.esl) true
      rw [warmAt_eq_none hh]
      exact hpW.start ctx s.attempts hs
    · rintro a ⟨⟩ ha
      exact absurd (h.attempts _ (.inr ha)) (Nat.lt_irrefl _)
    · rintro a (⟨⟨⟩⟩ | ha)
      · exact Nat.lt_succ_self _
      · exact Nat.lt_succ_of_lt (h.attempts a (.inr ha))
  | cold =>
    rw [coldAt_eq_none hh] at hpC
    refine ⟨⟨liveW, hpW, htW.started_other (by decide) s.attempts ctx.callId⟩, ⟨true, ?_, .start hnew⟩, ?_, ?_, hunused,
      honce, hquiet⟩
    · change ColdTransferCoordinator.Phase _ _ _ (coldAt s.esl) true
      rw [coldAt_eq_none hh]
      exact hpC.start ctx s.attempts hs
    · rintro a ha ⟨⟩
      exact absurd (h.attempts _ (.inl ha)) (Nat.lt_irrefl _)
    · rintro a (ha | ⟨⟨⟩⟩)
      · exact Nat.lt_succ_of_lt (h.attempts a (.inl ha))
      · exact Nat.lt_succ_self _

theorem Inv.cancel (h : Inv s) (hg : Orderly s (.cancel type))
    (hst : s.step (.cancel type) = some s') : Inv s' := by
  simp only [Coordinators.step] at hst
  split at hst
  case isFalse => cases hst
  case isTrue hc =>
  obtain rfl := Option.some.inj hst
  obtain ⟨liveW, hpW, htW⟩ := h.warm
  obtain ⟨liveC, hpC, htC⟩ := h.cold
  cases type with
  | warm =>
    have hcW : warmAt s.control = none := by rw [hc]; rfl
    have hcC : coldAt s.control = none := by rw [hc]; rfl
    rw [hcW] at hpW
    rw [hcC] at hpC htC
    have hp := hpW.cancel fun hs => warmAt_eq_none fun hh => hg rfl ⟨hs, hh⟩
    rw [← warmAt_map (WarmTransferCoordinator.cancel s.tel)] at hp
    refine ⟨⟨liveW, hp, ⟨htW.pending, fun hsh => ?_⟩⟩, ⟨liveC, ?_, ?_⟩, h.distinct, h.attempts,
      h.unused, h.once, h.quiet⟩
    · obtain ⟨rfl, -⟩ := htW.shut hsh
      rw [show (s.cancel .warm).control = none by
        simp [Coordinators.cancel, WarmTransferCoordinator.Phase.cancel_eq_none hpW]]
      exact ⟨rfl, nofun⟩
    · rwa [← coldAt_map_warm (WarmTransferCoordinator.cancel s.tel)] at hpC
    · rwa [← coldAt_map_warm (WarmTransferCoordinator.cancel s.tel)] at htC
  | cold =>
    simpa [Coordinators.cancel, ColdTransferCoordinator.cancel, ← hc] using h

/-- `shutdown` has returned at once. -/
theorem Inv.shutDown (h : Inv s) (hc : s.control = none)
    (hw : type = .warm → ∀ {live}, s.tel.warm.Phase s.tel.jobs none (warmAt s.esl) live →
      live = false)
    (hcd : type = .cold → ∀ {live}, s.tel.cold.Phase s.tel.legs none (coldAt s.esl) live →
      live = false) :
    Inv { s with log := s.log ++ [.shutDown type] } := by
  obtain ⟨liveW, hpW, htW⟩ := h.warm
  obtain ⟨liveC, hpC, htC⟩ := h.cold
  have hcW : warmAt s.control = none := by rw [hc]; rfl
  have hcC : coldAt s.control = none := by rw [hc]; rfl
  have hn (a : ℕ) : completions a (s.log ++ [.shutDown type]) = completions a s.log := by
    rw [completions_append]
    rfl
  refine ⟨⟨liveW, hpW, htW.shutDown fun ht => ?_⟩, ⟨liveC, hpC, htC.shutDown fun ht => ?_⟩,
    h.distinct, h.attempts, fun a ha => (hn a).trans (h.unused a ha),
    fun a => (hn a).symm ▸ h.once a, h.quiet.append_entry nofun⟩
  · rw [hcW] at hpW ⊢
    exact ⟨hw ht.symm hpW, nofun⟩
  · rw [hcC] at hpC ⊢
    exact ⟨hcd ht.symm hpC, nofun⟩

theorem Inv.shutdown (h : Inv s) (hst : s.step (.shutdown type) = some s') : Inv s' := by
  simp only [Coordinators.step] at hst
  split at hst
  case isFalse => cases hst
  case isTrue hc =>
  obtain rfl := Option.some.inj hst
  have h' : Inv { s with log := s.log ++ [.shutdown type (s.state type)] } := h.note rfl
  obtain ⟨liveW, hpW, htW⟩ := h'.warm
  obtain ⟨liveC, hpC, htC⟩ := h'.cold
  have hcW : warmAt s.control = none := by rw [hc]; rfl
  have hcC : coldAt s.control = none := by rw [hc]; rfl
  cases type with
  | warm =>
    cases hsd : WarmTransferCoordinator.shutdown s.tel with
    | none =>
      have heq : s.shutdown .warm = { s with
          log := s.log ++ [.shutdown .warm (s.state .warm)] ++ [.shutDown .warm] } := by
        simp [Coordinators.shutdown, hsd, hc]
      rw [heq]
      exact h'.shutDown hc (fun _ _ hp => (hp.shutdown.2 hsd).1) nofun
    | some pc =>
      have heq : s.shutdown .warm = { s with
          control := some (.warm pc), log := s.log ++ [.shutdown .warm (s.state .warm)] } := by
        simp [Coordinators.shutdown, hsd]
      have hpc := WarmTransferCoordinator.shutdown_ofShutdown hsd
      rw [heq]
      refine ⟨⟨liveW, ?_, htW.pending, fun hs => ⟨(htW.shut hs).1, ?_⟩⟩, ⟨liveC, ?_, ?_⟩, h.distinct,
        h.attempts, h'.unused, h'.once, h'.quiet⟩
      · change WarmTransferCoordinator.Phase _ _ (some pc) _ _
        rw [← hsd]
        change WarmTransferCoordinator.Phase _ _ (warmAt s.control) _ _ at hpW
        rw [hcW] at hpW
        exact hpW.shutdown.1
      · rintro _ ⟨⟩
        exact hpc
      · change ColdTransferCoordinator.Phase _ _ (coldAt s.control) _ _ at hpC
        rwa [hcC] at hpC
      · change Tracked _ _ _ (∀ pc, coldAt s.control = some pc → _) _ at htC
        rwa [hcC] at htC
  | cold =>
    cases hsd : ColdTransferCoordinator.shutdown s.tel with
    | none =>
      have heq : s.shutdown .cold = { s with
          log := s.log ++ [.shutdown .cold (s.state .cold)] ++ [.shutDown .cold] } := by
        simp [Coordinators.shutdown, hsd, hc]
      rw [heq]
      exact h'.shutDown hc nofun (fun _ _ hp => (hp.shutdown.2 hsd).1)
    | some pc =>
      have heq : s.shutdown .cold = { s with
          control := some (.cold pc), log := s.log ++ [.shutdown .cold (s.state .cold)] } := by
        simp [Coordinators.shutdown, hsd]
      have hpc := ColdTransferCoordinator.shutdown_ofShutdown hsd
      rw [heq]
      refine ⟨⟨liveW, ?_, ?_⟩, ⟨liveC, ?_, htC.pending, fun hs => ⟨(htC.shut hs).1, ?_⟩⟩, h.distinct,
        h.attempts, h'.unused, h'.once, h'.quiet⟩
      · change WarmTransferCoordinator.Phase _ _ (warmAt s.control) _ _ at hpW
        rwa [hcW] at hpW
      · change Tracked _ _ _ (∀ pc, warmAt s.control = some pc → _) _ at htW
        rwa [hcW] at htW
      · change ColdTransferCoordinator.Phase _ _ (some pc) _ _
        rw [← hsd]
        change ColdTransferCoordinator.Phase _ _ (coldAt s.control) _ _ at hpC
        rw [hcC] at hpC
        exact hpC.shutdown.1
      · rintro _ ⟨⟩
        exact hpc

theorem Inv.step (h : Inv s) {l : Label} (hg : Orderly s l) (hst : s.step l = some s') :
    Inv s' := by
  cases l with
  | start => exact h.start hg hst
  | cancel => exact h.cancel hg hst
  | shutdown => exact h.shutdown hst
  | control => exact h.control hg hst
  | event => exact h.event hg hst
  | esl => exact h.esl hst

/-- As long as the methods and the handlers of a coordinator do not get in each
    other's way, an attempt completes at most once, and a coordinator does
    nothing after the return of `shutdown`. -/
theorem reachable_completions (h : system.ReachableIf Orderly s) :
    (∀ a, completions a s.log ≤ 1) ∧ Quiet s.log :=
  have hI : Inv s := h.invariant inv_init fun _ _ _ hI hg => hI.step hg
  ⟨hI.once, hI.quiet⟩

/-- Without a handler, the warm coordinator has nothing to get in the way of. -/
theorem orderly_control (hesl : s.esl = none) (hc : s.control.map Pc.type = some .warm)
    (reply : EslReply) : Orderly s (.control reply) := by
  have hh (type : TransferType) : ¬s.handles type := by simp [handles, hesl]
  exact ⟨fun _ => hh .warm, fun _ => hh .cold, fun ctx h => by simp [h, Pc.type] at hc⟩

/-- No line to the agent is free, and the session shuts down the coordinator. -/
theorem reachable_completions_rejected :
    ∃ s, system.Reachable s ∧ isShutDown .warm s.log = true ∧
      (∀ a, completions a s.log ≤ 1) ∧ Quiet s.log := by
  let ctx : TransferCoordinatorContext := ⟨"call", "agent", "", "id", "", "announcement_silence"⟩
  have h₁ : system.ReachableIf Orderly _ :=
    .step (l := .start .warm ctx) .init ⟨nofun, nofun⟩ rfl
  have h₂ : system.ReachableIf Orderly _ :=
    .step (l := .control (.error "busy")) h₁ (orderly_control rfl rfl _) rfl
  have h₃ : system.ReachableIf Orderly _ :=
    .step (l := .control (.ok "")) h₂ (orderly_control rfl rfl _) rfl
  have h₄ : system.ReachableIf Orderly _ :=
    .step (l := .control (.ok "")) h₃ (orderly_control rfl rfl _) rfl
  have h₅ : system.ReachableIf Orderly _ :=
    .step (l := .control (.ok "")) h₄ (orderly_control rfl rfl _) rfl
  have h₆ : system.ReachableIf Orderly _ :=
    .step (l := .control (.ok "")) h₅ (orderly_control rfl rfl _) rfl
  have h₇ : system.ReachableIf Orderly _ := .step (l := .shutdown .warm) h₆ trivial rfl
  have h₈ : system.ReachableIf Orderly _ :=
    .step (l := .control (.ok "")) h₇ (orderly_control rfl rfl _) rfl
  have h₉ : system.ReachableIf Orderly _ :=
    .step (l := .control (.ok "")) h₈ (orderly_control rfl rfl _) rfl
  have h₁₀ : system.ReachableIf Orderly _ :=
    .step (l := .control (.ok "")) h₉ (orderly_control rfl rfl _) rfl
  exact ⟨_, h₁₀.reachable, by decide, reachable_completions h₁₀⟩

/-- The agent is busy, and the session gives up before it knows. -/
theorem not_reachable_completions :
    ¬∀ s, system.Reachable s → (∀ a, completions a s.log ≤ 1) ∧ Quiet s.log := by
  intro h
  let ctx : TransferCoordinatorContext := ⟨"call", "agent", "", "id", "", "announcement_silence"⟩
  have hexec : (system.exec {} [.start .warm ctx, .control (.ok "job"), .control (.ok ""),
      .event (.backgroundJob "job" "-ERR"), .cancel .warm, .control (.ok ""), .control (.ok ""),
      .control (.ok ""), .control (.ok ""), .control (.ok ""), .control (.ok ""), .esl (.ok ""),
      .esl (.ok ""), .esl (.ok ""), .esl (.ok ""), .esl (.ok "")]).map
        (fun s => completions 0 s.log) = some 2 := by decide +kernel
  obtain ⟨s, hs, hc⟩ := Option.map_eq_some_iff.1 hexec
  have hle := (h s (System.Reachable.exec .init hs)).1 0
  omega

end Coordinators

end Yuviz.Gateway
