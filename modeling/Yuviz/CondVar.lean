import Yuviz.System

/-!
# Condition variables

Threads wait on a condition variable until a condition holds that a flag is part of.
A thread evaluates its condition and blocks in two steps, under a mutex. If the flag
is set without the mutex, it may be set, and all threads notified, between the two,
and then the thread blocks with nobody left to wake it.

`CondVar` has of the threads, the flag and the notification only this. A system is
free of lost wake-ups if its steps are those of a `CondVar` (`safe_of_reachableIf`),
in which all are notified when no thread is between the two.
-/

namespace Yuviz

/-- Where a thread is, as seen from the condition variable. -/
inductive CondVar.Place
  | away
  /-- It has found its condition false, and is about to block. -/
  | deciding
  | blocked
  deriving DecidableEq

structure CondVar (I : Type*) where
  /-- The flag. -/
  stopped : Bool
  /-- All threads have been notified since. -/
  notified : Bool
  place : I → CondVar.Place

namespace CondVar

/-- The ways of a thread. A condition is not false once the flag is set. -/
inductive Moves (stopped : Bool) : Place → Place → Prop
  | stay (p : Place) : Moves stopped p p
  | decide : stopped = false → Moves stopped .away .deciding
  | block : Moves stopped .deciding .blocked
  | wake : Moves stopped .blocked .away

theorem Moves.eq_away {p : Place} (h : Moves true .away p) : p = .away := by
  cases h with
  | stay => rfl
  | decide h => cases h

variable {I : Type*}

inductive Step (s : CondVar I) : CondVar I → Prop
  | move {place : I → Place} (h : ∀ i, Moves s.stopped (s.place i) (place i)) :
    Step s { s with place := place }
  | stop : Step s { s with stopped := true }
  | notifyAll (hstopped : s.stopped = true) (h : ∀ i, s.place i ≠ .deciding) :
    Step s { s with notified := true, place := fun _ => .away }

/-- Once all are notified, nobody waits any more. -/
def Safe (s : CondVar I) : Prop := s.notified = true → s.stopped = true ∧ ∀ i, s.place i = .away

variable {s s' : CondVar I}

theorem Safe.step (h : s.Safe) (hst : Step s s') : s'.Safe := by
  cases hst with
  | move hmoves =>
    intro hnotified
    obtain ⟨hstopped, haway⟩ := h hnotified
    refine ⟨hstopped, fun i => ?_⟩
    have hmove := hmoves i
    rw [hstopped, haway i] at hmove
    exact hmove.eq_away
  | stop => exact fun hnotified => ⟨rfl, (h hnotified).2⟩
  | notifyAll hstopped => exact fun _ => ⟨hstopped, fun _ => rfl⟩

/-- A thread moves, and the others stay where they are. -/
theorem Step.move_update [DecidableEq I] {i : I} {p : Place} (h : Moves s.stopped (s.place i) p) :
    Step s { s with place := Function.update s.place i p } := by
  refine .move fun j => ?_
  by_cases hj : j = i
  · subst hj
    rwa [Function.update_self]
  · rw [Function.update_of_ne hj]
    exact .stay _

/-- A system whose steps are steps of a condition variable is safe. -/
theorem safe_of_reachableIf {S L : Type*} {sys : System S L} {g : S → L → Prop}
    (view : S → CondVar I) (hinit : (view sys.init).Safe)
    (hstep : ∀ s l s', g s l → sys.step s l = some s' → Step (view s) (view s')) {s : S}
    (hs : sys.ReachableIf g s) : (view s).Safe :=
  hs.invariant (I := fun s => (view s).Safe) hinit
    fun s l s' h hg hst => h.step (hstep s l s' hg hst)

end CondVar

end Yuviz
