import Mathlib
import Yuviz.System

/-!
# Stocks that threads wait for

Threads take from a stock, under a mutex, and wait on a condition variable while it is
empty. Whoever puts something back notifies one of the threads that wait. A thread that
has been notified is promised nothing: another may come first, and then it waits again.

`Semaphore` has of the stock and the threads only this. Nothing in stock is forgotten
while a thread waits (`heard_of_reachableIf`): there are as many threads that are about to
look at the stock as there are things in it.
-/

namespace Yuviz

/-- The sum over a function that is changed at one argument. -/
theorem sum_update_add {I β M : Type*} [Fintype I] [DecidableEq I] [AddCommMonoid M] (f : β → M)
    (g : I → β) (i : I) (x : β) :
    ∑ j, f (Function.update g i x j) + f (g i) = ∑ j, f (g j) + f x := by
  have hrest : ∑ j ∈ Finset.univ.erase i, f (Function.update g i x j) =
      ∑ j ∈ Finset.univ.erase i, f (g j) :=
    Finset.sum_congr rfl fun j hj => by rw [Function.update_of_ne (Finset.ne_of_mem_erase hj)]
  rw [← Finset.add_sum_erase _ _ (Finset.mem_univ i),
    ← Finset.add_sum_erase _ (fun j => f (g j)) (Finset.mem_univ i), hrest, Function.update_self]
  abel

/-- Where a thread is, as seen from the stock. -/
inductive Semaphore.Place
  | away
  /-- It is about to look at the stock. -/
  | ready
  | blocked
  deriving DecidableEq

structure Semaphore (I : Type*) where
  stock : ℕ
  place : I → Semaphore.Place

namespace Semaphore

variable {I : Type*} [DecidableEq I]

inductive Step (s : Semaphore I) : Semaphore I → Prop
  /-- Nothing happens, as far as the stock is concerned. -/
  | stay : Step s s
  /-- A thread comes, or a thread that waits wakes up. -/
  | rouse (i : I) : Step s { s with place := Function.update s.place i .ready }
  | take (i : I) (h : s.place i ≠ .blocked) :
    Step s { stock := s.stock - 1, place := Function.update s.place i .away }
  | block (i : I) (h : s.stock = 0) : Step s { s with place := Function.update s.place i .blocked }
  /-- One thing is put back, and one of the threads that wait is notified. -/
  | put (i : I) (h : s.place i = .blocked) :
    Step s { stock := s.stock + 1, place := Function.update s.place i .ready }
  /-- One thing is put back, and nobody waits. -/
  | putQuietly (h : ∀ i, s.place i ≠ .blocked) : Step s { s with stock := s.stock + 1 }

variable {s s' : Semaphore I} {i : I} {p : Place}

/-- Who waits after a thread has moved on waited before. -/
theorem exists_blocked_of_update (hp : p ≠ .blocked)
    (h : ∃ j, Function.update s.place i p j = .blocked) : ∃ j, s.place j = .blocked := by
  obtain ⟨j, hj⟩ := h
  by_cases heq : j = i
  · subst heq
    rw [Function.update_self] at hj
    exact absurd hj hp
  · exact ⟨j, by rwa [Function.update_of_ne heq] at hj⟩

variable [Fintype I]

/-- How many threads are about to look at the stock. -/
def readies (s : Semaphore I) : ℕ := ∑ i, if s.place i = .ready then 1 else 0

/-- While a thread waits, there is somebody coming for everything in stock. -/
def Heard (s : Semaphore I) : Prop := (∃ i, s.place i = .blocked) → s.stock ≤ s.readies

theorem readies_update : readies { s with place := Function.update s.place i p } +
      (if s.place i = .ready then 1 else 0) =
    s.readies + if p = .ready then 1 else 0 :=
  sum_update_add (fun q : Place => if q = .ready then 1 else 0) s.place i p

theorem Heard.step (h : s.Heard) (hst : Step s s') : s'.Heard := by
  cases hst with
  | stay => exact h
  | rouse i =>
    intro hblocked
    have hle := h (exists_blocked_of_update (by simp) hblocked)
    have hready := readies_update (s := s) (i := i) (p := .ready)
    have : (if s.place i = .ready then 1 else 0) ≤ 1 := by split_ifs <;> simp
    rw [if_pos rfl] at hready
    dsimp only at hle ⊢
    omega
  | take i hi =>
    intro hblocked
    have hle := h (exists_blocked_of_update (by simp) hblocked)
    have hready := readies_update (s := s) (i := i) (p := .away)
    have : (if s.place i = .ready then 1 else 0) ≤ 1 := by split_ifs <;> simp
    rw [if_neg (show Place.away ≠ .ready by decide)] at hready
    simp only [readies] at hle hready ⊢
    omega
  | block i hstock => exact fun _ => hstock ▸ Nat.zero_le _
  | put i hi =>
    intro hblocked
    have hle := h ⟨i, hi⟩
    have hready := readies_update (s := s) (i := i) (p := .ready)
    rw [if_pos rfl, if_neg (by simp [hi])] at hready
    simp only [readies] at hle hready ⊢
    omega
  | putQuietly hnone =>
    rintro ⟨i, hi⟩
    exact absurd hi (hnone i)

/-- A system whose steps are steps of a stock forgets nothing of it. -/
theorem heard_of_reachableIf {S L : Type*} {sys : System S L} {g : S → L → Prop}
    (view : S → Semaphore I) (hinit : (view sys.init).Heard)
    (hstep : ∀ s l s', g s l → sys.step s l = some s' → Step (view s) (view s')) {s : S}
    (hs : sys.ReachableIf g s) : (view s).Heard :=
  hs.invariant (I := fun s => (view s).Heard) hinit
    fun s l s' h hg hst => h.step (hstep s l s' hg hst)

end Semaphore

end Yuviz
